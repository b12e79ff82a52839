import NadSafe.CoreFrames
import NadSafe.FactorWrites
import NadSafe.GuardedScript
import NadSafe.SessionHandlers
import NadSafe.RotationWrites

/-!
# What requests write to the row of an account

Every handler of this part writes the row of one account only, and writes it
as a whole: the row it has loaded, with the fields that it sets. The contract
of a handler names these fields; it follows the text and holds for every state
in which a statement may be executed.
-/

namespace NadSafe.AccountWrites

open HostText TableRows AsyncScript ServerTables StoreScript ServerModels OrgHandlers SecondFactors
open AccountHandlers AccountRequests SessionHandlers KeyRotation RelyScript GuardedScript CoreFrames
open CipherHandlers (Panic fromExcept)

/-- The fields that decide who may sign in and read. -/
inductive Field where
  /-- `password_hash`, with the salt and the iterations it was made with. -/
  | passwordHash
  /-- `akey`. -/
  | akey
  /-- `private_key`. -/
  | privateKey
  /-- `security_stamp`. -/
  | securityStamp
  deriving DecidableEq

/-- Two rows agree in a field. -/
def Field.Agree (f : Field) (v w : User) : Prop :=
  match f with
  | .passwordHash => (v.passwordHash,v.salt,v.passwordIterations)=(w.passwordHash,w.salt,w.passwordIterations)
  | .akey => v.akey=w.akey
  | .privateKey => v.privateKey=w.privateKey
  | .securityStamp => v.securityStamp=w.securityStamp

theorem Field.agree_refl (f : Field) (v : User) : f.Agree v v := by cases f <;> exact rfl

theorem Field.Agree.trans {f : Field} {u v w : User} (h : f.Agree u v) (h' : f.Agree v w) : f.Agree u w := by
  cases f <;> exact Eq.trans h h'

theorem Field.Agree.symm {f : Field} {u v : User} (h : f.Agree u v) : f.Agree v u := by
  cases f <;> exact Eq.symm h

/-- A row of the same account that agrees in the fields that are not set, and
in the exception of the stamp unless one is granted. -/
structure Revised (sets : Field → Bool) (grants : Bool) (u w : User) : Prop where
  /-- Account. -/
  uuid : w.uuid=u.uuid
  /-- Fields. -/
  fields : ∀ f,sets f=false → f.Agree u w
  /-- Exception. -/
  stampException : grants=false → w.stampException=u.stampException

/-- A row that `u` is revised to may be revised again. -/
theorem Revised.trans {sets : Field → Bool} {grants : Bool} {u v w : User} (h : Revised sets grants u v)
    (h' : Revised sets grants v w) : Revised sets grants u w :=
  ⟨h'.uuid.trans h.uuid,fun f hf => (h.fields f hf).trans (h'.fields f hf),
    fun hg => (h'.stampException hg).trans (h.stampException hg)⟩

/-- The row that was loaded may be another one with the same fields. -/
theorem Revised.of_agree {sets : Field → Bool} {grants : Bool} {u v w : User} (h : Revised sets grants v w)
    (huuid : v.uuid=u.uuid) (hfields : ∀ f : Field,f.Agree u v) (hexception : v.stampException=u.stampException) :
    Revised sets grants u w :=
  ⟨h.uuid.trans huuid,fun f hf => (hfields f).trans (h.fields f hf),fun hg => (h.stampException hg).trans hexception⟩

/-- One statement leaves accounts, or saves a row of a kind. -/
def Saved (kind : User → Prop) (db db' : Database) : Prop :=
  db'.users=db.users ∨ ∃ w,kind w ∧ db'.users=put User.uuid w db.users

/-- All accounts that a handler saves are of a kind. -/
abbrev Saves {α : Type} (kind : User → Prop) (p : Action α) : Prop := Guards exec (Saved kind) p

/-- The accounts. -/
def accounts (db : Database) : List User := db.users

section Rules

variable {α β : Type} {kind : User → Prop} {settings : Settings} {u w : User}

theorem saved_refl (db : Database) : Saved kind db db := .inl rfl

theorem saves_frames {p : Action α} (h : Frames exec accounts p) : Saves kind p :=
  guards_of_frames (fun _ _ hsame => .inl hsame) h

theorem saves_core {p : Action α} (h : Frames exec core p) : Saves kind p :=
  saves_frames (frames_part h fun _ _ hcore => (core_cases hcore).2.2.2.2)

theorem saves_lookup {f : Tables → α} : Saves kind (lookup f) := Guards.query saved_refl _

theorem saves_getUuid : Saves kind getUuid := saves_frames (frames_getUuid fun _ => rfl)

theorem saves_utcNow : Saves kind utcNow := saves_frames frames_utcNow

theorem saves_fromExcept {r : Except String α} : Saves kind (fromExcept r) := by
  cases r with
  | ok a => exact Guards.pure a
  | error e => exact Guards.throw e

/-- A row of the kind is saved. -/
theorem saves_user (h : kind w) : Saves kind (User.save settings w) := by
  refine Guards.ite (fun _ => Guards.execute saved_refl fun db db' hc => ?_) fun _ => Guards.throw _
  refine .inr ⟨w,h,?_⟩
  rw [commit_eq hc]

theorem Saves.mono {kind' : User → Prop} {p : Action α} (h : Saves kind p) (himp : ∀ w,kind w → kind' w) :
    Saves kind' p :=
  Guards.mono (fun _ _ hs => hs.imp id fun ⟨w,hw,hput⟩ => ⟨w,himp w hw,hput⟩) h

/-- An error may be handled. -/
theorem saves_rescue {p : Action α} {handler : String → Action α} (h : Saves kind p)
    (hh : ∀ e,Saves kind (handler e)) : Saves kind (p.rescue handler) := Script.Obeys.rescue h hh

/-- A statement on other tables. -/
theorem frames_elsewhere {message : String} {f : Tables → Tables} (h : ∀ t,(f t).users=t.users) :
    Frames exec accounts (update message f) :=
  frames_update fun db db' heq => by
    unfold accounts
    rw [heq,h]

theorem frames_device {d : Device} : Frames exec accounts (Device.save d) := frames_elsewhere fun _ => rfl

theorem frames_factor {f : TwoFactor} : Frames exec accounts (TwoFactor.save f) := frames_elsewhere fun _ => rfl

theorem frames_deleteFactor {f : TwoFactor} : Frames exec accounts (TwoFactor.delete f) :=
  frames_elsewhere fun _ => rfl

theorem frames_fresh : Frames exec accounts getUuid := frames_getUuid fun _ => rfl

theorem frames_fromExcept {r : Except String α} : Frames exec accounts (fromExcept r) := by
  cases r with
  | ok a => exact Frames.pure a
  | error e => exact Frames.throw e

theorem frames_rotateTokens {user : Uuid} : Frames exec accounts (Device.rotateRefreshTokensByUser user) :=
  Frames.bind (frames_lookup _) fun _ => Frames.each fun _ _ => Frames.bind frames_fresh fun _ => frames_device

theorem frames_resetStamp : Frames exec accounts (User.resetSecurityStamp u) :=
  Frames.bind frames_fresh fun _ => Frames.bind frames_rotateTokens fun _ => Frames.pure _

theorem frames_setPassword {settings : FactorSettings} {password : Text} {key : Option Text} {reset : Bool}
    {routes : Option (List Text)} : Frames exec accounts (User.setPassword settings u password key reset routes) :=
  Frames.bind frames_utcNow fun _ => Frames.ite (fun _ => frames_resetStamp) fun _ => Frames.pure _

end Rules

section Factors

variable {settings : FactorSettings} {user : User} {id : Uuid}

theorem frames_protectedAction {otp : Text} {delete : Bool} :
    Frames exec accounts (validateProtectedActionOtp settings otp id delete) := by
  refine Frames.bind (frames_lookup _) fun found => Frames.bind (Frames.expect _ _) fun pa => ?_
  refine Frames.bind frames_fromExcept fun data => Frames.bind (Frames.ensure _ _) fun _ => ?_
  refine Frames.bind frames_utcNow fun now => Frames.ite (fun _ => ?_) fun _ => Frames.ite (fun _ => ?_) fun _ => ?_
  · exact Frames.bind frames_deleteFactor fun _ => Frames.throw _
  · exact Frames.bind frames_factor fun _ => Frames.throw _
  · exact Frames.ite (fun _ => frames_deleteFactor) fun _ => Frames.pure _

theorem frames_passwordOrOtp {data : PasswordOrOtpData} {delete : Bool} :
    Frames exec accounts (data.validate settings user delete) := by
  unfold PasswordOrOtpData.validate
  split
  · exact Frames.ensure _ _
  · exact frames_protectedAction
  · exact Frames.throw _

theorem frames_validateTotp {code secret : Text} :
    Frames exec accounts (validateTotpCode settings id code secret) := by
  refine Frames.bind (Frames.expect _ _) fun decoded => Frames.bind ?_ fun f => ?_
  · refine Frames.bind (frames_lookup _) fun found => ?_
    cases found with
    | some f => exact Frames.pure _
    | none => exact Frames.bind frames_fresh fun _ => Frames.pure _
  · refine Frames.bind frames_utcNow fun _ => Frames.bind (Frames.expect _ _) fun _ => ?_
    exact Frames.bind frames_factor fun _ => Frames.pure _

theorem frames_validateEmail {token : Text} {data : TwoFactorData} :
    Frames exec accounts (validateEmailCodeStr settings id token data) := by
  refine Frames.bind frames_fromExcept fun _ => Frames.bind (frames_lookup _) fun _ => ?_
  refine Frames.bind (Frames.expect _ _) fun _ => Frames.bind (Frames.expect _ _) fun _ => ?_
  refine Frames.ite (fun _ => Frames.bind frames_factor fun _ => Frames.throw _) fun _ => ?_
  refine Frames.bind frames_factor fun _ => Frames.bind (Frames.ensure _ _) fun _ => ?_
  exact Frames.bind frames_utcNow fun _ => Frames.ensure _ _

theorem frames_enforcePolicy {settings : Settings} {out : Outside} :
    Frames exec accounts (enforce2faPolicy settings out user) := by
  refine Frames.bind (frames_lookup _) fun members => Frames.each fun m _ => ?_
  refine Frames.ite (fun _ => Frames.pure _) fun _ => Frames.bind ?_ fun _ => frames_elsewhere fun _ => rfl
  refine Frames.ite (fun _ => ?_) fun _ => Frames.pure _
  exact Frames.bind (frames_lookup _) fun _ => Frames.bind (Frames.expect _ _) fun _ => Frames.ensure _ _

/-- The recovery code is drawn, and the row saved with it. -/
theorem saves_recoverCode {sets : Field → Bool} {grants : Bool} {code : Text} :
    Saves (Revised sets grants user) (generateRecoverCode settings code user) :=
  Guards.ite (fun _ => Guards.ok (saves_user ⟨rfl,fun f _ => by cases f <;> exact rfl,fun _ => rfl⟩))
    fun _ => Guards.pure _

end Factors

/-- The fields that a request sets. -/
def setsOf : AccountRequests.Request → Field → Bool
  | .postKeys _,.privateKey => true
  | .postPassword _,.passwordHash => true
  | .postPassword _,.akey => true
  | .postPassword _,.securityStamp => true
  | .postSetPassword _ _,.passwordHash => true
  | .postSetPassword _ _,.akey => true
  | .postSetPassword _ _,.privateKey => true
  | .postKdf _,.passwordHash => true
  | .postKdf _,.akey => true
  | .postKdf _,.securityStamp => true
  | .postRotatekey _,_ => true
  | .postSstamp _,.securityStamp => true
  | .postEmail _,.passwordHash => true
  | .postEmail _,.akey => true
  | .postEmail _,.securityStamp => true
  | .verifyPassword _,.passwordHash => true
  | _,_ => false

/-- The routes that a request lets the old stamp use. -/
def routesOf : AccountRequests.Request → Option (List Text)
  | .postPassword _ => some passwordRoutes
  | .postSetPassword _ _ => some ["revision_date".toList]
  | _ => none

section Handlers

variable {settings : RequestSettings} {user : User} {kind : User → Prop}

/-- The row after `set_password`. -/
def Renewed (settings : FactorSettings) (password : Text) (key : Option Text) (reset : Bool)
    (routes : Option (List Text)) (u w : User) : Prop :=
  ∃ now stamp,(reset=false → stamp=u.securityStamp) ∧ w={User.setStampException routes now
    {u with passwordHash := settings.hashPassword password u.salt u.passwordIterations} with
      akey := key.getD u.akey, securityStamp := stamp}

/-- The parts of a row that a new password leaves. -/
theorem Renewed.parts {settings : FactorSettings} {password : Text} {key : Option Text} {reset : Bool}
    {routes : Option (List Text)} {u w : User} (h : Renewed settings password key reset routes u w) :
    w.uuid=u.uuid ∧ w.privateKey=u.privateKey ∧ w.akey=key.getD u.akey ∧
      User.checkValidPassword settings w password=true ∧ (reset=false → w.securityStamp=u.securityStamp) ∧
      (routes=none → w.stampException=u.stampException) := by
  obtain ⟨now,stamp,hstamp,rfl⟩ := h
  have hvalid : ∀ v : User,v.passwordHash=settings.hashPassword password v.salt v.passwordIterations →
      User.checkValidPassword settings v password=true := fun v hv => decide_eq_true hv.symm
  cases routes with
  | none => exact ⟨rfl,rfl,rfl,hvalid _ rfl,hstamp,fun _ => rfl⟩
  | some routes => exact ⟨rfl,rfl,rfl,hvalid _ rfl,hstamp,fun h => by cases h⟩

/-- The row that `set_password` returns, whatever the state is. -/
theorem obeys_setPassword {settings : FactorSettings} {password : Text} {key : Option Text} {reset : Bool}
    {routes : Option (List Text)} : (User.setPassword settings user password key reset routes).Obeys
      (fun c => ∀ s,Saved kind s (exec c s).2) (fun _ _ => True) (Renewed settings password key reset routes user) := by
  have hclock : Saves kind utcNow := saves_utcNow
  have hdraw : Saves kind getUuid := saves_getUuid
  unfold User.setPassword
  refine Script.Obeys.bind hclock fun now _ => ?_
  dsimp only
  split
  · rename_i hreset
    refine Script.Obeys.bind hdraw fun stamp _ => ?_
    refine Script.Obeys.bind (saves_frames frames_rotateTokens) fun _ _ => ?_
    refine ⟨now,stamp,fun h => (by rw [hreset] at h; cases h),?_⟩
    cases routes <;> exact rfl
  · refine ⟨now,user.securityStamp,fun _ => rfl,?_⟩
    cases routes <;> exact rfl

/-- A new password, and what is done with the row. -/
theorem obeys_password {settings : FactorSettings} {password : Text} {key : Option Text} {reset : Bool}
    {routes : Option (List Text)} {α : Type} {g : User → Action α} {Q : α → Prop}
    (hg : ∀ w,Renewed settings password key reset routes user w →
      (g w).Obeys (fun c => ∀ s,Saved kind s (exec c s).2) (fun _ _ => True) Q) :
    ((User.setPassword settings user password key reset routes).bind g).Obeys
      (fun c => ∀ s,Saved kind s (exec c s).2) (fun _ _ => True) Q :=
  Script.Obeys.bind obeys_setPassword hg

theorem saves_password {settings : FactorSettings} {password : Text} {key : Option Text} {reset : Bool}
    {routes : Option (List Text)} {α : Type} {g : User → Action α}
    (hg : ∀ w,Renewed settings password key reset routes user w → Saves kind (g w)) :
    Saves kind ((User.setPassword settings user password key reset routes).bind g) := obeys_password hg

/-- Rows that a renewed row is saved as. -/
theorem revised_of_renewed {settings : FactorSettings} {password : Text} {key : Option Text} {reset : Bool}
    {routes : Option (List Text)} {sets : Field → Bool} {u w : User}
    (h : Renewed settings password key reset routes u w) (hhash : sets .passwordHash=true)
    (hkey : sets .akey=false → key=none) (hstamp : sets .securityStamp=false → reset=false) :
    Revised sets routes.isSome u w := by
  obtain ⟨huuid,hprivate,hakey,-,hold,hroutes⟩ := h.parts
  refine ⟨huuid,fun f hf => ?_,fun hnone => hroutes (Option.isSome_eq_false_iff.mp hnone |> Option.isNone_iff_eq_none.mp)⟩
  cases f with
  | passwordHash => rw [hhash] at hf; cases hf
  | akey =>
    show u.akey=w.akey
    rw [hakey,hkey hf]
    rfl
  | privateKey => exact hprivate.symm
  | securityStamp => exact (hold (hstamp hf)).symm

/-- A row that is the same in all fields of this module. -/
theorem saves_same {settings : Settings} {sets : Field → Bool} {grants : Bool} {w : User} (huuid : w.uuid=user.uuid)
    (hfields : ∀ f : Field,f.Agree user w) (hexception : w.stampException=user.stampException) :
    Saves (Revised sets grants user) (User.save settings w) :=
  saves_user ⟨huuid,fun f _ => hfields f,fun _ => hexception⟩

theorem saves_profile {sets : Field → Bool} {grants : Bool} {name : Text} :
    Saves (Revised sets grants user) (postProfile settings name user) :=
  Guards.bind (Guards.ensure _ _) fun _ => saves_same rfl (fun f => by cases f <;> exact rfl) rfl

theorem saves_avatar {sets : Field → Bool} {grants : Bool} {color : Option Text} :
    Saves (Revised sets grants user) (putAvatar settings color user) :=
  Guards.bind (Guards.ensure _ _) fun _ => saves_same rfl (fun f => by cases f <;> exact rfl) rfl

theorem saves_keys {data : KeysData} :
    Saves (Revised (setsOf (.postKeys data)) false user) (postKeys settings data user) :=
  saves_user ⟨rfl,fun f hf => (by cases f <;> first | exact rfl | cases hf),fun _ => rfl⟩

theorem saves_changePassword {data : ChangePassData} :
    Saves (Revised (setsOf (.postPassword data)) true user) (postPassword settings data user) := by
  refine Guards.bind (Guards.ensure _ _) fun _ => Guards.bind (Guards.ensure _ _) fun _ => ?_
  refine saves_password fun w hw => saves_user ?_
  have hrevised : Revised (setsOf (.postPassword data)) true _ w :=
    revised_of_renewed hw rfl (fun h => by cases h) fun h => by cases h
  exact hrevised.of_agree rfl (fun f => by cases f <;> exact rfl) rfl

theorem frames_acceptInvite {settings : Settings} {out : Outside} {m : Membership} {key : Option Text} :
    Frames exec accounts (acceptOrgInvite settings out user m key) := by
  have hallowed : ∀ m : Membership,Frames exec accounts (OrgPolicy.checkUserAllowed settings m "join") := by
    intro m
    refine Frames.ite (fun _ => Frames.bind ?_ fun _ => ?_) fun _ => Frames.pure _
    · refine Frames.bind (frames_lookup _) fun _ => Frames.bind (frames_lookup _) fun _ => ?_
      refine Frames.ite (fun _ => Frames.pure _) fun _ => Frames.ite (fun _ => ?_) fun _ => Frames.throw _
      refine Frames.bind (frames_lookup _) fun found => ?_
      cases found with
      | none => exact Frames.throw _
      | some u =>
        refine Frames.ite (fun _ => ?_) fun _ => Frames.throw _
        exact Frames.bind frames_fresh fun _ => Frames.bind frames_utcNow fun _ => frames_elsewhere fun _ => rfl
    · exact Frames.bind frames_applicable fun _ => Frames.bind (Frames.ensure _ _) fun _ => frames_checkSingleOrg
  refine Frames.bind (Frames.ensure _ _) fun _ => Frames.bind (hallowed _) fun _ => ?_
  refine Frames.bind (frames_elsewhere fun _ => rfl) fun _ => Frames.ite (fun _ => ?_) fun _ => Frames.pure _
  exact Frames.bind (frames_lookup _) fun _ => Frames.bind (Frames.expect _ _) fun _ => Frames.ensure _ _

theorem frames_acceptIdentified {settings : Settings} {out : Outside} {org : Option Uuid} :
    Frames exec accounts (acceptIdentified settings out user org) := by
  cases org with
  | none => exact Frames.pure _
  | some org =>
    refine Frames.bind (frames_lookup _) fun _ => Frames.bind (Frames.expect _ _) fun _ => ?_
    refine Frames.bind (frames_lookup _) fun _ => Frames.bind (Frames.expect _ _) fun _ => frames_acceptInvite

/-- Accepted parameters of a key derivation change nothing else. -/
theorem agree_setKdfData {data : KDFData} {u w : User} (h : setKdfData u data=.ok w) :
    ∃ kdf,w={u with clientKdf := kdf} := by
  unfold setKdfData at h
  split at h
  · cases h
  · split at h
    · split at h
      · cases h
        exact ⟨_,rfl⟩
      · cases h
    · cases h
      exact ⟨_,rfl⟩

/-- A value that was computed, and the rest. -/
theorem saves_computed {α β : Type} {r : Except String α} {g : α → Action β}
    (h : ∀ a,r=.ok a → Saves kind (g a)) : Saves kind ((fromExcept r).bind g) := by
  cases r with
  | ok a => exact h a rfl
  | error e => exact Guards.throw e

theorem saves_setPassword {out : Outside} {data : SetPasswordData} :
    Saves (Revised (setsOf (.postSetPassword out data)) true user) (postSetPassword settings out data user) := by
  refine Guards.bind (Guards.ensure _ _) fun _ => Guards.bind (Guards.ensure _ _) fun _ => ?_
  refine saves_computed fun u hu => saves_password fun w hw => ?_
  obtain ⟨kdf,rfl⟩ := agree_setKdfData hu
  have hrevised : Revised (setsOf (.postSetPassword out data)) true _ w :=
    revised_of_renewed hw rfl (fun h => by cases h) fun _ => rfl
  have hrow : Revised (setsOf (.postSetPassword out data)) true user w :=
    hrevised.of_agree rfl (fun f => by cases f <;> exact rfl) rfl
  have hkeys : Revised (setsOf (.postSetPassword out data)) true w
      (withKeys data.keys {w with passwordHint := cleanPasswordHint data.masterPasswordHint}) := by
    unfold withKeys
    cases data.keys with
    | none => exact ⟨rfl,fun f _ => (by cases f <;> exact rfl),fun _ => rfl⟩
    | some keys => exact ⟨rfl,fun f hf => (by cases f <;> first | exact rfl | cases hf),fun _ => rfl⟩
  refine Guards.bind (saves_frames frames_acceptIdentified) fun _ => Guards.bind ?_ fun _ => saves_user (hrow.trans hkeys)
  exact Guards.ite (fun _ => Guards.ensure _ _) fun _ => saves_frames (frames_elsewhere fun _ => rfl)

theorem saves_kdf {data : ChangeKdfData} :
    Saves (Revised (setsOf (.postKdf data)) false user) (postKdf settings data user) := by
  refine Guards.bind (Guards.ensure _ _) fun _ => Guards.bind (Guards.ensure _ _) fun _ => ?_
  refine Guards.bind (Guards.ensure _ _) fun _ => saves_computed fun u hu => saves_password fun w hw => ?_
  obtain ⟨kdf,rfl⟩ := agree_setKdfData hu
  have hrevised : Revised (setsOf (.postKdf data)) false _ w :=
    revised_of_renewed hw rfl (fun h => by cases h) fun h => by cases h
  exact saves_user (hrevised.of_agree rfl (fun f => by cases f <;> exact rfl) rfl)

theorem frames_folder {f : Folder} : Frames exec accounts (Folder.save f) := frames_elsewhere fun _ => rfl

theorem frames_updateAttachments {cipher : Uuid} {list : List (Uuid×CipherHandlers.Attachments2Data)} :
    Frames exec accounts (CipherHandlers.updateAttachments cipher list) := by
  induction list with
  | nil => exact Frames.pure _
  | cons x list ih =>
    refine Frames.bind (frames_lookup _) fun found => ?_
    cases found with
    | none => exact ih
    | some a =>
      exact Frames.ite (fun _ => Frames.pure _) fun _ => Frames.bind (frames_elsewhere fun _ => rfl) fun _ => ih

theorem frames_moveToFolder {cipher : Uuid} {folder : Option Uuid} {id : Uuid} :
    Frames exec accounts (CipherHandlers.Cipher.moveToFolder cipher folder id) := by
  refine Frames.bind (frames_lookup _) fun old => ?_
  cases old with
  | none =>
    cases folder with
    | none => exact Frames.pure _
    | some new => exact frames_elsewhere fun _ => rfl
  | some old =>
    cases folder with
    | none =>
      exact Frames.bind (frames_lookup _) fun _ => Frames.bind (Frames.expect _ _) fun _ => frames_elsewhere fun _ => rfl
    | some new =>
      refine Frames.ite (fun _ => Frames.pure _) fun _ => Frames.bind (frames_lookup _) fun row => ?_
      cases row with
      | none => exact frames_elsewhere fun _ => rfl
      | some row => exact Frames.bind (frames_elsewhere fun _ => rfl) fun _ => frames_elsewhere fun _ => rfl

theorem frames_setFavorite {favorite : Option Bool} {cipher id : Uuid} :
    Frames exec accounts (CipherHandlers.Cipher.setFavorite favorite cipher id) := by
  cases favorite with
  | none => exact Frames.pure _
  | some new =>
    refine Frames.bind (frames_lookup _) fun old => ?_
    cases old <;> cases new <;> first | exact Frames.pure _ | exact frames_elsewhere fun _ => rfl

theorem frames_updateCipher {settings : CipherHandlers.VaultSettings} {id : Uuid} {c : Cipher}
    {data : CipherHandlers.CipherData} {shared : Option (List Uuid)} {ut : CipherHandlers.UpdateType} :
    Frames exec accounts (CipherHandlers.updateCipherFromData settings id c data shared ut) := by
  unfold CipherHandlers.updateCipherFromData
  refine Frames.bind ?_ fun _ => Frames.bind (Frames.ensure _ _) fun _ => Frames.bind (Frames.ensure _ _) fun _ =>
    Frames.bind (Frames.ensure _ _) fun _ => Frames.bind ?_ fun c => ?_
  · exact Frames.ite (fun _ => Frames.bind frames_applicable fun _ => Frames.ensure _ _) fun _ => Frames.pure _
  · unfold CipherHandlers.assignOwner
    split
    · exact Frames.pure _
    · exact Frames.bind (frames_lookup _) fun _ => Frames.bind (Frames.expect _ _) fun _ =>
        Frames.bind (frames_lookup _) fun _ => Frames.bind (Frames.ensure _ _) fun _ => Frames.pure _
  · refine Frames.bind (frames_lookup _) fun _ => Frames.bind (Frames.ensure _ _) fun _ => ?_
    refine Frames.bind frames_updateAttachments fun _ => Frames.bind frames_fromExcept fun _ => ?_
    refine Frames.bind (frames_lookup _) fun _ => Frames.bind (frames_elsewhere fun _ => rfl) fun _ => ?_
    exact Frames.bind frames_moveToFolder fun _ => Frames.bind frames_setFavorite fun _ => Frames.pure _

/-- The new password at the end of a rotation. -/
theorem saves_rotateUser {data : KeyData} :
    Saves (Revised (setsOf (.postRotatekey data)) false user) (rotateUser settings.toRotationSettings user data) := by
  refine saves_password fun w hw => ?_
  have hrevised : Revised (setsOf (.postRotatekey data)) false _ w :=
    revised_of_renewed hw rfl (fun h => by cases h) fun h => by cases h
  exact saves_user ⟨hrevised.uuid,(fun f hf => by cases f <;> cases hf),hrevised.stampException⟩

theorem saves_rotatekey {data : KeyData} :
    Saves (Revised (setsOf (.postRotatekey data)) false user) (AccountRequests.postRotatekey settings data user) := by
  refine Guards.bind (Guards.ensure _ _) fun _ => Guards.bind (Guards.ensure _ _) fun _ => ?_
  refine Guards.bind saves_lookup fun _ => Guards.bind saves_lookup fun _ => Guards.bind saves_lookup fun _ => ?_
  refine Guards.bind saves_lookup fun _ => Guards.bind saves_lookup fun _ => Guards.bind saves_fromExcept fun _ => ?_
  refine Guards.bind (saves_frames (RotationWrites.frames_rotateRows fun f d => ?_)) fun _ => ?_
  · exact Frames.bind frames_folder fun _ => Frames.pure _
  refine Guards.bind (saves_frames (RotationWrites.frames_rotateRows fun e d => ?_)) fun _ => ?_
  · exact Frames.bind (frames_elsewhere fun _ => rfl) fun _ => Frames.pure _
  refine Guards.bind (saves_frames (RotationWrites.frames_rotateRows fun m d => ?_)) fun _ => ?_
  · exact Frames.bind (frames_elsewhere fun _ => rfl) fun _ => Frames.pure _
  refine Guards.bind (saves_frames (RotationWrites.frames_rotateRows fun q d => ?_)) fun _ => ?_
  · refine Frames.bind (Frames.ensure _ _) fun _ => Frames.bind (Frames.ensure _ _) fun _ => ?_
    refine Frames.bind frames_utcNow fun _ => Frames.bind (Frames.ensure _ _) fun _ => ?_
    refine Frames.bind (Frames.expect _ _) fun _ => Frames.bind frames_fromExcept fun _ => ?_
    exact Frames.bind (frames_elsewhere fun _ => rfl) fun _ => Frames.pure _
  refine Guards.bind (saves_frames (RotationWrites.frames_rotateRows fun c d => frames_updateCipher)) fun _ => ?_
  exact saves_rotateUser

theorem saves_sstamp {data : PasswordOrOtpData} :
    Saves (Revised (setsOf (.postSstamp data)) false user) (postSstamp settings data user) := by
  refine Guards.bind (saves_frames frames_passwordOrOtp) fun _ => ?_
  have hstamp : (User.resetSecurityStamp user).Obeys
      (fun c => ∀ s,Saved (Revised (setsOf (.postSstamp data)) false user) s (exec c s).2) (fun _ _ => True)
      (Revised (setsOf (.postSstamp data)) false user) := by
    have hdraw : Saves (Revised (setsOf (.postSstamp data)) false user) getUuid := saves_getUuid
    refine Script.Obeys.bind hdraw fun stamp _ => ?_
    refine Script.Obeys.bind (saves_frames frames_rotateTokens) fun _ _ => ?_
    exact ⟨rfl,fun f hf => (by cases f <;> first | exact rfl | cases hf),fun _ => rfl⟩
  refine Script.Obeys.bind hstamp fun w hw => ?_
  refine Guards.bind (saves_rescue (Guards.bind (saves_user hw) fun _ => Guards.pure _) fun _ => Guards.pure _)
    fun result => Guards.bind (saves_frames (frames_elsewhere fun _ => rfl)) fun _ => ?_
  cases result with
  | none => exact Guards.pure _
  | some e => exact Guards.throw _

theorem saves_emailToken {sets : Field → Bool} {grants : Bool} {token hash newEmail : Text} :
    Saves (Revised sets grants user) (AccountRequests.postEmailToken settings token hash newEmail user) := by
  refine Guards.bind (Guards.ensure _ _) fun _ => Guards.bind (Guards.ensure _ _) fun _ => ?_
  refine Guards.bind saves_lookup fun _ => Guards.bind (Guards.ensure _ _) fun _ => ?_
  exact Guards.bind (Guards.ensure _ _) fun _ => saves_same rfl (fun f => by cases f <;> exact rfl) rfl

theorem saves_email {data : ChangeEmailData} :
    Saves (Revised (setsOf (.postEmail data)) false user) (AccountRequests.postEmail settings data user) := by
  refine Guards.bind (Guards.ensure _ _) fun _ => Guards.bind (Guards.ensure _ _) fun _ => ?_
  refine Guards.bind saves_lookup fun _ => Guards.bind (Guards.ensure _ _) fun _ => ?_
  refine Guards.bind saves_fromExcept fun _ => Guards.bind saves_fromExcept fun _ => ?_
  refine saves_password fun w hw => saves_user ?_
  have hrevised : Revised (setsOf (.postEmail data)) false _ w :=
    revised_of_renewed hw rfl (fun h => by cases h) fun h => by cases h
  exact hrevised.of_agree rfl (fun f => by cases f <;> exact rfl) rfl

/-- The upgrade writes the row and hands it on. -/
theorem obeys_kdfUpgrade {hash : Text} {sets : Field → Bool} (hsets : sets .passwordHash=true) :
    (kdfUpgrade settings user hash).Obeys (fun c => ∀ s,Saved (Revised sets false user) s (exec c s).2)
      (fun _ _ => True) (Revised sets false user) := by
  have hsame : Revised sets false user user := ⟨rfl,fun f _ => f.agree_refl user,fun _ => rfl⟩
  unfold kdfUpgrade
  split
  · refine obeys_password fun w hw => ?_
    have hrevised : Revised sets false _ w := revised_of_renewed hw hsets (fun _ => rfl) fun _ => rfl
    have hrow : Revised sets false user w := by
      refine ⟨hrevised.uuid,fun f hf => ?_,hrevised.stampException⟩
      have hagree := hrevised.fields f hf
      cases f with
      | passwordHash => rw [hsets] at hf; cases hf
      | akey => exact hagree
      | privateKey => exact hagree
      | securityStamp => exact hagree
    exact Script.Obeys.bind (Guards.ok (saves_user hrow)) fun _ _ => hrow
  · exact hsame

theorem saves_verifyPassword {hash : Text} :
    Saves (Revised (setsOf (.verifyPassword hash)) false user) (verifyPassword settings hash user) :=
  Guards.bind (Guards.ensure _ _) fun _ => Script.Obeys.bind (obeys_kdfUpgrade rfl) fun _ _ => Guards.pure _

theorem saves_apiKey {sets : Field → Bool} {grants : Bool} {apiKey : Text} {rotate : Bool} {data : PasswordOrOtpData} :
    Saves (Revised sets grants user) (updateApiKey settings apiKey rotate data user) := by
  refine Guards.bind (saves_frames frames_passwordOrOtp) fun _ => Guards.ite (fun _ => ?_) fun _ => Guards.pure _
  exact saves_rescue (saves_same rfl (fun f => by cases f <;> exact rfl) rfl) fun _ => Guards.throw _

theorem saves_authenticator {sets : Field → Bool} {grants : Bool} {code key token : Text} {data : PasswordOrOtpData} :
    Saves (Revised sets grants user) (AccountRequests.activateAuthenticator settings code key token data user) :=
  Guards.bind (saves_frames frames_passwordOrOtp) fun _ => Guards.bind (Guards.expect _ _) fun _ =>
    Guards.bind (Guards.ensure _ _) fun _ => Guards.bind (saves_frames frames_validateTotp) fun _ => saves_recoverCode

theorem saves_emailFactor {sets : Field → Bool} {grants : Bool} {code token : Text} {data : PasswordOrOtpData} :
    Saves (Revised sets grants user) (activateEmail settings code token data user) :=
  Guards.bind (saves_frames frames_passwordOrOtp) fun _ => Guards.bind saves_lookup fun _ =>
    Guards.bind (Guards.expect _ _) fun _ => Guards.bind saves_fromExcept fun _ =>
      Guards.bind (Guards.expect _ _) fun _ => Guards.bind (Guards.ensure _ _) fun _ =>
        Guards.bind (saves_frames frames_factor) fun _ => saves_recoverCode

theorem saves_yubikey {sets : Field → Bool} {grants : Bool} {services : Services} {code : Text}
    {keys : List (Option Text)} {nfc : Bool} {data : PasswordOrOtpData} :
    Saves (Revised sets grants user) (AccountRequests.activateYubikey settings services code keys nfc data user) := by
  refine Guards.bind (saves_frames frames_passwordOrOtp) fun _ => Guards.bind ?_ fun f => ?_
  · refine Guards.bind saves_lookup fun found => ?_
    cases found with
    | some f => exact Guards.pure _
    | none => exact Guards.bind saves_getUuid fun _ => Guards.pure _
  · refine Guards.ite (fun _ => Guards.pure _) fun _ => Guards.bind (Guards.ensure _ _) fun _ => ?_
    exact Guards.bind (saves_frames frames_factor) fun _ => saves_recoverCode

theorem saves_webauthn {sets : Field → Bool} {grants : Bool} {code : Text} {id : NumberOrString}
    {name response : Text} {data : PasswordOrOtpData} :
    Saves (Revised sets grants user) (AccountRequests.activateWebauthn settings code id name response data user) :=
  Guards.bind (saves_frames frames_passwordOrOtp) fun _ => Guards.bind saves_lookup fun _ =>
    Guards.bind (Guards.expect _ _) fun _ => Guards.bind (Guards.expect _ _) fun _ =>
      Guards.bind (saves_frames frames_deleteFactor) fun _ => Guards.bind (Guards.expect _ _) fun _ =>
        Guards.bind (saves_frames FactorWrites.frames_registrations) fun _ => Guards.bind saves_fromExcept fun _ =>
          Guards.bind saves_getUuid fun _ => Guards.bind (saves_frames frames_factor) fun _ => saves_recoverCode

theorem saves_duo {sets : Field → Bool} {grants : Bool} {services : Services} {code : Text}
    {fields : EnableDuoData} {data : PasswordOrOtpData} :
    Saves (Revised sets grants user) (AccountRequests.activateDuo settings services code fields data user) :=
  Guards.bind (saves_frames frames_passwordOrOtp) fun _ => Guards.bind (Guards.ensure _ _) fun _ =>
    Guards.bind (Guards.ensure _ _) fun _ => Guards.bind saves_getUuid fun _ =>
      Guards.bind (saves_frames frames_factor) fun _ => saves_recoverCode

/-- A request saves the row it was given, with the fields that it sets. -/
theorem saves_handle (request : AccountRequests.Request) :
    Saves (Revised (setsOf request) (routesOf request).isSome user) (request.handle settings user) := by
  cases request with
  | read route => exact Guards.pure _
  | postProfile name => exact saves_profile
  | putAvatar color => exact saves_avatar
  | postKeys data => exact saves_keys
  | postPassword data => exact saves_changePassword
  | postSetPassword out data => exact saves_setPassword
  | postKdf data => exact saves_kdf
  | postRotatekey data => exact saves_rotatekey
  | postSstamp data => exact saves_sstamp
  | postEmailToken token hash newEmail => exact saves_emailToken
  | postEmail data => exact saves_email
  | verifyPassword hash => exact saves_verifyPassword
  | updateApiKey apiKey rotate data => exact saves_apiKey
  | postSettingsDomains => exact saves_same rfl (fun f => f.agree_refl _) rfl
  | activateAuthenticator code key token data => exact saves_authenticator
  | activateEmail code token data => exact saves_emailFactor
  | activateYubikey services code keys nfc data => exact saves_yubikey
  | activateWebauthn code id name response data => exact saves_webauthn
  | activateDuo services code fields data => exact saves_duo
  | getRecover data => exact saves_frames frames_passwordOrOtp

end Handlers

section Sessions

variable {settings : SessionSettings} {out : LoginOutside} {data : ConnectData} {user : User} {device : Device}

/-- A refresh writes devices only. -/
theorem frames_refresh {exchange : Bool} {claims : RefreshJwtClaims} :
    Frames exec accounts (refreshLogin settings exchange claims) := by
  have hmethod : ∀ sub,Frames exec accounts (refreshMethod settings exchange sub) := by
    intro sub
    cases sub with
    | sso =>
      refine Frames.ite (fun _ => ?_) fun _ => Frames.throw _
      exact Frames.ite (fun _ => Frames.pure _) fun _ => Frames.ensure _ _
    | password => exact Frames.ite (fun _ => Frames.throw _) fun _ => Frames.pure _
    | orgApiKey => exact Frames.throw _
    | userApiKey => exact Frames.throw _
  refine Frames.bind ?_ fun _ => Frames.bind frames_device fun _ => Frames.pure _
  refine Frames.bind (frames_lookup _) fun _ => Frames.bind (Frames.expect _ _) fun d => ?_
  refine Frames.bind frames_device fun _ => Frames.bind (frames_lookup _) fun _ => ?_
  exact Frames.bind (Frames.expect _ _) fun _ => Frames.bind (hmethod _) fun _ => Frames.pure _

theorem frames_getDevice : Frames exec accounts (getDevice data user) := by
  refine Frames.bind (frames_lookup _) fun found => ?_
  cases found with
  | some d => exact Frames.pure _
  | none => exact Frames.bind frames_fresh fun _ => Frames.bind frames_device fun _ => Frames.pure _

theorem frames_checkMail {authRequest : Option Text} {password ip : Text} {requests : FirstFactor.AuthRequests} :
    Frames exec accounts (FirstFactor.passwordLoginCheck settings.toFactorSettings requests ip user authRequest
      password) := by
  cases authRequest with
  | none => exact Frames.ensure _ _
  | some id => exact Frames.bind (Frames.expect _ _) fun _ => Frames.bind frames_utcNow fun _ => Frames.ensure _ _

theorem frames_response {tokens : AuthTokens} :
    Frames exec accounts (authenticatedResponse settings out user device tokens) := by
  refine Frames.bind (Frames.ite (fun _ => Frames.ensure _ _) fun _ => Frames.pure _) fun _ => Frames.bind ?_ fun _ =>
    Frames.bind frames_device fun _ => Frames.pure _
  refine Frames.ite (fun _ => Frames.pure _) fun _ => ?_
  cases out.push with
  | none => exact Frames.pure _
  | some answered => exact Frames.bind (Frames.ensure _ _) fun _ => frames_device

/-- A recovery code removes the factors and itself. -/
theorem saves_twofactorAuth {sets : Field → Bool} {grants : Bool} :
    Saves (Revised sets grants user) (twofactorAuth settings out data user device) := by
  refine Guards.bind saves_lookup fun factors => Guards.ite (fun _ => ?_) fun _ => ?_
  · exact Guards.bind (saves_frames frames_enforcePolicy) fun _ => Guards.pure _
  refine Guards.bind (Guards.expect _ _) fun _ => Guards.bind (Guards.ensure _ _) fun _ => ?_
  refine Guards.bind (Guards.expect _ _) fun code => Guards.bind ?_ fun _ =>
    Guards.ite (fun _ => Guards.pure _) fun _ => Guards.pure _
  refine Guards.ite (fun _ => ?_) fun _ => Guards.ite (fun _ => ?_) fun _ => Guards.ite (fun _ => ?_) fun _ =>
    Guards.ite (fun _ => ?_) fun _ => Guards.bind (Guards.ensure _ _) fun _ => Guards.pure _
  · refine saves_frames (Frames.bind (Frames.expect _ _) fun _ => Frames.bind ?_ fun _ => Frames.pure _)
    exact Frames.bind (Frames.ensure _ _) fun _ => frames_validateTotp
  · exact saves_frames (Frames.bind (Frames.expect _ _) fun _ => Frames.bind frames_validateEmail fun _ => Frames.pure _)
  · refine Guards.ite (fun _ => Guards.pure _) fun _ => Guards.bind ?_ fun _ => Guards.throw _
    exact Guards.ite (fun _ => saves_frames frames_device) fun _ => Guards.pure _
  · refine Guards.bind (Guards.ensure _ _) fun _ => Guards.bind ?_ fun _ => Guards.pure _
    refine Guards.bind (saves_frames (frames_elsewhere fun _ => rfl)) fun _ => ?_
    refine Guards.bind (saves_frames frames_enforcePolicy) fun _ => ?_
    exact saves_same rfl (fun f => by cases f <;> exact rfl) rfl

/-- A login may upgrade the hash of the password; everything else it writes to
the row is of other fields. -/
theorem saves_signIn : Saves (Revised (fun f => decide (f=.passwordHash)) false user) (signIn settings out data user) := by
  have hsame : Revised (fun f => decide (f=.passwordHash)) false user user :=
    ⟨rfl,fun f _ => f.agree_refl user,fun _ => rfl⟩
  have hupgrade : (signedIn settings data user).Obeys (fun c => ∀ s,Saved (Revised (fun f => decide (f=.passwordHash)) false user) s (exec c s).2)
      (fun _ _ => True) (Revised (fun f => decide (f=.passwordHash)) false user) := by
    unfold signedIn
    split
    · exact obeys_kdfUpgrade rfl
    · exact hsame
  refine Guards.bind (saves_frames frames_checkMail) fun _ => Script.Obeys.bind hupgrade fun w hw => ?_
  have hrest : ∀ {α : Type} {p : Action α},Saves (Revised (fun f => decide (f=.passwordHash)) false w) p →
      Saves (Revised (fun f => decide (f=.passwordHash)) false user) p := fun h => h.mono fun v hv => hw.trans hv
  refine Guards.bind (Guards.ite (fun _ => Guards.ite (fun _ => ?_) fun _ => Guards.throw _) fun _ => Guards.pure _)
    fun _ => ?_
  · exact Guards.bind (Guards.ok (saves_user hw)) fun _ => Guards.throw _
  refine Guards.bind (saves_frames frames_getDevice) fun d => ?_
  exact Guards.bind (hrest saves_twofactorAuth) fun _ => saves_frames frames_response

end Sessions

end NadSafe.AccountWrites
