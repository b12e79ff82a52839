import NadSafe.CipherUpdates
import NadSafe.FactorRows
import NadSafe.KeyRotation
import NadSafe.RowImages

/-!
# What a rotation writes

The items of a request in the order in which they are handled, the checks that
each of them has to pass, and the change of the tables that it makes. An item
that is refused ends the rotation; the changes of the items in front of it
stay.
-/

namespace NadSafe.RotationWrites

open HostText JsonText TableRows AsyncScript ServerTables StoreScript ServerModels CipherHandlers SecondFactors
open EmergencyHandlers SendHandlers KeyRotation CipherUpdates PlannedScript TableWrites RowImages

/-- An item of a request. -/
inductive Item where
  /-- A folder. -/
  | folder (id : Uuid) (name : Text)
  /-- An emergency access. -/
  | emergencyAccess (data : UpdateEmergencyAccessData)
  /-- A key for account recovery. -/
  | resetPassword (data : UpdateResetPasswordData)
  /-- A send. -/
  | send (data : SendData) (salt : Bytes)
  /-- A cipher. -/
  | cipher (data : CipherData)

/-- Folders with an id. -/
def folderItems (data : KeyData) : List Item :=
  (data.accountData.folders.filterMap fun d => d.id.map (·,d.name)).map fun d => .folder d.1 d.2

/-- Emergency accesses. -/
def emergencyItems (data : KeyData) : List Item :=
  data.accountUnlockData.emergencyAccessUnlockData.map .emergencyAccess

/-- Keys for account recovery. -/
def resetItems (data : KeyData) : List Item :=
  data.accountUnlockData.organizationAccountRecoveryUnlockData.map .resetPassword

/-- Sends. -/
def sendItems (data : KeyData) : List Item := data.accountData.sends.map fun d => .send d.1 d.2

/-- Ciphers without an organisation. -/
def cipherItems (data : KeyData) : List Item :=
  (data.accountData.ciphers.filter fun d => d.organizationId.isNone).map .cipher

/-- All items, in their order. -/
def items (data : KeyData) : List Item :=
  folderItems data++(emergencyItems data++(resetItems data++(sendItems data++cipherItems data)))

/-- A folder of the account. -/
def ownsFolder (user : Uuid) (f : Folder) : Bool := f.userUuid=user

/-- An emergency access that holds the user key. -/
def ownsEmergencyAccess (user : Uuid) (e : EmergencyAccess) : Bool :=
  e.grantorUuid=user ∧ EmergencyAccess.Confirmed≤e.status

/-- A membership that holds the user key. -/
def ownsMember (user : Uuid) (m : Membership) : Bool := decide (m.userUuid=user) && m.resetPasswordKey.isSome

/-- A send of the account. -/
def ownsSend (user : Uuid) (s : Send) : Bool := s.userUuid=some user

/-- A personal cipher. -/
def ownsCipher (user : Uuid) (c : Cipher) : Bool := c.userUuid=some user ∧ c.organizationUuid=none

/-- What stays of a folder. -/
def folderCore (f : Folder) : Uuid×Uuid := (f.uuid,f.userUuid)

/-- What stays of an emergency access. -/
def emergencyCore (e : EmergencyAccess) : Uuid×Uuid×Option Uuid×ℤ := (e.uuid,e.grantorUuid,e.granteeUuid,e.status)

/-- What stays of a membership. -/
def memberCore (m : Membership) : Uuid×Uuid×Uuid×ℤ×MembershipType×Bool :=
  (m.uuid,m.userUuid,m.orgUuid,m.status,m.atype,m.resetPasswordKey.isSome)

/-- What stays of a send. -/
def sendCore (s : Send) : Uuid×Option Uuid×Option Uuid×ℤ := (s.uuid,s.userUuid,s.organizationUuid,s.atype)

/-- What stays of an attachment. -/
def attachmentCore (a : Attachment) : Uuid×Uuid := (a.id,a.cipherUuid)

/-- What stays of a cipher. -/
def cipherCore (c : Cipher) : Uuid×Option Uuid×Option Uuid := (c.uuid,c.userUuid,c.organizationUuid)

/-- The changes of all tables with sealed data. -/
structure Rewriting where
  /-- Folders. -/
  folder : Change folderCore
  /-- Emergency accesses. -/
  emergencyAccess : Change emergencyCore
  /-- Memberships. -/
  member : Change memberCore
  /-- Sends. -/
  send : Change sendCore
  /-- Attachments. -/
  attachment : Change attachmentCore
  /-- Ciphers. -/
  cipher : Change cipherCore

/-- No change. -/
def Rewriting.keep : Rewriting := ⟨.keep _,.keep _,.keep _,.keep _,.keep _,.keep _⟩

/-- One rewriting after another. -/
def Rewriting.then (a b : Rewriting) : Rewriting :=
  ⟨a.folder.then b.folder,a.emergencyAccess.then b.emergencyAccess,a.member.then b.member,a.send.then b.send,
    a.attachment.then b.attachment,a.cipher.then b.cipher⟩

/-- The tables after a rewriting. -/
structure Rewritten (φ : Rewriting) (db db' : Database) : Prop where
  /-- Folders. -/
  folders : Images φ.folder.1 db.folders db'.folders
  /-- Emergency accesses. -/
  emergencyAccess : Images φ.emergencyAccess.1 db.emergencyAccess db'.emergencyAccess
  /-- Memberships. -/
  members : Images φ.member.1 db.members db'.members
  /-- Sends. -/
  sends : Images φ.send.1 db.sends db'.sends
  /-- Attachments. -/
  attachments : Images φ.attachment.1 db.attachments db'.attachments
  /-- Ciphers. -/
  ciphers : Images φ.cipher.1 db.ciphers db'.ciphers
  /-- Policies. -/
  policies : db'.policies=db.policies
  /-- The clock. -/
  now : db'.now=db.now
  /-- Accounts. -/
  users : db'.users=db.users

section Items

variable (settings : RotationSettings) (db : Database) (user : Uuid)

/-- An update of a cipher gets as far as its attachments. -/
def reaches (d : CipherData) : Bool :=
  db.ciphers.any (fun c => ownsCipher user c && decide (d.id=some c.uuid)) &&
    (policyRefusal db.toTables user d).isNone && notesFit settings.toVaultSettings d &&
      (folderRefusal db.toTables user d).isNone

/-- An item passes its checks. -/
def accepts : Item → Bool
  | .folder id _ => db.folders.any fun f => ownsFolder user f && decide (f.uuid=id)
  | .emergencyAccess d => db.emergencyAccess.any fun e => ownsEmergencyAccess user e && decide (e.uuid=d.id)
  | .resetPassword d => db.members.any fun m => ownsMember user m && decide (m.orgUuid=d.organizationId)
  | .send d _ =>
    db.sends.any (fun s => ownsSend user s && decide (d.id=some s.uuid ∧ s.atype=d.type)) &&
      decide (d.deletionDate≤db.now+31*86400) && (decide (d.type≠SendText) || d.text.isSome) && d.limit.isOk
  | .cipher d => reaches settings db user d && d.content.isOk

/-- An entry names an attachment of another cipher. -/
def foreign (rows : List Attachment) (cipher : Uuid) (e : Uuid×Attachments2Data) : Bool :=
  rows.any fun a => a.id=e.1 ∧ a.cipherUuid≠cipher

/-- The entries up to the first attachment of another cipher. -/
def ownEntries (rows : List Attachment) (cipher : Uuid) (entries : List (Uuid×Attachments2Data)) :
    List (Uuid×Attachments2Data) := entries.takeWhile fun e => !foreign rows cipher e

/-- An attachment that is sealed anew. -/
def sealEntry (cipher : Uuid) (e : Uuid×Attachments2Data) : Change attachmentCore :=
  .at (fun a => a.id=e.1 ∧ a.cipherUuid=cipher) (fun a => {a with akey := some e.2.key, fileName := e.2.fileName})
    fun _ _ => rfl

/-- The attachments that an update seals anew. -/
def sealEntries (cipher : Uuid) (entries : List (Uuid×Attachments2Data)) : Change attachmentCore :=
  .all (sealEntry cipher) entries

/-- The attachments that the update of a cipher seals anew. -/
def sealAttachments (rows : List Attachment) (d : CipherData) : Change attachmentCore :=
  match d.id with
  | some id => sealEntries id (ownEntries rows id (d.attachments2.getD []))
  | none => .keep _

/-- The content that a send is given. -/
def contentFor (d : SendData) (s : Send) : Text := if d.type=SendText then d.text.getD s.data else s.data

theorem sendCore_updated {sends : SendSettings} {salt : Bytes} {d : SendData} {limit : Option ℤ} {content : Text}
    {s : Send} : sendCore (updatedSend sends salt d limit content s)=sendCore s := by
  unfold updatedSend
  dsimp only
  split <;> rfl

/-- The change that an accepted item makes. -/
def change : Item → Rewriting
  | .folder id name => {Rewriting.keep with
      folder := .at (fun f => ownsFolder user f && decide (f.uuid=id)) (fun f => {f with name := name}) fun _ _ => rfl}
  | .emergencyAccess d => {Rewriting.keep with
      emergencyAccess := .at (fun e => ownsEmergencyAccess user e && decide (e.uuid=d.id))
        (fun e => {e with keyEncrypted := some d.keyEncrypted}) fun _ _ => rfl}
  | .resetPassword d => {Rewriting.keep with
      member := .at (fun m => ownsMember user m && decide (m.orgUuid=d.organizationId))
        (fun m => {m with resetPasswordKey := some d.resetPasswordKey}) fun m hm => by
          unfold ownsMember at hm
          simp only [Bool.and_eq_true] at hm
          unfold memberCore
          rw [hm.1.2]
          rfl}
  | .send d salt => {Rewriting.keep with
      send := .at (fun s => ownsSend user s && decide (d.id=some s.uuid))
        (fun s => updatedSend settings.sends salt d (d.limit.toOption.getD none) (contentFor d s) s)
        fun _ _ => sendCore_updated}
  | .cipher d => {Rewriting.keep with
      attachment := sealAttachments db.attachments d
      cipher := .at (fun c => ownsCipher user c && decide (d.id=some c.uuid))
        (fun c => (d.content.toOption.map fun content =>
          revise settings.toVaultSettings c d content db.now).getD c) fun c _ => by
            cases d.content <;> rfl}

/-- What a refused item has written: the attachments of a cipher whose content
is refused. -/
def attempted : Item → Rewriting
  | .cipher d =>
    if reaches settings db user d=true then {Rewriting.keep with attachment := sealAttachments db.attachments d}
    else .keep
  | _ => .keep

/-- What the items write, up to the first one that is refused. -/
def written : List Item → Rewriting
  | [] => .keep
  | i::rest =>
    if accepts settings db user i=true then (change settings db user i).then (written rest)
    else attempted settings db user i

end Items

section Composition

variable {φ ψ : Rewriting} {a b c db : Database}

theorem Rewritten.refl (db : Database) : Rewritten .keep db db :=
  ⟨.refl _,.refl _,.refl _,.refl _,.refl _,.refl _,rfl,rfl,rfl⟩

theorem Rewritten.trans (h : Rewritten φ a b) (h' : Rewritten ψ b c) : Rewritten (φ.then ψ) a c :=
  ⟨h.folders.trans h'.folders,h.emergencyAccess.trans h'.emergencyAccess,h.members.trans h'.members,
    h.sends.trans h'.sends,h.attachments.trans h'.attachments,h.ciphers.trans h'.ciphers,
    h'.policies.trans h.policies,h'.now.trans h.now,h'.users.trans h.users⟩

theorem Rewriting.keep_then (φ : Rewriting) : Rewriting.keep.then φ=φ := rfl

theorem Rewriting.then_keep (φ : Rewriting) : φ.then .keep=φ := rfl

theorem Rewriting.then_assoc (φ ψ χ : Rewriting) : (φ.then ψ).then χ=φ.then (ψ.then χ) := rfl

end Composition

section Plans

variable {settings : RotationSettings} {db₀ : Database} {user : Uuid} {xs ys : List Item}

/-- The writes of a list of items that are all accepted are followed by the
writes of the next ones. -/
theorem written_append (h : xs.all (accepts settings db₀ user)=true) :
    written settings db₀ user (xs++ys)=(written settings db₀ user xs).then (written settings db₀ user ys) := by
  induction xs with
  | nil => rfl
  | cons i xs ih =>
    rw [List.all_cons,Bool.and_eq_true] at h
    rw [List.cons_append,written,written,if_pos h.1,if_pos h.1,ih h.2]
    rfl

/-- After a refused item nothing is written. -/
theorem written_stopped (h : xs.all (accepts settings db₀ user)=false) :
    written settings db₀ user (xs++ys)=written settings db₀ user xs := by
  induction xs with
  | nil => cases h
  | cons i xs ih =>
    rw [List.cons_append,written,written]
    cases hi : accepts settings db₀ user i with
    | false => rfl
    | true =>
      rw [List.all_cons,hi,Bool.true_and] at h
      rw [if_pos rfl,if_pos rfl,ih h]

end Plans

section Loops

variable {ρ β : Type} {key : ρ → Uuid} {mine : ρ → Prop} {mem rows : List ρ}

/-- Loaded rows after one of them was changed in place and saved. -/
theorem loaded_replace {s s' : ρ} (h : Loaded mine mem rows) (hs : s∈mem) (hkey : key s'=key s) (hmine : mine s') :
    Loaded mine (replaceRow key s' mem) (put key s' rows) := by
  intro r
  rw [replaceRow,List.mem_map,mem_put]
  constructor
  · rintro ⟨q,hq,rfl⟩
    by_cases hqs : key q=key s'
    · rw [if_pos hqs]
      exact ⟨.inl rfl,hmine⟩
    · rw [if_neg hqs]
      obtain ⟨hrow,hq⟩ := (h q).mp hq
      exact ⟨.inr ⟨hrow,hqs⟩,hq⟩
  · rintro ⟨rfl|⟨hr,hne⟩,hown⟩
    · exact ⟨s,hs,if_pos hkey.symm⟩
    · exact ⟨r,(h r).mpr ⟨hr,hown⟩,if_neg hne⟩

/-- A row is found, or there is none. -/
theorem findRow_cases (message : String) (named : ρ → Bool) (mem : List ρ) :
    (∃ s∈mem,named s=true ∧ findRow message named mem=.ok s) ∨
      findRow message named mem=.error message ∧ mem.any named=false := by
  unfold findRow
  cases hfound : mem.find? named with
  | some s => exact .inl ⟨s,List.mem_of_find?_eq_some hfound,List.find?_some hfound,rfl⟩
  | none => exact .inr ⟨rfl,List.any_eq_false.mpr (List.find?_eq_none.mp hfound)⟩

/-- What is asked of the loaded rows is asked of the table. -/
theorem any_loaded {own named : ρ → Bool} (h : Loaded (fun r => own r=true) mem rows) :
    mem.any named=rows.any fun r => own r && named r := by
  rw [Bool.eq_iff_iff,List.any_eq_true,List.any_eq_true]
  constructor
  · rintro ⟨r,hr,hnamed⟩
    obtain ⟨hrow,hown⟩ := (h r).mp hr
    exact ⟨r,hrow,by rw [hown,hnamed]; rfl⟩
  · rintro ⟨r,hr,hboth⟩
    rw [Bool.and_eq_true] at hboth
    exact ⟨r,(h r).mpr ⟨hr,hboth.1⟩,hboth.2⟩

variable {settings : RotationSettings} {db₀ db : Database} {user : Uuid} {find : β → List ρ → Except String ρ}
  {step : ρ → β → Action ρ} {item : β → Item} {table : Tables → List ρ} {φ : Rewriting}

/-- What one item does: it is refused because its row is missing, or its step
makes the change. -/
inductive Step (settings : RotationSettings) (db₀ : Database) (user : Uuid) (key : ρ → Uuid) (mine : ρ → Prop)
    (table : Tables → List ρ) (mem : List ρ) (db : Database) (i : Item) (found : Except String ρ)
    (step : ρ → Action ρ) : Prop
  /-- No row. -/
  | missing (e : String) (hfound : found=.error e) (hrefused : accepts settings db₀ user i=false)
      (hnothing : attempted settings db₀ user i=.keep)
  /-- A row, and what its step does. -/
  | taken (s : ρ) (hfound : found=.ok s) (hstep : Ends (step s) db (Either
      (fun s' db' => accepts settings db₀ user i=true ∧ Rewritten (change settings db₀ user i) db db' ∧
        Loaded mine (replaceRow key s' mem) (table db'.toTables))
      fun _ db' => accepts settings db₀ user i=false ∧ Rewritten (attempted settings db₀ user i) db db'))

/-- A list of items has been handled. -/
def Handled (settings : RotationSettings) (db₀ : Database) (user : Uuid) (xs : List Item) (db : Database) :
    Except String Unit → Database → Prop :=
  Either (fun _ db' => xs.all (accepts settings db₀ user)=true ∧ Rewritten (written settings db₀ user xs) db db')
    fun _ db' => xs.all (accepts settings db₀ user)=false ∧ Rewritten (written settings db₀ user xs) db db'

/-- A loop handles its items, one after the other. -/
theorem ends_rotateRows {ds : List β}
    (hstep : ∀ d∈ds,∀ φ db mem,Rewritten φ db₀ db → Loaded mine mem (table db.toTables) →
      Step settings db₀ user key mine table mem db (item d) (find d mem) fun s => step s d)
    (h : Rewritten φ db₀ db) (hloaded : Loaded mine mem (table db.toTables)) :
    Ends (rotateRows key find step mem ds) db (Handled settings db₀ user (ds.map item) db) := by
  induction ds generalizing φ db mem with
  | nil => exact ⟨rfl,Rewritten.refl db⟩
  | cons d ds ih =>
    unfold rotateRows
    cases hstep d List.mem_cons_self φ db mem h hloaded with
    | missing e hfound hrefused hnothing =>
      rw [hfound]
      refine ⟨?_,?_⟩
      · rw [List.map_cons,List.all_cons,hrefused]
        rfl
      · rw [List.map_cons,written,hrefused,if_neg Bool.false_ne_true,hnothing]
        exact Rewritten.refl db
    | taken s hfound hone =>
      rw [hfound]
      refine hone.bind (fun s' db' hdone => ?_) fun e db' hdone => ?_
      · obtain ⟨haccepted,hchange,hloaded'⟩ := hdone
        have hlater := ih (fun x hx => hstep x (List.mem_cons_of_mem d hx)) (h.trans hchange) hloaded'
        refine hlater.mono fun r db'' hrest => ?_
        unfold Handled
        rw [List.map_cons,List.all_cons,haccepted,Bool.true_and,written,haccepted,if_pos rfl]
        cases r with
        | ok u => exact ⟨hrest.1,hchange.trans hrest.2⟩
        | error e => exact ⟨hrest.1,hchange.trans hrest.2⟩
      · obtain ⟨hrefused,hattempt⟩ := hdone
        refine ⟨?_,?_⟩
        · rw [List.map_cons,List.all_cons,hrefused]
          rfl
        · rw [List.map_cons,written,hrefused,if_neg Bool.false_ne_true]
          exact hattempt

/-- A loop leaves what its steps leave. -/
theorem frames_rotateRows {τ : Type} {part : Database → τ} (hstep : ∀ s d,RelyScript.Frames exec part (step s d))
    {ds : List β} : RelyScript.Frames exec part (rotateRows key find step mem ds) := by
  induction ds generalizing mem with
  | nil => exact RelyScript.Frames.pure _
  | cons d ds ih =>
    refine RelyScript.Frames.bind ?_ fun s => RelyScript.Frames.bind (hstep s d) fun s' => ih
    cases find d mem with
    | ok s => exact RelyScript.Frames.pure s
    | error e => exact RelyScript.Frames.throw e

end Loops

section Saves

variable {db : Database}

/-- A folder is saved again. -/
theorem valid_folder_again {s s' : Folder} (hs : s∈db.folders) (h : folderCore s'=folderCore s) :
    {db.toTables with folders := put Folder.uuid s' db.folders}.Valid := by
  obtain ⟨-,hlinks,hrows⟩ := db.valid
  unfold Tables.Linked at hlinks
  unfold Tables.Drawn at hrows
  casesm* _ ∧ _
  simp only [folderCore,Prod.mk.injEq] at h
  refine valid_folder db.valid ?_ ?_
  · rw [h.1]
    exact ‹∀ f∈db.folders,f.uuid<db.next› s hs
  · rw [h.2]
    exact ‹Refers db.folders Folder.userUuid db.users User.uuid› s hs

/-- An emergency access is saved again. -/
theorem valid_emergencyAccess_again {s s' : EmergencyAccess} (hs : s∈db.emergencyAccess)
    (h : emergencyCore s'=emergencyCore s) :
    {db.toTables with emergencyAccess := put EmergencyAccess.uuid s' db.emergencyAccess}.Valid := by
  obtain ⟨-,hlinks,hrows⟩ := db.valid
  unfold Tables.Linked at hlinks
  unfold Tables.Drawn at hrows
  casesm* _ ∧ _
  simp only [emergencyCore,Prod.mk.injEq] at h
  refine valid_emergencyAccess db.valid ?_ ?_ ?_
  · rw [h.1]
    exact ‹∀ e∈db.emergencyAccess,e.uuid<db.next› s hs
  · rw [h.2.1]
    exact ‹Refers db.emergencyAccess EmergencyAccess.grantorUuid db.users User.uuid› s hs
  · rw [h.2.2.1]
    exact ‹MayRefer db.emergencyAccess EmergencyAccess.granteeUuid db.users User.uuid› s hs

/-- A membership is saved again. -/
theorem valid_member_again {s s' : Membership} (hs : s∈db.members) (h : memberCore s'=memberCore s) :
    {db.toTables with members := put Membership.uuid s' db.members}.Valid := by
  obtain ⟨-,hlinks,hrows⟩ := db.valid
  unfold Tables.Linked at hlinks
  unfold Tables.Drawn at hrows
  casesm* _ ∧ _
  simp only [memberCore,Prod.mk.injEq] at h
  refine valid_member db.valid ?_ ?_ ?_ fun q hq hpair => ?_
  · rw [h.1]
    exact ‹∀ m∈db.members,m.uuid<db.next› s hs
  · rw [h.2.1]
    exact ‹Refers db.members Membership.userUuid db.users User.uuid› s hs
  · rw [h.2.2.1]
    exact ‹Refers db.members Membership.orgUuid db.organizations Organization.uuid› s hs
  · rw [h.2.1,h.2.2.1] at hpair
    rw [h.1]
    exact congrArg Membership.uuid (eq_of_key db.membership_nodup hq hs hpair)

/-- A send is saved again. -/
theorem valid_send_again {s s' : Send} (hs : s∈db.sends) (h : sendCore s'=sendCore s) :
    {db.toTables with sends := put ServerTables.Send.uuid s' db.sends}.Valid := by
  obtain ⟨-,hlinks,hrows⟩ := db.valid
  unfold Tables.Linked at hlinks
  unfold Tables.Drawn at hrows
  casesm* _ ∧ _
  simp only [sendCore,Prod.mk.injEq] at h
  refine valid_send db.valid ?_ ?_ ?_
  · rw [h.1]
    exact ‹∀ s∈db.sends,s.uuid<db.next› s hs
  · rw [h.2.1]
    exact ‹MayRefer db.sends ServerTables.Send.userUuid db.users User.uuid› s hs
  · rw [h.2.2.1]
    exact ‹MayRefer db.sends ServerTables.Send.organizationUuid db.organizations Organization.uuid› s hs

end Saves

section Steps

variable {settings : RotationSettings} {db₀ db : Database} {user : Uuid} {φ : Rewriting}

/-- A row of a table with a key, told by its key. -/
theorem any_key {ρ : Type} {key : ρ → Uuid} {rows : List ρ} {s : ρ} {p : ρ → Bool} (hkeys : (rows.map key).Nodup)
    (hs : s∈rows) (hp : ∀ r,p r=true → key r=key s) : rows.any p=p s := by
  rw [Bool.eq_iff_iff,List.any_eq_true]
  constructor
  · rintro ⟨r,hr,hpr⟩
    rw [← eq_of_key hkeys hr hs (hp r hpr)]
    exact hpr
  · exact fun h => ⟨s,hs,h⟩

theorem folder_core (user : Uuid) {f g : Folder} (h : folderCore f=folderCore g) :
    f.uuid=g.uuid ∧ ownsFolder user f=ownsFolder user g := by
  simp only [folderCore,Prod.mk.injEq] at h
  unfold ownsFolder
  rw [h.2]
  exact ⟨h.1,rfl⟩

theorem emergency_core (user : Uuid) {f g : EmergencyAccess} (h : emergencyCore f=emergencyCore g) :
    f.uuid=g.uuid ∧ ownsEmergencyAccess user f=ownsEmergencyAccess user g := by
  simp only [emergencyCore,Prod.mk.injEq] at h
  unfold ownsEmergencyAccess
  rw [h.2.1,h.2.2.2]
  exact ⟨h.1,rfl⟩

theorem member_core (user : Uuid) {f g : Membership} (h : memberCore f=memberCore g) :
    f.orgUuid=g.orgUuid ∧ ownsMember user f=ownsMember user g := by
  simp only [memberCore,Prod.mk.injEq] at h
  unfold ownsMember
  rw [h.2.1,h.2.2.2.2.2]
  exact ⟨h.2.2.1,rfl⟩

theorem send_core (user : Uuid) {f g : Send} (h : sendCore f=sendCore g) :
    f.uuid=g.uuid ∧ f.atype=g.atype ∧ ownsSend user f=ownsSend user g := by
  simp only [sendCore,Prod.mk.injEq] at h
  unfold ownsSend
  rw [h.2.1]
  exact ⟨h.1,h.2.2.2,rfl⟩

theorem cipher_core (user : Uuid) {f g : Cipher} (h : cipherCore f=cipherCore g) :
    f.uuid=g.uuid ∧ ownsCipher user f=ownsCipher user g := by
  simp only [cipherCore,Prod.mk.injEq] at h
  unfold ownsCipher
  rw [h.2.1,h.2.2]
  exact ⟨h.1,rfl⟩

theorem step_folder {mem : List Folder} {id : Uuid} {name : Text} (h : Rewritten φ db₀ db)
    (hloaded : Loaded (fun f => ownsFolder user f=true) mem db.folders) :
    Step settings db₀ user Folder.uuid (fun f => ownsFolder user f=true) Tables.folders mem db (.folder id name)
      (findRow "Folder doesn't exist" (fun f => f.uuid=id) mem) (fun saved => do
        let saved := {saved with name := name}
        Folder.save saved
        pure saved) := by
  have haccepts : accepts settings db₀ user (.folder id name)=mem.any fun f => decide (f.uuid=id) := by
    rw [any_loaded hloaded]
    refine (h.folders.any fun f => ?_).symm
    obtain ⟨hid,howns⟩ := folder_core user (φ.folder.2 f)
    rw [hid,howns]
  rcases findRow_cases "Folder doesn't exist" (fun f : Folder => f.uuid=id) mem with ⟨s,hs,hid,hfound⟩|⟨hfound,hnone⟩
  · obtain ⟨hrow,howns⟩ := (hloaded s).mp hs
    have hnamed := of_decide_eq_true hid
    refine .taken s hfound (ends_update (valid_folder_again hrow rfl) ?_)
    have himages : Images (change settings db₀ user (.folder id name)).folder.1 db.folders
        (put Folder.uuid {s with name := name} db.folders) := by
      refine images_put (fun f => ownsFolder user f && decide (f.uuid=id)) (fun f => {f with name := name})
        db.folder_nodup hrow ?_ (fun f _ hp => ?_) rfl
      · rw [howns,Bool.true_and]
        exact hid
      · rw [Bool.and_eq_true,decide_eq_true_eq] at hp
        exact hp.2.trans hnamed.symm
    refine ⟨?_,⟨himages,.refl _,.refl _,.refl _,.refl _,.refl _,rfl,rfl,rfl⟩,
      loaded_replace hloaded hs rfl howns⟩
    rw [haccepts]
    exact List.any_eq_true.mpr ⟨s,hs,hid⟩
  · exact .missing _ hfound (haccepts.trans hnone) rfl

theorem step_emergencyAccess {mem : List EmergencyAccess} {d : UpdateEmergencyAccessData} (h : Rewritten φ db₀ db)
    (hloaded : Loaded (fun e => ownsEmergencyAccess user e=true) mem db.emergencyAccess) :
    Step settings db₀ user EmergencyAccess.uuid (fun e => ownsEmergencyAccess user e=true) Tables.emergencyAccess mem
      db (.emergencyAccess d)
      (findRow "Emergency access doesn't exist or is not owned by the user" (fun e => e.uuid=d.id) mem)
      (fun saved => do
        let saved := {saved with keyEncrypted := some d.keyEncrypted}
        EmergencyAccess.save saved
        pure saved) := by
  have haccepts : accepts settings db₀ user (.emergencyAccess d)=mem.any fun e => decide (e.uuid=d.id) := by
    rw [any_loaded hloaded]
    refine (h.emergencyAccess.any fun e => ?_).symm
    obtain ⟨hid,howns⟩ := emergency_core user (φ.emergencyAccess.2 e)
    rw [hid,howns]
  rcases findRow_cases "Emergency access doesn't exist or is not owned by the user"
    (fun e : EmergencyAccess => e.uuid=d.id) mem with ⟨s,hs,hid,hfound⟩|⟨hfound,hnone⟩
  · obtain ⟨hrow,howns⟩ := (hloaded s).mp hs
    have hnamed := of_decide_eq_true hid
    refine .taken s hfound (ends_update (valid_emergencyAccess_again hrow rfl) ?_)
    have himages : Images (change settings db₀ user (.emergencyAccess d)).emergencyAccess.1 db.emergencyAccess
        (put EmergencyAccess.uuid {s with keyEncrypted := some d.keyEncrypted} db.emergencyAccess) := by
      refine images_put (fun e => ownsEmergencyAccess user e && decide (e.uuid=d.id))
        (fun e => {e with keyEncrypted := some d.keyEncrypted}) db.emergency_nodup hrow ?_ (fun e _ hp => ?_) rfl
      · rw [howns,Bool.true_and]
        exact hid
      · rw [Bool.and_eq_true,decide_eq_true_eq] at hp
        exact hp.2.trans hnamed.symm
    refine ⟨?_,⟨.refl _,himages,.refl _,.refl _,.refl _,.refl _,rfl,rfl,rfl⟩,
      loaded_replace hloaded hs rfl howns⟩
    rw [haccepts]
    exact List.any_eq_true.mpr ⟨s,hs,hid⟩
  · exact .missing _ hfound (haccepts.trans hnone) rfl

theorem step_resetPassword {mem : List Membership} {d : UpdateResetPasswordData} (h : Rewritten φ db₀ db)
    (hloaded : Loaded (fun m => ownsMember user m=true) mem db.members) :
    Step settings db₀ user Membership.uuid (fun m => ownsMember user m=true) Tables.members mem db (.resetPassword d)
      (findRow "Reset password doesn't exist" (fun m => m.orgUuid=d.organizationId) mem)
      (fun saved => do
        let saved := {saved with resetPasswordKey := some d.resetPasswordKey}
        Membership.save saved
        pure saved) := by
  have haccepts : accepts settings db₀ user (.resetPassword d)=mem.any fun m => decide (m.orgUuid=d.organizationId) := by
    rw [any_loaded hloaded]
    refine (h.members.any fun m => ?_).symm
    obtain ⟨hid,howns⟩ := member_core user (φ.member.2 m)
    rw [hid,howns]
  rcases findRow_cases "Reset password doesn't exist" (fun m : Membership => m.orgUuid=d.organizationId) mem with
    ⟨s,hs,hid,hfound⟩|⟨hfound,hnone⟩
  · obtain ⟨hrow,howns⟩ := (hloaded s).mp hs
    have hnamed := of_decide_eq_true hid
    have hboth := howns
    rw [ownsMember,Bool.and_eq_true,decide_eq_true_eq] at hboth
    have hcore : memberCore {s with resetPasswordKey := some d.resetPasswordKey}=memberCore s := by
      unfold memberCore
      rw [hboth.2]
      rfl
    refine .taken s hfound (ends_update (valid_member_again hrow hcore) ?_)
    have himages : Images (change settings db₀ user (.resetPassword d)).member.1 db.members
        (put Membership.uuid {s with resetPasswordKey := some d.resetPasswordKey} db.members) := by
      refine images_put (fun m => ownsMember user m && decide (m.orgUuid=d.organizationId))
        (fun m => {m with resetPasswordKey := some d.resetPasswordKey}) db.member_nodup hrow ?_ (fun m hm hp => ?_) rfl
      · rw [howns,Bool.true_and]
        exact hid
      · rw [Bool.and_eq_true,decide_eq_true_eq,ownsMember,Bool.and_eq_true,decide_eq_true_eq] at hp
        -- an account has one membership in an organisation
        have hpair : (m.userUuid,m.orgUuid)=(s.userUuid,s.orgUuid) :=
          Prod.ext (hp.1.1.trans hboth.1.symm) (hp.2.trans hnamed.symm)
        exact congrArg Membership.uuid (eq_of_key db.membership_nodup hm hrow hpair)
    refine ⟨?_,⟨.refl _,.refl _,himages,.refl _,.refl _,.refl _,rfl,rfl,rfl⟩,loaded_replace hloaded hs rfl ?_⟩
    · rw [haccepts]
      exact List.any_eq_true.mpr ⟨s,hs,hid⟩
    · exact (member_core user hcore).2.trans howns
  · exact .missing _ hfound (haccepts.trans hnone) rfl

/-- What an update of a send asks for, apart from the row. -/
def sendFits (now : ℤ) (d : SendData) (s : Send) : Bool :=
  decide (s.atype=d.type) && decide (d.deletionDate≤now+31*86400) && (decide (d.type≠SendText) || d.text.isSome) &&
    d.limit.isOk

/-- An update of a send saves it, or changes nothing. -/
theorem ends_updateSend {sends : SendSettings} {d : SendData} {salt : Bytes} {s : Send} (hs : s∈db.sends)
    (howner : s.userUuid=some user) : Ends (updateSendFromData sends salt s d user) db (Either
      (fun s' db' => sendFits db.now d s=true ∧
        s'=updatedSend sends salt d (d.limit.toOption.getD none) (contentFor d s) s ∧
          db'.toTables={db.toTables with sends := put ServerTables.Send.uuid s' db.sends})
      fun _ db' => sendFits db.now d s=false ∧ db'=db) := by
  unfold updateSendFromData sendFits
  refine Ends.ensure (fun _ => ?_) fun hother => absurd howner (of_decide_eq_false hother)
  refine Ends.ensure (fun htype => ?_) fun htype => ⟨by rw [htype]; rfl,rfl⟩
  refine FactorRows.ends_utcNow ?_
  refine Ends.ensure (fun hdate => ?_) fun hdate => ⟨by rw [htype,hdate]; rfl,rfl⟩
  rw [htype,hdate]
  refine Ends.expect (fun content hcontent => ?_) fun hnone => ?_
  · have htext : (decide (d.type≠SendText) || d.text.isSome)=true ∧ content=contentFor d s := by
      unfold contentFor
      by_cases hkind : d.type=SendText
      · rw [if_pos hkind] at hcontent ⊢
        rw [hcontent]
        exact ⟨Bool.or_true _,rfl⟩
      · rw [if_neg hkind] at hcontent ⊢
        exact ⟨by rw [decide_eq_true hkind]; rfl,(Option.some.inj hcontent).symm⟩
    rw [htext.1,htext.2]
    cases hlimit : d.limit with
    | error e => exact ⟨rfl,rfl⟩
    | ok limit =>
      show Ends (Send.save (updatedSend sends salt d limit (contentFor d s) s) >>= fun _ => pure _) db _
      refine ends_update (valid_send_again hs sendCore_updated) ?_
      exact ⟨rfl,rfl,rfl⟩
  · have htext : (decide (d.type≠SendText) || d.text.isSome)=false := by
      by_cases hkind : d.type=SendText
      · rw [if_pos hkind] at hnone
        rw [hnone,decide_eq_false (not_not.mpr hkind)]
        rfl
      · rw [if_neg hkind] at hnone
        cases hnone
    rw [htext]
    exact ⟨rfl,rfl⟩

/-- A send that the loaded rows do not have. -/
theorem accepts_send_none {mem : List Send} {d : SendData} {salt : Bytes} (h : Rewritten φ db₀ db)
    (hloaded : Loaded (fun s => ownsSend user s=true) mem db.sends) (hnone : ∀ s∈mem,d.id≠some s.uuid) :
    accepts settings db₀ user (.send d salt)=false := by
  have hsame := h.sends.any (p:=fun q => ownsSend user q && decide (d.id=some q.uuid ∧ q.atype=d.type)) fun q => by
    obtain ⟨huuid,htype,howns⟩ := send_core user (φ.send.2 q)
    rw [huuid,htype,howns]
  rw [accepts,← hsame,← any_loaded hloaded,List.any_eq_false.mpr fun s hs hp => ?_]
  · rfl
  · rw [decide_eq_true_eq] at hp
    exact hnone s hs hp.1

/-- A send that they have. -/
theorem accepts_send {d : SendData} {salt : Bytes} {s : Send} (h : Rewritten φ db₀ db) (hs : s∈db.sends)
    (howns : ownsSend user s=true) (hid : d.id=some s.uuid) :
    accepts settings db₀ user (.send d salt)=sendFits db.now d s := by
  have hsame := h.sends.any (p:=fun q => ownsSend user q && decide (d.id=some q.uuid ∧ q.atype=d.type)) fun q => by
    obtain ⟨huuid,htype,howns⟩ := send_core user (φ.send.2 q)
    rw [huuid,htype,howns]
  rw [accepts,← hsame,any_key db.send_nodup hs fun q hq => ?_]
  · rw [howns,hid,h.now]
    simp [sendFits]
  · rw [Bool.and_eq_true,decide_eq_true_eq,hid] at hq
    exact (Option.some.inj hq.2.1).symm

theorem step_send {mem : List Send} {d : SendData} {salt : Bytes} (h : Rewritten φ db₀ db)
    (hloaded : Loaded (fun s => ownsSend user s=true) mem db.sends) :
    Step settings db₀ user ServerTables.Send.uuid (fun s => ownsSend user s=true) Tables.sends mem db (.send d salt)
      (findNamed "Send doesn't exist" ServerTables.Send.uuid d.id mem)
      (fun saved => updateSendFromData settings.sends salt saved d user) := by
  cases hid : d.id with
  | none =>
    refine .missing _ rfl (accepts_send_none h hloaded fun s _ => ?_) rfl
    rw [hid]
    exact nofun
  | some id =>
    rcases findRow_cases "Send doesn't exist" (fun s : Send => s.uuid=id) mem with ⟨s,hs,hnamed,hfound⟩|⟨hfound,hnone⟩
    · obtain ⟨hrow,howns⟩ := (hloaded s).mp hs
      have hsome : d.id=some s.uuid := hid.trans (congrArg some (of_decide_eq_true hnamed).symm)
      refine .taken s hfound ((ends_updateSend hrow (of_decide_eq_true howns)).mono fun r db' hdone => ?_)
      have haccepts : accepts settings db₀ user (.send d salt)=sendFits db.now d s := accepts_send h hrow howns hsome
      cases r with
      | ok s' =>
        obtain ⟨hfits,rfl,heq⟩ := hdone
        have himages : Images (change settings db₀ user (.send d salt)).send.1 db.sends db'.sends := by
          rw [heq]
          refine images_put (fun q => ownsSend user q && decide (d.id=some q.uuid))
            (fun q => updatedSend settings.sends salt d (d.limit.toOption.getD none) (contentFor d q) q) db.send_nodup
            hrow ?_ (fun q _ hq => ?_) (send_core user sendCore_updated).1
          · rw [howns,hsome]
            simp
          · rw [Bool.and_eq_true,decide_eq_true_eq,hsome] at hq
            exact (Option.some.inj hq.2).symm
        have hsaved : sendCore (updatedSend settings.sends salt d (d.limit.toOption.getD none) (contentFor d s) s)=
            sendCore s := sendCore_updated
        obtain ⟨huuid,-,howned⟩ := send_core user hsaved
        refine ⟨haccepts.trans hfits,⟨?_,?_,?_,himages,?_,?_,by rw [heq],by rw [heq],by rw [heq]⟩,?_⟩
        all_goals rw [heq]
        · exact .refl _
        · exact .refl _
        · exact .refl _
        · exact .refl _
        · exact .refl _
        · exact loaded_replace hloaded hs huuid (howned.trans howns)
      | error e =>
        obtain ⟨hunfit,rfl⟩ := hdone
        exact ⟨haccepts.trans hunfit,Rewritten.refl db'⟩
    · refine .missing _ hfound (accepts_send_none h hloaded fun s hs hsome => ?_) rfl
      rw [hid] at hsome
      exact absurd (decide_eq_true (Option.some.inj hsome).symm) (List.any_eq_false.mp hnone s hs)

end Steps

end NadSafe.RotationWrites
