import NadSafe.RotationCiphers

/-!
# Whole rotations

The five loops of a rotation and the account behind them. Each loop works on
its own table, so that the rows that were loaded at the start are still there
when their turn comes. A rotation that is stopped leaves what its items have
written up to there; nothing takes it back.
-/

namespace NadSafe.RotationRuns

open HostText TableRows AsyncScript ServerTables StoreScript ServerModels CipherHandlers SecondFactors AccountHandlers
open EmergencyHandlers SendHandlers KeyRotation PlannedScript TableWrites FactorRows RowImages RotationWrites
open RotationCiphers

section Account

variable {settings : RotationSettings} {db : Database} {u : User} {data : KeyData}

/-- The account with its new keys and password. -/
def rotated (settings : RotationSettings) (u : User) (data : KeyData) (stamp : Uuid) : User :=
  let master := data.accountUnlockData.masterPasswordUnlockData
  {u with
    privateKey := some data.accountKeys.userKeyEncryptedAccountPrivateKey
    passwordHash := settings.hashPassword master.masterKeyAuthenticationHash u.salt u.passwordIterations
    akey := master.masterKeyEncryptedUserKey
    securityStamp := stamp}

/-- A device belongs to an account. -/
theorem device_user {d : Device} (h : d∈db.devices) : ∃ v∈db.users,v.uuid=d.userUuid :=
  db.valid.2.1.2.2.2.2.2.2.2.2.2.2.2.2.2.2.2.2.2.2.2.2.2.2.2.2.2.2 d h

/-- Every device gets a new token. -/
theorem ends_rotateTokens {user : Uuid} : Ends (Device.rotateRefreshTokensByUser user) db
    (Either (fun _ db' => ∃ devices n,db'.toTables={db.toTables with devices := devices, next := n})
      fun _ _ => False) := by
  unfold Device.rotateRefreshTokensByUser
  refine ends_lookup ?_
  refine (Ends.each (E:=fun _ _ => False) (J:=fun ds db' => (∀ d∈ds,∃ v∈db.users,v.uuid=d.userUuid) ∧
      ∃ devices n,db'.toTables={db.toTables with devices := devices, next := n}) ?_ ?_).mono fun r db' h => ?_
  · rintro d ds db₁ ⟨hds,devices,n,heq⟩
    refine ends_getUuid ?_
    have huser : ∃ v∈db₁.drawn.users,v.uuid=d.userUuid := by
      show ∃ v∈db₁.users,v.uuid=d.userUuid
      rw [heq]
      exact hds d List.mem_cons_self
    refine ends_update_done (valid_device db₁.drawn.valid huser) ⟨fun q hq => hds q (List.mem_cons_of_mem d hq),?_⟩
    refine ⟨put Device.key {d with refreshToken := db₁.next} db₁.devices,db₁.next+1,?_⟩
    have hdrawn : db₁.drawn.toTables={db₁.toTables with next := db₁.next+1} := rfl
    dsimp only
    rw [hdrawn,heq]
  · exact ⟨fun d hd => device_user (List.mem_filter.mp hd).1,db.devices,db.next,rfl⟩
  · cases r with
    | ok a => exact h.2
    | error e => exact h

/-- A new password is hashed, with a new stamp. -/
theorem ends_setPassword {settings : FactorSettings} {w : User} {password key : Text} :
    Ends (User.setPassword settings w password (some key) true none) db
      (Either (fun v db' => ∃ devices n,db'.toTables={db.toTables with devices := devices, next := n} ∧
          v={w with
            passwordHash := settings.hashPassword password w.salt w.passwordIterations
            akey := key
            securityStamp := db.next})
        fun _ _ => False) := by
  unfold User.setPassword
  refine ends_utcNow ?_
  dsimp only [User.setStampException]
  rw [if_pos rfl]
  unfold User.resetSecurityStamp
  refine ends_getUuid ((ends_rotateTokens).bind (fun _ db' h => ?_) fun e db' h => h)
  obtain ⟨devices,n,heq⟩ := h
  exact ⟨devices,n,heq,rfl⟩

/-- The account is stored, unless its address is refused. -/
theorem ends_rotateUser (hu : u∈db.users) : Ends (rotateUser settings u data) db
    (Either (fun _ db' => settings.isValidEmail u.email=true ∧ ∃ stamp devices n,
        db'.toTables={db.toTables with
          devices := devices, next := n, users := put User.uuid (rotated settings u data stamp) db.users})
      fun _ db' => settings.isValidEmail u.email=false ∧
        ∃ devices n,db'.toTables={db.toTables with devices := devices, next := n}) := by
  unfold rotateUser
  refine (ends_setPassword).bind (fun v db₁ h => ?_) fun e db₁ h => h.elim
  obtain ⟨devices,n,heq,rfl⟩ := h
  unfold User.save
  split
  · rename_i hvalid
    have hthere : u∈db₁.users := by
      rw [heq]
      exact hu
    have hdrawn : u.uuid<db₁.next := db₁.valid.2.2.1 u hthere
    refine ends_update_done (valid_user db₁.valid hdrawn fun q hq hemail => ?_) ?_
    · have hsame : q=u := eq_of_key db₁.email_nodup hq hthere hemail
      rw [hsame]
    · refine ⟨hvalid,db.next,devices,n,?_⟩
      dsimp only
      rw [heq]
      rfl
  · rename_i hinvalid
    exact ⟨Bool.eq_false_iff.mpr hinvalid,devices,n,heq⟩

end Account

section Segments

variable {settings : RotationSettings} {db₀ db : Database} {user : Uuid} {α : Type}
  {P : Except String α → Database → Prop} {done xs rest all : List Item}

/-- Items have been handled, none was refused. -/
structure Reached (settings : RotationSettings) (db₀ : Database) (user : Uuid) (done : List Item) (db : Database) :
    Prop where
  /-- All were accepted. -/
  accepted : done.all (accepts settings db₀ user)=true
  /-- Their changes. -/
  rewritten : Rewritten (written settings db₀ user done) db₀ db

/-- An item was refused. -/
structure Stopped (settings : RotationSettings) (db₀ : Database) (user : Uuid) (all : List Item) (db : Database) :
    Prop where
  /-- Not all are accepted. -/
  refused : all.all (accepts settings db₀ user)=false
  /-- The changes in front of the refused one. -/
  rewritten : Rewritten (written settings db₀ user all) db₀ db

/-- The rotation goes on after a loop, or it is stopped. -/
theorem Handled.next {p : Action Unit} {g : Unit → Action α} (h : Ends p db (Handled settings db₀ user xs db))
    (hall : all=done++(xs++rest)) (hdone : Reached settings db₀ user done db)
    (hok : ∀ db',Reached settings db₀ user (done++xs) db' → Ends (g ()) db' P)
    (hstop : ∀ e db',Stopped settings db₀ user all db' → P (.error e) db') : Ends (p.bind g) db P := by
  refine h.bind (fun _ db' h => ?_) fun e db' h => ?_
  · obtain ⟨haccepted,hwritten⟩ := h
    refine hok db' ⟨?_,?_⟩
    · rw [List.all_append,hdone.accepted,haccepted]
      rfl
    · rw [written_append hdone.accepted]
      exact hdone.rewritten.trans hwritten
  · obtain ⟨hrefused,hwritten⟩ := h
    refine hstop e db' ⟨?_,?_⟩
    · rw [hall,List.all_append,List.all_append,hrefused,hdone.accepted]
      rfl
    · rw [hall,written_append hdone.accepted,written_stopped hrefused]
      exact hdone.rewritten.trans hwritten

/-- Items that leave a part leave it as a whole. -/
theorem written_keeps {ρ τ : Type} {core : ρ → τ} {part : Rewriting → Change core} (hkeep : part .keep=.keep core)
    (hthen : ∀ a b : Rewriting,part (a.then b)=(part a).then (part b))
    (h : ∀ i∈xs,part (change settings db₀ user i)=.keep core ∧ part (attempted settings db₀ user i)=.keep core) :
    part (written settings db₀ user xs)=.keep core := by
  induction xs with
  | nil => exact hkeep
  | cons i rest ih =>
    have hi := h i List.mem_cons_self
    rw [written]
    split
    · rw [hthen,hi.1]
      exact ih fun j hj => h j (List.mem_cons_of_mem i hj)
    · exact hi.2

/-- Rows that were loaded are there as long as their table is left. -/
theorem loaded_kept {ρ τ : Type} {core : ρ → τ} {mine : ρ → Prop} {mem rows rows' : List ρ} {f : Change core}
    (h : Loaded mine mem rows) (himages : Images f.1 rows rows') (hf : f=.keep core) : Loaded mine mem rows' := by
  intro r
  rw [h r]
  refine and_congr_left fun _ => ?_
  rw [hf] at himages
  rw [himages r]
  constructor
  · exact fun hr => ⟨r,hr,rfl⟩
  · rintro ⟨q,hq,rfl⟩
    exact hq

/-- The loop that handles an item. -/
def stage : Item → ℕ
  | .folder _ _ => 0
  | .emergencyAccess _ => 1
  | .resetPassword _ => 2
  | .send _ _ => 3
  | .cipher _ => 4

/-- The items of the loops in front of a loop. -/
def Before (k : ℕ) (xs : List Item) : Prop := ∀ i∈xs,stage i<k

/-- One more loop. -/
theorem Before.append {β : Type} {k : ℕ} {f : β → Item} {ds : List β} (h : Before k done)
    (hstage : ∀ d,stage (f d)=k) : Before (k+1) (done++ds.map f) := by
  intro i hi
  rcases List.mem_append.mp hi with hi|hi
  · exact Nat.lt_succ_of_lt (h i hi)
  · obtain ⟨d,-,rfl⟩ := List.mem_map.mp hi
    rw [hstage d]
    exact Nat.lt_succ_self k

/-- A loop finds its rows as they were loaded. -/
theorem Reached.loaded {ρ τ : Type} {core : ρ → τ} {own : ρ → Bool} {rows rows' : List ρ}
    (part : Rewriting → Change core) (h : Reached settings db₀ user done db)
    (himages : Images (part (written settings db₀ user done)).1 rows rows') (hkeep : part .keep=.keep core)
    (hthen : ∀ a b : Rewriting,part (a.then b)=(part a).then (part b))
    (hleft : ∀ i∈done,part (change settings db₀ user i)=.keep core ∧ part (attempted settings db₀ user i)=.keep core) :
    Loaded (fun r => own r=true) (rows.filter own) rows' :=
  loaded_kept (loaded_filter own rows) himages (written_keeps hkeep hthen hleft)

theorem loaded_emergencyAccess (h : Reached settings db₀ user done db) (hdone : Before 1 done) :
    Loaded (fun e => ownsEmergencyAccess user e=true) (db₀.emergencyAccess.filter (ownsEmergencyAccess user))
      db.emergencyAccess := by
  refine h.loaded Rewriting.emergencyAccess h.rewritten.emergencyAccess rfl (fun _ _ => rfl) fun i hi => ?_
  have hstage := hdone i hi
  cases i with
  | folder id name => exact ⟨rfl,rfl⟩
  | _ => simp [stage] at hstage

theorem loaded_members (h : Reached settings db₀ user done db) (hdone : Before 2 done) :
    Loaded (fun m => ownsMember user m=true) (db₀.members.filter (ownsMember user)) db.members := by
  refine h.loaded Rewriting.member h.rewritten.members rfl (fun _ _ => rfl) fun i hi => ?_
  have hstage := hdone i hi
  cases i with
  | folder id name => exact ⟨rfl,rfl⟩
  | emergencyAccess d => exact ⟨rfl,rfl⟩
  | _ => simp [stage] at hstage

theorem loaded_sends (h : Reached settings db₀ user done db) (hdone : Before 3 done) :
    Loaded (fun s => ownsSend user s=true) (db₀.sends.filter (ownsSend user)) db.sends := by
  refine h.loaded Rewriting.send h.rewritten.sends rfl (fun _ _ => rfl) fun i hi => ?_
  have hstage := hdone i hi
  cases i with
  | folder id name => exact ⟨rfl,rfl⟩
  | emergencyAccess d => exact ⟨rfl,rfl⟩
  | resetPassword d => exact ⟨rfl,rfl⟩
  | _ => simp [stage] at hstage

theorem loaded_ciphers (h : Reached settings db₀ user done db) (hdone : Before 4 done) :
    Loaded (fun c => ownsCipher user c=true) (db₀.ciphers.filter (ownsCipher user)) db.ciphers := by
  refine h.loaded Rewriting.cipher h.rewritten.ciphers rfl (fun _ _ => rfl) fun i hi => ?_
  have hstage := hdone i hi
  cases i with
  | folder id name => exact ⟨rfl,rfl⟩
  | emergencyAccess d => exact ⟨rfl,rfl⟩
  | resetPassword d => exact ⟨rfl,rfl⟩
  | send d salt => exact ⟨rfl,rfl⟩
  | cipher d => simp [stage] at hstage

end Segments

section Loops

variable {settings : RotationSettings} {db₀ db : Database} {user : Uuid} {data : KeyData} {φ : Rewriting}

theorem ends_rotateFolders (h : Rewritten φ db₀ db)
    (hloaded : Loaded (fun f => ownsFolder user f=true) (db₀.folders.filter (ownsFolder user)) db.folders) :
    Ends (rotateFolders (db₀.folders.filter (ownsFolder user)) data.accountData.folders) db
      (Handled settings db₀ user (folderItems data) db) := by
  unfold rotateFolders folderItems
  refine ends_rotateRows (fun d _ φ db mem h hloaded => ?_) h hloaded
  obtain ⟨id,name⟩ := d
  exact step_folder h hloaded

theorem ends_rotateEmergencyAccess (h : Rewritten φ db₀ db)
    (hloaded : Loaded (fun e => ownsEmergencyAccess user e=true) (db₀.emergencyAccess.filter (ownsEmergencyAccess user))
      db.emergencyAccess) :
    Ends (rotateEmergencyAccess (db₀.emergencyAccess.filter (ownsEmergencyAccess user))
        data.accountUnlockData.emergencyAccessUnlockData) db
      (Handled settings db₀ user (emergencyItems data) db) := by
  unfold rotateEmergencyAccess emergencyItems
  exact ends_rotateRows (fun d _ φ db mem h hloaded => step_emergencyAccess h hloaded) h hloaded

theorem ends_rotateResetPassword (h : Rewritten φ db₀ db)
    (hloaded : Loaded (fun m => ownsMember user m=true) (db₀.members.filter (ownsMember user)) db.members) :
    Ends (rotateResetPassword (db₀.members.filter (ownsMember user))
        data.accountUnlockData.organizationAccountRecoveryUnlockData) db
      (Handled settings db₀ user (resetItems data) db) := by
  unfold rotateResetPassword resetItems
  exact ends_rotateRows (fun d _ φ db mem h hloaded => step_resetPassword h hloaded) h hloaded

theorem ends_rotateSends (h : Rewritten φ db₀ db)
    (hloaded : Loaded (fun s => ownsSend user s=true) (db₀.sends.filter (ownsSend user)) db.sends) :
    Ends (rotateSends settings.sends user (db₀.sends.filter (ownsSend user)) data.accountData.sends) db
      (Handled settings db₀ user (sendItems data) db) := by
  unfold rotateSends sendItems
  refine ends_rotateRows (fun d _ φ db mem h hloaded => ?_) h hloaded
  obtain ⟨d,salt⟩ := d
  exact step_send h hloaded

theorem ends_rotateCiphers (huser : ∃ u∈db₀.users,u.uuid=user) (h : Rewritten φ db₀ db)
    (hloaded : Loaded (fun c => ownsCipher user c=true) (db₀.ciphers.filter (ownsCipher user)) db.ciphers) :
    Ends (rotateCiphers settings.toVaultSettings user (db₀.ciphers.filter (ownsCipher user)) data.accountData.ciphers)
      db (Handled settings db₀ user (cipherItems data) db) := by
  unfold rotateCiphers cipherItems
  refine ends_rotateRows (fun d hd φ db mem h hloaded => ?_) h hloaded
  have hpersonal := (List.mem_filter.mp hd).2
  exact step_cipher h huser (Option.isNone_iff_eq_none.mp hpersonal) hloaded

end Loops

section Requests

variable {settings : RotationSettings} {db : Database} {caller : Uuid} {data : KeyData}

/-- The checks in front of the first write. -/
def validated (settings : RotationSettings) (db : Database) (u : User) (data : KeyData) : Bool :=
  User.checkValidPassword settings.toFactorSettings u data.oldMasterKeyAuthenticationHash &&
    validateCipherData settings.toVaultSettings data.accountData.ciphers &&
      (validateKeydata data (db.ciphers.filter (ownsCipher u.uuid)) (db.folders.filter (ownsFolder u.uuid))
        (db.emergencyAccess.filter (ownsEmergencyAccess u.uuid)) (db.members.filter (ownsMember u.uuid))
        (db.sends.filter (ownsSend u.uuid)) u).isOk

/-- Every item is accepted, and the address of the account as well. -/
def passes (settings : RotationSettings) (db : Database) (u : User) (data : KeyData) : Bool :=
  (items data).all (accepts settings db u.uuid) && settings.isValidEmail u.email

/-- The ends of a rotation. -/
inductive Outcome (settings : RotationSettings) (db : Database) (caller : Uuid) (data : KeyData) :
    Except String Unit → Database → Prop
  /-- A check has refused, and nothing was written. -/
  | turnedAway (e : String) (h : ∀ u∈db.users,u.uuid=caller → validated settings db u data=false) :
      Outcome settings db caller data (.error e) db
  /-- It was stopped behind the checks. -/
  | stopped (e : String) (db' db₁ : Database) (u : User) (hu : u∈db.users) (hcaller : u.uuid=caller)
      (hvalidated : validated settings db u data=true) (hfails : passes settings db u data=false)
      (hwritten : Rewritten (written settings db u.uuid (items data)) db db₁)
      (hrest : ∃ devices n,db'.toTables={db₁.toTables with devices := devices, next := n}) :
      Outcome settings db caller data (.error e) db'
  /-- It was completed. -/
  | completed (db' db₁ : Database) (u : User) (hu : u∈db.users) (hcaller : u.uuid=caller)
      (hvalidated : validated settings db u data=true) (hpasses : passes settings db u data=true)
      (hwritten : Rewritten (written settings db u.uuid (items data)) db db₁)
      (hrest : ∃ stamp devices n,db'.toTables={db₁.toTables with
        devices := devices, next := n, users := put User.uuid (rotated settings u data stamp) db₁.users}) :
      Outcome settings db caller data (.ok ()) db'

/-- The memberships that are kept have a key. -/
theorem filter_members (user : Uuid) (rows : List Membership) :
    ((rows.filter fun m => m.userUuid=user).filter fun m => m.resetPasswordKey.isSome)=rows.filter (ownsMember user) := by
  rw [List.filter_filter]
  refine List.filter_congr fun m _ => ?_
  rw [Bool.and_comm]
  rfl

/-- The loops and the account behind them. -/
theorem ends_loops {u : User} (hu : u∈db.users) (hcaller : u.uuid=caller)
    (hvalidated : validated settings db u data=true) :
    Ends (do
      rotateFolders (db.folders.filter (ownsFolder u.uuid)) data.accountData.folders
      rotateEmergencyAccess (db.emergencyAccess.filter (ownsEmergencyAccess u.uuid))
        data.accountUnlockData.emergencyAccessUnlockData
      rotateResetPassword (db.members.filter (ownsMember u.uuid))
        data.accountUnlockData.organizationAccountRecoveryUnlockData
      rotateSends settings.sends u.uuid (db.sends.filter (ownsSend u.uuid)) data.accountData.sends
      rotateCiphers settings.toVaultSettings u.uuid (db.ciphers.filter (ownsCipher u.uuid)) data.accountData.ciphers
      rotateUser settings u data) db (Outcome settings db caller data) := by
  have hstop : ∀ e db',Stopped settings db u.uuid (items data) db' → Outcome settings db caller data (.error e) db' := by
    intro e db' h
    refine .stopped e db' db' u hu hcaller hvalidated ?_ h.rewritten ⟨db'.devices,db'.next,rfl⟩
    rw [passes,h.refused]
    rfl
  have hfirst : Reached settings db u.uuid [] db := ⟨rfl,Rewritten.refl db⟩
  have hnone : Before 0 [] := fun i hi => absurd hi List.not_mem_nil
  refine Handled.next (ends_rotateFolders (Rewritten.refl db) (loaded_filter _ _)) rfl hfirst (fun db₁ h₁ => ?_) hstop
  have hb₁ : Before 1 ([]++folderItems data) := hnone.append fun _ => rfl
  refine Handled.next (ends_rotateEmergencyAccess h₁.rewritten (loaded_emergencyAccess h₁ hb₁)) rfl h₁
    (fun db₂ h₂ => ?_) hstop
  have hb₂ : Before 2 (([]++folderItems data)++emergencyItems data) := hb₁.append fun _ => rfl
  have hall₂ : items data=(([]++folderItems data)++emergencyItems data)++
      (resetItems data++(sendItems data++cipherItems data)) := by
    simp [items]
  refine Handled.next (ends_rotateResetPassword h₂.rewritten (loaded_members h₂ hb₂)) hall₂ h₂ (fun db₃ h₃ => ?_) hstop
  have hb₃ : Before 3 ((([]++folderItems data)++emergencyItems data)++resetItems data) := hb₂.append fun _ => rfl
  have hall₃ : items data=((([]++folderItems data)++emergencyItems data)++resetItems data)++
      (sendItems data++cipherItems data) := by
    simp [items]
  refine Handled.next (ends_rotateSends h₃.rewritten (loaded_sends h₃ hb₃)) hall₃ h₃ (fun db₄ h₄ => ?_) hstop
  have hb₄ : Before 4 (((([]++folderItems data)++emergencyItems data)++resetItems data)++sendItems data) :=
    hb₃.append fun _ => rfl
  have hall₄ : items data=(((([]++folderItems data)++emergencyItems data)++resetItems data)++sendItems data)++
      (cipherItems data++[]) := by
    simp [items]
  refine Handled.next (ends_rotateCiphers ⟨u,hu,rfl⟩ h₄.rewritten (loaded_ciphers h₄ hb₄)) hall₄ h₄
    (fun db₅ h₅ => ?_) hstop
  have hall : ((((([]++folderItems data)++emergencyItems data)++resetItems data)++sendItems data)++cipherItems data)=
      items data := by
    simp [items]
  rw [hall] at h₅
  have hthere : u∈db₅.users := by
    rw [h₅.rewritten.users]
    exact hu
  refine (ends_rotateUser hthere).mono fun r db' h => ?_
  cases r with
  | ok a =>
    obtain ⟨hvalid,hrest⟩ := h
    refine .completed db' db₅ u hu hcaller hvalidated ?_ h₅.rewritten hrest
    rw [passes,h₅.accepted,hvalid]
    rfl
  | error e =>
    obtain ⟨hinvalid,hrest⟩ := h
    refine .stopped e db' db₅ u hu hcaller hvalidated ?_ h₅.rewritten hrest
    rw [passes,hinvalid,Bool.and_false]

/-- A rotation ends in one of these ways. -/
theorem ends_postRotatekey : Ends (postRotatekey settings caller data) db (Outcome settings db caller data) := by
  unfold postRotatekey
  have hunique : ∀ u∈db.users,u.uuid=caller → ∀ v∈db.users,v.uuid=caller → v=u := fun u hu hcaller v hv hv' =>
    eq_of_key db.user_nodup hv hu (hv'.trans hcaller.symm)
  show Ends ((expect "Device has no user associated" (db.users.find? fun u => u.uuid=caller)).bind _) db _
  refine Ends.expect (fun u hfound => ?_) fun hnone => .turnedAway _ fun u hu hcaller =>
    absurd (decide_eq_true hcaller) (List.find?_eq_none.mp hnone u hu)
  have hu : u∈db.users := List.mem_of_find?_eq_some hfound
  have hcaller : u.uuid=caller := by simpa using List.find?_some hfound
  have haway : ∀ e,validated settings db u data=false → Outcome settings db caller data (.error e) db := by
    intro e h
    refine .turnedAway e fun v hv hv' => ?_
    rw [hunique u hu hcaller v hv hv']
    exact h
  refine Ends.ensure (fun hpassword => ?_) fun hpassword => haway _ ?_
  · refine Ends.ensure (fun hciphers => ?_) fun hciphers => haway _ ?_
    · refine ends_lookup (ends_lookup (ends_lookup (ends_lookup ?_)))
      dsimp only
      rw [filter_members]
      refine ends_lookup (ends_fromExcept (fun _ hkeys => ?_) fun e hkeys => haway e ?_)
      · refine ends_loops hu hcaller ?_
        rw [validated,hpassword,hciphers]
        exact congrArg Except.isOk hkeys
      · rw [validated,hpassword,hciphers]
        exact congrArg Except.isOk hkeys
    · rw [validated,hciphers,Bool.and_false]
      rfl
  · rw [validated,hpassword]
    rfl

end Requests

end NadSafe.RotationRuns
