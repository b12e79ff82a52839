import NadSafe.SendHandlers
import NadSafe.ResponseScript
import NadSafe.GroupIsolation

/-!
# Limits of a send

One send, with any number of accesses, changes and removals by its owner, and
runs of the purge job, and a clock that goes on. As long as no request stores
the row while another request on the send is in flight, the limit of accesses
is exact, a deleted send stays deleted, and the owner's settings stay in
force. Requests that overlap write back older copies of the row.
-/

namespace NadSafe.SendRuns

open HostText TableRows AsyncScript AsyncScript.Script ScriptPool ServerTables StoreScript ServerModels
open SecondFactors SendHandlers RelyScript TracedRuns ResponseScript

/-- What runs. -/
inductive Operation where
  /-- `post_access`. -/
  | access (password : Option Text)
  /-- `post_access_file`. -/
  | accessFile (password : Option Text) (address : Bool)
  /-- `put_send`. -/
  | put (user : Uuid) (salt : Bytes) (data : SendData)
  /-- `put_remove_password`. -/
  | removePassword (user : Uuid)
  /-- `delete_send`. -/
  | delete (user : Uuid)
  /-- `purge_sends`. -/
  | purge
  /-- Time passes. -/
  | tick (seconds : ℕ)

/-- The handler of an operation. -/
def Operation.body (settings : SendSettings) (id : Uuid) : Operation → Action Unit
  | .access password => postAccess settings id password
  | .accessFile password address => postAccessFile settings id password address
  | .put user salt data => putSend settings user id salt data
  | .removePassword user => putRemovePassword settings user id
  | .delete user => deleteSend settings user id
  | .purge => Send.purge settings
  | .tick seconds => SecondFactors.tick seconds

/-- The server with these operations. -/
def server (settings : SendSettings) (id : Uuid) :
    System (Statement Database) Statement.Answer Unit String (Except String Unit) Database Operation :=
  ⟨exec,fun op => respond (op.body settings id)⟩

/-- One move of these operations. -/
abbrev Step := Move String (Except String Unit) Database Operation

/-- The row of the send. -/
def row (id : Uuid) (db : Database) : Option Send := Send.findByUuid db.toTables id

/-- The row is as it was. -/
def SameRow (id : Uuid) (db db' : Database) : Prop := row id db'=row id db

/-- The settings of a send. -/
structure Terms where
  /-- Switched off. -/
  disabled : Bool
  /-- End of access. -/
  expirationDate : Option ℤ
  /-- End of life. -/
  deletionDate : ℤ
  /-- Hash, salt and iterations of the password. -/
  password : Option (Bytes×Bytes×ℕ)
  /-- Limit of accesses. -/
  maxAccessCount : Option ℤ

/-- The settings of a row. -/
def terms (s : Send) : Terms := ⟨s.disabled,s.expirationDate,s.deletionDate,s.password,s.maxAccessCount⟩

/-- Settings that let an access through, apart from the time. -/
structure Permits (settings : SendSettings) (password : Option Text) (t : Terms) : Prop where
  /-- Not switched off. -/
  enabled : t.disabled=false
  /-- With the password. -/
  password : t.password=none ∨ ∃ p,password=some p ∧ checkPassword settings t.password p=true

/-- Some response is a success. -/
def succeeds (m : Step) : Bool :=
  match response m with
  | some (.ok _) => true
  | _ => false

/-- The password that an access offers. -/
def Operation.offered : Operation → Option (Option Text)
  | .access password => some password
  | .accessFile password _ => some password
  | _ => none

/-- An access of a send of some type is counted. -/
def Operation.counts (atype : ℤ) : Operation → Bool
  | .access _ => atype=SendText
  | .accessFile _ _ => atype=SendFile
  | _ => false

/-- A counted access has succeeded. -/
def isCounted (atype : ℤ) (m : Step) : Bool := m.op.counts atype && succeeds m

/-- The owner has changed the settings. -/
def setsTerms (m : Step) : Bool :=
  match m.op with
  | .put _ _ _ => succeeds m
  | .removePassword _ => succeeds m
  | _ => false

/-- The owner has set the limit. -/
def setsLimit (m : Step) : Bool :=
  match m.op with
  | .put _ _ _ => succeeds m
  | _ => false

/-- The owner has deleted the send. -/
def deletes (m : Step) : Bool :=
  match m.op with
  | .delete _ => succeeds m
  | _ => false

/-- The settings that a change has asked for. -/
def Asked (settings : SendSettings) : Operation → Terms → Prop
  | .put _ _ data,t => t.disabled=data.disabled ∧ t.expirationDate=data.expirationDate ∧
      t.deletionDate=data.deletionDate ∧ data.limit=.ok t.maxAccessCount ∧
      ∀ p,data.password=some p → checkPassword settings t.password p=true
  | .removePassword _,t => t.password=none
  | _,_ => False

/-- Settings are in force with a move: the row has them, unless it was purged
after its end of life, and an access that succeeds is one that they permit. -/
structure InForce (settings : SendSettings) (id : Uuid) (t : Terms) (m : Step) : Prop where
  /-- The row. -/
  row : match row id m.after with
    | some s => terms s=t
    | none => t.deletionDate < m.after.now
  /-- Accesses. -/
  access : ∀ password,m.op.offered=some password → succeeds m=true → Permits settings password t

/-- The limits of a send in the moves of a run. -/
structure Exact (settings : SendSettings) (id : Uuid) (atype : ℤ) (moves : List Step) : Prop where
  /-- Between two changes of the limit, no more counted accesses than it allows. -/
  limited : ∀ earlier first between later limit,moves=earlier++first::between++later →
    (∀ m∈first::between,setsLimit m=false) → (row id first.before).bind Send.maxAccessCount=some limit →
      (first::between).countP (isCounted atype)≤limit.toNat
  /-- After a deletion, no access. -/
  deleted : ∀ earlier m later,moves=earlier++m::later → deletes m=true →
    ∀ x∈later,x.op.offered.isSome=true → succeeds x=false
  /-- After a change, its settings until the next one. -/
  kept : ∀ earlier m between later,moves=earlier++m::between++later → setsTerms m=true →
    (∀ x∈between,setsTerms x=false ∧ deletes x=false) →
      ∃ s,row id m.after=some s ∧ Asked settings m.op (terms s) ∧ ∀ x∈between,InForce settings id (terms s) x

/-- No step stores the row while another request is in flight, and the counter
is not at its end. -/
def Orderly (settings : SendSettings) (id : Uuid)
    (P : Pool (Statement Database) Statement.Answer Unit String (Except String Unit) Database Operation)
    (e : Event Operation Unit) : Prop :=
  Undisturbed (server settings id) (SameRow id) P e ∧
    (row id P.shared).all (fun s => s.accessCount<2^31-1)=true

/-- The row is as it was, and the clock is not set back. -/
structure Same (id : Uuid) (db db' : Database) : Prop where
  /-- The row. -/
  row : row id db'=row id db
  /-- The clock. -/
  clock : db.now≤db'.now

/-- An access that was let through. -/
structure Admitted (settings : SendSettings) (id : Uuid) (password : Option Text) (after : Send → Send)
    (db db' : Database) : Prop where
  /-- The row. -/
  row : ∃ s,row id db=some s ∧ (∀ limit,s.maxAccessCount=some limit → s.accessCount<limit) ∧
    Permits settings password (terms s) ∧ row id db'=some (after s)
  /-- The clock. -/
  clock : db.now≤db'.now

/-- A change of settings. -/
structure Changed (settings : SendSettings) (id : Uuid) (op : Operation) (db db' : Database) : Prop where
  /-- The row. -/
  row : ∃ s s',row id db=some s ∧ row id db'=some s' ∧ Asked settings op (terms s') ∧ s'.accessCount=s.accessCount ∧
    s'.atype=s.atype ∧ ∀ user,op=.removePassword user → s'.maxAccessCount=s.maxAccessCount
  /-- The clock. -/
  clock : db.now≤db'.now

/-- The row was purged, or is as it was. -/
structure Purged (id : Uuid) (db db' : Database) : Prop where
  /-- The row. -/
  row : row id db'=row id db ∨ (∃ s,row id db=some s ∧ s.deletionDate<db'.now) ∧ row id db'=none
  /-- The clock. -/
  clock : db.now≤db'.now

/-- The row is gone. -/
structure Gone (id : Uuid) (db db' : Database) : Prop where
  /-- The row. -/
  row : row id db'=none
  /-- The clock. -/
  clock : db.now≤db'.now

/-- What `post_access` stores. -/
def accessed (s : Send) : Send := if s.atype=SendText then Send.counted s else s

/-- What an operation has done with the segment that it responds in. -/
def Finished (settings : SendSettings) (id : Uuid) : Operation → Except String Unit → Database → Database → Prop
  | .access password,.ok _,db,db' => Admitted settings id password accessed db db'
  | .accessFile password _,.ok _,db,db' => Admitted settings id password Send.counted db db'
  | .accessFile password _,.error _,db,db' => Same id db db' ∨ Admitted settings id password Send.counted db db'
  | .put user salt data,.ok _,db,db' => Changed settings id (.put user salt data) db db'
  | .removePassword user,.ok _,db,db' => Changed settings id (.removePassword user) db db'
  | .delete _,.ok _,db,db' => Gone id db db'
  | .purge,_,db,db' => Purged id db db'
  | _,_,db,db' => Same id db db'

section Rows

variable {id : Uuid} {db db' : Database} {s : Send}

theorem row_eq_some_iff : row id db=some s ↔ s∈db.sends ∧ s.uuid=id := by
  constructor
  · intro h
    have hid := List.find?_some h
    rw [decide_eq_true_eq] at hid
    exact ⟨List.mem_of_find?_eq_some h,hid⟩
  · rintro ⟨hs,rfl⟩
    exact find?_key db.send_nodup hs

/-- The row is a matter of the rows with its key. -/
theorem row_congr (h : ∀ q : Send,q.uuid=id → (q∈db'.sends ↔ q∈db.sends)) : row id db'=row id db := by
  refine Option.ext fun q => ?_
  rw [row_eq_some_iff,row_eq_some_iff]
  exact and_congr_left fun hq => h q hq

theorem row_saved (hid : s.uuid=id) (h : db'.sends=put ServerTables.Send.uuid s db.sends) : row id db'=some s := by
  refine (row_eq_some_iff).mpr ⟨?_,hid⟩
  rw [h]
  exact mem_put.mpr (.inl rfl)

/-- A deletion removes the row with the key of the send. -/
theorem row_deleted (id : Uuid) (h : db'.sends=db.sends.filter fun q => q.uuid≠s.uuid) :
    if s.uuid=id then row id db'=none else row id db'=row id db := by
  split_ifs with hid
  · refine Option.eq_none_iff_forall_ne_some.mpr fun q hq => ?_
    obtain ⟨hmem,hqid⟩ := (row_eq_some_iff).mp hq
    rw [h] at hmem
    have hne := (List.mem_filter.mp hmem).2
    rw [decide_eq_true_eq] at hne
    exact hne (hqid.trans hid.symm)
  · refine row_congr fun q hq => ?_
    rw [h,List.mem_filter,decide_eq_true_eq]
    exact ⟨fun hmem => hmem.1,fun hmem => ⟨hmem,fun he => hid (he.symm.trans hq)⟩⟩

theorem row_of_user {user : Uuid} (h : Send.findByUuidAndUser db.toTables id user=some s) : row id db=some s := by
  have hfound := List.find?_some h
  rw [decide_eq_true_eq] at hfound
  exact (row_eq_some_iff).mpr ⟨List.mem_of_find?_eq_some h,hfound.1⟩

theorem Same.refl (db : Database) : Same id db db := ⟨rfl,Int.le_refl _⟩

theorem Same.trans {a b c : Database} (h : Same id a b) (h' : Same id b c) : Same id a c :=
  ⟨h'.row.trans h.row,Int.le_trans h.clock h'.clock⟩

theorem Same.purged (h : Same id db db') : Purged id db db' := ⟨.inl h.row,h.clock⟩

theorem purged_refl : Purged id db db := (Same.refl db).purged

end Rows

section Handlers

variable {settings : SendSettings} {id : Uuid} {op : Operation} {α : Type} {db db₀ : Database}

/-- What a handler does while the others leave the row. -/
abbrev Acts (settings : SendSettings) (id : Uuid) (op : Operation) (p : Action Unit) (db₀ db : Database) : Prop :=
  Responds exec (Same id) (Purged id) (Finished settings id op) p db₀ db

/-- A refusal changes nothing. -/
theorem finished_refused (op : Operation) (e : String) : Finished settings id op (.error e) db db := by
  cases op with
  | accessFile password address => exact .inl (Same.refl db)
  | purge => exact purged_refl
  | _ => exact Same.refl db

/-- A query and a check of what it has read. -/
theorem acts_gate (f : Tables → α) (message : String) (condition : α → Bool) {g : Unit → Action Unit}
    (h : ∀ db',Same id db db' → Acts settings id op (g ()) db' db') :
    Acts settings id op (((lookup f).bind fun a => ensure message (condition a)).bind g) db db := by
  rw [Script.bind_assoc]
  refine Responds.query purged_refl fun db' hdb' => ?_
  exact Responds.ensure (fun _ => h db' hdb') fun _ => finished_refused op _

/-- A row that has to be there. -/
theorem acts_row (find : Tables → Option Send) {message : String} {g : Send → Action Unit}
    (hfind : ∀ (db : Database) s,find db.toTables=some s → row id db=some s)
    (h : ∀ db' s,Same id db db' → row id db'=some s → Acts settings id op (g s) db' db') :
    Acts settings id op ((lookup find).bind fun found => (expect message found).bind g) db db := by
  refine Responds.query purged_refl fun db' hdb' => ?_
  exact Responds.expect (fun s hs => h db' s hdb' (hfind db' s hs)) fun _ => finished_refused op _

theorem responds_utcNow {G : Database → Database → Prop} {Q : Except String α → Database → Database → Prop}
    {g : ℤ → Action α} (h : Responds exec (Same id) G Q (g db.now) db₀ db) :
    Responds exec (Same id) G Q (utcNow.bind g) db₀ db := h

/-- A save of the row that was read. -/
theorem acts_save {s : Send} (hid : s.uuid=id)
    (h : ∀ db' db'',Same id db db' → row id db''=some s → db'.now≤db''.now → Finished settings id op (.ok ()) db' db'') :
    Acts settings id op (Send.save s) db db := by
  refine Responds.execute_done purged_refl (fun db' db'' hdb' hc => ?_) fun db' _ _ => finished_refused op _
  have heq := commit_eq hc
  exact h db' db'' hdb' (row_saved hid (congrArg Tables.sends heq)) (Int.le_of_eq (congrArg Tables.now heq).symm)

/-- The checks let an access through that the settings permit and that is
below the limit. -/
theorem acts_checkAccess {invalid : String} {password : Option Text} {s : Send} {g : Unit → Action Unit}
    (h : (∀ limit,s.maxAccessCount=some limit → s.accessCount<limit) → Permits settings password (terms s) →
      Acts settings id op (g ()) db db) :
    Acts settings id op ((checkAccess settings invalid password s).bind g) db db := by
  have hchecks : Responds exec (Same id) (Purged id) (fun r db₁ db₂ => db₁=db ∧ db₂=db ∧ ∀ u,r=.ok u →
      (∀ limit,s.maxAccessCount=some limit → s.accessCount<limit) ∧ Permits settings password (terms s))
      (checkAccess settings invalid password s) db db := by
    refine Responds.ensure (fun hlimit => ?_) fun _ => ⟨rfl,rfl,nofun⟩
    refine responds_utcNow ?_
    refine Responds.ensure (fun _ => ?_) fun _ => ⟨rfl,rfl,nofun⟩
    refine Responds.ensure (fun _ => ?_) fun _ => ⟨rfl,rfl,nofun⟩
    refine Responds.ensure (fun henabled => ?_) fun _ => ⟨rfl,rfl,nofun⟩
    have hbelow : ∀ limit,s.maxAccessCount=some limit → s.accessCount<limit := by
      intro limit hsome
      rw [hsome] at hlimit
      exact of_decide_eq_true hlimit
    have hon : s.disabled=false := by rwa [Bool.not_eq_true'] at henabled
    split
    · rename_i hnone
      exact ⟨rfl,rfl,fun _ _ => ⟨hbelow,hon,.inl hnone⟩⟩
    · cases password with
      | none => exact ⟨rfl,rfl,nofun⟩
      | some p =>
        exact Responds.ensure_done (fun hp => ⟨rfl,rfl,fun _ _ => ⟨hbelow,hon,.inr ⟨p,rfl,hp⟩⟩⟩) fun _ => ⟨rfl,rfl,nofun⟩
  refine hchecks.bind (fun u db₁ db₂ hdone => ?_) fun e db₁ db₂ hdone => ?_
  · obtain ⟨rfl,rfl,hok⟩ := hdone
    obtain ⟨hlimit,hpermits⟩ := hok u rfl
    exact h hlimit hpermits
  · obtain ⟨rfl,rfl,-⟩ := hdone
    exact finished_refused op e

theorem acts_access {password : Option Text} :
    Acts settings id (.access password) (postAccess settings id password) db db := by
  refine acts_row (fun t => Send.findByUuid t id) (fun _ _ h => h) fun db₁ s _ hs => ?_
  refine acts_checkAccess fun hlimit hpermits => ?_
  have huuid := (row_eq_some_iff.mp hs).2
  have hid : (accessed s).uuid=id := by
    rw [accessed]
    split_ifs <;> exact huuid
  refine acts_save hid fun db₂ db₃ hsame hrow hclock => ?_
  exact ⟨⟨s,hsame.row.trans hs,hlimit,hpermits,hrow⟩,hclock⟩

theorem acts_accessFile {password : Option Text} {address : Bool} :
    Acts settings id (.accessFile password address) (postAccessFile settings id password address) db db := by
  refine acts_row (fun t => Send.findByUuid t id) (fun _ _ h => h) fun db₁ s _ hs => ?_
  refine acts_checkAccess fun hlimit hpermits => ?_
  have huuid := (row_eq_some_iff.mp hs).2
  refine Responds.execute purged_refl (fun db₂ db₃ hsame hc => ?_) fun db₂ _ _ => .inl (Same.refl db₂)
  have heq := commit_eq hc
  have hsaved : row id db₃=some (Send.counted s) := row_saved huuid (congrArg Tables.sends heq)
  have hadmitted : Admitted settings id password Send.counted db₂ db₃ :=
    ⟨⟨s,hsame.row.trans hs,hlimit,hpermits,hsaved⟩,Int.le_of_eq (congrArg Tables.now heq).symm⟩
  exact Responds.ensure_done (fun _ => hadmitted) fun _ => .inr hadmitted

/-- A new password is the stored one. -/
theorem updatedSend_asked {user : Uuid} {salt : Bytes} {data : SendData} {limit : Option ℤ} {content : Text} {s : Send}
    (hlimit : data.limit=.ok limit) :
    Asked settings (.put user salt data) (terms (updatedSend settings salt data limit content s)) := by
  unfold updatedSend
  dsimp only
  split
  · rename_i password hpassword
    refine ⟨rfl,rfl,rfl,hlimit,fun p hp => ?_⟩
    rw [hpassword] at hp
    cases hp
    exact decide_eq_true rfl
  · rename_i hnone
    refine ⟨rfl,rfl,rfl,hlimit,fun p hp => ?_⟩
    rw [hnone] at hp
    cases hp

/-- Other columns stay. -/
theorem updatedSend_kept (settings : SendSettings) (salt : Bytes) (data : SendData) (limit : Option ℤ) (content : Text)
    (s : Send) :
    (updatedSend settings salt data limit content s).uuid=s.uuid ∧
      (updatedSend settings salt data limit content s).accessCount=s.accessCount ∧
        (updatedSend settings salt data limit content s).atype=s.atype := by
  unfold updatedSend
  dsimp only
  split <;> exact ⟨rfl,rfl,rfl⟩

/-- The row that an update saves. -/
theorem responds_update {user : Uuid} {salt : Bytes} {data : SendData} {s : Send} (hs : row id db=some s) :
    Responds exec (Same id) (Purged id)
      (fun r db db' => Finished settings id (.put user salt data) (r.map fun _ => ()) db db')
      (updateSendFromData settings salt s data user) db db := by
  have hrefused : ∀ e,Finished settings id (.put user salt data) (.error e) db db := finished_refused _
  refine Responds.ensure (fun _ => ?_) fun _ => hrefused _
  refine Responds.ensure (fun _ => ?_) fun _ => hrefused _
  refine responds_utcNow ?_
  refine Responds.ensure (fun _ => ?_) fun _ => hrefused _
  refine Responds.expect (fun content _ => ?_) fun _ => hrefused _
  cases hlimit : data.limit with
  | error e => exact hrefused e
  | ok limit =>
    obtain ⟨huuid,hcount,htype⟩ := updatedSend_kept settings salt data limit content s
    refine Responds.execute purged_refl (fun db₁ db₂ hsame hc => ?_) fun db₁ _ _ => finished_refused _ _
    have heq := commit_eq hc
    have hid := huuid.trans (row_eq_some_iff.mp hs).2
    have hsaved := row_saved hid (congrArg Tables.sends heq)
    have hasked : Asked settings (.put user salt data) (terms (updatedSend settings salt data limit content s)) :=
      updatedSend_asked hlimit
    exact ⟨⟨s,_,hsame.row.trans hs,hsaved,hasked,hcount,htype,nofun⟩,Int.le_of_eq (congrArg Tables.now heq).symm⟩

theorem acts_put {user : Uuid} {salt : Bytes} {data : SendData} :
    Acts settings id (.put user salt data) (putSend settings user id salt data) db db := by
  refine acts_gate (settings.disableSend · user) _ (fun disabled => settings.sendsAllowed && !disabled) fun db₁ _ => ?_
  refine acts_gate (settings.isHideEmailDisabled · user) _
    (fun disabled => !(data.hideEmail.getD false && disabled)) fun db₂ _ => ?_
  refine acts_row (fun t => Send.findByUuidAndUser t id user) (fun _ _ h => row_of_user h) fun db₃ s _ hs => ?_
  exact (responds_update hs).bind (fun _ _ _ h => h) fun _ _ _ h => h

theorem acts_removePassword {user : Uuid} :
    Acts settings id (.removePassword user) (putRemovePassword settings user id) db db := by
  refine acts_gate (settings.disableSend · user) _ (fun disabled => settings.sendsAllowed && !disabled) fun db₁ _ => ?_
  refine acts_row (fun t => Send.findByUuidAndUser t id user) (fun _ _ h => row_of_user h) fun db₂ s _ hs => ?_
  refine acts_save (row_eq_some_iff.mp hs).2 fun db₃ db₄ hsame hrow hclock => ?_
  exact ⟨⟨s,_,hsame.row.trans hs,hrow,rfl,rfl,rfl,fun _ _ => rfl⟩,hclock⟩

theorem acts_delete {user : Uuid} : Acts settings id (.delete user) (deleteSend settings user id) db db := by
  refine acts_row (fun t => Send.findByUuidAndUser t id user) (fun _ _ h => row_of_user h) fun db₁ s _ hs => ?_
  refine Responds.ensure (fun _ => ?_) fun _ => finished_refused _ _
  refine Responds.execute_done purged_refl (fun db₂ db₃ hsame hc => ?_) fun _ _ _ => finished_refused _ _
  have heq := commit_eq hc
  have hgone := row_deleted (s:=s) id (congrArg Tables.sends heq)
  rw [if_pos (row_eq_some_iff.mp hs).2] at hgone
  exact ⟨hgone,Int.le_of_eq (congrArg Tables.now heq).symm⟩

/-- The rows that are still to be purged have passed their end of life. -/
structure Pending (id : Uuid) (past : List Send) (db₀ db : Database) : Prop where
  /-- What was done so far. -/
  purged : Purged id db₀ db
  /-- The rest. -/
  rest : ∀ s∈past,s.uuid=id → s.deletionDate<db.now ∧ (row id db=none ∨ row id db=some s)

/-- Rows that wait are still there after a suspension. -/
theorem Pending.waited {past : List Send} {db₀ db db' : Database} (h : Pending id past db₀ db) (hsame : Same id db db') :
    Pending id past db' db' := by
  refine ⟨purged_refl,fun s hs hid => ?_⟩
  obtain ⟨hlate,hrow⟩ := h.rest s hs hid
  rw [← hsame.row] at hrow
  exact ⟨Int.lt_of_lt_of_le hlate hsame.clock,hrow⟩

theorem Pending.tail {s : Send} {past : List Send} {db₀ db : Database} (h : Pending id (s::past) db₀ db) :
    Pending id past db₀ db := ⟨h.purged,fun q hq => h.rest q (List.mem_cons_of_mem s hq)⟩

/-- One row is purged. -/
theorem Pending.deleted {s : Send} {past : List Send} {db db' : Database} (h : Pending id (s::past) db db)
    (hsends : db'.sends=db.sends.filter fun q => q.uuid≠s.uuid) (hnow : db'.now=db.now) : Pending id past db db' := by
  have hrow := row_deleted id hsends
  have hclock : db.now≤db'.now := Int.le_of_eq hnow.symm
  by_cases hid : s.uuid=id
  · rw [if_pos hid] at hrow
    obtain ⟨hlate,hfound⟩ := h.rest s List.mem_cons_self hid
    refine ⟨⟨?_,hclock⟩,fun q hq hqid => ?_⟩
    · rcases hfound with hnone|hsome
      · exact .inl (hrow.trans hnone.symm)
      · exact .inr ⟨⟨s,hsome,Int.lt_of_lt_of_le hlate hclock⟩,hrow⟩
    · have hq := (h.rest q (List.mem_cons_of_mem s hq) hqid).1
      exact ⟨Int.lt_of_lt_of_le hq hclock,.inl hrow⟩
  · rw [if_neg hid] at hrow
    refine ⟨⟨.inl hrow,hclock⟩,fun q hq hqid => ?_⟩
    obtain ⟨hlate,hfound⟩ := h.tail.rest q hq hqid
    rw [← hrow] at hfound
    exact ⟨Int.lt_of_lt_of_le hlate hclock,hfound⟩

theorem acts_purge : Acts settings id .purge (Send.purge settings) db db := by
  refine Responds.query purged_refl fun db₁ _ => ?_
  refine Responds.each (J:=Pending id) (fun s past db₂ db₃ hpending => ?_) (fun _ _ h => h.purged) ?_
  · refine Responds.ok (Q:=fun _ => Pending id past) ?_ fun _ db₄ db₅ h => ⟨fun _ => h,nofun⟩
    refine Responds.ensure (fun _ => ?_) fun _ => hpending.tail
    refine Responds.execute_done hpending.purged (fun db₄ db₅ hsame hc => ?_) fun db₄ hsame _ => ?_
    · have heq := commit_eq hc
      exact (hpending.waited hsame).deleted (congrArg Tables.sends heq) (by rw [heq])
    · exact (hpending.waited hsame).tail
  · refine ⟨purged_refl,fun s hs hid => ?_⟩
    obtain ⟨hmem,hlate⟩ := List.mem_filter.mp hs
    rw [decide_eq_true_eq] at hlate
    exact ⟨hlate,.inr (row_eq_some_iff.mpr ⟨hmem,hid⟩)⟩

theorem acts_tick {seconds : ℕ} : Acts settings id (.tick seconds) (SecondFactors.tick seconds) db db := by
  refine Responds.execute_done purged_refl (fun db₁ db₂ _ hc => ?_) fun db₁ _ _ => Same.refl db₁
  have heq := commit_eq hc
  refine ⟨row_congr fun q _ => ?_,?_⟩
  · rw [heq]
  · rw [heq]
    exact Int.le_add_of_nonneg_right (Int.natCast_nonneg seconds)

/-- What every operation does. -/
theorem acts_body (op : Operation) : Acts settings id op (op.body settings id) db db := by
  cases op with
  | access password => exact acts_access
  | accessFile password address => exact acts_accessFile
  | put user salt data => exact acts_put
  | removePassword user => exact acts_removePassword
  | delete user => exact acts_delete
  | purge => exact acts_purge
  | tick seconds => exact acts_tick

end Handlers

section Moves

variable {settings : SendSettings} {id : Uuid} {atype limit : ℤ} {t : Terms} {m : Step} {db db' : Database}
  {moves : List Step}

/-- What a move shows. -/
abbrev Seen (settings : SendSettings) (id : Uuid) (m : Step) : Prop :=
  Shows (fun _ => True) (fun _ => Purged id) (Finished settings id) m

/-- What becomes of the row in a move. -/
inductive Fate (settings : SendSettings) (id : Uuid) (m : Step) : Prop
  /-- It stays, or is purged. -/
  | left (h : Purged id m.before m.after) (hrefused : m.op.offered.isSome=true → succeeds m=false)
  /-- An access is let through. -/
  | admitted (password : Option Text) (s s' : Send) (hoffered : m.op.offered=some password)
      (hrow : row id m.before=some s) (hrow' : row id m.after=some s')
      (hbelow : ∀ limit,s.maxAccessCount=some limit → s.accessCount<limit)
      (hpermits : Permits settings password (terms s)) (hterms : terms s'=terms s) (htype : s'.atype=s.atype)
      (hcount : s'.accessCount=increment s.accessCount ∨ s'.accessCount=s.accessCount ∧ isCounted s.atype m=false)
  /-- The owner changes it. -/
  | changed (hop : setsTerms m=true) (h : Changed settings id m.op m.before m.after)
  /-- The owner deletes it. -/
  | gone (hop : deletes m=true) (h : Gone id m.before m.after)

theorem succeeds_of_response {r : Except String Unit} (h : response m=some r) : succeeds m=r.isOk := by
  unfold succeeds
  rw [h]
  cases r <;> rfl

/-- An access through `post_access`. -/
theorem fate_access {password : Option Text} (hop : m.op=.access password)
    (h : Admitted settings id password accessed m.before m.after) : Fate settings id m := by
  obtain ⟨s,hrow,hbelow,hpermits,hrow'⟩ := h.row
  refine .admitted password s (accessed s) (by rw [hop]; rfl) hrow hrow' hbelow hpermits ?_ ?_ ?_
  all_goals unfold accessed
  · split_ifs <;> rfl
  · split_ifs <;> rfl
  · split_ifs with htext
    · exact .inl rfl
    · refine .inr ⟨rfl,?_⟩
      unfold isCounted
      rw [hop,Operation.counts,decide_eq_false htext,Bool.false_and]

/-- An access through `post_access_file`. -/
theorem fate_accessFile {password : Option Text} {address : Bool} (hop : m.op=.accessFile password address)
    (h : Admitted settings id password Send.counted m.before m.after) : Fate settings id m := by
  obtain ⟨s,hrow,hbelow,hpermits,hrow'⟩ := h.row
  exact .admitted password s (Send.counted s) (by rw [hop]; rfl) hrow hrow' hbelow hpermits rfl rfl (.inl rfl)

/-- Every move has one of the four outcomes. -/
theorem fate_of_seen (h : Seen settings id m) : Fate settings id m := by
  rcases shows_cases h with ⟨hnone,hpurged⟩|⟨r,hr,hfinished⟩
  · refine .left hpurged fun _ => ?_
    unfold succeeds
    rw [hnone]
  have hsucceeds := succeeds_of_response hr
  cases r with
  | error e =>
    have hrefused : m.op.offered.isSome=true → succeeds m=false := fun _ => hsucceeds
    cases hop : m.op with
    | accessFile password address =>
      rw [hop] at hfinished
      exact hfinished.elim (fun hsame => .left hsame.purged hrefused) (fate_accessFile hop)
    | purge =>
      rw [hop] at hfinished
      exact .left hfinished hrefused
    | _ =>
      rw [hop] at hfinished
      exact .left (Same.purged hfinished) hrefused
  | ok u =>
    cases hop : m.op with
    | access password =>
      rw [hop] at hfinished
      exact fate_access hop hfinished
    | accessFile password address =>
      rw [hop] at hfinished
      exact fate_accessFile hop hfinished
    | put user salt data =>
      rw [hop] at hfinished
      refine .changed ?_ (by rw [hop]; exact hfinished)
      unfold setsTerms
      rw [hop]
      exact hsucceeds
    | removePassword user =>
      rw [hop] at hfinished
      refine .changed ?_ (by rw [hop]; exact hfinished)
      unfold setsTerms
      rw [hop]
      exact hsucceeds
    | delete user =>
      rw [hop] at hfinished
      refine .gone ?_ hfinished
      unfold deletes
      rw [hop]
      exact hsucceeds
    | purge =>
      rw [hop] at hfinished
      refine .left hfinished fun hoffered => ?_
      rw [hop] at hoffered
      cases hoffered
    | tick seconds =>
      rw [hop] at hfinished
      refine .left (Same.purged hfinished) fun hoffered => ?_
      rw [hop] at hoffered
      cases hoffered

/-- A success is the response of the handler. -/
theorem finished_of_succeeds (h : Seen settings id m) (hs : succeeds m=true) :
    Finished settings id m.op (.ok ()) m.before m.after := by
  rcases shows_cases h with ⟨hnone,-⟩|⟨r,hr,hfinished⟩
  · unfold succeeds at hs
    rw [hnone] at hs
    cases hs
  · rw [succeeds_of_response hr] at hs
    cases r with
    | ok u => exact hfinished
    | error e => cases hs

theorem gone_of_deletes (h : Seen settings id m) (hm : deletes m=true) : Gone id m.before m.after := by
  unfold deletes at hm
  cases hop : m.op with
  | delete user =>
    rw [hop] at hm
    have hfinished := finished_of_succeeds h hm
    rw [hop] at hfinished
    exact hfinished
  | _ =>
    rw [hop] at hm
    cases hm

theorem changed_of_setsTerms (h : Seen settings id m) (hm : setsTerms m=true) :
    Changed settings id m.op m.before m.after := by
  unfold setsTerms at hm
  cases hop : m.op with
  | put user salt data =>
    rw [hop] at hm
    have hfinished := finished_of_succeeds h hm
    rw [hop] at hfinished
    exact hfinished
  | removePassword user =>
    rw [hop] at hm
    have hfinished := finished_of_succeeds h hm
    rw [hop] at hfinished
    exact hfinished
  | _ =>
    rw [hop] at hm
    cases hm

/-- The accesses that a row still allows. -/
def room (limit : ℤ) : Option Send → ℕ
  | some s => (limit-s.accessCount).toNat
  | none => 0

/-- The row has the type and a counter that has not wrapped. -/
def Typed (id : Uuid) (atype : ℤ) (db : Database) : Prop := ∀ s,row id db=some s → s.atype=atype ∧ 0 ≤ s.accessCount

/-- The counter is not at its end. -/
def Roomy (id : Uuid) (db : Database) : Prop := (row id db).all (fun s => s.accessCount<2^31-1)=true

/-- The limit of the row. -/
def LimitedBy (id : Uuid) (limit : ℤ) (db : Database) : Prop := ∀ s,row id db=some s → s.maxAccessCount=some limit

theorem increment_eq {n : ℤ} (hn : 0≤n) (h : n<2^31-1) : increment n=n+1 := by
  unfold increment
  rw [Int.bmod_def,Int.emod_eq_of_lt (by omega) (by omega),if_pos (by omega)]

theorem Roomy.lt {s : Send} (h : Roomy id db) (hs : row id db=some s) : s.accessCount<2^31-1 := by
  unfold Roomy at h
  rw [hs] at h
  exact of_decide_eq_true h

theorem row_of_purged (h : Purged id db db') {s : Send} (hs : row id db'=some s) : row id db=some s := by
  rcases h.row with hsame|⟨-,hnone⟩
  · exact hsame.symm.trans hs
  · rw [hnone] at hs
    cases hs

/-- A move keeps the type, and the counter from wrapping. -/
theorem typed_move (h : Seen settings id m) (hroomy : Roomy id m.before) (hdb : Typed id atype m.before) :
    Typed id atype m.after := by
  intro q hq
  cases fate_of_seen h with
  | left h _ => exact hdb q (row_of_purged h hq)
  | admitted password s s' _ hrow hrow' _ _ _ htype hcount =>
    obtain rfl := Option.some.inj (hrow'.symm.trans hq)
    obtain ⟨hs,hpositive⟩ := hdb s hrow
    refine ⟨htype.trans hs,?_⟩
    rcases hcount with hcounted|⟨hsame,-⟩
    · rw [hcounted,increment_eq hpositive (hroomy.lt hrow)]
      omega
    · rwa [hsame]
  | changed _ h =>
    obtain ⟨s,s',hrow,hrow',-,hcount,htype,-⟩ := h.row
    obtain rfl := Option.some.inj (hrow'.symm.trans hq)
    obtain ⟨hs,hpositive⟩ := hdb s hrow
    exact ⟨htype.trans hs,by rwa [hcount]⟩
  | gone _ h =>
    rw [h.row] at hq
    cases hq

/-- The owner changes the settings and not the limit. -/
theorem removes_of_setsTerms (hop : setsTerms m=true) (hm : setsLimit m=false) :
    ∃ user,m.op=.removePassword user := by
  unfold setsTerms at hop
  unfold setsLimit at hm
  cases hkind : m.op with
  | removePassword user => exact ⟨user,rfl⟩
  | put user salt data =>
    rw [hkind] at hop hm
    have hsucceeds : succeeds m=true := hop
    have hfails : succeeds m=false := hm
    rw [hsucceeds] at hfails
    cases hfails
  | _ =>
    rw [hkind] at hop
    cases hop

/-- A move that is not a change of the limit keeps it. -/
theorem limited_move (h : Seen settings id m) (hm : setsLimit m=false) (hdb : LimitedBy id limit m.before) :
    LimitedBy id limit m.after := by
  intro q hq
  cases fate_of_seen h with
  | left h _ => exact hdb q (row_of_purged h hq)
  | admitted password s s' _ hrow hrow' _ _ hterms _ _ =>
    obtain rfl := Option.some.inj (hrow'.symm.trans hq)
    exact (congrArg Terms.maxAccessCount hterms).trans (hdb s hrow)
  | changed hop h =>
    obtain ⟨s,s',hrow,hrow',-,-,-,hmax⟩ := h.row
    obtain rfl := Option.some.inj (hrow'.symm.trans hq)
    obtain ⟨user,hkind⟩ := removes_of_setsTerms hop hm
    exact (hmax user hkind).trans (hdb s hrow)
  | gone _ h =>
    rw [h.row] at hq
    cases hq

theorem access_of_isCounted (h : isCounted atype m=true) : m.op.offered.isSome=true ∧ succeeds m=true := by
  unfold isCounted at h
  rw [Bool.and_eq_true] at h
  refine ⟨?_,h.2⟩
  have hcounts := h.1
  cases hop : m.op <;> rw [hop] at hcounts <;> first | rfl | cases hcounts

/-- A counted access uses up one of the accesses that are left. -/
theorem room_move (h : Seen settings id m) (hroomy : Roomy id m.before) (htyped : Typed id atype m.before)
    (hlimited : LimitedBy id limit m.before) (hm : setsLimit m=false) :
    (if isCounted atype m=true then 1 else 0)+room limit (row id m.after)≤room limit (row id m.before) := by
  cases fate_of_seen h with
  | left h hrefused =>
    have hnot : ¬isCounted atype m=true := by
      intro hcounted
      obtain ⟨hoffered,hsucceeds⟩ := access_of_isCounted hcounted
      rw [hrefused hoffered] at hsucceeds
      cases hsucceeds
    rw [if_neg hnot,Nat.zero_add]
    rcases h.row with hsame|⟨-,hnone⟩
    · exact Nat.le_of_eq (by rw [hsame])
    · rw [hnone]
      exact Nat.zero_le _
  | admitted password s s' _ hrow hrow' hbelow _ _ _ hcount =>
    obtain ⟨hs,hpositive⟩ := htyped s hrow
    have hlt := hbelow limit (hlimited s hrow)
    rw [hrow,hrow']
    unfold room
    dsimp only
    rcases hcount with hcounted|⟨hsame,hnot⟩
    · rw [hcounted,increment_eq hpositive (hroomy.lt hrow)]
      split_ifs <;> omega
    · rw [hs] at hnot
      rw [hsame,hnot]
      simp
  | changed hop h =>
    obtain ⟨s,s',hrow,hrow',-,hcount,-,-⟩ := h.row
    obtain ⟨user,hkind⟩ := removes_of_setsTerms hop hm
    have hnot : ¬isCounted atype m=true := by
      intro hcounted
      have hoffered := (access_of_isCounted hcounted).1
      rw [hkind] at hoffered
      cases hoffered
    rw [if_neg hnot,hrow,hrow']
    unfold room
    dsimp only
    rw [hcount]
    omega
  | gone hop h =>
    rw [h.row]
    have hnot : ¬isCounted atype m=true := by
      intro hcounted
      have hoffered := (access_of_isCounted hcounted).1
      unfold deletes at hop
      cases hkind : m.op <;> rw [hkind] at hop hoffered <;> first | cases hop | cases hoffered
    rw [if_neg hnot]
    exact Nat.zero_le _

/-- No more counted accesses than the row allows at the start. -/
theorem chain_counts (h : Chain (Seen settings id) db moves db') (hroomy : ∀ m∈moves,Roomy id m.before)
    (hm : ∀ m∈moves,setsLimit m=false) (htyped : Typed id atype db) (hlimited : LimitedBy id limit db) :
    moves.countP (isCounted atype)≤room limit (row id db) := by
  induction moves generalizing db with
  | nil => exact Nat.zero_le _
  | cons m moves ih =>
    obtain ⟨rfl,hseen,hrest⟩ := h
    have hfirst := hroomy m List.mem_cons_self
    have hkeeps := hm m List.mem_cons_self
    have hstep := room_move hseen hfirst htyped hlimited hkeeps
    have hlater := ih hrest (fun x hx => hroomy x (List.mem_cons_of_mem m hx))
      (fun x hx => hm x (List.mem_cons_of_mem m hx)) (typed_move hseen hfirst htyped)
      (limited_move hseen hkeeps hlimited)
    rw [List.countP_cons]
    omega

/-- A send that is gone stays so, and no access succeeds. -/
theorem chain_absent (h : Chain (Seen settings id) db moves db') (hdb : row id db=none) :
    ∀ m∈moves,m.op.offered.isSome=true → succeeds m=false := by
  induction moves generalizing db with
  | nil => exact fun m hm => absurd hm List.not_mem_nil
  | cons m moves ih =>
    obtain ⟨rfl,hseen,hrest⟩ := h
    have hmove : row id m.after=none ∧ (m.op.offered.isSome=true → succeeds m=false) := by
      cases fate_of_seen hseen with
      | left h hrefused =>
        refine ⟨?_,hrefused⟩
        rcases h.row with hsame|⟨-,hnone⟩
        · exact hsame.trans hdb
        · exact hnone
      | admitted password s s' _ hrow _ _ _ _ _ _ =>
        rw [hdb] at hrow
        cases hrow
      | changed _ h =>
        obtain ⟨s,s',hrow,-⟩ := h.row
        rw [hdb] at hrow
        cases hrow
      | gone hop h =>
        refine ⟨h.row,fun hoffered => ?_⟩
        unfold deletes at hop
        cases hkind : m.op <;> rw [hkind] at hop hoffered <;> first | cases hop | cases hoffered
    intro x hx
    rcases List.mem_cons.mp hx with rfl|hx
    · exact hmove.2
    · exact ih hrest hmove.1 x hx

/-- The row has these settings, unless it was purged after its end of life. -/
def Held (id : Uuid) (t : Terms) (db : Database) : Prop :=
  match row id db with
  | some s => terms s=t
  | none => t.deletionDate<db.now

theorem held_of_some {s : Send} (hrow : row id db=some s) (h : terms s=t) : Held id t db := by
  unfold Held
  rw [hrow]
  exact h

theorem Held.eq {s : Send} (h : Held id t db) (hrow : row id db=some s) : terms s=t := by
  unfold Held at h
  rw [hrow] at h
  exact h

/-- A purge after the end of life, or nothing. -/
theorem Held.purged (h : Held id t db) (hpurged : Purged id db db') : Held id t db' := by
  rcases hpurged.row with hsame|⟨⟨s,hrow,hlate⟩,hnone⟩
  · cases hrow : row id db with
    | some s =>
      exact held_of_some (hsame.trans hrow) (h.eq hrow)
    | none =>
      unfold Held at h ⊢
      rw [hrow] at h
      rw [hsame,hrow]
      exact Int.lt_of_lt_of_le h hpurged.clock
  · unfold Held
    rw [hnone]
    rw [← congrArg Terms.deletionDate (h.eq hrow)]
    exact hlate

/-- A move that is no change by the owner leaves the settings in force. -/
theorem held_move (h : Seen settings id m) (hdb : Held id t m.before) (hsets : setsTerms m=false)
    (hdeletes : deletes m=false) : InForce settings id t m := by
  cases fate_of_seen h with
  | left h hrefused =>
    refine ⟨hdb.purged h,fun password hoffered hsucceeds => ?_⟩
    rw [hrefused (by rw [hoffered]; rfl)] at hsucceeds
    cases hsucceeds
  | admitted password s s' hoffered hrow hrow' _ hpermits hterms _ _ =>
    have ht := hdb.eq hrow
    refine ⟨held_of_some hrow' (hterms.trans ht),fun p hp _ => ?_⟩
    rw [hoffered] at hp
    cases hp
    rwa [ht] at hpermits
  | changed hop _ =>
    rw [hsets] at hop
    cases hop
  | gone hop _ =>
    rw [hdeletes] at hop
    cases hop

/-- Settings stay in force until the owner changes them. -/
theorem chain_held (h : Chain (Seen settings id) db moves db') (hdb : Held id t db)
    (hm : ∀ m∈moves,setsTerms m=false ∧ deletes m=false) : ∀ m∈moves,InForce settings id t m := by
  induction moves generalizing db with
  | nil => exact fun m hm => absurd hm List.not_mem_nil
  | cons m moves ih =>
    obtain ⟨rfl,hseen,hrest⟩ := h
    obtain ⟨hsets,hdeletes⟩ := hm m List.mem_cons_self
    have hforce := held_move hseen hdb hsets hdeletes
    intro x hx
    rcases List.mem_cons.mp hx with rfl|hx
    · exact hforce
    · exact ih hrest hforce.row (fun y hy => hm y (List.mem_cons_of_mem m hy)) x hx

end Moves

section Runs

variable {settings : SendSettings} {id : Uuid} {atype : ℤ} {start : Database}
  {events : List (Event Operation Unit)}

theorem finished_clock {op : Operation} {r : Except String Unit} {db db' : Database}
    (h : Finished settings id op r db db') : db.now≤db'.now := by
  cases op <;> cases r <;> first | exact h.clock | exact h.elim Same.clock Admitted.clock

/-- A run in which no step stores the row while another request is in flight
is a chain of such moves. -/
theorem chain_seen (hrun : (server settings id).Admits (Orderly settings id) ⟨start,[]⟩ events) :
    Chain (Seen settings id) start (trace (server settings id) ⟨start,[]⟩ events)
      ((server settings id).run ⟨start,[]⟩ events).shared := by
  have hidle : Kept (server settings id) (fun _ => True) (Same id) (fun _ => Purged id)
      (Finished settings id) ⟨start,[]⟩ := Kept.idle trivial
  have hundisturbed : (server settings id).Admits (Undisturbed (server settings id) (SameRow id)) ⟨start,[]⟩ events :=
    hrun.mono fun _ _ h => h.1
  refine chain_of_run hidle ?_ ?_ ?_ ?_ ?_ hundisturbed
  · exact fun op db _ => (acts_body op).bears
  · exact fun db _ => Same.refl db
  · exact fun _ _ _ => Same.trans
  · exact fun _ _ _ _ _ _ => trivial
  · intro op p db db' _ hended hsame
    refine ⟨hsame,?_⟩
    rcases ended_cases hended with hpurged|⟨r,hfinished⟩
    · exact hpurged.clock
    · exact finished_clock hfinished

/-- Requests that do not store the row of the send while others are in flight
keep its limits: the number of accesses, the deletion and the settings. -/
theorem send_limits_exact (hstart : Typed id atype start)
    (hrun : (server settings id).Admits (Orderly settings id) ⟨start,[]⟩ events) :
    Exact settings id atype (trace (server settings id) ⟨start,[]⟩ events) := by
  have hchain := chain_seen hrun
  have hroomy : ∀ m∈trace (server settings id) ⟨start,[]⟩ events,Roomy id m.before :=
    before_of_admits (J:=Roomy id) (fun _ _ h => h.2) hrun
  refine ⟨?_,?_,?_⟩
  · intro earlier first between later limit hmoves hsets hlimit
    rw [hmoves] at hchain hroomy
    obtain ⟨_,hupto,-⟩ := hchain.split
    obtain ⟨db₁,hearlier,hbetween⟩ := hupto.split
    have htyped : Typed id atype db₁ := by
      refine hearlier.invariant (J:=Typed id atype) (fun m hm hseen hdb => ?_) hstart
      exact typed_move hseen (hroomy m (List.mem_append_left _ (List.mem_append_left _ hm))) hdb
    obtain ⟨s,hs,hmax⟩ := Option.bind_eq_some_iff.mp hlimit
    rw [hbetween.1] at hs
    have hlimited : LimitedBy id limit db₁ := fun q hq => by
      obtain rfl := Option.some.inj (hs.symm.trans hq)
      exact hmax
    have hroomy' : ∀ m∈first::between,Roomy id m.before := fun m hm =>
      hroomy m (List.mem_append_left later (List.mem_append_right earlier hm))
    have hcount := chain_counts hbetween hroomy' hsets htyped hlimited
    have hroom : room limit (row id db₁)≤limit.toNat := by
      rw [hs]
      unfold room
      dsimp only
      have hpositive := (htyped s hs).2
      omega
    exact hcount.trans hroom
  · intro earlier m later hmoves hdeletes
    rw [hmoves] at hchain
    obtain ⟨db₁,-,hrest⟩ := hchain.split
    obtain ⟨rfl,hseen,hlater⟩ := hrest
    exact chain_absent hlater (gone_of_deletes hseen hdeletes).row
  · intro earlier m between later hmoves hsets hbetween
    rw [hmoves] at hchain
    obtain ⟨_,hupto,-⟩ := hchain.split
    obtain ⟨db₁,-,hrest⟩ := hupto.split
    obtain ⟨rfl,hseen,hkeep⟩ := hrest
    obtain ⟨s,s',-,hrow,hasked,-⟩ := (changed_of_setsTerms hseen hsets).row
    exact ⟨s',hrow,hasked,chain_held hkeep (held_of_some hrow rfl) hbetween⟩

end Runs

section Samples

/-- A switch without policies. -/
def plainSettings : SendSettings := ⟨true,fun _ _ => false,fun _ _ => false,fun _ _ _ => [],true⟩

/-- A text that may be read once. -/
def onceReadable : Database := ⟨{Tables.none with
  users := [User.new 1 0 [] 600000 ['a'] none]
  sends := [⟨2,some 1,none,['n'],none,SendText,['t'],['k'],none,some 1,0,none,86400,false,none⟩]
  next := 3},by decide⟩

/-- An access goes on by a number of statements. -/
def goesOn (n statements : ℕ) : List (Event Operation Unit) := List.replicate statements (.resume n ⟨[],()⟩)

/-- Two accesses read the row before one of them saves. -/
def overlapping : List (Event Operation Unit) :=
  [Event.start (Operation.access none),.start (.access none)]++goesOn 0 1++goesOn 1 1++goesOn 0 1++goesOn 1 1

/-- The second access comes after the first one. -/
def consecutive : List (Event Operation Unit) :=
  .start (.access none)::goesOn 0 2++.start (.access none)::goesOn 1 2

/-- Both accesses succeed. -/
theorem limit_exceeded : ¬Exact plainSettings 2 SendText (trace (server plainSettings 2) ⟨onceReadable,[]⟩ overlapping) := by
  intro h
  have hone := h.limited [] ((trace (server plainSettings 2) ⟨onceReadable,[]⟩ overlapping).head (by decide))
    (trace (server plainSettings 2) ⟨onceReadable,[]⟩ overlapping).tail [] 1 (by simp) (by decide) (by decide)
  have htwo : ((trace (server plainSettings 2) ⟨onceReadable,[]⟩ overlapping).head (by decide)::
    (trace (server plainSettings 2) ⟨onceReadable,[]⟩ overlapping).tail).countP (isCounted SendText)=2 := by decide
  rw [htwo] at hone
  exact absurd hone (by decide)

/-- The second access is refused. -/
theorem limits_exact_consecutive :
    Exact plainSettings 2 SendText (trace (server plainSettings 2) ⟨onceReadable,[]⟩ consecutive) := by
  have hsame : ∀ db,SameRow 2 db db := fun _ => rfl
  have hundisturbed : (server plainSettings 2).Admits (Undisturbed (server plainSettings 2) (SameRow 2))
      ⟨onceReadable,[]⟩ consecutive :=
    undisturbed_of_sequential (n:=0) hsame (fun m t ht => by simp at ht) (by decide)
  have hroomy : (server plainSettings 2).Admits (fun P _ => Roomy 2 P.shared) ⟨onceReadable,[]⟩ consecutive :=
    ⟨rfl,rfl,rfl,rfl,rfl,rfl,trivial⟩
  refine send_limits_exact (fun s hs => ?_) (hundisturbed.and hroomy)
  obtain rfl := Option.some.inj hs
  decide

end Samples

end NadSafe.SendRuns
