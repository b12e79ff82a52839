import NadSafe.EmergencyHandlers
import NadSafe.GuardedScript
import NadSafe.TotpRuns

/-!
# Emergency access over whole runs

Overlapping requests of grantors and grantees, and the job. A history of one
record says whether its last recovery waits, is open because the grantor has
approved it or the waiting time has passed, or is closed. If no step changes
records while another request is in flight, then a grantee obtains something
only while the recovery is open. Otherwise the job may undo a rejection.
-/

namespace NadSafe.EmergencyRuns

open HostText TableRows AsyncScript AsyncScript.Script ScriptPool ServerTables StoreScript ServerModels
open OrgHandlers SecondFactors AccountHandlers EmergencyHandlers RelyScript TracedRuns ResponseScript
open GuardedScript
open CipherHandlers (headers Panic)

/-- What runs. -/
inductive Operation where
  /-- `get_contacts`. -/
  | getContacts (caller : Uuid)
  /-- `get_grantees`. -/
  | getGrantees (caller : Uuid)
  /-- `get_emergency_access`. -/
  | get (caller id : Uuid)
  /-- `post_emergency_access`. -/
  | post (caller id : Uuid) (data : EmergencyAccessUpdateData)
  /-- `delete_emergency_access`. -/
  | delete (caller id : Uuid)
  /-- `send_invite`. -/
  | sendInvite (out : Outside) (caller : Uuid) (email : Text) (type : NumberOrString) (waitTimeDays : ℤ)
  /-- `resend_invite`. -/
  | resendInvite (out : Outside) (caller id : Uuid)
  /-- `accept_invite`. -/
  | acceptInvite (out : Outside) (caller id : Uuid) (claims : EmergencyAccessInviteClaims)
  /-- `confirm_emergency_access`. -/
  | confirm (out : Outside) (caller id : Uuid) (key : Text)
  /-- `initiate_emergency_access`. -/
  | initiate (out : Outside) (caller id : Uuid)
  /-- `approve_emergency_access`. -/
  | approve (out : Outside) (caller id : Uuid)
  /-- `reject_emergency_access`. -/
  | reject (out : Outside) (caller id : Uuid)
  /-- `view_emergency_access`. -/
  | view (caller id : Uuid)
  /-- `takeover_emergency_access`. -/
  | takeover (caller id : Uuid)
  /-- `password_emergency_access`. -/
  | password (caller id : Uuid) (newMasterPasswordHash key : Text)
  /-- `policies_emergency_access`. -/
  | policies (caller id : Uuid)
  /-- `emergency_request_timeout_job`. -/
  | timeoutJob (out : Outside)
  /-- Time passes. -/
  | tick (seconds : ℕ)

/-- A handler without data. -/
def plain (p : Action Unit) : Action (Option Obtained) := do
  p
  pure none

/-- A handler with data. -/
def obtaining (p : Action Obtained) : Action (Option Obtained) := do
  let data ← p
  pure (some data)

/-- The handler of an operation. -/
def Operation.body (settings : AccountSettings) : Operation → Action (Option Obtained)
  | .getContacts caller => plain (EmergencyHandlers.getContacts settings caller)
  | .getGrantees caller => plain (EmergencyHandlers.getGrantees settings caller)
  | .get caller id => plain (getEmergencyAccess settings caller id)
  | .post caller id data => plain (postEmergencyAccess settings caller id data)
  | .delete caller id => plain (deleteEmergencyAccess settings caller id)
  | .sendInvite out caller email type days =>
    plain (EmergencyHandlers.sendInvite settings out caller email type days)
  | .resendInvite out caller id => plain (EmergencyHandlers.resendInvite settings out caller id)
  | .acceptInvite out caller id claims => plain (EmergencyHandlers.acceptInvite settings out caller id claims)
  | .confirm out caller id key => plain (confirmEmergencyAccess settings out caller id key)
  | .initiate out caller id => plain (initiateEmergencyAccess settings out caller id)
  | .approve out caller id => plain (approveEmergencyAccess settings out caller id)
  | .reject out caller id => plain (rejectEmergencyAccess settings out caller id)
  | .view caller id => obtaining (viewEmergencyAccess settings caller id)
  | .takeover caller id => obtaining (takeoverEmergencyAccess settings caller id)
  | .password caller id hash key => obtaining (passwordEmergencyAccess settings caller id hash key)
  | .policies caller id => plain (policiesEmergencyAccess caller id)
  | .timeoutJob out => plain (emergencyRequestTimeoutJob settings out)
  | .tick seconds => plain (SecondFactors.tick seconds)

/-- The server with these operations. -/
def server (settings : AccountSettings) : System (Statement Database) Statement.Answer Unit String
    (Except String (Option Obtained)) Database Operation :=
  ⟨exec,fun op => respond (op.body settings)⟩

/-- One move of these operations. -/
abbrev Step := Move String (Except String (Option Obtained)) Database Operation

/-- The records are as they were. -/
def SameRecords (db db' : Database) : Prop := db'.emergencyAccess=db.emergencyAccess

/-- The last recovery of a record. -/
inductive Phase where
  /-- There is none, or it was rejected or deleted. -/
  | closed
  /-- It waits since a time. -/
  | waiting (since : ℤ)
  /-- The grantor has approved it, or the waiting time has passed. -/
  | opened
  deriving DecidableEq

/-- The days of a record that waits since a time have passed. -/
def waitOver (id : Uuid) (since : ℤ) (db : Database) : Bool :=
  db.emergencyAccess.any fun e => e.uuid=id ∧ since+e.waitTimeDays*86400≤db.now

/-- The move has initiated a recovery. -/
def initiates (id : Uuid) (m : Step) : Bool :=
  match m.op with
  | .initiate _ _ id' => id'=id ∧ m.after.emergencyAccess≠m.before.emergencyAccess
  | _ => false

/-- The move has approved it for the grantor. -/
def approves (id : Uuid) (m : Step) : Bool :=
  match m.op with
  | .approve _ _ id' => id'=id ∧ m.after.emergencyAccess≠m.before.emergencyAccess
  | _ => false

/-- The response has succeeded. -/
def succeeds (m : Step) : Bool :=
  match response m with
  | some (.ok _) => true
  | _ => false

/-- A rejection or a deletion has returned success. -/
def ends (id : Uuid) (m : Step) : Bool :=
  match m.op with
  | .reject _ _ id' => id'=id ∧ succeeds m=true
  | .delete _ id' => id'=id ∧ succeeds m=true
  | _ => false

/-- The time that the last recovery of a record has noted as its beginning. -/
def startedAt (id : Uuid) (db : Database) : ℤ :=
  ((db.emergencyAccess.find? fun e => e.uuid=id).bind EmergencyAccess.recoveryInitiatedAt).getD db.now

/-- The phase after a move. -/
def Phase.next (id : Uuid) (phase : Phase) (m : Step) : Phase :=
  if initiates id m=true then .waiting (startedAt id m.after)
  else if ends id m=true then .closed
  else match phase with
    | .waiting since => if approves id m=true ∨ waitOver id since m.before=true then .opened else .waiting since
    | phase => phase

/-- The phase after a history. -/
def phaseOf (id : Uuid) (history : List Step) : Phase := history.foldl (Phase.next id) .closed

/-- The grantee has obtained something through the record: data, or an account
with a new password. -/
def gives (id : Uuid) (m : Step) : Bool :=
  match m.op with
  | .view _ id' => id'=id ∧ succeeds m=true
  | .takeover _ id' => id'=id ∧ succeeds m=true
  | .password _ id' _ _ => id'=id ∧ (succeeds m=true ∨ m.after.users≠m.before.users)
  | _ => false

/-- Whatever is given is given while the recovery is open. -/
def Consented (moves : List Step) : Prop :=
  ∀ history m later id,moves=history++m::later → gives id m=true → phaseOf id history=.opened

/-- A record that is not in recovery. -/
def Resting (e : EmergencyAccess) : Prop :=
  e.status≠EmergencyAccess.RecoveryInitiated ∧ e.status≠EmergencyAccess.RecoveryApproved

/-- Every record is at rest, or is an old one in the same recovery. -/
def Mild (db db' : Database) : Prop :=
  ∀ e∈db'.emergencyAccess,Resting e ∨ ∃ g∈db.emergencyAccess,g.uuid=e.uuid ∧ g.status=e.status ∧
    g.recoveryInitiatedAt=e.recoveryInitiatedAt

/-- A recovery of one record begins. -/
def Restarted (id : Uuid) (db db' : Database) : Prop :=
  ∀ e∈db'.emergencyAccess,e.uuid≠id ∧ e∈db.emergencyAccess ∨
    e.uuid=id ∧ e.status=EmergencyAccess.RecoveryInitiated ∧ e.recoveryInitiatedAt.isSome=true

/-- A waiting recovery of one record is approved. -/
def Opened (id : Uuid) (db db' : Database) : Prop :=
  ∀ e∈db'.emergencyAccess,e.uuid≠id ∧ e∈db.emergencyAccess ∨
    e.uuid=id ∧ e.status=EmergencyAccess.RecoveryApproved ∧
      ∃ g∈db.emergencyAccess,g.uuid=id ∧ g.status=EmergencyAccess.RecoveryInitiated

/-- Recoveries whose time has passed are approved. -/
def TimedOut (db db' : Database) : Prop :=
  ∀ e∈db'.emergencyAccess,e∈db.emergencyAccess ∨ e.status=EmergencyAccess.RecoveryApproved ∧
    ∃ g∈db.emergencyAccess,g.uuid=e.uuid ∧ g.status=EmergencyAccess.RecoveryInitiated ∧
    ∃ since,g.recoveryInitiatedAt=some since ∧ since+g.waitTimeDays*86400≤db.now

/-- What a segment does to records. -/
def Change : Operation → Database → Database → Prop
  | .initiate _ _ id,db,db' => SameRecords db db' ∨ Restarted id db db'
  | .approve _ _ id,db,db' => SameRecords db db' ∨ Opened id db db'
  | .timeoutJob _,db,db' => TimedOut db db'
  | _,db,db' => Mild db db'

/-- What others do while a request is in flight. -/
def Onward (db db' : Database) : Prop := SameRecords db db' ∧ db.now≤db'.now

/-- A record has been approved. -/
def Approved (id : Uuid) (db : Database) : Prop :=
  ∃ e∈db.emergencyAccess,e.uuid=id ∧ e.status=EmergencyAccess.RecoveryApproved

/-- A new password is set through an approved record. -/
def TakesOver : Operation → Database → Database → Prop
  | .password _ id _ _,db,db' => db'.users=db.users ∨ Approved id db'
  | _,_,_ => True

/-- What a segment does. -/
structure Effect (op : Operation) (db db' : Database) : Prop where
  /-- Records. -/
  change : Change op db db'
  /-- The clock goes on. -/
  clock : db.now≤db'.now
  /-- Accounts. -/
  takes : TakesOver op db db'

/-- A record is at rest, or there is none. -/
def Rests (id : Uuid) (db : Database) : Prop := ∀ e∈db.emergencyAccess,e.uuid=id → Resting e

/-- What a successful response shows. -/
def Outcome : Operation → Database → Database → Prop
  | .delete _ id,_,db' => Rests id db'
  | .reject _ _ id,_,db' => Rests id db'
  | .view _ id,_,db' => Approved id db'
  | .takeover _ id,_,db' => Approved id db'
  | .password _ id _ _,_,db' => Approved id db'
  | _,_,_ => True

/-- What a response shows. -/
def Answered {α : Type} (op : Operation) (r : Except String α) (db db' : Database) : Prop :=
  Effect op db db' ∧ ((∃ a,r=.ok a) → Outcome op db db')

/-- A handler of an operation, as long as the others leave the records. -/
abbrev Acts {α : Type} (op : Operation) (p : Action α) (db₀ db : Database) : Prop :=
  Responds exec Onward (Effect op) (Answered op) p db₀ db

section Rules

variable {α β : Type} {op : Operation} {db₀ db : Database} {settings : AccountSettings} {out : Outside}
  {caller id : Uuid}

theorem mild_of_same {db' : Database} (h : SameRecords db db') : Mild db db' := by
  intro e he
  rw [h] at he
  exact .inr ⟨e,he,rfl,rfl,rfl⟩

theorem Mild.trans {db' db'' : Database} (h : Mild db db') (h' : Mild db' db'') : Mild db db'' := by
  intro e he
  rcases h' e he with hrest|⟨g,hg,huuid,hstatus,hinitiated⟩
  · exact .inl hrest
  · rcases h g hg with hrest|⟨f,hf,huuid',hstatus',hinitiated'⟩
    · left
      unfold Resting at hrest ⊢
      rwa [← hstatus]
    · exact .inr ⟨f,hf,huuid'.trans huuid,hstatus'.trans hstatus,hinitiated'.trans hinitiated⟩

theorem change_of_same {db' : Database} (h : SameRecords db db') : Change op db db' := by
  cases op with
  | initiate out caller id => exact .inl h
  | approve out caller id => exact .inl h
  | timeoutJob out => exact fun e he => .inl (h ▸ he)
  | _ => exact mild_of_same h

theorem effect_refl : Effect op db db := by
  refine ⟨change_of_same rfl,Int.le_refl _,?_⟩
  cases op with
  | password caller id hash key => exact .inl rfl
  | _ => exact trivial

/-- A change of records is one whatever else changes. -/
theorem Change.same {db' db'' : Database} (h : Change op db db') (hs : SameRecords db' db'') :
    Change op db db'' := by
  cases op with
  | initiate out caller id =>
    refine h.imp (fun h => hs.trans h) fun h e he => ?_
    rw [hs] at he
    exact h e he
  | approve out caller id =>
    refine h.imp (fun h => hs.trans h) fun h e he => ?_
    rw [hs] at he
    exact h e he
  | timeoutJob out =>
    intro e he
    rw [hs] at he
    exact h e he
  | _ =>
    intro e he
    rw [hs] at he
    exact h e he

/-- An error shows nothing but the effect. -/
theorem answered_error {e : String} {db' : Database} (h : Effect op db db') :
    Answered op (.error e : Except String α) db db' :=
  ⟨h,fun ⟨_,he⟩ => by cases he⟩

theorem answered_refused {e : String} : Answered op (.error e : Except String α) db db :=
  answered_error effect_refl

theorem answered_ok {a : α} {db' : Database} (h : Effect op db db') (ho : Outcome op db db') :
    Answered op (.ok a : Except String α) db db' := ⟨h,fun _ => ho⟩

theorem acts_lookup {f : Tables → β} {g : β → Action α} (hs : Effect op db₀ db)
    (h : ∀ db',Onward db db' → Acts op (g (f db'.toTables)) db' db') :
    Acts op ((lookup f).bind g) db₀ db := Responds.query hs h

/-- A check. -/
theorem acts_ensure {message : String} {condition : Bool} {g : Unit → Action α} (hs : Effect op db₀ db)
    (h : condition=true → Acts op (g ()) db₀ db) : Acts op ((ensure message condition).bind g) db₀ db :=
  Responds.ensure h fun _ => answered_error hs

theorem acts_expect {message : String} {value : Option β} {g : β → Action α} (hs : Effect op db₀ db)
    (h : ∀ b,value=some b → Acts op (g b) db₀ db) : Acts op ((expect message value).bind g) db₀ db :=
  Responds.expect h fun _ => answered_error hs

/-- The guard of the caller. -/
theorem acts_headers {g : User → Action α} (hs : Effect op db₀ db)
    (h : ∀ db' u,SameRecords db db' → u.uuid=caller → Acts op (g u) db' db') :
    Acts op ((headers caller).bind g) db₀ db := by
  unfold CipherHandlers.headers User.findByUuid
  rw [bind_eq,Script.bind_assoc]
  refine acts_lookup hs fun db' hdb' => acts_expect effect_refl fun u hu => ?_
  have huuid := List.find?_some hu
  rw [decide_eq_true_eq] at huuid
  exact h db' u hdb'.1 huuid

/-- The record of a grantor. -/
theorem acts_recordOfGrantor {g : EmergencyAccess → Action α} (hs : Effect op db₀ db)
    (h : ∀ db' e,SameRecords db db' → e∈db'.emergencyAccess → e.uuid=id → Acts op (g e) db' db') :
    Acts op ((recordOfGrantor id caller).bind g) db₀ db := by
  unfold recordOfGrantor EmergencyAccess.findByUuidAndGrantorUuid
  rw [bind_eq,Script.bind_assoc]
  refine acts_lookup hs fun db' hdb' => acts_expect effect_refl fun e he => ?_
  have huuid := List.find?_some he
  rw [decide_eq_true_eq] at huuid
  exact h db' e hdb'.1 (List.mem_of_find?_eq_some he) huuid.1

/-- The record of a grantee. -/
theorem acts_recordOfGrantee {g : EmergencyAccess → Action α} (hs : Effect op db₀ db)
    (h : ∀ db' e,SameRecords db db' → e∈db'.emergencyAccess → e.uuid=id → Acts op (g e) db' db') :
    Acts op ((recordOfGrantee id caller).bind g) db₀ db := by
  unfold recordOfGrantee EmergencyAccess.findByUuidAndGranteeUuid
  rw [bind_eq,Script.bind_assoc]
  refine acts_lookup hs fun db' hdb' => acts_expect effect_refl fun e he => ?_
  have huuid := List.find?_some he
  rw [decide_eq_true_eq] at huuid
  exact h db' e hdb'.1 (List.mem_of_find?_eq_some he) huuid.1

/-- The account that a record names. -/
theorem acts_accountOf {message : String} {uuid : Option Uuid} {g : User → Action α} (hs : Effect op db₀ db)
    (h : ∀ db' u,SameRecords db db' → Acts op (g u) db' db') :
    Acts op ((accountOf message uuid).bind g) db₀ db := by
  unfold accountOf
  cases uuid with
  | none => exact answered_error hs
  | some uuid =>
    dsimp only
    unfold User.findByUuid
    rw [bind_eq,Script.bind_assoc]
    exact acts_lookup hs fun db' hdb' => acts_expect effect_refl fun u _ => h db' u hdb'.1

/-- A save of a record. -/
theorem acts_save {e : EmergencyAccess} {g : Unit → Action α} (hs : Effect op db₀ db)
    (h : ∀ db' db'' : Database,SameRecords db db' →
      db''.emergencyAccess=put ServerTables.EmergencyAccess.uuid e db'.emergencyAccess →
        db'.now≤db''.now → Acts op (g ()) db' db'') :
    Acts op ((EmergencyAccess.save e).bind g) db₀ db := by
  refine Responds.execute hs (fun db' db'' hdb' hc => ?_) fun db' _ _ => answered_refused
  have heq := commit_eq hc
  exact h db' db'' hdb'.1 (by rw [heq]) (Int.le_of_eq (by rw [heq]))

/-- The mail at the end. -/
theorem acts_mailTo {address : Text} (hs : Effect op db₀ db) (ho : Outcome op db₀ db) :
    Acts op (mailTo settings out address) db₀ db := by
  unfold mailTo
  split
  · exact Responds.ensure_done (fun _ => answered_ok hs ho) fun _ => answered_error hs
  · exact answered_ok hs ho

/-- A handler without data. -/
theorem acts_plain {p : Action Unit} (h : Acts op p db₀ db) : Acts op (plain p) db₀ db :=
  Responds.bind h (fun _ _ _ ha => answered_ok ha.1 (ha.2 ⟨_,rfl⟩)) fun _ _ _ ha => answered_error ha.1

/-- A handler with data. -/
theorem acts_obtaining {p : Action Obtained} (h : Acts op p db₀ db) : Acts op (obtaining p) db₀ db :=
  Responds.bind h (fun _ _ _ ha => answered_ok ha.1 (ha.2 ⟨_,rfl⟩)) fun _ _ _ ha => answered_error ha.1

end Rules

section Parties

variable {settings : AccountSettings} {out : Outside} {caller id : Uuid} {db db' db'' : Database}
  {e : EmergencyAccess}

/-- A record is saved that is at rest. -/
theorem mild_of_rest (h : db'.emergencyAccess=put ServerTables.EmergencyAccess.uuid e db.emergencyAccess)
    (he : Resting e) : Mild db db' := by
  intro q hq
  rw [h] at hq
  rcases mem_put.mp hq with rfl|⟨hq,-⟩
  · exact .inl he
  · exact .inr ⟨q,hq,rfl,rfl,rfl⟩

/-- A record is saved with another type or waiting time. -/
theorem acts_post {data : EmergencyAccessUpdateData} :
    Acts (.post caller id data) (postEmergencyAccess settings caller id data) db db := by
  unfold postEmergencyAccess
  refine acts_headers effect_refl fun db₁ user _ _ => ?_
  refine acts_ensure effect_refl fun _ => ?_
  refine acts_recordOfGrantor effect_refl fun db₂ e _ he huuid => ?_
  refine acts_expect effect_refl fun type _ => ?_
  refine Responds.execute_done effect_refl (fun db₃ db₄ hsame hc => ?_) fun _ _ _ => answered_refused
  refine answered_ok ⟨fun q hq => ?_,Int.le_of_eq (by rw [commit_eq hc]),trivial⟩ trivial
  rw [commit_eq hc] at hq
  rcases mem_put.mp hq with rfl|⟨hq,-⟩
  · exact .inr ⟨e,hsame.1 ▸ he,rfl,rfl,rfl⟩
  · exact .inr ⟨q,hq,rfl,rfl,rfl⟩

/-- A record is deleted by one of its parties. -/
theorem acts_delete : Acts (.delete caller id) (deleteEmergencyAccess settings caller id) db db := by
  unfold deleteEmergencyAccess
  refine acts_headers effect_refl fun db₁ user _ _ => ?_
  refine acts_ensure effect_refl fun _ => ?_
  refine acts_lookup effect_refl fun db₂ _ => ?_
  refine acts_lookup effect_refl fun db₃ _ => ?_
  refine acts_expect effect_refl fun e he => ?_
  have huuid : e.uuid=id := by
    unfold deletable at he
    split at he
    · rename_i g hg _
      cases he
      have hfound := List.find?_some hg
      rw [decide_eq_true_eq] at hfound
      exact hfound.1
    · rename_i g _ hg
      cases he
      have hfound := List.find?_some hg
      rw [decide_eq_true_eq] at hfound
      exact hfound.1
    · cases he
  refine Responds.execute_done effect_refl (fun db₃ db₄ hsame hc => ?_) fun _ _ _ => answered_refused
  have hrows : ∀ q∈db₄.emergencyAccess,q∈db₃.emergencyAccess ∧ q.uuid≠e.uuid := by
    intro q hq
    rw [commit_eq hc] at hq
    obtain ⟨hq,hne⟩ := List.mem_filter.mp hq
    rw [decide_eq_true_eq] at hne
    exact ⟨hq,hne⟩
  have hclock : db₃.now≤db₄.now := Int.le_of_eq (by rw [commit_eq hc])
  refine answered_ok ⟨fun q hq => .inr ⟨q,(hrows q hq).1,rfl,rfl,rfl⟩,hclock,trivial⟩ fun q hq hid => ?_
  exact absurd (hid.trans huuid.symm) (hrows q hq).2

/-- A recovery begins. -/
theorem acts_initiate : Acts (.initiate out caller id) (initiateEmergencyAccess settings out caller id) db db := by
  unfold initiateEmergencyAccess
  refine acts_headers effect_refl fun db₁ user _ _ => ?_
  refine acts_ensure effect_refl fun _ => ?_
  refine acts_recordOfGrantee effect_refl fun db₂ e _ he huuid => ?_
  refine acts_ensure effect_refl fun _ => ?_
  refine acts_accountOf effect_refl fun db₃ grantor hsame => ?_
  refine acts_save effect_refl fun db₄ db₅ hsame' hrows hclock => ?_
  have heffect : Restarted id db₄ db₅ := by
    intro q hq
    rw [hrows] at hq
    rcases mem_put.mp hq with rfl|⟨hq,hne⟩
    · exact .inr ⟨huuid,rfl,rfl⟩
    · exact .inl ⟨fun hid => hne (hid.trans huuid.symm),hq⟩
  exact acts_mailTo ⟨.inr heffect,hclock,trivial⟩ trivial

/-- A waiting recovery is approved by the grantor. -/
theorem acts_approve : Acts (.approve out caller id) (approveEmergencyAccess settings out caller id) db db := by
  unfold approveEmergencyAccess
  refine acts_headers effect_refl fun db₁ user _ _ => ?_
  refine acts_ensure effect_refl fun _ => ?_
  refine acts_recordOfGrantor effect_refl fun db₂ e _ he huuid => ?_
  refine acts_ensure effect_refl fun hstatus => ?_
  rw [decide_eq_true_eq] at hstatus
  refine acts_accountOf effect_refl fun db₃ grantor hsame => ?_
  refine acts_accountOf effect_refl fun db₄ grantee hsame' => ?_
  refine acts_save effect_refl fun db₅ db₆ hsame'' hrows hclock => ?_
  have hold : e∈db₅.emergencyAccess := by
    rw [hsame'',hsame',hsame]
    exact he
  have heffect : Opened id db₅ db₆ := by
    intro q hq
    rw [hrows] at hq
    rcases mem_put.mp hq with rfl|⟨hq,hne⟩
    · exact .inr ⟨huuid,rfl,e,hold,huuid,hstatus⟩
    · exact .inl ⟨fun hid => hne (hid.trans huuid.symm),hq⟩
  exact acts_mailTo ⟨.inr heffect,hclock,trivial⟩ trivial

/-- A recovery is rejected. -/
theorem acts_reject : Acts (.reject out caller id) (rejectEmergencyAccess settings out caller id) db db := by
  unfold rejectEmergencyAccess
  refine acts_headers effect_refl fun db₁ user _ _ => ?_
  refine acts_ensure effect_refl fun _ => ?_
  refine acts_recordOfGrantor effect_refl fun db₂ e _ he huuid => ?_
  refine acts_ensure effect_refl fun hstatus => ?_
  refine acts_accountOf effect_refl fun db₃ grantee _ => ?_
  refine acts_save effect_refl fun db₄ db₅ _ hrows hclock => ?_
  have hrest : Resting {e with status := ServerTables.EmergencyAccess.Confirmed} := by
    constructor <;> (show ServerTables.EmergencyAccess.Confirmed≠_; decide)
  have hmild : Mild db₄ db₅ := mild_of_rest hrows hrest
  refine acts_mailTo ⟨hmild,hclock,trivial⟩ fun q hq hid => ?_
  rw [hrows] at hq
  rcases mem_put.mp hq with rfl|⟨-,hne⟩
  · exact hrest
  · exact absurd (hid.trans huuid.symm) hne

/-- The record of a request that has been approved. -/
theorem acts_approvedRecord {α : Type} {op : Operation} {type : ℤ} {g : EmergencyAccess → Action α}
    (h : ∀ db' e,Approved id db' → Acts op (g e) db' db') :
    Acts op ((approvedRecord settings caller id type).bind g) db db := by
  unfold approvedRecord
  simp only [bind_eq,Script.bind_assoc]
  refine acts_headers effect_refl fun db₁ user _ _ => ?_
  refine acts_ensure effect_refl fun _ => ?_
  refine acts_recordOfGrantee effect_refl fun db₂ e _ he huuid => ?_
  refine acts_ensure effect_refl fun hvalid => ?_
  unfold isValidRequest at hvalid
  rw [decide_eq_true_eq] at hvalid
  exact h db₂ e ⟨e,he,huuid,hvalid.2.1⟩

end Parties

section Others

variable {settings : AccountSettings} {out : Outside} {caller id : Uuid} {db db' : Database}
  {e : EmergencyAccess}

/-- Records and clock. -/
def records (db : Database) : List EmergencyAccess×ℤ := (db.emergencyAccess,db.now)

/-- Mild changes while the clock goes on. -/
def Gentle (db db' : Database) : Prop := Mild db db' ∧ db.now≤db'.now

theorem gentle_refl (db : Database) : Gentle db db := ⟨mild_of_same rfl,Int.le_refl _⟩

theorem gentle_trans (a b c : Database) (h : Gentle a b) (h' : Gentle b c) : Gentle a c :=
  ⟨h.1.trans h'.1,Int.le_trans h.2 h'.2⟩

theorem onward_of_records (h : records db'=records db) : Onward db db' := by
  unfold records at h
  rw [Prod.mk.injEq] at h
  exact ⟨h.1,Int.le_of_eq (by rw [h.2])⟩

/-- A part of a handler that leaves records alone. -/
theorem guards_frames {α : Type} {p : Action α} (h : Frames exec records p) : Guards exec Gentle p := by
  refine guards_of_frames (fun db db' hsame => ?_) h
  exact ⟨mild_of_same (onward_of_records hsame).1,(onward_of_records hsame).2⟩

theorem frames_other {message : String} {f : Tables → Tables}
    (h : ∀ t,(f t).emergencyAccess=t.emergencyAccess ∧ (f t).now=t.now) :
    Frames exec records (update message f) :=
  frames_update fun db db' heq => by
    unfold records
    rw [heq,(h _).1,(h _).2]

theorem frames_draw : Frames exec records getUuid := frames_getUuid fun _ => rfl

theorem frames_headers : Frames exec records (headers caller) :=
  Frames.bind (frames_lookup _) fun _ => Frames.expect _ _

theorem frames_recordOfGrantor : Frames exec records (recordOfGrantor id caller) :=
  Frames.bind (frames_lookup _) fun _ => Frames.expect _ _

theorem frames_recordOfGrantee : Frames exec records (recordOfGrantee id caller) :=
  Frames.bind (frames_lookup _) fun _ => Frames.expect _ _

theorem frames_accountOf {message : String} {uuid : Option Uuid} :
    Frames exec records (accountOf message uuid) := by
  cases uuid with
  | none => exact Frames.throw _
  | some uuid => exact Frames.bind (frames_lookup _) fun _ => Frames.expect _ _

theorem frames_mailTo {address : Text} : Frames exec records (mailTo settings out address) :=
  Frames.ite (fun _ => Frames.ensure _ _) fun _ => Frames.pure _

theorem frames_invitation {settings : Settings} {email : Text} :
    Frames exec records (Invitation.save settings email) :=
  Frames.ite (fun _ => frames_other fun _ => ⟨rfl,rfl⟩) fun _ => Frames.throw _

theorem frames_takeInvitation {settings : Settings} {email : Text} :
    Frames exec records (Invitation.take settings email) :=
  Frames.bind (frames_lookup _) fun _ => Frames.ite
    (fun _ => Frames.ok (frames_other fun _ => ⟨rfl,rfl⟩)) fun _ => Frames.pure _

theorem frames_saveUser {settings : Settings} {u : User} : Frames exec records (User.save settings u) :=
  Frames.ite (fun _ => frames_other fun _ => ⟨rfl,rfl⟩) fun _ => Frames.throw _

theorem frames_invitedGrantee {email : Text} : Frames exec records (invitedGrantee settings out email) := by
  refine Frames.bind (frames_lookup _) fun found => ?_
  cases found with
  | some user => exact Frames.pure _
  | none =>
    refine Frames.bind (Frames.ensure _ _) fun _ => Frames.bind (Frames.ensure _ _) fun _ => ?_
    refine Frames.bind (Frames.ite (fun _ => Frames.pure _) fun _ => frames_invitation) fun _ => ?_
    refine Frames.bind frames_draw fun _ => Frames.bind frames_draw fun _ => ?_
    exact Frames.bind frames_saveUser fun _ => Frames.pure _

/-- A record is saved at rest. -/
theorem guards_save (he : Resting e) : Guards exec Gentle (EmergencyAccess.save e) := by
  refine Guards.execute gentle_refl fun db db' hc => ?_
  exact ⟨mild_of_rest (by rw [commit_eq hc]) he,Int.le_of_eq (by rw [commit_eq hc])⟩

theorem guards_acceptInvite {grantee : Uuid} {email : Text} :
    Guards exec Gentle (EmergencyAccess.acceptInvite e grantee email) := by
  refine Guards.bind (Guards.ensure _ _) fun _ => Guards.bind (Guards.ensure _ _) fun _ => guards_save ?_
  constructor <;> (show EmergencyAccess.Accepted≠_; decide)

/-- A record is deleted. -/
theorem guards_deleteRecord : Guards exec Gentle (ServerModels.EmergencyAccess.delete e) := by
  refine Guards.execute gentle_refl fun db db' hc => ?_
  refine ⟨fun q hq => ?_,Int.le_of_eq (by rw [commit_eq hc])⟩
  rw [commit_eq hc] at hq
  exact .inr ⟨q,(List.mem_filter.mp hq).1,rfl,rfl,rfl⟩

theorem guards_granteeDetails : Guards exec Gentle (EmergencyAccess.toJsonGranteeDetails settings e) := by
  unfold EmergencyAccess.toJsonGranteeDetails
  split
  · exact guards_frames (Frames.bind frames_accountOf fun _ => Frames.pure _)
  · refine Guards.bind (Guards.query gentle_refl _) fun found => ?_
    cases found with
    | some user => exact Guards.pure _
    | none =>
      refine Guards.bind (Guards.ok (Guards.bind (Guards.query gentle_refl _) fun _ => ?_)) fun _ => Guards.pure _
      exact Guards.each fun _ _ => guards_deleteRecord
  · exact Guards.pure _

theorem guards_getContacts : Guards exec Gentle (getContacts settings caller) :=
  Guards.bind (guards_frames frames_headers) fun _ => Guards.bind (Guards.query gentle_refl _) fun _ =>
    Guards.each fun _ _ => Guards.bind guards_granteeDetails fun _ => Guards.pure _

theorem guards_getGrantees : Guards exec Gentle (getGrantees settings caller) :=
  guards_frames (Frames.bind frames_headers fun _ => Frames.bind (frames_lookup _) fun _ =>
    Frames.each fun _ _ => Frames.bind frames_accountOf fun _ => Frames.pure _)

theorem guards_get : Guards exec Gentle (getEmergencyAccess settings caller id) :=
  Guards.bind (guards_frames frames_headers) fun _ => Guards.bind (Guards.ensure _ _) fun _ =>
    Guards.bind (guards_frames frames_recordOfGrantor) fun _ => Guards.bind guards_granteeDetails fun _ =>
      Guards.ensure _ _

theorem guards_sendInvite {email : Text} {type : NumberOrString} {days : ℤ} :
    Guards exec Gentle (EmergencyHandlers.sendInvite settings out caller email type days) := by
  refine Guards.bind (guards_frames frames_headers) fun grantor => Guards.bind (Guards.ensure _ _) fun _ => ?_
  refine Guards.bind (Guards.expect _ _) fun atype => Guards.bind (Guards.ensure _ _) fun _ => ?_
  refine Guards.bind (guards_frames frames_invitedGrantee) fun (grantee,newUser) => ?_
  refine Guards.bind (Guards.query gentle_refl _) fun _ => Guards.bind (Guards.ensure _ _) fun _ => ?_
  refine Guards.bind (guards_frames frames_draw) fun uuid => ?_
  refine Guards.bind (guards_save ?_) fun _ => ?_
  · constructor <;> (show EmergencyAccess.Invited≠_; decide)
  · refine Guards.ite (fun _ => Guards.ensure _ _) fun _ => ?_
    exact Guards.ite (fun _ => guards_acceptInvite) fun _ => Guards.pure _

theorem guards_resendInvite : Guards exec Gentle (EmergencyHandlers.resendInvite settings out caller id) := by
  refine Guards.bind (guards_frames frames_headers) fun grantor => Guards.bind (Guards.ensure _ _) fun _ => ?_
  refine Guards.bind (guards_frames frames_recordOfGrantor) fun e => Guards.bind (Guards.ensure _ _) fun _ => ?_
  refine Guards.bind (Guards.expect _ _) fun email => Guards.bind (Guards.query gentle_refl _) fun found => ?_
  refine Guards.bind (Guards.expect _ _) fun grantee => ?_
  refine Guards.ite (fun _ => Guards.ensure _ _) fun _ => Guards.ite (fun _ => guards_acceptInvite) fun _ => ?_
  refine Guards.ite (fun _ => guards_frames (Frames.bind (frames_lookup _) fun _ => ?_)) fun _ => Guards.pure _
  exact Frames.ite (fun _ => Frames.pure _) fun _ => frames_invitation

theorem guards_accept {claims : EmergencyAccessInviteClaims} :
    Guards exec Gentle (EmergencyHandlers.acceptInvite settings out caller id claims) := by
  refine Guards.bind (guards_frames frames_headers) fun user => Guards.bind (Guards.ensure _ _) fun _ => ?_
  refine Guards.bind (Guards.ensure _ _) fun _ => Guards.bind (Guards.query gentle_refl _) fun found => ?_
  refine Guards.bind (Guards.expect _ _) fun grantee => Guards.bind (guards_frames frames_takeInvitation) fun _ => ?_
  refine Guards.bind (Guards.query gentle_refl _) fun found => Guards.bind (Guards.expect _ _) fun e => ?_
  refine Guards.bind (guards_frames frames_accountOf) fun grantor => Guards.bind (Guards.ensure _ _) fun _ => ?_
  exact Guards.bind guards_acceptInvite fun _ => guards_frames frames_mailTo

theorem guards_confirm {key : Text} :
    Guards exec Gentle (confirmEmergencyAccess settings out caller id key) := by
  refine Guards.bind (guards_frames frames_headers) fun user => Guards.bind (Guards.ensure _ _) fun _ => ?_
  refine Guards.bind (guards_frames frames_recordOfGrantor) fun e => Guards.bind (Guards.ensure _ _) fun _ => ?_
  refine Guards.bind (guards_frames frames_accountOf) fun _ => Guards.bind (guards_frames frames_accountOf) fun _ => ?_
  refine Guards.bind (guards_save ?_) fun _ => guards_frames frames_mailTo
  constructor <;> (show ServerTables.EmergencyAccess.Confirmed≠_; decide)

theorem guards_policies : Guards exec Gentle (policiesEmergencyAccess caller id) :=
  guards_frames (Frames.bind frames_headers fun _ => Frames.bind frames_recordOfGrantee fun _ =>
    Frames.bind (Frames.ensure _ _) fun _ => Frames.bind frames_accountOf fun _ => Frames.pure _)

theorem guards_tick {seconds : ℕ} : Guards exec Gentle (SecondFactors.tick seconds) := by
  refine Guards.execute gentle_refl fun db db' hc => ?_
  refine ⟨mild_of_same (by unfold SameRecords; rw [commit_eq hc]),?_⟩
  rw [commit_eq hc]
  show db.now≤db.now+seconds
  omega

/-- A handler that changes records mildly. -/
theorem acts_gentle {op : Operation} {p : Action Unit} (hp : Guards exec Gentle p)
    (hop : ∀ db db',Effect op db db' ↔ Gentle db db') (ho : ∀ db db',Outcome op db db') : Acts op p db db := by
  have heffect : Effect op=Gentle := funext fun db => funext fun db' => propext (hop db db')
  have hresponds := hp.responds (R:=Onward) gentle_refl gentle_trans (gentle_refl db)
  unfold Acts
  rw [heffect]
  exact hresponds.mono fun r db₀ db' h => ⟨(hop db₀ db').mpr h,fun _ => ho db₀ db'⟩

/-- Where records change mildly and no password is set, this is the effect. -/
theorem gentle_effect {op : Operation} (hchange : Change op=Mild) (htakes : TakesOver op=fun _ _ => True)
    (db db' : Database) : Effect op db db' ↔ Gentle db db' := by
  constructor
  · intro h
    exact ⟨hchange ▸ h.change,h.clock⟩
  · intro h
    exact ⟨hchange ▸ h.1,h.2,htakes ▸ trivial⟩

/-- A new password leaves records alone. -/
theorem frames_setPassword {settings : FactorSettings} {u : User} {password : Text} {newKey : Option Text}
    {reset : Bool} {routes : Option (List Text)} :
    Frames exec records (User.setPassword settings u password newKey reset routes) := by
  refine Frames.bind frames_utcNow fun now => Frames.ite (fun _ => ?_) fun _ => Frames.pure _
  refine Frames.bind frames_draw fun stamp => Frames.bind ?_ fun _ => Frames.pure _
  refine Frames.bind (frames_lookup _) fun devices => Frames.each fun d _ => ?_
  exact Frames.bind frames_draw fun token => frames_other fun _ => ⟨rfl,rfl⟩

theorem frames_deleteMember {m : Membership} : Frames exec records (Membership.delete m) := by
  refine Frames.bind (Frames.bind (frames_lookup _) fun _ => frames_other fun _ => ⟨rfl,rfl⟩) fun _ => ?_
  exact Frames.bind (frames_other fun _ => ⟨rfl,rfl⟩) fun _ => frames_other fun _ => ⟨rfl,rfl⟩

/-- What follows the check of an approval. -/
theorem acts_approved (id : Uuid) {op : Operation} {p : Action Obtained} (hp : Frames exec records p)
    (hop : ∀ db db',Approved id db' → Outcome op db db') (htakes : ∀ db db',Approved id db' → TakesOver op db db')
    (hdb : Approved id db) : Acts op p db db := by
  have hstable : ∀ a b,SameRecords a b → Approved id a → Approved id b := by
    intro a b hab ha
    unfold Approved
    rw [hab]
    exact ha
  have hframes : Responds exec Onward (Effect op) (fun _ db₀ db => Approved id db ∧ Effect op db₀ db) p db db := by
    refine Responds.frames (fun a b c hab hbc hc => ?_) (fun _ _ => effect_refl) (fun a b hab => hstable a b hab.1)
      (fun a b hab => hstable a b (onward_of_records hab).1) hp hdb effect_refl
    have honward := onward_of_records hbc
    exact ⟨hab.change.same honward.1,Int.le_trans hab.clock honward.2,htakes a c hc⟩
  exact hframes.mono fun r db₀ db' h => ⟨h.2,fun _ => hop db₀ db' h.1⟩

theorem acts_view : Acts (.view caller id) (viewEmergencyAccess settings caller id) db db := by
  refine acts_approvedRecord fun db' e hdb' => acts_approved id ?_ (fun _ _ h => h) (fun _ _ _ => trivial) hdb'
  exact Frames.bind (frames_lookup _) fun ciphers => Frames.bind
    (Frames.each fun c _ => Frames.ensure _ _) fun _ => Frames.pure _

theorem acts_takeover : Acts (.takeover caller id) (takeoverEmergencyAccess settings caller id) db db := by
  refine acts_approvedRecord fun db' e hdb' => acts_approved id ?_ (fun _ _ h => h) (fun _ _ _ => trivial) hdb'
  exact Frames.bind frames_accountOf fun grantor => Frames.pure _

theorem acts_password {hash key : Text} :
    Acts (.password caller id hash key) (passwordEmergencyAccess settings caller id hash key) db db := by
  refine acts_approvedRecord fun db' e hdb' => acts_approved id ?_ (fun _ _ h => h) (fun _ _ h => .inr h) hdb'
  refine Frames.bind frames_accountOf fun grantor => Frames.bind frames_setPassword fun grantor => ?_
  refine Frames.bind frames_saveUser fun _ => Frames.bind (frames_other fun _ => ⟨rfl,rfl⟩) fun _ => ?_
  refine Frames.bind (frames_lookup _) fun members => Frames.bind (Frames.each fun m _ => ?_) fun _ => Frames.pure _
  exact Frames.ite (fun _ => frames_deleteMember) fun _ => Frames.pure _

/-- What the job knows of the records that are left: they are waiting, and it
has read the clock. -/
structure Listed (now : ℤ) (list : List EmergencyAccess) (db : Database) : Prop where
  /-- They are there. -/
  rows : ∀ e∈list,e∈db.emergencyAccess ∧ e.status=EmergencyAccess.RecoveryInitiated
  /-- No record is listed twice. -/
  nodup : (list.map ServerTables.EmergencyAccess.uuid).Nodup
  /-- The clock goes on. -/
  clock : now≤db.now

theorem Listed.onward {now : ℤ} {list : List EmergencyAccess} (h : Listed now list db) (hs : Onward db db') :
    Listed now list db' := by
  refine ⟨fun e he => ?_,h.nodup,Int.le_trans h.clock hs.2⟩
  rw [hs.1]
  exact h.rows e he

/-- One record is approved, and the others are as they were. -/
theorem Listed.approve {now : ℤ} {list : List EmergencyAccess} (h : Listed now (e::list) db)
    (hdb : db'.toTables={db.toTables with emergencyAccess := db.emergencyAccess.map fun q =>
      if q.uuid=e.uuid then {q with status := EmergencyAccess.RecoveryApproved} else q}) :
    Listed now list db' := by
  have hlist := h.nodup
  rw [List.map_cons,List.nodup_cons] at hlist
  obtain ⟨hfresh,hnodup⟩ := hlist
  refine ⟨fun q hq => ?_,hnodup,by rw [hdb]; exact h.clock⟩
  obtain ⟨hmem,hstatus⟩ := h.rows q (List.mem_cons_of_mem e hq)
  refine ⟨?_,hstatus⟩
  have hne : q.uuid≠e.uuid := fun heq => hfresh (heq ▸ List.mem_map_of_mem hq)
  rw [hdb]
  exact List.mem_map.mpr ⟨q,hmem,if_neg hne⟩

theorem timedOut_approve {since : ℤ} (he : e∈db.emergencyAccess)
    (hstatus : e.status=EmergencyAccess.RecoveryInitiated) (hsince : e.recoveryInitiatedAt=some since)
    (hover : since+e.waitTimeDays*86400≤db.now)
    (hdb : db'.toTables={db.toTables with emergencyAccess := db.emergencyAccess.map fun q =>
      if q.uuid=e.uuid then {q with status := EmergencyAccess.RecoveryApproved} else q}) : TimedOut db db' := by
  intro q hq
  rw [hdb] at hq
  obtain ⟨g,hg,rfl⟩ := List.mem_map.mp hq
  by_cases heq : g.uuid=e.uuid
  · have hsame := eq_of_key db.emergency_nodup hg he heq
    subst hsame
    rw [if_pos rfl]
    exact .inr ⟨rfl,g,hg,rfl,hstatus,since,hsince,hover⟩
  · rw [if_neg heq]
    exact .inl hg

/-- After one record of the job: the others are still listed. -/
abbrev Handled (out : Outside) (now : ℤ) (list : List EmergencyAccess) (r : Except String Unit)
    (db₀ db : Database) : Prop :=
  (r=.ok () → Listed now list db ∧ Effect (.timeoutJob out) db₀ db) ∧
    ∀ message,r=.error message → Answered (.timeoutJob out) (.error message : Except String Unit) db₀ db

theorem handled_error {now : ℤ} {list : List EmergencyAccess} {message : String}
    (h : Effect (.timeoutJob out) db db') : Handled out now list (.error message) db db' :=
  ⟨(fun h => by cases h),fun _ _ => answered_error h⟩

theorem handled_ok {now : ℤ} {list : List EmergencyAccess} (h : Effect (.timeoutJob out) db db')
    (hlist : Listed now list db') : Handled out now list (.ok ()) db db' :=
  ⟨fun _ => ⟨hlist,h⟩,fun _ h => by cases h⟩

theorem responds_approveTimedOut {now : ℤ} {list : List EmergencyAccess} {db₀ : Database}
    (h : Listed now (e::list) db) (hs : Effect (.timeoutJob out) db₀ db) :
    Responds exec Onward (Effect (.timeoutJob out)) (Handled out now list) (approveTimedOut settings out now e)
      db₀ db := by
  have hrest : Listed now list db :=
    ⟨fun q hq => h.rows q (List.mem_cons_of_mem e hq),(List.nodup_cons.mp h.nodup).2,h.clock⟩
  unfold approveTimedOut
  refine Responds.expect (fun since hsince => ?_) fun _ => handled_error hs
  refine Responds.ensure (fun _ => ?_) fun _ => handled_error hs
  split
  case isFalse => exact handled_ok hs hrest
  rename_i hover
  refine Responds.ensure (fun _ => ?_) fun _ => handled_error hs
  refine Responds.execute hs (fun db₁ db₂ hon hc => ?_) fun db₁ _ _ => handled_error effect_refl
  have heq := commit_eq hc
  have hlisted := h.onward hon
  obtain ⟨he,hstatus⟩ := hlisted.rows e List.mem_cons_self
  have heffect : Effect (.timeoutJob out) db₁ db₂ :=
    ⟨timedOut_approve he hstatus hsince (Int.le_trans hover hlisted.clock) heq,Int.le_of_eq (by rw [heq]),
      trivial⟩
  have hleft : Listed now list db₂ := hlisted.approve heq
  split
  case isFalse => exact handled_ok heffect hleft
  -- Mails: the accounts are read, and the others may go on.
  unfold accountOf User.findByUuid
  simp only [bind_eq,Script.bind_assoc]
  refine Responds.query heffect fun db₃ hon₃ => ?_
  have hleft₃ := hleft.onward hon₃
  refine Responds.expect (fun grantor _ => ?_) fun _ => handled_error effect_refl
  cases e.granteeUuid with
  | none => exact handled_error effect_refl
  | some grantee =>
    dsimp only
    rw [bind_assoc]
    refine Responds.query effect_refl fun db₄ hon₄ => ?_
    have hleft₄ := hleft₃.onward hon₄
    refine Responds.expect (fun grantee _ => ?_) fun _ => handled_error effect_refl
    refine Responds.ensure (fun _ => ?_) fun _ => handled_error effect_refl
    exact Responds.ensure_done (fun _ => handled_ok effect_refl hleft₄) fun _ => handled_error effect_refl

/-- The job approves what has waited long enough. -/
theorem acts_timeoutJob : Acts (.timeoutJob out) (emergencyRequestTimeoutJob settings out) db db := by
  unfold emergencyRequestTimeoutJob
  split
  case isFalse => exact answered_ok effect_refl trivial
  refine acts_lookup effect_refl fun db₁ _ => ?_
  show Acts (.timeoutJob out) (each (db₁.emergencyAccess.filter fun e =>
    e.status=EmergencyAccess.RecoveryInitiated ∧ e.recoveryInitiatedAt≠none)
      (approveTimedOut settings out db₁.now)) db₁ db₁
  have hlisted : Listed db₁.now (db₁.emergencyAccess.filter fun e =>
      e.status=EmergencyAccess.RecoveryInitiated ∧ e.recoveryInitiatedAt≠none) db₁ := by
    refine ⟨fun e he => ?_,db₁.emergency_nodup.sublist (List.filter_sublist.map _),Int.le_refl _⟩
    obtain ⟨he,hwaiting⟩ := List.mem_filter.mp he
    rw [decide_eq_true_eq] at hwaiting
    exact ⟨he,hwaiting.1⟩
  refine Responds.each (J:=fun list db₀ db => Listed db₁.now list db ∧ Effect (.timeoutJob out) db₀ db)
    (fun e list db₂ db₃ h => ?_) (fun db₂ db₃ h => answered_ok h.2 trivial) ⟨hlisted,effect_refl⟩
  exact responds_approveTimedOut h.1 h.2

end Others

section Runs

variable {settings : AccountSettings} {start : Database} {history : List Step} {m : Step} {id : Uuid}

theorem acts_body (op : Operation) (db : Database) : Acts op (op.body settings) db db := by
  cases op with
  | getContacts caller => exact acts_plain (acts_gentle guards_getContacts (gentle_effect rfl rfl) fun _ _ => trivial)
  | getGrantees caller => exact acts_plain (acts_gentle guards_getGrantees (gentle_effect rfl rfl) fun _ _ => trivial)
  | get caller id => exact acts_plain (acts_gentle guards_get (gentle_effect rfl rfl) fun _ _ => trivial)
  | post caller id data => exact acts_plain acts_post
  | delete caller id => exact acts_plain acts_delete
  | sendInvite out caller email type days =>
    exact acts_plain (acts_gentle guards_sendInvite (gentle_effect rfl rfl) fun _ _ => trivial)
  | resendInvite out caller id => exact acts_plain (acts_gentle guards_resendInvite (gentle_effect rfl rfl) fun _ _ => trivial)
  | acceptInvite out caller id claims => exact acts_plain (acts_gentle guards_accept (gentle_effect rfl rfl) fun _ _ => trivial)
  | confirm out caller id key => exact acts_plain (acts_gentle guards_confirm (gentle_effect rfl rfl) fun _ _ => trivial)
  | initiate out caller id => exact acts_plain acts_initiate
  | approve out caller id => exact acts_plain acts_approve
  | reject out caller id => exact acts_plain acts_reject
  | view caller id => exact acts_obtaining acts_view
  | takeover caller id => exact acts_obtaining acts_takeover
  | password caller id hash key => exact acts_obtaining acts_password
  | policies caller id => exact acts_plain (acts_gentle guards_policies (gentle_effect rfl rfl) fun _ _ => trivial)
  | timeoutJob out => exact acts_plain acts_timeoutJob
  | tick seconds => exact acts_plain (acts_gentle guards_tick (gentle_effect rfl rfl) fun _ _ => trivial)

/-- What a move shows. -/
abbrev Seen (m : Step) : Prop := Shows (fun _ => True) Effect Answered m

/-- Every move has the effect of its operation. -/
theorem Seen.effect (h : Seen m) : Effect m.op m.before m.after := by
  rcases shows_cases h with ⟨-,heffect⟩|⟨r,-,hanswered⟩
  · exact heffect
  · exact hanswered.1

/-- And its outcome if it succeeds. -/
theorem Seen.outcome (h : Seen m) (hm : succeeds m=true) : Outcome m.op m.before m.after := by
  unfold succeeds at hm
  rcases shows_cases h with ⟨hnone,-⟩|⟨r,hr,hanswered⟩
  · rw [hnone] at hm
    cases hm
  · rw [hr] at hm
    cases r with
    | ok a => exact hanswered.2 ⟨a,rfl⟩
    | error e => cases hm

theorem Seen.rests (h : Seen m) (hm : ends id m=true) : Rests id m.after := by
  have houtcome := h.outcome
  unfold ends at hm
  generalize m.op=op at hm houtcome
  cases op with
  | reject out caller id' =>
    rw [decide_eq_true_eq] at hm
    obtain ⟨rfl,hm⟩ := hm
    exact houtcome hm
  | delete caller id' =>
    rw [decide_eq_true_eq] at hm
    obtain ⟨rfl,hm⟩ := hm
    exact houtcome hm
  | _ => cases hm

/-- What the history says of a record. -/
def Tracked (history : List Step) (e : EmergencyAccess) : Prop :=
  (e.status=EmergencyAccess.RecoveryInitiated → ∃ since,e.recoveryInitiatedAt=some since ∧
    (phaseOf e.uuid history=.waiting since ∨ phaseOf e.uuid history=.opened)) ∧
  (e.status=EmergencyAccess.RecoveryApproved → phaseOf e.uuid history=.opened)

theorem tracked_of_resting {e : EmergencyAccess} (h : Resting e) : Tracked history e :=
  ⟨fun he => absurd he h.1,fun he => absurd he h.2⟩

theorem phaseOf_concat : phaseOf id (history++[m])=(phaseOf id history).next id m := by
  unfold phaseOf
  rw [List.foldl_append]
  rfl

/-- An open recovery stays open until it ends. -/
theorem phase_opened (hm : initiates id m=false) (hm' : ends id m=false)
    (h : phaseOf id history=.opened) : phaseOf id (history++[m])=.opened := by
  rw [phaseOf_concat,h]
  unfold Phase.next
  rw [hm,hm']
  rfl

/-- A waiting one waits or is opened. -/
theorem phase_waiting {since : ℤ} (hm : initiates id m=false) (hm' : ends id m=false)
    (h : phaseOf id history=.waiting since) : phaseOf id (history++[m])=
      if approves id m=true ∨ waitOver id since m.before=true then .opened else .waiting since := by
  rw [phaseOf_concat,h]
  unfold Phase.next
  rw [hm,hm']
  rfl

/-- A record in the same recovery is tracked as before. -/
theorem Tracked.kept {g e : EmergencyAccess} (h : Tracked history g) (huuid : g.uuid=e.uuid)
    (hstatus : g.status=e.status) (hinitiated : g.recoveryInitiatedAt=e.recoveryInitiatedAt)
    (hm : initiates e.uuid m=false) (hm' : ends e.uuid m=false) : Tracked (history++[m]) e := by
  unfold Tracked at h
  rw [huuid,hstatus,hinitiated] at h
  refine ⟨fun he => ?_,fun he => phase_opened hm hm' (h.2 he)⟩
  obtain ⟨since,hsince,hphase⟩ := h.1 he
  refine ⟨since,hsince,?_⟩
  rcases hphase with hwaiting|hopened
  · rw [phase_waiting hm hm' hwaiting]
    split
    · exact .inr rfl
    · exact .inl rfl
  · exact .inr (phase_opened hm hm' hopened)

/-- A waiting recovery is opened by an approval or by time. -/
theorem Tracked.opened {g : EmergencyAccess} (h : Tracked history g)
    (hstatus : g.status=EmergencyAccess.RecoveryInitiated) (hm : initiates g.uuid m=false)
    (hm' : ends g.uuid m=false) (hopens : ∀ since,g.recoveryInitiatedAt=some since →
      approves g.uuid m=true ∨ waitOver g.uuid since m.before=true) :
    phaseOf g.uuid (history++[m])=.opened := by
  obtain ⟨since,hsince,hphase⟩ := h.1 hstatus
  rcases hphase with hwaiting|hopened
  · rw [phase_waiting hm hm' hwaiting]
    exact if_pos (hopens since hsince)
  · exact phase_opened hm hm' hopened

theorem initiates_of_same (h : SameRecords m.before m.after) : initiates id m=false := by
  unfold initiates
  split
  · exact decide_eq_false fun hboth => hboth.2 h
  · rfl

/-- An initiated recovery waits since the time that its record has noted. -/
theorem tracked_of_initiates {e : EmergencyAccess} (hm : initiates e.uuid m=true)
    (he : e∈m.after.emergencyAccess) (hstatus : e.status=EmergencyAccess.RecoveryInitiated)
    (hsome : e.recoveryInitiatedAt.isSome=true) : Tracked (history++[m]) e := by
  obtain ⟨since,hsince⟩ := Option.isSome_iff_exists.mp hsome
  have hstarted : startedAt e.uuid m.after=since := by
    unfold startedAt
    rw [find?_key m.after.emergency_nodup he,Option.bind_some,hsince]
    rfl
  refine ⟨fun _ => ⟨since,hsince,.inl ?_⟩,fun happroved => ?_⟩
  · rw [phaseOf_concat]
    unfold Phase.next
    rw [if_pos hm,hstarted]
  · rw [hstatus] at happroved
    exact absurd happroved (by decide)

theorem tracked_of_opened {e : EmergencyAccess} (hstatus : e.status=EmergencyAccess.RecoveryApproved)
    (h : phaseOf e.uuid history=.opened) : Tracked history e := by
  refine ⟨fun hinitiated => ?_,fun _ => h⟩
  rw [hstatus] at hinitiated
  exact absurd hinitiated (by decide)

/-- A record that is there at the end of a move is tracked after it. -/
theorem tracked_move (hseen : Seen m) (h : ∀ g∈m.before.emergencyAccess,Tracked history g) :
    ∀ e∈m.after.emergencyAccess,Tracked (history++[m]) e := by
  intro e he
  cases hends : ends e.uuid m with
  | true => exact tracked_of_resting (hseen.rests hends e he rfl)
  | false =>
    obtain ⟨hchange,-,-⟩ := hseen.effect
    have hmild : initiates e.uuid m=false → Mild m.before m.after → Tracked (history++[m]) e := by
      intro hm hmild
      rcases hmild e he with hrest|⟨g,hg,huuid,hstatus,hinitiated⟩
      · exact tracked_of_resting hrest
      · exact (h g hg).kept huuid hstatus hinitiated hm hends
    cases hop : m.op with
    | initiate out caller id =>
      rw [hop] at hchange
      by_cases hsame : SameRecords m.before m.after
      · exact hmild (initiates_of_same hsame) (mild_of_same hsame)
      · rcases (hchange.resolve_left hsame) e he with ⟨hne,hold⟩|⟨rfl,hstatus,hsome⟩
        · have hm : initiates e.uuid m=false := by
            unfold initiates
            rw [hop]
            exact decide_eq_false fun hboth => hne hboth.1.symm
          exact (h e hold).kept rfl rfl rfl hm hends
        · have hm : initiates e.uuid m=true := by
            unfold initiates
            rw [hop]
            exact decide_eq_true ⟨rfl,hsame⟩
          exact tracked_of_initiates hm he hstatus hsome
    | approve out caller id =>
      rw [hop] at hchange
      have hm : initiates e.uuid m=false := by
        unfold initiates
        rw [hop]
      by_cases hsame : SameRecords m.before m.after
      · exact hmild hm (mild_of_same hsame)
      · rcases (hchange.resolve_left hsame) e he with ⟨-,hold⟩|⟨rfl,hstatus,g,hg,huuid,hgstatus⟩
        · exact (h e hold).kept rfl rfl rfl hm hends
        · have happroves : approves g.uuid m=true := by
            unfold approves
            rw [hop]
            exact decide_eq_true ⟨huuid.symm,hsame⟩
          have hopened := (h g hg).opened hgstatus (huuid ▸ hm) (huuid ▸ hends) fun _ _ => .inl happroves
          exact tracked_of_opened hstatus (huuid ▸ hopened)
    | timeoutJob out =>
      rw [hop] at hchange
      have hm : initiates e.uuid m=false := by
        unfold initiates
        rw [hop]
      rcases hchange e he with hold|⟨hstatus,g,hg,huuid,hgstatus,since,hsince,hover⟩
      · exact (h e hold).kept rfl rfl rfl hm hends
      · have hopened := (h g hg).opened hgstatus (huuid ▸ hm) (huuid ▸ hends) fun since' hsince' => ?_
        · exact tracked_of_opened hstatus (huuid ▸ hopened)
        · rw [hsince] at hsince'
          cases hsince'
          exact .inr (List.any_eq_true.mpr ⟨g,hg,decide_eq_true ⟨rfl,hover⟩⟩)
    | _ =>
      rw [hop] at hchange
      refine hmild ?_ hchange
      unfold initiates
      rw [hop]

/-- What is given shows an approved record before the move. -/
theorem opened_of_gives (hseen : Seen m) (hm : gives id m=true)
    (h : ∀ g∈m.before.emergencyAccess,Tracked history g) : phaseOf id history=.opened := by
  have hbefore : Mild m.before m.after → Approved id m.after → phaseOf id history=.opened := by
    rintro hmild ⟨e,he,rfl,hstatus⟩
    rcases hmild e he with hrest|⟨g,hg,huuid,hsame,-⟩
    · exact absurd hstatus hrest.2
    · rw [← huuid]
      exact (h g hg).2 (hsame.trans hstatus)
  obtain ⟨hchange,-,htakes⟩ := hseen.effect
  have houtcome := hseen.outcome
  unfold gives at hm
  generalize m.op=op at hm hchange houtcome htakes
  cases op with
  | view caller id' =>
    rw [decide_eq_true_eq] at hm
    obtain ⟨rfl,hm⟩ := hm
    exact hbefore hchange (houtcome hm)
  | takeover caller id' =>
    rw [decide_eq_true_eq] at hm
    obtain ⟨rfl,hm⟩ := hm
    exact hbefore hchange (houtcome hm)
  | password caller id' hash key =>
    rw [decide_eq_true_eq] at hm
    obtain ⟨rfl,hm⟩ := hm
    rcases hm with hm|hm
    · exact hbefore hchange (houtcome hm)
    · exact hbefore hchange (htakes.resolve_left hm)
  | _ => cases hm

/-- Records are tracked along a chain of moves. -/
theorem tracked_chain {s s' : Database} {moves : List Step} (hchain : Chain Seen s moves s')
    (h : ∀ e∈s.emergencyAccess,Tracked history e) : ∀ e∈s'.emergencyAccess,Tracked (history++moves) e := by
  induction moves generalizing s history with
  | nil =>
    rw [List.append_nil,← show s=s' from hchain]
    exact h
  | cons m moves ih =>
    obtain ⟨rfl,hseen,hrest⟩ := hchain
    have hnext := ih hrest (tracked_move hseen h)
    rwa [List.append_assoc,List.singleton_append] at hnext

/-- From records that are not in recovery, as long as records are changed only
while no other request is in flight: a grantee obtains something only after an
initiation that was then approved or has waited long enough, and that was not
rejected or deleted since. -/
theorem access_consented (hstart : ∀ e∈start.emergencyAccess,Resting e) {events : List (Event Operation Unit)}
    (hrun : (server settings).Admits (Undisturbed (server settings) SameRecords) ⟨start,[]⟩ events) :
    Consented (trace (server settings) ⟨start,[]⟩ events) := by
  have hidle : Kept (server settings) (fun _ => True) Onward Effect Answered ⟨start,[]⟩ := Kept.idle trivial
  have hchain := chain_of_run hidle (fun op db _ => (acts_body op db).bears)
    (fun db _ => ⟨rfl,Int.le_refl _⟩) (fun a b c hab hbc => ⟨hbc.1.trans hab.1,Int.le_trans hab.2 hbc.2⟩)
    (fun op p db db' _ _ => trivial) (fun op p db db' _ h hsame => ⟨hsame,?_⟩) hrun
  · intro history m later id hmoves hgives
    rw [hmoves] at hchain
    obtain ⟨db,hbefore,hrest⟩ := hchain.split
    obtain ⟨rfl,hseen,-⟩ := hrest
    have htracked : ∀ e∈m.before.emergencyAccess,Tracked ([]++history) e :=
      tracked_chain hbefore fun e he => tracked_of_resting (hstart e he)
    exact opened_of_gives hseen hgives htracked
  · rcases ended_cases h with heffect|⟨r,hanswered⟩
    · exact heffect.clock
    · exact hanswered.1.clock

end Runs

section Samples

/-- Settings with emergency access. -/
def trusting : AccountSettings where
  toFactorSettings := TotpRuns.countingSettings
  emailChangeAllowed := true
  emergencyAccessAllowed := true

/-- The second account may view the items of the first one after a day. -/
def entrusted : Database := ⟨{Tables.none with
  users := [User.new 1 0 [] 600000 ['a'] none,User.new 2 0 [] 600000 ['b'] none]
  emergencyAccess := [⟨3,1,some 2,none,none,EmergencyAccess.View,ServerTables.EmergencyAccess.Confirmed,1,none,none⟩]
  next := 4},by decide⟩

/-- An operation goes on by a number of statements. -/
def goesOn (n statements : ℕ) : List (Event Operation Unit) := List.replicate statements (.resume n ⟨[],()⟩)

/-- A recovery begins and a day passes. -/
def aDayLater : List (Event Operation Unit) :=
  .start (.initiate GroupIsolation.online 2 3)::goesOn 0 4++.start (.tick 86400)::goesOn 1 1

/-- The job reads the list, the grantor rejects, and the job approves. -/
def rejectedMeanwhile : List (Event Operation Unit) :=
  aDayLater++.start (.timeoutJob GroupIsolation.online)::goesOn 2 1++
    .start (.reject GroupIsolation.online 1 3)::goesOn 3 4++goesOn 2 1++.start (.view 2 3)::goesOn 4 3

/-- The job approves before anything else happens. -/
def approvedInTime : List (Event Operation Unit) :=
  aDayLater++.start (.timeoutJob GroupIsolation.online)::goesOn 2 2++.start (.view 2 3)::goesOn 3 3

/-- A grantee sees the items after the grantor has rejected the recovery. -/
theorem access_after_rejection :
    ¬Consented (trace (server trusting) ⟨entrusted,[]⟩ rejectedMeanwhile) := by
  intro h
  have hne : trace (server trusting) ⟨entrusted,[]⟩ rejectedMeanwhile≠[] := by decide
  have hgives : gives 3 ((trace (server trusting) ⟨entrusted,[]⟩ rejectedMeanwhile).getLast hne)=true := by
    decide +revert
  have hopened := h _ _ [] 3 (List.dropLast_append_getLast hne).symm hgives
  exact absurd hopened (by decide)

/-- A job that nothing overlaps. -/
theorem access_consented_sequential :
    Consented (trace (server trusting) ⟨entrusted,[]⟩ approvedInTime) := by
  have hsequential : (server trusting).Admits (Undisturbed (server trusting) SameRecords) ⟨entrusted,[]⟩
      approvedInTime := by
    have hsame : ∀ db,SameRecords db db := fun _ => rfl
    have horder : (server trusting).sequential ⟨entrusted,[]⟩ approvedInTime=true := by decide
    exact undisturbed_of_sequential (n:=0) hsame (fun m t ht => by simp at ht) horder
  have hstart : ∀ e∈entrusted.emergencyAccess,Resting e := by
    intro e he
    rw [List.mem_singleton.mp he]
    constructor <;> decide
  exact access_consented hstart hsequential

end Samples

end NadSafe.EmergencyRuns
