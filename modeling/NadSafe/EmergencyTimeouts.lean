import NadSafe.EmergencyRuns
import NadSafe.SustainedScript
import NadSafe.TableWrites

/-!
# The job that approves recoveries

One run of the job over the records that requests have left, in whatever way
these overlap. Every recovery that waits has a grantee and a beginning. The
job adds the waiting time to the beginning of each; a sum that is no date ends
the job, and the records behind it in the list are not looked at.
-/

namespace NadSafe.EmergencyTimeouts

open HostText TableRows AsyncScript AsyncScript.Script ScriptPool SequentialScript ServerTables StoreScript
open ServerModels OrgHandlers SecondFactors AccountHandlers EmergencyHandlers EmergencyRuns RelyScript
open ResponseScript SustainedScript PlannedScript TableWrites
open CipherHandlers (headers Panic)

/-- A recovery that waits has a beginning and a grantee. -/
def Recorded (e : EmergencyAccess) : Prop :=
  e.status=EmergencyAccess.RecoveryInitiated → e.recoveryInitiatedAt.isSome=true ∧ e.granteeUuid.isSome=true

/-- A record that does not wait. -/
theorem recorded_of {e : EmergencyAccess} (status : ℤ) (h : e.status=status)
    (hne : status≠EmergencyAccess.RecoveryInitiated) : Recorded e := fun hwaits => absurd (h.symm.trans hwaits) hne

/-- What requests leave. Where emergency access is switched off there is no
record. -/
structure Produced (settings : AccountSettings) (db : Database) : Prop where
  /-- Every record. -/
  recorded : ∀ e∈db.emergencyAccess,Recorded e
  /-- There are some only where emergency access is allowed. -/
  allowed : settings.emergencyAccessAllowed=false → db.emergencyAccess=[]

/-- A handler that keeps this. -/
abbrev Keeps {α : Type} (settings : AccountSettings) (Q : α → Prop) (p : Action α) : Prop :=
  Sustains (Produced settings) Q p

section Rules

variable {settings : AccountSettings} {out : Outside} {caller id : Uuid} {e : EmergencyAccess} {α : Type}

theorem keeps_frames {p : Action α} (h : Frames exec records p) : Keeps settings (fun _ => True) p := by
  refine Sustains.frames (fun db db' hsame hdb => ?_) h
  have hrecords : db'.emergencyAccess=db.emergencyAccess := congrArg Prod.fst hsame
  exact ⟨hrecords ▸ hdb.recorded,hrecords ▸ hdb.allowed⟩

theorem keeps_lookup {f : Tables → α} {Q : α → Prop} (h : ∀ db : Database,Produced settings db → Q (f db.toTables)) :
    Keeps settings Q (lookup f) := Sustains.query h

/-- A statement that leaves old rows and rows that are recorded. -/
theorem keeps_update {message : String} {f : Tables → Tables}
    (h : ∀ db : Database,Produced settings db → (∀ e∈(f db.toTables).emergencyAccess,Recorded e) ∧
      (settings.emergencyAccessAllowed=false → (f db.toTables).emergencyAccess=[])) :
    Keeps settings (fun _ => True) (update message f) := by
  refine Sustains.execute fun db db' hdb hc => ?_
  obtain ⟨hrows,hnone⟩ := h db hdb
  have heq := commit_eq hc
  exact ⟨heq ▸ hrows,heq ▸ hnone⟩

theorem keeps_save (hallowed : settings.emergencyAccessAllowed=true) (he : Recorded e) :
    Keeps settings (fun _ => True) (EmergencyAccess.save e) := by
  refine keeps_update fun db hdb => ⟨fun q hq => ?_,fun hno => ?_⟩
  · rcases mem_put.mp hq with rfl|⟨hq,-⟩
    · exact he
    · exact hdb.recorded q hq
  · rw [hallowed] at hno
    cases hno

theorem keeps_enabled : Keeps settings (fun _ => settings.emergencyAccessAllowed=true)
    (checkEmergencyAccessEnabled settings) := Sustains.ensure _ _

theorem keeps_delete : Keeps settings (fun _ => True) (ServerModels.EmergencyAccess.delete e) := by
  refine keeps_update fun db hdb => ⟨fun q hq => ?_,fun hno => ?_⟩
  · exact hdb.recorded q (List.mem_filter.mp hq).1
  · show db.emergencyAccess.filter _=[]
    rw [hdb.allowed hno]
    rfl

/-- The records of grantors and grantees are recorded. -/
theorem keeps_recordOfGrantor : Keeps settings Recorded (recordOfGrantor id caller) := by
  refine Sustains.bind (P:=fun found => ∀ e,found=some e → Recorded e) (keeps_lookup fun db hdb e he => ?_) fun found hfound => ?_
  · exact hdb.recorded e (List.mem_of_find?_eq_some he)
  · exact (Sustains.expect _ _).mono fun e he => hfound e he

theorem keeps_recordOfGrantee : Keeps settings (fun e => Recorded e ∧ e.granteeUuid=some caller)
    (recordOfGrantee id caller) := by
  refine Sustains.bind (P:=fun found => ∀ e,found=some e → Recorded e ∧ e.granteeUuid=some caller)
    (keeps_lookup fun db hdb e he => ?_) fun found hfound => ?_
  · have hparties := List.find?_some he
    rw [decide_eq_true_eq] at hparties
    exact ⟨hdb.recorded e (List.mem_of_find?_eq_some he),hparties.2⟩
  · exact (Sustains.expect _ _).mono fun e he => hfound e he

theorem keeps_acceptInvite (hallowed : settings.emergencyAccessAllowed=true) {grantee : Uuid} {email : Text} :
    Keeps settings (fun _ => True) (EmergencyAccess.acceptInvite e grantee email) := by
  refine (Sustains.ensure _ _).bind fun _ _ => (Sustains.ensure _ _).bind fun _ _ => keeps_save hallowed ?_
  exact recorded_of EmergencyAccess.Accepted rfl (by decide)

theorem keeps_granteeDetails : Keeps settings (fun _ => True) (EmergencyAccess.toJsonGranteeDetails settings e) := by
  unfold EmergencyAccess.toJsonGranteeDetails
  split
  · exact keeps_frames (Frames.bind frames_accountOf fun _ => Frames.pure _)
  · refine (keeps_lookup (Q:=fun _ => True) fun _ _ => trivial).bind fun found _ => ?_
    cases found with
    | some user => exact Sustains.pure trivial
    | none =>
      refine Sustains.bind (P:=fun _ => True) (Sustains.ok ?_) fun _ _ => Sustains.pure trivial
      refine (keeps_lookup (Q:=fun _ => True) fun _ _ => trivial).bind fun _ _ => ?_
      exact Sustains.each fun _ _ => keeps_delete
  · exact Sustains.pure trivial

end Rules

section Requests

variable {settings : AccountSettings} {out : Outside} {caller id : Uuid}

theorem keeps_getContacts : Keeps settings (fun _ => True) (getContacts settings caller) :=
  (keeps_frames frames_headers).bind fun _ _ => (keeps_lookup (Q:=fun _ => True) fun _ _ => trivial).bind
    fun _ _ => Sustains.each fun _ _ => (keeps_granteeDetails).bind fun _ _ => Sustains.pure trivial

theorem keeps_get : Keeps settings (fun _ => True) (getEmergencyAccess settings caller id) :=
  (keeps_frames frames_headers).bind fun _ _ => (keeps_enabled).bind fun _ _ => (keeps_recordOfGrantor).bind
    fun _ _ => (keeps_granteeDetails).bind fun _ _ => (Sustains.ensure _ _).mono fun _ _ => trivial

theorem keeps_post {data : EmergencyAccessUpdateData} :
    Keeps settings (fun _ => True) (postEmergencyAccess settings caller id data) := by
  refine (keeps_frames frames_headers).bind fun _ _ => (keeps_enabled).bind fun _ hallowed => ?_
  refine (keeps_recordOfGrantor).bind fun e he => (Sustains.expect _ _).bind fun type _ => ?_
  exact keeps_save hallowed he

theorem keeps_deleteRequest : Keeps settings (fun _ => True) (deleteEmergencyAccess settings caller id) := by
  refine (keeps_frames frames_headers).bind fun _ _ => (keeps_enabled).bind fun _ _ => ?_
  refine (keeps_lookup (Q:=fun _ => True) fun _ _ => trivial).bind fun _ _ => ?_
  refine (keeps_lookup (Q:=fun _ => True) fun _ _ => trivial).bind fun _ _ => ?_
  exact (Sustains.expect _ _).bind fun e _ => keeps_delete

theorem keeps_sendInvite {email : Text} {type : NumberOrString} {days : ℤ} :
    Keeps settings (fun _ => True) (EmergencyHandlers.sendInvite settings out caller email type days) := by
  refine (keeps_frames frames_headers).bind fun grantor _ => (keeps_enabled).bind fun _ hallowed => ?_
  refine (Sustains.expect _ _).bind fun atype _ => (Sustains.ensure _ _).bind fun _ _ => ?_
  refine (keeps_frames frames_invitedGrantee).bind fun (grantee,newUser) _ => ?_
  refine (keeps_lookup (Q:=fun _ => True) fun _ _ => trivial).bind fun _ _ => (Sustains.ensure _ _).bind fun _ _ => ?_
  refine (keeps_frames frames_draw).bind fun uuid _ => ?_
  refine (keeps_save hallowed (recorded_of EmergencyAccess.Invited rfl (by decide))).bind fun _ _ => ?_
  refine Sustains.ite (fun _ => (Sustains.ensure _ _).mono fun _ _ => trivial) fun _ => ?_
  exact Sustains.ite (fun _ => keeps_acceptInvite hallowed) fun _ => Sustains.pure trivial

theorem keeps_resendInvite : Keeps settings (fun _ => True) (EmergencyHandlers.resendInvite settings out caller id) := by
  refine (keeps_frames frames_headers).bind fun grantor _ => (keeps_enabled).bind fun _ hallowed => ?_
  refine (keeps_recordOfGrantor).bind fun e _ => (Sustains.ensure _ _).bind fun _ _ => ?_
  refine (Sustains.expect _ _).bind fun email _ => (keeps_lookup (Q:=fun _ => True) fun _ _ => trivial).bind fun _ _ => ?_
  refine (Sustains.expect _ _).bind fun grantee _ => ?_
  refine Sustains.ite (fun _ => (Sustains.ensure _ _).mono fun _ _ => trivial) fun _ => ?_
  refine Sustains.ite (fun _ => keeps_acceptInvite hallowed) fun _ => ?_
  refine Sustains.ite (fun _ => keeps_frames (Frames.bind (frames_lookup _) fun _ => ?_)) fun _ => Sustains.pure trivial
  exact Frames.ite (fun _ => Frames.pure _) fun _ => frames_invitation

theorem keeps_accept {claims : EmergencyAccessInviteClaims} :
    Keeps settings (fun _ => True) (EmergencyHandlers.acceptInvite settings out caller id claims) := by
  refine (keeps_frames frames_headers).bind fun user _ => (keeps_enabled).bind fun _ hallowed => ?_
  refine (Sustains.ensure _ _).bind fun _ _ => (keeps_lookup (Q:=fun _ => True) fun _ _ => trivial).bind fun _ _ => ?_
  refine (Sustains.expect _ _).bind fun grantee _ => (keeps_frames frames_takeInvitation).bind fun _ _ => ?_
  refine (keeps_lookup (Q:=fun _ => True) fun _ _ => trivial).bind fun _ _ => (Sustains.expect _ _).bind fun e _ => ?_
  refine (keeps_frames frames_accountOf).bind fun grantor _ => (Sustains.ensure _ _).bind fun _ _ => ?_
  exact (keeps_acceptInvite hallowed).bind fun _ _ => keeps_frames frames_mailTo

theorem keeps_confirm {key : Text} : Keeps settings (fun _ => True) (confirmEmergencyAccess settings out caller id key) := by
  refine (keeps_frames frames_headers).bind fun user _ => keeps_enabled.bind fun _ hallowed => ?_
  refine (keeps_recordOfGrantor).bind fun e _ => (Sustains.ensure _ _).bind fun _ _ => ?_
  refine (keeps_frames frames_accountOf).bind fun _ _ => (keeps_frames frames_accountOf).bind fun _ _ => ?_
  exact (keeps_save hallowed (recorded_of ServerTables.EmergencyAccess.Confirmed rfl (by decide))).bind fun _ _ => keeps_frames frames_mailTo

/-- A recovery begins, with its grantee and its time. -/
theorem keeps_initiate : Keeps settings (fun _ => True) (initiateEmergencyAccess settings out caller id) := by
  refine (keeps_frames frames_headers).bind fun user _ => keeps_enabled.bind fun _ hallowed => ?_
  refine (keeps_recordOfGrantee).bind fun e he => (Sustains.ensure _ _).bind fun _ _ => ?_
  refine (keeps_frames frames_accountOf).bind fun _ _ => (keeps_frames frames_utcNow).bind fun now _ => ?_
  refine (keeps_save hallowed fun _ => ⟨rfl,?_⟩).bind fun _ _ => keeps_frames frames_mailTo
  show e.granteeUuid.isSome=true
  rw [he.2]
  rfl

theorem keeps_approve : Keeps settings (fun _ => True) (approveEmergencyAccess settings out caller id) := by
  refine (keeps_frames frames_headers).bind fun user _ => keeps_enabled.bind fun _ hallowed => ?_
  refine keeps_recordOfGrantor.bind fun e _ => (Sustains.ensure _ _).bind fun _ _ => ?_
  refine (keeps_frames frames_accountOf).bind fun _ _ => (keeps_frames frames_accountOf).bind fun _ _ => ?_
  exact (keeps_save hallowed (recorded_of EmergencyAccess.RecoveryApproved rfl (by decide))).bind fun _ _ => keeps_frames frames_mailTo

theorem keeps_reject : Keeps settings (fun _ => True) (rejectEmergencyAccess settings out caller id) := by
  refine (keeps_frames frames_headers).bind fun user _ => keeps_enabled.bind fun _ hallowed => ?_
  refine keeps_recordOfGrantor.bind fun e _ => (Sustains.ensure _ _).bind fun _ _ => ?_
  refine (keeps_frames frames_accountOf).bind fun _ _ => ?_
  exact (keeps_save hallowed (recorded_of ServerTables.EmergencyAccess.Confirmed rfl (by decide))).bind fun _ _ => keeps_frames frames_mailTo

theorem frames_approvedRecord {type : ℤ} : Frames exec records (approvedRecord settings caller id type) :=
  Frames.bind frames_headers fun _ => Frames.bind (Frames.ensure _ _) fun _ =>
    Frames.bind frames_recordOfGrantee fun _ => Frames.bind (Frames.ensure _ _) fun _ => Frames.pure _

theorem frames_view : Frames exec records (viewEmergencyAccess settings caller id) :=
  Frames.bind frames_approvedRecord fun _ => Frames.bind (frames_lookup _) fun _ => Frames.bind
    (Frames.each fun _ _ => Frames.ensure _ _) fun _ => Frames.pure _

theorem frames_takeover : Frames exec records (takeoverEmergencyAccess settings caller id) :=
  Frames.bind frames_approvedRecord fun _ => Frames.bind frames_accountOf fun _ => Frames.pure _

theorem frames_password {hash key : Text} :
    Frames exec records (passwordEmergencyAccess settings caller id hash key) := by
  refine Frames.bind frames_approvedRecord fun _ => Frames.bind frames_accountOf fun _ => ?_
  refine Frames.bind frames_setPassword fun _ => Frames.bind frames_saveUser fun _ => ?_
  refine Frames.bind (frames_other fun _ => ⟨rfl,rfl⟩) fun _ => Frames.bind (frames_lookup _) fun _ => ?_
  refine Frames.bind (Frames.each fun m _ => ?_) fun _ => Frames.pure _
  exact Frames.ite (fun _ => frames_deleteMember) fun _ => Frames.pure _

theorem frames_policies : Frames exec records (policiesEmergencyAccess caller id) :=
  Frames.bind frames_headers fun _ => Frames.bind frames_recordOfGrantee fun _ =>
    Frames.bind (Frames.ensure _ _) fun _ => Frames.bind frames_accountOf fun _ => Frames.pure _

theorem frames_getGrantees : Frames exec records (getGrantees settings caller) :=
  Frames.bind frames_headers fun _ => Frames.bind (frames_lookup _) fun _ =>
    Frames.each fun _ _ => Frames.bind frames_accountOf fun _ => Frames.pure _

/-- A record that is approved no longer waits. -/
theorem keeps_timeoutJob : Keeps settings (fun _ => True) (emergencyRequestTimeoutJob settings out) := by
  refine Sustains.ite (fun _ => ?_) fun _ => Sustains.pure trivial
  refine (keeps_lookup (Q:=fun _ => True) fun _ _ => trivial).bind fun list _ => ?_
  refine (keeps_frames frames_utcNow).bind fun now _ => Sustains.each fun e _ => ?_
  refine (Sustains.expect _ _).bind fun since _ => (Sustains.ensure _ _).bind fun _ _ => ?_
  refine Sustains.ite (fun _ => (Sustains.ensure _ _).bind fun _ _ => ?_) fun _ => Sustains.pure trivial
  refine Sustains.bind (P:=fun _ => True) (keeps_update fun db hdb => ⟨fun q hq => ?_,fun hno => ?_⟩) fun _ _ => ?_
  · obtain ⟨g,hg,rfl⟩ := List.mem_map.mp hq
    split
    · exact recorded_of EmergencyAccess.RecoveryApproved rfl (by decide)
    · exact hdb.recorded g hg
  · show db.emergencyAccess.map _=[]
    rw [hdb.allowed hno]
    rfl
  · refine keeps_frames (Frames.ite (fun _ => ?_) fun _ => Frames.pure _)
    exact Frames.bind frames_accountOf fun _ => Frames.bind frames_accountOf fun _ =>
      Frames.bind (Frames.ensure _ _) fun _ => Frames.ensure _ _

theorem keeps_tick {seconds : ℕ} : Keeps settings (fun _ => True) (SecondFactors.tick seconds) :=
  keeps_update fun _ hdb => ⟨hdb.recorded,hdb.allowed⟩

theorem keeps_body (op : Operation) : Keeps settings (fun _ => True) (op.body settings) := by
  have hplain : ∀ {p : Action Unit},Keeps settings (fun _ => True) p → Keeps settings (fun _ => True) (plain p) :=
    fun h => Sustains.bind h fun _ _ => trivial
  have hobtaining : ∀ {p : Action Obtained},Frames exec records p → Keeps settings (fun _ => True) (obtaining p) :=
    fun h => Sustains.bind (keeps_frames h) fun _ _ => trivial
  cases op with
  | getContacts caller => exact hplain keeps_getContacts
  | getGrantees caller => exact hplain (keeps_frames frames_getGrantees)
  | get caller id => exact hplain keeps_get
  | post caller id data => exact hplain keeps_post
  | delete caller id => exact hplain keeps_deleteRequest
  | sendInvite out caller email type days => exact hplain keeps_sendInvite
  | resendInvite out caller id => exact hplain keeps_resendInvite
  | acceptInvite out caller id claims => exact hplain keeps_accept
  | confirm out caller id key => exact hplain keeps_confirm
  | initiate out caller id => exact hplain keeps_initiate
  | approve out caller id => exact hplain keeps_approve
  | reject out caller id => exact hplain keeps_reject
  | view caller id => exact hobtaining frames_view
  | takeover caller id => exact hobtaining frames_takeover
  | password caller id hash key => exact hobtaining frames_password
  | policies caller id => exact hplain (keeps_frames frames_policies)
  | timeoutJob out => exact hplain keeps_timeoutJob
  | tick seconds => exact hplain keeps_tick

/-- Requests leave such records, however they overlap. -/
theorem produced_run {start : Database} (hstart : start.emergencyAccess=[]) (events : List (Event Operation Unit)) :
    Produced settings ((server settings).run ⟨start,[]⟩ events).shared := by
  refine Sustains.run (fun op => (keeps_body op).respond) ?_ events
  constructor
  · intro e he
    rw [hstart] at he
    cases he
  · exact fun _ => hstart

end Requests

/-- The waiting time of a record is over. -/
def due (now : ℤ) (e : EmergencyAccess) : Bool :=
  e.recoveryInitiatedAt.any fun since => decide (since+e.waitTimeDays*86400≤now)

/-- An approved record. -/
def approved (e : EmergencyAccess) : EmergencyAccess := {e with status := EmergencyAccess.RecoveryApproved}

/-- The record after a job at a time. -/
def settled (now : ℤ) (e : EmergencyAccess) : EmergencyAccess :=
  if e.status=EmergencyAccess.RecoveryInitiated ∧ due now e=true then approved e else e

/-- The job ends, has approved exactly the recoveries whose waiting time is
over, and has changed nothing else. -/
structure Approves (db : Database) (r : Except String Unit) (db' : Database) : Prop where
  /-- It ends. -/
  finished : r=.ok ()
  /-- What it leaves. -/
  tables : db'.toTables={db.toTables with emergencyAccess := db.emergencyAccess.map (settled db.now)}

/-- The end of the waiting time of a record is a date. -/
def Dated (e : EmergencyAccess) : Prop :=
  ∀ since,e.recoveryInitiatedAt=some since → fitsDate (since+e.waitTimeDays*86400)=true

section Job

variable {settings : AccountSettings} {out : Outside} {now : ℤ} {db : Database} {t : Tables}

/-- Records may be approved. -/
theorem valid_approve {f : EmergencyAccess → EmergencyAccess} (h : t.Valid)
    (hf : ∀ e,(f e).uuid=e.uuid ∧ (f e).grantorUuid=e.grantorUuid ∧ (f e).granteeUuid=e.granteeUuid) :
    {t with emergencyAccess := t.emergencyAccess.map f}.Valid := by
  obtain ⟨hkeys,hlinks,hrows⟩ := h
  unfold Tables.Keyed at hkeys
  unfold Tables.Linked at hlinks
  unfold Tables.Drawn at hrows
  casesm* _ ∧ _
  have huuids : (t.emergencyAccess.map f).map ServerTables.EmergencyAccess.uuid=
      t.emergencyAccess.map ServerTables.EmergencyAccess.uuid := by
    rw [List.map_map]
    exact List.map_congr_left fun e _ => (hf e).1
  have hgrantors : Refers (t.emergencyAccess.map f) ServerTables.EmergencyAccess.grantorUuid t.users User.uuid := by
    intro q hq
    obtain ⟨e,he,rfl⟩ := List.mem_map.mp hq
    rw [(hf e).2.1]
    exact ‹Refers t.emergencyAccess ServerTables.EmergencyAccess.grantorUuid t.users User.uuid› e he
  have hgrantees : MayRefer (t.emergencyAccess.map f) ServerTables.EmergencyAccess.granteeUuid t.users User.uuid := by
    intro q hq
    obtain ⟨e,he,rfl⟩ := List.mem_map.mp hq
    rw [(hf e).2.2]
    exact ‹MayRefer t.emergencyAccess ServerTables.EmergencyAccess.granteeUuid t.users User.uuid› e he
  have hdrawn : ∀ e∈t.emergencyAccess.map f,e.uuid<t.next := by
    intro q hq
    obtain ⟨e,he,rfl⟩ := List.mem_map.mp hq
    rw [(hf e).1]
    exact ‹∀ e∈t.emergencyAccess,e.uuid<t.next› e he
  refine ⟨?_,?_,?_⟩
  all_goals and_intros
  all_goals first
    | assumption
    | (rw [huuids]; assumption)

/-- The record after the records of a list were looked at. -/
def marked (now : ℤ) (list : List EmergencyAccess) (q : EmergencyAccess) : EmergencyAccess :=
  if list.any (fun e => decide (e.uuid=q.uuid) && due now e)=true then approved q else q

theorem marked_nil (q : EmergencyAccess) : marked now [] q=q := rfl

/-- A list of one record. -/
theorem marked_one (e q : EmergencyAccess) :
    marked now [e] q=if due now e=true ∧ q.uuid=e.uuid then approved q else q := by
  unfold marked
  refine if_congr ?_ rfl rfl
  rw [List.any_cons,List.any_nil,Bool.or_false,Bool.and_eq_true,decide_eq_true_eq]
  exact ⟨fun h => ⟨h.2,h.1.symm⟩,fun h => ⟨h.2.symm,h.1⟩⟩

/-- One record and then the others. -/
theorem marked_cons (e : EmergencyAccess) (list : List EmergencyAccess) (q : EmergencyAccess) :
    marked now (e::list) q=marked now list (marked now [e] q) := by
  rw [marked_one]
  by_cases he : due now e=true ∧ q.uuid=e.uuid
  · rw [if_pos he]
    unfold marked
    rw [List.any_cons,decide_eq_true he.2.symm,he.1]
    split <;> split
    all_goals first
      | rfl
      | simp_all
  · have hfirst : (decide (e.uuid=q.uuid) && due now e)=false := by
      rw [Bool.and_eq_false_iff,decide_eq_false_iff_not,Bool.eq_false_iff]
      by_cases huuid : e.uuid=q.uuid
      · exact .inr fun hdue => he ⟨hdue,huuid.symm⟩
      · exact .inl huuid
    rw [if_neg he]
    unfold marked
    rw [List.any_cons,hfirst,Bool.false_or]

/-- The tables after a record was approved. -/
def withApproved (e : EmergencyAccess) (t : Tables) : Tables :=
  {t with emergencyAccess := t.emergencyAccess.map fun q => if q.uuid=e.uuid then approved q else q}

/-- One record that waits: the job goes on if the end is a date. -/
theorem ends_approveTimedOut (hmail : settings.mailEnabled=false) {e : EmergencyAccess} {since : ℤ}
    (hsince : e.recoveryInitiatedAt=some since) (hgrantee : e.granteeUuid.isSome=true) :
    Ends (approveTimedOut settings out now e) db fun r db' =>
      (r=.ok () ↔ Dated e) ∧ (r=.ok () → db'.toTables={db.toTables with
        emergencyAccess := db.emergencyAccess.map (marked now [e])}) := by
  have hdated : Dated e ↔ fitsDate (since+e.waitTimeDays*86400)=true := by
    constructor
    · exact fun h => h since hsince
    · intro h since' hsince'
      rw [hsince] at hsince'
      cases hsince'
      exact h
  have hdue : due now e=decide (since+e.waitTimeDays*86400≤now) := by
    rw [due,hsince,Option.any_some]
  unfold approveTimedOut
  rw [hsince,hdated]
  refine Ends.ensure (fun hfits => ?_) fun hno => ?_
  · split
    · rename_i hover
      have hvalid : (withApproved e db.toTables).Valid := by
        refine valid_approve db.valid fun q => ?_
        split <;> exact ⟨rfl,rfl,rfl⟩
      rw [hgrantee,hmail]
      refine Ends.ensure (fun _ => ends_update (f:=withApproved e) hvalid ?_) nofun
      refine ⟨⟨fun _ => hfits,fun _ => rfl⟩,fun _ => ?_⟩
      have hrows : db.emergencyAccess.map (marked now [e])=db.emergencyAccess.map fun q =>
          if q.uuid=e.uuid then approved q else q := by
        refine List.map_congr_left fun q _ => ?_
        rw [marked_one,hdue,decide_eq_true hover]
        simp only [true_and]
      rw [hrows]
      rfl
    · rename_i hover
      refine ⟨⟨fun _ => hfits,fun _ => rfl⟩,fun _ => ?_⟩
      have hrows : db.emergencyAccess.map (marked now [e])=db.emergencyAccess := by
        refine (List.map_congr_left fun q _ => ?_).trans (List.map_id _)
        rw [marked_one,hdue,decide_eq_false hover,if_neg (fun h => (by cases h.1))]
        rfl
      rw [hrows]
      rfl
  · rw [hno]
    exact ⟨⟨fun he => (by cases he),fun he => (by cases he)⟩,fun he => (by cases he)⟩

/-- The records of a list, one after the other. -/
theorem ends_approveEach (hmail : settings.mailEnabled=false) {list : List EmergencyAccess}
    (hlist : ∀ e∈list,e.recoveryInitiatedAt.isSome=true ∧ e.granteeUuid.isSome=true) :
    Ends (each list (approveTimedOut settings out now)) db fun r db' =>
      (r=.ok () ↔ ∀ e∈list,Dated e) ∧ (r=.ok () → db'.toTables={db.toTables with
        emergencyAccess := db.emergencyAccess.map (marked now list)}) := by
  induction list generalizing db with
  | nil =>
    refine ⟨⟨fun _ e he => (by cases he),fun _ => rfl⟩,fun _ => ?_⟩
    have hnil : db.emergencyAccess.map (marked now [])=db.emergencyAccess :=
      (List.map_congr_left fun q _ => marked_nil q).trans (List.map_id _)
    rw [hnil]
    rfl
  | cons e list ih =>
    obtain ⟨hsome,hgrantee⟩ := hlist e List.mem_cons_self
    obtain ⟨since,hsince⟩ := Option.isSome_iff_exists.mp hsome
    refine (ends_approveTimedOut hmail hsince hgrantee).bind (fun _ db₁ ⟨hfirst,htables⟩ => ?_)
      fun message db₁ ⟨hfirst,_⟩ => ?_
    · have hdated := hfirst.mp rfl
      refine (ih fun q hq => hlist q (List.mem_cons_of_mem e hq)).mono fun r db₂ ⟨hrest,htables'⟩ => ⟨?_,fun hr => ?_⟩
      · rw [hrest,List.forall_mem_cons]
        exact ⟨fun h => ⟨hdated,h⟩,fun h => h.2⟩
      · rw [htables' hr,htables rfl,List.map_map]
        have hrows : db.emergencyAccess.map (marked now list ∘ marked now [e])=
            db.emergencyAccess.map (marked now (e::list)) :=
          List.map_congr_left fun q _ => (marked_cons e list q).symm
        rw [hrows]
    · refine ⟨⟨fun he => (by cases he),fun hall => ?_⟩,fun he => (by cases he)⟩
      exact absurd (hfirst.mpr (hall e List.mem_cons_self)) nofun

/-- The records that the job looks at. -/
def waiting (db : Database) : List EmergencyAccess :=
  db.emergencyAccess.filter fun e => e.status=EmergencyAccess.RecoveryInitiated ∧ e.recoveryInitiatedAt≠none

/-- They are the ones that wait; each of them has what the job unwraps. -/
theorem mem_waiting (hdb : Produced settings db) {e : EmergencyAccess} :
    e∈waiting db ↔ e∈db.emergencyAccess ∧ e.status=EmergencyAccess.RecoveryInitiated := by
  rw [waiting,List.mem_filter,decide_eq_true_eq]
  refine ⟨fun h => ⟨h.1,h.2.1⟩,fun h => ⟨h.1,h.2,?_⟩⟩
  exact Option.isSome_iff_ne_none.mp (hdb.recorded e h.1 h.2).1

/-- The job approves what is due and nothing else, exactly if the end of every
waiting time is a date. -/
theorem job_approves (hmail : settings.mailEnabled=false) (hdb : Produced settings db) :
    Ends (emergencyRequestTimeoutJob settings out) db (Approves db) ↔
      ∀ e∈db.emergencyAccess,e.status=EmergencyAccess.RecoveryInitiated → Dated e := by
  unfold emergencyRequestTimeoutJob
  cases hallowed : settings.emergencyAccessAllowed with
  | false =>
    have hnone := hdb.allowed hallowed
    refine ⟨fun _ e he => ?_,fun _ => ⟨rfl,?_⟩⟩
    · rw [hnone] at he
      cases he
    · rw [hnone]
      show db.toTables=_
      rw [List.map_nil,← hnone]
  | true =>
    have hends : Ends (each (waiting db) (approveTimedOut settings out db.now)) db fun r db' =>
        (r=.ok () ↔ ∀ e∈waiting db,Dated e) ∧ (r=.ok () → db'.toTables={db.toTables with
          emergencyAccess := db.emergencyAccess.map (marked db.now (waiting db))}) :=
      ends_approveEach hmail fun e he =>
        hdb.recorded e ((mem_waiting hdb).mp he).1 ((mem_waiting hdb).mp he).2
    have hmarked : db.emergencyAccess.map (marked db.now (waiting db))=
        db.emergencyAccess.map (settled db.now) := by
      refine List.map_congr_left fun q hq => ?_
      unfold marked settled
      refine if_congr ?_ rfl rfl
      rw [List.any_eq_true]
      constructor
      · rintro ⟨e,he,hmatch⟩
        rw [Bool.and_eq_true,decide_eq_true_eq] at hmatch
        have hsame : e=q := eq_of_key db.emergency_nodup ((mem_waiting hdb).mp he).1 hq hmatch.1
        subst hsame
        exact ⟨((mem_waiting hdb).mp he).2,hmatch.2⟩
      · rintro ⟨hstatus,hdue⟩
        refine ⟨q,(mem_waiting hdb).mpr ⟨hq,hstatus⟩,?_⟩
        rw [hdue,decide_eq_true rfl]
        rfl
    have hiff : (∀ e∈waiting db,Dated e) ↔
        ∀ e∈db.emergencyAccess,e.status=EmergencyAccess.RecoveryInitiated → Dated e :=
      ⟨fun h e he hstatus => h e ((mem_waiting hdb).mpr ⟨he,hstatus⟩),
        fun h e he => h e ((mem_waiting hdb).mp he).1 ((mem_waiting hdb).mp he).2⟩
    rw [← hiff]
    rw [hmarked] at hends
    exact ⟨fun h => hends.1.mp h.finished,fun h => ⟨hends.1.mpr h,hends.2 (hends.1.mpr h)⟩⟩

/-- After every run of overlapping requests that begins without records, one
run of the job approves what is due and nothing else, exactly if the end of
the waiting time of every recovery is a date. -/
theorem timeout_job_approves (hmail : settings.mailEnabled=false) {start : Database}
    (hstart : start.emergencyAccess=[]) (events : List (Event Operation Unit)) :
    Ends (emergencyRequestTimeoutJob settings out) ((server settings).run ⟨start,[]⟩ events).shared
      (Approves ((server settings).run ⟨start,[]⟩ events).shared) ↔
      ∀ e∈((server settings).run ⟨start,[]⟩ events).shared.emergencyAccess,
        e.status=EmergencyAccess.RecoveryInitiated → Dated e :=
  job_approves hmail (produced_run hstart events)

end Job

section Samples

/-- Four accounts. -/
def fourAccounts : Database := ⟨{Tables.none with
  users := [{User.new 1 0 [] 600000 ['a'] none with passwordHash := [1]},
    {User.new 2 0 [] 600000 ['b'] none with passwordHash := [1]},
    {User.new 3 0 [] 600000 ['c'] none with passwordHash := [1]},
    {User.new 4 0 [] 600000 ['d'] none with passwordHash := [1]}]
  next := 5},by decide⟩

/-- An operation runs alone, as the one with the number. -/
def alone (n : ℕ) (op : Operation) : List (Event Operation Unit) := .start op::goesOn n 10

/-- The third account becomes the contact of the first one after so many days,
the fourth one that of the second one at once, and both recoveries begin. -/
def bothInitiated (days : ℤ) : List (Event Operation Unit) :=
  alone 0 (.sendInvite GroupIsolation.online 1 ['c'] (.number 0) days)++
    alone 1 (.confirm GroupIsolation.online 1 5 ['k'])++alone 2 (.initiate GroupIsolation.online 3 5)++
    alone 3 (.sendInvite GroupIsolation.online 2 ['d'] (.number 0) 0)++
    alone 4 (.confirm GroupIsolation.online 2 6 ['k'])++alone 5 (.initiate GroupIsolation.online 4 6)

/-- The longest waiting time of the first contact ends the job before it comes
to the recovery of the second one, which is due. -/
theorem timeout_job_stopped : ¬Ends (emergencyRequestTimeoutJob trusting GroupIsolation.online)
    ((server trusting).run ⟨fourAccounts,[]⟩ (bothInitiated 2147483647)).shared
    (Approves ((server trusting).run ⟨fourAccounts,[]⟩ (bothInitiated 2147483647)).shared) := by
  intro h
  have hstopped : (complete (emergencyRequestTimeoutJob trusting GroupIsolation.online)
      ((server trusting).run ⟨fourAccounts,[]⟩ (bothInitiated 2147483647)).shared).1=.error Panic := by set_option maxRecDepth 4000 in decide
  have hfinished := h.finished
  rw [hstopped] at hfinished
  cases hfinished

/-- A week is a waiting time like any other. -/
theorem timeout_job_approves_week : Ends (emergencyRequestTimeoutJob trusting GroupIsolation.online)
    ((server trusting).run ⟨fourAccounts,[]⟩ (bothInitiated 7)).shared
    (Approves ((server trusting).run ⟨fourAccounts,[]⟩ (bothInitiated 7)).shared) := by
  refine (timeout_job_approves rfl rfl (bothInitiated 7)).mpr fun e he _ since hsince => ?_
  have hrows : ((server trusting).run ⟨fourAccounts,[]⟩ (bothInitiated 7)).shared.emergencyAccess=
      [⟨5,1,some 3,none,some ['k'],0,3,7,some 0,some 0⟩,⟨6,2,some 4,none,some ['k'],0,3,0,some 0,some 0⟩] := by
    set_option maxRecDepth 4000 in decide
  rw [hrows] at he
  rcases List.mem_cons.mp he with rfl|he
  · cases hsince
    decide
  · rw [List.mem_singleton.mp he] at hsince ⊢
    cases hsince
    decide

end Samples

end NadSafe.EmergencyTimeouts
