import NadSafe.CredentialRuns
import NadSafe.ObservedRuns

/-!
# Security stamps over whole runs

Requests, logins and refreshes that overlap in any order, and any other
handler that invents no exception of a stamp. A request is carried out only if
the stamp of its token was that of the account when the guard loaded the row,
or if a change of the password has let this stamp use this route within the
last two minutes. Nothing else is written to an account for a request, other
than the removal of an exception that has expired.
-/

namespace NadSafe.StampRuns

open HostText TableRows AsyncScript AsyncScript.Script ScriptPool ServerTables StoreScript ServerModels
open OrgHandlers SecondFactors AccountHandlers AccountRequests SessionHandlers AccountWrites
open RelyScript TracedRuns ResponseScript GuardedScript ContractScript ObservedRuns CredentialRuns

/-- All exceptions are of a kind. -/
def Exceptions (K : Uuid → UserStampException → Prop) (db : Database) : Prop :=
  ∀ v∈db.users,∀ e,v.stampException=some e → K v.uuid e

/-- A handler that invents no exception: whatever holds of all of them holds of
those that it writes, if the others keep it too. -/
def Invents (handler : Action Unit) : Prop :=
  ¬∀ (K : Uuid → UserStampException → Prop) db,Exceptions K db →
    Responds exec (fun _ => Exceptions K) (fun _ => Exceptions K) (fun _ _ => Exceptions K) handler db db

section Origins

variable (moved : Operation → Database → Prop)

/-- A request of the account has set an exception for the stamp that it has
found. -/
def Granted (u : Uuid) (e : UserStampException) : Prop :=
  ∃ claims asked db v routes,moved (.request claims asked) db ∧ v∈db.users ∧ v.uuid=u ∧ claims.sub=u ∧
    routesOf asked=some routes ∧ e=⟨routes,v.securityStamp,db.now+120⟩

/-- The row lets the stamp of a token use a route, at a time. -/
def Excepts (route : Option Text) (stamp : Uuid) (v : User) (now : ℤ) : Prop :=
  ∃ e r,v.stampException=some e ∧ route=some r ∧ r∈e.routes ∧ e.securityStamp=stamp ∧ now ≤ e.expire ∧
    Granted moved v.uuid e

/-- The guard has admitted a request: its device was one of the account, and
its stamp was valid. -/
def Admitted (claims : LoginJwtClaims) (asked : AccountRequests.Request) : Prop :=
  (∃ db d,moved (.request claims asked) db ∧ d∈db.devices ∧ d.uuid=claims.device ∧ d.userUuid=claims.sub) ∧
    ∃ db v,moved (.request claims asked) db ∧ v∈db.users ∧ v.uuid=claims.sub ∧
      (v.securityStamp=claims.sstamp ∨ Excepts moved asked.route claims.sstamp v db.now)

/-- An expired exception is removed from the row that the guard has loaded. -/
def Cleared (claims : LoginJwtClaims) (asked : AccountRequests.Request) (db' db'' : Database) : Prop :=
  ∃ db v e,moved (.request claims asked) db ∧ v∈db.users ∧ v.uuid=claims.sub ∧ v.stampException=some e ∧
    e.expire<db.now ∧ db''.users=put User.uuid {v with stampException := none} db'.users

/-- What a request may do to accounts. -/
def Lawful (op : Operation) (db db' : Database) : Prop :=
  ∀ claims asked,op=.request claims asked →
    db'.users=db.users ∨ Admitted moved claims asked ∨ Cleared moved claims asked db db'

/-- All exceptions go back to a request. -/
abbrev Fine (db : Database) : Prop := Exceptions (Granted moved) db

/-- What one move of an operation guarantees. -/
def Keeps (op : Operation) (db db' : Database) : Prop := Fine moved db' ∧ Lawful moved op db db'

/-- What a request has shown that was carried out. -/
def Obtains (op : Operation) (r : Except String (Option AuthTokens)) (db db' : Database) : Prop :=
  Keeps moved op db db' ∧ ∀ claims asked,op=.request claims asked → ∀ a,r=.ok a → Admitted moved claims asked

/-- A handler, as long as all exceptions go back to a request. -/
abbrev Acts {α : Type} (op : Operation) (Q : Except String α → Prop) (p : Action α) (db₀ db : Database) : Prop :=
  Responds exec (Relies moved (fun _ => Fine moved) op) (Keeps moved op) (fun r db₀ db => Keeps moved op db₀ db ∧ Q r)
    p db₀ db

end Origins

section Rules

variable {α β : Type} {moved : Operation → Database → Prop} {op : Operation} {Q : Except String α → Prop}
  {db₀ db db' : Database} {u v : User} {claims : LoginJwtClaims} {asked : AccountRequests.Request}
  {settings : SessionSettings}

/-- Rows whose exception goes back to a request may be saved. -/
def Traced (moved : Operation → Database → Prop) (w : User) : Prop :=
  ∀ e,w.stampException=some e → Granted moved w.uuid e

theorem fine_saved (hs : Saved (Traced moved) db db') (h : Fine moved db) : Fine moved db' := by
  rcases hs with hsame|⟨w,hw,hput⟩
  · intro v hv
    rw [hsame] at hv
    exact h v hv
  · intro v hv
    rw [hput] at hv
    rcases mem_put.mp hv with rfl|⟨hv,-⟩
    · exact hw
    · exact h v hv

/-- Nothing has been written. -/
theorem keeps_refl (h : Fine moved db) : Keeps moved op db db := ⟨h,fun _ _ _ => .inl rfl⟩

/-- Anything may be written if the operation was admitted or is no request. -/
theorem keeps_of_admitted (hop : ∀ claims asked,op=.request claims asked → Admitted moved claims asked)
    (h : Fine moved db') : Keeps moved op db db' := ⟨h,fun claims asked ho => .inr (.inl (hop claims asked ho))⟩

/-- A handler that saves traced rows, once the operation is admitted. -/
theorem acts_saves (hop : ∀ claims asked,op=.request claims asked → Admitted moved claims asked) (hQ : ∀ r,Q r)
    {p : Action α} (h : Saves (Traced moved) p) (hs₀ : Fine moved db₀) (hs : Fine moved db) :
    Acts moved op Q p db₀ db := by
  have hwithin := responds_within (F:=Fine moved) (R:=Relies moved (fun _ => Fine moved) op) (H:=Keeps moved op)
    (fun _ _ hsaved hf => fine_saved hsaved hf) (fun _ _ hr _ => hr.1) (fun _ _ _ h => keeps_of_admitted hop h) h hs₀ hs
  exact hwithin.mono fun r _ _ hr => ⟨keeps_of_admitted hop hr.2,hQ r⟩

/-- A row that agrees with a loaded one in its exception is traced. -/
theorem traced_of_same (hv : Traced moved v) {w : User} (hu : w.uuid=v.uuid) (he : w.stampException=v.stampException) :
    Traced moved w := by
  intro e h
  rw [he] at h
  rw [hu]
  exact hv e h

theorem saves_traced {sets : Field → Bool} {p : Action α} (hv : Traced moved v) (h : Saves (Revised sets false v) p) :
    Saves (Traced moved) p := h.mono fun _ hw => traced_of_same hv hw.uuid (hw.stampException rfl)

theorem acts_lookup {f : Tables → β} {g : β → Action α} (hs : Keeps moved op db₀ db)
    (h : ∀ db',Fine moved db' → moved op db' → Acts moved op Q (g (f db'.toTables)) db' db') :
    Acts moved op Q ((lookup f).bind g) db₀ db :=
  Responds.query hs fun db' hr => h db' hr.1 hr.2

theorem acts_expect {message : String} {value : Option β} {g : β → Action α} (hs : Keeps moved op db₀ db)
    (hQ : ∀ e,Q (.error e)) (h : ∀ b,value=some b → Acts moved op Q (g b) db₀ db) :
    Acts moved op Q ((expect message value).bind g) db₀ db :=
  Responds.expect h fun _ => ⟨hs,hQ _⟩

theorem acts_ensure {message : String} {condition : Bool} {g : Unit → Action α} (hs : Keeps moved op db₀ db)
    (hQ : ∀ e,Q (.error e)) (h : condition=true → Acts moved op Q (g ()) db₀ db) :
    Acts moved op Q ((ensure message condition).bind g) db₀ db :=
  Responds.ensure h fun _ => ⟨hs,hQ _⟩

/-- The clock is read. -/
theorem acts_utcNow {g : ℤ → Action α} (h : Acts moved op Q (g db.now) db₀ db) :
    Acts moved op Q (utcNow.bind g) db₀ db := h

end Rules

section Handlers

variable {moved : Operation → Database → Prop} {settings : SessionSettings} {db₀ db : Database} {u : User}
  {claims : LoginJwtClaims} {asked : AccountRequests.Request}

/-- What is known of a request: it was admitted if it returns. -/
abbrev Carried (moved : Operation → Database → Prop) (claims : LoginJwtClaims) (asked : AccountRequests.Request)
    (r : Except String Unit) : Prop := ∀ a,r=.ok a → Admitted moved claims asked

theorem carried_error (e : String) : Carried moved claims asked (.error e) := fun _ h => by cases h

/-- A row whose stamp may be reset. -/
theorem saves_reset {v : User} {reset : Bool} {g : User → Action Unit}
    (hv : ∀ stamp,Traced moved {v with securityStamp := stamp}) (hg : ∀ w,Traced moved w → Saves (Traced moved) (g w)) :
    Saves (Traced moved) ((if reset=true then User.resetSecurityStamp v else pure v).bind g) := by
  have hreset : (if reset=true then User.resetSecurityStamp v else pure v).Obeys
      (fun c => ∀ s,Saved (Traced moved) s (exec c s).2) (fun _ _ => True) (Traced moved) := by
    split
    · have hdraw : Saves (Traced moved) getUuid := saves_getUuid
      refine Script.Obeys.bind hdraw fun stamp _ => ?_
      exact Script.Obeys.bind (saves_frames frames_rotateTokens) fun _ _ => hv stamp
    · exact hv v.securityStamp
  exact Script.Obeys.bind hreset hg

/-- A new password at a known time. -/
theorem acts_password {password key : Text} {reset : Bool} {routes : List Text} {g : User → Action Unit}
    (hadmitted : Admitted moved claims asked) (hu : Granted moved u.uuid ⟨routes,u.securityStamp,db.now+120⟩)
    (hs₀ : Fine moved db₀) (hs : Fine moved db) (hg : ∀ w,Traced moved w → Saves (Traced moved) (g w)) :
    Acts moved (.request claims asked) (Carried moved claims asked)
      ((User.setPassword settings.toFactorSettings u password (some key) reset (some routes)).bind g) db₀ db := by
  have hop : ∀ claims' asked',Operation.request claims asked=.request claims' asked' → Admitted moved claims' asked' := by
    intro claims' asked' h
    cases h
    exact hadmitted
  have hrow : ∀ hash stamp,Traced moved {User.setStampException (some routes) db.now {u with passwordHash := hash} with
      akey := key, securityStamp := stamp} := by
    intro hash stamp e h
    cases h
    exact hu
  unfold User.setPassword
  simp only [bind_eq,Script.bind_assoc]
  refine acts_utcNow (acts_saves hop (fun _ _ _ => hadmitted) ?_ hs₀ hs)
  exact saves_reset (hrow _) hg

/-- The handler of an admitted request, with the row that was loaded just now. -/
theorem acts_handle (hmoved : moved (.request claims asked) db) (hadmitted : Admitted moved claims asked)
    (hu : u∈db.users) (hsub : u.uuid=claims.sub) (hs₀ : Fine moved db₀) (hs : Fine moved db) :
    Acts moved (.request claims asked) (Carried moved claims asked) (asked.handle settings.toRequestSettings u) db₀ db := by
  have hop : ∀ claims' asked',Operation.request claims asked=.request claims' asked' → Admitted moved claims' asked' := by
    intro claims' asked' h
    cases h
    exact hadmitted
  have hkeeps : Keeps moved (.request claims asked) db₀ db := keeps_of_admitted hop hs
  have hgranted : ∀ routes,routesOf asked=some routes → Granted moved u.uuid ⟨routes,u.securityStamp,db.now+120⟩ :=
    fun routes h => ⟨claims,asked,db,u,routes,hmoved,hu,rfl,hsub.symm,h,rfl⟩
  cases hroutes : routesOf asked with
  | none =>
    have hsaves : Saves (Revised (setsOf asked) (routesOf asked).isSome u)
        (asked.handle settings.toRequestSettings u) := saves_handle asked
    rw [hroutes] at hsaves
    exact acts_saves hop (fun _ _ _ => hadmitted) (saves_traced (hs u hu) hsaves) hs₀ hs
  | some routes =>
    cases asked <;> cases hroutes
    · refine acts_ensure hkeeps carried_error fun _ => acts_ensure hkeeps carried_error fun _ => ?_
      exact acts_password hadmitted (hgranted _ rfl) hs₀ hs fun w hw => saves_user hw
    · rename_i out data
      refine acts_ensure hkeeps carried_error fun _ => acts_ensure hkeeps carried_error fun _ => ?_
      cases hkdf : setKdfData u data.kdf with
      | error e => exact ⟨hkeeps,carried_error e⟩
      | ok v =>
        obtain ⟨kdf,rfl⟩ := agree_setKdfData hkdf
        refine acts_password hadmitted (hgranted _ rfl) hs₀ hs fun w hw => ?_
        have hkeys : Traced moved (withKeys data.keys
            {w with passwordHint := cleanPasswordHint data.masterPasswordHint}) := by
          cases data.keys with
          | none => exact traced_of_same hw rfl rfl
          | some keys => exact traced_of_same hw rfl rfl
        refine Guards.bind (saves_frames frames_acceptIdentified) fun _ => Guards.bind ?_ fun _ => saves_user hkeys
        exact Guards.ite (fun _ => Guards.ensure _ _) fun _ => saves_frames (frames_elsewhere fun _ => rfl)

/-- An exception that has expired is removed. -/
theorem acts_clear {v : User} (hcleared : ∀ db' db'',db''.users=put User.uuid {v with stampException := none} db'.users →
      Cleared moved claims asked db' db'') (hs : Fine moved db) :
    Acts moved (.request claims asked) (fun r => ∃ e,r=.error e)
      ((StoreScript.ok (User.save settings.toSettings {v with stampException := none})).bind fun _ =>
        (Script.fail "Stamp exception is expired" : Action Unit)) db db := by
  have hsave : Acts moved (.request claims asked) (fun _ => True)
      (User.save settings.toSettings {v with stampException := none}) db db := by
    unfold User.save
    split
    · refine Responds.execute_done (keeps_refl hs) (fun db' db'' hr hc => ?_) fun db' hr _ => ⟨keeps_refl hr.1,trivial⟩
      have hput : db''.users=put User.uuid {v with stampException := none} db'.users := by rw [commit_eq hc]
      have hnone : Traced moved {v with stampException := none} := fun e h => (by cases h)
      refine ⟨⟨fine_saved (.inr ⟨_,hnone,hput⟩) hr.1,fun claims' asked' hop => ?_⟩,trivial⟩
      cases hop
      exact .inr (.inr (hcleared db' db'' hput))
    · exact ⟨keeps_refl hs,trivial⟩
  have hok : Acts moved (.request claims asked) (fun _ => True)
      (StoreScript.ok (User.save settings.toSettings {v with stampException := none})) db db :=
    Responds.ok hsave fun _ _ _ h => h
  exact Responds.bind hok (fun _ _ _ h => ⟨h.1,_,rfl⟩) fun _ _ _ h => ⟨h.1,_,rfl⟩

/-- A request, from its guard on. -/
theorem acts_request (hs : Fine moved db) :
    Acts moved (.request claims asked) (Carried moved claims asked) (asked.run settings.toRequestSettings claims) db db := by
  unfold Request.run Headers.fromRequest
  simp only [bind_eq,Script.bind_assoc]
  refine acts_lookup (keeps_refl hs) fun db₁ hs₁ hm₁ => acts_expect (keeps_refl hs₁) carried_error fun d hd => ?_
  refine acts_lookup (keeps_refl hs₁) fun db₂ hs₂ hm₂ => acts_expect (keeps_refl hs₂) carried_error fun v hv => ?_
  have hdevice := List.find?_some hd
  have huuid := List.find?_some hv
  have hmem := List.mem_of_find?_eq_some hv
  rw [decide_eq_true_eq] at hdevice huuid
  have hadmitted : (v.securityStamp=claims.sstamp ∨ Excepts moved asked.route claims.sstamp v db₂.now) →
      Admitted moved claims asked := fun h =>
    ⟨⟨db₁,d,hm₁,List.mem_of_find?_eq_some hd,hdevice⟩,db₂,v,hm₂,hmem,huuid,h⟩
  split
  case isTrue hstamp => exact acts_handle hm₂ (hadmitted (.inl hstamp)) hmem huuid hs₂ hs₂
  case isFalse =>
    unfold Headers.checkException
    simp only [bind_eq,Script.bind_assoc]
    refine acts_expect (keeps_refl hs₂) carried_error fun e he => ?_
    refine acts_expect (keeps_refl hs₂) carried_error fun route hroute => acts_utcNow ?_
    split
    case isTrue hexpired =>
      have hcleared : ∀ db' db'',db''.users=put User.uuid {v with stampException := none} db'.users →
          Cleared moved claims asked db' db'' := fun db' db'' hput => ⟨db₂,v,e,hm₂,hmem,huuid,he,hexpired,hput⟩
      refine Responds.bind (acts_clear hcleared hs₂) (fun _ _ _ h => ?_) fun _ _ _ h => ⟨h.1,carried_error _⟩
      obtain ⟨-,e,he⟩ := h
      cases he
    case isFalse hlives =>
      have hkeeps : Keeps moved (.request claims asked) db₂ db₂ := keeps_refl hs₂
      split
      case isTrue => exact ⟨hkeeps,carried_error _⟩
      case isFalse hroutes =>
        split
        case isTrue => exact ⟨hkeeps,carried_error _⟩
        case isFalse hstamp =>
          have hgranted := hs₂ v hmem e he
          have hexcepts : Excepts moved asked.route claims.sstamp v db₂.now :=
            ⟨e,route,he,hroute,of_not_not hroutes,of_not_not hstamp,Int.not_lt.mp hlives,hgranted⟩
          exact acts_handle hm₂ (hadmitted (.inr hexcepts)) hmem huuid hs₂ hs₂

/-- The rows of a handler for an account that was loaded. -/
theorem acts_found {α : Type} {op : Operation} (hop : ∀ claims asked,op≠.request claims asked)
    {sets : Field → Bool} {g : User → Action α} {f : Tables → Option User} {message : String}
    (hf : ∀ (t : Tables) v,f t=some v → v∈t.users) (hg : ∀ v,Saves (Revised sets false v) (g v)) (hs : Fine moved db) :
    Acts moved op (fun _ => True) ((lookup f).bind fun found => (expect message found).bind g) db db := by
  refine acts_lookup (keeps_refl hs) fun db₁ hs₁ _ => acts_expect (keeps_refl hs₁) (fun _ => trivial) fun v hv => ?_
  have hrow : Traced moved v := hs₁ v (hf _ v hv)
  exact acts_saves (fun claims asked h => absurd h (hop claims asked)) (fun _ => trivial) (saves_traced hrow (hg v)) hs₁ hs₁

theorem acts_verifyEmailToken {userId : Uuid} {sub : Option Uuid} (hs : Fine moved db) :
    Acts moved (.verifyEmailToken userId sub) (fun _ => True)
      (postVerifyEmailToken settings.toRequestSettings userId sub) db db := by
  exact acts_found (fun _ _ h => by cases h) (fun t v h => List.mem_of_find?_eq_some h) (fun v => saves_verified) hs

theorem acts_login {out : LoginOutside} {data : ConnectData} (hs : Fine moved db) :
    Acts moved (.login out data) (fun _ => True) (passwordLogin settings out data) db db :=
  acts_found (fun _ _ h => by cases h) (fun t v h => List.mem_of_find?_eq_some h) (fun v => saves_signIn) hs

theorem acts_refresh {exchange : Bool} {claims : RefreshJwtClaims} (hs : Fine moved db) :
    Acts moved (.refresh exchange claims) (fun _ => True) (refreshLogin settings exchange claims) db db :=
  acts_saves (fun _ _ h => by cases h) (fun _ => trivial) (saves_frames frames_refresh) hs hs

/-- A handler without tokens. -/
theorem acts_plain {op : Operation} {Q : Except String Unit → Prop} {p : Action Unit} (h : Acts moved op Q p db₀ db) :
    Acts moved op (fun r => ∀ a,r=.ok a → Q (.ok ())) (plain p) db₀ db :=
  Responds.bind h (fun _ _ _ h => ⟨h.1,fun _ _ => h.2⟩) fun _ _ _ h => ⟨h.1,fun _ he => (by cases he)⟩

theorem acts_issuing {op : Operation} {p : Action AuthTokens} (h : Acts moved op (fun _ => True) p db₀ db) :
    Acts moved op (fun _ => True) (issuing p) db₀ db :=
  Responds.bind h (fun _ _ _ h => h) fun _ _ _ h => h

/-- Every operation, if no other handler invents an exception. -/
theorem acts_body (op : Operation) (helse : ∀ handler,op=.elsewhere handler → ¬Invents handler) (hs : Fine moved db) :
    Responds exec (Relies moved (fun _ => Fine moved) op) (Keeps moved op) (Obtains moved op) (op.body settings)
      db db := by
  have hother : ∀ r db₀ db,(∀ claims asked,op≠.request claims asked) →
      Keeps moved op db₀ db ∧ True → Obtains moved op r db₀ db :=
    fun r db₀ db hop h => ⟨h.1,fun claims asked ho => absurd ho (hop claims asked)⟩
  cases op with
  | request claims asked =>
    refine (acts_plain (acts_request hs)).mono fun r db₀ db h => ⟨h.1,fun claims' asked' hop a hr => ?_⟩
    cases hop
    exact h.2 a hr () rfl
  | verifyEmailToken userId sub =>
    exact (acts_plain (acts_verifyEmailToken hs)).mono fun r db₀ db h => hother r db₀ db (fun _ _ h => by cases h) ⟨h.1,trivial⟩
  | login out data =>
    exact (acts_issuing (acts_login hs)).mono fun r db₀ db h => hother r db₀ db (fun _ _ h => by cases h) h
  | refresh exchange claims =>
    exact (acts_issuing (acts_refresh hs)).mono fun r db₀ db h => hother r db₀ db (fun _ _ h => by cases h) h
  | elsewhere handler =>
    have hkeeps := of_not_not (helse handler rfl) (Granted moved) db hs
    have hlawful : ∀ db₀ db,Fine moved db → Keeps moved (.elsewhere handler) db₀ db :=
      fun _ _ h => keeps_of_admitted (fun _ _ ho => by cases ho) h
    have hacts : Acts moved (.elsewhere handler) (fun _ => True) handler db db := by
      refine (responds_weaken hlawful (responds_relying (fun _ _ h => h.1) hkeeps)).mono fun _ db₀ db h => ?_
      exact ⟨hlawful db₀ db h,trivial⟩
    exact (acts_plain hacts).mono fun r db₀ db h => hother r db₀ db (fun _ _ h => by cases h) ⟨h.1,trivial⟩

end Handlers

section Runs

variable {settings : SessionSettings} {start : Database} {events : List (Event Operation Unit)}
  {history later : List Step} {m : Step}

/-- The operations keep their guarantees as long as no other handler invents an
exception. -/
theorem contract {moved : Operation → Database → Prop}
    (helse : ∀ handler db,moved (.elsewhere handler) db → ¬Invents handler) :
    Contract (server settings) moved (Fine moved) (fun _ => Fine moved) (Keeps moved) (Obtains moved) := by
  have hended : ∀ op (p : Script (Statement Database) Statement.Answer Unit String
      (Except String (Option AuthTokens))) db db',Ended (Keeps moved op) (Obtains moved op) p db db' →
        Fine moved db' := by
    intro op p db db' h
    rcases ended_cases h with hkeeps|⟨a,ha⟩
    · exact hkeeps.1
    · exact ha.1.1
  refine ⟨fun op db hdb hm => ?_,fun _ hdb => hdb,fun _ _ _ _ h => h,?_,?_⟩
  · have hknown : ∀ handler,op=.elsewhere handler → ¬Invents handler := by
      rintro handler rfl
      exact helse handler db hm
    exact (acts_body op hknown hdb).bears
  · exact fun op p db db' _ _ h => hended op p db db' h
  · exact fun op p db db' _ _ h => hended op p db db' h

end Runs

section Samples

end Samples

end NadSafe.StampRuns
