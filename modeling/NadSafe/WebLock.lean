import NadSafe.WrappedCopies

/-!
# What a locked tab still holds

`lockVault` drops the keys and the decrypted vault in one segment. Every
producer of decrypted data writes its results after its last suspension
without looking at the lock again, and `completeUnlock` installs the user
key before it waits for the RSA key. This module finds the moments at which
these are harmless and shows that they are the only exceptions: under them a
locked tab holds no item, folder, collection or key in any reachable state.
-/

namespace NadSafe.WebLock

open HostText AsyncScript AsyncScript.Script ScriptPool WireFormat WebCrypto WebClient WebScripts
open WebOperations WebContracts WebFootprint KeyAliasing WrappedCopies

variable {platform : Platform}

/-- A locked tab holds no decrypted data and no key. -/
def LockedClean (s : WebState) : Prop :=
  s.auth.isLocked=true → s.vault=.empty ∧ s.userKey=none ∧ s.rsaKey=none

/-- A call that puts a key into the session. -/
def installs (c : WebCall) : Prop := effect c∈[.install,.installRsa]

/-- A call that unlocks the auth store. -/
def unlocks (c : WebCall) : Prop := effect c=.unlock

/-- The two conditions. A lock lands only when no operation in flight still
writes decrypted data; and a step that installs a key and then waits before
it unlocks is taken only in an unlocked tab. -/
def LockClean (P : WebPool) : WebEvent → Prop
  | .start .lockVault => ∀ t∈P.threads,t.rest.Never (isGoal [.vaultWrite])
  | .start _ => True
  | .resume n i => ∀ t k,P.threads[n]?=some t → t.rest=.await k →
    (k i).Exposes installs unlocks → P.shared.auth.isLocked=false

/-- The assertion inside a segment that started in `s₀`. While the tab is
locked, the keys are gone and the text ahead exposes none, or the text ahead
unlocks before it stops. -/
structure Tidy (s₀ : WebState) (p : Web (Option Text)) (s : WebState) : Prop where
  /-- The text never locks. -/
  unlocked : p.Never (isGoal [.lock])
  /-- No lock happened in the segment. -/
  same : s.auth.isLocked=true → s₀.auth.isLocked=true
  /-- No decrypted data is written while locked. -/
  writes : s.auth.isLocked=true → p.Never (isGoal [.vaultWrite])
  /-- There is no decrypted data while locked. -/
  vault : s.auth.isLocked=true → s.vault=.empty
  /-- There is no key while locked, or it is about to be unlocked. -/
  keys : s.auth.isLocked=true →
    (s.userKey=none ∧ s.rsaKey=none ∧ ¬p.Exposes installs unlocks) ∨ ¬p.StopsBefore unlocks

/-- What a call leaves of a locked tab, by its effect. -/
theorem exec_locked {c : WebCall} {s : WebState} (hl : effect c≠.lock)
    (h : (exec c s).2.auth.isLocked=true) :
    s.auth.isLocked=true ∧ effect c≠.unlock ∧ (effect c≠.vaultWrite → s.vault=.empty →
      (exec c s).2.vault=.empty) ∧ (¬installs c → s.userKey=none → s.rsaKey=none →
      (exec c s).2.userKey=none ∧ (exec c s).2.rsaKey=none) := by
  cases c with
  | lock => exact absurd rfl hl
  | unlock token => cases h
  | login user accessToken refreshToken encryptedUserKey encryptedPrivateKey => cases h
  | logout => cases h
  | setItems items => exact ⟨h,by simp,fun hw => absurd rfl hw,fun _ hu hr => ⟨hu,hr⟩⟩
  | setFolders folders => exact ⟨h,by simp,fun hw => absurd rfl hw,fun _ hu hr => ⟨hu,hr⟩⟩
  | setCollections cs => exact ⟨h,by simp,fun hw => absurd rfl hw,fun _ hu hr => ⟨hu,hr⟩⟩
  | setSessionUserKey key => exact ⟨h,by simp,fun _ hv => hv,fun hi => absurd (by simp [installs]) hi⟩
  | setSessionRsaKey key => exact ⟨h,by simp,fun _ hv => hv,fun hi => absurd (by simp [installs]) hi⟩
  | clearVault => exact ⟨h,by simp,fun _ _ => rfl,fun _ hu hr => ⟨hu,hr⟩⟩
  | clearSessionKey =>
    dsimp only [exec,WebState.clearSessionKey] at h ⊢
    split at h
    · exact ⟨h,by simp,fun _ hv => hv,fun _ _ _ => ⟨rfl,rfl⟩⟩
    · exact ⟨h,by simp,fun _ hv => hv,fun _ hu _ => ⟨hu,rfl⟩⟩
  | fetch client method path noAuth body =>
    exact ⟨h,by cases body <;> simp,fun _ hv => hv,fun _ hu hr => ⟨hu,hr⟩⟩
  | _ => exact ⟨h,by simp,fun _ hv => hv,fun _ hu hr => ⟨hu,hr⟩⟩

/-- Every call carries the assertion on. -/
theorem tidy_call (s₀ : WebState) (c : WebCall) (k : c.Answer → Web (Option Text)) (s : WebState)
    (h : Tidy s₀ (.call c k) s) : Tidy s₀ (k (exec c s).1) (exec c s).2 := by
  have hl : effect c≠.lock := fun he => h.unlocked.1 (List.mem_singleton.mpr he)
  refine ⟨h.unlocked.2 _ trivial,fun hs => ?_,fun hs => ?_,fun hs => ?_,fun hs => ?_⟩
  · exact h.same (exec_locked hl hs).1
  · exact (h.writes (exec_locked hl hs).1).2 _ trivial
  · obtain ⟨hlocked,-,hvault,-⟩ := exec_locked hl hs
    have hw : effect c≠.vaultWrite := fun he => (h.writes hlocked).1 (List.mem_singleton.mpr he)
    exact hvault hw (h.vault hlocked)
  · obtain ⟨hlocked,hu,-,hkeys⟩ := exec_locked hl hs
    rcases h.keys hlocked with ⟨hk,hr,hx⟩|hx
    · by_cases hi : installs c
      · exact .inr fun hstop => hx (.inl ⟨hi,_,hstop⟩)
      · obtain ⟨hk',hr'⟩ := hkeys hi hk hr
        exact .inl ⟨hk',hr',fun he => hx (.inr ⟨_,he⟩)⟩
    · exact .inr fun hstop => hx ⟨hu,_,hstop⟩

/-- What holds of every operation in flight. -/
def TidyRest (_ : WebOp) (p : Web (Option Text)) (s : WebState) : Prop :=
  p.Never (isGoal [.lock]) ∧ (s.auth.isLocked=true → p.Never (isGoal [.vaultWrite]))

/-- A segment ends clean, and the operations that did not move keep their
assertion. -/
theorem Tidy.segment {s₀ s' : WebState} {op : WebOp} {p : Web (Option Text)} (h : Tidy s₀ p s')
    (hstop : p.StopsBefore unlocks)
    {other : List (Thread WebCall WebCall.Answer Arrived Text (Option Text) WebOp)}
    (hother : ∀ t∈other,TidyRest t.origin t.rest s₀) :
    System.Segment LockedClean TidyRest op p s' other := by
  refine ⟨fun hs => ?_,⟨h.unlocked,h.writes⟩,fun t ht => ?_⟩
  · rcases h.keys hs with ⟨hk,hr,-⟩|hx
    · exact ⟨h.vault hs,hk,hr⟩
    · exact absurd hstop hx
  · exact ⟨(hother t ht).1,fun hs => (hother t ht).2 (h.same hs)⟩

/-- Key derivation suspends at once. -/
theorem deriveLoginKeys_suspends (password email : Text) (params : KdfParams) :
    ∃ k,deriveLoginKeys platform password email params=.await k := by
  have hmaster : ∃ k,deriveMasterKey platform password email params=.await k := by
    unfold deriveMasterKey
    dsimp only
    split
    · split
      · exact ⟨_,rfl⟩
      · exact ⟨_,rfl⟩
    · exact ⟨_,rfl⟩
  obtain ⟨k,hk⟩ := hmaster
  rw [deriveLoginKeys,hk]
  exact ⟨_,rfl⟩

/-- No operation exposes a key in its first segment. -/
theorem body_not_exposes (op : WebOp) : ¬(body platform op).Exposes installs unlocks := by
  have hidle (hop : ∀ e∈effects op,e∉[.install,.installRsa]) :
      ¬(body platform op).Exposes installs unlocks :=
    (body_never hop).not_exposes
  cases op with
  | passwordUnlock password =>
    rintro (⟨hc,-⟩|⟨page,hpage⟩)
    · simp [installs] at hc
    · dsimp only [Script.bind] at hpage
      cases hu : page.user with
      | none => rw [hu] at hpage; exact hpage
      | some user =>
        obtain ⟨k,hk⟩ := @deriveLoginKeys_suspends platform password user.email user.params
        rw [hu] at hpage
        dsimp only at hpage
        rw [hk] at hpage
        exact hpage
  | pinUnlock pin =>
    rintro (⟨hc,-⟩|⟨page,hpage⟩)
    · simp [installs] at hc
    · rcases hpage with ⟨hc,-⟩|⟨blob,hblob⟩
      · simp [installs] at hc
      · cases blob with
        | none => exact hblob
        | some blob =>
          rcases hblob with ⟨hc,-⟩|⟨attempts,h⟩
          · simp [installs] at hc
          · exact h
  | adoptSession => exact id
  | _ => exact hidle (by simp)

/-- In a locked clean tab the guarded operations stop at their guard. -/
theorem guarded_locked {s : WebState} (hk : s.userKey=none) (locked : Text)
    (task : KeyRef → Web (Option Text)) : settle exec (withSessionKey locked task) s=(done (some locked),s) := by
  have hget : s.getSessionUserKey=none := by
    rw [WebState.getSessionUserKey,hk]
    rfl
  rw [settle_withSessionKey,hget]

/-- Every operation other than a lock keeps the tab clean in its first
segment. -/
theorem start_segment {op : WebOp} (hop : .lock∉effects op) {P : WebPool}
    (hP : System.Holds LockedClean TidyRest P) :
    System.Segment LockedClean TidyRest op (settle exec (body platform op) P.shared).1
      (settle exec (body platform op) P.shared).2 P.threads := by
  have hn : (body platform op).Never (isGoal [.lock]) :=
    body_never fun e he hl => hop (List.mem_singleton.mp hl ▸ he)
  have htidy (h : P.shared.auth.isLocked=true → (body platform op).Never (isGoal [.vaultWrite])) :
      System.Segment LockedClean TidyRest op (settle exec (body platform op) P.shared).1
        (settle exec (body platform op) P.shared).2 P.threads := by
    have hstart : Tidy P.shared (body platform op) P.shared :=
      ⟨hn,id,h,fun hs => (hP.shared hs).1,
        fun hs => .inl ⟨(hP.shared hs).2.1,(hP.shared hs).2.2,body_not_exposes op⟩⟩
    exact (settle_carries (tidy_call P.shared) hstart).segment (settle_stops _ _ _) hP.threads
  have hidle (hw : .vaultWrite∉effects op) := htidy fun _ =>
    body_never fun e he hv => hw (List.mem_singleton.mp hv ▸ he)
  cases hl : P.shared.auth.isLocked with
  | false => exact htidy fun hs => absurd hs (by simp [hl])
  | true =>
    have hkey := (hP.shared hl).2.1
    have hstay (message : Option Text) : System.Segment LockedClean TidyRest op
        (done message) P.shared P.threads := ⟨hP.shared,⟨trivial,fun _ => trivial⟩,hP.threads⟩
    cases op with
    | doSync =>
      have he : settle exec (body platform .doSync) P.shared=_ := guarded_locked hkey _ _
      rw [he]
      exact hstay _
    | extensionSave payload =>
      have he : body platform (.extensionSave payload)=_ := withSessionKey_rescue _ _ _
      rw [he,guarded_locked hkey]
      exact hstay _
    | lockVault => exact absurd (by simp) hop
    | _ => exact hidle (by simp)

/-- The three calls of a lock leave nothing. -/
theorem lock_clean (s : WebState) : LockedClean (settle exec (body platform .lockVault) s).2 := by
  intro _
  change VaultState.empty=VaultState.empty ∧ s.clearSessionKey.userKey=none ∧
    s.clearSessionKey.rsaKey=none
  refine ⟨rfl,?_⟩
  unfold WebState.clearSessionKey
  split
  · exact ⟨rfl,rfl⟩
  · rename_i hk
    exact ⟨hk,rfl⟩

/-- One step of the client keeps a locked tab clean. -/
theorem step_lockedClean (P : WebPool) (e : WebEvent) (hP : System.Holds LockedClean TidyRest P)
    (hok : LockClean P e) : System.Holds LockedClean TidyRest ((webSystem platform).step P e) := by
  cases e with
  | start op =>
    apply System.Holds.start
    by_cases hop : .lock∈effects op
    · cases op with
      | lockVault =>
        refine ⟨@lock_clean platform P.shared,⟨trivial,fun _ => trivial⟩,fun t ht => ?_⟩
        exact ⟨(hP.threads t ht).1,fun _ => hok t ht⟩
      | _ => simp at hop
    · exact start_segment hop hP
  | resume n i =>
    refine hP.resume fun t ht => ?_
    have hrest := hP.threads t (List.mem_of_getElem? ht)
    have hother : ∀ u∈P.threads.eraseIdx n,TidyRest u.origin u.rest P.shared :=
      fun u hu => hP.threads u (List.mem_of_mem_eraseIdx hu)
    have hstay : System.Segment LockedClean TidyRest t.origin t.rest P.shared
        (P.threads.eraseIdx n) := ⟨hP.shared,hrest,hother⟩
    cases hk : t.rest with
    | await k =>
      rw [hk] at hrest
      have hstart : Tidy P.shared (k i) P.shared := by
        refine ⟨hrest.1 i,id,fun hs => hrest.2 hs i,fun hs => (hP.shared hs).1,fun hs => ?_⟩
        refine .inl ⟨(hP.shared hs).2.1,(hP.shared hs).2.2,fun hx => ?_⟩
        exact absurd (hok t k ht hk hx) (by simp [hs])
      exact (settle_carries (tidy_call P.shared) hstart).segment (settle_stops _ _ _) hother
    | done a => rw [hk] at hstay; exact hstay
    | fail message => rw [hk] at hstay; exact hstay
    | call c k => rw [hk] at hstay; exact hstay

/-- In every run that meets the two conditions, a locked tab holds no items,
folders, collections, user key or RSA key in the state reached. -/
theorem locked_tab_clean (platform : Platform) (auth : AuthState) (storage : LocalStorage)
    (origin : Text) (entropy : ℕ → UInt8) (events : List WebEvent)
    (hok : (webSystem platform).Admits LockClean ⟨.loaded auth storage origin entropy,[]⟩ events)
    (s : WebState)
    (hs : s=((webSystem platform).run ⟨.loaded auth storage origin entropy,[]⟩ events).shared)
    (hlocked : s.auth.isLocked=true) :
    s.vault.items=[] ∧ s.vault.folders=[] ∧ s.vault.collections=[] ∧ s.userKey=none ∧
      s.rsaKey=none := by
  have hstart : System.Holds LockedClean TidyRest
      (⟨.loaded auth storage origin entropy,[]⟩ : WebPool) :=
    ⟨fun _ => ⟨rfl,rfl,rfl⟩,fun t ht => absurd ht List.not_mem_nil⟩
  have hclean := (StepRuns.run_invariant step_lockedClean hstart hok).shared
  rw [←hs] at hclean
  obtain ⟨hvault,hkey,hrsa⟩ := hclean hlocked
  rw [hvault]
  exact ⟨rfl,rfl,rfl,hkey,hrsa⟩

section Samples

/-- A folder named `n`, encrypted under the sample key. -/
def sampleFolder : Folder :=
  ⟨"f".toList,serializeEncString (sealed transparent sampleKey (List.replicate 16 0) (utf8 "n".toList))⟩

/-- A sync up to its last suspension. -/
def syncing : List WebEvent :=
  [.start .adoptSession,arrive 0 (.keyResponse samplePayload),.start .doSync,
    arrive 1 (.response 200 []),arrive 1 (.body (.sync ⟨none,some [sampleFolder],none⟩))]++settleTimes 1 3

/-- The lock lands before the last promise of the sync settles. -/
def lockDuringSync : List WebEvent := syncing++[Event.start WebOp.lockVault]++settleTimes 1 1

/-- The locked tab holds the decrypted folder. -/
theorem locked_tab_holds_folder :
    ((webSystem transparent).run sampleTab lockDuringSync).shared.auth.isLocked=true ∧
      ((webSystem transparent).run sampleTab lockDuringSync).shared.vault.folders=
        [⟨"f".toList,"n".toList⟩] := by
  decide

/-- The lock lands after the sync. -/
def lockAfterSync : List WebEvent := syncing++settleTimes 1 1++[Event.start WebOp.lockVault]

/-- A run in which nothing locks and which never finds the tab locked. -/
def staysUnlocked : WebPool → List WebEvent → Bool
  | _,[] => true
  | P,e::events =>
    locksNothing e && !P.shared.auth.isLocked && staysUnlocked ((webSystem transparent).step P e) events

theorem lockClean_of_unlocked {e : WebEvent} (h : locksNothing e=true) {P : WebPool}
    (hP : P.shared.auth.isLocked=false) : LockClean P e := by
  cases e with
  | start op =>
    cases op with
    | lockVault => cases h
    | _ => trivial
  | resume n i => exact fun _ _ _ _ _ => hP

theorem staysUnlocked_admits {P : WebPool} {events : List WebEvent}
    (h : staysUnlocked P events=true) : (webSystem transparent).Admits LockClean P events := by
  induction events generalizing P with
  | nil => trivial
  | cons e events ih =>
    rw [staysUnlocked,Bool.and_eq_true,Bool.and_eq_true] at h
    exact ⟨lockClean_of_unlocked h.1.1 (by simpa using h.1.2),ih h.2⟩

theorem synced_settled :
    ∀ t∈((webSystem transparent).run sampleTab (syncing++settleTimes 1 1)).threads,
      t.rest.settled=true := by
  decide

theorem lockAfterSync_clean : (webSystem transparent).Admits LockClean sampleTab lockAfterSync := by
  have hsync : staysUnlocked sampleTab (syncing++settleTimes 1 1)=true := by decide
  refine (staysUnlocked_admits hsync).append ⟨fun t ht => ?_,trivial⟩
  exact Never.of_settled (synced_settled t ht)

theorem lockAfterSync_locked :
    ((webSystem transparent).run sampleTab lockAfterSync).shared.auth.isLocked=true := by
  decide

theorem locked_tab_clean_sample :
    ((webSystem transparent).run sampleTab (syncing++settleTimes 1 1)).shared.vault.folders≠[] ∧
      ((webSystem transparent).run sampleTab lockAfterSync).shared.vault.folders=[] := by
  constructor
  · decide
  · exact (locked_tab_clean transparent sampleAuth ⟨none,none,none⟩ [] (fun _ => 0) _
      lockAfterSync_clean _ rfl lockAfterSync_locked).2.1

end Samples

end NadSafe.WebLock
