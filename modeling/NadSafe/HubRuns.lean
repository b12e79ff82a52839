import NadSafe.UpdateHub
import Mathlib.Data.List.Perm.Subperm

/-!
# Which updates reach a connection

In every run a connection gets packets for its account only, and from each call
no more than one for each time that the account is asked for. If it stays in
the map and keeps its receiver from before a call until the call has returned,
it gets exactly these, and calls that follow each other come in their order. A
connection that does not read stops the calls for its account: at most 100 of
them return.
-/

namespace NadSafe.HubRuns

open HostText ServerTables StepRuns UpdateHub

/-- What holds at any time. -/
structure Sound (h : Hub) : Prop where
  /-- The map lists channels of the account. -/
  mapped : ∀ user,∀ entry∈h.map user,∃ ch,h.channels entry=some ch ∧ ch.user=user
  /-- Each of them once. -/
  nodup : ∀ user,(h.map user).Nodup
  /-- A call sends to channels that exist. -/
  entries : ∀ id c,h.calls id=some c → ∀ entry∈c.entries,∃ ch,h.channels entry=some ch
  /-- Accounts are still to be looked up only if they were asked for. -/
  users : ∀ id c,h.calls id=some c → ∀ user,c.users.count user ≤ c.asked.count user
  /-- A call sends to a channel once for each time that the account is asked for. -/
  copies : ∀ entry ch,h.channels entry=some ch → ∀ id c,h.calls id=some c →
    ch.copies id+c.owes entry ch.user ≤ c.asked.count ch.user
  /-- Packets are sent by calls, with their content. -/
  packets : ∀ entry ch,h.channels entry=some ch → ∀ p∈ch.packets,∃ c,h.calls p.call=some c ∧ c.data=p.data
  /-- No more than 100 wait. -/
  room : ∀ entry ch,h.channels entry=some ch → ch.queue.length ≤ 100

/-- A connection is in the map and reads. -/
def Attached (h : Hub) (entry user : Uuid) : Prop :=
  entry∈h.map user ∧ ∃ ch,h.channels entry=some ch ∧ ch.user=user ∧ ch.receiving=true

section Lookups

variable {h : Hub} {entry other : Uuid} {id id' : ℕ} {ch : Channel} {c : Call}

@[simp] theorem setChannel_channels :
    (h.setChannel entry ch).channels other=if other=entry then some ch else h.channels other := by
  unfold Hub.setChannel
  exact Function.update_apply ..

@[simp] theorem setChannel_map : (h.setChannel entry ch).map=h.map := rfl

@[simp] theorem setChannel_calls : (h.setChannel entry ch).calls=h.calls := rfl

@[simp] theorem setCall_calls : (h.setCall id c).calls id'=if id'=id then some c else h.calls id' := by
  unfold Hub.setCall
  exact Function.update_apply ..

@[simp] theorem setCall_map : (h.setCall id c).map=h.map := rfl

@[simp] theorem setCall_channels : (h.setCall id c).channels=h.channels := rfl

end Lookups

section Copies

variable {h : Hub} {ch : Channel} {id : ℕ}

/-- A call that has not begun has sent nothing. -/
theorem Sound.copies_eq_zero (hs : Sound h) {entry : Uuid} (hch : h.channels entry=some ch) (hid : h.calls id=none) :
    ch.copies id=0 := by
  unfold Channel.copies
  refine List.count_eq_zero.mpr fun hmem => ?_
  obtain ⟨p,hp,rfl⟩ := List.mem_map.mp hmem
  obtain ⟨c,hc,-⟩ := hs.packets entry ch hch p hp
  rw [hid] at hc
  cases hc

/-- One more packet. -/
theorem copies_push (p : Packet) (id : ℕ) :
    ({ch with queue := ch.queue++[p]} : Channel).copies id=ch.copies id+if p.call=id then 1 else 0 := by
  unfold Channel.copies Channel.packets
  rw [← List.append_assoc,List.map_append,List.count_append,List.map_singleton,List.count_singleton]
  simp

/-- Channels of the list of another account are not on it. -/
theorem Sound.user_eq (hs : Sound h) {entry user : Uuid} (hentry : entry∈h.map user)
    (hch : h.channels entry=some ch) : ch.user=user := by
  obtain ⟨ch',hch',huser⟩ := hs.mapped user entry hentry
  rw [hch] at hch'
  cases hch'
  exact huser

end Copies

section Soundness

variable {h : Hub}

theorem sound_start : Sound Hub.start where
  mapped _ _ he := by cases he
  nodup _ := List.nodup_nil
  entries _ _ hc := by cases hc
  users _ _ hc := by cases hc
  copies _ _ hch := by cases hch
  packets _ _ hch := by cases hch
  room _ _ hch := by cases hch

/-- A channel with the same packets, of which fewer wait. -/
theorem Sound.replace (hs : Sound h) {entry : Uuid} {ch ch' : Channel} (hch : h.channels entry=some ch)
    (huser : ch'.user=ch.user) (hpackets : ch'.packets=ch.packets) (hroom : ch'.queue.length ≤ ch.queue.length) :
    Sound (h.setChannel entry ch') where
  mapped user e he := by
    obtain ⟨ch₀,hch₀,huser₀⟩ := hs.mapped user e he
    rw [setChannel_channels]
    split
    · rename_i hsame
      subst hsame
      rw [hch] at hch₀
      cases hch₀
      exact ⟨ch',rfl,huser.trans huser₀⟩
    · exact ⟨ch₀,hch₀,huser₀⟩
  nodup := hs.nodup
  entries id c hc e he := by
    obtain ⟨ch₀,hch₀⟩ := hs.entries id c hc e he
    rw [setChannel_channels]
    split
    · exact ⟨ch',rfl⟩
    · exact ⟨ch₀,hch₀⟩
  users := hs.users
  copies e ch₀ hch₀ id c hc := by
    rw [setChannel_channels] at hch₀
    split at hch₀
    · rename_i hsame
      subst hsame
      cases hch₀
      have hcopies := hs.copies e ch hch id c hc
      unfold Channel.copies at *
      rwa [huser,hpackets]
    · exact hs.copies e ch₀ hch₀ id c hc
  packets e ch₀ hch₀ p hp := by
    rw [setChannel_channels] at hch₀
    split at hch₀
    · rename_i hsame
      subst hsame
      cases hch₀
      rw [hpackets] at hp
      exact hs.packets e ch hch p hp
    · exact hs.packets e ch₀ hch₀ p hp
  room e ch₀ hch₀ := by
    rw [setChannel_channels] at hch₀
    split at hch₀
    · rename_i hsame
      subst hsame
      cases hch₀
      exact hroom.trans (hs.room e ch hch)
    · exact hs.room e ch₀ hch₀

theorem Sound.connect (hs : Sound h) (entry user : Uuid) : Sound (h.connect entry user) := by
  unfold Hub.connect
  split
  · exact hs
  rename_i hnone
  have hnew : ∀ {e ch},h.channels e=some ch → e≠entry := by
    rintro e ch hch rfl
    rw [hnone] at hch
    cases hch
  have hout : ∀ {u},entry∉h.map u := by
    intro u he
    obtain ⟨ch,hch,-⟩ := hs.mapped u entry he
    exact hnew hch rfl
  constructor
  · intro u e he
    change ∃ ch,(h.setChannel entry ⟨user,[],true,[]⟩).channels e=some ch ∧ ch.user=u
    rw [setChannel_channels]
    change e∈Function.update h.map user (h.map user++[entry]) u at he
    rw [Function.update_apply] at he
    split at he
    · rename_i hsame
      rcases List.mem_append.mp he with he|he
      · obtain ⟨ch,hch,huser⟩ := hs.mapped user e he
        rw [if_neg (hnew hch)]
        exact ⟨ch,hch,huser.trans hsame.symm⟩
      · rw [if_pos (List.mem_singleton.mp he)]
        exact ⟨_,rfl,hsame.symm⟩
    · obtain ⟨ch,hch,huser⟩ := hs.mapped u e he
      rw [if_neg (hnew hch)]
      exact ⟨ch,hch,huser⟩
  · intro u
    change (Function.update h.map user (h.map user++[entry]) u).Nodup
    rw [Function.update_apply]
    split
    · rw [List.nodup_append]
      refine ⟨hs.nodup user,List.nodup_singleton _,?_⟩
      rintro e he e' he' rfl
      rw [List.mem_singleton.mp he'] at he
      exact hout he
    · exact hs.nodup u
  · intro id c hc e he
    change ∃ ch,(h.setChannel entry ⟨user,[],true,[]⟩).channels e=some ch
    obtain ⟨ch,hch⟩ := hs.entries id c hc e he
    rw [setChannel_channels,if_neg (hnew hch)]
    exact ⟨ch,hch⟩
  · exact hs.users
  · intro e ch hch id c hc
    change (h.setChannel entry ⟨user,[],true,[]⟩).channels e=some ch at hch
    rw [setChannel_channels] at hch
    split at hch
    · rename_i hsame
      subst hsame
      cases hch
      have hnot : e∉c.entries := by
        intro he
        obtain ⟨ch,hch⟩ := hs.entries id c hc e he
        exact hnew hch rfl
      have husers := hs.users id c hc user
      unfold Call.owes
      rw [List.count_eq_zero.mpr hnot]
      change 0+(c.users.count user+0) ≤ c.asked.count user
      omega
    · exact hs.copies e ch hch id c hc
  · intro e ch hch p hp
    change (h.setChannel entry ⟨user,[],true,[]⟩).channels e=some ch at hch
    rw [setChannel_channels] at hch
    split at hch
    · cases hch
      cases hp
    · exact hs.packets e ch hch p hp
  · intro e ch hch
    change (h.setChannel entry ⟨user,[],true,[]⟩).channels e=some ch at hch
    rw [setChannel_channels] at hch
    split at hch
    · cases hch
      exact Nat.zero_le _
    · exact hs.room e ch hch

theorem Sound.leave (hs : Sound h) (entry : Uuid) : Sound (h.leave entry) := by
  unfold Hub.leave
  split
  · rename_i ch hch
    have hsub : ∀ u,(Function.update h.map ch.user ((h.map ch.user).filter (· ≠ entry)) u).Sublist (h.map u) := by
      intro u
      rw [Function.update_apply]
      split
      · rename_i hsame
        subst hsame
        exact List.filter_sublist ..
      · exact List.Sublist.refl _
    exact ⟨fun u e he => hs.mapped u e ((hsub u).subset he),fun u => (hsub u).nodup (hs.nodup u),hs.entries,hs.users,
      hs.copies,hs.packets,hs.room⟩
  · exact hs

theorem Sound.hangUp (hs : Sound h) (entry : Uuid) : Sound (h.hangUp entry) := by
  unfold Hub.hangUp
  split
  · rename_i ch hch
    exact hs.replace hch rfl rfl le_rfl
  · exact hs

theorem Sound.take (hs : Sound h) (entry : Uuid) : Sound (h.take entry) := by
  unfold Hub.take
  split
  · rename_i user packet queue got hch
    refine hs.replace hch rfl ?_ (Nat.le_succ _)
    unfold Channel.packets
    rw [List.append_assoc]
    rfl
  · exact hs

theorem Sound.call (hs : Sound h) (id : ℕ) (users : List Uuid) (data : Bytes) : Sound (h.call id users data) := by
  unfold Hub.call
  split
  · exact hs
  rename_i hnone
  constructor
  · exact hs.mapped
  · exact hs.nodup
  · intro id' c hc e he
    rw [setCall_calls] at hc
    split at hc
    · cases hc
      cases he
    · exact hs.entries id' c hc e he
  · intro id' c hc user
    rw [setCall_calls] at hc
    split at hc
    · cases hc
      exact le_rfl
    · exact hs.users id' c hc user
  · intro e ch hch id' c hc
    rw [setCall_calls] at hc
    split at hc
    · rename_i hsame
      subst hsame
      cases hc
      rw [hs.copies_eq_zero hch hnone]
      unfold Call.owes
      rw [List.count_nil]
      dsimp only
      omega
    · exact hs.copies e ch hch id' c hc
  · intro e ch hch p hp
    obtain ⟨c,hc,hdata⟩ := hs.packets e ch hch p hp
    have hother : p.call≠id := by
      rintro rfl
      rw [hnone] at hc
      cases hc
    rw [setCall_calls,if_neg hother]
    exact ⟨c,hc,hdata⟩
  · exact hs.room

/-- A call proceeds. -/
theorem Sound.proceed (hs : Sound h) {id : ℕ} {c c' : Call} (hc : h.calls id=some c) (hdata : c'.data=c.data)
    (hasked : c'.asked=c.asked) (hentries : ∀ e∈c'.entries,∃ ch,h.channels e=some ch)
    (husers : ∀ user,c'.users.count user ≤ c.users.count user)
    (howes : ∀ e ch,h.channels e=some ch → c'.owes e ch.user ≤ c.owes e ch.user) : Sound (h.setCall id c') := by
  constructor
  · exact hs.mapped
  · exact hs.nodup
  · intro id' c₀ hc₀ e he
    rw [setCall_calls] at hc₀
    split at hc₀
    · cases hc₀
      exact hentries e he
    · exact hs.entries id' c₀ hc₀ e he
  · intro id' c₀ hc₀ user
    rw [setCall_calls] at hc₀
    split at hc₀
    · cases hc₀
      rw [hasked]
      exact (husers user).trans (hs.users id c hc user)
    · exact hs.users id' c₀ hc₀ user
  · intro e ch hch id' c₀ hc₀
    rw [setCall_calls] at hc₀
    split at hc₀
    · rename_i hsame
      subst hsame
      cases hc₀
      have hcopies := hs.copies e ch hch id' c hc
      have hfewer := howes e ch hch
      rw [hasked]
      omega
    · exact hs.copies e ch hch id' c₀ hc₀
  · intro e ch hch p hp
    obtain ⟨c₀,hc₀,hdata₀⟩ := hs.packets e ch hch p hp
    rw [setCall_calls]
    split
    · rename_i hsame
      rw [hsame,hc] at hc₀
      cases hc₀
      exact ⟨c',rfl,hdata.trans hdata₀⟩
    · exact ⟨c₀,hc₀,hdata₀⟩
  · exact hs.room

/-- What a call owes a channel when it has looked up an account. -/
theorem Sound.owes_lookUp (hs : Sound h) {data : Bytes} {asked users : List Uuid} {user entry : Uuid} {ch : Channel}
    (hch : h.channels entry=some ch) :
    (⟨data,asked,users,h.map user⟩ : Call).owes entry ch.user ≤
      (⟨data,asked,user::users,[]⟩ : Call).owes entry ch.user := by
  have hone := List.nodup_iff_count_le_one.mp (hs.nodup user) entry
  unfold Call.owes
  rw [List.count_nil,List.count_cons]
  by_cases hmem : entry∈h.map user
  · have huser := hs.user_eq hmem hch
    rw [if_pos (by simp [huser])]
    dsimp only
    omega
  · rw [List.count_eq_zero.mpr hmem]
    dsimp only
    omega

theorem Sound.lookUp (hs : Sound h) (id : ℕ) : Sound (h.lookUp id) := by
  unfold Hub.lookUp
  split
  · rename_i data asked user users hc
    refine hs.proceed hc rfl rfl (fun e he => ?_) (fun u => ?_) fun e ch hch => hs.owes_lookUp hch
    · obtain ⟨ch,hch,-⟩ := hs.mapped user e he
      exact ⟨ch,hch⟩
    · rw [List.count_cons]
      dsimp only
      omega
  · exact hs

theorem Sound.send (hs : Sound h) (id : ℕ) : Sound (h.send id) := by
  unfold Hub.send
  split
  rotate_left
  · exact hs
  rename_i data asked users entry entries hc
  split
  rotate_left
  · exact hs
  rename_i ch hch
  have hskipped : Sound (h.setCall id ⟨data,asked,users,entries⟩) :=
    hs.proceed hc rfl rfl (fun e he => hs.entries id _ hc e (List.mem_cons_of_mem _ he)) (fun _ => le_rfl)
      fun e ch _ => by
        unfold Call.owes
        rw [List.count_cons]
        dsimp only
        omega
  split
  · exact hskipped
  split
  rotate_left
  · exact hs
  rename_i hroom
  constructor
  · intro u e he
    obtain ⟨ch₀,hch₀,huser⟩ := hskipped.mapped u e he
    rw [setChannel_channels]
    split
    · rename_i hsame
      subst hsame
      change h.channels e=some ch₀ at hch₀
      rw [hch] at hch₀
      cases hch₀
      exact ⟨_,rfl,huser⟩
    · exact ⟨ch₀,hch₀,huser⟩
  · exact hskipped.nodup
  · intro id' c hc e he
    obtain ⟨ch₀,hch₀⟩ := hskipped.entries id' c hc e he
    rw [setChannel_channels]
    split
    · exact ⟨_,rfl⟩
    · exact ⟨ch₀,hch₀⟩
  · exact hskipped.users
  · intro e ch₀ hch₀ id' c₀ hc₀
    rw [setChannel_channels] at hch₀
    split at hch₀
    · rename_i hsame
      subst hsame
      cases hch₀
      rw [copies_push]
      split
      · -- the packet that was owed
        rename_i hid
        change id=id' at hid
        subst hid
        rw [setChannel_calls,setCall_calls,if_pos rfl] at hc₀
        cases hc₀
        have hcopies := hs.copies e ch hch id _ hc
        unfold Call.owes at hcopies ⊢
        rw [List.count_cons,if_pos (by simp)] at hcopies
        dsimp only at hcopies ⊢
        omega
      · exact hskipped.copies e ch hch id' c₀ hc₀
    · exact hskipped.copies e ch₀ hch₀ id' c₀ hc₀
  · intro e ch₀ hch₀ p hp
    rw [setChannel_channels] at hch₀
    split at hch₀
    · rename_i hsame
      subst hsame
      cases hch₀
      unfold Channel.packets at hp
      rw [← List.append_assoc] at hp
      rcases List.mem_append.mp hp with hp|hp
      · exact hskipped.packets e ch hch p hp
      · rw [List.mem_singleton.mp hp]
        exact ⟨⟨data,asked,users,entries⟩,by rw [setChannel_calls,setCall_calls,if_pos rfl],rfl⟩
    · exact hskipped.packets e ch₀ hch₀ p hp
  · intro e ch₀ hch₀
    rw [setChannel_channels] at hch₀
    split at hch₀
    · cases hch₀
      rw [List.length_append,List.length_singleton]
      omega
    · exact hskipped.room e ch₀ hch₀

theorem sound_step (hs : Sound h) (e : Event) : Sound (step h e) := by
  cases e with
  | connect entry user => exact hs.connect entry user
  | leave entry => exact hs.leave entry
  | hangUp entry => exact hs.hangUp entry
  | call id users data => exact hs.call id users data
  | lookUp id => exact hs.lookUp id
  | send id => exact hs.send id
  | take entry => exact hs.take entry

theorem sound_run (hs : Sound h) (events : List Event) : Sound (run step h events) :=
  run_invariant (fun _ e hs _ => sound_step hs e) hs (Admits.of_forall (fun _ _ _ => trivial : ∀ e∈events,∀ _ : Hub,True) h)

end Soundness

/-- Which connection an event ends. -/
def Ends (entry : Uuid) (e : Event) : Prop := e=.leave entry ∨ e=.hangUp entry

instance (entry : Uuid) (e : Event) : Decidable (Ends entry e) :=
  inferInstanceAs (Decidable (e=.leave entry ∨ e=.hangUp entry))

section Exactness

variable {h : Hub} {entry user : Uuid}

theorem attached_step (ha : Attached h entry user) {e : Event} (he : ¬Ends entry e) :
    Attached (step h e) entry user := by
  obtain ⟨hmem,ch,hch,huser,hreceiving⟩ := ha
  cases e with
  | connect entry' user' =>
    change Attached (h.connect entry' user') entry user
    unfold Hub.connect
    split
    · exact ⟨hmem,ch,hch,huser,hreceiving⟩
    · rename_i hnone
      have hne : entry≠entry' := by
        rintro rfl
        rw [hnone] at hch
        cases hch
      refine ⟨?_,ch,?_,huser,hreceiving⟩
      · change entry∈Function.update h.map user' (h.map user'++[entry']) user
        rw [Function.update_apply]
        split
        · rename_i hsame
          subst hsame
          exact List.mem_append_left _ hmem
        · exact hmem
      · change (h.setChannel entry' ⟨user',[],true,[]⟩).channels entry=some ch
        rw [setChannel_channels,if_neg hne]
        exact hch
  | leave entry' =>
    change Attached (h.leave entry') entry user
    unfold Hub.leave
    split
    · rename_i ch' hch'
      refine ⟨?_,ch,hch,huser,hreceiving⟩
      dsimp only
      rw [Function.update_apply]
      split
      · rename_i hsame
        subst hsame
        refine List.mem_filter.mpr ⟨hmem,decide_eq_true fun hsame => he (.inl ?_)⟩
        rw [hsame]
      · exact hmem
    · exact ⟨hmem,ch,hch,huser,hreceiving⟩
  | hangUp entry' =>
    change Attached (h.hangUp entry') entry user
    unfold Hub.hangUp
    split
    · refine ⟨hmem,ch,?_,huser,hreceiving⟩
      rw [setChannel_channels,if_neg fun hsame => he (.inr (by rw [hsame]))]
      exact hch
    · exact ⟨hmem,ch,hch,huser,hreceiving⟩
  | call id users data =>
    change Attached (h.call id users data) entry user
    unfold Hub.call
    split <;> exact ⟨hmem,ch,hch,huser,hreceiving⟩
  | lookUp id =>
    change Attached (h.lookUp id) entry user
    unfold Hub.lookUp
    split <;> exact ⟨hmem,ch,hch,huser,hreceiving⟩
  | send id =>
    change Attached (h.send id) entry user
    unfold Hub.send
    split
    · split
      · rename_i ch' hch'
        split
        · exact ⟨hmem,ch,hch,huser,hreceiving⟩
        split
        · refine ⟨hmem,?_⟩
          rw [setChannel_channels]
          split
          · rename_i hsame
            subst hsame
            rw [hch] at hch'
            cases hch'
            exact ⟨_,rfl,huser,hreceiving⟩
          · exact ⟨ch,hch,huser,hreceiving⟩
        · exact ⟨hmem,ch,hch,huser,hreceiving⟩
      · exact ⟨hmem,ch,hch,huser,hreceiving⟩
    · exact ⟨hmem,ch,hch,huser,hreceiving⟩
  | take entry' =>
    change Attached (h.take entry') entry user
    unfold Hub.take
    split
    · rename_i user' packet queue got hch'
      refine ⟨hmem,?_⟩
      rw [setChannel_channels]
      split
      · rename_i hsame
        subst hsame
        rw [hch] at hch'
        cases hch'
        exact ⟨_,rfl,huser,rfl⟩
      · exact ⟨ch,hch,huser,hreceiving⟩
    · exact ⟨hmem,ch,hch,huser,hreceiving⟩

/-- A call has sent or owes a channel as many packets as the account is asked
for. -/
def Exact (h : Hub) (id : ℕ) (entry user : Uuid) : Prop :=
  ∀ c,h.calls id=some c → ∀ ch,h.channels entry=some ch → ch.copies id+c.owes entry user=c.asked.count user

/-- What a call owes a connection of the account that it has looked up. -/
theorem owes_attached (hs : Sound h) (ha : Attached h entry user) (data : Bytes) (asked users : List Uuid)
    (user' : Uuid) :
    (⟨data,asked,users,h.map user'⟩ : Call).owes entry user=(⟨data,asked,user'::users,[]⟩ : Call).owes entry user := by
  obtain ⟨hmem,ch,hch,huser,-⟩ := ha
  unfold Call.owes
  rw [List.count_nil,List.count_cons]
  dsimp only
  by_cases hsame : user'=user
  · subst hsame
    rw [List.count_eq_one_of_mem (hs.nodup user') hmem,if_pos (by simp)]
  · have hnot : entry∉h.map user' := fun hother => hsame ((hs.user_eq hother hch).symm.trans huser)
    rw [List.count_eq_zero.mpr hnot,if_neg (by simpa using hsame)]

theorem exact_step {id : ℕ} (hs : Sound h) (ha : Attached h entry user) (hx : Exact h id entry user) {e : Event}
    (he : ¬Ends entry e) : Exact (step h e) id entry user := by
  have hchannel := ha.2
  obtain ⟨ch₀,hch₀,huser₀,hreceiving₀⟩ := hchannel
  cases e with
  | connect entry' user' =>
    change Exact (h.connect entry' user') id entry user
    unfold Hub.connect
    split
    · exact hx
    · rename_i hnone
      have hne : entry≠entry' := by
        rintro rfl
        rw [hnone] at hch₀
        cases hch₀
      intro c hc ch hch
      change (h.setChannel entry' ⟨user',[],true,[]⟩).channels entry=some ch at hch
      rw [setChannel_channels,if_neg hne] at hch
      exact hx c hc ch hch
  | leave entry' =>
    change Exact (h.leave entry') id entry user
    unfold Hub.leave
    split <;> exact hx
  | hangUp entry' =>
    change Exact (h.hangUp entry') id entry user
    unfold Hub.hangUp
    split
    · intro c hc ch hch
      rw [setChannel_channels,if_neg fun hsame => he (.inr (by rw [hsame]))] at hch
      exact hx c hc ch hch
    · exact hx
  | call id' users data =>
    change Exact (h.call id' users data) id entry user
    unfold Hub.call
    split
    · exact hx
    · rename_i hnone
      intro c hc ch hch
      rw [setCall_calls] at hc
      split at hc
      · rename_i hsame
        subst hsame
        cases hc
        rw [hs.copies_eq_zero hch hnone]
        unfold Call.owes
        rw [List.count_nil]
        dsimp only
        omega
      · exact hx c hc ch hch
  | lookUp id' =>
    change Exact (h.lookUp id') id entry user
    unfold Hub.lookUp
    split
    · rename_i data asked user' users hcall
      intro c hc ch hch
      rw [setCall_calls] at hc
      split at hc
      · rename_i hsame
        subst hsame
        cases hc
        rw [owes_attached hs ha]
        exact hx _ hcall ch hch
      · exact hx c hc ch hch
    · exact hx
  | send id' =>
    change Exact (h.send id') id entry user
    unfold Hub.send
    split
    rotate_left
    · exact hx
    rename_i data asked users entry' entries hcall
    split
    rotate_left
    · exact hx
    rename_i ch' hch'
    have hother : entry≠entry' → Exact (h.setCall id' ⟨data,asked,users,entries⟩) id entry user := by
      intro hne c hc ch hch
      rw [setCall_calls] at hc
      split at hc
      · rename_i hsame
        subst hsame
        cases hc
        have hbefore := hx _ hcall ch hch
        unfold Call.owes at hbefore ⊢
        rw [List.count_cons_of_ne (Ne.symm hne)] at hbefore
        exact hbefore
      · exact hx c hc ch hch
    split
    · rename_i hgone
      refine hother ?_
      rintro rfl
      rw [hch₀] at hch'
      cases hch'
      rw [hreceiving₀] at hgone
      cases hgone
    split
    · by_cases hne : entry=entry'
      · subst hne
        intro c hc ch hch
        rw [setChannel_channels,if_pos rfl] at hch
        cases hch
        rw [setChannel_calls,setCall_calls] at hc
        rw [copies_push]
        split at hc
        · rename_i hsame
          subst hsame
          cases hc
          have hbefore := hx _ hcall ch' hch'
          unfold Call.owes at hbefore ⊢
          rw [List.count_cons_self] at hbefore
          rw [if_pos rfl]
          dsimp only at hbefore ⊢
          omega
        · rw [if_neg (Ne.symm ‹_›)]
          exact hx c hc ch' hch'
      · intro c hc ch hch
        rw [setChannel_channels,if_neg hne] at hch
        exact hother hne c hc ch hch
    · exact hx
  | take entry' =>
    change Exact (h.take entry') id entry user
    unfold Hub.take
    split
    · rename_i user' packet queue got hch'
      intro c hc ch hch
      rw [setChannel_channels] at hch
      split at hch
      · rename_i hsame
        subst hsame
        cases hch
        have hbefore := hx c hc _ hch'
        unfold Channel.copies Channel.packets at hbefore ⊢
        rw [List.append_assoc]
        exact hbefore
      · exact hx c hc ch hch
    · exact hx

/-- What holds while a connection is not ended. -/
structure Connected (entry user : Uuid) (ids : List ℕ) (h : Hub) : Prop where
  /-- Invariant. -/
  sound : Sound h
  /-- It is in the map and reads. -/
  attached : Attached h entry user
  /-- Calls that have begun in the meantime are exact. -/
  exact : ∀ id∈ids,Exact h id entry user

theorem connected_run {ids : List ℕ} {events : List Event} (hc : Connected entry user ids h)
    (he : ∀ e∈events,¬Ends entry e) : Connected entry user ids (run step h events) :=
  run_invariant
    (fun _ e hc he => ⟨sound_step hc.sound e,attached_step hc.attached he,
      fun id hid => exact_step hc.sound hc.attached (hc.exact id hid) he⟩)
    hc (Admits.of_forall (fun e hmem _ => he e hmem : ∀ e∈events,∀ _ : Hub,¬Ends entry e) h)

/-- A call that has returned owes nothing. -/
theorem Exact.copies_eq {id : ℕ} {c : Call} {ch : Channel} (hx : Exact h id entry user) (hc : h.calls id=some c)
    (hdone : c.Done) (hch : h.channels entry=some ch) : ch.copies id=c.asked.count user := by
  have hexact := hx c hc ch hch
  unfold Call.owes at hexact
  rw [hdone.1,hdone.2,List.count_nil,List.count_nil] at hexact
  exact hexact

end Exactness

section Order

variable {h : Hub} {entry : Uuid} {ch : Channel} {id : ℕ} {c : Call}

/-- A call that has returned stays as it is. -/
theorem calls_step (hc : h.calls id=some c) (hdone : c.Done) (e : Event) : (step h e).calls id=some c := by
  have hother : ∀ {id' c'},h.calls id'=some c' → ¬c'.Done → id≠id' := by
    rintro id' c' hc' hnot rfl
    rw [hc] at hc'
    cases hc'
    exact hnot hdone
  cases e with
  | connect entry' user' =>
    change (h.connect entry' user').calls id=_
    unfold Hub.connect
    split <;> exact hc
  | leave entry' =>
    change (h.leave entry').calls id=_
    unfold Hub.leave
    split <;> exact hc
  | hangUp entry' =>
    change (h.hangUp entry').calls id=_
    unfold Hub.hangUp
    split <;> exact hc
  | call id' users data =>
    change (h.call id' users data).calls id=_
    unfold Hub.call
    split
    · exact hc
    · rename_i hnone
      have hne : id≠id' := by
        rintro rfl
        rw [hc] at hnone
        cases hnone
      rw [setCall_calls,if_neg hne]
      exact hc
  | lookUp id' =>
    change (h.lookUp id').calls id=_
    unfold Hub.lookUp
    split
    · rename_i hcall
      rw [setCall_calls,if_neg (hother hcall fun hd => by cases hd.1)]
      exact hc
    · exact hc
  | send id' =>
    change (h.send id').calls id=_
    unfold Hub.send
    split
    rotate_left
    · exact hc
    rename_i hcall
    have hne := hother hcall fun hd => by cases hd.2
    split
    · split
      · rw [setCall_calls,if_neg hne]
        exact hc
      split
      · rw [setChannel_calls,setCall_calls,if_neg hne]
        exact hc
      · exact hc
    · exact hc
  | take entry' =>
    change (h.take entry').calls id=_
    unfold Hub.take
    split <;> exact hc

/-- Packets are added at the end, by calls that have not returned, and are
read only when the connection reads. -/
theorem packets_step (hch : h.channels entry=some ch) (e : Event) :
    ∃ ch',(step h e).channels entry=some ch' ∧ (e≠.take entry → ch'.got=ch.got) ∧
      ∃ new,ch'.packets=ch.packets++new ∧ ∀ p∈new,∃ c,h.calls p.call=some c ∧ ¬c.Done := by
  have hsame : ∃ ch',h.channels entry=some ch' ∧ (e≠.take entry → ch'.got=ch.got) ∧
      ∃ new,ch'.packets=ch.packets++new ∧ ∀ p∈new,∃ c,h.calls p.call=some c ∧ ¬c.Done :=
    ⟨ch,hch,fun _ => rfl,[],(List.append_nil _).symm,fun p hp => by cases hp⟩
  cases e with
  | connect entry' user' =>
    change ∃ ch',(h.connect entry' user').channels entry=some ch' ∧ _
    unfold Hub.connect
    split
    · exact hsame
    · rename_i hnone
      have hne : entry≠entry' := by
        rintro rfl
        rw [hnone] at hch
        cases hch
      change ∃ ch',(h.setChannel entry' ⟨user',[],true,[]⟩).channels entry=some ch' ∧ _
      rw [setChannel_channels,if_neg hne]
      exact hsame
  | leave entry' =>
    change ∃ ch',(h.leave entry').channels entry=some ch' ∧ _
    unfold Hub.leave
    split <;> exact hsame
  | hangUp entry' =>
    change ∃ ch',(h.hangUp entry').channels entry=some ch' ∧ _
    unfold Hub.hangUp
    split
    · rename_i ch' hch'
      rw [setChannel_channels]
      split
      · rename_i heq
        subst heq
        rw [hch] at hch'
        cases hch'
        exact ⟨_,rfl,fun _ => rfl,[],(List.append_nil _).symm,fun p hp => by cases hp⟩
      · exact hsame
    · exact hsame
  | call id' users data =>
    change ∃ ch',(h.call id' users data).channels entry=some ch' ∧ _
    unfold Hub.call
    split <;> exact hsame
  | lookUp id' =>
    change ∃ ch',(h.lookUp id').channels entry=some ch' ∧ _
    unfold Hub.lookUp
    split <;> exact hsame
  | send id' =>
    change ∃ ch',(h.send id').channels entry=some ch' ∧ _
    unfold Hub.send
    split
    rotate_left
    · exact hsame
    rename_i data asked users entry' entries hcall
    split
    rotate_left
    · exact hsame
    rename_i ch' hch'
    split
    · exact hsame
    split
    · rw [setChannel_channels]
      split
      · rename_i heq
        subst heq
        rw [hch] at hch'
        cases hch'
        refine ⟨_,rfl,fun _ => rfl,[⟨id',data⟩],(List.append_assoc ..).symm,fun p hp => ?_⟩
        rw [List.mem_singleton.mp hp]
        exact ⟨_,hcall,fun hd => by cases hd.2⟩
      · exact hsame
    · exact hsame
  | take entry' =>
    change ∃ ch',(h.take entry').channels entry=some ch' ∧ _
    unfold Hub.take
    split
    · rename_i user packet queue got hch'
      rw [setChannel_channels]
      split
      · rename_i heq
        subst heq
        rw [hch] at hch'
        cases hch'
        refine ⟨_,rfl,fun hne => absurd rfl hne,[],?_,fun p hp => by cases hp⟩
        unfold Channel.packets
        rw [List.append_assoc,List.append_nil]
        rfl
      · exact hsame
    · exact hsame

/-- A run adds packets at the end. -/
theorem packets_run (hch : h.channels entry=some ch) (events : List Event) :
    ∃ ch',(run step h events).channels entry=some ch' ∧ (Event.take entry∉events → ch'.got=ch.got) ∧
      ∃ new,ch'.packets=ch.packets++new ∧
        ∀ id c,h.calls id=some c → c.Done → id∉new.map Packet.call := by
  induction events generalizing h ch with
  | nil => exact ⟨ch,hch,fun _ => rfl,[],(List.append_nil _).symm,fun id c _ _ hmem => by cases hmem⟩
  | cons e events ih =>
    obtain ⟨ch₁,hch₁,hgot₁,new₁,hnew₁,hcalls⟩ := packets_step hch e
    obtain ⟨ch₂,hch₂,hgot₂,new₂,hnew₂,hlater⟩ := ih hch₁
    refine ⟨ch₂,hch₂,fun hnot => ?_,new₁++new₂,?_,fun id c hc hdone hmem => ?_⟩
    · rw [List.mem_cons,not_or] at hnot
      exact (hgot₂ hnot.2).trans (hgot₁ (Ne.symm hnot.1))
    · rw [hnew₂,hnew₁,List.append_assoc]
    · rw [List.map_append,List.mem_append] at hmem
      rcases hmem with hmem|hmem
      · obtain ⟨p,hp,rfl⟩ := List.mem_map.mp hmem
        obtain ⟨c',hc',hnot⟩ := hcalls p hp
        rw [hc] at hc'
        cases hc'
        exact hnot hdone
      · exact hlater id c (calls_step hc hdone e) hdone hmem

/-- A channel that comes into being is empty. -/
theorem channels_step_none (hnone : h.channels entry=none) (e : Event) :
    (step h e).channels entry=none ∨ ∃ user,(step h e).channels entry=some ⟨user,[],true,[]⟩ := by
  have hother : ∀ {entry' ch'},h.channels entry'=some ch' → entry≠entry' := by
    rintro entry' ch' hch' rfl
    rw [hnone] at hch'
    cases hch'
  cases e with
  | connect entry' user' =>
    change (h.connect entry' user').channels entry=none ∨ ∃ user,(h.connect entry' user').channels entry=_
    unfold Hub.connect
    split
    · exact .inl hnone
    · by_cases hsame : entry=entry'
      · refine .inr ⟨user',?_⟩
        change (h.setChannel entry' ⟨user',[],true,[]⟩).channels entry=_
        rw [setChannel_channels,if_pos hsame]
      · left
        change (h.setChannel entry' ⟨user',[],true,[]⟩).channels entry=_
        rw [setChannel_channels,if_neg hsame]
        exact hnone
  | leave entry' =>
    left
    change (h.leave entry').channels entry=none
    unfold Hub.leave
    split <;> exact hnone
  | hangUp entry' =>
    left
    change (h.hangUp entry').channels entry=none
    unfold Hub.hangUp
    split
    · rename_i hch'
      rw [setChannel_channels,if_neg (hother hch')]
      exact hnone
    · exact hnone
  | call id' users data =>
    left
    change (h.call id' users data).channels entry=none
    unfold Hub.call
    split <;> exact hnone
  | lookUp id' =>
    left
    change (h.lookUp id').channels entry=none
    unfold Hub.lookUp
    split <;> exact hnone
  | send id' =>
    left
    change (h.send id').channels entry=none
    unfold Hub.send
    split
    · split
      · rename_i hch'
        split
        · exact hnone
        split
        · rw [setChannel_channels,if_neg (hother hch')]
          exact hnone
        · exact hnone
      · exact hnone
    · exact hnone
  | take entry' =>
    left
    change (h.take entry').channels entry=none
    unfold Hub.take
    split
    · rename_i hch'
      rw [setChannel_channels,if_neg (hother hch')]
      exact hnone
    · exact hnone

/-- A call that has returned before a channel came into being is not in it. -/
theorem packets_run_none (hnone : h.channels entry=none) {events : List Event}
    (hch : (run step h events).channels entry=some ch) (hc : h.calls id=some c) (hdone : c.Done) :
    id∉ch.packets.map Packet.call := by
  induction events generalizing h with
  | nil =>
    change h.channels entry=some ch at hch
    rw [hnone] at hch
    cases hch
  | cons e events ih =>
    have hcalls := calls_step hc hdone e
    rcases channels_step_none hnone e with hstill|⟨user,hnew⟩
    · exact ih hstill hch hcalls
    · obtain ⟨ch',hch',-,new,hpackets,hlater⟩ := packets_run hnew events
      change (run step (step h e) events).channels entry=some ch at hch
      rw [hch] at hch'
      cases hch'
      rw [hpackets]
      exact hlater id c hcalls hdone

end Order

section Results

variable {before after : List Event} {entry user : Uuid} {ch : Channel}

/-- A connection gets packets for its account only, at most one from a call for
each time that the account is asked for, and exactly these from a call that
begins while it is in the map and returns before it is ended. Calls that follow
each other come in their order. -/
theorem updates_delivered (hch : (run step (run step Hub.start before) after).channels entry=some ch) :
    (∀ p∈ch.packets,∃ c,(run step (run step Hub.start before) after).calls p.call=some c ∧ c.data=p.data ∧
      ch.user∈c.asked) ∧
    (∀ id c,(run step (run step Hub.start before) after).calls id=some c → ch.copies id ≤ c.asked.count ch.user) ∧
    (Attached (run step Hub.start before) entry user → (∀ e∈after,¬Ends entry e) →
      ∀ id c,(run step Hub.start before).calls id=none →
        (run step (run step Hub.start before) after).calls id=some c → c.Done → ch.copies id=c.asked.count user) ∧
    ∀ id c,(run step Hub.start before).calls id=some c → c.Done → ∀ id',(run step Hub.start before).calls id'=none →
      ∃ earlier later,ch.packets=earlier++later ∧ id'∉earlier.map Packet.call ∧ id∉later.map Packet.call := by
  have hs₁ := sound_run sound_start before
  have hs₂ := sound_run hs₁ after
  generalize run step Hub.start before=h₁ at *
  refine ⟨fun p hp => ?_,fun id c hc => ?_,fun ha he id c hnone hc hdone => ?_,fun id c hc hdone id' hnone => ?_⟩
  · obtain ⟨c,hc,hdata⟩ := hs₂.packets entry ch hch p hp
    refine ⟨c,hc,hdata,List.count_pos_iff.mp ?_⟩
    have hcopies := hs₂.copies entry ch hch p.call c hc
    have hpos : 0<ch.copies p.call := List.count_pos_iff.mpr (List.mem_map_of_mem hp)
    omega
  · have hcopies := hs₂.copies entry ch hch id c hc
    omega
  · have hexact : ∀ id'∈[id],Exact h₁ id' entry user := by
      intro id' hid c' hc'
      rw [List.mem_singleton.mp hid,hnone] at hc'
      cases hc'
    have hconnected : Connected entry user [id] (run step h₁ after) := connected_run ⟨hs₁,ha,hexact⟩ he
    exact (hconnected.exact id (List.mem_singleton_self id)).copies_eq hc hdone hch
  · cases hfirst : h₁.channels entry with
    | none => exact ⟨[],ch.packets,rfl,List.not_mem_nil,packets_run_none hfirst hch hc hdone⟩
    | some ch₁ =>
      obtain ⟨ch₂,hch₂,-,new,hpackets,hlater⟩ := packets_run hfirst after
      rw [hch] at hch₂
      cases hch₂
      refine ⟨ch₁.packets,new,hpackets,fun hmem => ?_,hlater id c hc hdone⟩
      obtain ⟨p,hp,rfl⟩ := List.mem_map.mp hmem
      obtain ⟨c',hc',-⟩ := hs₁.packets entry ch₁ hfirst p hp
      rw [hnone] at hc'
      cases hc'

end Results

section Samples

/-- Two connections of account 1 and one of account 2. -/
def opened : List Event := [.connect 10 1,.connect 11 1,.connect 12 2]

/-- A call for account 1 while one connection reads nothing. -/
def told : List Event := [.call 0 [1] [7],.lookUp 0,.send 0,.send 0,.take 11]

theorem updates_delivered_sample : ∃ ch,(run step (run step Hub.start opened) told).channels 11=some ch ∧
    ch.copies 0=1 := by
  refine ⟨⟨1,[],true,[⟨0,[7]⟩]⟩,rfl,?_⟩
  have hdelivered := @updates_delivered opened told 11 1 ⟨1,[],true,[⟨0,[7]⟩]⟩ rfl
  exact hdelivered.2.2.1 ⟨by decide,_,rfl,rfl,rfl⟩ (by decide) 0 ⟨[7],[1],[],[]⟩ rfl rfl ⟨rfl,rfl⟩

end Samples

end NadSafe.HubRuns
