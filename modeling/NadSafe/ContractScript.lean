import NadSafe.GuardedScript

/-!
# Contracts under interference

Two rules for scripts of which only a contract is known. If every statement
keeps an assertion that the others keep as well, then every segment runs from
one state with the assertion to another. And if a script can only return
values of a kind, then what follows it may rely on that, whatever happens.
-/

namespace NadSafe.ContractScript

open AsyncScript AsyncScript.Script StoreScript RelyScript ResponseScript GuardedScript

variable {σ Error α β : Type} {R G H : σ → σ → Prop} {F : σ → Prop} {s₀ s : σ}

/-- An assertion that every statement and all interference keep. -/
theorem responds_within (hF : ∀ s s',G s s' → F s → F s') (hrely : ∀ s s',R s s' → F s → F s')
    (hrel : ∀ s s',F s → F s' → H s s') {p : Handler σ Error α} (h : Guards exec G p) (hs₀ : F s₀) (hs : F s) :
    Responds exec R H (fun _ s₀ s => F s₀ ∧ F s) p s₀ s := by
  induction p generalizing s₀ s with
  | done a => exact ⟨hs₀,hs⟩
  | fail e => exact ⟨hs₀,hs⟩
  | call c k ih => exact ih _ (h.2 _ trivial) hs₀ (hF _ _ (h.1 s) hs)
  | await k ih =>
    refine ⟨hrel _ _ hs₀ hs,fun i s' hs' => ?_⟩
    have hnext := hrely s s' hs' hs
    exact ih i (h i) hnext hnext

/-- A weaker guarantee. -/
theorem responds_weaken {Q : Except Error α → σ → σ → Prop} (hG : ∀ s s',G s s' → H s s') {p : Handler σ Error α}
    (h : Responds exec R G Q p s₀ s) : Responds exec R H Q p s₀ s := by
  induction p generalizing s₀ s with
  | done a => exact h
  | fail e => exact h
  | call c k ih => exact ih _ h
  | await k ih => exact ⟨hG _ _ h.1,fun i s' hs => ih i (h.2 i s' hs)⟩

/-- A stronger rely condition. -/
theorem responds_relying {R' : σ → σ → Prop} {Q : Except Error α → σ → σ → Prop} (hR : ∀ s s',R' s s' → R s s')
    {p : Handler σ Error α} (h : Responds exec R G Q p s₀ s) : Responds exec R' G Q p s₀ s := by
  induction p generalizing s₀ s with
  | done a => exact h
  | fail e => exact h
  | call c k ih => exact ih _ h
  | await k ih => exact ⟨h.1,fun i s' hs => ih i (h.2 i s' (hR s s' hs))⟩

/-- Any script, if nothing is guaranteed. -/
theorem responds_any {Q : Except Error α → σ → σ → Prop} (hG : ∀ s s',G s s') (hQ : ∀ r s s',Q r s s')
    {p : Handler σ Error α} : Responds exec R G Q p s₀ s := by
  induction p generalizing s₀ s with
  | done a => exact hQ _ s₀ s
  | fail e => exact hQ _ s₀ s
  | call c k ih => exact ih _
  | await k ih => exact ⟨hG s₀ s,fun i s' _ => ih i⟩

/-- Nothing is done after the last part. -/
theorem bind_done (p : Handler σ Error α) : p.bind Script.done=p := by
  induction p with
  | done a => rfl
  | fail e => rfl
  | call c k ih => exact congrArg (Script.call c) (funext ih)
  | await k ih => exact congrArg Script.await (funext ih)

/-- Every script keeps the empty contract. -/
theorem obeys_nothing (p : Handler σ Error α) : p.Obeys (fun _ => True) (fun _ _ => True) fun _ => True := by
  induction p with
  | done a => trivial
  | fail e => trivial
  | call c k ih => exact ⟨trivial,fun r _ => ih r⟩
  | await k ih => exact fun i => ih i

/-- What a sequence returns is a matter of its last part. -/
theorem obeys_past {K : α → Prop} {p : Handler σ Error β} {g : β → Handler σ Error α}
    (h : ∀ b,(g b).Obeys (fun _ => True) (fun _ _ => True) K) :
    (p.bind g).Obeys (fun _ => True) (fun _ _ => True) K := Obeys.bind (obeys_nothing p) fun b _ => h b

end NadSafe.ContractScript
