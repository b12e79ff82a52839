import NadSafe.BoundedBuffers
import NadSafe.PasswordClasses

/-!
# The password generator of crypto-core

Numbers have the width of `usize`. The guard adds the four minima in that
width, so that it compares the length with a sum that may have wrapped.
Vectors have room for so many bytes, whatever the allocator gives.
-/

namespace NadSafe.PasswordGenerator

open HostText BoundedBuffers PasswordClasses

/-- What the generator uses of a random source. -/
structure Rng (σ : Type) where
  /-- `gen_range(0..max)`. -/
  genRange : ℕ → σ → ℕ×σ
  /-- It is in the range, if there is one. -/
  inRange : ∀ {max : ℕ} (s : σ),0< max → (genRange max s).1< max
  /-- `SliceRandom::shuffle`. -/
  shuffle : Text → σ → Text
  /-- It permutes. -/
  permutes : ∀ xs s,(shuffle xs s).Perm xs

/-- `GenError`, and a call that does not return. -/
inductive GenError where
  /-- `NoCharset`. -/
  | noCharset
  /-- `TooShort`. -/
  | tooShort (length : ℕ)
  /-- An allocation failed, or an index was out of range. -/
  | panic

section Source

variable {σ : Type} {w : ℕ} (rng : Rng σ) (room : ℕ)

/-- `buf.push(pool[random_usize(rng, pool.len())])`. -/
def pushRandom (pool : Text) (b : Text×σ) : Except GenError (Text×σ) :=
  let (idx,s) := rng.genRange pool.length b.2
  match pool[idx]? with
  | some c => (push room .panic b.1 c).map fun buf => (buf,s)
  | none => .error .panic

/-- `push_required`. -/
def pushRequired (avoid : Bool) (pool : Text) (count : ℕ) (b : Text×σ) : Except GenError (Text×σ) :=
  let pool := filterAmbiguous pool avoid
  times (fun b => if pool≠[] then pushRandom rng room pool b else .ok b) count b

/-- `if on { push_required(..) }`. -/
def pushEnabled (on avoid : Bool) (pool : Text) (count : ℕ) (b : Text×σ) : Except GenError (Text×σ) :=
  if on then pushRequired rng room avoid pool count b else .ok b

/-- `generate_password`. The last loop runs until the length is reached. -/
def generatePassword (cfg : PasswordConfig (BitVec w)) (s : σ) : Except GenError Text := do
  let charset := cfg.charset
  if charset=[] then .error .noCharset
  else
    let minTotal := cfg.minUppercase+cfg.minLowercase+cfg.minNumbers+cfg.minSpecial
    if cfg.length< minTotal then .error (.tooShort cfg.length.toNat)
    else
      let avoid := cfg.avoidAmbiguous
      let b ← pushEnabled rng room cfg.uppercase avoid UPPERCASE cfg.minUppercase.toNat ([],s)
      let b ← pushEnabled rng room cfg.lowercase avoid LOWERCASE cfg.minLowercase.toNat b
      let b ← pushEnabled rng room cfg.numbers avoid DIGITS cfg.minNumbers.toNat b
      let b ← pushEnabled rng room cfg.symbols avoid SYMBOLS cfg.minSpecial.toNat b
      let b ← times (pushRandom rng room charset) (cfg.length.toNat-b.1.length) b
      .ok (rng.shuffle b.1 b.2)

end Source

section Contract

variable {σ : Type} {w : ℕ}

/-- The configuration with numbers that do not wrap. -/
def unbounded (cfg : PasswordConfig (BitVec w)) : PasswordConfig ℕ where
  length := cfg.length.toNat
  uppercase := cfg.uppercase
  lowercase := cfg.lowercase
  numbers := cfg.numbers
  symbols := cfg.symbols
  avoidAmbiguous := cfg.avoidAmbiguous
  minUppercase := cfg.minUppercase.toNat
  minLowercase := cfg.minLowercase.toNat
  minNumbers := cfg.minNumbers.toNat
  minSpecial := cfg.minSpecial.toNat

/-- Some class is enabled, and the length is at least the four minima together. -/
def Enough (cfg : PasswordConfig ℕ) : Prop := cfg.someEnabled ∧ cfg.totalLeast≤cfg.length

/-- `Ok` exactly for configurations that are enough, and then a password of the
configuration. -/
def Contract (rng : Rng σ) (room : ℕ) (cfg : PasswordConfig (BitVec w)) (s : σ) : Prop :=
  match generatePassword rng room cfg s with
  | .ok pw => Enough (unbounded cfg) ∧ Meets (unbounded cfg) pw
  | .error _ => ¬Enough (unbounded cfg)

end Contract

section Loops

variable {σ : Type} {rng : Rng σ} {room : ℕ} {pool : Text}

/-- A character of the pool is pushed, and the index is in range. -/
theorem appends_pushRandom (hpool : pool≠[]) (b : Text×σ) :
    Appends room .panic 1 (fun t => ∀ x∈t,∃ c,x=id c ∧ c∈pool) b (pushRandom rng room pool b) := by
  have hlt : (rng.genRange pool.length b.2).1<pool.length := rng.inRange b.2 (List.length_pos_iff.mpr hpool)
  unfold pushRandom
  dsimp only
  rw [List.getElem?_eq_getElem hlt]
  refine appends_push fun x hx => ⟨_,List.mem_singleton.mp hx,List.getElem_mem hlt⟩

/-- The required characters of a class. -/
theorem appends_pushRequired {avoid : Bool} (hpool : filterAmbiguous pool avoid≠[]) (count : ℕ) {b : Text×σ}
    (hb : b.1.length≤room) : Appends room .panic count (Coded id fun u => ∀ c∈u,c∈filterAmbiguous pool avoid) b
      (pushRequired rng room avoid pool count b) := by
  refine appends_pool (fun b _ => ?_) count hb
  rw [if_pos hpool]
  exact appends_pushRandom hpool b

end Loops

section Runs

variable {σ : Type} {w : ℕ} {rng : Rng σ} {room : ℕ} {cfg : PasswordConfig (BitVec w)} {s : σ}

/-- The sum of the guard wraps. -/
theorem minTotal_toNat (cfg : PasswordConfig (BitVec w)) :
    (cfg.minUppercase+cfg.minLowercase+cfg.minNumbers+cfg.minSpecial).toNat=(unbounded cfg).totalLeast%2^w := by
  rw [BitVec.toNat_add,BitVec.toNat_add,BitVec.toNat_add,Nat.mod_add_mod,Nat.add_assoc,Nat.mod_add_mod,← Nat.add_assoc]
  rfl

/-- All loops, as one computation. -/
def loops (rng : Rng σ) (room : ℕ) (cfg : PasswordConfig (BitVec w)) (s : σ) : Except GenError (Text×σ) := do
  let b ← (unbounded cfg).classes.foldlM (fun b cl =>
    pushEnabled rng room cl.enabled cfg.avoidAmbiguous cl.pool cl.least b) ([],s)
  times (pushRandom rng room cfg.charset) (cfg.length.toNat-b.1.length) b

/-- They append the required characters and the rest. -/
theorem appends_loops (rng : Rng σ) (room : ℕ) (s : σ) (hsome : (unbounded cfg).someEnabled) :
    Appends room .panic (max cfg.length.toNat (unbounded cfg).enabledLeast) (Coded id (Mixed (unbounded cfg))) ([],s)
      (loops rng room cfg s) := by
  have hcharset : cfg.charset≠[] := charset_ne_nil.mpr hsome
  refine appends_mixed (unbounded cfg) (fun cl _ hoff b => ?_) (fun cl hcl hon b hb => ?_)
    fun b _ => appends_pushRandom hcharset b
  · rw [pushEnabled,hoff]
    rfl
  · rw [pushEnabled,if_pos hon]
    exact appends_pushRequired (filterAmbiguous_ne_nil _ hcl) cl.least hb

/-- The calls that pass the guard. -/
theorem generatePassword_eq (hsome : (unbounded cfg).someEnabled)
    (hguard : (unbounded cfg).totalLeast%2^w≤cfg.length.toNat) :
    generatePassword rng room cfg s=(loops rng room cfg s).map fun b => rng.shuffle b.1 b.2 := by
  have hcharset : cfg.charset≠[] := charset_ne_nil.mpr hsome
  have hlength : ¬cfg.length<cfg.minUppercase+cfg.minLowercase+cfg.minNumbers+cfg.minSpecial := by
    rw [BitVec.lt_def,minTotal_toNat]
    omega
  have hmap : ∀ r : Except GenError (Text×σ),r.map (fun b => rng.shuffle b.1 b.2)=
      r >>= fun b => .ok (rng.shuffle b.1 b.2) := by
    intro r
    cases r <;> rfl
  rw [hmap]
  unfold generatePassword loops
  dsimp only
  rw [if_neg hcharset,if_neg hlength]
  simp only [PasswordConfig.classes,List.foldlM_cons,List.foldlM_nil,bind_assoc,pure_bind,unbounded]

/-- They return a permutation of what the loops appended, if the vector has
room for it. -/
theorem generatePassword_run (rng : Rng σ) (room : ℕ) (s : σ) (hsome : (unbounded cfg).someEnabled)
    (hguard : (unbounded cfg).totalLeast%2^w≤cfg.length.toNat) :
    if max cfg.length.toNat (unbounded cfg).enabledLeast≤room then
      ∃ t pw,generatePassword rng room cfg s=.ok pw ∧ pw.Perm t ∧ Mixed (unbounded cfg) t ∧
        pw.length=max cfg.length.toNat (unbounded cfg).enabledLeast
    else generatePassword rng room cfg s=.error .panic := by
  have hloops := appends_loops rng room s hsome
  rw [Appends,List.length_nil,Nat.zero_add] at hloops
  rw [generatePassword_eq hsome hguard]
  split_ifs at hloops ⊢ with hroom
  · obtain ⟨t,s',hok,hlength,u,ht,hmixed⟩ := hloops
    rw [List.map_id] at ht
    rw [← ht] at hmixed
    have hperm := rng.permutes t s'
    refine ⟨t,rng.shuffle t s',?_,hperm,hmixed,by rw [hperm.length_eq,hlength]⟩
    rw [hok]
    rfl
  · rw [hloops]
    rfl

/-- The calls that the checks reject. -/
theorem generatePassword_rejected (rng : Rng σ) (room : ℕ) (s : σ)
    (h : ¬(unbounded cfg).someEnabled ∨ cfg.length.toNat<(unbounded cfg).totalLeast%2^w) :
    ∃ e,generatePassword rng room cfg s=.error e := by
  unfold generatePassword
  dsimp only
  by_cases hcharset : cfg.charset=[]
  · exact ⟨_,if_pos hcharset⟩
  · rw [if_neg hcharset]
    refine ⟨_,if_pos ?_⟩
    rw [BitVec.lt_def,minTotal_toNat]
    exact h.resolve_left fun hnone => hnone (charset_ne_nil.mp hcharset)

/-- The generator meets its contract exactly if a check rejects the call, or
the sum of the minima does not wrap just when the vector has room. -/
theorem rust_contract_iff : Contract rng room cfg s ↔
    ¬(unbounded cfg).someEnabled ∨ cfg.length.toNat<(unbounded cfg).totalLeast%2^w ∨
      ((unbounded cfg).totalLeast<2^w ↔ max cfg.length.toNat (unbounded cfg).enabledLeast≤room) := by
  have hle : (unbounded cfg).totalLeast%2^w≤(unbounded cfg).totalLeast := Nat.mod_le _ _
  by_cases hrejected : ¬(unbounded cfg).someEnabled ∨ cfg.length.toNat<(unbounded cfg).totalLeast%2^w
  · obtain ⟨e,he⟩ := generatePassword_rejected rng room s hrejected
    rw [Contract,he]
    refine ⟨fun _ => or_assoc.mp (.inl hrejected),fun _ henough => ?_⟩
    rcases hrejected with hnone|hshort
    · exact hnone henough.1
    · exact absurd henough.2 (not_le.mpr (hshort.trans_le hle))
  · obtain ⟨hsome,hguard⟩ := not_or.mp hrejected
    rw [not_not] at hsome
    rw [not_lt] at hguard
    have hrun := generatePassword_run rng room s hsome hguard
    -- Behind the guard, a sum is small enough exactly if it did not wrap.
    have hwrap : (unbounded cfg).totalLeast≤cfg.length.toNat ↔ (unbounded cfg).totalLeast<2^w := by
      refine ⟨fun htotal => htotal.trans_lt cfg.length.isLt,fun hlt => ?_⟩
      rwa [Nat.mod_eq_of_lt hlt] at hguard
    have henough : Enough (unbounded cfg) ↔ (unbounded cfg).totalLeast<2^w := by
      rw [← hwrap]
      exact ⟨fun h => h.2,fun h => ⟨hsome,h⟩⟩
    have hreduce : ∀ P : Prop,¬(unbounded cfg).someEnabled ∨ cfg.length.toNat<(unbounded cfg).totalLeast%2^w ∨ P ↔ P :=
      fun P => ⟨fun h => (h.resolve_left (not_not.mpr hsome)).resolve_left (not_lt.mpr hguard),fun h => .inr (.inr h)⟩
    rw [hreduce]
    split_ifs at hrun with hroom
    · obtain ⟨t,pw,hok,hperm,hmixed,hlength⟩ := hrun
      rw [Contract,hok,henough]
      refine ⟨fun h => iff_of_true h.1 hroom,fun h => ⟨h.mpr hroom,?_⟩⟩
      have htotal := hwrap.mpr (h.mpr hroom)
      have hleast := enabledLeast_le (unbounded cfg)
      refine meets_of_perm hmixed hperm ?_
      rw [hlength]
      exact max_eq_left (hleast.trans htotal)
    · rw [Contract,hrun,henough]
      exact ⟨fun h => iff_of_false h hroom,fun h hlt => hroom (h.mp hlt)⟩

end Runs

section Samples

/-- A source that always draws the first, and leaves the order as it is. -/
def firstRng : Rng Unit where
  genRange _ s := (0,s)
  inRange _ h := h
  shuffle xs _ := xs
  permutes xs _ := List.Perm.refl xs

/-- Eight digits, and minima of the two classes that are off that wrap to zero. -/
def wrapping : PasswordConfig (BitVec 64) where
  length := 8
  uppercase := false
  lowercase := false
  numbers := true
  symbols := false
  avoidAmbiguous := false
  minUppercase := 9223372036854775808
  minLowercase := 9223372036854775808
  minNumbers := 0
  minSpecial := 0

/-- The generator returns eight digits, though the minima need 2^64 characters. -/
theorem wrapped_guard_passes : generatePassword firstRng (2^63-1) wrapping ()=.ok "00000000".toList ∧
    ¬Contract firstRng (2^63-1) wrapping () := by
  have hok : generatePassword firstRng (2^63-1) wrapping ()=.ok "00000000".toList := rfl
  refine ⟨hok,?_⟩
  rw [Contract,hok]
  rintro ⟨⟨-,htotal⟩,-⟩
  exact absurd htotal (by decide)

end Samples

end NadSafe.PasswordGenerator
