import Mathlib.Data.List.GetD
import Mathlib.Data.Nat.Find
import NadSafe.PasswordClasses

/-!
# The password generator of the web client

The port of the crypto-core generator. It draws 32-bit words and rejects those
that would make a remainder more likely. It shuffles by itself, and has no
guard for the length: a call either fails, or returns as many characters as
the enabled minima need.
-/

namespace NadSafe.WebPasswords

open HostText BoundedBuffers PasswordClasses

/-- `crypto.getRandomValues`, word by word. -/
structure WordSource where
  /-- The words. -/
  word : ℕ → UInt32
  /-- Again and again the highest bit of one is zero. -/
  low : ∀ n,∃ k,n≤k ∧ (word k).toNat<2^31

/-- How a call fails. -/
inductive WebError where
  /-- `No character classes enabled`. -/
  | noClasses
  /-- `RangeError`: an array or a string is too long. -/
  | rangeError
  /-- It never returns. -/
  | endless

section Source

variable (source : WordSource)

/-- `limit`. -/
def limit (max : ℕ) : ℕ := 2^32/max*max

/-- A word below a limit comes. -/
theorem exists_below {max : ℕ} (h : 2^31≤limit max) (s : ℕ) : ∃ k,s≤k ∧ (source.word k).toNat<limit max := by
  obtain ⟨k,hk,hlow⟩ := source.low s
  exact ⟨k,hk,hlow.trans_le h⟩

/-- `randomIndex`, from some word on. The limit of a range beyond 32 bits is
zero, and that of an empty range is no number, so that the first word counts. -/
def randomIndex (max s : ℕ) : Except WebError (ℕ×ℕ) :=
  if max=0 then .ok (0,s+1)
  else if h : 2^31≤limit max then
    let k := Nat.find (exists_below source h s)
    .ok ((source.word k).toNat%max,k+1)
  else .error .endless

/-- `pickRandom`. An index out of range gives `undefined`. -/
def pickRandom (pool : Text) (s : ℕ) : Except WebError (Option Char×ℕ) := do
  let (i,s) ← randomIndex source pool.length s
  .ok (pool[i]?,s)

/-- The greatest length of an array. -/
def MAX_ARRAY : ℕ := 2^32-1

/-- `push(pickRandom(pool))`. -/
def pushRandom (pool : Text) (b : List (Option Char)×ℕ) : Except WebError (List (Option Char)×ℕ) := do
  let (c,s) ← pickRandom source pool b.2
  (push MAX_ARRAY .rangeError b.1 c).map fun buf => (buf,s)

/-- The loop of a class. -/
def pushEnabled (on : Bool) (pool : Text) (count : ℕ) (b : List (Option Char)×ℕ) :
    Except WebError (List (Option Char)×ℕ) :=
  if on then times (pushRandom source pool) count b else .ok b

/-- `[chars[i], chars[j]] = [chars[j], chars[i]]`. -/
def swap (chars : List (Option Char)) (i j : ℕ) : List (Option Char) :=
  (chars.set i (chars.getD j none)).set j (chars.getD i none)

/-- The last loop, from an index down to one. -/
def shuffle : ℕ → List (Option Char)×ℕ → Except WebError (List (Option Char)×ℕ)
  | 0,b => .ok b
  | i+1,b => do
    let (j,s) ← randomIndex source (i+2) b.2
    shuffle i (swap b.1 (i+1) j,s)

/-- `chars.join("")`, up to the greatest length of a string. -/
def join (maxString : ℕ) (chars : List (Option Char)) : Except WebError Text :=
  let text := chars.filterMap id
  if text.length≤ maxString then .ok text else .error .rangeError

/-- `generatePassword`. The fourth loop runs until the length is reached. -/
def generatePassword (maxString : ℕ) (cfg : PasswordConfig ℕ) (s : ℕ) : Except WebError Text := do
  let charset := cfg.charset
  if charset=[] then .error .noClasses
  else
    let avoid := cfg.avoidAmbiguous
    let b ← pushEnabled source cfg.uppercase (filterAmbiguous UPPERCASE avoid) cfg.minUppercase ([],s)
    let b ← pushEnabled source cfg.lowercase (filterAmbiguous LOWERCASE avoid) cfg.minLowercase b
    let b ← pushEnabled source cfg.numbers (filterAmbiguous DIGITS avoid) cfg.minNumbers b
    let b ← pushEnabled source cfg.symbols SYMBOLS cfg.minSpecial b
    let b ← times (pushRandom source charset) (cfg.length-b.1.length) b
    let b ← shuffle source (b.1.length-1) b
    join maxString b.1

/-- The call throws, or returns a password of the configuration. -/
def Contract (maxString : ℕ) (cfg : PasswordConfig ℕ) (s : ℕ) : Prop :=
  match generatePassword source maxString cfg s with
  | .ok pw => Meets cfg pw
  | .error e => e≠.endless

end Source

section Draws

variable {source : WordSource} {max s : ℕ}

/-- A range of at most 32 bits has a limit of at least 31. -/
theorem le_limit (hpos : 0< max) (hmax : max≤2^32) : 2^31≤limit max := by
  have hdivision := Nat.div_add_mod (2^32) max
  have hrest := Nat.mod_lt (2^32) hpos
  have hquotient : 1≤2^32/max := (Nat.one_le_div_iff hpos).mpr hmax
  have hone : max≤2^32/max*max := Nat.le_mul_of_pos_left max hquotient
  rw [Nat.mul_comm] at hdivision
  rw [limit]
  omega

/-- It ends, with an index in the range. -/
theorem randomIndex_lt (source : WordSource) (s : ℕ) (hpos : 0< max) (hmax : max≤2^32) : ∃ i s',randomIndex source max s=.ok (i,s') ∧ i< max := by
  have hlimit := le_limit hpos hmax
  rw [randomIndex,if_neg (by omega),dif_pos hlimit]
  exact ⟨_,_,rfl,Nat.mod_lt _ hpos⟩

end Draws

section Loops

variable {source : WordSource} {pool : Text}

/-- A character of the pool is pushed. -/
theorem appends_pushRandom (hpool : pool≠[]) (hlength : pool.length≤88) (b : List (Option Char)×ℕ) :
    Appends MAX_ARRAY .rangeError 1 (fun t => ∀ x∈t,∃ c,x=some c ∧ c∈pool) b (pushRandom source pool b) := by
  obtain ⟨i,s',hindex,hlt⟩ :=
    randomIndex_lt source b.2 (List.length_pos_iff.mpr hpool) (hlength.trans (by decide))
  have hpick : pickRandom source pool b.2=.ok (some pool[i],s') := by
    rw [pickRandom,hindex]
    dsimp only [bind,Except.bind]
    rw [List.getElem?_eq_getElem hlt]
  rw [pushRandom,hpick]
  refine appends_push fun x hx => ⟨_,List.mem_singleton.mp hx,List.getElem_mem hlt⟩

/-- Two elements change places. -/
theorem swap_perm {chars : List (Option Char)} {i j : ℕ} (hi : i<chars.length) (hj : j<chars.length) :
    (swap chars i j).Perm chars := by
  rw [swap,List.getD_eq_getElem _ _ hi,List.getD_eq_getElem _ _ hj]
  exact List.set_set_perm hi hj

/-- The shuffle ends, with a permutation. -/
theorem shuffle_perm (source : WordSource) {i : ℕ} {b : List (Option Char)×ℕ} (hi : i<b.1.length ∨ i=0) (hb : b.1.length≤MAX_ARRAY) :
    ∃ b',shuffle source i b=.ok b' ∧ b'.1.Perm b.1 := by
  induction i generalizing b with
  | zero => exact ⟨b,rfl,List.Perm.refl _⟩
  | succ i ih =>
    have hlt : i+1<b.1.length := hi.resolve_right (by omega)
    have hmax : i+2≤2^32 := by
      have harray : MAX_ARRAY=2^32-1 := rfl
      omega
    obtain ⟨j,s',hindex,hj⟩ := randomIndex_lt source b.2 (show 0< i+2 by omega) hmax
    have hswap := swap_perm hlt (show j<b.1.length by omega)
    obtain ⟨b',hok,hperm⟩ := ih (b:=(swap b.1 (i+1) j,s')) (.inl (by rw [hswap.length_eq]; omega))
      (by rw [hswap.length_eq]; exact hb)
    refine ⟨b',?_,hperm.trans hswap⟩
    rw [shuffle,hindex]
    exact hok

end Loops

section Runs

variable {source : WordSource} {maxString : ℕ} {cfg : PasswordConfig ℕ} {s : ℕ}

/-- All loops that push, as one computation. -/
def loops (source : WordSource) (cfg : PasswordConfig ℕ) (s : ℕ) : Except WebError (List (Option Char)×ℕ) := do
  let b ← cfg.classes.foldlM (fun b cl =>
    pushEnabled source cl.enabled (filterAmbiguous cl.pool cfg.avoidAmbiguous) cl.least b) ([],s)
  times (pushRandom source cfg.charset) (cfg.length-b.1.length) b

/-- They append the required characters and the rest. -/
theorem appends_loops (source : WordSource) (s : ℕ) (hsome : cfg.someEnabled) :
    Appends MAX_ARRAY .rangeError (max cfg.length cfg.enabledLeast) (Coded some (Mixed cfg)) ([],s)
      (loops source cfg s) := by
  have hcharset : cfg.charset≠[] := charset_ne_nil.mpr hsome
  refine appends_mixed cfg (fun cl _ hoff b => ?_) (fun cl hcl hon b hb => ?_)
    fun b _ => appends_pushRandom hcharset length_charset b
  · rw [pushEnabled,hoff]
    rfl
  · rw [pushEnabled,if_pos hon]
    refine appends_pool (fun b _ => appends_pushRandom (filterAmbiguous_ne_nil _ hcl) ?_ b) cl.least hb
    exact length_filterAmbiguous hcl

/-- The calls with a class. -/
theorem generatePassword_eq (hsome : cfg.someEnabled) : generatePassword source maxString cfg s=
    loops source cfg s >>= fun b => shuffle source (b.1.length-1) b >>= fun b => join maxString b.1 := by
  have hcharset : cfg.charset≠[] := charset_ne_nil.mpr hsome
  unfold generatePassword loops
  dsimp only
  rw [if_neg hcharset]
  simp only [PasswordConfig.classes,List.foldlM_cons,List.foldlM_nil,bind_assoc,pure_bind,filterAmbiguous_symbols]

/-- They return a permutation of what the loops pushed, if it fits into an
array and a string. -/
theorem generatePassword_run (source : WordSource) (maxString s : ℕ) (hsome : cfg.someEnabled) :
    if max cfg.length cfg.enabledLeast≤ min MAX_ARRAY maxString then
      ∃ t pw,generatePassword source maxString cfg s=.ok pw ∧ pw.Perm t ∧ Mixed cfg t ∧
        pw.length=max cfg.length cfg.enabledLeast
    else generatePassword source maxString cfg s=.error .rangeError := by
  have hloops := appends_loops source s hsome
  rw [Appends,List.length_nil,Nat.zero_add] at hloops
  rw [generatePassword_eq hsome]
  by_cases harray : max cfg.length cfg.enabledLeast≤MAX_ARRAY
  · rw [if_pos harray] at hloops
    obtain ⟨t,s',hok,hlength,u,rfl,hmixed⟩ := hloops
    rw [List.length_map] at hlength
    have hpos : u.length-1<(u.map some).length ∨ u.length-1=0 := by
      rw [List.length_map]
      omega
    obtain ⟨b',hshuffle,hperm⟩ := shuffle_perm source (b:=(u.map some,s')) hpos
      (by rw [List.length_map,hlength]; exact harray)
    have hjoined : (b'.1.filterMap id).Perm u := by
      have hfilter := hperm.filterMap id
      rwa [List.filterMap_map,Function.id_comp,List.filterMap_some] at hfilter
    have hresult : (loops source cfg s >>= fun b => shuffle source (b.1.length-1) b >>= fun b => join maxString b.1)=
        join maxString b'.1 := by
      rw [hok]
      dsimp only [bind,Except.bind]
      rw [List.nil_append,List.length_map,hshuffle]
    rw [hresult,join,hjoined.length_eq,hlength]
    by_cases hstring : max cfg.length cfg.enabledLeast≤ maxString
    · rw [if_pos (le_min harray hstring),if_pos hstring]
      exact ⟨u,_,rfl,hjoined,hmixed,by rw [hjoined.length_eq,hlength]⟩
    · rw [if_neg fun h => hstring (h.trans (min_le_right _ _)),if_neg hstring]
  · rw [if_neg harray] at hloops
    rw [if_neg fun h => harray (h.trans (min_le_left _ _)),hloops]
    rfl

/-- The generator meets its contract exactly if no class is enabled, the
minima of the enabled classes fit into the length, or they do not even fit into
an array and a string. -/
theorem web_contract_iff : Contract source maxString cfg s ↔
    ¬cfg.someEnabled ∨ cfg.enabledLeast≤cfg.length ∨ min MAX_ARRAY maxString<cfg.enabledLeast := by
  by_cases hsome : cfg.someEnabled
  · have hrun := generatePassword_run source maxString s hsome
    split_ifs at hrun with hroom
    · obtain ⟨t,pw,hok,hperm,hmixed,hlength⟩ := hrun
      rw [Contract,hok]
      constructor
      · intro hmeets
        have hmax := hmeets.length
        rw [hlength] at hmax
        exact .inr (.inl (by omega))
      · rintro (hnone|hfits|hlarge)
        · exact absurd hsome hnone
        · exact meets_of_perm hmixed hperm (by rw [hlength,max_eq_left hfits])
        · exact absurd hlarge (not_lt.mpr ((le_max_right _ _).trans hroom))
    · rw [Contract,hrun]
      refine ⟨fun _ => ?_,fun _ => nofun⟩
      by_cases hfits : cfg.enabledLeast≤cfg.length
      · exact .inr (.inl hfits)
      · rw [max_eq_right (by omega)] at hroom
        exact .inr (.inr (not_le.mp hroom))
  · have hnone : generatePassword source maxString cfg s=.error .noClasses := by
      rw [generatePassword]
      exact if_pos (by_contra fun hne => hsome (charset_ne_nil.mp hne))
    rw [Contract,hnone]
    exact ⟨fun _ => .inl hsome,fun _ => nofun⟩

end Runs

section Panel

/-- `DEFAULT_PASSWORD_CONFIG`, which the panel starts with. -/
def DEFAULT_PASSWORD_CONFIG : PasswordConfig ℕ where
  length := 20
  uppercase := true
  lowercase := true
  numbers := true
  symbols := true
  avoidAmbiguous := false
  minUppercase := 1
  minLowercase := 1
  minNumbers := 1
  minSpecial := 1

/-- `update` with a length that was typed. -/
def typeLength (config : PasswordConfig ℕ) (length : ℕ) : PasswordConfig ℕ := {config with length := length}

/-- A source of zeros. -/
def zeros : WordSource where
  word _ := 0
  low n := ⟨n,le_refl n,by decide⟩

/-- A length of two, typed into the panel, gives four characters. -/
theorem short_length_exceeded : (∃ pw,generatePassword zeros (2^29) (typeLength DEFAULT_PASSWORD_CONFIG 2) 0=.ok pw ∧
    pw.length=4) ∧ ¬Contract zeros (2^29) (typeLength DEFAULT_PASSWORD_CONFIG 2) 0 := by
  have hsome : (typeLength DEFAULT_PASSWORD_CONFIG 2).someEnabled := ⟨_,List.mem_cons_self,rfl⟩
  have hrun := generatePassword_run zeros (2^29) 0 hsome
  rw [if_pos (by decide)] at hrun
  obtain ⟨t,pw,hok,-,-,hlength⟩ := hrun
  refine ⟨⟨pw,hok,hlength⟩,?_⟩
  rw [Contract,hok]
  intro hmeets
  have htwo := hmeets.length
  rw [hlength] at htwo
  exact absurd htwo (by decide)

end Panel

end NadSafe.WebPasswords
