import Mathlib.Algebra.Ring.Nat
import NadSafe.BoundedBuffers
import NadSafe.HostText

/-!
# Character classes of generated passwords

The configuration of the two password generators, their character classes,
and what a password of a configuration is. A text is one if it is a
permutation of the required characters, class by class, and of characters of
enabled classes.
-/

namespace NadSafe.PasswordClasses

open HostText BoundedBuffers

/-- `UPPERCASE`. -/
def UPPERCASE : Text := "ABCDEFGHIJKLMNOPQRSTUVWXYZ".toList

/-- `LOWERCASE`. -/
def LOWERCASE : Text := "abcdefghijklmnopqrstuvwxyz".toList

/-- `DIGITS`. -/
def DIGITS : Text := "0123456789".toList

/-- `SYMBOLS`. -/
def SYMBOLS : Text := "!@#$%^&*()_+-=[]\x7b\x7d|;:,.<>?".toList

/-- `AMBIGUOUS`. -/
def AMBIGUOUS : Text := "Il1O0".toList

/-- `PasswordConfig`, with numbers of a kind. -/
structure PasswordConfig (N : Type) where
  /-- How many characters. -/
  length : N
  /-- Capitals. -/
  uppercase : Bool
  /-- Lowercase letters. -/
  lowercase : Bool
  /-- Digits. -/
  numbers : Bool
  /-- Symbols. -/
  symbols : Bool
  /-- No character that looks like another. -/
  avoidAmbiguous : Bool
  /-- At least so many capitals. -/
  minUppercase : N
  /-- At least so many lowercase letters. -/
  minLowercase : N
  /-- At least so many digits. -/
  minNumbers : N
  /-- At least so many symbols. -/
  minSpecial : N

/-- A class of a configuration. -/
structure CharClass where
  /-- Whether the password has characters of it. -/
  enabled : Bool
  /-- Its characters. -/
  pool : Text
  /-- At least so many of them. -/
  least : ℕ

/-- `filter_ambiguous`. -/
def filterAmbiguous (pool : Text) (avoid : Bool) : Text :=
  if !avoid then pool else pool.filter fun c => !AMBIGUOUS.contains c

/-- `charset`. -/
def PasswordConfig.charset {N : Type} (cfg : PasswordConfig N) : Text :=
  (if cfg.uppercase then filterAmbiguous UPPERCASE cfg.avoidAmbiguous else [])++
    (if cfg.lowercase then filterAmbiguous LOWERCASE cfg.avoidAmbiguous else [])++
    (if cfg.numbers then filterAmbiguous DIGITS cfg.avoidAmbiguous else [])++
    (if cfg.symbols then SYMBOLS else [])

section Configurations

variable (cfg : PasswordConfig ℕ)

/-- The four classes. -/
def PasswordConfig.classes : List CharClass :=
  [⟨cfg.uppercase,UPPERCASE,cfg.minUppercase⟩,⟨cfg.lowercase,LOWERCASE,cfg.minLowercase⟩,
    ⟨cfg.numbers,DIGITS,cfg.minNumbers⟩,⟨cfg.symbols,SYMBOLS,cfg.minSpecial⟩]

/-- Some class is enabled. -/
def PasswordConfig.someEnabled : Prop := ∃ cl∈cfg.classes,cl.enabled=true

/-- The minima of enabled classes, together. -/
def PasswordConfig.enabledLeast : ℕ := ((cfg.classes.filter CharClass.enabled).map CharClass.least).sum

/-- All four minima, together. -/
def PasswordConfig.totalLeast : ℕ := cfg.minUppercase+cfg.minLowercase+cfg.minNumbers+cfg.minSpecial

/-- A password of a configuration. -/
structure Meets (pw : Text) : Prop where
  /-- So many characters. -/
  length : pw.length=cfg.length
  /-- All from enabled classes. -/
  enabled : ∀ c∈pw,∃ cl∈cfg.classes,cl.enabled=true ∧ c∈cl.pool
  /-- None ambiguous, if these are avoided. -/
  plain : cfg.avoidAmbiguous=true → ∀ c∈pw,c∉AMBIGUOUS
  /-- The minimum of each enabled class. -/
  least : ∀ cl∈cfg.classes,cl.enabled=true → cl.least≤pw.countP fun c => cl.pool.contains c

/-- The characters of an enabled class that may be drawn. -/
def Drawable (c : Char) : Prop := ∃ cl∈cfg.classes,cl.enabled=true ∧ c∈filterAmbiguous cl.pool cfg.avoidAmbiguous

end Configurations

/-- Required characters, class by class. -/
inductive Filled (avoid : Bool) : List CharClass → Text → Prop where
  /-- No class is left. -/
  | done : Filled avoid [] []
  /-- A class that is off. -/
  | off {cl : CharClass} {rest : List CharClass} {t : Text} (hoff : cl.enabled=false) (h : Filled avoid rest t) :
      Filled avoid (cl::rest) t
  /-- As many of a class as it requires. -/
  | on {cl : CharClass} {rest : List CharClass} {block t : Text} (hon : cl.enabled=true)
      (hlength : block.length=cl.least) (hblock : ∀ c∈block,c∈filterAmbiguous cl.pool avoid)
      (h : Filled avoid rest t) : Filled avoid (cl::rest) (block++t)

/-- Required characters, and then characters of the charset. -/
def Mixed (cfg : PasswordConfig ℕ) (t : Text) : Prop := ∃ required rest,t=required++rest ∧
  Filled cfg.avoidAmbiguous cfg.classes required ∧ ∀ c∈rest,c∈cfg.charset

section Classes

variable {cfg : PasswordConfig ℕ} {avoid : Bool} {cls : List CharClass} {t : Text}

theorem filterAmbiguous_sub {pool : Text} {c : Char} (hc : c∈filterAmbiguous pool avoid) :
    c∈pool ∧ (avoid=true → c∉AMBIGUOUS) := by
  cases avoid with
  | false => exact ⟨hc,nofun⟩
  | true =>
    obtain ⟨hmem,hplain⟩ := List.mem_filter.mp hc
    refine ⟨hmem,fun _ hambiguous => ?_⟩
    rw [List.contains_iff_mem.mpr hambiguous] at hplain
    cases hplain

/-- Every class has a character that is not ambiguous. -/
theorem filterAmbiguous_ne_nil (avoid : Bool) {cl : CharClass} (hcl : cl∈cfg.classes) : filterAmbiguous cl.pool avoid≠[] := by
  have hall : ∀ pool∈[UPPERCASE,LOWERCASE,DIGITS,SYMBOLS],∀ avoid,filterAmbiguous pool avoid≠[] := by decide
  refine hall cl.pool ?_ avoid
  exact List.mem_map_of_mem (f:=CharClass.pool) hcl

/-- Classes are short. -/
theorem length_filterAmbiguous {cl : CharClass} (hcl : cl∈cfg.classes) : (filterAmbiguous cl.pool avoid).length≤88 := by
  have hall : ∀ pool∈[UPPERCASE,LOWERCASE,DIGITS,SYMBOLS],∀ avoid,(filterAmbiguous pool avoid).length≤88 := by decide
  refine hall cl.pool ?_ avoid
  exact List.mem_map_of_mem (f:=CharClass.pool) hcl

/-- No symbol is ambiguous. -/
theorem filterAmbiguous_symbols : filterAmbiguous SYMBOLS avoid=SYMBOLS := by
  revert avoid
  decide

/-- The charset is the enabled classes, one after the other. -/
theorem charset_eq : cfg.charset=
    cfg.classes.flatMap fun cl => if cl.enabled then filterAmbiguous cl.pool cfg.avoidAmbiguous else [] := by
  simp only [PasswordConfig.charset,PasswordConfig.classes,List.flatMap_cons,List.flatMap_nil,List.append_nil,
    List.append_assoc,filterAmbiguous_symbols]

/-- It has their characters. -/
theorem mem_charset {c : Char} : c∈cfg.charset ↔ Drawable cfg c := by
  rw [charset_eq,List.mem_flatMap,Drawable]
  refine exists_congr fun cl => and_congr_right fun _ => ?_
  cases cl.enabled with
  | false => exact ⟨nofun,fun h => nomatch h.1⟩
  | true => exact ⟨fun hc => ⟨rfl,hc⟩,fun h => h.2⟩

/-- It is empty exactly if no class is enabled. -/
theorem charset_ne_nil : cfg.charset≠[] ↔ cfg.someEnabled := by
  constructor
  · intro hne
    obtain ⟨c,hc⟩ := List.exists_mem_of_ne_nil _ hne
    obtain ⟨cl,hcl,hon,-⟩ := (mem_charset).mp hc
    exact ⟨cl,hcl,hon⟩
  · rintro ⟨cl,hcl,hon⟩
    obtain ⟨c,hc⟩ := List.exists_mem_of_ne_nil _ (filterAmbiguous_ne_nil cfg.avoidAmbiguous hcl)
    exact List.ne_nil_of_mem ((mem_charset).mpr ⟨cl,hcl,hon,hc⟩)

/-- It is short. -/
theorem length_charset : cfg.charset.length≤88 := by
  have hfilter : ∀ (on avoid : Bool) (pool : Text),(if on then filterAmbiguous pool avoid else []).length≤pool.length := by
    intro on avoid pool
    cases on with
    | false => exact Nat.zero_le _
    | true =>
      cases avoid with
      | false => exact le_refl _
      | true => exact List.length_filter_le _ _
  have hupper := hfilter cfg.uppercase cfg.avoidAmbiguous UPPERCASE
  have hlower := hfilter cfg.lowercase cfg.avoidAmbiguous LOWERCASE
  have hdigits := hfilter cfg.numbers cfg.avoidAmbiguous DIGITS
  have hsymbols := hfilter cfg.symbols cfg.avoidAmbiguous SYMBOLS
  have hlengths : UPPERCASE.length+LOWERCASE.length+DIGITS.length+SYMBOLS.length=88 := by decide
  rw [filterAmbiguous_symbols] at hsymbols
  rw [PasswordConfig.charset,List.length_append,List.length_append,List.length_append]
  omega

/-- Required characters are as many as the minima of enabled classes. -/
theorem Filled.length (h : Filled avoid cls t) : t.length=((cls.filter CharClass.enabled).map CharClass.least).sum := by
  induction h with
  | done => rfl
  | off hoff h ih => rw [List.filter_cons_of_neg (by rw [hoff]; decide),ih]
  | on hon hlength hblock h ih =>
    rw [List.filter_cons_of_pos hon,List.map_cons,List.sum_cons,List.length_append,hlength,ih]

/-- They are of enabled classes. -/
theorem Filled.mem (h : Filled avoid cls t) {c : Char} (hc : c∈t) :
    ∃ cl∈cls,cl.enabled=true ∧ c∈filterAmbiguous cl.pool avoid := by
  induction h with
  | done => cases hc
  | off hoff h ih =>
    obtain ⟨cl,hcl,hrest⟩ := ih hc
    exact ⟨cl,List.mem_cons_of_mem _ hcl,hrest⟩
  | on hon hlength hblock h ih =>
    rcases List.mem_append.mp hc with hc|hc
    · exact ⟨_,List.mem_cons_self,hon,hblock c hc⟩
    · obtain ⟨cl,hcl,hrest⟩ := ih hc
      exact ⟨cl,List.mem_cons_of_mem _ hcl,hrest⟩

/-- Each enabled class has its minimum. -/
theorem Filled.count (h : Filled avoid cls t) {cl : CharClass} (hcl : cl∈cls) (hon : cl.enabled=true) :
    cl.least≤t.countP fun c => cl.pool.contains c := by
  induction h with
  | done => cases hcl
  | off hoff h ih =>
    rcases List.mem_cons.mp hcl with rfl|hcl
    · rw [hon] at hoff
      cases hoff
    · exact ih hcl
  | on hon' hlength hblock h ih =>
    rw [List.countP_append]
    rcases List.mem_cons.mp hcl with rfl|hcl
    · rw [List.countP_eq_length.mpr fun c hc => List.contains_iff_mem.mpr (filterAmbiguous_sub (hblock c hc)).1,hlength]
      exact Nat.le_add_right _ _
    · exact (ih hcl).trans (Nat.le_add_left _ _)

/-- Required characters, further characters of enabled classes, and any
permutation. -/
theorem meets_of_perm {pw : Text} (hmixed : Mixed cfg t) (hperm : pw.Perm t) (hlength : pw.length=cfg.length) :
    Meets cfg pw := by
  obtain ⟨required,rest,rfl,hrequired,hrest⟩ := hmixed
  have hdraw : ∀ c∈pw,Drawable cfg c := by
    intro c hc
    rcases List.mem_append.mp (hperm.mem_iff.mp hc) with hc|hc
    · exact hrequired.mem hc
    · exact (mem_charset).mp (hrest c hc)
  refine ⟨hlength,fun c hc => ?_,fun havoid c hc => ?_,fun cl hcl hon => ?_⟩
  · obtain ⟨cl,hcl,hon,hmem⟩ := hdraw c hc
    exact ⟨cl,hcl,hon,(filterAmbiguous_sub hmem).1⟩
  · obtain ⟨cl,-,-,hmem⟩ := hdraw c hc
    exact (filterAmbiguous_sub hmem).2 havoid
  · rw [hperm.countP_eq,List.countP_append]
    exact (hrequired.count hcl hon).trans (Nat.le_add_right _ _)

/-- The minima of enabled classes are some of the minima. -/
theorem enabledLeast_le (cfg : PasswordConfig ℕ) : cfg.enabledLeast≤cfg.totalLeast := by
  have hone : ∀ (cl : CharClass) (rest : List CharClass),
      (((cl::rest).filter CharClass.enabled).map CharClass.least).sum≤
        cl.least+((rest.filter CharClass.enabled).map CharClass.least).sum := by
    intro cl rest
    cases hon : cl.enabled with
    | false =>
      rw [List.filter_cons_of_neg (by rw [hon]; decide)]
      exact Nat.le_add_left _ _
    | true =>
      rw [List.filter_cons_of_pos hon]
      exact le_refl _
  have hall : ∀ cls : List CharClass,((cls.filter CharClass.enabled).map CharClass.least).sum≤
      (cls.map CharClass.least).sum := by
    intro cls
    induction cls with
    | nil => exact le_refl _
    | cons cl rest ih => exact (hone cl rest).trans (Nat.add_le_add_left ih _)
  have hsum : (cfg.classes.map CharClass.least).sum=cfg.totalLeast := by
    simp only [PasswordConfig.classes,PasswordConfig.totalLeast,List.map_cons,List.map_nil,List.sum_cons,List.sum_nil,
      Nat.add_zero,Nat.add_assoc]
  rw [← hsum]
  exact hall cfg.classes

end Classes

section Loops

variable {α σ ε : Type} {limit : ℕ} {full : ε} {code : Char → α}

/-- A buffer whose elements stand for the characters of a text. -/
def Coded (code : Char → α) (P : Text → Prop) (t : List α) : Prop := ∃ u : Text,t=u.map code ∧ P u

theorem coded_of_forall {p : Char → Prop} {t : List α} (h : ∀ x∈t,∃ c,x=code c ∧ p c) :
    Coded code (fun u => ∀ c∈u,p c) t := by
  induction t with
  | nil => exact ⟨[],rfl,nofun⟩
  | cons x t ih =>
    obtain ⟨⟨c,hx,hc⟩,hrest⟩ := List.forall_mem_cons.mp h
    obtain ⟨u,ht,hu⟩ := ih hrest
    exact ⟨c::u,by rw [List.map_cons,hx,ht],List.forall_mem_cons.mpr ⟨hc,hu⟩⟩

/-- A loop that pushes characters of a pool. -/
theorem appends_pool {body : List α×σ → Except ε (List α×σ)} {pool : Text}
    (hbody : ∀ b : List α×σ,b.1.length≤limit →
      Appends limit full 1 (fun t => ∀ x∈t,∃ c,x=code c ∧ c∈pool) b (body b))
    (n : ℕ) {b : List α×σ} (hb : b.1.length≤limit) :
    Appends limit full n (Coded code fun u => ∀ c∈u,c∈pool) b (times body n b) :=
  (appends_times hbody n hb).mono fun _ _ => coded_of_forall

variable {classLoop : CharClass → List α×σ → Except ε (List α×σ)} {avoid : Bool}

/-- A loop for each class. -/
theorem appends_classes {cls : List CharClass} (hoff : ∀ cl∈cls,cl.enabled=false → ∀ b,classLoop cl b=.ok b)
    (hon : ∀ cl∈cls,cl.enabled=true → ∀ b : List α×σ,b.1.length≤limit → Appends limit full cl.least
      (Coded code fun u => ∀ c∈u,c∈filterAmbiguous cl.pool avoid) b (classLoop cl b))
    {b : List α×σ} (hb : b.1.length≤limit) :
    Appends limit full ((cls.filter CharClass.enabled).map CharClass.least).sum (Coded code (Filled avoid cls)) b
      (cls.foldlM (fun b cl => classLoop cl b) b) := by
  induction cls generalizing b with
  | nil => exact appends_nothing hb ⟨[],rfl,.done⟩
  | cons cl rest ih =>
    have hrest := fun {b : List α×σ} => ih (b:=b) (fun x hx => hoff x (List.mem_cons_of_mem cl hx))
      fun x hx => hon x (List.mem_cons_of_mem cl hx)
    rw [List.foldlM_cons]
    cases henabled : cl.enabled with
    | false =>
      rw [List.filter_cons_of_neg (by rw [henabled]; decide),hoff cl List.mem_cons_self henabled b]
      refine Appends.mono (hrest hb) fun t _ ht => ?_
      obtain ⟨u,rfl,hu⟩ := ht
      exact ⟨u,rfl,.off henabled hu⟩
    | true =>
      rw [List.filter_cons_of_pos henabled,List.map_cons,List.sum_cons]
      have hfirst := (hon cl List.mem_cons_self henabled b hb).mono (Q:=fun t => t.length=cl.least ∧
        Coded code (fun u => ∀ c∈u,c∈filterAmbiguous cl.pool avoid) t) fun t hlength ht => ⟨hlength,ht⟩
      have hboth := hfirst.bind (k:=fun b => rest.foldlM (fun b cl => classLoop cl b) b)
        fun block s hlength hfits => hrest (b:=(b.1++block,s)) (by
          rw [List.length_append,hlength]
          exact hfits)
      refine Appends.mono hboth fun t _ ht => ?_
      obtain ⟨front,back,rfl,⟨hlength,u,rfl,hu⟩,v,rfl,hv⟩ := ht
      rw [List.length_map] at hlength
      exact ⟨u++v,(List.map_append).symm,.on henabled hlength hu hv⟩

/-- The loops of all classes, and then one that runs until the length is
reached. -/
theorem appends_mixed (cfg : PasswordConfig ℕ) {body : List α×σ → Except ε (List α×σ)} {s : σ}
    (hoff : ∀ cl∈cfg.classes,cl.enabled=false → ∀ b,classLoop cl b=.ok b)
    (hon : ∀ cl∈cfg.classes,cl.enabled=true → ∀ b : List α×σ,b.1.length≤limit → Appends limit full cl.least
      (Coded code fun u => ∀ c∈u,c∈filterAmbiguous cl.pool cfg.avoidAmbiguous) b (classLoop cl b))
    (hbody : ∀ b : List α×σ,b.1.length≤limit →
      Appends limit full 1 (fun t => ∀ x∈t,∃ c,x=code c ∧ c∈cfg.charset) b (body b)) :
    Appends limit full (max cfg.length cfg.enabledLeast) (Coded code (Mixed cfg)) ([],s)
      (cfg.classes.foldlM (fun b cl => classLoop cl b) ([],s) >>= fun b => times body (cfg.length-b.1.length) b) := by
  have hrequired := appends_classes hoff hon (b:=([],s)) (Nat.zero_le limit)
  have hboth := hrequired.bind (m:=cfg.length-cfg.enabledLeast) (Q:=Coded code fun u => ∀ c∈u,c∈cfg.charset)
    (k:=fun b => times body (cfg.length-b.1.length) b) fun block s hlength hfits => by
      have hblock : block.length=cfg.enabledLeast := hlength
      rw [List.length_nil,Nat.zero_add,← hlength] at hfits
      dsimp only
      rw [List.nil_append,hblock]
      exact appends_pool hbody _ hfits
  have htotal : cfg.enabledLeast+(cfg.length-cfg.enabledLeast)=max cfg.length cfg.enabledLeast := by omega
  rw [← htotal]
  refine Appends.mono hboth fun t _ ht => ?_
  obtain ⟨x,y,rfl,⟨required,rfl,hfilled⟩,rest,rfl,hrest⟩ := ht
  exact ⟨required++rest,(List.map_append).symm,required,rest,rfl,hfilled,hrest⟩

end Loops

end NadSafe.PasswordClasses
