import NadSafe.SecondFactors

/-!
# The address in a two-factor prompt

A login that asks for a code names the address the code went to, with all but
two characters of its local part as asterisks. The characters are counted, but
the cut is made after two bytes.
-/

namespace NadSafe.ObscuredEmails

open HostText
open SecondFactors (byteLength firstBytes)

/-- How a call panics. -/
inductive Panic where
  /-- `split[1]`, of an address without a separator. -/
  | indexOutOfBounds
  /-- `name_size - 2`, or the capacity of that many asterisks. -/
  | overflow
  /-- `truncate`, within a character. -/
  | charBoundary

/-- Rust `str::rsplit_once`: the parts around the last separator. -/
def rsplitOnce (sep : Char) (s : Text) : Option (Text×Text) :=
  (splitOnce sep s.reverse).map fun r => (r.2.reverse,r.1.reverse)

/-- Rust `str::rsplitn`: at most `n` parts from the end, the last one uncut. -/
def rsplitn (sep : Char) : ℕ → Text → List Text
  | 0,_ => []
  | 1,s => [s]
  | n+2,s =>
    match rsplitOnce sep s with
    | none => [s]
    | some (rest,part) => part::rsplitn sep (n+1) rest

/-- `String::truncate`. A string that is no longer stays as it is. -/
def truncate (n : ℕ) (s : Text) : Except Panic Text :=
  if n≤byteLength s then
    match firstBytes n s with
    | some t => .ok t
    | none => .error .charBoundary
  else .ok s

/-- `obscure_email`. -/
def obscureEmail (email : Text) : Except Panic Text :=
  match rsplitn '@' 2 email with
  | domain::name::_ => do
    let nameSize := name.length
    let newName ←
      if 1≤nameSize ∧ nameSize≤3 then .ok (List.replicate nameSize '*')
      else if nameSize<2 then .error .overflow
      else do
        let stars := List.replicate (nameSize-2) '*'
        let name ← truncate 2 name
        .ok (name++stars)
    .ok (newName++ '@'::domain)
  | _ => .error .indexOutOfBounds

/-- The domain is there, and as many characters before it as there were, with
the first two of a long local part and asterisks for all others. -/
def Obscured (name domain r : Text) : Prop :=
  ∃ newName,r=newName++ '@'::domain ∧ newName.length=name.length ∧
    ∀ k< name.length,newName[k]?=if 3<name.length ∧ k<2 then name[k]? else some '*'

section Cuts

variable {sep : Char} {a b s : Text} {n : ℕ}

/-- The last separator is where `rsplit_once` cuts. -/
theorem rsplitOnce_last (h : sep∉b) : rsplitOnce sep (a++sep::b)=some (a,b) := by
  have hreverse : (a++sep::b).reverse=b.reverse++sep::a.reverse := by
    rw [List.reverse_append,List.reverse_cons,List.append_assoc,List.singleton_append]
  have hcut : splitOnce sep (a++sep::b).reverse=some (b.reverse,a.reverse) :=
    splitOnce_eq_some_iff.mpr ⟨hreverse,fun hmem => h (List.mem_reverse.mp hmem)⟩
  rw [rsplitOnce,hcut,Option.map_some,List.reverse_reverse,List.reverse_reverse]

theorem rsplitn_last (h : sep∉b) : rsplitn sep 2 (a++sep::b)=[b,a] := by
  rw [rsplitn,rsplitOnce_last h]
  rfl

/-- A character has one byte at least. -/
theorem length_le_byteLength (s : Text) : s.length≤byteLength s := by
  induction s with
  | nil => exact le_refl 0
  | cons c s ih =>
    have hpos := Char.utf8Size_pos c
    have hbytes : byteLength (c::s)=c.utf8Size+byteLength s := rfl
    rw [List.length_cons,hbytes]
    omega

/-- Two bytes of a text are two characters, or one, or end within one. -/
theorem firstBytes_two {c d : Char} : firstBytes 2 (c::d::s)=
    if c.utf8Size=1 then if d.utf8Size=1 then some [c,d] else none
    else if c.utf8Size=2 then some [c] else none := by
  have hc := Char.utf8Size_pos c
  have hd := Char.utf8Size_pos d
  rw [firstBytes]
  by_cases hone : c.utf8Size=1
  · rw [if_pos hone,hone,if_pos (by omega),firstBytes]
    by_cases hnarrow : d.utf8Size=1
    · rw [if_pos hnarrow,hnarrow,if_pos (by omega),firstBytes]
      rfl
    · rw [if_neg hnarrow,if_neg (by omega)]
      rfl
  · rw [if_neg hone]
    by_cases htwo : c.utf8Size=2
    · rw [if_pos htwo,htwo,if_pos (by omega),firstBytes]
      rfl
    · rw [if_neg htwo,if_neg (by omega)]

/-- A text of two characters or more has two bytes to cut at. -/
theorem truncate_two {c d : Char} : truncate 2 (c::d::s)=
    if c.utf8Size=1 then if d.utf8Size=1 then .ok [c,d] else .error .charBoundary
    else if c.utf8Size=2 then .ok [c] else .error .charBoundary := by
  have hlength := length_le_byteLength (c::d::s)
  have htwo : 2≤byteLength (c::d::s) := by
    rw [List.length_cons,List.length_cons] at hlength
    omega
  rw [truncate,if_pos htwo,firstBytes_two]
  split_ifs <;> rfl

end Cuts

section Addresses

variable {name domain : Text}

/-- Asterisks for a short local part. -/
theorem obscureEmail_short (hname : name≠[]) (hdomain : '@'∉domain) (h : name.length≤3) :
    obscureEmail (name++ '@'::domain)=.ok (List.replicate name.length '*'++ '@'::domain) := by
  have hpos := List.length_pos_iff.mpr hname
  rw [obscureEmail,rsplitn_last hdomain]
  dsimp only
  rw [if_pos ⟨hpos,h⟩]
  rfl

/-- A long local part is cut. -/
theorem obscureEmail_long (hdomain : '@'∉domain) (h : 3<name.length) : obscureEmail (name++ '@'::domain)=
    (truncate 2 name).map fun t => t++List.replicate (name.length-2) '*'++ '@'::domain := by
  rw [obscureEmail,rsplitn_last hdomain]
  dsimp only
  rw [if_neg (by omega),if_neg (by omega)]
  cases truncate 2 name with
  | error e => rfl
  | ok t => rfl

theorem obscured_short (h : name.length≤3) :
    Obscured name domain (List.replicate name.length '*'++ '@'::domain) := by
  refine ⟨_,rfl,List.length_replicate,fun k hk => ?_⟩
  rw [if_neg (by omega),List.getElem?_replicate,if_pos hk]

/-- Two characters of one byte each stay. -/
theorem obscured_long {c d : Char} {s : Text} (h : 3<(c::d::s).length) :
    Obscured (c::d::s) domain ([c,d]++List.replicate ((c::d::s).length-2) '*'++ '@'::domain) := by
  have hlength : (c::d::s).length=s.length+2 := rfl
  rw [hlength]
  refine ⟨_,rfl,?_,fun k hk => ?_⟩
  · rw [List.length_append,List.length_replicate,hlength]
    exact Nat.add_comm _ _
  · match k with
    | 0 => rw [if_pos ⟨by omega,by omega⟩]; rfl
    | 1 => rw [if_pos ⟨by omega,by omega⟩]; rfl
    | k+2 =>
      have hk' : k<s.length := by omega
      rw [if_neg (by omega)]
      simp [hk']

/-- An address is obscured as it should be exactly when its local part has at
most three characters, or starts with two characters of one byte. -/
theorem obscured_iff (hname : name≠[]) (hdomain : '@'∉domain) :
    (∃ r,obscureEmail (name++ '@'::domain)=.ok r ∧ Obscured name domain r) ↔
      name.length≤3 ∨ ∀ c∈name.take 2,c.utf8Size=1 := by
  by_cases hshort : name.length≤3
  · exact iff_of_true ⟨_,obscureEmail_short hname hdomain hshort,obscured_short hshort⟩ (.inl hshort)
  have hlong : 3<name.length := by omega
  rw [or_iff_right hshort,obscureEmail_long hdomain hlong]
  match name with
  | [] => exact absurd rfl hname
  | [_] => exact absurd hlong (by simp)
  | c::d::s =>
    have htake : (c::d::s).take 2=[c,d] := rfl
    rw [htake,List.forall_mem_cons,List.forall_mem_singleton,truncate_two]
    by_cases hc : c.utf8Size=1
    · rw [if_pos hc]
      by_cases hd : d.utf8Size=1
      · rw [if_pos hd]
        exact iff_of_true ⟨_,rfl,obscured_long hlong⟩ ⟨hc,hd⟩
      · rw [if_neg hd]
        refine iff_of_false ?_ fun h => hd h.2
        rintro ⟨r,he,-⟩
        cases he
    · rw [if_neg hc]
      refine iff_of_false ?_ fun h => hc h.1
      rintro ⟨r,hr,newName,hnew,hlength,-⟩
      split at hr
      · -- One character of two bytes is left, and as many asterisks as for two.
        cases hr
        have hsame := List.append_cancel_right hnew
        rw [← hsame,List.length_append,List.length_replicate,List.length_singleton] at hlength
        omega
      · cases hr

/-- The second address of the tests. -/
example : obscureEmail "byt@example.ext".toList=.ok "***@example.ext".toList := rfl

theorem obscured_bytes : ∃ r,obscureEmail ("bytes".toList++ '@'::"example.ext".toList)=.ok r ∧
    Obscured "bytes".toList "example.ext".toList r :=
  (obscured_iff (by decide) (by decide)).mpr
    (.inr (List.forall_mem_cons.mpr ⟨rfl,List.forall_mem_singleton.mpr rfl⟩))

/-- A second character of two bytes is cut in half. -/
theorem obscure_panics : ¬∀ name domain : Text,name≠[] → '@'∉domain →
    ∃ r,obscureEmail (name++ '@'::domain)=.ok r ∧ Obscured name domain r := by
  intro h
  obtain ⟨r,hr,-⟩ := h "aébc".toList "example.ext".toList (by decide) (by decide)
  have hpanic : obscureEmail ("aébc".toList++ '@'::"example.ext".toList)=.error .charBoundary := rfl
  rw [hpanic] at hr
  cases hr

end Addresses

end NadSafe.ObscuredEmails
