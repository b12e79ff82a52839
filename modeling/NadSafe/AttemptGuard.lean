import Mathlib.Data.Nat.Notation
import Mathlib.Tactic.Common

/-!
# Guarded guesses with a stored attempt counter

A secret is guarded by a counter that its users keep themselves: one reads
the counter, guesses, and stores the successor of what it read, or removes
the secret at the limit. With one guess at a time the counter covers every
wrong guess, although the secret may be replaced or removed at any moment
between the read and the write. The storage and the text of the guessing
operation are supplied elsewhere.
-/

namespace NadSafe.AttemptGuard

/-- What is stored, and the wrong guesses since the secret was last set or
last guessed. -/
structure Guard where
  /-- The secret is stored. -/
  armed : Bool
  /-- The stored counter; a missing one counts as zero. -/
  used : Option ℕ
  /-- Wrong guesses, for the specification only. -/
  wrong : ℕ

/-- The counter as a guessing operation reads it. -/
def Guard.count (g : Guard) : ℕ := g.used.getD 0

/-- The counter covers the wrong guesses whenever anything is stored. -/
def Guard.Covers (g : Guard) : Prop := g.armed=true ∨ g.used≠none → g.wrong≤g.count

/-- The stored counter stays below the limit, and the wrong guesses do not
pass it. -/
def Guard.Bounded (limit : ℕ) (g : Guard) : Prop := g.count<limit ∧ g.wrong≤limit

/-- Where the guessing operation stands. -/
inductive Phase where
  /-- None is in flight. -/
  | free
  /-- Nothing is read yet. -/
  | fresh
  /-- The secret was found, in the same segment. -/
  | found
  /-- The counter was read. -/
  | ready (seen : ℕ)
  /-- The guess was made. -/
  | tried (seen : ℕ)
  /-- The guess was right and is reported. -/
  | won
  /-- The secret was removed, in the same segment. -/
  | wiping

/-- A guessing operation may be interrupted here. -/
def Phase.Parked : Phase → Prop
  | .fresh => True
  | .ready _ => True
  | .tried _ => True
  | .won => True
  | _ => False

/-- What holds in each phase. After the guess the counter may lag behind by
one until the operation stores the successor of what it read. -/
def Sound (limit : ℕ) : Phase → Guard → Prop
  | .free,g => g.Bounded limit ∧ g.Covers
  | .fresh,g => g.Bounded limit ∧ g.Covers
  | .found,g => g.Bounded limit ∧ g.Covers ∧ g.armed=true
  | .ready seen,g => g.Bounded limit ∧ g.Covers ∧ g.wrong≤ seen ∧ seen<limit
  | .tried seen,g => g.Bounded limit ∧ g.wrong≤ seen+1 ∧ seen<limit
  | .won,g => g.Bounded limit ∧ g.wrong=0
  | .wiping,g => g.Bounded limit ∧ g.armed=false

variable {limit : ℕ} {g : Guard}

theorem Sound.bounded {q : Phase} (h : Sound limit q g) : g.Bounded limit := by
  cases q with
  | free => exact h.1
  | fresh => exact h.1
  | found => exact h.1
  | ready seen => exact h.1
  | tried seen => exact h.1
  | won => exact h.1
  | wiping => exact h.1

/-- Without wrong guesses every counter covers them. -/
theorem covers_of_wrong_zero (h : g.wrong=0) : g.Covers := fun _ => h ▸ Nat.zero_le _

/-- A new secret with a zero counter suits every guess in flight. -/
theorem Sound.arm {q : Phase} (hq : q=.free ∨ q.Parked) (h : Sound limit q g) {used : Option ℕ}
    (hused : used.getD 0=0) : Sound limit q ⟨true,used,0⟩ := by
  have hpos : 0<limit := Nat.lt_of_le_of_lt (Nat.zero_le _) h.bounded.1
  have hbounded : Guard.Bounded limit ⟨true,used,0⟩ :=
    ⟨Nat.lt_of_le_of_lt (Nat.le_of_eq hused) hpos,Nat.zero_le _⟩
  have hcovers : Guard.Covers ⟨true,used,0⟩ := covers_of_wrong_zero rfl
  cases q with
  | free => exact ⟨hbounded,hcovers⟩
  | fresh => exact ⟨hbounded,hcovers⟩
  | found => exact absurd hq (by simp [Phase.Parked])
  | ready seen => exact ⟨hbounded,hcovers,Nat.zero_le _,h.2.2.2⟩
  | tried seen => exact ⟨hbounded,Nat.zero_le _,h.2.2⟩
  | won => exact ⟨hbounded,rfl⟩
  | wiping => exact absurd hq (by simp [Phase.Parked])

/-- So does the removal of secret and counter. -/
theorem Sound.disarm {q : Phase} (hq : q=.free ∨ q.Parked) (h : Sound limit q g) :
    Sound limit q ⟨false,none,g.wrong⟩ := by
  have hpos : 0<limit := Nat.lt_of_le_of_lt (Nat.zero_le _) h.bounded.1
  have hbounded : Guard.Bounded limit ⟨false,none,g.wrong⟩ := ⟨hpos,h.bounded.2⟩
  have hcovers : Guard.Covers ⟨false,none,g.wrong⟩ := fun hstored => by simp at hstored
  cases q with
  | free => exact ⟨hbounded,hcovers⟩
  | fresh => exact ⟨hbounded,hcovers⟩
  | found => exact absurd hq (by simp [Phase.Parked])
  | ready seen => exact ⟨hbounded,hcovers,h.2.2.1,h.2.2.2⟩
  | tried seen => exact ⟨hbounded,h.2.1,h.2.2⟩
  | won => exact ⟨hbounded,h.2⟩
  | wiping => exact absurd hq (by simp [Phase.Parked])

/-- The counter of a stored secret, as read. -/
theorem Sound.read (h : Sound limit .found g) : Sound limit (.ready g.count) g :=
  ⟨h.1,h.2.1,h.2.1 (.inl h.2.2),h.1.1⟩

/-- One guess, right or wrong. -/
theorem Sound.guess {seen : ℕ} (h : Sound limit (.ready seen) g) {wrong : ℕ}
    (hwrong : wrong≤g.wrong+1) : Sound limit (.tried seen) ⟨g.armed,g.used,wrong⟩ := by
  obtain ⟨hbounded,-,hseen,hlimit⟩ := h
  have hle : wrong≤ seen+1 := by omega
  have hbound : wrong≤limit := by omega
  exact ⟨⟨hbounded.1,hbound⟩,hle,hlimit⟩

/-- A failed guess stores the successor of what it read, whether or not it
came to the guess itself. -/
theorem Sound.record {seen : ℕ} (h : Sound limit (.ready seen) g ∨ Sound limit (.tried seen) g)
    (hseen : seen+1<limit) : Sound limit .free ⟨g.armed,some (seen+1),g.wrong⟩ := by
  have hwrong : g.wrong≤ seen+1 := by
    rcases h with h|h
    · exact Nat.le_succ_of_le h.2.2.1
    · exact h.2.1
  have hbound : g.wrong≤limit := by omega
  exact ⟨⟨hseen,hbound⟩,fun _ => hwrong⟩

/-- A removal at the limit. -/
theorem Sound.wipe {q : Phase} (h : Sound limit q g) :
    Sound limit .free ⟨false,none,g.wrong⟩ := by
  have hpos : 0<limit := Nat.lt_of_le_of_lt (Nat.zero_le _) h.bounded.1
  exact ⟨⟨hpos,h.bounded.2⟩,fun hstored => by simp at hstored⟩

/-- A right guess resets the wrong ones. -/
theorem Sound.win {q : Phase} (h : Sound limit q g) : Sound limit .won ⟨g.armed,g.used,0⟩ :=
  ⟨⟨h.bounded.1,Nat.zero_le _⟩,rfl⟩

/-- After a right guess any counter below the limit may be stored. -/
theorem Sound.restart (h : Sound limit .won g) {used : Option ℕ} (hused : used.getD 0<limit) :
    Sound limit .free ⟨g.armed,used,g.wrong⟩ :=
  ⟨⟨hused,h.1.2⟩,covers_of_wrong_zero h.2⟩

/-- With no guess in flight, the last allowed wrong guess has removed secret
and counter. -/
theorem Sound.exhausted (h : Sound limit .free g) (hwrong : g.wrong=limit) :
    g.armed=false ∧ g.used=none := by
  have hcount := h.1.1
  by_contra hstored
  have hpresent : g.armed=true ∨ g.used≠none := by
    by_cases ha : g.armed=true
    · exact .inl ha
    · exact .inr fun hu => hstored ⟨by simpa using ha,hu⟩
  have hcovered := h.2 hpresent
  omega

end NadSafe.AttemptGuard
