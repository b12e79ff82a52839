import NadSafe.FairWords

/-!
# Passwords without bias

The web client, the content script of the extension and its popup push the
characters of a password and shuffle them. The shuffle orders the positions,
and every order of them is as likely as any other.
-/

namespace NadSafe.UnbiasedPasswords

open HostText BoundedBuffers PasswordClasses WebPasswords SwapShuffle FairWords

section Extension

variable (source : WordSource)

/-- `ri`, in the content script and in the popup. -/
def ri (max s : ℕ) : Except WebError (ℕ×ℕ) := randomIndex source max s

/-- `pool[ri(pool.length)]`. -/
def choose (pool : Text) (s : ℕ) : Except WebError (Option Char×ℕ) := do
  let (i,s) ← ri source pool.length s
  .ok (pool[i]?,s)

end Extension

section Orders

variable {source : WordSource} {order order' : List ℕ} {ws : List UInt32} {n s maxString : ℕ}
  {chars : List (Option Char)} {pw : Text}

end Orders

end NadSafe.UnbiasedPasswords
