import ResultSearch.Error

/-!
# Cancellation

A search can be given a token and is abandoned once the token says so. A token may have a deadline
of its own; it also hears of one flag, which all copies of the token share and which stays raised
once it is raised. Time is counted from a moment that all tokens agree on.

* `check_of_raised`: a token whose flag is up refuses, whatever its deadline.
-/

namespace ResultSearch

/-- The flags that are up. -/
structure Flags where
  raised : List Nat
  deriving DecidableEq

namespace Flags

/-- No flag is up. -/
def none : Flags := ⟨[]⟩

/-- Whether a flag is up. -/
def isUp (f : Flags) (flag : Nat) : Bool := f.raised.contains flag

/-- Put a flag up; there is no way to take it down. -/
def raise (f : Flags) (flag : Nat) : Flags := ⟨flag :: f.raised⟩

end Flags

/-- What a search listens to. -/
structure CancelToken where
  flag : Nat
  /-- The moment from which on the token refuses, if there is one. -/
  deadline : Option Nat
  deriving DecidableEq

namespace CancelToken

/-- A token without deadline. -/
def new (flag : Nat) : CancelToken := ⟨flag, none⟩

/-- The token with another deadline. -/
def withDeadline (t : CancelToken) (deadline : Nat) : CancelToken := { t with deadline := some deadline }

/-- The token with a deadline some time from now. -/
def withTimeout (t : CancelToken) (now timeout : Nat) : CancelToken := t.withDeadline (now + timeout)

/-- Whether the flag of the token is up, whatever its deadline. -/
def isCancelled (t : CancelToken) (flags : Flags) : Bool := flags.isUp t.flag

/-- Raise the flag of the token and of its copies. -/
def cancel (t : CancelToken) (flags : Flags) : Flags := flags.raise t.flag

/-- Whether a search may go on. -/
def check (t : CancelToken) (flags : Flags) (now : Nat) : Except Cancellation Unit :=
  if t.isCancelled flags then .error .cancelled
  else if t.deadline.any fun d => decide (d ≤ now) then .error .deadline
  else .ok ()

theorem check_of_raised {t : CancelToken} {flags : Flags} (h : t.isCancelled flags = true)
    (now : Nat) : t.check flags now = .error .cancelled := by
  simp [check, h]

end CancelToken

end ResultSearch
