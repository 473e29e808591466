/-!
# Values that outlive a failure of their holder

A value that several parties change in turn is poisoned when one of them fails while holding it.
Whoever comes next takes the value as it was left; the mark stays for good.
-/

namespace CamStream

/-- A value with the mark of a holder's failure. -/
structure Guarded (α : Type) where
  value : α
  poisoned : Bool := false
deriving DecidableEq, Repr

namespace Guarded

variable {α : Type}

/-- Change the value and give it back. -/
def hold (guarded : Guarded α) (change : α → α) : Guarded α :=
  { guarded with value := change guarded.value }

/-- Change the value and fail before giving it back. -/
def holdAndFail (guarded : Guarded α) (change : α → α) : Guarded α :=
  { value := change guarded.value, poisoned := true }

end Guarded

end CamStream
