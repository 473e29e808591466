/-!
# Lists of values by key

Each key has at most one value. Looking up after putting or erasing is all that the rest of the
library needs to know: `get?_put` and `get?_erase`.
-/

namespace CamStream

/-- Values by key. -/
abbrev KeyedList (κ α : Type) := List (κ × α)

namespace KeyedList

variable {κ α : Type} [DecidableEq κ]

/-- The value of a key. -/
def get? (list : KeyedList κ α) (key : κ) : Option α := (list.find? (·.1 = key)).map (·.2)

/-- The list without a key. -/
def erase (list : KeyedList κ α) (key : κ) : KeyedList κ α := list.filter (·.1 ≠ key)

/-- The list with another value for a key. -/
def put (list : KeyedList κ α) (key : κ) (value : α) : KeyedList κ α :=
  (key, value) :: erase list key

theorem get?_nil (key : κ) : get? ([] : KeyedList κ α) key = none := rfl

theorem get?_cons (entry : κ × α) (list : KeyedList κ α) (key : κ) :
    get? (entry :: list) key = if entry.1 = key then some entry.2 else get? list key := by
  by_cases h : entry.1 = key <;> simp [get?, h]

theorem erase_cons (entry : κ × α) (list : KeyedList κ α) (key : κ) :
    erase (entry :: list) key = if entry.1 = key then erase list key else entry :: erase list key := by
  by_cases h : entry.1 = key <;> simp [erase, h]

theorem get?_erase (list : KeyedList κ α) (key other : κ) :
    get? (erase list key) other = if other = key then none else get? list other := by
  induction list with
  | nil => simp [erase, get?]
  | cons entry list ih => rw [erase_cons]; split <;> simp [get?_cons, ih] <;> grind

theorem get?_put (list : KeyedList κ α) (key other : κ) (value : α) :
    get? (put list key value) other = if other = key then some value else get? list other := by
  simp only [put, get?_cons, get?_erase]
  grind

/-- Other values in the same places are found by the same keys. -/
theorem get?_map {β : Type} (list : KeyedList κ α) (f : α → β) (key : κ) :
    get? (list.map fun entry => (entry.1, f entry.2)) key = (get? list key).map f := by
  induction list with
  | nil => rfl
  | cons entry list ih => rw [List.map_cons, get?_cons, get?_cons, ih]; split <;> rfl

end KeyedList

end CamStream
