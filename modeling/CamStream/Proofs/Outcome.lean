/-!
# Sequences that can fail

What an outcome of a sequence says about the outcomes of its parts.
-/

namespace CamStream

variable {ε α β : Type} {first : Except ε α} {next : α → Except ε β}

/-- A sequence succeeds exactly if its parts succeed in turn. -/
theorem bind_eq_ok_iff {value : β} :
    (first >>= next) = .ok value ↔ ∃ between, first = .ok between ∧ next between = .ok value := by
  cases first <;> simp [bind, Except.bind]

/-- It fails exactly if the first of them to fail does. -/
theorem bind_eq_error_iff {error : ε} :
    (first >>= next) = .error error ↔
      first = .error error ∨ ∃ between, first = .ok between ∧ next between = .error error := by
  cases first <;> simp [bind, Except.bind]

end CamStream
