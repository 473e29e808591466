import CamStream.Proofs.Scan
import Mathlib.Logic.Function.Iterate

/-!
# A cursor, call by call

What a cursor answers when it is asked for units one call after the other, whatever came before and
whatever else is done with copies of it.

* `Cursor.answer_eq_getElem?`: the calls are answered by the units that are still to come, in order,
  and by nothing from then on. This holds for any cursor.
* `Cursor.answersOf_takeTurns`: cursors that are asked in turns do not disturb each other.
* `Cursor.bounds_eq`: the bounds tell whether any unit is still to come. This needs a cursor that a
  scan has led to: one that stands at the head of a unit, or at the end (`Cursor.Standing`).
* `cursor_keeps_contract`: all this for the cursors of a scan, and when a scan is over.
-/

namespace CamStream

namespace Cursor

/-! ## Calls -/

/-- The cursor after so many calls. -/
def after (cursor : Cursor) (calls : Nat) : Cursor := (fun cursor => cursor.next.2)^[calls] cursor

/-- What the call behind so many others answers. -/
def answer (cursor : Cursor) (calls : Nat) : Option NalUnit := (cursor.after calls).next.1

variable {cursor : Cursor} {calls : Nat}

theorem after_succ (cursor : Cursor) (calls : Nat) :
    cursor.after (calls + 1) = (cursor.after calls).next.2 := Function.iterate_succ_apply' _ _ _

/-- A cursor that has yielded nothing stays as it is from then on. -/
theorem next_of_next_none {after : Cursor} (h : cursor.next = (none, after)) :
    after.next = (none, after) := by
  unfold next at h
  split at h
  · rename_i hbudget
    cases h
    simp [next, hbudget]
  · cases h
  · rename_i hbudget hrest
    cases h
    unfold next
    split
    · rename_i hspent
      exact absurd hspent hbudget
    · rename_i budget s₀ s₁ s₂ s₃ header tail hpositive hunit
      exact absurd hunit (hrest budget s₀ s₁ s₂ s₃ header tail hpositive)
    · rfl

theorem toList_next (cursor : Cursor) : cursor.next.2.toList = cursor.toList.tail := by
  match hnext : cursor.next with
  | (some unit, after) => rw [toList_of_next hnext, List.tail_cons]
  | (none, after) =>
    rw [toList_of_next_none hnext, toList_of_next_none (next_of_next_none hnext), List.tail_nil]

theorem next_fst (cursor : Cursor) : cursor.next.1 = cursor.toList.head? := by
  match hnext : cursor.next with
  | (some unit, after) => rw [toList_of_next hnext, List.head?_cons]
  | (none, after) => rw [toList_of_next_none hnext, List.head?_nil]

theorem toList_after (cursor : Cursor) (calls : Nat) :
    (cursor.after calls).toList = cursor.toList.drop calls := by
  induction calls with
  | zero => rfl
  | succ calls ih => rw [after_succ, toList_next, ih, List.tail_drop]

/-- The calls are answered by the units still to come, one after the other. -/
theorem answer_eq_getElem? (cursor : Cursor) (calls : Nat) :
    cursor.answer calls = cursor.toList[calls]? := by
  rw [answer, next_fst, toList_after, List.head?_drop]

/-! ## Copies -/

/-- Cursors, asked in turns for their next units: whose turn it is, and what is answered. -/
def takeTurns (cursors : Nat → Cursor) : List Nat → List (Nat × Option NalUnit)
  | [] => []
  | turn :: turns =>
    (turn, (cursors turn).next.1) ::
      takeTurns (Function.update cursors turn (cursors turn).next.2) turns

/-- What one of the cursors has answered. -/
def answersOf (number : Nat) (answers : List (Nat × Option NalUnit)) : List (Option NalUnit) :=
  (answers.filter (·.1 = number)).map (·.2)

/-- A cursor answers as if it were alone. -/
theorem answersOf_takeTurns (cursors : Nat → Cursor) (turns : List Nat) (number : Nat) :
    answersOf number (takeTurns cursors turns) =
      (List.range (turns.count number)).map (cursors number).answer := by
  induction turns generalizing cursors with
  | nil => rfl
  | cons turn turns ih =>
    have hrest := ih (Function.update cursors turn (cursors turn).next.2)
    by_cases hturn : turn = number
    · subst hturn
      rw [Function.update_self] at hrest
      rw [takeTurns, List.count_cons_self, List.range_succ_eq_map, List.map_cons, List.map_map]
      simp only [answersOf, List.filter_cons, decide_true, if_true, List.map_cons] at hrest ⊢
      rw [hrest]
      rfl
    · rw [Function.update_of_ne (Ne.symm hturn)] at hrest
      rw [takeTurns, List.count_cons_of_ne hturn, ← hrest]
      simp [answersOf, hturn]

/-! ## Bounds -/

/-- The cursor stands at the head of a unit, or there is none left. -/
def Standing (cursor : Cursor) : Prop := Aligned cursor.rest

theorem standing_ofBytes (buffer : Bytes) (budget : Nat) : (ofBytes buffer budget).Standing :=
  aligned_breakAtUnit buffer

theorem Standing.next (h : cursor.Standing) : cursor.next.2.Standing := by
  unfold Cursor.next
  split
  · exact Or.inl rfl
  · exact aligned_breakAtUnit _
  · exact h

theorem Standing.after (h : cursor.Standing) (calls : Nat) : (cursor.after calls).Standing := by
  induction calls with
  | zero => exact h
  | succ calls ih =>
    rw [after_succ]
    exact ih.next

/-- The bounds tell whether any unit is still to come. -/
theorem Standing.bounds_eq (h : cursor.Standing) :
    cursor.bounds = if cursor.toList = [] then (0, 0) else (1, cursor.budget) := by
  obtain ⟨offset, rest, budget⟩ := cursor
  rcases h with rfl | h
  · simp [bounds, toList_rest_nil]
  · obtain ⟨header, tail, rfl⟩ := beginsUnit_iff.mp h
    cases budget with
    | zero => simp [bounds, toList_budget_zero]
    | succ budget =>
      rw [toList_cons, if_neg (List.cons_ne_nil _ _)]
      rfl

theorem Standing.length_toList_le_budget (h : cursor.Standing) :
    cursor.toList.length ≤ cursor.budget := by
  have htake := toList_take h cursor.offset cursor.budget 0
  rw [htake]
  exact List.length_take_le _ _

theorem Standing.bounds_hold (h : cursor.Standing) :
    cursor.bounds.1 ≤ cursor.toList.length ∧ cursor.toList.length ≤ cursor.bounds.2 := by
  rw [h.bounds_eq]
  split
  · rename_i hnil
    rw [hnil]
    exact ⟨Nat.le_refl 0, Nat.le_refl 0⟩
  · rename_i hsome
    exact ⟨List.length_pos_iff.mpr hsome, h.length_toList_le_budget⟩

theorem budget_next {after : Cursor} {unit : NalUnit} (h : cursor.next = (some unit, after)) :
    after.budget + 1 = cursor.budget := by
  unfold next at h
  split at h
  · cases h
  · rename_i hbudget _
    cases h
    exact hbudget.symm
  · cases h

/-- As long as units are to come, every call has taken one from the budget. -/
theorem budget_after (h : (cursor.after calls).toList ≠ []) :
    (cursor.after calls).budget = cursor.budget - calls := by
  induction calls with
  | zero => rfl
  | succ calls ih =>
    rw [after_succ] at h ⊢
    rw [toList_next] at h
    have hunit : (cursor.after calls).next.1 ≠ none := by
      rw [next_fst, Ne, List.head?_eq_none_iff]
      exact fun hnil => h (congrArg List.tail hnil)
    match hnext : (cursor.after calls).next, hunit with
    | (some unit, after), _ =>
      have hspent := budget_next hnext
      have hbefore := ih fun hnil => h (congrArg List.tail hnil)
      dsimp only
      omega

end Cursor

/-! ## The cursors of a scan -/

/-- A scan yields no more units than its budget allows, and none in less than `minUnitLength`
bytes. -/
theorem length_scan_le (buffer : Bytes) (budget : Nat) :
    (scan buffer budget).length ≤ min budget (buffer.length / minUnitLength) := by
  have hstanding := Cursor.standing_ofBytes buffer budget
  have hbytes := Cursor.length_toList_le (aligned_breakAtUnit buffer) (breakAtUnit buffer).1.length
    budget
  have hsplit := breakAtUnit_length buffer
  refine Nat.le_min.mpr ⟨hstanding.length_toList_le_budget, ?_⟩
  rw [Nat.le_div_iff_mul_le (by decide), Nat.mul_comm]
  exact Nat.le_trans hbytes (by omega)

/-- **What a cursor promises.** For every buffer and budget, for a cursor of the scan after any number
of calls, and with `units` for those that are still to come:

* they are what is left of the scan, and the next calls are answered by them, in order;
* their number lies within the bounds that the cursor gives, which are none at all once there are no
  more units, and until then one unit and the budget that the calls have left;
* each of any number of copies of the cursor, one of which may be the cursor itself, is answered by
  them in the same way, in whatever turns the copies are asked;
* once a call is answered by nothing, so are all later ones;
* that is so after `min budget (buffer.length / minUnitLength)` calls at the latest. -/
theorem cursor_keeps_contract (buffer : Bytes) (budget calls : Nat) :
    let cursor := (Cursor.ofBytes buffer budget).after calls
    let units := cursor.toList
    units = (scan buffer budget).drop calls ∧
    (∀ later, cursor.answer later = units[later]?) ∧
    (cursor.bounds.1 ≤ units.length ∧ units.length ≤ cursor.bounds.2) ∧
    cursor.bounds = (if units = [] then (0, 0) else (1, budget - calls)) ∧
    (∀ turns copy, Cursor.answersOf copy (Cursor.takeTurns (fun _ => cursor) turns) =
      (List.range (turns.count copy)).map (units[·]?)) ∧
    (∀ call later, call ≤ later → cursor.answer call = none → cursor.answer later = none) ∧
    ∀ later, min budget (buffer.length / minUnitLength) ≤ calls + later →
      cursor.answer later = none := by
  intro cursor units
  have hunits : units = (scan buffer budget).drop calls := Cursor.toList_after _ calls
  have hanswer : ∀ later, cursor.answer later = units[later]? := cursor.answer_eq_getElem?
  have hstanding : cursor.Standing := (Cursor.standing_ofBytes buffer budget).after calls
  refine ⟨hunits, hanswer, hstanding.bounds_hold, ?_, fun turns copy => ?_,
    fun call later hle => ?_, fun later hlater => ?_⟩
  · rw [hstanding.bounds_eq]
    split
    · rfl
    · rename_i hsome
      rw [Cursor.budget_after hsome]
      rfl
  · rw [Cursor.answersOf_takeTurns]
    exact congrArg (List.map · _) (funext hanswer)
  · rw [hanswer, hanswer, List.getElem?_eq_none_iff, List.getElem?_eq_none_iff]
    exact fun hend => Nat.le_trans hend hle
  · rw [hanswer, List.getElem?_eq_none_iff, hunits, List.length_drop]
    have hlength := length_scan_le buffer budget
    omega

end CamStream
