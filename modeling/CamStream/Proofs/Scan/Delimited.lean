import CamStream.Proofs.Scan

/-!
# Units up to the end of a buffer

All units of a buffer are whole but perhaps the last one, which may end in a bare start code: there is
nothing behind that start code that could be a header. So the units of any buffer, whatever its bytes,
are of one shape, and every scan of such units takes them apart again.

* `LoneUnit`: a unit in whose body no other one begins. Whole units are of this kind.
* `Delimited`: whole units, with a lone one behind them. So are the units of every buffer
  (`delimited_scanAll`), and every part of them (`Delimited.of_append`).
* `Delimited.scanAll_flatten`: put one behind the other, they are scanned as they are.
-/

namespace CamStream

/-- A start code, a header byte and a body in which no unit begins. -/
def LoneUnit (bytes : Bytes) : Prop :=
  ∃ header body, bytes = startCode ++ header :: body ∧ breakAtUnit body = (body, [])

theorem WholeUnit.lone {bytes : Bytes} (h : WholeUnit bytes) : LoneUnit bytes := by
  obtain ⟨header, body, rfl, hfree⟩ := h
  refine ⟨header, body, rfl, ?_⟩
  have hbreak := breakAtUnit_free_append hfree (Or.inl rfl)
  rwa [List.append_nil] at hbreak

/-- Whole units one behind the other, of which the last one need not be whole. -/
inductive Delimited : List Bytes → Prop
  | none : Delimited []
  | last {bytes : Bytes} (h : LoneUnit bytes) : Delimited [bytes]
  | cons {bytes : Bytes} {units : List Bytes} (first : WholeUnit bytes) (rest : Delimited units) :
      Delimited (bytes :: units)

namespace Delimited

variable {bytes : Bytes} {units more : List Bytes}

theorem cons_iff :
    Delimited (bytes :: units) ↔
      units = [] ∧ LoneUnit bytes ∨ WholeUnit bytes ∧ Delimited units := by
  constructor
  · intro h
    cases h with
    | last h => exact Or.inl ⟨rfl, h⟩
    | cons first rest => exact Or.inr ⟨first, rest⟩
  · rintro (⟨rfl, h⟩ | ⟨first, rest⟩)
    · exact last h
    · exact cons first rest

theorem lone (h : Delimited units) : ∀ bytes ∈ units, LoneUnit bytes := by
  induction h with
  | none => simp
  | last h => simpa using h
  | cons first _ ih =>
    intro bytes hbytes
    rcases List.mem_cons.mp hbytes with rfl | hbytes
    · exact first.lone
    · exact ih bytes hbytes

theorem append (h : ∀ bytes ∈ units, WholeUnit bytes) (hmore : Delimited more) :
    Delimited (units ++ more) := by
  induction units with
  | nil => exact hmore
  | cons bytes units ih =>
    apply cons (h bytes List.mem_cons_self)
    apply ih
    intro other hother
    exact h other (List.mem_cons_of_mem _ hother)

/-- Units with others behind them are whole. -/
theorem whole_of_append (h : Delimited (units ++ more)) (hmore : more ≠ []) :
    ∀ bytes ∈ units, WholeUnit bytes := by
  induction units with
  | nil => simp
  | cons bytes units ih =>
    intro other hother
    rcases cons_iff.mp h with ⟨hnil, -⟩ | ⟨first, rest⟩
    · exact absurd (List.append_eq_nil_iff.mp hnil).2 hmore
    · rcases List.mem_cons.mp hother with rfl | hother
      · exact first
      · exact ih rest other hother

theorem of_append_right (h : Delimited (units ++ more)) : Delimited more := by
  induction units with
  | nil => exact h
  | cons bytes units ih =>
    rcases cons_iff.mp h with ⟨hnil, -⟩ | ⟨-, rest⟩
    · rw [(List.append_eq_nil_iff.mp hnil).2]
      exact none
    · exact ih rest

theorem of_append_left (h : Delimited (units ++ more)) : Delimited units := by
  by_cases hmore : more = []
  · rwa [hmore, List.append_nil] at h
  · have hwhole := append (h.whole_of_append hmore) none
    rwa [List.append_nil] at hwhole

theorem aligned_flatten (h : Delimited units) : Aligned units.flatten := by
  cases units with
  | nil => exact Or.inl rfl
  | cons bytes units =>
    obtain ⟨header, body, rfl, -⟩ := h.lone bytes List.mem_cons_self
    rw [List.flatten_cons, List.append_assoc, List.cons_append]
    exact aligned_cons

theorem toList_layOut (h : Delimited units) (offset budget : Nat) :
    ({ offset, rest := units.flatten, budget } : Cursor).toList =
      (layOut offset units).take budget := by
  induction h generalizing offset budget with
  | none => simpa [layOut] using Cursor.toList_rest_nil offset budget
  | last h =>
    obtain ⟨header, body, rfl, hbreak⟩ := h
    cases budget with
    | zero => simpa using Cursor.toList_budget_zero offset _
    | succ budget =>
      rw [List.flatten_singleton, Cursor.toList_cons, hbreak, Cursor.toList_rest_nil]
      simp [layOut, kindOfUnit]
  | cons first rest ih =>
    obtain ⟨header, body, rfl, hfree⟩ := first
    cases budget with
    | zero => simpa using Cursor.toList_budget_zero offset _
    | succ budget =>
      rw [List.flatten_cons, List.append_assoc, List.cons_append, Cursor.toList_cons,
        breakAtUnit_free_append hfree rest.aligned_flatten, ih]
      rfl

theorem length_le_length_flatten (h : Delimited units) : units.length ≤ units.flatten.length := by
  have hlone := h.lone
  clear h
  induction units with
  | nil => exact Nat.le_refl _
  | cons bytes units ih =>
    obtain ⟨header, body, rfl, -⟩ := hlone bytes List.mem_cons_self
    have hrest := ih fun other hother => hlone other (List.mem_cons_of_mem _ hother)
    simp only [List.length_cons, List.flatten_cons, List.length_append]
    omega

theorem scanAll_flatten (h : Delimited units) : scanAll units.flatten = layOut 0 units := by
  rw [scanAll, scan_of_aligned h.aligned_flatten, h.toList_layOut, List.take_of_length_le]
  rw [length_layOut]
  exact h.length_le_length_flatten

end Delimited

/-! ## The units of a buffer -/

theorem beginsUnit_append {bytes : Bytes} (h : beginsUnit bytes = true) (more : Bytes) :
    beginsUnit (bytes ++ more) = true := by
  obtain ⟨header, tail, rfl⟩ := beginsUnit_iff.mp h
  exact beginsUnit_iff.mpr ⟨header, tail ++ more, by simp⟩

/-- No unit begins in front of the first one. -/
theorem breakAtUnit_fst (bytes : Bytes) :
    breakAtUnit (breakAtUnit bytes).1 = ((breakAtUnit bytes).1, []) := by
  induction bytes with
  | nil => rfl
  | cons byte rest ih =>
    by_cases hbegin : beginsUnit (byte :: rest)
    · simp [breakAtUnit, hbegin]
    · have hfirst : (breakAtUnit (byte :: rest)).1 = byte :: (breakAtUnit rest).1 := by
        simp [breakAtUnit, hbegin]
      have hno : beginsUnit (byte :: (breakAtUnit rest).1) = false := by
        apply Bool.eq_false_iff.mpr
        intro h
        apply hbegin
        have hmore := beginsUnit_append h (breakAtUnit rest).2
        rwa [List.cons_append, breakAtUnit_append] at hmore
      rw [hfirst, breakAtUnit, hno, ih]
      rfl

theorem Cursor.delimited_toList {rest : Bytes} (h : Aligned rest) (offset budget : Nat) :
    Delimited ((({ offset, rest, budget } : Cursor).toList).map (·.bytes)) := by
  induction budget generalizing offset rest with
  | zero =>
    rw [toList_budget_zero]
    exact .none
  | succ budget ih =>
    rcases h with rfl | h
    · rw [toList_rest_nil]
      exact .none
    · obtain ⟨header, tail, rfl⟩ := beginsUnit_iff.mp h
      rw [toList_cons, List.map_cons]
      by_cases hrest : (breakAtUnit tail).2 = []
      · rw [hrest, toList_rest_nil]
        exact .last ⟨header, _, rfl, breakAtUnit_fst tail⟩
      · -- With a unit behind it the body does not end in a start code.
        have hend : ¬ startCode <:+ (breakAtUnit tail).1 := by
          apply not_startCode_suffix_of_fst_breakAtUnit ?_ hrest
          rw [breakAtUnit_append]
        exact .cons ⟨header, _, rfl, codeFree_fst_breakAtUnit hend⟩ (ih (aligned_breakAtUnit tail) _)

theorem delimited_scanAll (buffer : Bytes) : Delimited ((scanAll buffer).map (·.bytes)) :=
  Cursor.delimited_toList (aligned_breakAtUnit buffer) _ _

/-- The kind of a unit is the one that its header byte announces. -/
theorem kind_of_mem_scan {buffer : Bytes} {budget : Nat} {unit : NalUnit}
    (h : unit ∈ scan buffer budget) : unit.kind = kindOfUnit unit.bytes := by
  obtain ⟨header, body, hbytes, hkind⟩ := header_of_mem_scan h
  rw [hkind, hbytes]
  rfl

end CamStream
