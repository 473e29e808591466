import CamStream.Proofs.Scan.Delimited
import CamStream.Proofs.Scan.Positions

/-!
# Scans across a seam

Two buffers are put one behind the other. If the first one does not end in a bare start code and a unit
begins with the second one, a scan of both finds what a scan of each finds: the last unit in front of the
seam ends there, since a start code lies wholly on one side of it, and the search stops where the second
buffer begins.

* `flatten_units`: a buffer is what lies in front of its first unit, and its units.
* `Seam`, `scanAll_seam`: two buffers.
* `scanAll_seams`: any number of them.
-/

namespace CamStream

/-- Where one buffer ends and another one begins, without a start code across. -/
def Seam (before after : Bytes) : Prop :=
  ¬ startCode <:+ before ∧ beginsUnit after = true

instance (before after : Bytes) : Decidable (Seam before after) := instDecidableAnd

/-- The units as they lie behind so many bytes. -/
def shiftUnits (length : Nat) (units : List NalUnit) : List NalUnit :=
  units.map fun unit => { unit with offset := length + unit.offset }

/-! ## A buffer and its units -/

theorem layOut_append (offset : Nat) (units more : List Bytes) :
    layOut offset (units ++ more) =
      layOut offset units ++ layOut (offset + units.flatten.length) more := by
  induction units generalizing offset with
  | nil => rfl
  | cons bytes units ih =>
    rw [List.cons_append, layOut, ih, List.flatten_cons, List.length_append, Nat.add_assoc]
    rfl

theorem layOut_shift (length offset : Nat) (units : List Bytes) :
    layOut (length + offset) units = shiftUnits length (layOut offset units) := by
  induction units generalizing offset with
  | nil => rfl
  | cons bytes units ih =>
    rw [layOut, Nat.add_assoc, ih]
    rfl

/-- A buffer is what lies in front of its first unit, and its units one behind the other. -/
theorem flatten_units (buffer : Bytes) :
    (breakAtUnit buffer).1 ++ ((scanAll buffer).map (·.bytes)).flatten = buffer := by
  obtain ⟨found, hfound, hbreak⟩ := firstFrom_search buffer 0
  have hunits := (tiles_scanAll hfound).flatten_eq
  have hrest : (breakAtUnit buffer).2 = buffer.drop (found.getD buffer.length) :=
    congrArg Prod.snd hbreak
  rw [hunits, ← hrest, breakAtUnit_append]

/-- Units behind bytes without a start code are scanned as they are, up to the last one. -/
theorem Delimited.scanAll_append_flatten {before : Bytes} (hfree : CodeFree before)
    {units : List Bytes} (h : Delimited units) :
    scanAll (before ++ units.flatten) = layOut before.length units := by
  unfold scanAll scan Cursor.ofBytes
  rw [breakAtUnit_free_append hfree h.aligned_flatten]
  dsimp only
  rw [h.toList_layOut, List.take_of_length_le]
  rw [length_layOut, List.length_append]
  exact Nat.le_trans h.length_le_length_flatten (Nat.le_add_left _ _)

/-! ## Two buffers -/

/-- A buffer that does not end in a bare start code is bytes without one, and whole units. -/
theorem exists_whole_units {buffer : Bytes} (hend : ¬ startCode <:+ buffer) :
    ∃ (before : Bytes) (units : List Bytes), buffer = before ++ units.flatten ∧
      CodeFree before ∧ ∀ bytes ∈ units, WholeUnit bytes := by
  refine ⟨_, _, (flatten_units buffer).symm, ?_, fun bytes hbytes => ?_⟩
  · exact codeFree_fst_breakAtUnit fun hs => hend (startCode_suffix_of_fst_breakAtUnit hs)
  · obtain ⟨unit, hunit, rfl⟩ := List.mem_map.mp hbytes
    exact (whole_of_mem_scan hend hunit).1

/-- A buffer with which a unit begins is its units. -/
theorem exists_delimited_units {buffer : Bytes} (hbegins : beginsUnit buffer = true) :
    ∃ units : List Bytes, buffer = units.flatten ∧ Delimited units := by
  have hbreak := breakAtUnit_free_append codeFree_nil (Or.inr hbegins)
  have hunits := flatten_units buffer
  rw [List.nil_append] at hbreak
  rw [hbreak, List.nil_append] at hunits
  exact ⟨_, hunits.symm, delimited_scanAll buffer⟩

/-- A scan across a seam finds what a scan of each side finds. -/
theorem scanAll_seam {before after : Bytes} (h : Seam before after) :
    scanAll (before ++ after) = scanAll before ++ shiftUnits before.length (scanAll after) := by
  obtain ⟨garbage, units, rfl, hfree, hwhole⟩ := exists_whole_units h.1
  obtain ⟨more, rfl, hmore⟩ := exists_delimited_units h.2
  have hall : Delimited (units ++ more) := .append hwhole hmore
  rw [List.append_assoc, ← List.flatten_append, hall.scanAll_append_flatten hfree,
    CamStream.scanAll_append_flatten hfree hwhole, hmore.scanAll_flatten, layOut_append,
    List.length_append, ← layOut_shift, Nat.add_zero]

/-! ## Any number of buffers -/

/-- Where a buffer lies does not matter for the bytes and kinds of its units. -/
theorem map_shiftUnits (length : Nat) (units : List NalUnit) :
    (shiftUnits length units).map (fun unit => (unit.kind, unit.bytes)) =
      units.map fun unit => (unit.kind, unit.bytes) := by
  rw [shiftUnits, List.map_map]
  rfl

theorem seam_flatten {first second : Bytes} {rest : List Bytes} (h : Seam first second) :
    Seam first (second :: rest).flatten :=
  ⟨h.1, by rw [List.flatten_cons]; exact beginsUnit_append h.2 rest.flatten⟩

/-- A scan of buffers one behind the other finds their units in turn. -/
theorem scanAll_seams {buffers : List Bytes} (h : buffers.IsChain Seam) :
    (scanAll buffers.flatten).map (fun unit => (unit.kind, unit.bytes)) =
      (buffers.flatMap scanAll).map fun unit => (unit.kind, unit.bytes) := by
  induction h with
  | nil =>
    have hnone : scanAll [] = [] := Delimited.none.scanAll_flatten
    simp [hnone]
  | singleton buffer => simp
  | @cons_cons first second rest hseam _ ih =>
    rw [List.flatten_cons, scanAll_seam (seam_flatten hseam), List.map_append, map_shiftUnits, ih,
      ← List.map_append, ← List.flatMap_cons]

end CamStream
