import CamStream.Proofs.Scan
import Mathlib.Data.List.Chain
import Mathlib.Order.Bounds.Basic

/-!
# Scanning by position

A scan is said here in terms of the positions at which a unit begins (`BeginsAt`), without cursors:
the first unit lies at the first of these positions, and every other one at the first of them that
is at least `minUnitLength` bytes behind the one before it.

* `firstFrom_search`: the search for the next unit stops at the first position where one begins, or
  at the end of the buffer.
* `BeginsAt.apart`: start codes do not overlap, so the search passes over one only directly behind
  another.
* `Tiles`: units one behind the other, from a position up to the end of the buffer. What a cursor
  yields is of this kind (`Cursor.tiles_toList`), and so the facts on a whole scan are inductions on
  it.
* `scanByPosition?`: the scan with all reads by position, each of which could fail. None does
  (`unitsFrom?_eq_some`).
* `scan_by_position`: which units a scan yields.
-/

namespace CamStream

/-! ## Where units begin -/

/-- A unit begins at the position: a start code with at least a header byte behind it. -/
def BeginsAt (buffer : Bytes) (position : Nat) : Prop :=
  buffer.extract position (position + startCode.length) = startCode ∧
    position + minUnitLength ≤ buffer.length

instance (buffer : Bytes) : DecidablePred (BeginsAt buffer) := fun _ => instDecidableAnd

/-- The first position from `start` on at which a unit begins, if there is one. -/
def FirstFrom (buffer : Bytes) (start : Nat) : Option Nat → Prop
  | some position => IsLeast {place | BeginsAt buffer place ∧ start ≤ place} position
  | none => ∀ place, BeginsAt buffer place → place < start

section Positions

variable {buffer : Bytes} {start position place : Nat} {found other : Option Nat}

theorem beginsAt_iff : BeginsAt buffer position ↔ beginsUnit (buffer.drop position) = true := by
  rw [beginsUnit_iff, BeginsAt, List.extract_eq_take_drop, Nat.add_sub_cancel_left]
  constructor
  · rintro ⟨hcode, hlength⟩
    have hrest : (buffer.drop position).drop startCode.length ≠ [] := by
      rw [← List.length_pos_iff, List.length_drop, List.length_drop]
      simp only [minUnitLength] at hlength
      omega
    obtain ⟨header, tail, htail⟩ := List.exists_cons_of_ne_nil hrest
    have hsplit := List.take_append_drop startCode.length (buffer.drop position)
    rw [hcode, htail] at hsplit
    exact ⟨header, tail, hsplit.symm⟩
  · rintro ⟨header, tail, heq⟩
    refine ⟨by rw [heq, List.take_left], ?_⟩
    have hlength := congrArg List.length heq
    simp only [List.length_drop, List.length_append, List.length_cons] at hlength
    simp only [minUnitLength]
    omega

theorem BeginsAt.getElem?_eq (h : BeginsAt buffer position) {i : Nat}
    (hi : i < startCode.length) : buffer[position + i]? = startCode[i]? := by
  obtain ⟨header, tail, heq⟩ := beginsUnit_iff.mp (beginsAt_iff.mp h)
  rw [← List.getElem?_drop, heq, List.getElem?_append_left hi]

/-- Start codes do not overlap. -/
theorem BeginsAt.apart (h : BeginsAt buffer position) (hplace : BeginsAt buffer place)
    (hlt : position < place) : position + startCode.length ≤ place := by
  by_contra hnear
  obtain ⟨gap, rfl⟩ := Nat.exists_eq_add_of_lt hlt
  -- The one at the end of the first code would be one of the zeros of the second.
  have hgap : gap = 0 ∨ gap = 1 ∨ gap = 2 := by
    simp only [startCode, List.length_cons, List.length_nil] at hnear
    omega
  have hlast := h.getElem?_eq (show 3 < startCode.length by decide)
  have hzero := hplace.getElem?_eq (show 2 - gap < startCode.length by
    simp only [startCode, List.length_cons, List.length_nil]
    omega)
  rw [show position + gap + 1 + (2 - gap) = position + 3 by omega, hlast] at hzero
  rcases hgap with rfl | rfl | rfl <;> simp [startCode] at hzero

/-- Between a unit and the search for the next one, a unit can begin only directly behind its start
code. -/
theorem BeginsAt.eq_or_behind (h : BeginsAt buffer position) (hplace : BeginsAt buffer place)
    (hle : position ≤ place) (hlt : place < position + minUnitLength) :
    place = position ∨ place = position + startCode.length := by
  rcases Nat.eq_or_lt_of_le hle with heq | hbehind
  · exact Or.inl heq.symm
  · have hapart := h.apart hplace hbehind
    simp only [minUnitLength] at hlt
    exact Or.inr (by omega)

theorem FirstFrom.unique (h : FirstFrom buffer start found)
    (hother : FirstFrom buffer start other) : found = other := by
  match found, other, h, hother with
  | none, none, _, _ => rfl
  | some position, some place, h, hother => rw [IsLeast.unique h hother]
  | some position, none, h, hother | none, some position, hother, h =>
    exact absurd (hother position h.1.1) (Nat.not_lt.mpr h.1.2)

theorem FirstFrom.getD_le (h : FirstFrom buffer start found) :
    found.getD buffer.length ≤ buffer.length := by
  cases found with
  | none => exact Nat.le_refl _
  | some position => exact Nat.le_trans (Nat.le_add_right _ _) h.1.1.2

theorem FirstFrom.le_getD (h : FirstFrom buffer start found) (hstart : start ≤ buffer.length) :
    start ≤ found.getD buffer.length := by
  cases found with
  | none => exact hstart
  | some position => exact h.1.2

/-- Where no unit begins, the search goes on at the next position. -/
theorem FirstFrom.of_succ (h : FirstFrom buffer (start + 1) found)
    (hstart : ¬ BeginsAt buffer start) : FirstFrom buffer start found := by
  have hbehind : ∀ place, BeginsAt buffer place → start ≤ place → start + 1 ≤ place := by
    intro place hplace hle
    rcases Nat.eq_or_lt_of_le hle with rfl | hlt
    · exact absurd hplace hstart
    · exact hlt
  cases found with
  | none =>
    intro place hplace
    have hlt := h place hplace
    have hle := hbehind place hplace
    omega
  | some position =>
    obtain ⟨⟨hbegins, hle⟩, hleast⟩ := h
    exact ⟨⟨hbegins, by omega⟩, fun place hplace =>
      hleast ⟨hplace.1, hbehind place hplace.1 hplace.2⟩⟩

/-- The search stops no later than where a unit begins. -/
theorem length_fst_breakAtUnit_drop_le (hplace : BeginsAt buffer place) (hle : start ≤ place) :
    start + (breakAtUnit (buffer.drop start)).1.length ≤ place := by
  obtain ⟨gap, rfl⟩ := Nat.exists_eq_add_of_le hle
  have hsplit := List.take_append_drop gap (buffer.drop start)
  rw [List.drop_drop] at hsplit
  have hstop := length_fst_breakAtUnit_le ((buffer.drop start).take gap) (beginsAt_iff.mp hplace)
  rw [hsplit, List.length_take] at hstop
  omega

/-- The search from a position on stops at the first position where a unit begins, or at the end of
the buffer. -/
theorem firstFrom_search (buffer : Bytes) (start : Nat) :
    ∃ found, FirstFrom buffer start found ∧
      breakAtUnit (buffer.drop start) =
        (buffer.extract start (found.getD buffer.length),
          buffer.drop (found.getD buffer.length)) := by
  have hstop : ∀ place, BeginsAt buffer place → start ≤ place →
      start + (breakAtUnit (buffer.drop start)).1.length ≤ place :=
    fun _ => length_fst_breakAtUnit_drop_le
  have hsplit := breakAtUnit_append (buffer.drop start)
  have haligned := aligned_breakAtUnit (buffer.drop start)
  generalize breakAtUnit (buffer.drop start) = result at hstop hsplit haligned
  obtain ⟨before, rest⟩ := result
  dsimp only at hstop hsplit haligned
  rcases haligned with rfl | hbegins
  · -- The search went through to the end, so nothing begins in front of it.
    rw [List.append_nil] at hsplit
    refine ⟨none, fun place hplace => ?_, ?_⟩
    · have hlength := congrArg List.length hsplit
      rw [List.length_drop] at hlength
      have hle := hstop place hplace
      have hend := hplace.2
      simp only [minUnitLength] at hend
      omega
    · rw [Option.getD_none, List.drop_length, List.extract_eq_take_drop, ← hsplit,
        List.take_of_length_le]
      rw [hsplit, List.length_drop]
  · have hrest : buffer.drop (start + before.length) = rest := by
      rw [← List.drop_drop, ← hsplit, List.drop_left]
    refine ⟨some (start + before.length), ⟨⟨?_, Nat.le_add_right _ _⟩, fun place hplace => ?_⟩, ?_⟩
    · rwa [beginsAt_iff, hrest]
    · exact hstop place hplace.1 hplace.2
    · rw [Option.getD_some, hrest, List.extract_eq_take_drop, Nat.add_sub_cancel_left, ← hsplit,
        List.take_left]

theorem FirstFrom.breakAtUnit_drop (h : FirstFrom buffer start found) :
    breakAtUnit (buffer.drop start) =
      (buffer.extract start (found.getD buffer.length),
        buffer.drop (found.getD buffer.length)) := by
  obtain ⟨other, hother, hbreak⟩ := firstFrom_search buffer start
  rw [h.unique hother, hbreak]

end Positions

/-! ## Units in a buffer -/

/-- The unit lies in the buffer: it begins at its offset and reaches up to where the next one is
found, or to the end of the buffer when there is none. -/
structure NalUnit.LiesIn (buffer : Bytes) (unit : NalUnit) (next : Option Nat) : Prop where
  begins : BeginsAt buffer unit.offset
  search : FirstFrom buffer (unit.offset + minUnitLength) next
  bytes : unit.bytes = buffer.extract unit.offset (next.getD buffer.length)
  header : ∃ header, buffer[unit.offset + startCode.length]? = some header ∧
    unit.kind = .ofHeader header

/-- Units one behind the other, from the position where the first one is found up to the end of the
buffer. -/
inductive Tiles (buffer : Bytes) : Option Nat → List NalUnit → Prop
  | done : Tiles buffer none []
  | cons {unit : NalUnit} {next : Option Nat} {units : List NalUnit}
      (first : unit.LiesIn buffer next) (rest : Tiles buffer next units) :
      Tiles buffer (some unit.offset) (unit :: units)

theorem NalUnit.LiesIn.stop_eq {buffer : Bytes} {unit : NalUnit} {next : Option Nat}
    (h : unit.LiesIn buffer next) : unit.stop = next.getD buffer.length := by
  have hend := h.search.getD_le
  have hbehind := h.search.le_getD h.begins.2
  rw [NalUnit.stop, h.bytes, List.extract_eq_take_drop, List.length_take, List.length_drop]
  omega

namespace Tiles

variable {buffer : Bytes} {found : Option Nat} {units : List NalUnit}

theorem liesIn (h : Tiles buffer found units) :
    ∀ unit ∈ units, ∃ next, unit.LiesIn buffer next := by
  induction h with
  | done => simp
  | @cons first next units hfirst _ ih =>
    intro unit hunit
    rcases List.mem_cons.mp hunit with rfl | hunit
    · exact ⟨next, hfirst⟩
    · exact ih unit hunit

theorem head?_offset (h : Tiles buffer found units) : units.head?.map (·.offset) = found := by
  cases h <;> rfl

theorem isChain (h : Tiles buffer found units) :
    units.IsChain fun earlier later => later.offset = earlier.stop := by
  induction h with
  | done => exact .nil
  | @cons first next units hfirst hrest ih =>
    refine List.isChain_cons.mpr ⟨fun later hlater => ?_, ih⟩
    have hnext := hrest.head?_offset
    rw [Option.mem_def.mp hlater, Option.map_some] at hnext
    rw [hfirst.stop_eq, ← hnext, Option.getD_some]

theorem stop_getLast? (h : Tiles buffer found units) :
    ∀ last ∈ units.getLast?, last.stop = buffer.length := by
  induction h with
  | done => simp
  | @cons first next units hfirst hrest ih =>
    intro last hlast
    cases hrest with
    | done =>
      obtain rfl : first = last := by simpa using hlast
      exact hfirst.stop_eq
    | cons hsecond hrest => exact ih last (by simpa using hlast)

/-- Put one behind the other, the units are the buffer from the first one on. -/
theorem flatten_eq (h : Tiles buffer found units) :
    (units.map (·.bytes)).flatten = buffer.drop (found.getD buffer.length) := by
  induction h with
  | done => simp
  | @cons first next units hfirst _ ih =>
    have hend := hfirst.search.le_getD hfirst.begins.2
    obtain ⟨length, hlength⟩ := Nat.exists_eq_add_of_le
      (Nat.le_trans (Nat.le_add_right _ minUnitLength) hend)
    rw [List.map_cons, List.flatten_cons, ih, hfirst.bytes, Option.getD_some,
      List.extract_eq_take_drop, hlength, Nat.add_sub_cancel_left, ← List.drop_drop,
      List.take_append_drop]

theorem sorted (h : Tiles buffer found units) : (units.map (·.offset)).Pairwise (· < ·) := by
  rw [← List.isChain_iff_pairwise, List.isChain_map]
  refine h.isChain.imp_of_mem_imp ?_
  intro earlier later hearlier _ hnext
  obtain ⟨next, hlies⟩ := h.liesIn earlier hearlier
  have hbehind := hlies.search.le_getD hlies.begins.2
  have hstop := hlies.stop_eq
  simp only [minUnitLength] at hbehind
  omega

/-- No unit is missed: wherever one begins, a unit of the scan begins too, or the start code of one
ends. -/
theorem complete (h : Tiles buffer found units) {start : Nat}
    (hfound : FirstFrom buffer start found) {place : Nat} (hplace : BeginsAt buffer place)
    (hstart : start ≤ place) :
    ∃ unit ∈ units, place = unit.offset ∨ place = unit.offset + startCode.length := by
  induction h generalizing start with
  | done => exact absurd (hfound place hplace) (Nat.not_lt.mpr hstart)
  | @cons first next units hfirst _ ih =>
    -- The search for the next unit passes over the places up to the header byte.
    rcases Nat.lt_or_ge place (first.offset + minUnitLength) with hnear | hbehind
    · have hle : first.offset ≤ place := hfound.2 ⟨hplace, hstart⟩
      exact ⟨first, List.mem_cons_self, hfirst.begins.eq_or_behind hplace hle hnear⟩
    · obtain ⟨unit, hunit, hwhere⟩ := ih hfirst.search hbehind
      exact ⟨unit, List.mem_cons_of_mem _ hunit, hwhere⟩

end Tiles

/-! ## Cursors in a buffer -/

namespace Cursor

/-- A cursor in front of the unit that was found, or at the end of the buffer. -/
def inFrontOf (buffer : Bytes) (found : Option Nat) (budget : Nat) : Cursor where
  offset := found.getD buffer.length
  rest := buffer.drop (found.getD buffer.length)
  budget := budget

variable {buffer : Bytes} {found : Option Nat} {position budget : Nat}

theorem ofBytes_eq (h : FirstFrom buffer 0 found) (budget : Nat) :
    ofBytes buffer budget = inFrontOf buffer found budget := by
  have hbreak : breakAtUnit buffer = _ := h.breakAtUnit_drop
  have hend := h.getD_le
  rw [ofBytes, hbreak, inFrontOf]
  simp [List.extract_eq_take_drop, hend]

theorem toList_inFrontOf_none : (inFrontOf buffer none budget).toList = [] := by
  rw [inFrontOf, Option.getD_none, List.drop_length]
  exact toList_rest_nil _ _

theorem toList_inFrontOf_some (h : BeginsAt buffer position) (budget : Nat) :
    ∃ unit next, unit.offset = position ∧ unit.LiesIn buffer next ∧
      (inFrontOf buffer (some position) (budget + 1)).toList =
        unit :: (inFrontOf buffer next budget).toList := by
  obtain ⟨header, tail, hunit⟩ := beginsUnit_iff.mp (beginsAt_iff.mp h)
  have htail : buffer.drop (position + minUnitLength) = tail := by
    rw [← List.drop_drop, hunit]
    rfl
  obtain ⟨next, hnext, hbreak⟩ := firstFrom_search buffer (position + minUnitLength)
  rw [htail] at hbreak
  have hend := hnext.le_getD h.2
  have hbody : (breakAtUnit tail).1 =
      tail.take (next.getD buffer.length - (position + minUnitLength)) := by
    rw [hbreak, List.extract_eq_take_drop, htail]
  have hrest : (breakAtUnit tail).2 = buffer.drop (next.getD buffer.length) := by rw [hbreak]
  have hheader : buffer[position + startCode.length]? = some header := by
    rw [← List.getElem?_drop, hunit]
    rfl
  have hbytes : startCode ++ header :: (breakAtUnit tail).1 =
      buffer.extract position (next.getD buffer.length) := by
    have hlength : next.getD buffer.length - position =
        next.getD buffer.length - (position + minUnitLength) + minUnitLength := by omega
    rw [hbody, List.extract_eq_take_drop, hunit, hlength]
    rfl
  -- Once the unit is known to lie in the buffer, its length says where the cursor goes.
  let unit : NalUnit :=
    { offset := position, bytes := startCode ++ header :: (breakAtUnit tail).1,
      kind := .ofHeader header }
  have hlies : unit.LiesIn buffer next := ⟨h, hnext, hbytes, header, hheader, rfl⟩
  have hstop : position + (startCode ++ header :: (breakAtUnit tail).1).length =
      next.getD buffer.length := hlies.stop_eq
  refine ⟨unit, next, rfl, hlies, ?_⟩
  rw [inFrontOf, Option.getD_some, hunit, toList_cons, hstop, hrest]
  rfl

/-- What a cursor yields with enough budget are units one behind the other. -/
theorem tiles_toList {start : Nat} (h : FirstFrom buffer start found)
    (hbudget : buffer.length ≤ found.getD buffer.length + budget) :
    Tiles buffer found (inFrontOf buffer found budget).toList := by
  induction budget generalizing start found with
  | zero =>
    cases found with
    | none =>
      rw [toList_inFrontOf_none]
      exact .done
    | some position =>
      have hlength := h.1.1.2
      simp only [Option.getD_some, minUnitLength] at hbudget hlength
      omega
  | succ budget ih =>
    cases found with
    | none =>
      rw [toList_inFrontOf_none]
      exact .done
    | some position =>
      obtain ⟨unit, next, rfl, hlies, hlist⟩ := toList_inFrontOf_some h.1.1 budget
      have hbehind := hlies.search.le_getD hlies.begins.2
      rw [hlist]
      refine .cons hlies (ih hlies.search ?_)
      simp only [Option.getD_some, minUnitLength] at hbudget hbehind
      omega

end Cursor

/-- The units of a buffer lie one behind the other, from the first position where one begins. -/
theorem tiles_scanAll {buffer : Bytes} {found : Option Nat} (h : FirstFrom buffer 0 found) :
    Tiles buffer found (scanAll buffer) := by
  rw [scanAll, scan, Cursor.ofBytes_eq h]
  exact Cursor.tiles_toList h (Nat.le_add_left _ _)

/-! ## Reads by position -/

/-- The bytes from one position to another; nothing unless both lie in the buffer, in this order. -/
def slice? (buffer : Bytes) (start stop : Nat) : Option Bytes :=
  if start ≤ stop ∧ stop ≤ buffer.length then some (buffer.extract start stop) else none

/-- The first of some places at which a start code stands. Without a result, if a place lies outside
the buffer. -/
def findCode? (buffer : Bytes) (position : Nat) : (places : Nat) → Option (Option Nat)
  | 0 => some none
  | places + 1 => do
    let window ← slice? buffer position (position + startCode.length)
    if window = startCode then return some position
    else findCode? buffer (position + 1) places

def findUnit? (buffer : Bytes) (start : Nat) : Option (Option Nat) :=
  if buffer.length < start + minUnitLength then some none
  else findCode? buffer start (buffer.length - startCode.length - start)

/-- The units from a position on, at most `budget` of them. -/
def unitsFrom? (buffer : Bytes) : (found : Option Nat) → (budget : Nat) → Option (List NalUnit)
  | none, _ | some _, 0 => some []
  | some position, budget + 1 => do
    let next ← findUnit? buffer (position + minUnitLength)
    let bytes ← slice? buffer position (next.getD buffer.length)
    let header ← buffer[position + startCode.length]?
    let rest ← unitsFrom? buffer next budget
    return { offset := position, bytes, kind := .ofHeader header } :: rest

/-- A scan by positions, without a result as soon as a read goes out of the buffer. -/
def scanByPosition? (buffer : Bytes) (budget : Nat) : Option (List NalUnit) := do
  unitsFrom? buffer (← findUnit? buffer 0) budget

section Reads

variable {buffer : Bytes}

theorem slice?_eq_some {start stop : Nat} (hle : start ≤ stop) (hstop : stop ≤ buffer.length) :
    slice? buffer start stop = some (buffer.extract start stop) := if_pos ⟨hle, hstop⟩

theorem findCode?_eq_some {position places : Nat}
    (h : position + places + startCode.length = buffer.length) :
    ∃ found, findCode? buffer position places = some found ∧ FirstFrom buffer position found := by
  induction places generalizing position with
  | zero =>
    refine ⟨none, rfl, fun place hplace => ?_⟩
    have hend := hplace.2
    simp only [minUnitLength] at hend
    omega
  | succ places ih =>
    have hstop : position + startCode.length ≤ buffer.length := by omega
    rw [findCode?, slice?_eq_some (Nat.le_add_right _ _) hstop]
    by_cases hcode : buffer.extract position (position + startCode.length) = startCode
    · have hbegins : BeginsAt buffer position := ⟨hcode, by rw [minUnitLength]; omega⟩
      exact ⟨some position, if_pos hcode, ⟨hbegins, Nat.le_refl _⟩, fun place hplace => hplace.2⟩
    · have hnext : position + 1 + places + startCode.length = buffer.length := by omega
      obtain ⟨found, hfind, hfirst⟩ := ih hnext
      exact ⟨found, (if_neg hcode).trans hfind, hfirst.of_succ fun hbegins => hcode hbegins.1⟩

theorem findUnit?_eq_some {start : Nat} {found : Option Nat}
    (h : FirstFrom buffer start found) : findUnit? buffer start = some found := by
  rw [findUnit?]
  split
  · rename_i hshort
    have hnone : FirstFrom buffer start none := fun place hplace => by
      have hend := hplace.2
      omega
    rw [h.unique hnone]
  · rename_i hlong
    rw [minUnitLength] at hlong
    have hplaces : start + (buffer.length - startCode.length - start) + startCode.length =
        buffer.length := by omega
    obtain ⟨other, hfind, hother⟩ := findCode?_eq_some hplaces
    rw [hfind, h.unique hother]

/-- No read goes out of the buffer, and the units are those that a cursor yields. -/
theorem unitsFrom?_eq_some {start : Nat} {found : Option Nat} (h : FirstFrom buffer start found)
    (budget : Nat) :
    unitsFrom? buffer found budget = some (Cursor.inFrontOf buffer found budget).toList := by
  induction budget generalizing start found with
  | zero =>
    rw [Cursor.inFrontOf, Cursor.toList_budget_zero]
    cases found <;> rfl
  | succ budget ih =>
    cases found with
    | none => rw [Cursor.toList_inFrontOf_none, unitsFrom?]
    | some position =>
      obtain ⟨unit, next, rfl, hlies, hlist⟩ := Cursor.toList_inFrontOf_some h.1.1 budget
      obtain ⟨header, hheader, hkind⟩ := hlies.header
      have hbehind := hlies.search.le_getD hlies.begins.2
      have hslice : slice? buffer unit.offset (next.getD buffer.length) = some unit.bytes := by
        rw [hlies.bytes]
        exact slice?_eq_some (by omega) hlies.search.getD_le
      rw [hlist, unitsFrom?, findUnit?_eq_some hlies.search]
      simp only [Option.bind_eq_bind, Option.bind_some, hslice, hheader, ih hlies.search]
      rw [← hkind]
      rfl

theorem scanByPosition?_eq_some (buffer : Bytes) (budget : Nat) :
    scanByPosition? buffer budget = some (scan buffer budget) := by
  obtain ⟨found, hfound, -⟩ := firstFrom_search buffer 0
  rw [scanByPosition?, findUnit?_eq_some hfound, scan, Cursor.ofBytes_eq hfound]
  exact unitsFrom?_eq_some hfound budget

end Reads

/-! ## The units of a scan -/

/-- **The units of a scan.** For every buffer and budget, where `starts` are the positions at which
a unit begins:

* a scan with a budget yields the first units of the whole scan, and no read of the buffer goes out
  of it;
* the offsets of the whole scan go up, and lie in `starts`; the first one is the least of `starts`,
  and there is none if `starts` is empty;
* a unit reaches from its offset to the least position of `starts` that is at least `minUnitLength`
  bytes behind it, or to the end of the buffer if there is none, and the byte behind its start code
  announces its kind;
* every unit begins where the one before it ends, and the last one reaches to the end of the buffer;
* every position in `starts` is the offset of a unit, or lies right behind the start code of one. -/
theorem scan_by_position (buffer : Bytes) (budget : Nat) :
    let starts : Set Nat := {position | BeginsAt buffer position}
    let units := scanAll buffer
    scan buffer budget = units.take budget ∧
    scanByPosition? buffer budget = some (scan buffer budget) ∧
    (units.map (·.offset)).Pairwise (· < ·) ∧
    (units = [] ↔ starts = ∅) ∧ (∀ first ∈ units.head?, IsLeast starts first.offset) ∧
    (∀ unit ∈ units,
      unit.offset ∈ starts ∧
      (IsLeast {position ∈ starts | unit.offset + minUnitLength ≤ position} unit.stop ∨
        (∀ position ∈ starts, position < unit.offset + minUnitLength) ∧ unit.stop = buffer.length) ∧
      unit.bytes = buffer.extract unit.offset unit.stop ∧
      ∃ header, buffer[unit.offset + startCode.length]? = some header ∧
        unit.kind = .ofHeader header) ∧
    units.IsChain (fun earlier later => later.offset = earlier.stop) ∧
    (∀ last ∈ units.getLast?, last.stop = buffer.length) ∧
    ∀ position ∈ starts, ∃ unit ∈ units,
      position = unit.offset ∨ position = unit.offset + startCode.length := by
  intro starts units
  obtain ⟨found, hfound, -⟩ := firstFrom_search buffer 0
  have htiles : Tiles buffer found units := tiles_scanAll hfound
  have hcomplete : ∀ position ∈ starts, ∃ unit ∈ units,
      position = unit.offset ∨ position = unit.offset + startCode.length :=
    fun position hposition => htiles.complete hfound hposition (Nat.zero_le _)
  refine ⟨scan_eq_take buffer budget, scanByPosition?_eq_some buffer budget, htiles.sorted,
    ⟨fun hnil => ?_, fun hempty => ?_⟩, fun first hfirst => ?_, fun unit hunit => ?_,
    htiles.isChain, htiles.stop_getLast?, hcomplete⟩
  · refine Set.eq_empty_of_forall_notMem fun position hposition => ?_
    obtain ⟨unit, hunit, -⟩ := hcomplete position hposition
    rw [hnil] at hunit
    cases hunit
  · refine List.eq_nil_iff_forall_not_mem.mpr fun unit hunit => ?_
    obtain ⟨next, hlies⟩ := htiles.liesIn unit hunit
    have hmem : unit.offset ∈ starts := hlies.begins
    rw [hempty] at hmem
    exact hmem
  · have hhead := htiles.head?_offset
    rw [Option.mem_def.mp hfirst, Option.map_some] at hhead
    rw [← hhead] at hfound
    exact ⟨hfound.1.1, fun position hposition => hfound.2 ⟨hposition, Nat.zero_le _⟩⟩
  · obtain ⟨next, hlies⟩ := htiles.liesIn unit hunit
    have hstop := hlies.stop_eq
    refine ⟨hlies.begins, ?_, by rw [hstop]; exact hlies.bytes, hlies.header⟩
    rw [hstop]
    cases next with
    | none => exact Or.inr ⟨hlies.search, rfl⟩
    | some position => exact Or.inl hlies.search

-- A unit begins right behind the start code of another one, and the scan does not stop there.
example :
    let buffer : Bytes := [0, 0, 0, 1, 0, 0, 0, 1, 0x65]
    BeginsAt buffer 4 ∧ (scanAll buffer).map (·.offset) = [0] := by decide +kernel

end CamStream
