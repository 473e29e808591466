import CamStream.Proofs.Framing.Runs
import CamStream.Proofs.Scan.Delimited
import CamStream.Proofs.Scan.Positions
import CamStream.Replay.Recording

/-!
# Recordings in frames

The frames of a recording hold its units, each of them once and in order, and a scan of a frame finds
those that were put into it. A framer that looks at all units of a frame therefore does with the
frames one after the other what it does with the whole recording at once.

* `frameUnits`: the units of each frame.
* `frames_eq`: the bytes of a frame are those of its units, one behind the other.
* `Framer.processAll_frames`: where one frame ends and the next one begins makes no difference.
-/

namespace CamStream

/-- The bytes of each frame of a recording. -/
def framesOf (recording : Bytes) : List Bytes := (splitFrames recording).map (·.of recording)

/-- Units grouped as a recording is cut into frames, behind the units of a frame that is still
open. -/
def frameUnits (opened : List NalUnit) : List NalUnit → List (List NalUnit)
  | [] => if opened.isEmpty then [] else [opened]
  | unit :: units =>
    if unit.kind.isSlice then (opened ++ [unit]) :: frameUnits [] units
    else frameUnits (opened ++ [unit]) units

theorem flatten_frameUnits (opened units : List NalUnit) :
    (frameUnits opened units).flatten = opened ++ units := by
  induction units generalizing opened with
  | nil => cases opened <;> simp [frameUnits]
  | cons unit units ih =>
    unfold frameUnits
    split
    · rw [List.flatten_cons, ih, List.nil_append, List.append_assoc, List.singleton_append]
    · rw [ih, List.append_assoc, List.singleton_append]

/-! ## The bytes of a frame -/

/-- The units of a frame that is still open reach from where it was opened up to a position. -/
def OpenUntil (buffer : Bytes) (stop : Nat) (opened : List NalUnit) : Option Nat → Prop
  | none => opened = []
  | some start => opened ≠ [] ∧ start ≤ stop ∧
      buffer.extract start stop = (opened.map (·.bytes)).flatten

theorem extract_append {buffer : Bytes} {start middle stop : Nat} (hstart : start ≤ middle)
    (hstop : middle ≤ stop) :
    buffer.extract start middle ++ buffer.extract middle stop = buffer.extract start stop := by
  obtain ⟨first, rfl⟩ := Nat.exists_eq_add_of_le hstart
  obtain ⟨second, rfl⟩ := Nat.exists_eq_add_of_le hstop
  simp only [List.extract_eq_take_drop, Nat.add_assoc, Nat.add_sub_cancel_left]
  rw [← Nat.add_assoc, Nat.add_sub_cancel_left, List.take_add, List.drop_drop]

/-- One more unit belongs to the open frame, which begins with it if none was open. -/
theorem OpenUntil.append {buffer : Bytes} {opened : List NalUnit} {start? : Option Nat}
    {unit : NalUnit} {next : Option Nat} (h : OpenUntil buffer unit.offset opened start?)
    (hunit : unit.LiesIn buffer next) :
    OpenUntil buffer (next.getD buffer.length) (opened ++ [unit]) (some (start?.getD unit.offset)) := by
  have hbehind := hunit.search.le_getD hunit.begins.2
  refine ⟨by simp, ?_, ?_⟩
  · cases start? with
    | none => exact Nat.le_trans (Nat.le_add_right _ _) hbehind
    | some start =>
      have hle := h.2.1
      rw [Option.getD_some]
      omega
  · cases start? with
    | none =>
      have hnil : opened = [] := h
      simp [hnil, hunit.bytes]
    | some start =>
      rw [Option.getD_some, List.map_append, List.flatten_append, ← h.2.2, List.map_singleton,
        List.flatten_singleton, hunit.bytes]
      exact (extract_append h.2.1 (by omega)).symm

theorem of_frameSpans {buffer : Bytes} {found : Option Nat} {units : List NalUnit}
    (h : Tiles buffer found units) {opened : List NalUnit} {start? : Option Nat}
    (hopened : OpenUntil buffer (found.getD buffer.length) opened start?) :
    (frameSpans start? buffer.length units).map (·.of buffer) =
      (frameUnits opened units).map fun group => (group.map (·.bytes)).flatten := by
  induction h generalizing opened start? with
  | done =>
    cases start? with
    | none =>
      have hnil : opened = [] := hopened
      rw [hnil]
      rfl
    | some start =>
      obtain ⟨hne, -, hbytes⟩ := hopened
      rw [Option.getD_none, List.extract_eq_take_drop] at hbytes
      simp [frameSpans, frameUnits, hne, Span.of, hbytes]
  | @cons unit next units hunit hrest ih =>
    have hmore := hopened.append hunit
    unfold frameSpans frameUnits
    split
    · -- The frame ends behind the slice, and none is open any more.
      have hclosed : OpenUntil buffer (next.getD buffer.length) [] none := rfl
      rw [List.map_cons, List.map_cons, ih hclosed, ← hmore.2.2, hunit.stop_eq,
        List.extract_eq_take_drop]
      rfl
    · exact ih hmore

/-- The frames of a recording are its units, in groups. -/
theorem frames_eq (recording : Bytes) :
    framesOf recording =
      (frameUnits [] (scanAll recording)).map fun group => (group.map (·.bytes)).flatten := by
  obtain ⟨found, hfound, -⟩ := firstFrom_search recording 0
  have hclosed : OpenUntil recording (found.getD recording.length) [] none := rfl
  exact of_frameSpans (tiles_scanAll hfound) hclosed

/-! ## Framers at work on frames -/

namespace Framer

/-- What becomes of the units of capture frames, in order. -/
def processAll (framer : Framer) : List Bytes → List Fate × Framer
  | [] => ([], framer)
  | frame :: frames =>
    let (fates, framer) := framer.process frame
    let (others, framer) := framer.processAll frames
    (fates ++ others, framer)

theorem processAll_groups {framer : Framer} {groups : List (List NalUnit)}
    (hbytes : Delimited (groups.flatten.map (·.bytes)))
    (hkinds : ∀ unit ∈ groups.flatten, unit.kind = kindOfUnit unit.bytes)
    (hlimit : groups.flatten.length ≤ framer.limit) :
    framer.processAll (groups.map fun group => (group.map (·.bytes)).flatten) =
      framer.acceptAll groups.flatten := by
  induction groups generalizing framer with
  | nil => rfl
  | cons group groups ih =>
    rw [List.flatten_cons] at hbytes hkinds hlimit ⊢
    rw [List.map_append] at hbytes
    rw [List.length_append] at hlimit
    have hscan : (scanAll (group.map (·.bytes)).flatten).map (fun unit => (unit.kind, unit.bytes)) =
        group.map fun unit => (unit.kind, unit.bytes) := by
      rw [hbytes.of_append_left.scanAll_flatten, layOut_map, List.map_map]
      apply List.map_congr_left
      intro unit hunit
      rw [hkinds unit (List.mem_append_left _ hunit)]
      rfl
    have hprocess : framer.process (group.map (·.bytes)).flatten = framer.acceptAll group :=
      framer.process_eq_acceptAll hscan (by omega)
    have hrest := @ih (framer.acceptAll group).2 hbytes.of_append_right
      (fun unit hunit => hkinds unit (List.mem_append_right _ hunit))
      (by rw [acceptAll_limit]; omega)
    rw [List.map_cons, processAll, hprocess, acceptAll_append]
    dsimp only
    rw [hrest]

/-- The frames of a recording have the fates that its units have in one frame. -/
theorem processAll_frames {framer : Framer} {recording : Bytes}
    (hlimit : (scanAll recording).length ≤ framer.limit) :
    framer.processAll (framesOf recording) = framer.acceptAll (scanAll recording) := by
  have hunits := flatten_frameUnits [] (scanAll recording)
  rw [List.nil_append] at hunits
  have hgroups := @processAll_groups framer (frameUnits [] (scanAll recording))
  rw [hunits] at hgroups
  rw [frames_eq]
  exact hgroups (delimited_scanAll recording) (fun unit hunit => kind_of_mem_scan hunit) hlimit

end Framer

end CamStream
