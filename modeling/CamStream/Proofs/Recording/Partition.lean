import CamStream.Proofs.Recording.Frames

/-!
# Frames partition a recording

The frames of a recording are stretches of it, one behind the other, from the first unit to the end of
the recording. Each of them ends behind a slice and holds no other one, except that no slice need close
the last frame: the units behind the last slice make up a frame of their own.

A frame is replayed without the bytes around it. A scan of these bytes finds the units that lie in the
frame and nothing else, since a frame is cut only where a unit begins: what lies in front of the cut
does not end in a start code (`Delimited`).

* `splitFrames_eq`: the frames are the stretches of groups of units (`frameUnits`).
* `Closed`, `closed_frameUnits`: which units a group holds.
* `unitsIn_spanOf`: the units that lie in the stretch of a group are those of the group.
* `scanAll_frame`: a scan of a frame gives its units.
* `recording_partitioned`: all of this for every byte string.
-/

namespace CamStream

/-! ## Stretches and units -/

/-- The stretch from the first of some units to the end of the last one. -/
def spanOf (group : List NalUnit) : Span where
  start := (group.head?.map (·.offset)).getD 0
  stop := (group.getLast?.map (·.stop)).getD 0

/-- The units that lie in a stretch. -/
def Span.unitsIn (span : Span) (units : List NalUnit) : List NalUnit :=
  units.filter fun unit => span.start ≤ unit.offset ∧ unit.stop ≤ span.stop

/-- The unit as it lies behind a cut. -/
def NalUnit.behind (start : Nat) (unit : NalUnit) : NalUnit :=
  { unit with offset := unit.offset - start }

/-- The units end with a slice, and it is the only one. -/
def EndsInSlice (group : List NalUnit) : Prop :=
  ∃ others slice, group = others ++ [slice] ∧ slice.kind.isSlice = true ∧
    ∀ unit ∈ others, unit.kind.isSlice = false

/-- Groups that end with their only slice, of which the last one may hold no slice at all. -/
inductive Closed : List (List NalUnit) → Prop
  | none : Closed []
  | trailing {group : List NalUnit} (hgroup : group ≠ [])
      (hplain : ∀ unit ∈ group, unit.kind.isSlice = false) : Closed [group]
  | cons {group : List NalUnit} {groups : List (List NalUnit)} (first : EndsInSlice group)
      (rest : Closed groups) : Closed (group :: groups)

theorem EndsInSlice.ne_nil {group : List NalUnit} (h : EndsInSlice group) : group ≠ [] := by
  obtain ⟨others, slice, rfl, -, -⟩ := h
  simp

namespace Closed

variable {groups : List (List NalUnit)}

theorem ne_nil (h : Closed groups) : ∀ group ∈ groups, group ≠ [] := by
  induction h with
  | none => simp
  | trailing hgroup _ => simpa using hgroup
  | cons first _ ih =>
    intro group hgroup
    rcases List.mem_cons.mp hgroup with rfl | hgroup
    · exact first.ne_nil
    · exact ih group hgroup

theorem endsInSlice_dropLast (h : Closed groups) : ∀ group ∈ groups.dropLast, EndsInSlice group := by
  induction h with
  | none | trailing => simp
  | @cons first groups hfirst hrest ih =>
    intro group hgroup
    cases groups with
    | nil => simp at hgroup
    | cons second groups =>
      rw [List.dropLast_cons_cons] at hgroup
      rcases List.mem_cons.mp hgroup with rfl | hgroup
      · exact hfirst
      · exact ih group hgroup

theorem getLast? (h : Closed groups) :
    ∀ group ∈ groups.getLast?, EndsInSlice group ∨ ∀ unit ∈ group, unit.kind.isSlice = false := by
  induction h with
  | none => simp
  | trailing _ hplain => simpa using Or.inr hplain
  | @cons first groups hfirst hrest ih =>
    intro group hgroup
    cases groups with
    | nil =>
      obtain rfl : first = group := by simpa using hgroup
      exact Or.inl hfirst
    | cons second groups => exact ih group (by simpa using hgroup)

end Closed

theorem closed_frameUnits {opened : List NalUnit}
    (hopened : ∀ unit ∈ opened, unit.kind.isSlice = false) (units : List NalUnit) :
    Closed (frameUnits opened units) := by
  induction units generalizing opened with
  | nil =>
    cases opened with
    | nil => exact .none
    | cons unit opened => exact .trailing (List.cons_ne_nil _ _) hopened
  | cons unit units ih =>
    unfold frameUnits
    split
    · rename_i hslice
      exact .cons ⟨opened, unit, rfl, hslice, hopened⟩ (ih (by simp))
    · rename_i hplain
      apply ih
      intro other hother
      rcases List.mem_append.mp hother with hother | hother
      · exact hopened other hother
      · obtain rfl : other = unit := by simpa using hother
        exact Bool.eq_false_iff.mpr hplain

/-- A frame is the stretch of its units: the open frame begins with the first of them, and ends with
the last one that was put into it. -/
theorem frameSpans_eq {buffer : Bytes} {found : Option Nat} {units : List NalUnit}
    (h : Tiles buffer found units) (opened : List NalUnit)
    (hopened : ∀ last ∈ opened.getLast?, last.stop = found.getD buffer.length) :
    frameSpans (opened.head?.map (·.offset)) buffer.length units =
      (frameUnits opened units).map spanOf := by
  induction h generalizing opened with
  | done =>
    cases opened with
    | nil => rfl
    | cons first opened =>
      have hlast := List.getLast?_eq_some_getLast (List.cons_ne_nil first opened)
      have hstop := hopened _ hlast
      simp [frameSpans, frameUnits, spanOf, hlast, hstop]
  | @cons unit next units hunit hrest ih =>
    have hhead : (opened ++ [unit]).head?.map (·.offset) =
        some ((opened.head?.map (·.offset)).getD unit.offset) := by
      cases opened <;> rfl
    unfold frameSpans frameUnits
    split
    · have hspan : spanOf (opened ++ [unit]) =
          { start := (opened.head?.map (·.offset)).getD unit.offset, stop := unit.stop } := by
        rw [spanOf, hhead]
        simp
      have hclosed := ih [] (by simp)
      rw [List.map_cons, hspan, ← hclosed]
      rfl
    · have hopen := ih (opened ++ [unit]) (by simpa using hunit.stop_eq)
      rw [hhead] at hopen
      exact hopen

/-- The frames of a recording are the stretches of its groups of units. -/
theorem splitFrames_eq (recording : Bytes) :
    splitFrames recording = (frameUnits [] (scanAll recording)).map spanOf := by
  obtain ⟨found, hfound, -⟩ := firstFrom_search recording 0
  exact frameSpans_eq (tiles_scanAll hfound) [] (by simp)

/-! ## The units of a frame -/

/-- Units of which none reaches into a later one. -/
def Apart (units : List NalUnit) : Prop :=
  (∀ unit ∈ units, unit.offset < unit.stop) ∧
    units.Pairwise fun earlier later => earlier.stop ≤ later.offset

namespace Tiles

variable {buffer : Bytes} {found : Option Nat} {units : List NalUnit}

theorem le_offset (h : Tiles buffer found units) :
    ∀ unit ∈ units, found.getD buffer.length ≤ unit.offset := by
  induction h with
  | done => simp
  | @cons first next units hfirst _ ih =>
    intro unit hunit
    rcases List.mem_cons.mp hunit with rfl | hunit
    · exact Nat.le_refl _
    · have hbehind := hfirst.search.le_getD hfirst.begins.2
      have hlater := ih unit hunit
      rw [Option.getD_some]
      omega

theorem apart (h : Tiles buffer found units) : Apart units := by
  induction h with
  | done => exact ⟨by simp, .nil⟩
  | @cons first next units hfirst hrest ih =>
    have hbehind := hfirst.search.le_getD hfirst.begins.2
    have hstop := hfirst.stop_eq
    refine ⟨fun unit hunit => ?_, .cons (fun unit hunit => ?_) ih.2⟩
    · rcases List.mem_cons.mp hunit with rfl | hunit
      · simp only [minUnitLength] at hbehind
        omega
      · exact ih.1 unit hunit
    · have hlater := hrest.le_offset unit hunit
      omega

end Tiles

section Group

variable {before group after : List NalUnit}

theorem stop_spanOf_concat (others : List NalUnit) (last : NalUnit) :
    (spanOf (others ++ [last])).stop = last.stop := by simp [spanOf]

/-- Units that keep apart lie in their stretch. -/
theorem Apart.within (h : Apart group) :
    ∀ unit ∈ group, (spanOf group).start ≤ unit.offset ∧ unit.stop ≤ (spanOf group).stop := by
  obtain ⟨hlong, hpairs⟩ := h
  intro unit hunit
  constructor
  · obtain ⟨first, rest, rfl⟩ := List.exists_cons_of_ne_nil (List.ne_nil_of_mem hunit)
    have hstart : (spanOf (first :: rest)).start = first.offset := rfl
    have hlength := hlong first List.mem_cons_self
    rcases List.mem_cons.mp hunit with rfl | hunit
    · exact Nat.le_refl _
    · have hbehind := (List.pairwise_cons.mp hpairs).1 unit hunit
      omega
  · rcases List.eq_nil_or_concat group with rfl | ⟨others, last, rfl⟩
    · cases hunit
    · rw [List.concat_eq_append] at hpairs hlong hunit ⊢
      have hlength := hlong last (by simp)
      rw [stop_spanOf_concat]
      rcases List.mem_append.mp hunit with hunit | hunit
      · have hahead := (List.pairwise_append.mp hpairs).2.2 unit hunit last (by simp)
        omega
      · obtain rfl : unit = last := by simpa using hunit
        exact Nat.le_refl _

/-- Among units that keep apart, those in the stretch of some of them are these units. -/
theorem unitsIn_spanOf (hgroup : group ≠ []) (h : Apart (before ++ group ++ after)) :
    (spanOf group).unitsIn (before ++ group ++ after) = group := by
  obtain ⟨hlong, hpairs⟩ := h
  obtain ⟨hin, -, hahead⟩ := List.pairwise_append.mp hpairs
  obtain ⟨-, hpart, hbehind⟩ := List.pairwise_append.mp hin
  have hwithin : ∀ unit ∈ group, (spanOf group).start ≤ unit.offset ∧
      unit.stop ≤ (spanOf group).stop :=
    Apart.within ⟨fun unit hunit => hlong unit (by simp [hunit]), hpart⟩
  have hbefore : (spanOf group).unitsIn before = [] := by
    refine List.filter_eq_nil_iff.mpr fun unit hunit => ?_
    obtain ⟨first, rest, rfl⟩ := List.exists_cons_of_ne_nil hgroup
    have hstart : (spanOf (first :: rest)).start = first.offset := rfl
    have hends := hbehind unit hunit first List.mem_cons_self
    have hlength := hlong unit (by simp [hunit])
    simp only [decide_eq_true_eq]
    omega
  have hafter : (spanOf group).unitsIn after = [] := by
    refine List.filter_eq_nil_iff.mpr fun unit hunit => ?_
    obtain ⟨others, last, rfl⟩ := (List.eq_nil_or_concat group).resolve_left hgroup
    rw [List.concat_eq_append] at hahead ⊢
    have hstop := stop_spanOf_concat others last
    have hbegins := hahead last (by simp) unit hunit
    have hlength := hlong unit (by simp [hunit])
    simp only [decide_eq_true_eq]
    omega
  have hall : (spanOf group).unitsIn group = group :=
    List.filter_eq_self.mpr fun unit hunit => by simpa using hwithin unit hunit
  calc (spanOf group).unitsIn (before ++ group ++ after)
    _ = (spanOf group).unitsIn before ++ (spanOf group).unitsIn group ++
        (spanOf group).unitsIn after := by
      simp only [Span.unitsIn, List.filter_append]
    _ = group := by rw [hbefore, hall, hafter, List.nil_append, List.append_nil]

/-- Units one behind the other, seen from where the first one begins. -/
theorem layOut_behind {start : Nat}
    (hchain : group.IsChain fun earlier later => later.offset = earlier.stop)
    (hkinds : ∀ unit ∈ group, unit.kind = kindOfUnit unit.bytes) (offset : Nat)
    (hoffset : ∀ first ∈ group.head?, first.offset = start + offset) :
    layOut offset (group.map (·.bytes)) = group.map (·.behind start) := by
  induction group generalizing offset with
  | nil => rfl
  | cons unit group ih =>
    obtain ⟨hnext, hrest⟩ := List.isChain_cons.mp hchain
    have hunit : unit.offset = start + offset := hoffset unit rfl
    have hmore := ih hrest (fun other hother => hkinds other (List.mem_cons_of_mem _ hother))
      (offset + unit.bytes.length) fun next hhead => by
        rw [hnext next hhead, NalUnit.stop, hunit, Nat.add_assoc]
    rw [List.map_cons, List.map_cons, layOut, hmore, ← hkinds unit List.mem_cons_self,
      NalUnit.behind, hunit, Nat.add_sub_cancel_left]

end Group

/-! ## The frames of a recording -/

section Recording

variable (recording : Bytes)

theorem apart_scanAll : Apart (scanAll recording) := by
  obtain ⟨found, hfound, -⟩ := firstFrom_search recording 0
  exact (tiles_scanAll hfound).apart

theorem isChain_scanAll :
    (scanAll recording).IsChain fun earlier later => later.offset = earlier.stop := by
  obtain ⟨found, hfound, -⟩ := firstFrom_search recording 0
  exact (tiles_scanAll hfound).isChain

/-- The last unit ends with the recording. -/
theorem stop_getLast?_scanAll : ∀ last ∈ (scanAll recording).getLast?, last.stop = recording.length := by
  obtain ⟨found, hfound, -⟩ := firstFrom_search recording 0
  exact (tiles_scanAll hfound).stop_getLast?

variable {recording} {group : List NalUnit}

/-- A group lies among the units of the recording. -/
theorem exists_around (h : group ∈ frameUnits [] (scanAll recording)) :
    ∃ before after, scanAll recording = before ++ group ++ after := by
  obtain ⟨earlier, later, hsplit⟩ := List.append_of_mem h
  have hunits := flatten_frameUnits [] (scanAll recording)
  rw [hsplit, List.flatten_append, List.flatten_cons, List.nil_append] at hunits
  exact ⟨earlier.flatten, later.flatten, by rw [← hunits, List.append_assoc]⟩

theorem unitsIn_frame (h : group ∈ frameUnits [] (scanAll recording)) :
    (spanOf group).unitsIn (scanAll recording) = group := by
  obtain ⟨before, after, hunits⟩ := exists_around h
  have hgroup := (closed_frameUnits (by simp) (scanAll recording)).ne_nil group h
  have hapart := apart_scanAll recording
  rw [hunits] at hapart ⊢
  exact unitsIn_spanOf hgroup hapart

/-- A frame is not empty: its units are not. -/
theorem start_lt_stop (h : group ∈ frameUnits [] (scanAll recording)) :
    (spanOf group).start < (spanOf group).stop := by
  have hgroup := (closed_frameUnits (by simp) (scanAll recording)).ne_nil group h
  obtain ⟨unit, hunit⟩ := List.exists_mem_of_ne_nil group hgroup
  rw [← unitsIn_frame h] at hunit
  obtain ⟨hunit, hlies⟩ := List.mem_filter.mp hunit
  have hlength := (apart_scanAll recording).1 unit hunit
  have hlies : (spanOf group).start ≤ unit.offset ∧ unit.stop ≤ (spanOf group).stop := by
    simpa using hlies
  omega

/-- The bytes of a frame are those of its units. -/
theorem of_spanOf (h : group ∈ frameUnits [] (scanAll recording)) :
    (spanOf group).of recording = (group.map (·.bytes)).flatten := by
  have hframes := frames_eq recording
  rw [framesOf, splitFrames_eq, List.map_map] at hframes
  exact List.map_inj_left.mp hframes group h

/-- A scan of a frame finds its units. -/
theorem scanAll_frame (h : group ∈ frameUnits [] (scanAll recording)) :
    scanAll ((spanOf group).of recording) = group.map (·.behind (spanOf group).start) := by
  obtain ⟨before, after, hunits⟩ := exists_around h
  have hdelimited : Delimited (group.map (·.bytes)) := by
    have hall := delimited_scanAll recording
    rw [hunits, List.map_append, List.map_append] at hall
    exact hall.of_append_left.of_append_right
  have hchain : group.IsChain fun earlier later => later.offset = earlier.stop := by
    have hall := isChain_scanAll recording
    rw [hunits] at hall
    exact (List.isChain_append.mp (List.isChain_append.mp hall).1).2.1
  have hkinds : ∀ unit ∈ group, unit.kind = kindOfUnit unit.bytes := by
    intro unit hunit
    have hmem : unit ∈ scanAll recording := by simp [hunits, hunit]
    exact kind_of_mem_scan hmem
  have hstart : ∀ first ∈ group.head?, first.offset = (spanOf group).start + 0 := by
    intro first hfirst
    simp [spanOf, Option.mem_def.mp hfirst]
  rw [of_spanOf h, hdelimited.scanAll_flatten, layOut_behind hchain hkinds 0 hstart]

/-- Where the first frame begins and the last one ends. -/
theorem ends_of_groups {groups : List (List NalUnit)} (hgroups : ∀ group ∈ groups, group ≠ []) :
    (groups.map spanOf).head?.map (·.start) = groups.flatten.head?.map (·.offset) ∧
      (groups.map spanOf).getLast?.map (·.stop) = groups.flatten.getLast?.map (·.stop) := by
  constructor
  · cases groups with
    | nil => rfl
    | cons group groups =>
      obtain ⟨first, rest, rfl⟩ := List.exists_cons_of_ne_nil (hgroups group List.mem_cons_self)
      rfl
  · rcases List.eq_nil_or_concat groups with rfl | ⟨earlier, group, rfl⟩
    · rfl
    · have hgroup := hgroups group (by simp)
      have hlast := List.getLast?_eq_some_getLast hgroup
      simp [spanOf, List.flatten_append, List.getLast?_append, hlast]

/-- Where one frame ends the next one begins. -/
theorem isChain_spanOf {groups : List (List NalUnit)} (hgroups : ∀ group ∈ groups, group ≠ [])
    (h : groups.flatten.IsChain fun earlier later => later.offset = earlier.stop) :
    (groups.map spanOf).IsChain fun earlier later => later.start = earlier.stop := by
  have hnil : [] ∉ groups := fun hmem => hgroups [] hmem rfl
  obtain ⟨-, hchain⟩ := (List.isChain_flatten hnil).mp h
  rw [List.isChain_map]
  refine hchain.imp_of_mem_imp ?_
  intro earlier later hearlier hlater hseam
  have hlast := List.getLast?_eq_some_getLast (hgroups earlier hearlier)
  have hfirst := List.head?_eq_some_head (hgroups later hlater)
  simpa [spanOf, hlast, hfirst] using hseam _ hlast _ hfirst

end Recording

/-- **A recording is partitioned.** For every byte string, with the units that a scan without a limit
finds in it:

* there are frames if and only if there are units. Then none of them is empty, each begins where the
  one before it ends, the first one begins with the first unit, and the last one ends with the
  recording;
* every frame but the last holds exactly one slice, which is the last unit in it; and so does the last
  frame, or it holds no slice at all;
* a scan of the bytes of a frame finds exactly the units that lie in it, with their bytes and kinds, as
  far from its beginning as they are in the recording. Taken together, these are all units, in order. -/
theorem recording_partitioned (recording : Bytes) :
    let units := scanAll recording
    let spans := splitFrames recording
    (spans = [] ↔ units = []) ∧
    (∀ span ∈ spans, span.start < span.stop) ∧
    (spans.IsChain fun earlier later => later.start = earlier.stop) ∧
    spans.head?.map (·.start) = units.head?.map (·.offset) ∧
    (∀ last ∈ spans.getLast?, last.stop = recording.length) ∧
    (∀ span ∈ spans.dropLast, EndsInSlice (span.unitsIn units)) ∧
    (∀ last ∈ spans.getLast?, EndsInSlice (last.unitsIn units) ∨
      ∀ unit ∈ last.unitsIn units, unit.kind.isSlice = false) ∧
    (∀ span ∈ spans, scanAll (span.of recording) =
      (span.unitsIn units).map fun unit => { unit with offset := unit.offset - span.start }) ∧
    (spans.map (·.unitsIn units)).flatten = units := by
  intro units spans
  let groups := frameUnits [] units
  have hspans : spans = groups.map spanOf := splitFrames_eq recording
  have hunits : groups.flatten = units := flatten_frameUnits [] units
  have hclosed : Closed groups := closed_frameUnits (by simp) units
  have hends := ends_of_groups hclosed.ne_nil
  rw [← hspans, hunits] at hends
  have hin : ∀ group ∈ groups, (spanOf group).unitsIn units = group := fun group => unitsIn_frame
  have hgroup : ∀ span ∈ spans, ∃ group ∈ groups, spanOf group = span := by
    intro span hspan
    rw [hspans] at hspan
    exact List.mem_map.mp hspan
  refine ⟨?_, fun span hspan => ?_, ?_, hends.1, fun last hlast => ?_, fun span hspan => ?_,
    fun last hlast => ?_, fun span hspan => ?_, ?_⟩
  · have hnone : ∀ spans : List Span, spans.head?.map (·.start) = none ↔ spans = [] := by simp
    rw [← hnone, hends.1, Option.map_eq_none_iff, List.head?_eq_none_iff]
  · obtain ⟨group, hmem, rfl⟩ := hgroup span hspan
    exact start_lt_stop hmem
  · rw [hspans]
    apply isChain_spanOf hclosed.ne_nil
    rw [hunits]
    exact isChain_scanAll recording
  · have hstop := hends.2
    rw [Option.mem_def.mp hlast, Option.map_some] at hstop
    obtain ⟨unit, hunit, heq⟩ := Option.map_eq_some_iff.mp hstop.symm
    rw [← heq]
    exact stop_getLast?_scanAll recording unit hunit
  · rw [hspans, ← List.map_dropLast] at hspan
    obtain ⟨group, hmem, rfl⟩ := List.mem_map.mp hspan
    rw [hin group (List.dropLast_subset groups hmem)]
    exact hclosed.endsInSlice_dropLast group hmem
  · rw [hspans, List.getLast?_map] at hlast
    obtain ⟨group, hmem, rfl⟩ := Option.map_eq_some_iff.mp hlast
    rw [hin group (List.mem_of_getLast? hmem)]
    exact hclosed.getLast? group hmem
  · obtain ⟨group, hmem, rfl⟩ := hgroup span hspan
    rw [hin group hmem, scanAll_frame hmem]
    rfl
  · have hall : groups.map ((·.unitsIn units) ∘ spanOf) = groups :=
      (List.map_congr_left hin).trans (List.map_id groups)
    rw [hspans, List.map_map, hall, hunits]

-- Behind the slice a start code stands directly behind another one: the cut comes in front of both, and
-- the frame without a slice has one unit, as the recording has there.
example :
    let recording : Bytes := [0, 0, 0, 1, 0x41, 0x9A, 0, 0, 0, 1, 0, 0, 0, 1, 0x65]
    splitFrames recording = [⟨0, 6⟩, ⟨6, 15⟩] ∧
      (scanAll recording).map (·.offset) = [0, 6] ∧
      (scanAll ((⟨6, 15⟩ : Span).of recording)).map (·.offset) = [0] := by
  decide +kernel

end CamStream
