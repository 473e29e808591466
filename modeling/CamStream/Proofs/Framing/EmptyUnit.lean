import CamStream.Proofs.Framing.Runs
import CamStream.Proofs.Scan.RoundTrip

/-!
# Empty units

A start code directly behind another one leaves a unit without a header, as a capture does that
loses bytes. The search for the next unit resumes behind the header byte, and here that byte is the
first zero of the second start code. So the second start code is not seen, and the unit behind it is
lost in one of kind 0.

* `wholeUnit_merged`: the empty unit and the one behind it make up a whole unit.
* `Framer.acceptAll_insert_other`: a unit of such a kind changes nothing about the fates of others.
* `empty_unit_swallows`: this is all that is lost. The other units are found, and have the fates
  that they have in a frame without the two.
* `empty_unit_hides_keyframe`: the unit that is lost can be the keyframe of its frame.
-/

namespace CamStream

/-- The units that bodies make up when they are framed, with their kinds. -/
def framedUnits (bodies : List Bytes) : List (NalKind × Bytes) :=
  bodies.map fun body => (kindOfUnit (startCode ++ body), startCode ++ body)

theorem framedUnits_eq (bodies : List Bytes) :
    framedUnits bodies =
      (bodies.map (startCode ++ ·)).map fun bytes => (kindOfUnit bytes, bytes) := by
  rw [framedUnits, List.map_map]
  rfl

theorem framedUnits_append (bodies more : List Bytes) :
    framedUnits (bodies ++ more) = framedUnits bodies ++ framedUnits more := List.map_append

/-- An empty unit and the one behind it make up one unit: its header byte is the first zero of the
second start code, and what is left of that is none. -/
theorem wholeUnit_merged {body : Bytes} (hfree : CodeFree body) :
    WholeUnit (startCode ++ startCode ++ body) := by
  refine ⟨0, [0, 0, 1] ++ body, rfl, fun hin => ?_⟩
  -- At none of the three places before the body can a start code begin.
  simp only [List.cons_append, List.nil_append, List.infix_cons_iff] at hin
  rcases hin with ⟨more, hcode⟩ | ⟨more, hcode⟩ | ⟨more, hcode⟩ | hin
  · simp [startCode] at hcode
  · simp [startCode] at hcode
  · simp [startCode] at hcode
  · exact hfree hin

theorem kindOfUnit_merged (body : Bytes) :
    kindOfUnit (startCode ++ startCode ++ body) = .other 0 := by
  have hkind : NalKind.ofHeader 0 = .other 0 := by decide
  exact hkind

theorem exists_framedUnits (bodies : List Bytes) :
    ∃ units : List NalUnit, units.map (fun unit => (unit.kind, unit.bytes)) = framedUnits bodies ∧
      units.length = bodies.length := by
  refine ⟨layOut 0 (bodies.map (startCode ++ ·)), ?_, ?_⟩
  · rw [layOut_map, framedUnits_eq]
  · rw [length_layOut, List.length_map]

theorem scanAll_framed {bodies : List Bytes}
    (hbodies : ∀ body ∈ bodies, body ≠ [] ∧ CodeFree body) :
    (scanAll (framed bodies)).map (fun unit => (unit.kind, unit.bytes)) = framedUnits bodies := by
  have hscan := scanAll_append_framed codeFree_nil hbodies
  rw [List.nil_append] at hscan
  rw [hscan, layOut_map, framedUnits_eq]

section EmptyUnit

variable {earlier later : List Bytes} {swallowed : Bytes}

/-- What a scan finds when one of the units is empty. -/
theorem scanAll_empty_unit
    (hbodies : ∀ body ∈ earlier ++ swallowed :: later, body ≠ [] ∧ CodeFree body) :
    (scanAll (framed earlier ++ startCode ++ framed (swallowed :: later))).map
        (fun unit => (unit.kind, unit.bytes)) =
      framedUnits earlier ++ (.other 0, startCode ++ startCode ++ swallowed) ::
        framedUnits later := by
  let units : List Bytes := earlier.map (startCode ++ ·) ++
    (startCode ++ startCode ++ swallowed) :: later.map (startCode ++ ·)
  have hwhole : ∀ bytes ∈ units, WholeUnit bytes := by
    intro bytes hbytes
    rcases List.mem_append.mp hbytes with hearlier | hbytes
    · obtain ⟨body, hbody, rfl⟩ := List.mem_map.mp hearlier
      obtain ⟨hnil, hfree⟩ := hbodies body (List.mem_append_left _ hbody)
      exact wholeUnit_framed hnil hfree
    · rcases List.mem_cons.mp hbytes with rfl | hlater
      · exact wholeUnit_merged (hbodies swallowed (by simp)).2
      · obtain ⟨body, hbody, rfl⟩ := List.mem_map.mp hlater
        obtain ⟨hnil, hfree⟩ := hbodies body (by simp [hbody])
        exact wholeUnit_framed hnil hfree
  have hframe : framed earlier ++ startCode ++ framed (swallowed :: later) = units.flatten := by
    simp [units, framed]
  rw [hframe, scanAll_flatten hwhole, layOut_map, framedUnits_eq, framedUnits_eq, List.map_append,
    List.map_cons, kindOfUnit_merged]

end EmptyUnit

namespace Framer

variable (framer : Framer)

/-- What becomes of a unit that is neither a parameter set nor a slice. -/
def fateOfOther (number : UInt8) (bytes : Bytes) : Fate :=
  if framer.opened then .emitted { kind := .other number, bytes, carriesSets := false }
  else .withheld

theorem accept_other {unit : NalUnit} {number : UInt8} (hkind : unit.kind = .other number) :
    framer.accept unit = (framer.fateOfOther number unit.bytes, framer) := by
  simp only [accept, emitPlain, fateOfOther, hkind]
  split <;> rfl

/-- Such a unit among others changes nothing about their fates, nor about the state they lead to. -/
theorem acceptAll_insert_other (ahead behind : List NalUnit) {unit : NalUnit} {number : UInt8}
    (hkind : unit.kind = .other number) :
    let without := framer.acceptAll (ahead ++ behind)
    framer.acceptAll (ahead ++ unit :: behind) =
      (without.1.take ahead.length ++
        (framer.acceptAll ahead).2.fateOfOther number unit.bytes :: without.1.drop ahead.length,
        without.2) := by
  intro without
  have hwithout : without = _ := framer.acceptAll_append ahead behind
  have hlength := framer.length_acceptAll ahead
  rw [hwithout, framer.acceptAll_append, acceptAll, accept_other _ hkind, ← hlength,
    List.take_left, List.drop_left]

end Framer

section EmptyUnit

variable {earlier later : List Bytes} {swallowed : Bytes}

theorem Framer.process_empty_unit (framer : Framer)
    (hbodies : ∀ body ∈ earlier ++ swallowed :: later, body ≠ [] ∧ CodeFree body)
    (hlimit : earlier.length + later.length < framer.limit) :
    let without := framer.process (framed (earlier ++ later))
    let merged := startCode ++ startCode ++ swallowed
    let fate := (framer.process (framed earlier)).2.fateOfOther 0 merged
    framer.process (framed earlier ++ startCode ++ framed (swallowed :: later)) =
      (without.1.take earlier.length ++ fate :: without.1.drop earlier.length, without.2) := by
  intro without merged fate
  have hwithout : ∀ body ∈ earlier ++ later, body ≠ [] ∧ CodeFree body := fun body hbody =>
    hbodies body (((List.sublist_cons_self swallowed later).append_left earlier).mem hbody)
  -- Where the units lie has no influence, so any units with these kinds and bytes stand for them.
  obtain ⟨ahead, hahead, hearlier⟩ := exists_framedUnits earlier
  obtain ⟨behind, hbehind, hlater⟩ := exists_framedUnits later
  let unit : NalUnit := { offset := (framed earlier).length, bytes := merged, kind := .other 0 }
  have hprocessEarlier : framer.process (framed earlier) = framer.acceptAll ahead := by
    refine framer.process_eq_acceptAll ?_ (by omega)
    rw [hahead]
    exact scanAll_framed fun body hbody => hwithout body (List.mem_append_left _ hbody)
  have hprocessWithout : without = framer.acceptAll (ahead ++ behind) := by
    refine framer.process_eq_acceptAll ?_ (by rw [List.length_append]; omega)
    rw [scanAll_framed hwithout, framedUnits_append, List.map_append, hahead, hbehind]
  have hprocess : framer.process (framed earlier ++ startCode ++ framed (swallowed :: later)) =
      framer.acceptAll (ahead ++ unit :: behind) := by
    refine framer.process_eq_acceptAll ?_ (by rw [List.length_append, List.length_cons]; omega)
    rw [scanAll_empty_unit hbodies, List.map_append, List.map_cons, hahead, hbehind]
  rw [hprocess, framer.acceptAll_insert_other ahead behind rfl, hearlier, ← hprocessWithout,
    ← hprocessEarlier]

end EmptyUnit

/-- **What an empty unit costs.** Bodies that are not empty and in which no start code occurs are
framed, with a start code that has no body in front of one of them. A scan finds all other units, in
order and with their bytes and kinds, and that one is lost: together with the empty unit it makes up
a unit of kind 0. A framer that looks at all units of the frame ends in the same state as after the
frame without the two, and every other unit meets the same fate as there. What the two have become
goes out as a unit of kind 0 if the session is open by then, and is withheld otherwise. -/
theorem empty_unit_swallows (earlier : List Bytes) (swallowed : Bytes) (later : List Bytes)
    (hbodies : ∀ body ∈ earlier ++ swallowed :: later, body ≠ [] ∧ CodeFree body) :
    let frame := framed earlier ++ startCode ++ framed (swallowed :: later)
    let merged := startCode ++ startCode ++ swallowed
    (scanAll frame).map (fun unit => (unit.kind, unit.bytes)) =
      framedUnits earlier ++ (.other 0, merged) :: framedUnits later ∧
    ∀ framer : Framer, earlier.length + later.length < framer.limit →
      let without := framer.process (framed (earlier ++ later))
      let fate := (framer.process (framed earlier)).2.fateOfOther 0 merged
      framer.process frame =
        (without.1.take earlier.length ++ fate :: without.1.drop earlier.length, without.2) :=
  ⟨scanAll_empty_unit hbodies, fun framer hlimit => framer.process_empty_unit hbodies hlimit⟩

/-- Between two slices the keyframe is lost, and the slices go out as if it had not been there. -/
theorem empty_unit_swallows_between_slices :
    let earlier : List Bytes := [[0x41, 0x9A]]
    let swallowed : Bytes := [0x65, 0x88, 0x84]
    let later : List Bytes := [[0x41, 0x9B]]
    let framer : Framer := { opened := true }
    (∀ body ∈ earlier ++ swallowed :: later, body ≠ [] ∧ CodeFree body) ∧
      earlier.length + later.length < framer.limit ∧
      emittedUnits
        (framer.process (framed earlier ++ startCode ++ framed (swallowed :: later))).1 =
        [{ kind := .slice, bytes := startCode ++ [0x41, 0x9A], carriesSets := false },
          { kind := .other 0, bytes := startCode ++ startCode ++ swallowed, carriesSets := false },
          { kind := .slice, bytes := startCode ++ [0x41, 0x9B], carriesSets := false }] := by
  intro earlier swallowed later framer
  have hbodies : ∀ body ∈ earlier ++ swallowed :: later, body ≠ [] ∧ CodeFree body := by
    unfold CodeFree
    decide
  have hlimit : earlier.length + later.length < framer.limit := by decide
  obtain ⟨-, hfates⟩ := empty_unit_swallows earlier swallowed later hbodies
  refine ⟨hbodies, hlimit, ?_⟩
  rw [hfates framer hlimit]
  decide +kernel

/-- The unit that is lost can be the keyframe of its frame: the session then does not open, as it
does without the empty unit. -/
theorem empty_unit_hides_keyframe :
    let keyframe : Bytes := [0x65, 0x88, 0x84]
    let frame := startCode ++ framed [keyframe]
    CodeFree keyframe ∧
      ¬ (framedUnits [keyframe]).Sublist
        ((scanAll frame).map fun unit => (unit.kind, unit.bytes)) ∧
      Framer.process {} frame = ([.withheld], {}) ∧
      (Framer.process {} (framed [keyframe])).2 = { opened := true } := by
  refine ⟨by unfold CodeFree; decide, ?_⟩
  decide +kernel

end CamStream
