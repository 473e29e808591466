import CamStream.Proofs.Scan.Positions

/-!
# Framing and scanning are inverse to each other

Bodies are framed by putting a start code in front of each. As long as they are not empty and no
start code occurs in them, a scan takes the framing apart again, however the bodies end or begin,
and whatever comes in front of the first one. In the other direction, the units of any buffer put
one behind the other are that buffer, up to what lies in front of the first unit.

* `framed`: bodies behind start codes. `wholeUnit_framed` says when one of them is a whole unit.
* `framing_round_trip`: both directions.
-/

namespace CamStream

/-- Bodies one behind the other, each behind a start code. -/
def framed (bodies : List Bytes) : Bytes := (bodies.map (startCode ++ ·)).flatten

/-- A body with a header byte and without a start code makes a whole unit. -/
theorem wholeUnit_framed {body : Bytes} (hbody : body ≠ []) (hfree : CodeFree body) :
    WholeUnit (startCode ++ body) := by
  obtain ⟨header, rest, rfl⟩ := List.exists_cons_of_ne_nil hbody
  exact ⟨header, rest, rfl, hfree.tail⟩

theorem scanAll_append_framed {before : Bytes} (hbefore : CodeFree before) {bodies : List Bytes}
    (hbodies : ∀ body ∈ bodies, body ≠ [] ∧ CodeFree body) :
    scanAll (before ++ framed bodies) = layOut before.length (bodies.map (startCode ++ ·)) := by
  refine scanAll_append_flatten hbefore fun bytes hbytes => ?_
  obtain ⟨body, hbody, rfl⟩ := List.mem_map.mp hbytes
  exact wholeUnit_framed (hbodies body hbody).1 (hbodies body hbody).2

/-- The units of a buffer, one behind the other, are the buffer from the first unit on. -/
theorem flatten_scanAll (buffer : Bytes) :
    ∀ first ∈ (scanAll buffer).head?,
      ((scanAll buffer).map (·.bytes)).flatten = buffer.drop first.offset := by
  intro first hfirst
  obtain ⟨found, hfound, -⟩ := firstFrom_search buffer 0
  have htiles := tiles_scanAll hfound
  have hhead := htiles.head?_offset
  rw [Option.mem_def.mp hfirst, Option.map_some] at hhead
  rw [htiles.flatten_eq, ← hhead, Option.getD_some]

/-- **Framing round trip.** For bodies that are not empty and in which no start code occurs, behind
any bytes in which none occurs either: a scan yields as many units as there are bodies, in their
order. Each lies behind all that comes before it, and consists of a start code and its body.
Conversely, the units of any buffer, one behind the other, are the buffer from the first start code
that a scan finds up to its end. -/
theorem framing_round_trip (before : Bytes) (hbefore : CodeFree before) (bodies : List Bytes)
    (hbodies : ∀ body ∈ bodies, body ≠ [] ∧ CodeFree body) :
    let units := scanAll (before ++ framed bodies)
    units.length = bodies.length ∧
    (∀ i (hi : i < bodies.length), units[i]? = some
      { offset := before.length + (framed (bodies.take i)).length
        bytes := startCode ++ bodies[i]
        kind := kindOfUnit (startCode ++ bodies[i]) }) ∧
    units.map (·.payload) = bodies ∧
    ∀ buffer, ∀ first ∈ (scanAll buffer).head?,
      ((scanAll buffer).map (·.bytes)).flatten = buffer.drop first.offset := by
  intro units
  have hunits : units = layOut before.length (bodies.map (startCode ++ ·)) :=
    scanAll_append_framed hbefore hbodies
  have hat : ∀ i (hi : i < bodies.length), units[i]? = some
      { offset := before.length + (framed (bodies.take i)).length
        bytes := startCode ++ bodies[i]
        kind := kindOfUnit (startCode ++ bodies[i]) } := by
    intro i hi
    rw [hunits, getElem?_layOut, List.getElem?_map, List.getElem?_eq_getElem hi, ← List.map_take]
    rfl
  have hlength : units.length = bodies.length := by
    rw [hunits, length_layOut, List.length_map]
  have hbytes : units.map (·.bytes) = bodies.map (startCode ++ ·) := by
    have hpairs := congrArg (List.map Prod.snd)
      (layOut_map before.length (bodies.map (startCode ++ ·)))
    rw [← hunits] at hpairs
    simpa [Function.comp_def] using hpairs
  have hpayloads : units.map (·.payload) = bodies :=
    calc units.map (·.payload)
      _ = (units.map (·.bytes)).map (·.drop startCode.length) := by
        rw [List.map_map]
        rfl
      _ = bodies := by simp [hbytes, Function.comp_def]
  exact ⟨hlength, hat, hpayloads, flatten_scanAll⟩

/-- Behind bytes that end like a start code: a body that ends in zeros, one that is a single zero,
and one that begins like a start code. -/
theorem framing_round_trip_zeros :
    let before : Bytes := [0xAA, 0, 0, 0]
    let bodies : List Bytes := [[0x67, 0, 0, 0], [0], [0, 0, 1, 0x65]]
    CodeFree before ∧ (∀ body ∈ bodies, body ≠ [] ∧ CodeFree body) ∧
      (scanAll (before ++ framed bodies)).map (·.payload) = bodies ∧
      (scanAll (before ++ framed bodies))[2]? =
        some { offset := 17, bytes := [0, 0, 0, 1, 0, 0, 1, 0x65], kind := .other 0 } := by
  intro before bodies
  have hbefore : CodeFree before := by unfold CodeFree; decide
  have hbodies : ∀ body ∈ bodies, body ≠ [] ∧ CodeFree body := by unfold CodeFree; decide
  obtain ⟨-, hat, hpayloads, -⟩ := framing_round_trip before hbefore bodies hbodies
  refine ⟨hbefore, hbodies, hpayloads, ?_⟩
  rw [hat 2 (by decide)]
  decide +kernel

end CamStream
