import CamStream.Proofs.Scan.Seams
import CamStream.Proofs.Store.BestEffort
import CamStream.Store.Memory

/-!
# Frame boundaries do not matter

A stream can be handed to a framer in one frame or in several, as long as the frames are cut where a
unit begins. The units are the same, and what becomes of a unit depends on those before it and not on
the frame in which it comes.

Only the store is looked after once for each frame. A pair that one frame brings is then written although
a later frame replaces it, so there may be more writes; but the last of them is the one that the whole
stream gives occasion to, since behind it nothing changes the pair.

* `FramerLog.afterAll_frames`: frames come to their units, in order.
* `FramerLog.getLast?_pairsToKeep`: the last pair that is written.
* `Keeper.run_attempts_memory`: of several pairs, a store in memory holds the last one.
* `framing_ignores_seams`: two frames, and any number of them, against one.
-/

namespace CamStream

namespace Framer

variable {framer : Framer} {units more : List NalUnit}

theorem changesPair_append :
    framer.changesPair (units ++ more) =
      (framer.changesPair units || (framer.acceptAll units).2.changesPair more) := by
  rw [← any_isChange_acceptAll, acceptAll_append, List.any_append, any_isChange_acceptAll,
    any_isChange_acceptAll]

theorem sets_acceptAll_of_not_changesPair (h : framer.changesPair units = false) :
    (framer.acceptAll units).2.sets = framer.sets := by
  rw [← any_isChange_acceptAll] at h
  exact sets_acceptAll_of_not_isChange h

/-- The limit is no limit for a frame with so few units. -/
theorem scan_of_length_le {frame : Bytes} (h : (scanAll frame).length ≤ framer.limit) :
    scan frame framer.limit = scanAll frame := by
  rw [scan_eq_take, List.take_of_length_le h]

end Framer

/-! ## Frames in turn -/

namespace FramerLog

variable {log : FramerLog} {frames : List Bytes}

theorem after_process (log : FramerLog) (frame : Bytes)
    (h : (scanAll frame).length ≤ log.framer.limit) :
    (log.after (.process frame)).history.fates =
        log.history.fates ++ (log.framer.acceptAll (scanAll frame)).1 ∧
      (log.after (.process frame)).framer = (log.framer.acceptAll (scanAll frame)).2 ∧
      (log.after (.process frame)).tally =
        log.tally.afterFates (log.framer.acceptAll (scanAll frame)).1 := by
  have hprocess : log.framer.process frame = log.framer.acceptAll (scanAll frame) := by
    rw [Framer.process, Framer.scan_of_length_le h]
  rw [← hprocess]
  exact ⟨History.fates_meet _ (Framer.length_acceptAll _ _), rfl, rfl⟩

/-- Frames that the limit does not cut short come to their units, in order. -/
theorem afterAll_frames (h : (frames.flatMap scanAll).length ≤ log.framer.limit) :
    (log.afterAll (frames.map .process)).history.fates =
        log.history.fates ++ (log.framer.acceptAll (frames.flatMap scanAll)).1 ∧
      (log.afterAll (frames.map .process)).framer =
        (log.framer.acceptAll (frames.flatMap scanAll)).2 ∧
      (log.afterAll (frames.map .process)).tally =
        log.tally.afterFates (log.framer.acceptAll (frames.flatMap scanAll)).1 := by
  induction frames generalizing log with
  | nil =>
    refine ⟨(List.append_nil _).symm, rfl, ?_⟩
    rfl
  | cons frame frames ih =>
    rw [List.flatMap_cons, List.length_append] at h
    obtain ⟨hfates, hframer, htally⟩ := log.after_process frame (by omega)
    have hlimit : (log.after (.process frame)).framer.limit = log.framer.limit := by
      rw [hframer, Framer.acceptAll_limit]
    obtain ⟨hmoreFates, hmoreFramer, hmoreTally⟩ :=
      @ih (log.after (.process frame)) (by omega)
    rw [hframer] at hmoreFates hmoreFramer hmoreTally
    rw [hfates, List.append_assoc] at hmoreFates
    rw [htally, Tally.afterFates_append] at hmoreTally
    rw [List.flatMap_cons, Framer.acceptAll_append]
    exact ⟨hmoreFates, hmoreFramer, hmoreTally⟩

/-- The last pair that frames give occasion to write is the one that they leave. -/
theorem getLast?_pairsToKeep (h : (frames.flatMap scanAll).length ≤ log.framer.limit) :
    (log.pairsToKeep (frames.map .process)).getLast? =
      if log.framer.changesPair (frames.flatMap scanAll) then
        some (log.framer.acceptAll (frames.flatMap scanAll)).2.sets
      else none := by
  induction frames generalizing log with
  | nil => rfl
  | cons frame frames ih =>
    rw [List.flatMap_cons, List.length_append] at h
    obtain ⟨-, hframer, -⟩ := log.after_process frame (by omega)
    have hlimit : (log.after (.process frame)).framer.limit = log.framer.limit := by
      rw [hframer, Framer.acceptAll_limit]
    have hrest := @ih (log.after (.process frame)) (by omega)
    have hscan : scan frame log.framer.limit = scanAll frame := Framer.scan_of_length_le (by omega)
    have hfirst : log.framer.pairToKeep? (.process frame) =
        if log.framer.changesPair (scanAll frame) then
          some (log.framer.acceptAll (scanAll frame)).2.sets
        else none := by
      rw [Framer.pairToKeep?, Framer.process, hscan]
    rw [hframer] at hrest
    rw [List.map_cons, pairsToKeep, List.getLast?_append, hrest, hfirst, List.flatMap_cons,
      Framer.changesPair_append, Framer.acceptAll_append]
    -- What the frames behind do not change is the pair of the first one.
    cases hmore : (log.framer.acceptAll (scanAll frame)).2.changesPair (frames.flatMap scanAll) with
    | true => simp
    | false =>
      have hsame := Framer.sets_acceptAll_of_not_changesPair hmore
      cases hchange : log.framer.changesPair (scanAll frame) <;> simp [hsame]

end FramerLog

/-! ## A store in memory -/

theorem KeyedList.put_put {κ α : Type} [DecidableEq κ] (list : KeyedList κ α) (key : κ)
    (value other : α) : put (put list key value) key other = put list key other := by
  have herase : erase (put list key value) key = erase list key := by
    simp [put, erase]
  rw [put, herase, put]

/-- Of several pairs the last one is kept. -/
theorem Keeper.run_attempts_memory (device : String) (pairs : List ParameterSets) (shelf : Shelf) :
    let keeper : Keeper (StateM Shelf) := { store := .memory, device }
    (keeper.attempts pairs).run shelf =
      (pairs.map fun _ => .ok (),
        pairs.getLast?.elim shelf fun sets => shelf.put device sets.toBlob) := by
  intro keeper
  induction pairs generalizing shelf with
  | nil => rfl
  | cons sets pairs ih =>
    have hsplit := keeper.run_attempts_append [sets] pairs shelf
    have hfirst : (keeper.attempts [sets]).run shelf =
        ([.ok ()], shelf.put device sets.toBlob) := rfl
    rw [List.singleton_append, hfirst] at hsplit
    dsimp only at hsplit
    rw [ih] at hsplit
    rw [hsplit]
    cases hlast : pairs.getLast? with
    | none =>
      rw [List.getLast?_eq_none_iff] at hlast
      simp [hlast]
    | some last => simp [List.getLast?_cons, hlast, KeyedList.put_put]

/-! ## One frame or several -/

/-- What a framer has come to on some frames, with the store behind it, is what it has come to on others.
The writes alone need not be as many. -/
structure FramedAlike (parts whole : FramerLog × Shelf) : Prop where
  outputs : parts.1.history.outputs = whole.1.history.outputs
  framer : parts.1.framer = whole.1.framer
  counters : parts.1.tally = { whole.1.tally with setWrites := parts.1.tally.setWrites }
  shelf : parts.2 = whole.2

namespace FramerLog

/-- Process frames one after the other, with a store in memory for the device, or none. -/
def overFrames (log : FramerLog) (device? : Option String) (shelf : Shelf) (frames : List Bytes) :
    FramerLog × Shelf :=
  let keeper? : Option (Keeper (StateM Shelf)) :=
    device?.map fun device => { store := .memory, device }
  (log.callAll keeper? (frames.map .process)).run shelf

variable (log : FramerLog) {device? : Option String} (shelf : Shelf) {frames : List Bytes}

/-- A store in memory answers every write with success. -/
theorem answered_ok (pairs : List ParameterSets) :
    log.answered (pairs.map fun _ => .ok ()) =
      { log with tally := log.tally.plusWrites pairs.length 0 } := by
  have hok : (pairs.map fun _ => (.ok () : Except FileError Unit)).countP (·.isOk) =
      (pairs.map fun _ => (.ok () : Except FileError Unit)).length := by
    refine List.countP_eq_length.mpr fun answer hanswer => ?_
    obtain ⟨sets, -, rfl⟩ := List.mem_map.mp hanswer
    rfl
  have herror : (pairs.map fun _ => (.ok () : Except FileError Unit)).countP (!·.isOk) = 0 := by
    refine List.countP_eq_zero.mpr fun answer hanswer => ?_
    obtain ⟨sets, -, rfl⟩ := List.mem_map.mp hanswer
    exact Bool.false_ne_true
  rw [answered, hok, herror, List.length_map]

theorem overFrames_some (device : String) :
    log.overFrames (some device) shelf frames =
      ({ log.afterAll (frames.map .process) with
          tally := (log.afterAll (frames.map .process)).tally.plusWrites
            (log.pairsToKeep (frames.map .process)).length 0 },
        (log.pairsToKeep (frames.map .process)).getLast?.elim shelf fun sets =>
          shelf.put device sets.toBlob) := by
  let keeper : Keeper (StateM Shelf) := { store := .memory, device }
  have hrun := log.run_callAll keeper (frames.map .process) shelf
  rw [Keeper.run_attempts_memory device] at hrun
  dsimp only at hrun
  rw [answered_ok] at hrun
  exact hrun

theorem overFrames_none :
    log.overFrames none shelf frames = (log.afterAll (frames.map .process), shelf) := by
  induction frames generalizing log with
  | nil => rfl
  | cons frame frames ih => exact ih (log.after (.process frame))

/-- Frames that give the same units come to the same. -/
theorem framedAlike_of_units {others : List Bytes}
    (hunits : (frames.flatMap scanAll).map (fun unit => (unit.kind, unit.bytes)) =
      (others.flatMap scanAll).map fun unit => (unit.kind, unit.bytes))
    (hlimit : (frames.flatMap scanAll).length ≤ log.framer.limit) :
    FramedAlike (log.overFrames device? shelf frames) (log.overFrames device? shelf others) := by
  have hlength := congrArg List.length hunits
  rw [List.length_map, List.length_map] at hlength
  have haccept := log.framer.acceptAll_congr hunits
  have hlimits : (others.flatMap scanAll).length ≤ log.framer.limit := by omega
  obtain ⟨hfates, hframer, htally⟩ := log.afterAll_frames hlimit
  obtain ⟨hfates', hframer', htally'⟩ := log.afterAll_frames hlimits
  rw [haccept] at hfates hframer htally
  have houtputs : (log.afterAll (frames.map .process)).history.outputs =
      (log.afterAll (others.map .process)).history.outputs := by
    rw [History.outputs, hfates, History.outputs, hfates']
  have hframers := hframer.trans hframer'.symm
  have htallies := htally.trans htally'.symm
  cases device? with
  | none =>
    rw [overFrames_none, overFrames_none]
    exact ⟨houtputs, hframers, by rw [htallies], rfl⟩
  | some device =>
    have hchange : log.framer.changesPair (frames.flatMap scanAll) =
        log.framer.changesPair (others.flatMap scanAll) := by
      rw [← Framer.any_isChange_acceptAll, haccept, Framer.any_isChange_acceptAll]
    have hlast := log.getLast?_pairsToKeep hlimit
    rw [hchange, haccept, ← log.getLast?_pairsToKeep hlimits] at hlast
    rw [overFrames_some, overFrames_some]
    refine ⟨houtputs, hframers, ?_, by rw [hlast]⟩
    rw [htallies]
    rfl

end FramerLog

/-- **Frame boundaries do not matter.** Let a framer in any state process frames, with a store in memory
behind it that holds anything, or without a store. Cut a frame in two where a unit begins, so that the
first part does not end in a bare start code, and let the limit not be below the number of units in it.
Then the two parts, one after the other, come to what the whole frame comes to: the same units go out,
the framer is left in the same state with the same pair, the same units were counted as withheld and
refused, and the store holds the same, for the device and for all others. Only how often the pair was
written may differ.

So it is for every stream that is cut into any number of frames in this way. -/
theorem framing_ignores_seams (framer : Framer) (tally : Tally) (device? : Option String)
    (shelf : Shelf) :
    let start : FramerLog := { framer, tally }
    (∀ first second : Bytes, ¬ startCode <:+ first → beginsUnit second = true →
      (scanAll (first ++ second)).length ≤ framer.limit →
      FramedAlike (start.overFrames device? shelf [first, second])
        (start.overFrames device? shelf [first ++ second])) ∧
    ∀ frames : List Bytes, frames.IsChain Seam → (scanAll frames.flatten).length ≤ framer.limit →
      FramedAlike (start.overFrames device? shelf frames)
        (start.overFrames device? shelf [frames.flatten]) := by
  intro start
  have hall : ∀ frames : List Bytes, frames.IsChain Seam →
      (scanAll frames.flatten).length ≤ framer.limit →
      FramedAlike (start.overFrames device? shelf frames)
        (start.overFrames device? shelf [frames.flatten]) := by
    intro frames hseams hlimit
    have hunits := scanAll_seams hseams
    have hlength := congrArg List.length hunits
    rw [List.length_map, List.length_map] at hlength
    apply start.framedAlike_of_units
    · rw [← hunits, List.flatMap_singleton]
    · rwa [← hlength]
  refine ⟨fun first second hend hbegins hlimit => ?_, hall⟩
  have hflatten : [first, second].flatten = first ++ second := by simp
  have htwo := hall [first, second] (.cons_cons ⟨hend, hbegins⟩ (.singleton second))
  rw [hflatten] at htwo
  exact htwo hlimit

/-- A set that the next frame replaces, behind garbage and in front of zeros that could belong to a start
code: it is written, and the store holds the other one in the end. -/
theorem framing_ignores_seams_replaced :
    let frames : List Bytes := [[0xAA, 0, 0, 0, 1, 0x68, 0xAA, 0, 0, 0], [0, 0, 0, 1, 0x68, 0xBB],
      [0, 0, 0, 1, 0x65, 0x88]]
    let start : FramerLog := { framer := {} }
    let parts := start.overFrames (some "cam") [] frames
    let whole := start.overFrames (some "cam") [] [frames.flatten]
    frames.IsChain Seam ∧ (scanAll frames.flatten).length ≤ start.framer.limit ∧
      FramedAlike parts whole ∧ parts.1.tally.setWrites = 2 ∧ whole.1.tally.setWrites = 1 ∧
      KeyedList.get? parts.2 "cam" =
        some (ParameterSets.builtIn.sps ++ [0, 0, 0, 1, 0x68, 0xBB]) := by
  intro frames start parts whole
  have hseams : frames.IsChain Seam := by decide
  have hlimit : (scanAll frames.flatten).length ≤ start.framer.limit := by decide +kernel
  have halike : FramedAlike parts whole :=
    (framing_ignores_seams {} {} (some "cam") []).2 frames hseams hlimit
  exact ⟨hseams, hlimit, halike, by decide +kernel, by decide +kernel, by decide +kernel⟩

end CamStream
