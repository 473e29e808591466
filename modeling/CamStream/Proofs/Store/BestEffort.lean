import CamStream.Proofs.Store.Restart

/-!
# Keeping a pair is best effort

A framer writes its pair behind every frame in which an accepted parameter set brought other bytes into
the cache, and goes on whatever the store answers. Which pairs those are is decided by the frames alone.
So a run with a store is the run without one, beside the writes of these pairs in order, and the only
trace that the store leaves in it is how many of the writes went well.

* `FramerLog.pairsToKeep`: the pairs that a run gives occasion to write.
* `FramerLog.run_call`: a call is the call without a store, and at most one write behind it.
* `keeping_never_interferes`: so it is for whole runs, and every write is counted once, by its answer.
-/

namespace CamStream

/-! ## Which pairs are written -/

/-- Whether one of the units puts other bytes into the cache. They count as changed even when a later
unit puts the old ones back. -/
def Framer.changesPair (framer : Framer) : List NalUnit → Bool
  | [] => false
  | unit :: units =>
    let next := (framer.accept unit).2
    decide (next.sets ≠ framer.sets) || next.changesPair units

/-- The pair that a call gives occasion to write: the one cached at the end of a frame that changed
it. -/
def Framer.pairToKeep? (framer : Framer) : FramerCall → Option ParameterSets
  | .process frame =>
    if framer.changesPair (scan frame framer.limit) then some (framer.process frame).2.sets else none
  | .reset | .setLimit _ => none

/-- The pairs that calls give occasion to write, in order. No store takes part in this. -/
def FramerLog.pairsToKeep (log : FramerLog) : List FramerCall → List ParameterSets
  | [] => []
  | call :: calls => (log.framer.pairToKeep? call).toList ++ (log.after call).pairsToKeep calls

/-- A set that changes the cache and one that changes it back: the frame is still an occasion. -/
example :
    let other : Bytes := [0, 0, 0, 1, 0x68, 0xAA]
    let frame := other ++ ParameterSets.builtIn.pps
    ({ framer := {} } : FramerLog).pairsToKeep [.process frame, .process frame, .process []] =
      [.builtIn, .builtIn] := by
  decide +kernel

theorem Framer.any_isChange_acceptAll (framer : Framer) (units : List NalUnit) :
    (framer.acceptAll units).1.any (·.isChange) = framer.changesPair units := by
  induction units generalizing framer with
  | nil => rfl
  | cons unit units ih => simp only [acceptAll, changesPair, List.any_cons, isChange_accept, ih]

/-! ## What the writes come to -/

/-- Write pairs to the store of a keeper, each one once, and go on whatever it answers. -/
def Keeper.attempts {m : Type → Type} [Monad m] (keeper : Keeper m) (pairs : List ParameterSets) :
    m (List (Except FileError Unit)) :=
  pairs.mapM fun sets => keeper.store.write keeper.device (sets.sps ++ sets.pps)

theorem Tally.plusWrites_plusWrites (tally : Tally) (writes failures more moreFailures : Nat) :
    (tally.plusWrites writes failures).plusWrites more moreFailures =
      tally.plusWrites (writes + more) (failures + moreFailures) := by
  simp only [plusWrites, Nat.add_assoc]

namespace FramerLog

/-- The log with the answers to writes counted. -/
def answered (log : FramerLog) (answers : List (Except FileError Unit)) : FramerLog :=
  { log with tally := log.tally.plusWrites (answers.countP (·.isOk)) (answers.countP (!·.isOk)) }

theorem answered_append (log : FramerLog) (answers more : List (Except FileError Unit)) :
    (log.answered answers).answered more = log.answered (answers ++ more) := by
  simp only [answered, Tally.plusWrites_plusWrites, List.countP_append]

/-- Answers that were counted before a call stay counted, and nothing else comes of them. -/
theorem after_answered (log : FramerLog) (answers : List (Except FileError Unit))
    (call : FramerCall) : (log.answered answers).after call = (log.after call).answered answers := by
  cases call <;> rfl

theorem afterAll_answered (log : FramerLog) (answers : List (Except FileError Unit))
    (calls : List FramerCall) :
    (log.answered answers).afterAll calls = (log.afterAll calls).answered answers := by
  induction calls generalizing log with
  | nil => rfl
  | cons call calls ih =>
    have hstep := after_answered log answers call
    simp only [afterAll, List.foldl_cons, hstep] at ih ⊢
    exact ih _

theorem pairsToKeep_answered (log : FramerLog) (answers : List (Except FileError Unit))
    (calls : List FramerCall) :
    (log.answered answers).pairsToKeep calls = log.pairsToKeep calls := by
  induction calls generalizing log with
  | nil => rfl
  | cons call calls ih =>
    simp only [pairsToKeep, after_answered, ih]
    rfl

theorem callAll_none (log : FramerLog) (calls : List FramerCall) :
    Id.run (log.callAll none calls) = log.afterAll calls := by
  induction calls generalizing log with
  | nil => rfl
  | cons call calls ih =>
    have hcall : Id.run (log.call none call) = log.after call := by
      cases call <;> rfl
    simp only [callAll, List.foldlM_cons, afterAll, List.foldl_cons] at ih ⊢
    rw [Id.run_bind, hcall]
    exact ih _

end FramerLog

/-! ## Runs -/

section Runs

variable {σ : Type} (keeper : Keeper (StateM σ))

theorem Keeper.run_attempts_append (pairs more : List ParameterSets) (world : σ) :
    (keeper.attempts (pairs ++ more)).run world =
      let first := (keeper.attempts pairs).run world
      let rest := (keeper.attempts more).run first.2
      (first.1 ++ rest.1, rest.2) := by
  simp only [attempts, List.mapM_append, StateT.run_bind]
  rfl

theorem Keeper.length_attempts (pairs : List ParameterSets) (world : σ) :
    ((keeper.attempts pairs).run world).1.length = pairs.length := by
  induction pairs generalizing world with
  | nil => rfl
  | cons sets pairs ih =>
    have hrest := ih ((keeper.attempts [sets]).run world).2
    have hone : ((keeper.attempts [sets]).run world).1.length = 1 := rfl
    have hsplit := keeper.run_attempts_append [sets] pairs world
    rw [List.singleton_append] at hsplit
    rw [hsplit, List.length_append, hone, hrest, List.length_cons, Nat.add_comm]

namespace FramerLog

/-- One call: what it comes to without a store, and the write that it gives occasion to. -/
theorem run_call (log : FramerLog) (call : FramerCall) (world : σ) :
    (log.call (some keeper) call).run world =
      let attempts := (keeper.attempts (log.framer.pairToKeep? call).toList).run world
      ((log.after call).answered attempts.1, attempts.2) := by
  cases call with
  | reset | setLimit limit => rfl
  | process frame =>
    have hoccasion : log.framer.changesPair (scan frame log.framer.limit) =
        (log.framer.process frame).1.any (·.isChange) :=
      (log.framer.any_isChange_acceptAll (scan frame log.framer.limit)).symm
    simp only [Framer.pairToKeep?, hoccasion]
    cases hchange : (log.framer.process frame).1.any (·.isChange) with
    | false =>
      simp only [call, Framer.processKeeping, keepChange, hchange]
      rfl
    | true =>
      let sets := (log.framer.process frame).2.sets
      let answer := (keeper.store.save keeper.device sets).run world
      have hcall : (log.call (some keeper) (.process frame)).run world =
          ({ log.after (.process frame) with
              tally := (log.after (.process frame)).tally.afterWrite answer.1 }, answer.2) := by
        simp only [call, Framer.processKeeping, keepChange, hchange, if_true]
        rfl
      have hattempts : (keeper.attempts [sets]).run world = ([answer.1], answer.2) := rfl
      have hcount : ∀ tally : Tally, tally.afterWrite answer.1 =
          tally.plusWrites ([answer.1].countP (·.isOk)) ([answer.1].countP (!·.isOk)) := by
        intro tally
        cases answer.1 <;> rfl
      rw [hcall, hcount]
      exact congrArg (fun attempts => ((log.after (.process frame)).answered attempts.1, attempts.2))
        hattempts.symm

/-- A run is the run without a store, with the answers to the writes counted. What becomes of the
store is what these writes make of it. -/
theorem run_callAll (log : FramerLog) (calls : List FramerCall) (world : σ) :
    (log.callAll (some keeper) calls).run world =
      let attempts := (keeper.attempts (log.pairsToKeep calls)).run world
      ((log.afterAll calls).answered attempts.1, attempts.2) := by
  induction calls generalizing log world with
  | nil => rfl
  | cons call calls ih =>
    let first := (keeper.attempts (log.framer.pairToKeep? call).toList).run world
    have hcall : (log.call (some keeper) call).run world =
        ((log.after call).answered first.1, first.2) := run_call keeper log call world
    have hrest := ih ((log.after call).answered first.1) first.2
    simp only [pairsToKeep_answered, afterAll_answered, answered_append] at hrest
    simp only [pairsToKeep, Keeper.run_attempts_append]
    have hsplit : (log.callAll (some keeper) (call :: calls)).run world =
        (((log.call (some keeper) call).run world).1.callAll (some keeper) calls).run
          ((log.call (some keeper) call).run world).2 := rfl
    rw [hsplit, hcall]
    exact hrest

end FramerLog

/-- **Keeping a pair never interferes.** Run a framer on any calls with any store behind it, whatever
the store answers to each write, and run it on the same calls without a store.

* Every unit meets the same fate in both runs, and both end in the same state with the same pair.
* The store is written to once for each frame in which an accepted set put other bytes into the cache,
  behind all units of the frame, and on no other occasion. What is written is the sequence parameter
  set and then the picture parameter set, as cached at the end of that frame.
* The counters are the same in both runs, except that with a store each write is counted by its
  answer. -/
theorem keeping_never_interferes (framer : Framer) (tally : Tally) (calls : List FramerCall)
    (world : σ) :
    let start : FramerLog := { framer, tally }
    let alone := Id.run (start.callAll none calls)
    let kept := (start.callAll (some keeper) calls).run world
    let pairs := start.pairsToKeep calls
    let attempts := (pairs.mapM fun sets =>
      keeper.store.write keeper.device (sets.sps ++ sets.pps)).run world
    kept.1.history = alone.history ∧ kept.1.framer = alone.framer ∧ kept.2 = attempts.2 ∧
      kept.1.tally = { alone.tally with
        setWrites := tally.setWrites + attempts.1.countP (·.isOk)
        setWriteFailures := tally.setWriteFailures + attempts.1.countP (!·.isOk) } ∧
      attempts.1.length = pairs.length ∧
      kept.1.tally.setWrites + kept.1.tally.setWriteFailures =
        tally.setWrites + tally.setWriteFailures + pairs.length := by
  intro start alone kept pairs attempts
  have halone : alone = start.afterAll calls := start.callAll_none calls
  have hkept : kept = (alone.answered attempts.1, attempts.2) := by
    rw [halone]
    exact start.run_callAll keeper calls world
  have hwrites : alone.tally.setWrites = tally.setWrites ∧
      alone.tally.setWriteFailures = tally.setWriteFailures := by
    have hstart : start.tally = tally.afterFates start.history.fates := rfl
    have htally := FramerLog.tally_afterAll hstart calls
    rw [halone, htally]
    exact ⟨rfl, rfl⟩
  have hlength : attempts.1.length = pairs.length := keeper.length_attempts pairs world
  have hcounted := attempts.1.length_eq_countP_add_countP (·.isOk)
  have htally : kept.1.tally = { alone.tally with
      setWrites := tally.setWrites + attempts.1.countP (·.isOk)
      setWriteFailures := tally.setWriteFailures + attempts.1.countP (!·.isOk) } := by
    rw [hkept, ← hwrites.1, ← hwrites.2]
    rfl
  refine ⟨?_, ?_, ?_, htally, hlength, ?_⟩
  · rw [hkept]
    rfl
  · rw [hkept]
    rfl
  · rw [hkept]
  · rw [htally]
    show tally.setWrites + attempts.1.countP (·.isOk) +
      (tally.setWriteFailures + attempts.1.countP (!·.isOk)) = _
    simp only [Bool.not_eq_true, Bool.decide_eq_false] at hcounted
    omega

end Runs

end CamStream
