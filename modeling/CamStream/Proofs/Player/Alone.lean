import CamStream.Proofs.Player.Steps

/-!
# A player that nobody interrupts

When nothing comes between the steps of a start, of a thread that delivers a frame, or of a stop, they come
to `Player.start`, `Player.advance` and `Player.stop`, for the player that is seen when only one thread is
looked at, the one that was made last.

* `PlayerUse.view`: the player that is seen.
* `start_alone`: a start.
* `advance_alone`: a frame, or the end of a thread.
* `stop_alone`: a stop, with the steps that the thread needs to come to its end.
-/

namespace CamStream

/-- What the thread has still to deliver. -/
def PlayerRun.Phase.worker? : Phase → Option Worker
  | looking playing | calling playing | called playing => playing.worker
  | clearing | leaving | gone => none

/-- A run and the flag after steps of its thread, when only it acts. -/
def PlayerRun.alone (running : Bool) : Nat → PlayerRun → PlayerRun × Bool
  | 0, run => (run, running)
  | count + 1, run => (run.step running).alone (run.phase.flag running) count

theorem PlayerRun.distance_alone (running : Bool) (count : Nat) (run : PlayerRun) :
    (run.alone running count).1.phase.distance ≤ run.phase.distance - count := by
  induction count generalizing running run with
  | zero => exact Nat.le_refl _
  | succ count ih =>
    have hstep : (run.step running).phase.distance ≤ run.phase.distance - 1 :=
      run.phase.distance_next running
    have hrest := ih (run.phase.flag running) (run.step running)
    rw [alone]
    omega

theorem PlayerRun.flag_alone (count : Nat) (run : PlayerRun) : (run.alone false count).2 = false := by
  induction count generalizing run with
  | zero => rfl
  | succ count ih =>
    rw [alone, run.phase.flag_false]
    exact ih (run.step false)

/-- Three steps from the head of the loop: a frame is looked for, delivered, and done with, or the thread
clears the flag and leaves. -/
theorem PlayerRun.alone_looking {player playing : Player} {worker : Worker} {run : PlayerRun}
    (hphase : run.phase = .looking playing) (hrunning : playing.running = true)
    (hpaced : playing.paced = player.paced) (hworker : playing.worker = some worker) (running : Bool) :
    let seen : Player := { player with running, worker := some worker }
    let last := run.alone running 3
    { player with running := last.2, worker := last.1.phase.worker? } = seen.advance.2 ∧
      last.1.invocations = run.invocations ++ (seen.advance.1.map (worker.callback, ·)).toList := by
  have hremaining : playing.remaining = worker.frames.length := by
    rw [Player.remaining, hworker]
    rfl
  cases running with
  | false =>
    simp [alone, step, hphase, Phase.next, Phase.flag, Phase.invocation?, Phase.worker?,
      Player.advance]
  | true =>
    cases hframes : worker.frames with
    | nil =>
      simp [alone, step, hphase, Phase.next, Phase.flag, Phase.invocation?, Phase.worker?,
        Player.advance, hremaining, hframes]
    | cons frame frames =>
      by_cases hfails : worker.callback.failsAt = some (worker.delivered + 1) <;>
        simp [alone, step, hphase, Phase.next, Phase.flag, Phase.invocation?, Phase.worker?,
          Player.advance, hremaining, hrunning, hpaced, hworker, hframes, hfails]

namespace PlayerUse

/-- The player with the thread that was made last. -/
def view (player : Player) (now : PlayerUse) : Player :=
  { player with running := now.running, worker := now.runs.getLast?.bind (·.phase.worker?) }

variable {player : Player} {now : PlayerUse} {call : StartCall}

/-- The steps that a start makes, at most. -/
def startSteps (call : StartCall) : List Turn := .start call :: .replicate 5 .owner

/-- A start, when no thread has to be waited for. -/
theorem start_alone (hcall : now.call = .idle) (hjoined : now.joined = true)
    (hrefusal : call.refusal = none) :
    let last := now.turns player (startSteps call)
    match (now.view player).start call.recording call.format call.callback with
    | .ok started => last.view player = started ∧ last.answers = now.answers ++ [.started]
    | .error error =>
      last.view player = now.view player ∧ last.answers = now.answers ++ [.refused error] := by
  obtain ⟨running, runs, handle, phase, answers⟩ := now
  subst hcall
  cases running with
  | true => simp [startSteps, turns, turn, stepOwner, view, Player.start, answer]
  | false =>
    have hwaited : ∀ phase answers,
        joined { running := false, runs, handle, call := phase, answers } = true :=
      fun _ _ => hjoined
    cases hread : call.recording with
    | error error =>
      simp [startSteps, turns, turn, stepOwner, view, Player.start, answer, hwaited, hread]
    | ok recording =>
      simp [startSteps, turns, turn, stepOwner, view, Player.start, answer, hwaited, hread, hrefusal,
        PlayerRun.Phase.worker?]

/-- The steps of a thread, when only it acts. -/
theorem turns_thread (player : Player) {index : Nat} {run : PlayerRun}
    (hrun : now.runs[index]? = some run) (count : Nat) :
    now.turns player (.replicate count (.thread index)) = { now with
      running := (run.alone now.running count).2
      runs := now.runs.set index (run.alone now.running count).1 } := by
  induction count generalizing now run with
  | zero =>
    obtain ⟨hindex, rfl⟩ := List.getElem?_eq_some_iff.mp hrun
    have hsame : now.runs.set index now.runs[index] = now.runs := List.set_getElem_self hindex
    rw [PlayerRun.alone, hsame]
    rfl
  | succ count ih =>
    have hindex := (List.getElem?_eq_some_iff.mp hrun).1
    have hturn : now.turn player (.thread index) = { now with
        running := run.phase.flag now.running, runs := now.runs.set index (run.step now.running) } := by
      simp only [turn, hrun]
    have hnext : (now.turn player (.thread index)).runs[index]? = some (run.step now.running) := by
      rw [hturn]
      exact List.getElem?_set_self hindex
    have hrest := ih hnext
    rw [hturn] at hrest
    rw [List.replicate_succ]
    change (now.turn player (.thread index)).turns player _ = _
    rw [hturn, hrest, List.set_set]
    rfl

theorem view_set {index : Nat} (hlast : index + 1 = now.runs.length) (run : PlayerRun) (running : Bool) :
    view player { now with running, runs := now.runs.set index run } =
      { player with running, worker := run.phase.worker? } := by
  have hgetLast : (now.runs.set index run).getLast? = some run := by
    rw [List.getLast?_eq_getElem?, List.length_set, ← hlast]
    exact List.getElem?_set_self (by omega)
  rw [view, hgetLast, Option.bind_some]

/-- A thread at the head of its loop delivers a frame, or comes to its end. -/
theorem advance_alone {index : Nat} {run : PlayerRun} {playing : Player}
    (hrun : now.runs[index]? = some run) (hlast : index + 1 = now.runs.length)
    (hphase : run.phase = .looking playing) (hrunning : playing.running = true)
    (hpaced : playing.paced = player.paced) {worker : Worker} (hworker : playing.worker = some worker) :
    let last := now.turns player (.replicate 3 (.thread index))
    last.view player = (now.view player).advance.2 ∧
      ∃ later, last.runs[index]? = some later ∧ later.invocations =
        run.invocations ++ ((now.view player).advance.1.map (worker.callback, ·)).toList := by
  intro last
  have hindex := (List.getElem?_eq_some_iff.mp hrun).1
  have hview : now.view player =
      { player with running := now.running, worker := some worker } := by
    have hgetLast : now.runs.getLast? = some run := by
      rw [List.getLast?_eq_getElem?, ← hlast]
      exact hrun
    rw [view, hgetLast, Option.bind_some, hphase, PlayerRun.Phase.worker?, hworker]
  have hthree : last = { now with
      running := (run.alone now.running 3).2
      runs := now.runs.set index (run.alone now.running 3).1 } := turns_thread player hrun 3
  rw [hthree, view_set hlast, hview]
  obtain ⟨hadvance, hinvocations⟩ :=
    PlayerRun.alone_looking hphase hrunning hpaced hworker now.running
  exact ⟨hadvance, _, List.getElem?_set_self hindex, hinvocations⟩

/-- A stop, with the steps that the thread needs to come to its end. -/
theorem stop_alone (hcall : now.call = .idle) {index : Nat} {run : PlayerRun}
    (hhandle : now.handle = some index) (hrun : now.runs[index]? = some run)
    (hlast : index + 1 = now.runs.length) {count : Nat} (hcount : run.phase.distance ≤ count) :
    let last := now.turns player (.stop :: .owner :: (.replicate count (.thread index) ++ [.owner]))
    last.view player = (now.view player).stop ∧ last.answers = now.answers ++ [.stopped] := by
  intro last
  let cleared : PlayerUse :=
    { now with running := false, runs := now.runs.map (·.halt), call := .stopping }
  have hcleared : cleared.runs[index]? = some run.halt := by
    simp only [cleared, List.getElem?_map, hrun, Option.map_some]
  have hlength : index + 1 = cleared.runs.length := by simpa [cleared] using hlast
  have hsteps : last = (cleared.turns player (.replicate count (.thread index))).turn player .owner := by
    have hbegin : (now.turn player .stop).turn player .owner = cleared := by
      simp only [turn, hcall, stepOwner, cleared]
    simp only [last, turns, List.foldl_cons, List.foldl_append, List.foldl_nil, hbegin]
  have hgone : (run.halt.alone false count).1.phase = .gone := by
    have hdistance := PlayerRun.distance_alone false count run.halt
    rw [PlayerRun.halt_phase] at hdistance
    exact PlayerRun.Phase.eq_gone (by omega)
  have hended : cleared.turns player (.replicate count (.thread index)) = { cleared with
      running := false, runs := cleared.runs.set index (run.halt.alone false count).1 } := by
    rw [turns_thread player hcleared count, PlayerRun.flag_alone]
  have hjoined : joined { cleared with
      running := false, runs := cleared.runs.set index (run.halt.alone false count).1 } = true := by
    simp [joined, cleared, hhandle, hgone, ← hlast]
  have hfinish : last = answer { cleared with
      running := false
      runs := cleared.runs.set index (run.halt.alone false count).1
      handle := none } .stopped := by
    rw [hsteps, hended]
    simp only [turn, stepOwner, cleared] at hjoined ⊢
    rw [if_pos hjoined]
  rw [hfinish]
  refine ⟨(view_set hlength _ false).trans ?_, rfl⟩
  rw [hgone]
  rfl

end PlayerUse

end CamStream
