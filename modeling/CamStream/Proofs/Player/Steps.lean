import CamStream.Replay.Player
import Mathlib.Tactic.Common

/-!
# A player in steps

The owner of a player starts and stops it, one call after the other. Each start that succeeds makes a
thread, which delivers the frames of the recording. The threads and the call under way may act in any
order; what they share is the flag that says whether the player is running.

A start looks at the flag, waits for the thread that was made last, reads the file, sets the flag, and
makes a thread. A stop clears the flag, and waits for the thread; to drop a player is to stop it. A thread
looks at the flag before each frame, invokes the callback, and clears the flag at its end; a callback that
fails takes the thread with it, and the flag stays as it is. Nothing here says how many threads there are:
that there is never more than one comes of the order of these steps.

* `PlayerRun.step`: the next step of a thread; `PlayerRun.Phase.distance`: how far it is from its end.
* `PlayerUse.turn`: one step of one party; `PlayerUse.Moves`: all that can come of it.
* `PlayerUse.exists_run_turns`: every run goes on to its end.
-/

namespace CamStream

/-! ## Calls and runs -/

/-- A call to start a player, with what it will meet. -/
structure StartCall where
  format : CaptureFormat
  callback : Callback
  /-- What its read of the file gives. -/
  recording : Except FileError Bytes
  /-- Why no thread can be made for it, if none can. -/
  refusal : Option FileError := none
deriving DecidableEq

namespace StartCall

variable (call : StartCall)

/-- The invocation of the callback with a frame that is delivered when it is due. -/
def invocation (frame : Bytes × Nat) : Callback × CaptureFrame :=
  (call.callback, { data := frame.1, timestamp := frame.2 })

/-- The invocations that a recording asks for. -/
def owed (recording : Bytes) : List (Callback × CaptureFrame) :=
  (splitFrames recording).zipIdx.map fun (span, n) =>
    (call.callback,
      { data := span.of recording, timestamp := min (call.format.interval * n) maxTimestamp })

theorem owed_eq (recording : Bytes) :
    call.owed recording = (dueFrames recording call.format.interval).map call.invocation := by
  rw [owed, dueFrames, List.map_map]
  rfl

theorem length_owed (recording : Bytes) :
    (call.owed recording).length = (splitFrames recording).length := by
  rw [owed, List.length_map, List.length_zipIdx]

end StartCall

namespace PlayerRun

/-- Where the thread of a run has got to. -/
inductive Phase where
  /-- It looks for the next frame. -/
  | looking (playing : Player)
  /-- It has found a frame, and the flag set. -/
  | calling (playing : Player)
  /-- The callback has been invoked, and has not come back. -/
  | called (playing : Player)
  /-- It delivers no more frames, and clears the flag next. -/
  | clearing
  | leaving
  | gone
deriving DecidableEq

namespace Phase

/-- Whether there may still be frames to deliver. -/
def isOpen : Phase → Bool
  | looking _ | calling _ | called _ => true
  | clearing | leaving | gone => false

/-- Where the next step leads. The flag is looked at only when there is a frame. -/
def next (running : Bool) : Phase → Phase
  | looking playing =>
    if playing.remaining ≠ 0 ∧ running = true then calling playing else clearing
  | calling playing => called playing.advance.2
  | called playing => if playing.worker.isSome then looking playing else gone
  | clearing => leaving
  | leaving | gone => gone

def flag (running : Bool) : Phase → Bool
  | clearing => false
  | looking _ | calling _ | called _ | leaving | gone => running

/-- The invocation that the next step makes. -/
def invocation? : Phase → Option (Callback × CaptureFrame)
  | calling playing =>
    playing.worker.bind fun worker => playing.advance.1.map fun frame => (worker.callback, frame)
  | looking _ | called _ | clearing | leaving | gone => none

/-- How many steps the thread has still to make, at most. -/
def distance : Phase → Nat
  | looking playing => 3 * playing.remaining + 3
  | calling playing => 3 * playing.remaining + 2
  | called playing => if playing.worker.isSome then 3 * playing.remaining + 4 else 1
  | clearing => 2
  | leaving => 1
  | gone => 0

variable {phase : Phase}

theorem invocation?_of_closed (h : phase.isOpen = false) : phase.invocation? = none := by
  cases phase with
  | calling playing => cases h
  | looking | called | clearing | leaving | gone => rfl

theorem isOpen_next (h : phase.isOpen = false) (running : Bool) :
    (phase.next running).isOpen = false := by
  cases phase with
  | looking playing | calling playing | called playing => cases h
  | clearing | leaving | gone => rfl

theorem isOpen_of_next {running : Bool} (h : (phase.next running).isOpen = true) :
    phase.isOpen = true := by
  by_contra hclosed
  rw [isOpen_next (Bool.eq_false_iff.mpr hclosed)] at h
  cases h

/-- Only a thread that is done with the frames touches the flag. -/
theorem flag_eq (h : phase ≠ .clearing) (running : Bool) : phase.flag running = running := by
  cases phase with
  | clearing => exact absurd rfl h
  | looking | calling | called | leaving | gone => rfl

theorem flag_false (phase : Phase) : phase.flag false = false := by cases phase <;> rfl

theorem eq_clearing {running : Bool} (h : phase.next running = leaving) : phase = clearing := by
  cases phase with
  | looking playing =>
    rw [next] at h
    split at h <;> cases h
  | called playing =>
    rw [next] at h
    split at h <;> cases h
  | calling | leaving | gone => cases h
  | clearing => rfl

theorem eq_gone (h : phase.distance = 0) : phase = gone := by
  cases phase with
  | called playing =>
    rw [distance] at h
    split at h <;> omega
  | looking | calling | clearing | leaving => simp [distance] at h
  | gone => rfl

/-- An invocation leaves one frame less to deliver, if it leaves a thread at all. -/
theorem remaining_advance {playing : Player} (h : playing.advance.2.worker.isSome = true) :
    playing.advance.2.remaining + 1 = playing.remaining := by
  unfold Player.advance at h ⊢
  cases hworker : playing.worker with
  | none => simp [hworker] at h
  | some worker =>
    by_cases hrunning : playing.running = true
    · cases hframes : worker.frames with
      | nil => simp [hworker, hrunning, hframes] at h
      | cons frame frames =>
        by_cases hfails : worker.callback.failsAt = some (worker.delivered + 1)
        · simp [hworker, hrunning, hframes, hfails] at h
        · simp [Player.remaining, hworker, hrunning, hframes, hfails]
    · simp [hworker, hrunning] at h

theorem distance_next (running : Bool) (phase : Phase) :
    (phase.next running).distance ≤ phase.distance - 1 := by
  cases phase with
  | looking playing =>
    rw [next]
    split <;> simp [distance]
  | calling playing =>
    simp only [next, distance]
    split
    · rename_i hworker
      have hremaining := remaining_advance hworker
      omega
    · omega
  | called playing => cases hworker : playing.worker.isSome <;> simp [next, distance, hworker]
  | clearing | leaving | gone => simp [next, distance]

end Phase

end PlayerRun

/-- The run that a start has begun. -/
structure PlayerRun where
  call : StartCall
  phase : PlayerRun.Phase
  /-- All invocations of a callback by its thread, in order. -/
  invocations : List (Callback × CaptureFrame) := []
  /-- Whether a stop has come before the thread was done with the frames. -/
  stopped : Bool := false

namespace PlayerRun

variable {run : PlayerRun}

/-- A stop has cleared the flag. -/
def halt (run : PlayerRun) : PlayerRun :=
  if run.phase.isOpen then { run with stopped := true } else run

/-- The next step of the thread. -/
def step (run : PlayerRun) (running : Bool) : PlayerRun :=
  { run with
    phase := run.phase.next running
    invocations := run.invocations ++ run.phase.invocation?.toList }

theorem step_of_gone (h : run.phase = .gone) (running : Bool) : run.step running = run := by
  simp only [step, h, Phase.next, Phase.invocation?, Option.toList_none, List.append_nil]
  rw [← h]

theorem halt_of_gone (h : run.phase = .gone) : run.halt = run := by
  rw [halt, h]
  rfl

@[simp]
theorem halt_call (run : PlayerRun) : run.halt.call = run.call := by
  unfold halt
  split <;> rfl

@[simp]
theorem halt_phase (run : PlayerRun) : run.halt.phase = run.phase := by
  unfold halt
  split <;> rfl

end PlayerRun

/-! ## The player and its owner -/

/-- Where the call under way has got to. -/
inductive OwnerPhase where
  | idle
  /-- A start looks at the flag. -/
  | checking (call : StartCall)
  /-- It has found the flag clear, and waits for the thread that was made last. -/
  | joining (call : StartCall)
  | reading (call : StartCall)
  | setting (call : StartCall) (playing : Player)
  | spawning (call : StartCall) (playing : Player)
  /-- No thread could be made, and it clears the flag next. -/
  | retracting (error : FileError)
  /-- A stop clears the flag next. -/
  | clearing
  /-- It has cleared the flag, and waits for the thread. -/
  | stopping

/-- Whether a start is past the thread of the run before. -/
def OwnerPhase.hasJoined : OwnerPhase → Bool
  | reading _ | setting _ _ | spawning _ _ | retracting _ => true
  | idle | checking _ | joining _ | clearing | stopping => false

/-- What a call takes the flag to be, if it does. -/
def OwnerPhase.flag? : OwnerPhase → Option Bool
  | joining _ | reading _ | setting _ _ | stopping => some false
  | spawning _ _ | retracting _ => some true
  | idle | checking _ | clearing => none

theorem OwnerPhase.hasJoined_of_flag? {call : OwnerPhase} (h : call.flag? = some true) :
    call.hasJoined = true := by
  cases call with
  | spawning | retracting => rfl
  | idle | checking | joining | reading | setting | clearing | stopping => cases h

/-- What a call was answered. -/
inductive OwnerAnswer where
  | started
  | refused (error : StartError)
  | stopped
deriving DecidableEq, Repr

/-- A player in use, between two steps. -/
structure PlayerUse where
  /-- The flag. -/
  running : Bool := false
  /-- All runs, in the order in which they were begun. -/
  runs : List PlayerRun := []
  /-- The number of the run whose thread is to be waited for. -/
  handle : Option Nat := none
  call : OwnerPhase := .idle
  /-- What the calls were answered, in order. -/
  answers : List OwnerAnswer := []

namespace PlayerUse

/-- Who makes a step. -/
inductive Turn where
  | start (call : StartCall)
  | stop
  /-- The call under way makes a step. -/
  | owner
  | thread (index : Nat)
deriving DecidableEq

/-- The call under way returns. -/
def answer (now : PlayerUse) (answer : OwnerAnswer) : PlayerUse :=
  { now with call := .idle, answers := now.answers ++ [answer] }

/-- Whether the thread to be waited for is gone. -/
def joined (now : PlayerUse) : Bool :=
  match now.handle.bind (now.runs[·]?) with
  | some run => run.phase = .gone
  | none => true

def stepOwner (player : Player) (now : PlayerUse) : PlayerUse :=
  match now.call with
  | .idle => now
  | .checking call =>
    if now.running then now.answer (.refused .alreadyStreaming)
    else { now with call := .joining call }
  | .joining call => if now.joined then { now with handle := none, call := .reading call } else now
  | .reading call =>
    match ({ player with running := false } : Player).start call.recording call.format
        call.callback with
    | .error error => now.answer (.refused error)
    | .ok playing => { now with call := .setting call playing }
  | .setting call playing => { now with running := true, call := .spawning call playing }
  | .spawning call playing =>
    match call.refusal with
    | none =>
      ({ now with
        runs := now.runs ++ [{ call, phase := .looking playing }]
        handle := some now.runs.length } : PlayerUse).answer .started
    | some error => { now with call := .retracting error }
  | .retracting error =>
    ({ now with running := false } : PlayerUse).answer (.refused (.unreadable error))
  | .clearing => { now with running := false, runs := now.runs.map (·.halt), call := .stopping }
  | .stopping =>
    if now.joined then ({ now with handle := none } : PlayerUse).answer .stopped else now

/-- What a step leads to. The owner makes no call while one is under way. -/
def turn (player : Player) (now : PlayerUse) : Turn → PlayerUse
  | .start call =>
    match now.call with
    | .idle => { now with call := .checking call }
    | _ => now
  | .stop =>
    match now.call with
    | .idle => { now with call := .clearing }
    | _ => now
  | .owner => now.stepOwner player
  | .thread index =>
    match now.runs[index]? with
    | some run =>
      { now with
        running := run.phase.flag now.running
        runs := now.runs.set index (run.step now.running) }
    | none => now

/-- What steps lead to, in order. -/
def turns (player : Player) (now : PlayerUse) (order : List Turn) : PlayerUse :=
  order.foldl (turn player) now

/-! ## What a step can do -/

theorem phase_of_joined {now : PlayerUse} (h : now.joined = true) {index : Nat}
    (hhandle : now.handle = some index) {run : PlayerRun} (hrun : now.runs[index]? = some run) :
    run.phase = .gone := by
  simpa [joined, hhandle, hrun] using h

/-- All that can come of a step. -/
inductive Moves (player : Player) (now : PlayerUse) : Turn → PlayerUse → Prop
  /-- A call while one is under way is none, a thread that is gone does nothing, and so does a call that
  waits for a thread. -/
  | idle (turn : Turn)
      (howner : turn = .owner → now.call = .idle ∨ now.joined = false)
      (hthread : ∀ index, turn = .thread index →
        ∀ run, now.runs[index]? = some run → run.phase = .gone) : Moves player now turn now
  | start (call : StartCall) (hcall : now.call = .idle) :
      Moves player now (.start call) { now with call := .checking call }
  | stop (hcall : now.call = .idle) : Moves player now .stop { now with call := .clearing }
  | refuse (call : StartCall) (hcall : now.call = .checking call) (hflag : now.running = true) :
      Moves player now .owner (now.answer (.refused .alreadyStreaming))
  | check (call : StartCall) (hcall : now.call = .checking call) (hflag : now.running = false) :
      Moves player now .owner { now with call := .joining call }
  | join (call : StartCall) (hcall : now.call = .joining call) (hjoined : now.joined = true) :
      Moves player now .owner { now with handle := none, call := .reading call }
  | fail (call : StartCall) (error : FileError) (hcall : now.call = .reading call)
      (hread : call.recording = .error error) :
      Moves player now .owner (now.answer (.refused (.unreadable error)))
  | read (call : StartCall) (recording : Bytes) (hcall : now.call = .reading call)
      (hread : call.recording = .ok recording) :
      Moves player now .owner
        { now with
          call := .setting call { player with
            running := true
            worker := some {
              frames := dueFrames recording call.format.interval, callback := call.callback } } }
  | set (call : StartCall) (playing : Player) (hcall : now.call = .setting call playing) :
      Moves player now .owner { now with running := true, call := .spawning call playing }
  | spawn (call : StartCall) (playing : Player) (hcall : now.call = .spawning call playing) :
      Moves player now .owner
        (answer { now with
          runs := now.runs ++ [{ call, phase := .looking playing }]
          handle := some now.runs.length } .started)
  | giveUp (call : StartCall) (playing : Player) (error : FileError)
      (hcall : now.call = .spawning call playing) :
      Moves player now .owner { now with call := .retracting error }
  | retract (error : FileError) (hcall : now.call = .retracting error) :
      Moves player now .owner
        (answer { now with running := false } (.refused (.unreadable error)))
  | clear (hcall : now.call = .clearing) :
      Moves player now .owner
        { now with running := false, runs := now.runs.map (·.halt), call := .stopping }
  | finish (hcall : now.call = .stopping) (hjoined : now.joined = true) :
      Moves player now .owner (answer { now with handle := none } .stopped)
  | thread (index : Nat) (run : PlayerRun) (hrun : now.runs[index]? = some run)
      (hphase : run.phase ≠ .gone) :
      Moves player now (.thread index)
        { now with
          running := run.phase.flag now.running
          runs := now.runs.set index (run.step now.running) }

variable {player : Player} {now next : PlayerUse} {turn : Turn}

theorem stepOwner_moves (player : Player) (now : PlayerUse) :
    now.Moves player .owner (now.stepOwner player) := by
  unfold stepOwner
  cases hcall : now.call with
  | idle => exact .idle _ (fun _ => Or.inl hcall) (by simp)
  | checking call =>
    dsimp only
    split
    · rename_i hflag
      exact .refuse call hcall hflag
    · rename_i hflag
      exact .check call hcall (Bool.eq_false_iff.mpr hflag)
  | joining call =>
    dsimp only
    split
    · rename_i hjoined
      exact .join call hcall hjoined
    · rename_i hjoined
      exact .idle _ (fun _ => Or.inr (Bool.eq_false_iff.mpr hjoined)) (by simp)
  | reading call =>
    cases hread : call.recording with
    | error error =>
      simp only [Player.start, hread, Bool.false_eq_true, if_false]
      exact .fail call error hcall hread
    | ok recording =>
      simp only [Player.start, hread, Bool.false_eq_true, if_false]
      exact .read call recording hcall hread
  | setting call playing => exact .set call playing hcall
  | spawning call playing =>
    cases hrefusal : call.refusal with
    | none =>
      simp only [hrefusal]
      exact .spawn call playing hcall
    | some error =>
      simp only [hrefusal]
      exact .giveUp call playing error hcall
  | retracting error => exact .retract error hcall
  | clearing => exact .clear hcall
  | stopping =>
    dsimp only
    split
    · rename_i hjoined
      exact .finish hcall hjoined
    · rename_i hjoined
      exact .idle _ (fun _ => Or.inr (Bool.eq_false_iff.mpr hjoined)) (by simp)

theorem turn_moves (player : Player) (now : PlayerUse) (turn : Turn) :
    now.Moves player turn (now.turn player turn) := by
  cases turn with
  | start call =>
    rw [PlayerUse.turn]
    split
    · rename_i hcall
      exact .start call hcall
    · exact .idle _ (by simp) (by simp)
  | stop =>
    rw [PlayerUse.turn]
    split
    · rename_i hcall
      exact .stop hcall
    · exact .idle _ (by simp) (by simp)
  | owner => exact stepOwner_moves player now
  | thread index =>
    rw [PlayerUse.turn]
    cases hrun : now.runs[index]? with
    | none =>
      refine .idle _ (by simp) ?_
      intro other hother run hrun'
      cases hother
      simp [hrun] at hrun'
    | some run =>
      by_cases hphase : run.phase = .gone
      · have hstep := PlayerRun.step_of_gone hphase now.running
        have hflag : run.phase.flag now.running = now.running := by rw [hphase]; rfl
        have hsame : now.runs.set index run = now.runs := by
          obtain ⟨hindex, rfl⟩ := List.getElem?_eq_some_iff.mp hrun
          exact List.set_getElem_self hindex
        dsimp only
        rw [hstep, hflag, hsame]
        refine .idle _ (by simp) ?_
        intro other hother run' hrun'
        cases hother
        rw [hrun] at hrun'
        cases hrun'
        exact hphase
      · exact .thread index run hrun hphase

/-! ## A run in the course of time -/

/-- Only the thread of a run makes the run go on. -/
theorem exists_run_turn (player : Player) (turn : Turn) {index : Nat} {run : PlayerRun}
    (hrun : now.runs[index]? = some run) :
    ∃ later, (now.turn player turn).runs[index]? = some later ∧
      (turn = .thread index ∧ later = run.step now.running ∨
        turn ≠ .thread index ∧ (later = run ∨ later = run.halt)) := by
  have hmoves := turn_moves player now turn
  generalize now.turn player turn = next at hmoves
  cases hmoves with
  | idle _ howner hthread =>
    refine ⟨run, hrun, ?_⟩
    by_cases hturn : turn = .thread index
    · have hgone := hthread index hturn run hrun
      exact Or.inl ⟨hturn, by rw [PlayerRun.step_of_gone hgone]⟩
    · exact Or.inr ⟨hturn, Or.inl rfl⟩
  | start | stop | refuse | check | join | fail | read | set | giveUp | retract | finish =>
    exact ⟨run, hrun, Or.inr ⟨by simp, Or.inl rfl⟩⟩
  | spawn call playing =>
    have hindex := (List.getElem?_eq_some_iff.mp hrun).1
    refine ⟨run, ?_, Or.inr ⟨by simp, Or.inl rfl⟩⟩
    exact (List.getElem?_append_left hindex).trans hrun
  | clear =>
    refine ⟨run.halt, ?_, Or.inr ⟨by simp, Or.inr rfl⟩⟩
    simp [hrun]
  | thread other first hfirst hphase =>
    by_cases hother : other = index
    · subst hother
      rw [hrun] at hfirst
      cases hfirst
      have hindex := (List.getElem?_eq_some_iff.mp hrun).1
      exact ⟨_, List.getElem?_set_self hindex, Or.inl ⟨rfl, rfl⟩⟩
    · refine ⟨run, ?_, Or.inr ⟨by simpa using hother, Or.inl rfl⟩⟩
      exact (List.getElem?_set_ne hother).trans hrun

/-- A run goes on to its end: each step of its thread brings it closer, and no other takes it back. -/
theorem exists_run_turns (player : Player) (order : List Turn) {index : Nat} {run : PlayerRun}
    (hrun : now.runs[index]? = some run) :
    ∃ later, (now.turns player order).runs[index]? = some later ∧ later.call = run.call ∧
      later.phase.distance ≤ run.phase.distance - order.count (.thread index) := by
  induction order generalizing now run with
  | nil => exact ⟨run, hrun, rfl, Nat.le_refl _⟩
  | cons turn order ih =>
    obtain ⟨next, hnext, hcases⟩ := exists_run_turn player turn hrun
    obtain ⟨last, hlast, hcall, hdistance⟩ := ih hnext
    obtain ⟨rfl, rfl⟩ | ⟨hturn, rfl | rfl⟩ := hcases
    · refine ⟨last, hlast, hcall, ?_⟩
      have hstep : (run.step now.running).phase.distance ≤ run.phase.distance - 1 :=
        run.phase.distance_next now.running
      rw [List.count_cons_self]
      omega
    · exact ⟨last, hlast, hcall, by rwa [List.count_cons_of_ne hturn]⟩
    · refine ⟨last, hlast, hcall.trans run.halt_call, ?_⟩
      rw [List.count_cons_of_ne hturn, ← run.halt_phase]
      exact hdistance

/-- A run whose thread is gone remains as it is. -/
theorem run_turns_of_gone (player : Player) (order : List Turn) {index : Nat} {run : PlayerRun}
    (hrun : now.runs[index]? = some run) (hphase : run.phase = .gone) :
    (now.turns player order).runs[index]? = some run := by
  induction order generalizing now with
  | nil => exact hrun
  | cons turn order ih =>
    obtain ⟨next, hnext, hcases⟩ := exists_run_turn player turn hrun
    rw [PlayerRun.step_of_gone hphase, PlayerRun.halt_of_gone hphase] at hcases
    have hsame : next = run := by
      obtain ⟨-, hsame⟩ | ⟨-, hsame | hsame⟩ := hcases <;> exact hsame
    exact ih (hsame ▸ hnext)

/-- Runs whose threads are all gone remain, and others only come behind them. -/
theorem runs_turns_of_gone (player : Player) (order : List Turn)
    (h : ∀ run ∈ now.runs, run.phase = .gone) : now.runs <+: (now.turns player order).runs := by
  rw [List.prefix_iff_getElem?]
  intro index hindex
  exact run_turns_of_gone player order (List.getElem?_eq_getElem hindex)
    (h _ (List.getElem_mem hindex))

end PlayerUse

end CamStream
