import CamStream.Proofs.Player.Steps

/-!
# The runs of a player

The flag of a player is written by its owner and by the threads of successive runs, and a thread may be
late: it may clear the flag long after it has delivered the last frame. What keeps it from doing so to a
later run is that a start waits for the thread that was made last before it sets the flag. So there is
never more than one thread, and a clear flag means that it is done, or that a stop waits for it.

* `PlayerRun.Stands`: what a run has done, for every place where its thread can be.
* `PlayerUse.Orderly`: who can be alive, and what the flag says about it.
* `PlayerUse.Sound`: every run stands where its thread is.
-/

namespace CamStream

/-! ## What a run has done -/

namespace PlayerRun

variable {run : PlayerRun} {recording : Bytes} {playing : Player} {worker : Worker}

/-- The last invocation of the callback has failed. -/
def Failed (run : PlayerRun) : Prop :=
  run.invocations ≠ [] ∧ run.call.callback.failsAt = some run.invocations.length

/-- The invocations are the first ones that the recording asks for, and one that fails is the last. -/
structure InOrder (run : PlayerRun) (recording : Bytes) : Prop where
  invoked : run.invocations <+: run.call.owed recording
  failing : ∀ n, run.call.callback.failsAt = some n → n ≠ 0 → run.invocations.length ≤ n

/-- A thread has the frames ahead of it that were not delivered yet, and no invocation has failed. -/
structure Ahead (run : PlayerRun) (recording : Bytes) (playing : Player) (worker : Worker) : Prop where
  running : playing.running = true
  paced : playing.paced = false
  working : playing.worker = some worker
  callback : worker.callback = run.call.callback
  delivered : worker.delivered = run.invocations.length
  frames : run.invocations ++ worker.frames.map run.call.invocation = run.call.owed recording
  failing : ∀ n, run.call.callback.failsAt = some n → n ≠ 0 → run.invocations.length < n

/-- What a run has done when its thread is somewhere. -/
inductive Stands (run : PlayerRun) (recording : Bytes) : Phase → Prop
  | looking {playing : Player} {worker : Worker} (h : run.Ahead recording playing worker) :
      Stands run recording (.looking playing)
  | calling {playing : Player} {worker : Worker} (h : run.Ahead recording playing worker)
      (hframes : worker.frames ≠ []) : Stands run recording (.calling playing)
  | called {playing : Player} {worker : Worker} (h : run.Ahead recording playing worker) :
      Stands run recording (.called playing)
  | failed {playing : Player} (hworker : playing.worker = none) (horder : run.InOrder recording)
      (hfailed : run.Failed) : Stands run recording (.called playing)
  | closed {phase : Phase} (hphase : phase.isOpen = false) (horder : run.InOrder recording)
      (hwhole : run.stopped = false → ¬ run.Failed → run.invocations = run.call.owed recording) :
      Stands run recording phase

theorem InOrder.congr (h : run.InOrder recording) {other : PlayerRun} (hcall : other.call = run.call)
    (hinvocations : other.invocations = run.invocations) : other.InOrder recording := by
  obtain ⟨call, phase, invocations, stopped⟩ := other
  subst hcall hinvocations
  exact ⟨h.invoked, h.failing⟩

theorem Ahead.congr (h : run.Ahead recording playing worker) {other : PlayerRun}
    (hcall : other.call = run.call) (hinvocations : other.invocations = run.invocations) :
    other.Ahead recording playing worker := by
  obtain ⟨call, phase, invocations, stopped⟩ := other
  subst hcall hinvocations
  exact ⟨h.running, h.paced, h.working, h.callback, h.delivered, h.frames, h.failing⟩

/-- A run with a recording that stands where its thread is. -/
def OnCourse (run : PlayerRun) : Prop :=
  ∃ recording, run.call.recording = .ok recording ∧ run.Stands recording run.phase

theorem Ahead.inOrder (h : run.Ahead recording playing worker) : run.InOrder recording where
  invoked := ⟨_, h.frames⟩
  failing n hn hzero := Nat.le_of_lt (h.failing n hn hzero)

theorem Ahead.remaining (h : run.Ahead recording playing worker) :
    playing.remaining = worker.frames.length := by
  rw [Player.remaining, h.working]
  rfl

theorem Stands.inOrder {phase : Phase} (h : run.Stands recording phase) : run.InOrder recording := by
  cases h with
  | looking h | calling h | called h => exact h.inOrder
  | failed _ horder => exact horder
  | closed _ horder => exact horder

/-- The invocation with the next frame. -/
theorem Ahead.advance (h : run.Ahead recording playing worker) {frame : Bytes × Nat}
    {frames : List (Bytes × Nat)} (hframes : worker.frames = frame :: frames) :
    playing.advance = (some { data := frame.1, timestamp := frame.2 },
      { playing with
        worker :=
          if worker.callback.failsAt = some (worker.delivered + 1) then none
          else some { worker with
            frames
            delivered := worker.delivered + 1
            free := max frame.2 worker.free + worker.callback.duration } }) := by
  simp only [Player.advance, h.running, h.paced, h.working, hframes, if_true, Bool.false_eq_true,
    if_false]

theorem Stands.call (h : run.Ahead recording playing worker) (hframes : worker.frames ≠ [])
    (hphase : run.phase = .calling playing) (running : Bool) :
    (run.step running).Stands recording (run.step running).phase := by
  obtain ⟨frame, frames, hcons⟩ := List.exists_cons_of_ne_nil hframes
  have hadvance := h.advance hcons
  have hinvocations : (run.step running).invocations =
      run.invocations ++ [run.call.invocation frame] := by
    simp only [step, hphase, Phase.invocation?, h.working, hadvance, Option.bind_some,
      Option.map_some, Option.toList_some, h.callback]
    rfl
  have hlength : (run.step running).invocations.length = worker.delivered + 1 := by
    rw [hinvocations, List.length_append, h.delivered]
    rfl
  have howed : (run.step running).invocations ++ frames.map run.call.invocation =
      run.call.owed recording := by
    rw [hinvocations, List.append_assoc, ← h.frames, hcons]
    rfl
  have hnext : (run.step running).phase = .called playing.advance.2 := by
    simp only [step, hphase, Phase.next]
  rw [hnext]
  -- A callback that fails takes the worker with it. Otherwise the thread has one frame less ahead of it.
  by_cases hfails : worker.callback.failsAt = some (worker.delivered + 1)
  · refine .failed (by rw [hadvance]; exact if_pos hfails) ⟨⟨_, howed⟩, ?_⟩ ⟨?_, ?_⟩
    · intro n hn _
      rw [h.callback] at hfails
      have heq : worker.delivered + 1 = n := Option.some.inj (hfails.symm.trans hn)
      exact Nat.le_of_eq (hlength.trans heq)
    · rw [hinvocations]
      simp
    · rw [hlength, ← hfails, h.callback]
      rfl
  · have hworking := congrArg (·.2.worker) hadvance
    dsimp only at hworking
    rw [if_neg hfails] at hworking
    refine .called ⟨?_, ?_, hworking, h.callback, hlength.symm, howed, ?_⟩
    · rw [hadvance]
      exact h.running
    · rw [hadvance]
      exact h.paced
    · intro n hn hzero
      have hless := h.failing n hn hzero
      have hother : n ≠ worker.delivered + 1 := by
        rintro rfl
        exact hfails (by rw [h.callback]; exact hn)
      rw [hlength, h.delivered]
      rw [h.delivered] at hother
      omega

/-- The next step of a thread. It only finds the flag clear when a stop has come. -/
theorem Stands.step (h : run.Stands recording run.phase) {running : Bool}
    (hhalted : running = false → run.phase.isOpen = true → run.stopped = true) :
    (run.step running).Stands recording (run.step running).phase := by
  generalize hphase : run.phase = phase at h hhalted
  cases h with
  | @looking playing worker h =>
    have hsame : (run.step running).invocations = run.invocations := by
      simp only [PlayerRun.step, hphase, Phase.invocation?, Option.toList_none, List.append_nil]
    have hahead : (run.step running).Ahead recording playing worker := h.congr rfl hsame
    have hnext : (run.step running).phase =
        if playing.remaining ≠ 0 ∧ running = true then .calling playing else .clearing := by
      simp only [PlayerRun.step, hphase, Phase.next]
    rw [hnext]
    split
    · rename_i hgo
      refine .calling hahead fun hnil => hgo.1 ?_
      rw [h.remaining, hnil]
      rfl
    · rename_i hgo
      refine .closed rfl hahead.inOrder fun hstopped _ => ?_
      have hnone : playing.remaining = 0 := by
        by_contra hsome
        have hflag : running = false := Bool.eq_false_iff.mpr fun hset => hgo ⟨hsome, hset⟩
        exact absurd (hhalted hflag rfl) (by rw [← Bool.not_eq_true] at hstopped; exact hstopped)
      rw [h.remaining] at hnone
      have hframes := hahead.frames
      rw [List.length_eq_zero_iff.mp hnone, List.map_nil, List.append_nil] at hframes
      exact hframes
  | @calling playing worker h hframes => exact .call h hframes hphase running
  | @called playing worker h =>
    have hstep : run.step running = { run with phase := .looking playing } := by
      simp [PlayerRun.step, hphase, Phase.invocation?, Phase.next, h.working]
    rw [hstep]
    exact .looking (h.congr rfl rfl)
  | @failed playing hworker horder hfailed =>
    have hstep : run.step running = { run with phase := .gone } := by
      simp [PlayerRun.step, hphase, Phase.invocation?, Phase.next, hworker]
    rw [hstep]
    exact .closed rfl (horder.congr rfl rfl) fun _ hwell => absurd hfailed hwell
  | closed hclosed horder hwhole =>
    have hstep : run.step running = { run with phase := phase.next running } := by
      simp [PlayerRun.step, hphase, Phase.invocation?_of_closed hclosed]
    rw [hstep]
    exact .closed (Phase.isOpen_next hclosed running) (horder.congr rfl rfl) hwhole

theorem Stands.halt (h : run.Stands recording run.phase) : run.halt.Stands recording run.halt.phase := by
  rw [halt_phase]
  by_cases hopen : run.phase.isOpen = true
  · have hhalt : run.halt = { run with stopped := true } := if_pos hopen
    rw [hhalt]
    generalize run.phase = phase at h
    cases h with
    | looking h => exact .looking (h.congr rfl rfl)
    | calling h hframes => exact .calling (h.congr rfl rfl) hframes
    | called h => exact .called (h.congr rfl rfl)
    | failed hworker horder hfailed => exact .failed hworker (horder.congr rfl rfl) hfailed
    | closed hclosed horder => exact .closed hclosed (horder.congr rfl rfl) (by simp)
  · have hsame : run.halt = run := if_neg hopen
    rwa [hsame]

theorem OnCourse.step (h : run.OnCourse) {running : Bool}
    (hhalted : running = false → run.phase.isOpen = true → run.stopped = true) :
    (run.step running).OnCourse := by
  obtain ⟨recording, hread, hstands⟩ := h
  exact ⟨recording, hread, hstands.step hhalted⟩

theorem OnCourse.halt (h : run.OnCourse) : run.halt.OnCourse := by
  obtain ⟨recording, hread, hstands⟩ := h
  exact ⟨recording, by rwa [halt_call], hstands.halt⟩

end PlayerRun

/-! ## Who is alive, and what the flag says -/

namespace PlayerUse

/-- The order that the calls keep. -/
structure Orderly (now : PlayerUse) : Prop where
  /-- A thread that is not gone is the one to be waited for. -/
  held : ∀ (index : Nat) (run : PlayerRun), now.runs[index]? = some run → run.phase ≠ .gone → now.handle = some index
  latest : ∀ index, now.handle = some index → index + 1 = now.runs.length
  free : now.call.hasJoined = true → now.handle = none
  known : ∀ flag, now.call.flag? = some flag → now.running = flag
  left : ∀ (index : Nat) (run : PlayerRun), now.runs[index]? = some run → run.phase = .leaving → now.running = false
  halted : now.running = false → ∀ (index : Nat) (run : PlayerRun), now.runs[index]? = some run →
    run.phase.isOpen = true → run.stopped = true
  /-- The flag is clear for the sake of a stop, or because a thread has come to its end. -/
  ended : now.running = false → now.call ≠ .stopping → ∀ (index : Nat) (run : PlayerRun), now.runs[index]? = some run →
    run.phase = .leaving ∨ run.phase = .gone

theorem orderly_fresh : Orderly {} where
  held := by simp
  latest := by simp
  free := by simp
  known := by simp [OwnerPhase.flag?]
  left := by simp
  halted := by simp
  ended := by simp

namespace Orderly

variable {player : Player} {now next : PlayerUse} {turn : Turn}

theorem gone_of_free (h : now.Orderly) (hfree : now.handle = none) {index : Nat} {run : PlayerRun}
    (hrun : now.runs[index]? = some run) : run.phase = .gone := by
  by_contra halive
  simp [h.held index run hrun halive] at hfree

theorem gone_of_joined (h : now.Orderly) (hjoined : now.joined = true) {index : Nat}
    {run : PlayerRun} (hrun : now.runs[index]? = some run) : run.phase = .gone := by
  by_contra halive
  exact halive (phase_of_joined hjoined (h.held index run hrun halive) hrun)

theorem gone_of_ne (h : now.Orderly) {index other : Nat} {run second : PlayerRun}
    (hrun : now.runs[index]? = some run) (halive : run.phase ≠ .gone) (hne : other ≠ index)
    (hsecond : now.runs[other]? = some second) : second.phase = .gone := by
  by_contra hother
  have hboth := (h.held index run hrun halive).symm.trans (h.held other second hsecond hother)
  exact hne (Option.some.inj hboth).symm

/-- The call goes on, and touches nothing else. -/
theorem goesOn (h : now.Orderly) {call : OwnerPhase} {answers : List OwnerAnswer}
    (hfree : call.hasJoined = true → now.handle = none)
    (hknown : ∀ flag, call.flag? = some flag → now.running = flag)
    (hstopping : now.call ≠ .stopping) : Orderly { now with call, answers } where
  held := h.held
  latest := h.latest
  free := hfree
  known := hknown
  left := h.left
  halted := h.halted
  ended hflag _ := h.ended hflag hstopping

/-- All threads are gone, and none is waited for, whatever the flag is. -/
theorem ofGone {running : Bool} {runs : List PlayerRun} {handle : Option Nat} {call : OwnerPhase}
    {answers : List OwnerAnswer} (hfree : handle = none)
    (hgone : ∀ (index : Nat) (run : PlayerRun), runs[index]? = some run → run.phase = .gone)
    (hknown : ∀ flag, call.flag? = some flag → running = flag) :
    Orderly { running, runs, handle, call, answers } where
  held index run hrun halive := absurd (hgone index run hrun) halive
  latest := by simp [hfree]
  free _ := hfree
  known := hknown
  left index run hrun hleaving := by simp [hgone index run hrun] at hleaving
  halted _ index run hrun hopen := by simp [hgone index run hrun, PlayerRun.Phase.isOpen] at hopen
  ended _ _ index run hrun := Or.inr (hgone index run hrun)

/-- A thread is made when all others are gone. -/
theorem spawn (h : now.Orderly) (hrunning : now.running = true) (hfree : now.handle = none)
    {run : PlayerRun} (hopen : run.phase.isOpen = true) {answers : List OwnerAnswer} :
    Orderly { now with
      runs := now.runs ++ [run], handle := some now.runs.length, call := .idle, answers } := by
  have hcases : ∀ (index : Nat) (other : PlayerRun), (now.runs ++ [run])[index]? = some other →
      index = now.runs.length ∧ other = run ∨ other.phase = .gone := by
    intro index other hother
    by_cases hindex : index < now.runs.length
    · rw [List.getElem?_append_left hindex] at hother
      exact Or.inr (h.gone_of_free hfree hother)
    · rw [List.getElem?_append_right (Nat.le_of_not_lt hindex), List.getElem?_singleton] at hother
      split at hother
      · exact Or.inl ⟨by omega, (Option.some.inj hother).symm⟩
      · cases hother
  refine ⟨?_, ?_, by simp [OwnerPhase.hasJoined], by simp [OwnerPhase.flag?], ?_, ?_, ?_⟩
  · intro index other hother halive
    obtain ⟨rfl, -⟩ | hgone := hcases index other hother
    · rfl
    · exact absurd hgone halive
  · intro index hindex
    simp at hindex
    simp [hindex]
  · intro index other hother hleaving
    obtain ⟨-, rfl⟩ | hgone := hcases index other hother
    · simp [hleaving, PlayerRun.Phase.isOpen] at hopen
    · simp [hgone] at hleaving
  · simp [hrunning]
  · simp [hrunning]

theorem clear (h : now.Orderly) :
    Orderly { now with running := false, runs := now.runs.map (·.halt), call := .stopping } := by
  have hbefore : ∀ (index : Nat) (later : PlayerRun),
      (now.runs.map (·.halt))[index]? = some later →
      ∃ run, now.runs[index]? = some run ∧ run.halt = later := by
    intro index later hlater
    rw [List.getElem?_map] at hlater
    exact Option.map_eq_some_iff.mp hlater
  refine ⟨?_, ?_, by simp [OwnerPhase.hasJoined], by simp [OwnerPhase.flag?], ?_, ?_, by simp⟩
  · intro index later hlater halive
    obtain ⟨run, hrun, rfl⟩ := hbefore index later hlater
    exact h.held index run hrun (by rwa [PlayerRun.halt_phase] at halive)
  · intro index hindex
    rw [List.length_map]
    exact h.latest index hindex
  · intro _ _ _ _
    rfl
  · intro _ index later hlater hopen
    obtain ⟨run, -, rfl⟩ := hbefore index later hlater
    rw [PlayerRun.halt_phase] at hopen
    rw [PlayerRun.halt, if_pos hopen]

theorem thread (h : now.Orderly) {index : Nat} {run : PlayerRun}
    (hrun : now.runs[index]? = some run) (halive : run.phase ≠ .gone) :
    Orderly { now with
      running := run.phase.flag now.running, runs := now.runs.set index (run.step now.running) } := by
  have hhandle := h.held index run hrun halive
  have hindex := (List.getElem?_eq_some_iff.mp hrun).1
  -- The others are gone, so all that is new is this thread.
  have hcases : ∀ (other : Nat) (second : PlayerRun), (now.runs.set index (run.step now.running))[other]? = some second →
      other = index ∧ second = run.step now.running ∨ second.phase = .gone := by
    intro other second hsecond
    by_cases hother : index = other
    · subst hother
      rw [List.getElem?_set_self hindex] at hsecond
      exact Or.inl ⟨rfl, (Option.some.inj hsecond).symm⟩
    · rw [List.getElem?_set_ne hother] at hsecond
      exact Or.inr (h.gone_of_ne hrun halive (fun heq => hother heq.symm) hsecond)
  have hflag : now.running = false → run.phase.flag now.running = false := by
    intro hclear
    rw [hclear]
    exact run.phase.flag_false
  refine ⟨?_, ?_, h.free, ?_, ?_, ?_, ?_⟩
  · intro other second hsecond hphase
    obtain ⟨rfl, -⟩ | hgone := hcases other second hsecond
    · exact hhandle
    · exact absurd hgone hphase
  · intro other hother
    rw [List.length_set]
    exact h.latest other hother
  · intro flag hknown
    have hrunning := h.known flag hknown
    cases flag with
    | false => exact hflag hrunning
    | true =>
      -- A call that has set the flag has waited for all threads, and this one is alive.
      have hjoined : now.call.hasJoined = true := OwnerPhase.hasJoined_of_flag? hknown
      simp [h.free hjoined] at hhandle
  · intro other second hsecond hleaving
    obtain ⟨-, rfl⟩ | hgone := hcases other second hsecond
    · rw [PlayerRun.Phase.eq_clearing hleaving]
      rfl
    · simp [hgone] at hleaving
  · intro hclear other second hsecond hopen
    obtain ⟨-, rfl⟩ | hgone := hcases other second hsecond
    · have hbefore : run.phase.isOpen = true := PlayerRun.Phase.isOpen_of_next hopen
      have hphase : run.phase ≠ .clearing := fun heq => by simp [heq, PlayerRun.Phase.isOpen] at hbefore
      have hrunning : now.running = false := (PlayerRun.Phase.flag_eq hphase _).symm.trans hclear
      exact h.halted hrunning index run hrun hbefore
    · simp [hgone, PlayerRun.Phase.isOpen] at hopen
  · intro hclear hcall other second hsecond
    obtain ⟨-, rfl⟩ | hgone := hcases other second hsecond
    · by_cases hphase : run.phase = .clearing
      · left
        simp [PlayerRun.step, hphase, PlayerRun.Phase.next]
      · right
        have hrunning : now.running = false := (PlayerRun.Phase.flag_eq hphase _).symm.trans hclear
        obtain hleaving | hgone := h.ended hrunning hcall index run hrun
        · simp [PlayerRun.step, hleaving, PlayerRun.Phase.next]
        · exact absurd hgone halive
    · exact Or.inr hgone

theorem moves (h : now.Orderly) (hmoves : now.Moves player turn next) : next.Orderly := by
  cases hmoves with
  | idle => exact h
  | start call hcall | stop hcall | refuse call hcall | fail call error hcall =>
    exact h.goesOn (by simp [OwnerPhase.hasJoined]) (by simp [OwnerPhase.flag?]) (by simp [hcall])
  | check call hcall hflag =>
    exact h.goesOn (by simp [OwnerPhase.hasJoined]) (by simp [OwnerPhase.flag?, hflag])
      (by simp [hcall])
  | join call hcall hjoined =>
    have hflag := h.known false (by rw [hcall]; rfl)
    exact ofGone rfl (fun _ _ hrun => h.gone_of_joined hjoined hrun)
      (by simp [OwnerPhase.flag?, hflag])
  | read call recording hcall =>
    have hflag := h.known false (by rw [hcall]; rfl)
    exact h.goesOn (fun _ => h.free (by rw [hcall]; rfl)) (by simp [OwnerPhase.flag?, hflag])
      (by simp [hcall])
  | set call playing hcall =>
    have hfree := h.free (by rw [hcall]; rfl)
    exact ofGone hfree (fun _ _ hrun => h.gone_of_free hfree hrun) (by simp [OwnerPhase.flag?])
  | spawn call playing hcall =>
    exact h.spawn (h.known true (by rw [hcall]; rfl)) (h.free (by rw [hcall]; rfl)) rfl
  | giveUp call playing error hcall =>
    have hflag := h.known true (by rw [hcall]; rfl)
    exact h.goesOn (fun _ => h.free (by rw [hcall]; rfl)) (by simp [OwnerPhase.flag?, hflag])
      (by simp [hcall])
  | retract error hcall =>
    have hfree := h.free (by rw [hcall]; rfl)
    exact ofGone hfree (fun _ _ hrun => h.gone_of_free hfree hrun) (by simp [OwnerPhase.flag?])
  | clear hcall => exact h.clear
  | finish hcall hjoined =>
    exact ofGone rfl (fun _ _ hrun => h.gone_of_joined hjoined hrun) (by simp [OwnerPhase.flag?])
  | thread index run hrun hphase => exact h.thread hrun hphase

/-- The flag that the step of a thread clears is the one that the start of its own run has set. -/
theorem own_flag (h : now.Orderly) {index : Nat} (hset : now.running = true)
    (hcleared : (now.turn player (.thread index)).running = false) :
    index + 1 = now.runs.length ∧ now.call.hasJoined = false := by
  have hmoves := turn_moves player now (.thread index)
  generalize now.turn player (.thread index) = next at hmoves hcleared
  cases hmoves with
  | idle => simp [hset] at hcleared
  | thread index run hrun halive =>
    have hhandle := h.held index run hrun halive
    refine ⟨h.latest index hhandle, Bool.eq_false_iff.mpr fun hjoined => ?_⟩
    simp [h.free hjoined] at hhandle

end Orderly

/-! ## Every run keeps to its recording -/

/-- The run that a start is about to begin. -/
def begun? (now : PlayerUse) : Option PlayerRun :=
  match now.call with
  | .setting call playing | .spawning call playing => some { call, phase := .looking playing }
  | .idle | .checking _ | .joining _ | .reading _ | .retracting _ | .clearing | .stopping => none

/-- All runs do what their recordings ask for, and there are as many as starts that succeeded. -/
structure Sound (now : PlayerUse) : Prop where
  runs : ∀ run ∈ now.runs ++ now.begun?.toList, run.OnCourse
  successes : now.runs.length = now.answers.count .started

theorem sound_fresh : Sound {} where
  runs := by simp [begun?]
  successes := rfl

namespace Sound

variable {player : Player} {now next : PlayerUse} {turn : Turn}

/-- A start hands a thread all frames of the recording. -/
theorem onCourse_begun (hpaced : player.paced = false) {call : StartCall} {recording : Bytes}
    (hread : call.recording = .ok recording) :
    PlayerRun.OnCourse {
      call
      phase := .looking { player with
        running := true
        worker := some {
          frames := dueFrames recording call.format.interval, callback := call.callback } } } := by
  refine ⟨recording, hread, .looking ⟨rfl, hpaced, rfl, rfl, rfl, ?_, ?_⟩⟩
  · exact (call.owed_eq recording).symm
  · intro n _ hzero
    exact Nat.pos_of_ne_zero hzero

theorem moves (hpaced : player.paced = false) (h : now.Sound) (horderly : now.Orderly)
    (hmoves : now.Moves player turn next) : next.Sound := by
  have hruns : ∀ run ∈ now.runs, run.OnCourse := fun run hrun =>
    h.runs run (List.mem_append_left _ hrun)
  cases hmoves with
  | idle => exact h
  | start | stop | check | join | giveUp => exact ⟨by simpa [begun?] using hruns, h.successes⟩
  | refuse | fail | retract | finish =>
    exact ⟨by simpa [begun?, answer] using hruns, by simp [answer, h.successes]⟩
  | read call recording hcall hread =>
    refine ⟨?_, h.successes⟩
    intro run hrun
    rcases List.mem_append.mp hrun with hold | hnew
    · exact hruns run hold
    · rw [List.mem_singleton.mp hnew]
      exact onCourse_begun hpaced hread
  | set call playing hcall =>
    have hbegun : now.begun? = some { call, phase := .looking playing } := by rw [begun?, hcall]
    have hall := h.runs
    rw [hbegun] at hall
    exact ⟨hall, h.successes⟩
  | spawn call playing hcall =>
    have hbegun : now.begun? = some { call, phase := .looking playing } := by rw [begun?, hcall]
    have hall := h.runs
    rw [hbegun] at hall
    exact ⟨by simpa [begun?, answer] using hall, by simp [answer, h.successes]⟩
  | clear hcall =>
    refine ⟨?_, by simp [h.successes]⟩
    intro later hlater
    simp only [begun?, Option.toList_none, List.append_nil, List.mem_map] at hlater
    obtain ⟨run, hrun, rfl⟩ := hlater
    exact (hruns run hrun).halt
  | thread index run hrun hphase =>
    refine ⟨?_, by simp [h.successes]⟩
    have hstep : (run.step now.running).OnCourse := by
      refine (hruns run (List.mem_of_getElem? hrun)).step fun hflag hopen => ?_
      exact horderly.halted hflag index run hrun hopen
    intro later hlater
    rcases List.mem_append.mp hlater with hold | hnew
    · rcases List.mem_or_eq_of_mem_set hold with hsame | rfl
      · exact hruns later hsame
      · exact hstep
    · exact h.runs later (List.mem_append_right _ hnew)

end Sound

/-! ## At all times -/

variable {player : Player}

theorem orderly_turns {now : PlayerUse} (h : now.Orderly) (order : List Turn) :
    (now.turns player order).Orderly := by
  induction order generalizing now with
  | nil => exact h
  | cons turn order ih => exact ih (h.moves (turn_moves player now turn))

theorem sound_turns (hpaced : player.paced = false) {now : PlayerUse} (horderly : now.Orderly)
    (h : now.Sound) (order : List Turn) : (now.turns player order).Sound := by
  induction order generalizing now with
  | nil => exact h
  | cons turn order ih =>
    have hmoves := turn_moves player now turn
    exact ih (horderly.moves hmoves) (h.moves hpaced horderly hmoves)

end PlayerUse

end CamStream
