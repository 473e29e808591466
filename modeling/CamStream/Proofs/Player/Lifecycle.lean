import CamStream.Proofs.Player.Runs

/-!
# The life of a player

Starts and stops of one player come to what one expects of them, for every order of the steps of its
owner and its threads, and every call returns.

* `PlayerUse.answers_turns`: a call returns when the thread that it waits for is given its time.
* `PlayerUse.Lifecycle`: what one expects.
* `player_lifecycle`: it is so.
-/

namespace CamStream

/-! ## Every call returns -/

namespace PlayerRun

variable {run : PlayerRun} {recording : Bytes}

/-- A thread makes three steps for a frame, and three at the end. -/
theorem Stands.distance_le {phase : Phase} (h : run.Stands recording phase) :
    phase.distance ≤ 3 * (splitFrames recording).length + 4 := by
  have hahead : ∀ {playing worker}, run.Ahead recording playing worker →
      playing.remaining ≤ (splitFrames recording).length := by
    intro playing worker h
    have hlength := congrArg List.length h.frames
    rw [List.length_append, List.length_map, run.call.length_owed] at hlength
    rw [h.remaining]
    omega
  cases h with
  | looking h | calling h =>
    have hle := hahead h
    simp only [Phase.distance]
    omega
  | called h =>
    have hle := hahead h
    simp only [Phase.distance, h.working, Option.isSome_some, if_true]
    omega
  | failed hworker => simp [Phase.distance, hworker]
  | @closed phase hclosed =>
    cases phase with
    | clearing | leaving | gone => simp [Phase.distance]
    | looking | calling | called => cases hclosed

end PlayerRun

/-- How many steps a call has still to make, at most. -/
def OwnerPhase.distance : OwnerPhase → Nat
  | idle => 0
  | checking _ => 6
  | joining _ => 5
  | reading _ => 4
  | setting _ _ => 3
  | spawning _ _ => 2
  | retracting _ => 1
  | clearing => 2
  | stopping => 1

namespace OwnerPhase

variable {call : OwnerPhase}

theorem distance_le (call : OwnerPhase) : call.distance ≤ 6 := by
  cases call <;> simp [distance]

theorem eq_idle (h : call.distance = 0) : call = idle := by
  cases call with
  | idle => rfl
  | checking | joining | reading | setting | spawning | retracting | clearing | stopping =>
    simp [distance] at h

end OwnerPhase

namespace PlayerUse

variable {player : Player} {now next : PlayerUse} {turn : Turn}

theorem turns_append (now : PlayerUse) (order more : List Turn) :
    now.turns player (order ++ more) = (now.turns player order).turns player more :=
  List.foldl_append

/-- A call under way returns, or it is still under way and has made no thread. When all threads are gone,
each of its own steps takes it further. -/
theorem Moves.underWay (hmoves : now.Moves player turn next) (hcall : now.call ≠ .idle) :
    now.answers.length < next.answers.length ∨
      next.call ≠ .idle ∧ next.runs.length = now.runs.length ∧ next.answers = now.answers ∧
        (now.joined = true → next.call.distance ≤ now.call.distance - [turn].count .owner) := by
  cases hmoves with
  | idle turn howner =>
    refine Or.inr ⟨hcall, rfl, rfl, fun hjoined => ?_⟩
    by_cases hturn : turn = .owner
    · rcases howner hturn with hidle | hwaits
      · exact absurd hidle hcall
      · simp [hjoined] at hwaits
    · rw [List.count_singleton, if_neg (by simpa using hturn)]
      exact Nat.le_refl _
  | start call hidle | stop hidle => exact absurd hidle hcall
  | refuse | fail | spawn | retract | finish => exact Or.inl (by simp [answer])
  | check call hcall | join call hcall | read call recording hcall | set call playing hcall
  | giveUp call playing error hcall =>
    exact Or.inr ⟨by simp, rfl, rfl, fun _ => by simp [hcall, OwnerPhase.distance]⟩
  | clear hcall =>
    exact Or.inr ⟨by simp, by simp, rfl, fun _ => by simp [hcall, OwnerPhase.distance]⟩
  | thread => exact Or.inr ⟨hcall, by simp, rfl, fun _ => by simp⟩

theorem Moves.answers_le (hmoves : now.Moves player turn next) :
    now.answers.length ≤ next.answers.length := by
  cases hmoves with
  | idle | start | stop | check | join | read | set | giveUp | clear | thread => exact Nat.le_refl _
  | refuse | fail | spawn | retract | finish => simp [answer]

theorem answers_le_turns (now : PlayerUse) (order : List Turn) :
    now.answers.length ≤ (now.turns player order).answers.length := by
  induction order generalizing now with
  | nil => exact Nat.le_refl _
  | cons turn order ih =>
    exact Nat.le_trans (turn_moves player now turn).answers_le (ih (now.turn player turn))

theorem underWay_turns (player : Player) (hcall : now.call ≠ .idle) (order : List Turn) :
    now.answers.length < (now.turns player order).answers.length ∨
      (now.turns player order).call ≠ .idle ∧
        (now.turns player order).runs.length = now.runs.length ∧
        (now.turns player order).answers = now.answers := by
  induction order generalizing now with
  | nil => exact Or.inr ⟨hcall, rfl, rfl⟩
  | cons turn order ih =>
    obtain hless | ⟨hnext, hruns, hanswers, -⟩ := (turn_moves player now turn).underWay hcall
    · exact Or.inl (Nat.lt_of_lt_of_le hless (answers_le_turns _ order))
    · have hrest := ih hnext
      rwa [hruns, hanswers] at hrest

theorem joined_of_gone (h : ∀ run ∈ now.runs, run.phase = .gone) : now.joined = true := by
  unfold joined
  split
  · rename_i run hrun
    obtain ⟨index, -, hindex⟩ := Option.bind_eq_some_iff.mp hrun
    simp [h run (List.mem_of_getElem? hindex)]
  · rfl

/-- A call returns when no thread is alive. -/
theorem answers_turns_of_gone (hcall : now.call ≠ .idle) (hgone : ∀ run ∈ now.runs, run.phase = .gone)
    {order : List Turn} (horder : now.call.distance ≤ order.count .owner) :
    now.answers.length < (now.turns player order).answers.length := by
  induction order generalizing now with
  | nil => exact absurd (OwnerPhase.eq_idle (Nat.le_zero.mp horder)) hcall
  | cons turn order ih =>
    have hprefix : now.runs <+: (now.turn player turn).runs :=
      runs_turns_of_gone player [turn] hgone
    obtain hless | ⟨hnext, hruns, hanswers, hdistance⟩ := (turn_moves player now turn).underWay hcall
    · exact Nat.lt_of_lt_of_le hless (answers_le_turns _ order)
    · have hsame : now.runs = (now.turn player turn).runs := hprefix.eq_of_length hruns.symm
      have hcount : (turn :: order).count Turn.owner = [turn].count .owner + order.count .owner := by
        rw [← List.count_append, List.singleton_append]
      have hrest := hdistance (joined_of_gone hgone)
      have hlast := ih hnext (by rwa [← hsame]) (by omega)
      rwa [hanswers] at hlast

/-- A call returns when the thread that is alive has been given the time to come to its end, and then the
call itself. -/
theorem answers_turns (hcall : now.call ≠ .idle) {more rest : List Turn}
    (hmore : ∀ (index : Nat) (run : PlayerRun), now.runs[index]? = some run →
      run.phase.distance ≤ more.count (.thread index))
    (hrest : 6 ≤ rest.count .owner) :
    now.answers.length < (now.turns player (more ++ rest)).answers.length := by
  rw [turns_append]
  obtain hless | ⟨hlast, hruns, hanswers⟩ := underWay_turns player hcall more
  · exact Nat.lt_of_lt_of_le hless (answers_le_turns _ rest)
  · -- No run was begun, so the threads are those that were there, and they have come to their ends.
    rw [← hanswers]
    refine answers_turns_of_gone hlast ?_ (Nat.le_trans (OwnerPhase.distance_le _) hrest)
    intro last hmem
    obtain ⟨index, hindex⟩ := List.mem_iff_getElem?.mp hmem
    have hbefore : index < now.runs.length := by
      rw [← hruns]
      exact (List.getElem?_eq_some_iff.mp hindex).1
    have hrun := List.getElem?_eq_getElem hbefore
    obtain ⟨later, hlater, -, hdistance⟩ := exists_run_turns player more hrun
    rw [hindex] at hlater
    cases hlater
    have henough := hmore index _ hrun
    exact PlayerRun.Phase.eq_gone (by omega)

/-! ## Starts and stops -/

/-- What one expects of a player in use. -/
structure Lifecycle (player : Player) (now : PlayerUse) : Prop where
  /-- At most one thread is alive. -/
  alive : ∀ (index other : Nat) (first second : PlayerRun), now.runs[index]? = some first →
    now.runs[other]? = some second → first.phase ≠ .gone → second.phase ≠ .gone → index = other
  /-- A start that finds the flag set fails, and nothing else changes. -/
  streaming : ∀ call, now.call = .checking call → now.running = true →
    now.turn player .owner = now.answer (.refused .alreadyStreaming)
  /-- A start that cannot read its file fails, and nothing else changes. By then no thread is alive, and the
  flag is clear. -/
  unreadable : ∀ call error, now.call = .reading call → call.recording = .error error →
    now.turn player .owner = now.answer (.refused (.unreadable error)) ∧
      now.running = false ∧ ∀ run ∈ now.runs, run.phase = .gone
  successes : now.runs.length = now.answers.count .started
  /-- A run invokes its own callback with the first frames of its recording, in order, each stamped with
  the time at which it is due. It goes on to the last one unless a stop comes first or an invocation
  fails, which is the last one then. -/
  runs : ∀ run ∈ now.runs, ∃ recording, run.call.recording = .ok recording ∧
    run.invocations <+: run.call.owed recording ∧
    (∀ n, run.call.callback.failsAt = some n → n ≠ 0 → run.invocations.length ≤ n) ∧
    (run.phase = .gone → run.stopped = false → ¬ run.Failed →
      run.invocations = run.call.owed recording)
  /-- A thread comes to its end when it is given the time, whatever happens in between. -/
  ends : ∀ (index : Nat) (run : PlayerRun) (recording : Bytes), now.runs[index]? = some run →
    run.call.recording = .ok recording → ∀ more : List Turn,
    3 * (splitFrames recording).length + 4 ≤ more.count (.thread index) →
    ∃ last, (now.turns player more).runs[index]? = some last ∧ last.call = run.call ∧
      last.phase = .gone
  /-- When a stop returns, the flag is clear and no thread is alive, and the runs remain what they are. -/
  stopped : now.call = .stopping → (now.turn player .owner).call = .idle →
    (now.turn player .owner).running = false ∧
      (∀ run ∈ (now.turn player .owner).runs, run.phase = .gone) ∧
      ∀ more, (now.turn player .owner).runs <+: ((now.turn player .owner).turns player more).runs
  /-- A thread clears the flag for its own run only: there is no later run, and no start that is about to
  begin one. -/
  own_flag : ∀ index, now.running = true → (now.turn player (.thread index)).running = false →
    index + 1 = now.runs.length ∧ now.call.hasJoined = false
  /-- While a run goes on, the flag is set, unless a stop has come. -/
  running : ∀ run ∈ now.runs, run.phase.isOpen = true → run.stopped = false → now.running = true
  /-- Every call returns: first the threads come to their ends, then the call. -/
  returns : now.call ≠ .idle → ∀ more rest : List Turn,
    (∀ (index : Nat) (run : PlayerRun) (recording : Bytes), now.runs[index]? = some run →
      run.call.recording = .ok recording →
      3 * (splitFrames recording).length + 4 ≤ more.count (.thread index)) →
    6 ≤ rest.count .owner → now.answers.length < (now.turns player (more ++ rest)).answers.length

end PlayerUse

/-- **The life of a player.** For every order of the steps of its owner, which starts and stops it, and of
the threads of its runs, a player without pacing does what one expects of it: there is never more than one
thread; a start while the flag is set, and a start whose file cannot be read, fail and disturb nothing; each
run invokes its own callback with the frames of its recording in order, up to the last one unless a stop
comes first or the callback fails; after a stop no callback is invoked again; and no thread clears the flag
of a later run. -/
theorem player_lifecycle (player : Player) (hpaced : player.paced = false)
    (order : List PlayerUse.Turn) :
    (PlayerUse.turns player {} order).Lifecycle player := by
  have horderly : (PlayerUse.turns player {} order).Orderly :=
    PlayerUse.orderly_turns PlayerUse.orderly_fresh order
  have hsound : (PlayerUse.turns player {} order).Sound :=
    PlayerUse.sound_turns hpaced PlayerUse.orderly_fresh PlayerUse.sound_fresh order
  generalize PlayerUse.turns player {} order = now at horderly hsound
  have hdistance : ∀ (index : Nat) (run : PlayerRun) (recording : Bytes),
      now.runs[index]? = some run → run.call.recording = .ok recording →
      run.phase.distance ≤ 3 * (splitFrames recording).length + 4 := by
    intro index run recording hrun hread
    obtain ⟨other, hother, hstands⟩ :=
      hsound.runs run (List.mem_append_left _ (List.mem_of_getElem? hrun))
    rw [hread] at hother
    cases hother
    exact hstands.distance_le
  exact {
    alive := by
      intro index other first second hfirst hsecond halive halive'
      have hboth := (horderly.held index first hfirst halive).symm.trans
        (horderly.held other second hsecond halive')
      exact Option.some.inj hboth
    streaming := by
      intro call hcall hflag
      simp [PlayerUse.turn, PlayerUse.stepOwner, hcall, hflag]
    unreadable := by
      intro call error hcall hread
      have hfree := horderly.free (by rw [hcall]; rfl)
      refine ⟨?_, horderly.known false (by rw [hcall]; rfl), fun run hrun => ?_⟩
      · simp [PlayerUse.turn, PlayerUse.stepOwner, Player.start, hcall, hread]
      · obtain ⟨index, hindex⟩ := List.mem_iff_getElem?.mp hrun
        exact horderly.gone_of_free hfree hindex
    successes := hsound.successes
    runs := by
      intro run hrun
      obtain ⟨recording, hread, hstands⟩ := hsound.runs run (List.mem_append_left _ hrun)
      refine ⟨recording, hread, hstands.inOrder.invoked, hstands.inOrder.failing, fun hgone => ?_⟩
      rw [hgone] at hstands
      cases hstands with
      | closed hclosed horder hwhole => exact hwhole
    ends := by
      intro index run recording hrun hread more hmore
      obtain ⟨last, hlast, hcall, hle⟩ := PlayerUse.exists_run_turns player more hrun
      have hbound := hdistance index run recording hrun hread
      exact ⟨last, hlast, hcall, PlayerRun.Phase.eq_gone (by omega)⟩
    stopped := by
      intro hcall hidle
      have hstep : now.turn player .owner =
          if now.joined then ({ now with handle := none } : PlayerUse).answer .stopped else now := by
        simp only [PlayerUse.turn, PlayerUse.stepOwner, hcall]
      rw [hstep] at hidle ⊢
      split at hidle
      · rename_i hjoined
        have hgone : ∀ run ∈ now.runs, run.phase = .gone := by
          intro run hrun
          obtain ⟨index, hindex⟩ := List.mem_iff_getElem?.mp hrun
          exact horderly.gone_of_joined hjoined hindex
        rw [if_pos hjoined]
        exact ⟨horderly.known false (by rw [hcall]; rfl), hgone,
          fun more => PlayerUse.runs_turns_of_gone player more hgone⟩
      · simp [hcall] at hidle
    own_flag := fun index hset hcleared => horderly.own_flag hset hcleared
    running := by
      intro run hrun hopen hstopped
      obtain ⟨index, hindex⟩ := List.mem_iff_getElem?.mp hrun
      by_contra hclear
      have hhalted := horderly.halted (Bool.eq_false_iff.mpr hclear) index run hindex hopen
      simp [hstopped] at hhalted
    returns := by
      intro hcall more rest hmore hrest
      refine PlayerUse.answers_turns hcall (fun index run hrun => ?_) hrest
      obtain ⟨recording, hread, -⟩ :=
        hsound.runs run (List.mem_append_left _ (List.mem_of_getElem? hrun))
      exact Nat.le_trans (hdistance index run recording hrun hread)
        (hmore index run recording hrun hread) }

/-- A start while the thread of the first run is yet to clear the flag, one that cannot read its file and
waits for that thread to leave, and a second run that a stop ends after its first frame. -/
theorem player_lifecycle_restarted :
    let player : Player := {
      path := ⟨"in.h264"⟩, device := "cam", paced := false
      capability := { width := 640, height := 480, rates := .discrete [30] } }
    let recording : Bytes := [0, 0, 0, 1, 0x65, 0x88, 0, 0, 0, 1, 0x41, 0x9A]
    let call : StartCall := {
      format := { width := 640, height := 480, framerate := 30 }, callback := {}
      recording := .ok recording }
    let missing : StartCall := { call with recording := .error .notFound }
    let order : List PlayerUse.Turn := List.flatten [
      .start call :: .replicate 5 .owner, .replicate 7 (.thread 0),
      [.start call, .owner, .thread 0],
      [.start missing, .owner, .owner, .thread 0, .owner, .owner],
      .start call :: .replicate 5 .owner, .replicate 2 (.thread 1),
      [.stop, .owner, .owner], .replicate 4 (.thread 1), [.owner]]
    let now := PlayerUse.turns player {} order
    player.paced = false ∧ now.Lifecycle player ∧
      now.answers = [.started, .refused .alreadyStreaming, .refused (.unreadable .notFound), .started,
        .stopped] ∧
      now.runs.map (·.invocations) = [call.owed recording, (call.owed recording).take 1] ∧
      (call.owed recording).map (·.2) = [{ data := [0, 0, 0, 1, 0x65, 0x88], timestamp := 0 },
        { data := [0, 0, 0, 1, 0x41, 0x9A], timestamp := 33333333 }] := by
  intro player recording call missing order now
  exact ⟨rfl, player_lifecycle player rfl order, by decide +kernel, by decide +kernel,
    by decide +kernel⟩

/-- A callback that fails ends its run before the last frame, though no stop has come, and leaves the flag
set. -/
theorem callback_fails :
    let player : Player := {
      path := ⟨"in.h264"⟩, device := "cam", paced := false
      capability := { width := 640, height := 480, rates := .discrete [30] } }
    let recording : Bytes := [0, 0, 0, 1, 0x65, 0x88, 0, 0, 0, 1, 0x41, 0x9A]
    let call : StartCall := {
      format := { width := 640, height := 480, framerate := 30 }, callback := { failsAt := some 1 }
      recording := .ok recording }
    let now := PlayerUse.turns player {}
      (.start call :: .replicate 5 .owner ++ .replicate 3 (.thread 0))
    now.answers = [.started] ∧ now.running = true ∧
      ∃ run ∈ now.runs, run.phase = .gone ∧ run.stopped = false ∧
        run.invocations = (call.owed recording).take 1 ∧
        run.invocations ≠ call.owed recording := by
  decide +kernel

end CamStream
