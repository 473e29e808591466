import CamStream.Proofs.Queue.Traffic

/-!
# The end of the stream

A pop fails as closed if it finds the queue empty when all producers have gone. It learns of the two at
different moments: first no unit comes for a while, then the producers are counted, and then it looks
once more. A unit may come in between, but no push is under way when no producer is left, so what the
last look does not find is not to come.

* `FrameQueue.PopDecided`: what a pop does, in the order in which it is decided.
* `Traffic.Ending`: the invariant of a pop while no producer is created. Once it looks for the last
  time, there is no producer; once it has failed as closed, there is nothing in the channel either.
* `end_of_stream_exact`: the decision in every state, and what a pop that fails as closed has left.
-/

namespace CamStream

namespace FrameQueue

/-- A pop that begins now and is alone with the queue comes to this end. -/
def PopEnds (queue after : FrameQueue) (phase : PopPhase) : Prop :=
  ∃ steps, queue.popAlone steps .looking = (after, phase)

/-- What a pop does where so many producers are left. -/
structure PopDecided (queue : FrameQueue) (live : Nat) : Prop where
  flushing : queue.flushing = true →
    queue.pop = .failed .flushing ∧ queue.PopEnds queue (.failed .flushing)
  notStarted : queue.flushing = false → queue.streaming = false →
    queue.pop = .failed .notStarted ∧ queue.PopEnds queue (.failed .notStarted)
  unit : queue.flushing = false → queue.streaming = true →
    ∀ unit backlog, queue.backlog = unit :: backlog →
      queue.pop = .unit unit { queue with backlog } ∧
        queue.PopEnds { queue with backlog } (.got unit)
  closed : queue.flushing = false → queue.streaming = true → queue.backlog = [] → live = 0 →
    queue.pop = .failed .closed ∧ queue.PopEnds queue (.failed .closed)
  waits : queue.flushing = false → queue.streaming = true → queue.backlog = [] → live ≠ 0 →
    queue.pop = .waits ∧
      ∀ steps, ∃ phase, queue.popAlone steps .looking = (queue, phase) ∧ phase.isOver = false

theorem popEnds_of_pop (queue : FrameQueue) {outcome : PopOutcome} (hpop : queue.pop = outcome) :
    queue.PopEnds (queue.endOfPop outcome).1 (queue.endOfPop outcome).2 := by
  obtain ⟨steps, -, halone⟩ := queue.exists_popAlone
  rw [hpop] at halone
  exact ⟨steps, halone⟩

theorem popDecided (queue : FrameQueue) : queue.PopDecided queue.producers where
  flushing hflushing := by
    have hpop : queue.pop = .failed .flushing := by simp [pop, hflushing]
    exact ⟨hpop, queue.popEnds_of_pop hpop⟩
  notStarted hcalm hclosed := by
    have hpop : queue.pop = .failed .notStarted := by simp [pop, hcalm, hclosed]
    exact ⟨hpop, queue.popEnds_of_pop hpop⟩
  unit hcalm hopen unit backlog hbacklog := by
    have hpop : queue.pop = .unit unit { queue with backlog } := by
      simp [pop, hcalm, hopen, receive?, hbacklog]
    exact ⟨hpop, queue.popEnds_of_pop hpop⟩
  closed hcalm hopen hempty hgone := by
    have hpop : queue.pop = .failed .closed := by
      simp [pop, hcalm, hopen, receive?, hempty, hgone]
    exact ⟨hpop, queue.popEnds_of_pop hpop⟩
  waits hcalm hopen hempty hlive := by
    have hpop : queue.pop = .waits := by simp [pop, hcalm, hopen, receive?, hempty, hlive]
    exact ⟨hpop, fun steps => popAlone_waits hcalm hopen hempty hlive steps (Or.inl rfl)⟩

end FrameQueue

namespace Traffic

variable {now next : Traffic} {turn : Turn}

/-- Without producers nothing comes into the channel, unless a producer is created. -/
theorem Moves.producers_nil (hmoves : now.Moves turn next) (hturn : turn ≠ .create)
    (hgone : now.producers = []) :
    next.producers = [] ∧ (now.queue.backlog = [] → next.queue.backlog = []) := by
  have hnone : ∀ {index : Nat} {push? : Option (AccessUnit × PushPhase)},
      now.producers[index]? ≠ some push? := by simp [hgone]
  cases hmoves with
  | create => exact absurd rfl hturn
  | drop index hidle | hand index unit hidle => exact absurd hidle hnone
  | goOn index unit _ _ hpush _ | giveUp index unit _ hpush | send index unit hpush
  | evict index unit _ _ hpush _ => exact absurd hpush hnone
  | get unit backlog hbacklog | tryPop unit backlog hbacklog | discard unit backlog hbacklog =>
    refine ⟨hgone, fun hempty => ?_⟩
    rw [hempty] at hbacklog
    cases hbacklog
  | idle | look | popOn | start | setFlushing | close | stopped => exact ⟨hgone, id⟩

/-- How far a pop has come to the end of the stream. -/
structure Ending (now : Traffic) : Prop where
  lastLook : now.popping = some .lastLook → now.producers = []
  closed : now.popping = some (.failed .closed) → now.producers = [] ∧ now.queue.backlog = []

/-- Only the pop itself moves on. -/
theorem Moves.popping (hmoves : now.Moves turn next) :
    next.popping = now.popping ∨ turn = .look ∨ turn = .pop := by
  cases hmoves with
  | look => exact Or.inr (Or.inl rfl)
  | popOn | get => exact Or.inr (Or.inr rfl)
  | idle | create | drop | hand | goOn | giveUp | send | evict | tryPop | start | setFlushing | close
  | discard | stopped => exact Or.inl rfl

/-- A step that leaves the pop where it is. -/
theorem Ending.elsewhere (h : now.Ending) (hmoves : now.Moves turn next) (hturn : turn ≠ .create)
    (hpopping : next.popping = now.popping) : next.Ending := by
  refine ⟨fun hlast => ?_, fun hclosed => ?_⟩
  · rw [hpopping] at hlast
    exact (hmoves.producers_nil hturn (h.lastLook hlast)).1
  · rw [hpopping] at hclosed
    obtain ⟨hgone, hempty⟩ := h.closed hclosed
    obtain ⟨hgone, hstays⟩ := hmoves.producers_nil hturn hgone
    exact ⟨hgone, hstays hempty⟩

theorem Ending.moves (h : now.Ending) (hsound : now.Sound) (hmoves : now.Moves turn next)
    (hturn : turn ≠ .create) : next.Ending := by
  rcases hmoves.popping with hpopping | rfl | rfl
  · exact h.elsewhere hmoves hturn hpopping
  · cases hmoves with
    | idle => exact h
    | look => exact ⟨by simp, by simp⟩
  · cases hmoves with
    | idle => exact h
    | get unit backlog hbacklog => exact ⟨by simp, by simp⟩
    | popOn phase other hpop hlast hclosed =>
      refine ⟨fun heq => ?_, fun heq => ?_⟩
      · have hnone := hlast (Option.some.inj heq)
        rw [hsound.counted] at hnone
        exact List.length_eq_zero_iff.mp hnone
      · obtain ⟨hphase, hempty⟩ := hclosed (Option.some.inj heq)
        rw [hphase] at hpop
        exact ⟨h.lastLook hpop, hempty⟩

theorem Ending.turns (h : now.Ending) (hsound : now.Sound) {order : List Turn}
    (hstill : .create ∉ order) : (now.turns order).Ending := by
  induction order generalizing now with
  | nil => exact h
  | cons turn order ih =>
    obtain ⟨hturn, horder⟩ := List.ne_and_not_mem_of_not_mem_cons hstill
    have hmoves := now.turn_moves turn
    exact ih (h.moves hsound hmoves (Ne.symm hturn)) (hsound.moves hmoves) horder

/-- A pop that begins has come nowhere near the end. -/
theorem ending_look (hover : now.popping.all (·.isOver) = true) : (now.turn .look).Ending := by
  have hnone : now.popping.any (!·.isOver) = false := by
    cases hpopping : now.popping <;> simp_all
  rw [Traffic.turn, hnone]
  exact ⟨by simp, by simp⟩

end Traffic

/-- **The end of the stream is exact.** Let producers be created, push and go, and let the queue be
started, flushed and stopped, in any order of their steps.

* A pop that begins is decided in this order: it fails on a queue that is flushing, it fails on one that
  is not started, it gives the oldest unit, it fails as closed if as many producers have gone as were
  created, and otherwise it waits.
* A pop during which no producer is created fails as closed only if all producers have gone and
  nothing is left in the channel: all that was ever put into it was delivered or evicted, unless a
  stop discarded it. -/
theorem end_of_stream_exact (capacity : Nat) (overflow : Overflow) (before : List Traffic.Turn) :
    let begun := (Traffic.fresh capacity overflow).turns before
    begun.dropped ≤ begun.created ∧
    begun.queue.PopDecided (begun.created - begun.dropped) ∧
    ∀ during, .create ∉ during → begun.popping.all (·.isOver) = true →
      let now := (begun.turn .look).turns during
      now.popping = some (.failed .closed) →
        now.producers = [] ∧ now.queue.backlog = [] ∧ now.sent = now.taken.map (·.1) ∧
        (.stop ∉ before ++ during → ∀ gone ∈ now.taken, gone.2 = .delivered ∨ gone.2 = .evicted) := by
  intro begun
  have hsound : begun.Sound := (Traffic.sound_fresh capacity overflow).turns before
  have hcreated := hsound.created
  have hlive : begun.created - begun.dropped = begun.queue.producers := by
    rw [hsound.counted]
    omega
  refine ⟨by omega, ?_, ?_⟩
  · rw [hlive]
    exact begun.queue.popDecided
  · intro during hstill hover now hclosed
    have hlooks : (begun.turn .look).Sound := hsound.moves (begun.turn_moves .look)
    have hnow : now.Sound := hlooks.turns during
    have hending : now.Ending := (Traffic.ending_look hover).turns hlooks hstill
    obtain ⟨hgone, hempty⟩ := hending.closed hclosed
    refine ⟨hgone, hempty, ?_, ?_⟩
    · rw [hnow.inOrder, hempty, List.append_nil]
    · intro hstop
      -- The whole run, from the new queue on.
      have hrun : now = (Traffic.fresh capacity overflow).turns (before ++ .look :: during) := by
        rw [Traffic.turns_append]
        rfl
      obtain ⟨more, htaken, hexits⟩ :=
        (Traffic.fresh capacity overflow).taken_turns (before ++ .look :: during)
      rw [← hrun] at htaken
      rw [htaken]
      exact hexits (by simpa using hstop)

/-- A producer is replaced, and its successor pushes a unit and goes while a pop is about to ask for
producers. That pop gets the unit, and the next one fails. -/
theorem end_of_stream_exact_last_moment :
    let unit : AccessUnit := { data := [1], timing := none, keyframe := false }
    let before : List Traffic.Turn :=
      [.create, .create, .drop 0, .start, .look, .pop, .pop, .hand 0 unit, .push 0, .push 0, .drop 0,
        .pop, .pop]
    let begun := (Traffic.fresh 1 .dropOldest).turns before
    let now := (begun.turn .look).turns [.pop, .pop, .pop, .pop]
    begun.popping = some (.got unit) ∧ now.popping = some (.failed .closed) ∧
      now.queue.backlog = [] ∧ now.sent = [unit] ∧ now.sent = now.taken.map (·.1) := by
  intro unit before
  obtain ⟨-, -, hclosed⟩ := end_of_stream_exact 1 .dropOldest before
  obtain ⟨-, hempty, htaken, -⟩ :=
    hclosed [.pop, .pop, .pop, .pop] (by decide) (by decide +kernel) (by decide +kernel)
  exact ⟨by decide +kernel, by decide +kernel, hempty, by decide +kernel, htaken⟩

end CamStream
