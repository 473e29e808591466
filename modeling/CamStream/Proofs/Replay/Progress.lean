import CamStream.Proofs.Replay.Steps

/-!
# Every replay ends

What there is still to do is counted: frames to take, writes to perform, and the ways that units have
yet to go. Steps that do none of it only bring the party to wait for closer to doing some, or belong to
a party that waits itself.

* `Playback.work`: what there is still to do. Nobody ever adds to it.
* `Playback.Step.progress`: what a step does to it.
* `Playback.progress`: the measure under which a replay comes to its end if everybody acts again and
  again.
-/

namespace CamStream

/-- The things that the thread does last. -/
def ThreadPhase.left : ThreadPhase → Nat
  | delivering _ _ => 2
  | leaving => 1
  | gone => 0

/-- The things that the consumer does last. -/
def ConsumerPhase.left : ConsumerPhase → Nat
  | popping (.failed _) => 2
  | popping _ => 3
  | stopping => 1
  | ended _ => 0

theorem ConsumerPhase.left_popping {pop : PopPhase} (h : pop.isOver = false) :
    (popping pop).left = 3 := by
  cases pop <;> first | rfl | cases h

namespace Playback

/-- What there is still to do. A unit has to be pushed, received and put into the outputs; a frame has
to be taken, and may give the worker one more write. -/
def work (now : Playback) : Nat :=
  2 * now.frames.length + now.jobs.length +
    3 * (now.thread.waiting.length + (now.session.unitsOf (now.frames.map .due)).length) +
    2 * now.queue.backlog.length + now.consumer.inHand.length + now.thread.left + now.consumer.left

/-- How many steps the party to wait for is away from doing some of it. -/
def distance (now : Playback) : Nat :=
  match now.helpful with
  | .thread =>
    match now.thread with
    | .delivering (_ :: _) push => pushDistance push
    | .delivering [] _ | .leaving | .gone => 0
  | .worker => 0
  | .consumer =>
    match now.consumer with
    | .popping pop => popDistance (now.queue.backlog ≠ []) pop
    | .stopping | .ended _ => 0

/-- Both together, the work first. -/
def measure (now : Playback) : Nat := 4 * now.work + now.distance

theorem pushDistance_lt (push : PushPhase) : pushDistance push < 4 := by
  cases push <;> decide

theorem popDistance_lt (something : Bool) (pop : PopPhase) : popDistance something pop < 4 := by
  cases something <;> cases pop <;> simp [popDistance]

theorem distance_lt (now : Playback) : now.distance < 4 := by
  unfold distance
  split
  · split
    · exact pushDistance_lt _
    · decide
    · decide
    · decide
  · decide
  · split
    · exact popDistance_lt _ _
    · decide
    · decide

section

variable {plan : ReplayPlan} {begun : FileSystem} {places : OutputPlaces} {frames : Nat}
  {units : List AccessUnit} {now next : Playback}

/-- A step does some of the work, or leaves it as it is; in this case the same party remains to be
waited for, and comes closer if the step was its own. -/
structure Nears (now next : Playback) (party : Party) : Prop where
  work : next.work = now.work
  helpful : next.helpful = now.helpful
  distance : next.distance ≤ now.distance
  closer : party = now.helpful → next.distance < now.distance

theorem nears_pushOn {unit : AccessUnit} {waiting : List AccessUnit} {push phase : PushPhase}
    (hthread : now.thread = .delivering (unit :: waiting) push)
    (hcloser : now.queue.backlog = [] → pushDistance phase < pushDistance push) :
    Nears now { now with thread := .delivering (unit :: waiting) phase } .thread := by
  have hhelpful : ({ now with thread := .delivering (unit :: waiting) phase } : Playback).helpful =
      now.helpful := by
    simp [helpful, hthread]
  have hwork : ({ now with thread := .delivering (unit :: waiting) phase } : Playback).work =
      now.work := by
    simp only [work, hthread, ThreadPhase.waiting, ThreadPhase.left]
  by_cases hempty : now.queue.backlog = []
  · -- There is room, so the push is the one to wait for.
    have hself : now.helpful = .thread := by simp [helpful, hempty, hthread]
    have hless : ({ now with thread := .delivering (unit :: waiting) phase } : Playback).distance <
        now.distance := by
      simp only [distance, hhelpful, hself, hthread]
      exact hcloser hempty
    exact ⟨hwork, hhelpful, Nat.le_of_lt hless, fun _ => hless⟩
  · have hother : now.helpful = .consumer := by simp [helpful, hempty]
    refine ⟨hwork, hhelpful, ?_, fun heq => ?_⟩
    · simp only [distance, hhelpful, hother, Nat.le_refl]
    · rw [hother] at heq
      cases heq

theorem nears_popOn {pop phase : PopPhase} (hconsumer : now.consumer = .popping pop)
    (hpop : pop.isOver = false) (hphase : phase.isOver = false)
    (hcloser : now.queue.backlog ≠ [] ∨ now.thread = .gone →
      popDistance (now.queue.backlog ≠ []) phase < popDistance (now.queue.backlog ≠ []) pop) :
    Nears now { now with consumer := .popping phase } .consumer := by
  have hwork : ({ now with consumer := .popping phase } : Playback).work = now.work := by
    simp only [work, hconsumer, ConsumerPhase.inHand_popping hpop, ConsumerPhase.left_popping hpop,
      ConsumerPhase.inHand_popping hphase, ConsumerPhase.left_popping hphase]
  have hhelpful : ({ now with consumer := .popping phase } : Playback).helpful = now.helpful := rfl
  by_cases hwaited : now.queue.backlog ≠ [] ∨ now.thread = .gone
  · have hself : now.helpful = .consumer := if_pos hwaited
    have hless : ({ now with consumer := .popping phase } : Playback).distance < now.distance := by
      simp only [distance, hhelpful, hself, hconsumer]
      exact hcloser hwaited
    exact ⟨hwork, hhelpful, Nat.le_of_lt hless, fun _ => hless⟩
  · have hother : now.helpful ≠ .consumer := by
      rw [helpful, if_neg hwaited]
      split <;> simp
    refine ⟨hwork, hhelpful, ?_, fun heq => absurd heq.symm hother⟩
    cases hparty : now.helpful with
    | consumer => exact absurd hparty hother
    | thread | worker => simp only [distance, hhelpful, hparty, Nat.le_refl]

theorem Step.progress {party : Party} (step : Step plan places now party next) :
    next.work < now.work ∨ Nears now next party := by
  cases step with
  | idle hidle => exact .inr ⟨rfl, rfl, Nat.le_refl _, fun heq => absurd heq hidle⟩
  | take hthread hframes hkept hstore =>
    have hjobs := hstore.atMostOne
    refine .inl ?_
    simp only [work, hthread, hframes, ThreadPhase.waiting, ThreadPhase.left, List.map_cons,
      Session.unitsOf, List.length_cons, List.length_append, List.length_nil]
    omega
  | leave hthread hframes =>
    refine .inl ?_
    simp only [work, hthread, ThreadPhase.waiting, ThreadPhase.left]
    omega
  | pushOn hthread hnext hpatient hcloser => exact .inr (nears_pushOn hthread hcloser)
  | send hthread =>
    refine .inl ?_
    simp only [work, hthread, ThreadPhase.waiting, ThreadPhase.left, List.length_cons,
      List.length_append, List.length_nil]
    omega
  | drop hthread hjobs =>
    refine .inl ?_
    simp only [work, hthread, ThreadPhase.waiting, ThreadPhase.left, FrameQueue.dropProducer]
    omega
  | perform hjobs hspares =>
    refine .inl ?_
    simp only [work, hjobs, List.length_cons]
    omega
  | popOn hconsumer hpop hnext hfits hcloser =>
    exact .inr (nears_popOn hconsumer hpop hnext hcloser)
  | @receive pop unit backlog hconsumer hpop hbacklog =>
    have hhand : (ConsumerPhase.popping (.got unit)).inHand = [unit] := rfl
    have hleft : (ConsumerPhase.popping (.got unit)).left = 3 := rfl
    refine .inl ?_
    simp only [work, hconsumer, hbacklog, ConsumerPhase.inHand_popping hpop,
      ConsumerPhase.left_popping hpop, hhand, hleft, List.length_cons, List.length_nil]
    omega
  | conclude hconsumer hempty =>
    refine .inl ?_
    simp only [work, hconsumer, ConsumerPhase.inHand, ConsumerPhase.left]
    omega
  | put hconsumer hhold hspares =>
    refine .inl ?_
    simp only [work, hconsumer, ConsumerPhase.inHand, ConsumerPhase.left, List.length_cons,
      List.length_nil]
    omega
  | close hconsumer =>
    refine .inl ?_
    simp only [work, hconsumer, ConsumerPhase.inHand, ConsumerPhase.left]
    omega
  | finish hconsumer hstored hspares =>
    refine .inl ?_
    simp only [work, hconsumer, ConsumerPhase.inHand, ConsumerPhase.left, FrameQueue.stop,
      List.length_nil]
    omega

/-- Nobody adds to the measure, and the party to wait for lowers it. -/
theorem progress (hfast : plan.arguments.fast = true) :
    Progress plan.step (Sane plan begun places frames units)
      (fun now => ∃ ending, now.consumer = .ended ending) measure helpful where
  never_up := by
    intro now party h
    cases h with
    | underWay h =>
      have hlt := (plan.step now party).distance_lt
      rcases (h.step_of hfast party).progress with hless | hnears
      · unfold measure
        omega
      · have hwork := hnears.work
        have hdistance := hnears.distance
        unfold measure
        omega
    | settled h => exact Nat.le_of_eq (congrArg measure (h.step party))
  stays := by
    intro now party h hover hother hsame
    cases h with
    | underWay h =>
      have hlt := (plan.step now party).distance_lt
      rcases (h.step_of hfast party).progress with hless | hnears
      · unfold measure at hsame
        omega
      · exact hnears.helpful
    | settled h => rw [h.step party]
  helps := by
    intro now h hover
    cases h with
    | underWay h =>
      have hlt := (plan.step now now.helpful).distance_lt
      rcases (h.step_of hfast now.helpful).progress with hless | hnears
      · unfold measure
        omega
      · have hwork := hnears.work
        have hcloser := hnears.closer rfl
        unfold measure
        omega
    | settled h =>
      obtain ⟨summary, hconsumer, -⟩ := h.consumer
      exact absurd ⟨_, hconsumer⟩ hover

end

end Playback

end CamStream
