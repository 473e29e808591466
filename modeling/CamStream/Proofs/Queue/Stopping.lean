import CamStream.Proofs.Queue.Traffic
import Mathlib.Data.List.Perm.Subperm

/-!
# Stopping a queue that is pushed to

A stop closes the queue and then takes out what is in it. A push looks whether the queue is open and
puts its unit into the channel in two separate steps, so a push that has found the queue open before it
was closed may come to the channel when the stop has looked for the last time. Its unit is then left in
the closed queue, and goes to the consumer of the next session.

* `Traffic.inside`: the units of the pushes that have found the queue open and are not over.
* `Traffic.Dwindles`: while the queue is closed, no push comes in, and what is inside or in the channel
  only becomes less.
* `stop_leaves_late_units`: what a stop leaves are units of pushes that were inside when it looked for
  the last time, and nothing that had been put into the channel before is ever delivered.
* `late_unit_delivered`: such a unit is left, and delivered in the next session.
-/

namespace CamStream

namespace Traffic

variable {now next : Traffic} {turn : Turn}

/-! ## Pushes that have found the queue open -/

/-- The unit of a push that has found the queue open and is not over. -/
def insideUnit? (push? : Option (AccessUnit × PushPhase)) : Option AccessUnit :=
  push?.bind fun (unit, phase) => if phase.isInside then some unit else none

/-- The units of the pushes that have found the queue open and are not over. -/
def inside (now : Traffic) : List AccessUnit := now.producers.filterMap insideUnit?

/-- Only the push of one producer has changed. -/
theorem inside_withPush {index : Nat} {push? : Option (AccessUnit × PushPhase)}
    (hpush : now.producers[index]? = some push?) (other? : Option (AccessUnit × PushPhase)) :
    ∃ rest, now.inside.Perm ((insideUnit? push?).toList ++ rest) ∧
      (now.withPush index other?).inside.Perm ((insideUnit? other?).toList ++ rest) := by
  obtain ⟨hindex, heq⟩ := List.getElem?_eq_some_iff.mp hpush
  have hsame : now.producers.set index push? = now.producers := by
    rw [← heq, List.set_getElem_self]
  have hperm : ∀ push? : Option (AccessUnit × PushPhase),
      ((now.producers.set index push?).filterMap insideUnit?).Perm
        ((insideUnit? push?).toList ++ (now.producers.eraseIdx index).filterMap insideUnit?) := by
    intro push?
    have hcons := (List.set_perm_cons_eraseIdx hindex push?).filterMap insideUnit?
    cases hunit : insideUnit? push? with
    | none => simpa [hunit] using hcons
    | some unit => simpa [hunit] using hcons
  refine ⟨(now.producers.eraseIdx index).filterMap insideUnit?, ?_, hperm other?⟩
  have hbefore := hperm push?
  rw [hsame] at hbefore
  exact hbefore

/-- What can still come out of a closed queue only becomes less. -/
structure Dwindles (now next : Traffic) : Prop where
  closed : next.queue.streaming = false
  inside : next.inside.Subperm now.inside
  late : (next.queue.backlog ++ next.inside).Subperm (now.queue.backlog ++ now.inside)

theorem Dwindles.refl (hclosed : now.queue.streaming = false) : now.Dwindles now :=
  ⟨hclosed, .refl _, .refl _⟩

theorem Dwindles.trans {last : Traffic} (h : now.Dwindles next) (hnext : next.Dwindles last) :
    now.Dwindles last :=
  ⟨hnext.closed, hnext.inside.trans h.inside, hnext.late.trans h.late⟩

/-- The oldest unit leaves the channel. -/
theorem dwindles_remove (hclosed : now.queue.streaming = false) {unit : AccessUnit}
    {backlog : List AccessUnit} (hbacklog : now.queue.backlog = unit :: backlog) (exit : Exit) :
    now.Dwindles (now.remove unit backlog exit) := by
  refine ⟨hclosed, .refl _, ?_⟩
  rw [hbacklog]
  exact (List.sublist_cons_self unit (backlog ++ now.inside)).subperm

/-- A push goes on, or gives up, without putting its unit into the channel. -/
theorem dwindles_withPush (hclosed : now.queue.streaming = false) {index : Nat}
    {push? other? : Option (AccessUnit × PushPhase)} (hpush : now.producers[index]? = some push?)
    (hless : (insideUnit? other?).toList.Sublist (insideUnit? push?).toList) :
    now.Dwindles (now.withPush index other?) := by
  obtain ⟨rest, hbefore, hafter⟩ := inside_withPush hpush other?
  have hinside : (now.withPush index other?).inside.Subperm now.inside :=
    hafter.subperm.trans (((hless.append_right rest).subperm).trans hbefore.symm.subperm)
  exact ⟨hclosed, hinside, (List.subperm_append_left now.queue.backlog).mpr hinside⟩

/-- A push puts its unit into the channel, and is no longer inside. -/
theorem dwindles_send (hclosed : now.queue.streaming = false) {index : Nat} {unit : AccessUnit}
    (hpush : now.producers[index]? = some (some (unit, .sending))) :
    now.Dwindles ((now.withPush index none).put unit) := by
  obtain ⟨rest, hbefore, hafter⟩ := inside_withPush hpush none
  have hbefore : now.inside.Perm (unit :: rest) := hbefore
  have hafter : (now.withPush index none).inside.Perm rest := hafter
  refine ⟨hclosed, ?_, ?_⟩
  · exact hafter.subperm.trans ((List.sublist_cons_self unit rest).subperm.trans hbefore.symm.subperm)
  · have hmoved : ((now.queue.backlog ++ [unit]) ++ (now.withPush index none).inside).Perm
        (now.queue.backlog ++ now.inside) := by
      rw [List.append_assoc, List.singleton_append]
      exact ((hafter.cons unit).trans hbefore.symm).append_left now.queue.backlog
    exact hmoved.subperm

theorem Moves.dwindles (hmoves : now.Moves turn next) (hclosed : now.queue.streaming = false)
    (hturn : turn ≠ .start) : now.Dwindles next := by
  cases hmoves with
  | start => exact absurd rfl hturn
  | idle | look | popOn | setFlushing | stopped => exact ⟨hclosed, .refl _, .refl _⟩
  | close => exact ⟨rfl, .refl _, .refl _⟩
  | create =>
    have hinside : (now.producers ++ [none]).filterMap insideUnit? = now.inside := by
      simp [insideUnit?, Traffic.inside]
    refine ⟨hclosed, ?_, ?_⟩ <;> simp only [Traffic.inside, hinside] <;> exact .refl _
  | drop index hidle =>
    have hinside : ((now.producers.eraseIdx index).filterMap insideUnit?).Sublist now.inside :=
      (List.eraseIdx_sublist _ index).filterMap insideUnit?
    exact ⟨hclosed, hinside.subperm, (hinside.append_left now.queue.backlog).subperm⟩
  | hand index unit hidle => exact dwindles_withPush hclosed hidle (.refl _)
  | goOn index unit phase other hpush hinside =>
    -- The queue is closed, so a push that goes on has been inside before.
    have hbefore : phase.isInside = true := by
      rcases hinside with hinside | hopen
      · exact hinside
      · rw [hclosed] at hopen
        cases hopen
    refine dwindles_withPush hclosed hpush ?_
    simp only [insideUnit?, Option.bind_some, hbefore, if_true, Option.toList_some]
    split
    · exact .refl _
    · exact List.nil_sublist _
  | giveUp index unit phase hpush => exact dwindles_withPush hclosed hpush (List.nil_sublist _)
  | send index unit hpush => exact dwindles_send hclosed hpush
  | evict index unit oldest backlog hpush hbacklog =>
    have hphase : now.Dwindles (now.withPush index (some (unit, .sending))) :=
      dwindles_withPush hclosed hpush (.refl _)
    refine hphase.trans ?_
    apply dwindles_remove
    · exact hclosed
    · exact hbacklog
  | get unit backlog hbacklog =>
    have hremoved := dwindles_remove hclosed hbacklog .delivered
    exact ⟨hremoved.closed, hremoved.inside, hremoved.late⟩
  | tryPop unit backlog hbacklog | discard unit backlog hbacklog =>
    exact dwindles_remove hclosed hbacklog _

theorem dwindles_turns (hclosed : now.queue.streaming = false) {order : List Turn}
    (hstopped : .start ∉ order) : now.Dwindles (now.turns order) := by
  induction order generalizing now with
  | nil => exact .refl hclosed
  | cons turn order ih =>
    obtain ⟨hturn, horder⟩ := List.ne_and_not_mem_of_not_mem_cons hstopped
    have hstep := (now.turn_moves turn).dwindles hclosed (Ne.symm hturn)
    exact hstep.trans (ih hstep.closed horder)

/-! ## The last look of a stop -/

theorem turn_stop_begins (h : now.draining = false) :
    now.turn .stop = { now with queue := { now.queue with streaming := false }, draining := true } := by
  simp only [Traffic.turn, FrameQueue.stopStep, h, stopOn, Bool.false_eq_true, if_false,
    Option.toList_none, List.map_nil, List.append_nil]

theorem turn_stop_ends (h : now.draining = true) (hempty : now.queue.backlog = []) :
    now.turn .stop = { now with draining := false } := by
  simp only [Traffic.turn, FrameQueue.stopStep, h, stopOn, if_true,
    FrameQueue.receive?_eq_none_iff.mpr hempty, Option.toList_none, List.map_nil, List.append_nil]

end Traffic

/-- **What a stop leaves.** Let pushes be under way when a stop begins, and let others begin, on a queue
of any capacity and either policy, with all steps in any order. The stop closes the queue and takes out
units until it finds none, and the queue is not started again. Then

* all that had been put into the channel when the stop looked for the last time was taken out by then,
  and whatever is delivered at any later time was put into it afterwards;
* what is left in the queue, or can still come into it, are units of pushes that were inside at that
  last look, and these had found the queue open before the stop closed it;
* so if no push was inside at the last look, the queue is empty, and no push comes inside. -/
theorem stop_leaves_late_units (capacity : Nat) (overflow : Overflow)
    (before during after : List Traffic.Turn) (hduring : .start ∉ during) (hafter : .start ∉ after)
    (hbegins : ((Traffic.fresh capacity overflow).turns before).draining = false) :
    let begun := (Traffic.fresh capacity overflow).turns before
    let drained := (begun.turn .stop).turns during
    let now := (drained.turn .stop).turns after
    drained.draining = true → drained.queue.backlog = [] →
      drained.sent = drained.taken.map (·.1) ∧
      (∀ later, ∃ more, (now.turns later).taken = drained.taken ++ more ∧
        (now.turns later).sent =
          drained.sent ++ (more.map (·.1) ++ (now.turns later).queue.backlog)) ∧
      now.queue.streaming = false ∧
      (now.queue.backlog ++ now.inside).Subperm drained.inside ∧
      drained.inside.Subperm begun.inside ∧
      (drained.inside = [] → now.queue.backlog = [] ∧ now.inside = []) := by
  intro begun drained now hdraining hempty
  have hbegun : begun.Sound := (Traffic.sound_fresh capacity overflow).turns before
  have hdrained : drained.Sound := (hbegun.moves (begun.turn_moves .stop)).turns during
  have hsent : drained.sent = drained.taken.map (·.1) := by
    rw [hdrained.inOrder, hempty, List.append_nil]
  have hclose : begun.turn .stop = _ := Traffic.turn_stop_begins hbegins
  have hend : drained.turn .stop = _ := Traffic.turn_stop_ends hdraining hempty
  have hclosing : (begun.turn .stop).Dwindles drained :=
    Traffic.dwindles_turns (by rw [hclose]) hduring
  have hleaves : (drained.turn .stop).Dwindles now :=
    Traffic.dwindles_turns (by rw [hend]; exact hclosing.closed) hafter
  have hlate : (now.queue.backlog ++ now.inside).Subperm drained.inside := by
    have hlate := hleaves.late
    rw [hend] at hlate
    rwa [hempty] at hlate
  refine ⟨hsent, fun later => ?_, hleaves.closed, hlate, ?_, fun hnone => ?_⟩
  · have hlater : now.turns later = (drained.turn .stop).turns (after ++ later) :=
      (Traffic.turns_append _ after later).symm
    have hsound : (now.turns later).Sound :=
      ((hdrained.moves (drained.turn_moves .stop)).turns after).turns later
    obtain ⟨more, htaken, -⟩ := (drained.turn .stop).taken_turns (after ++ later)
    rw [← hlater] at htaken
    have hsame : (drained.turn .stop).taken = drained.taken := by rw [hend]
    rw [hsame] at htaken
    refine ⟨more, htaken, ?_⟩
    rw [hsound.inOrder, htaken, hsent, List.map_append, List.append_assoc]
  · have hinside := hclosing.inside
    rw [hclose] at hinside
    exact hinside
  · rw [hnone] at hlate
    exact List.append_eq_nil_iff.mp (List.subperm_nil.mp hlate)

/-- A stop frees the only place, for which a push has waited; the push takes it when the stop has looked
for the last time. Another one comes too late to find the queue open. -/
theorem stop_leaves_late_units_blocked :
    let first : AccessUnit := { data := [1], timing := none, keyframe := false }
    let second : AccessUnit := { data := [2], timing := none, keyframe := false }
    let third : AccessUnit := { data := [3], timing := none, keyframe := false }
    let before : List Traffic.Turn :=
      [.create, .create, .start, .hand 0 first, .push 0, .push 0, .hand 0 second, .push 0, .push 0,
        .push 0, .hand 1 third]
    let begun := (Traffic.fresh 1 .block).turns before
    let drained := (begun.turn .stop).turns [.stop]
    let now := (drained.turn .stop).turns [.push 0, .push 1]
    drained.draining = true ∧ drained.inside = [second] ∧ now.producers = [none, none] ∧
      now.queue.backlog = [second] ∧ (now.queue.backlog ++ now.inside).Subperm drained.inside := by
  intro first second third before
  obtain ⟨-, -, -, hlate, -, -⟩ :=
    stop_leaves_late_units 1 .block before [.stop] [.push 0, .push 1] (by decide) (by decide)
      (by decide +kernel) (by decide +kernel) (by decide +kernel)
  exact ⟨by decide +kernel, by decide +kernel, by decide +kernel, by decide +kernel, hlate⟩

/-- A stop does not keep the sessions apart. A push that has found the queue open puts its unit into it
when the stop has looked for the last time. The stop and the push are over, the queue is closed, and the
unit is in it; the first pop of the next session delivers it. A queue that is started again without a
stop delivers what it holds as well. -/
theorem late_unit_delivered :
    let first : AccessUnit := { data := [1], timing := none, keyframe := false }
    let late : AccessUnit := { data := [2], timing := none, keyframe := false }
    let begun := (Traffic.fresh 1 .block).turns
      [.create, .start, .hand 0 first, .push 0, .push 0, .hand 0 late, .push 0]
    let stopped := begun.turns [.stop, .stop, .stop, .push 0]
    let unstopped := (Traffic.fresh 0 .dropOldest).turns
      [.create, .start, .hand 0 late, .push 0, .push 0, .drop 0, .create, .start]
    (begun.draining = false ∧ stopped.draining = false ∧ stopped.producers = [none] ∧
      stopped.queue.streaming = false ∧ stopped.queue.backlog = [late]) ∧
    (stopped.turns [.start, .look, .pop, .pop]).taken = [(first, .discarded), (late, .delivered)] ∧
    (unstopped.turns [.look, .pop, .pop]).taken = [(late, .delivered)] := by
  decide +kernel

end CamStream
