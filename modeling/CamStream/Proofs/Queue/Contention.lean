import CamStream.Proofs.Queue.Channel
import CamStream.Tally
import Mathlib.Data.List.Basic
import Mathlib.Logic.Function.Basic

/-!
# Producers at the same time

Any number of producers push units to one open queue while a consumer takes them out. Between any
two steps of a push, other pushes and the consumer may act: when a producer comes to discard the
oldest unit, the channel may be empty again, or have room, or have been filled anew.

A parcel is a unit with the push it was handed to. That makes two equal units two things, so that it
can be asked where each of them is.

* `Contention.Conserves`: the invariant. Each parcel is in one place, and those of one producer are
  never out of order.
* `Contention.push_cases`: all that one step of a push can do.
* `Contention.Conserves.turn`: every step of every party keeps the invariant.
* `no_unit_lost`: it holds at every moment, in whatever order the steps are made.
-/

namespace CamStream

/-- A unit that was handed to a push. -/
structure Parcel (ι : Type) where
  producer : ι
  /-- How many units the producer had pushed before. -/
  number : Nat
  unit : AccessUnit
deriving DecidableEq, Repr

/-- The units of a producer, in the order of its pushes. -/
def parcelsOf {ι : Type} (producer : ι) (units : List AccessUnit) : List (Parcel ι) :=
  units.zipIdx.map fun (unit, number) => { producer, number, unit }

theorem parcelsOf_concat {ι : Type} (producer : ι) (units : List AccessUnit) (unit : AccessUnit) :
    parcelsOf producer (units ++ [unit]) =
      parcelsOf producer units ++ [{ producer, number := units.length, unit }] := by
  simp [parcelsOf, List.zipIdx_append]

/-- One more unit was handed over under the next number, and under no other. -/
theorem count_handed_concat {ι : Type} [DecidableEq ι] (units : List AccessUnit) (unit : AccessUnit)
    (found : Parcel ι) :
    (if (units ++ [unit])[found.number]? = some found.unit then 1 else 0) =
      (if units[found.number]? = some found.unit then 1 else 0) +
        [({ producer := found.producer, number := units.length, unit } : Parcel ι)].count found := by
  obtain ⟨producer, number, other⟩ := found
  rw [List.count_singleton]
  obtain hless | rfl | hmore := Nat.lt_trichotomy number units.length
  · have hne : units.length ≠ number := by omega
    simp [List.getElem?_append_left hless, hne]
  · simp
  · have hne : units.length ≠ number := by omega
    have hmuch : ¬ number < (units ++ [unit]).length := by
      rw [List.length_append, List.length_singleton]
      omega
    rw [List.getElem?_eq_none (Nat.le_of_not_lt hmuch), List.getElem?_eq_none (Nat.le_of_lt hmore)]
    simp [hne]

/-- Producers with a queue between them and a consumer. What is in the channel is kept twice: as the
queue has it, and with where it came from. -/
structure Contention (ι : Type) where
  queue : FrameQueue
  tallies : ι → Tally
  /-- The units that each producer has pushed, or is about to. -/
  handed : ι → List AccessUnit := fun _ => []
  /-- The push that each producer is at. -/
  pushing : ι → Option (Parcel ι × PushPhase) := fun _ => none
  channel : List (Parcel ι) := []
  /-- What the consumer has, in order. -/
  delivered : List (Parcel ι) := []
  /-- What was discarded to make room, each with the producer that did it. -/
  evicted : List (ι × Parcel ι) := []

/-- Who acts next. -/
inductive Turn (ι : Type) where
  /-- A producer is handed a unit, unless it is still at another one. -/
  | hand (producer : ι) (unit : AccessUnit)
  /-- The push that a producer is at makes a step. -/
  | push (producer : ι)
  /-- The consumer receives a unit, if there is one. -/
  | receive
deriving DecidableEq, Repr

namespace Contention

variable {ι : Type} [DecidableEq ι]

/-- An open and empty queue, and producers that may have counted before. -/
def opened (capacity : Nat) (overflow : Overflow) (tallies : ι → Tally) : Contention ι where
  queue := ({ capacity, overflow : FrameQueue }).start
  tallies

/-- What a producer holds until its push is over. -/
def held (now : Contention ι) (producer : ι) : List (Parcel ι) :=
  (now.pushing producer).toList.map (·.1)

/-- A producer has made a step of its push. -/
def advance (now : Contention ι) (producer : ι) (parcel : Parcel ι) (move : PushMove) :
    Contention ι :=
  let discarded := move.evicted.toList.length
  { now with
    queue := move.queue
    tallies := Function.update now.tallies producer ((now.tallies producer).afterDrops discarded)
    pushing := Function.update now.pushing producer
      (if move.phase.isOver then none else some (parcel, move.phase))
    channel := now.channel.drop discarded ++ if move.phase = .queued then [parcel] else []
    evicted := now.evicted ++ (now.channel.take discarded).map (producer, ·) }

/-- A producer begins to push a unit. -/
def hand (now : Contention ι) (producer : ι) (unit : AccessUnit) : Contention ι :=
  let parcel := { producer, number := (now.handed producer).length, unit }
  { now with
    handed := Function.update now.handed producer (now.handed producer ++ [unit])
    pushing := Function.update now.pushing producer (some (parcel, .arriving)) }

/-- The consumer has received the oldest unit. -/
def receive (now : Contention ι) (queue : FrameQueue) : Contention ι :=
  { now with
    queue, channel := now.channel.drop 1
    delivered := now.delivered ++ now.channel.take 1 }

/-- What one party does next. -/
def turn (now : Contention ι) : Turn ι → Contention ι
  | .hand producer unit => if (now.pushing producer).isSome then now else now.hand producer unit
  | .push producer =>
    match now.pushing producer with
    | some (parcel, phase) => now.advance producer parcel (now.queue.pushStep parcel.unit phase)
    | none => now
  | .receive =>
    match now.queue.receive? with
    | some (_, queue) => now.receive queue
    | none => now

/-- What the parties do, one step after the other. -/
def turns (now : Contention ι) (order : List (Turn ι)) : Contention ι := order.foldl turn now

/-! ## Where the units are -/

/-- How often a parcel is found: delivered, discarded, in the channel, or in the hands of its
producer. -/
def places (now : Contention ι) (parcel : Parcel ι) : Nat :=
  now.delivered.count parcel + (now.evicted.map (·.2)).count parcel + now.channel.count parcel +
    (now.held parcel.producer).count parcel

/-- How often a unit of that number was handed to the producer: once, or not yet. -/
def handedOver (now : Contention ι) (parcel : Parcel ι) : Nat :=
  if (now.handed parcel.producer)[parcel.number]? = some parcel.unit then 1 else 0

/-- What one producer has put into the channel that was not discarded, and what it holds. -/
def underWay (now : Contention ι) (producer : ι) : List (Parcel ι) :=
  (now.delivered ++ now.channel).filter (·.producer = producer) ++ now.held producer

/-- No unit is lost, none is there twice, and none overtakes another one of its producer. -/
structure Conserves (tallies : ι → Tally) (now : Contention ι) : Prop where
  isOpen : now.queue.streaming = true
  calm : now.queue.flushing = false
  backlog : now.queue.backlog = now.channel.map (·.unit)
  own : ∀ producer parcel phase, now.pushing producer = some (parcel, phase) →
    parcel.producer = producer ∧ phase.isOver = false
  once : ∀ parcel, now.places parcel = now.handedOver parcel
  counted : ∀ producer, (now.tallies producer).overflowDrops =
    (tallies producer).overflowDrops + now.evicted.countP (·.1 = producer)
  inOrder : ∀ producer, (now.underWay producer).Sublist (parcelsOf producer (now.handed producer))

/-! ## What one step can do -/

section Steps

variable {tallies : ι → Tally} {now next : Contention ι} {producer : ι} {parcel : Parcel ι}
  {phase : PushPhase}

/-- A push has gone on to another phase. -/
def goOn (now : Contention ι) (producer : ι) (parcel : Parcel ι) (phase : PushPhase) : Contention ι :=
  { now with pushing := Function.update now.pushing producer (some (parcel, phase)) }

/-- A push has put its parcel into the channel, and is over. -/
def send (now : Contention ι) (producer : ι) (parcel : Parcel ι) : Contention ι :=
  { now with
    queue := { now.queue with backlog := now.queue.backlog ++ [parcel.unit] }
    pushing := Function.update now.pushing producer none
    channel := now.channel ++ [parcel] }

/-- A push has taken the oldest parcel out of the channel, and counted it. -/
def discard (now : Contention ι) (producer : ι) (parcel oldest : Parcel ι)
    (channel : List (Parcel ι)) : Contention ι :=
  { now with
    queue := { now.queue with backlog := channel.map (·.unit) }
    tallies := Function.update now.tallies producer ((now.tallies producer).afterDrops 1)
    pushing := Function.update now.pushing producer (some (parcel, .sending))
    channel
    evicted := now.evicted ++ [(producer, oldest)] }

omit [DecidableEq ι] in
theorem held_of_pushing (hpush : now.pushing producer = some (parcel, phase)) :
    now.held producer = [parcel] := by
  rw [held, hpush]
  rfl

theorem held_send (now : Contention ι) (producer : ι) (parcel : Parcel ι) :
    (now.send producer parcel).held producer = [] := by
  simp [held, send]

theorem held_send_other {other : ι} (hne : other ≠ producer) :
    (now.send producer parcel).held other = now.held other := by
  simp [held, send, hne]

/-- Another phase of a push does not change what its producer holds. -/
theorem held_phase {other : PushPhase} (hpush : now.pushing producer = some (parcel, phase))
    (h : next.pushing = Function.update now.pushing producer (some (parcel, other))) :
    next.held = now.held := by
  funext holder
  rw [held, held, h]
  by_cases heq : holder = producer
  · rw [heq, Function.update_self, hpush]
    rfl
  · rw [Function.update_of_ne heq]

/-- Only the push of one producer has changed. -/
theorem Conserves.own_update (h : now.Conserves tallies) {pushing? : Option (Parcel ι × PushPhase)}
    (hpushing : ∀ parcel phase, pushing? = some (parcel, phase) →
      parcel.producer = producer ∧ phase.isOver = false) :
    ∀ other parcel phase, Function.update now.pushing producer pushing? other = some (parcel, phase) →
      parcel.producer = other ∧ phase.isOver = false := by
  intro other parcel phase hother
  by_cases heq : other = producer
  · rw [heq, Function.update_self] at hother
    rw [heq]
    exact hpushing parcel phase hother
  · rw [Function.update_of_ne heq] at hother
    exact h.own other parcel phase hother

theorem update_afterDrops_zero (tallies : ι → Tally) (producer : ι) :
    Function.update tallies producer ((tallies producer).afterDrops 0) = tallies :=
  Function.update_eq_self producer tallies

/-- One step of a push goes on to another phase, puts its parcel into the channel, or takes the
oldest one out. -/
theorem push_cases (h : now.Conserves tallies) (hpush : now.pushing producer = some (parcel, phase)) :
    (∃ phase, phase.isOver = false ∧ now.turn (.push producer) = now.goOn producer parcel phase) ∨
    now.turn (.push producer) = now.send producer parcel ∨
    ∃ oldest channel, now.channel = oldest :: channel ∧
      now.turn (.push producer) = now.discard producer parcel oldest channel := by
  have hover := (h.own producer parcel phase hpush).2
  have hstep : now.turn (.push producer) =
      now.advance producer parcel (now.queue.pushStep parcel.unit phase) := by
    rw [turn, hpush]
  -- A step that moves no unit changes the phase of the push and nothing else.
  have hphase : ∀ {next : PushPhase}, next.isOver = false → next ≠ .queued →
      now.advance producer parcel { queue := now.queue, phase := next } =
        now.goOn producer parcel next := by
    intro next hover hqueued
    simp only [advance, goOn, hover, hqueued, Option.toList_none, List.length_nil,
      update_afterDrops_zero, if_false, Bool.false_eq_true, List.drop_zero, List.take_zero,
      List.map_nil, List.append_nil]
  rw [hstep]
  cases phase with
  | arriving =>
    rw [FrameQueue.pushStep_arriving h.isOpen]
    exact Or.inl ⟨.sending, rfl, hphase rfl (by decide)⟩
  | sending =>
    by_cases hfull : now.queue.isFull = true
    · rw [FrameQueue.pushStep_sending_full hfull]
      exact Or.inl ⟨.refused, rfl, hphase rfl (by decide)⟩
    · rw [FrameQueue.pushStep_sending (Bool.eq_false_iff.mpr hfull)]
      apply Or.inr (Or.inl ?_)
      simp only [advance, send, PushPhase.isOver, Option.toList_none, List.length_nil,
        update_afterDrops_zero, if_true, List.drop_zero, List.take_zero, List.map_nil,
        List.append_nil]
  | refused =>
    cases hpolicy : now.queue.overflow with
    | block =>
      rw [FrameQueue.pushStep_retry hpolicy h.isOpen h.calm]
      exact Or.inl ⟨.sending, rfl, hphase rfl (by decide)⟩
    | dropOldest =>
      have hbacklog := h.backlog
      cases hchannel : now.channel with
      | nil =>
        -- Others were faster, and there is nothing to discard.
        rw [hchannel] at hbacklog
        have hmove : now.queue.pushStep parcel.unit .refused =
            { queue := now.queue, phase := .sending } := by
          simp only [FrameQueue.pushStep, hpolicy, FrameQueue.receive?_eq_none_iff.mpr hbacklog]
        rw [hmove]
        exact Or.inl ⟨.sending, rfl, hphase rfl (by decide)⟩
      | cons oldest channel =>
        rw [hchannel] at hbacklog
        rw [FrameQueue.pushStep_evict hpolicy hbacklog]
        refine Or.inr (Or.inr ⟨oldest, channel, rfl, ?_⟩)
        rw [advance, hchannel]
        exact congrArg (fun channel => ({ now.discard producer parcel oldest _ with channel } :
          Contention ι)) (List.append_nil channel)
  | queued | discarded => cases hover

namespace Conserves

theorem goOn (h : now.Conserves tallies) (hpush : now.pushing producer = some (parcel, phase))
    {other : PushPhase} (hover : other.isOver = false) :
    (now.goOn producer parcel other).Conserves tallies := by
  have hheld : (now.goOn producer parcel other).held = now.held := held_phase hpush rfl
  refine ⟨h.isOpen, h.calm, h.backlog, ?_, ?_, h.counted, ?_⟩
  · apply h.own_update
    rintro _ _ ⟨⟩
    exact ⟨(h.own producer parcel phase hpush).1, hover⟩
  · intro found
    rw [places, hheld]
    exact h.once found
  · intro pusher
    rw [underWay, hheld]
    exact h.inOrder pusher

theorem send (h : now.Conserves tallies) (hpush : now.pushing producer = some (parcel, phase)) :
    (now.send producer parcel).Conserves tallies := by
  have hproducer := (h.own producer parcel phase hpush).1
  have hbefore := held_of_pushing hpush
  have hafter := now.held_send producer parcel
  refine ⟨h.isOpen, h.calm, ?_, ?_, ?_, h.counted, ?_⟩
  · rw [Contention.send, h.backlog, List.map_append]
    rfl
  · apply h.own_update
    intro _ _ hnone
    cases hnone
  · intro found
    have honce : now.places found = (now.send producer parcel).handedOver found := h.once found
    rw [← honce, places, places]
    show now.delivered.count found + (now.evicted.map (·.2)).count found +
      (now.channel ++ [parcel]).count found + _ = _
    rw [List.count_append]
    by_cases heq : found.producer = producer
    · rw [heq, hafter, hbefore, List.count_nil]
      omega
    · have hother : [parcel].count found = 0 := by
        rw [List.count_eq_zero, List.mem_singleton]
        intro hsame
        rw [hsame] at heq
        exact heq hproducer
      rw [held_send_other heq, hother]
      omega
  · intro pusher
    have hunderWay : (now.send producer parcel).underWay pusher = now.underWay pusher := by
      show (now.delivered ++ (now.channel ++ [parcel])).filter _ ++ _ = _ ++ _
      rw [← List.append_assoc, List.filter_append, List.append_assoc]
      congr 1
      by_cases heq : pusher = producer
      · rw [heq, hafter, hbefore]
        simp [hproducer]
      · rw [held_send_other heq]
        simp [hproducer, Ne.symm heq]
    rw [hunderWay]
    exact h.inOrder pusher

theorem discard (h : now.Conserves tallies) (hpush : now.pushing producer = some (parcel, phase))
    {oldest : Parcel ι} {channel : List (Parcel ι)} (hchannel : now.channel = oldest :: channel) :
    (now.discard producer parcel oldest channel).Conserves tallies := by
  have hheld : (now.discard producer parcel oldest channel).held = now.held :=
    held_phase hpush rfl
  refine ⟨h.isOpen, h.calm, rfl, ?_, ?_, ?_, ?_⟩
  · apply h.own_update
    rintro _ _ ⟨⟩
    exact ⟨(h.own producer parcel phase hpush).1, rfl⟩
  · intro found
    have honce : now.places found =
        (now.discard producer parcel oldest channel).handedOver found := h.once found
    rw [← honce, places, places, hheld, hchannel]
    show now.delivered.count found + ((now.evicted ++ [(producer, oldest)]).map (·.2)).count found +
      channel.count found + _ = _
    rw [List.map_append, List.map_singleton, List.count_append, List.count_singleton,
      List.count_cons]
    dsimp only
    omega
  · intro other
    have hcounted := h.counted other
    show (Function.update now.tallies producer _ other).overflowDrops =
      _ + (now.evicted ++ [(producer, oldest)]).countP _
    rw [List.countP_append]
    by_cases heq : other = producer
    · rw [heq] at hcounted
      simp [heq, Tally.afterDrops, hcounted]
      omega
    · simp [heq, Ne.symm heq, hcounted]
  · intro pusher
    apply List.Sublist.trans ?_ (h.inOrder pusher)
    rw [underWay, underWay, hheld, hchannel]
    apply List.Sublist.append_right
    apply List.Sublist.filter
    exact (List.sublist_cons_self oldest channel).append_left now.delivered

theorem receive (h : now.Conserves tallies) {unit : AccessUnit} {queue : FrameQueue}
    (hreceive : now.queue.receive? = some (unit, queue)) : (now.receive queue).Conserves tallies := by
  obtain ⟨backlog, hbacklog, rfl⟩ := FrameQueue.receive?_eq_some_iff.mp hreceive
  have hmap := h.backlog
  rw [hbacklog] at hmap
  obtain ⟨oldest, channel, hchannel, -, hrest⟩ := List.map_eq_cons_iff.mp hmap.symm
  rw [Contention.receive, hchannel]
  refine ⟨h.isOpen, h.calm, hrest.symm, h.own, ?_, h.counted, ?_⟩
  · intro found
    have honce := h.once found
    rw [places, hchannel, List.count_cons] at honce
    show (now.delivered ++ [oldest]).count found + (now.evicted.map (·.2)).count found +
      channel.count found + (now.held found.producer).count found = now.handedOver found
    rw [List.count_append, List.count_singleton]
    omega
  · intro pusher
    have horder := h.inOrder pusher
    rw [underWay, hchannel, List.append_cons] at horder
    exact horder

/-- A producer that is at no push begins one, with a parcel that was nowhere before. -/
theorem hand (h : now.Conserves tallies) (hidle : now.pushing producer = none) (unit : AccessUnit) :
    (now.hand producer unit).Conserves tallies := by
  have hbefore : now.held producer = [] := by
    rw [held, hidle]
    rfl
  have hafter : (now.hand producer unit).held producer =
      [{ producer, number := (now.handed producer).length, unit }] := by
    simp [held, Contention.hand]
  have hother : ∀ {other}, other ≠ producer → (now.hand producer unit).held other = now.held other := by
    intro other hne
    simp [held, Contention.hand, hne]
  have hself : (now.hand producer unit).handed producer = now.handed producer ++ [unit] :=
    Function.update_self ..
  have hothers : ∀ {other}, other ≠ producer →
      (now.hand producer unit).handed other = now.handed other :=
    fun hne => Function.update_of_ne hne ..
  refine ⟨h.isOpen, h.calm, h.backlog, ?_, ?_, h.counted, ?_⟩
  · apply h.own_update
    rintro _ _ ⟨⟩
    exact ⟨rfl, rfl⟩
  · intro found
    have honce := h.once found
    rw [places, handedOver] at honce ⊢
    show now.delivered.count found + (now.evicted.map (·.2)).count found +
      now.channel.count found + _ = _
    by_cases heq : found.producer = producer
    · rw [heq, hbefore, List.count_nil] at honce
      rw [heq, hafter, hself, count_handed_concat, ← honce, heq]
      omega
    · rw [hother heq, hothers heq]
      exact honce
  · intro pusher
    have horder := h.inOrder pusher
    rw [underWay] at horder ⊢
    by_cases heq : pusher = producer
    · rw [heq, hbefore, List.append_nil] at horder
      rw [heq, hafter, hself, parcelsOf_concat]
      exact horder.append_right _
    · rw [hother heq, hothers heq]
      exact horder

theorem turn (h : now.Conserves tallies) (turn : Turn ι) : (now.turn turn).Conserves tallies := by
  cases turn with
  | hand producer unit =>
    rw [Contention.turn]
    split
    · exact h
    · rename_i hidle
      exact h.hand (Option.not_isSome_iff_eq_none.mp hidle) unit
  | receive =>
    rw [Contention.turn]
    split
    · rename_i hreceive
      exact h.receive hreceive
    · exact h
  | push producer =>
    cases hpush : now.pushing producer with
    | none =>
      have hidle : now.turn (.push producer) = now := by rw [Contention.turn, hpush]
      rw [hidle]
      exact h
    | some push =>
      obtain ⟨phase, hover, hnext⟩ | hnext | ⟨oldest, channel, hchannel, hnext⟩ :=
        push_cases h hpush
      · rw [hnext]
        exact h.goOn hpush hover
      · rw [hnext]
        exact h.send hpush
      · rw [hnext]
        exact h.discard hpush hchannel

theorem turns (h : now.Conserves tallies) (order : List (Turn ι)) :
    (now.turns order).Conserves tallies := by
  induction order generalizing now with
  | nil => exact h
  | cons turn order ih => exact ih (h.turn turn)

end Conserves

theorem conserves_opened (capacity : Nat) (overflow : Overflow) (tallies : ι → Tally) :
    (opened capacity overflow tallies).Conserves tallies where
  isOpen := rfl
  calm := rfl
  backlog := rfl
  own := by
    intro producer parcel phase hnone
    cases hnone
  once := fun parcel => rfl
  counted := fun producer => rfl
  inOrder := fun producer => .slnil

end Steps

end Contention

/-- **No unit is lost, and none is there twice.** On an open queue that is neither closed nor
flushed, of every capacity and with both policies, let any producers push at the same time while a
consumer receives. At every moment, in whatever order their steps were made:

* each unit that was handed to a push is in exactly one place, and no other unit is anywhere: it was
  delivered, or discarded, or it is in the channel, or its own push still holds it, which is not over;
* each producer has counted the units that it discarded, each of them once;
* the units delivered of each producer are in the order of its pushes. -/
theorem no_unit_lost {ι : Type} [DecidableEq ι] (capacity : Nat) (overflow : Overflow)
    (tallies : ι → Tally) (order : List (Turn ι)) :
    let now := (Contention.opened capacity overflow tallies).turns order
    (∀ parcel : Parcel ι,
      now.delivered.count parcel + (now.evicted.map (·.2)).count parcel +
          now.channel.count parcel + (now.held parcel.producer).count parcel =
        if (now.handed parcel.producer)[parcel.number]? = some parcel.unit then 1 else 0) ∧
    (∀ producer, (now.tallies producer).overflowDrops =
      (tallies producer).overflowDrops + now.evicted.countP (·.1 = producer)) ∧
    (∀ producer, (now.delivered.filter (·.producer = producer)).Sublist
      (parcelsOf producer (now.handed producer))) ∧
    now.queue.backlog = now.channel.map (·.unit) ∧
    ∀ producer parcel phase, now.pushing producer = some (parcel, phase) →
      phase ≠ .queued ∧ phase ≠ .discarded := by
  intro now
  have h : now.Conserves tallies :=
    (Contention.conserves_opened capacity overflow tallies).turns order
  refine ⟨h.once, h.counted, ?_, h.backlog, ?_⟩
  · intro producer
    apply List.Sublist.trans ?_ (h.inOrder producer)
    rw [Contention.underWay, List.filter_append, List.append_assoc]
    exact List.sublist_append_left _ _
  · intro producer parcel phase hpush
    have hover := (h.own producer parcel phase hpush).2
    constructor
    · rintro rfl
      cases hover
    · rintro rfl
      cases hover

/-- A producer finds the only place taken, and the consumer frees it before anything is discarded. -/
example :
    let first : AccessUnit := { data := [1], timing := none, keyframe := false }
    let second : AccessUnit := { data := [2], timing := none, keyframe := false }
    let now := (Contention.opened 1 .dropOldest fun _ : Bool => {}).turns
      [.hand false first, .push false, .push false, .hand true second, .push true, .push true,
        .receive, .push true, .push true]
    now.delivered.map (·.unit) = [first] ∧ now.evicted = [] ∧ now.queue.backlog = [second] := by
  decide +kernel

end CamStream
