import CamStream.Proofs.Queue.Channel
import CamStream.Tally
import Mathlib.Algebra.BigOperators.Fin

/-!
# What a queue holds

Any number of producers and a consumer use a queue, one operation at a time, while it is started,
stopped and flushed. A push that would have to wait does nothing here.

Which units are accepted is told by the queue that they are pushed into, and not by what the push does
with them (`FrameQueue.Admits`). So a unit that is accepted and gets lost would be missed.

* `QueueLog.push_cases`: what a push does: nothing, or its unit goes behind those that are kept.
* `QueueLog.Accounted`: the invariant. What is queued are the last units that were accepted since the
  queue was last stopped; the others were popped or discarded, and each discarded one was counted.
* `QueueLog.Accounted.call`: every operation keeps it.
* `queue_contents`: it holds after all sequences of operations, and what discards units is a push to
  a full queue that drops, and nothing else.
-/

namespace CamStream

namespace FrameQueue

variable {queue : FrameQueue} {unit : AccessUnit} {outcome : PushOutcome}

/-! ## Which units are accepted -/

/-- A unit that is pushed is accepted: the queue is open, and the push need not wait for room. -/
def Admits (queue : FrameQueue) : Prop :=
  queue.streaming = true ∧
    ¬ (queue.overflow = .block ∧ 0 < queue.capacity ∧ queue.capacity ≤ queue.backlog.length)

instance (queue : FrameQueue) : Decidable queue.Admits := inferInstanceAs (Decidable (_ ∧ _))

theorem Pushes.admits_iff (h : queue.Pushes unit outcome) :
    queue.Admits ↔ ∃ after evicted, outcome = .queued after evicted := by
  rw [Admits, ← isFull_iff]
  cases h with
  | closed hclosed => simp [hclosed]
  | queued hopen hroom => simp [hopen, hroom]
  | displaced hopen hfull hpolicy => simp [hopen, hpolicy]
  | stuck hopen hfull hpolicy => simp [hfull, hpolicy]

/-- What an open queue does not accept are the pushes that have to wait. -/
theorem push_eq_full_iff :
    queue.push unit = .full ↔ queue.streaming = true ∧ ¬ queue.Admits := by
  have houtcome := queue.push_outcome unit
  generalize queue.push unit = outcome at houtcome
  rw [houtcome.admits_iff]
  cases houtcome with
  | closed hclosed => simp [hclosed]
  | queued hopen hroom | displaced hopen hfull hpolicy => simp
  | stuck hopen hfull hpolicy => simp [hopen]

end FrameQueue

/-! ## Operations -/

/-- What can be asked of a queue with `n` producers. -/
inductive QueueCall (n : Nat) where
  | start
  | stop
  | setFlushing (flushing : Bool)
  | addProducer
  | dropProducer
  | push (producer : Fin n) (unit : AccessUnit)
  | pop
  | tryPop
deriving DecidableEq, Repr

/-- A queue, the counters of its producers, and what became of units since it was last stopped. -/
structure QueueLog (n : Nat) where
  queue : FrameQueue
  tallies : Fin n → Tally
  /-- The units that were pushed while the queue was open, by pushes that had not to wait. -/
  accepted : List AccessUnit := []
  popped : List AccessUnit := []
  /-- What the producers had counted when the queue was stopped. -/
  dropsAtStop : Nat

namespace QueueLog

variable {n : Nat}

/-- The discarded units that the producers have counted. -/
def countDrops (tallies : Fin n → Tally) : Nat := ∑ producer, (tallies producer).overflowDrops

/-- The discarded units that were counted since the queue was last stopped. -/
def drops (log : QueueLog n) : Nat := countDrops log.tallies - log.dropsAtStop

/-- A new queue, and producers that may have counted before. -/
def fresh (capacity : Nat) (overflow : Overflow) (tallies : Fin n → Tally) : QueueLog n where
  queue := { capacity, overflow }
  tallies
  dropsAtStop := countDrops tallies

/-- The log after a push that ended in the given way. Whether the unit is accepted does not depend on
that. -/
def pushed (log : QueueLog n) (producer : Fin n) (unit : AccessUnit)
    (outcome : FrameQueue.PushOutcome) : QueueLog n :=
  let log := if log.queue.Admits then { log with accepted := log.accepted ++ [unit] } else log
  match outcome with
  | .queued queue evicted =>
    { log with
      queue
      tallies := Function.update log.tallies producer
        ((log.tallies producer).afterDrops evicted.toNat) }
  | .discarded | .full => log

/-- The log after a pop that gave a unit. -/
def took (log : QueueLog n) (unit : AccessUnit) (queue : FrameQueue) : QueueLog n :=
  { log with queue, popped := log.popped ++ [unit] }

/-- The log after an operation. -/
def call (log : QueueLog n) : QueueCall n → QueueLog n
  | .start => { log with queue := log.queue.start }
  | .stop =>
    { log with
      queue := log.queue.stop, accepted := [], popped := []
      dropsAtStop := countDrops log.tallies }
  | .setFlushing flushing => { log with queue := log.queue.setFlushing flushing }
  | .addProducer => { log with queue := log.queue.addProducer }
  | .dropProducer => { log with queue := log.queue.dropProducer }
  | .push producer unit => log.pushed producer unit (log.queue.push unit)
  | .pop =>
    match log.queue.pop with
    | .unit unit queue => log.took unit queue
    | .failed _ | .waits => log
  | .tryPop =>
    match log.queue.receive? with
    | some (unit, queue) => log.took unit queue
    | none => log

/-- The log after operations, in order. -/
def callAll (log : QueueLog n) (calls : List (QueueCall n)) : QueueLog n := calls.foldl call log

/-! ## The counters -/

theorem overflowDrops_update (tallies : Fin n → Tally) (producer other : Fin n) (drops : Nat) :
    (Function.update tallies producer ((tallies producer).afterDrops drops) other).overflowDrops =
      (tallies other).overflowDrops + if other = producer then drops else 0 := by
  by_cases h : other = producer
  · rw [h, Function.update_self, if_pos rfl]
    rfl
  · rw [Function.update_of_ne h, if_neg h, Nat.add_zero]

theorem countDrops_update (tallies : Fin n → Tally) (producer : Fin n) (drops : Nat) :
    countDrops (Function.update tallies producer ((tallies producer).afterDrops drops)) =
      countDrops tallies + drops := by
  simp only [countDrops, overflowDrops_update, Finset.sum_add_distrib, Finset.sum_ite_eq',
    Finset.mem_univ, if_true]

/-! ## Pushes -/

/-- The log after a unit was accepted and went behind those that were kept. -/
def entered (log : QueueLog n) (producer : Fin n) (unit : AccessUnit) (kept : List AccessUnit)
    (drops : Nat) : QueueLog n :=
  { log with
    queue := { log.queue with backlog := kept ++ [unit] }
    accepted := log.accepted ++ [unit]
    tallies := Function.update log.tallies producer ((log.tallies producer).afterDrops drops) }

/-- All that a push can do. -/
theorem push_cases (log : QueueLog n) (producer : Fin n) (unit : AccessUnit) :
    (¬ log.queue.Admits ∧ log.call (.push producer unit) = log) ∨
    (log.queue.Admits ∧ log.queue.isFull = false ∧
      log.call (.push producer unit) = log.entered producer unit log.queue.backlog 0) ∨
    (log.queue.Admits ∧ log.queue.isFull = true ∧ log.queue.overflow = .dropOldest ∧
      log.call (.push producer unit) = log.entered producer unit log.queue.backlog.tail 1) := by
  have houtcome := log.queue.push_outcome unit
  have hadmits := houtcome.admits_iff
  unfold QueueLog.call
  dsimp only
  generalize log.queue.push unit = outcome at houtcome hadmits
  cases houtcome with
  | closed hclosed | stuck hopen hfull hpolicy =>
    have hrefused : ¬ log.queue.Admits := hadmits.not.mpr (by simp)
    exact Or.inl ⟨hrefused, by rw [pushed, if_neg hrefused]⟩
  | queued hopen hroom =>
    have haccepted : log.queue.Admits := hadmits.mpr ⟨_, _, rfl⟩
    exact Or.inr (Or.inl ⟨haccepted, hroom, by rw [pushed, if_pos haccepted]; rfl⟩)
  | displaced hopen hfull hpolicy =>
    have haccepted : log.queue.Admits := hadmits.mpr ⟨_, _, rfl⟩
    exact Or.inr (Or.inr ⟨haccepted, hfull, hpolicy, by rw [pushed, if_pos haccepted]; rfl⟩)

/-- A unit that is accepted is the last one that is queued. -/
theorem push_of_admits {log : QueueLog n} (h : log.queue.Admits) (producer : Fin n)
    (unit : AccessUnit) :
    ∃ kept drops, kept <:+ log.queue.backlog ∧
      log.call (.push producer unit) = log.entered producer unit kept drops := by
  rcases log.push_cases producer unit with ⟨hrefused, -⟩ | ⟨-, -, hnext⟩ | ⟨-, -, -, hnext⟩
  · exact absurd h hrefused
  · exact ⟨_, _, List.suffix_rfl, hnext⟩
  · exact ⟨_, _, List.tail_suffix _, hnext⟩

theorem push_of_not_admits {log : QueueLog n} (h : ¬ log.queue.Admits) (producer : Fin n)
    (unit : AccessUnit) : log.call (.push producer unit) = log := by
  rcases log.push_cases producer unit with ⟨-, hnext⟩ | ⟨haccepted, -⟩ | ⟨haccepted, -⟩
  · exact hnext
  · exact absurd haccepted h
  · exact absurd haccepted h

/-! ## The invariant -/

/-- What is queued, what was popped and what was counted make up what was accepted. -/
structure Accounted (capacity : Nat) (overflow : Overflow) (log : QueueLog n) : Prop where
  capacity_eq : log.queue.capacity = capacity
  overflow_eq : log.queue.overflow = overflow
  /-- Only the oldest units have gone. -/
  newest : log.queue.backlog <:+ log.accepted
  inOrder : (log.popped ++ log.queue.backlog).Sublist log.accepted
  bounded : log.queue.Bounded
  empty : log.queue.streaming = false → log.queue.backlog = []
  counted : log.dropsAtStop ≤ countDrops log.tallies
  balance : log.accepted.length =
    log.popped.length + (countDrops log.tallies - log.dropsAtStop) + log.queue.backlog.length

namespace Accounted

variable {capacity : Nat} {overflow : Overflow} {log : QueueLog n}

theorem of_fresh (tallies : Fin n → Tally) : (fresh capacity overflow tallies).Accounted capacity overflow where
  capacity_eq := rfl
  overflow_eq := rfl
  newest := List.suffix_rfl
  inOrder := .slnil
  bounded := fun _ => Nat.zero_le _
  empty := fun _ => rfl
  counted := Nat.le_refl _
  balance := by simp [fresh]

theorem stop (h : log.Accounted capacity overflow) :
    (log.call .stop).Accounted capacity overflow where
  capacity_eq := h.capacity_eq
  overflow_eq := h.overflow_eq
  newest := List.suffix_rfl
  inOrder := .slnil
  bounded := fun _ => Nat.zero_le _
  empty := fun _ => rfl
  counted := Nat.le_refl _
  balance := by simp [QueueLog.call, FrameQueue.stop]

/-- A unit goes behind what is kept of the others, and what is not kept is counted. -/
theorem entered (h : log.Accounted capacity overflow) (producer : Fin n) (unit : AccessUnit)
    {kept : List AccessUnit} {drops : Nat} (hopen : log.queue.streaming = true)
    (hkept : kept <:+ log.queue.backlog) (hcount : kept.length + drops = log.queue.backlog.length)
    (hroom : 0 < log.queue.capacity → kept.length < log.queue.capacity) :
    (log.entered producer unit kept drops).Accounted capacity overflow := by
  have hcounted := h.counted
  have hbalance := h.balance
  refine ⟨h.capacity_eq, h.overflow_eq, ?_, ?_, ?_, ?_, ?_, ?_⟩
  · obtain ⟨gone, hgone⟩ := hkept.trans h.newest
    exact ⟨gone, by rw [QueueLog.entered, ← hgone, List.append_assoc]⟩
  · have hrest := (hkept.sublist.append_left log.popped).trans h.inOrder
    rw [QueueLog.entered, ← List.append_assoc]
    exact hrest.append_right [unit]
  · intro hpos
    have hless := hroom hpos
    show (kept ++ [unit]).length ≤ log.queue.capacity
    rw [List.length_append, List.length_singleton]
    omega
  · intro hclosed
    have hboth : true = false := hopen.symm.trans hclosed
    cases hboth
  · rw [QueueLog.entered, countDrops_update]
    exact Nat.le_add_right_of_le hcounted
  · rw [QueueLog.entered, countDrops_update]
    simp only [List.length_append, List.length_singleton]
    omega

theorem push (h : log.Accounted capacity overflow) (producer : Fin n) (unit : AccessUnit) :
    (log.call (.push producer unit)).Accounted capacity overflow := by
  rcases log.push_cases producer unit with
    ⟨-, hnext⟩ | ⟨haccepted, hroom, hnext⟩ | ⟨haccepted, hfull, -, hnext⟩ <;> rw [hnext]
  · exact h
  · apply h.entered producer unit haccepted.1 List.suffix_rfl rfl
    intro hpos
    apply Nat.lt_of_not_le
    intro hle
    rw [FrameQueue.isFull_iff.mpr ⟨hpos, hle⟩] at hroom
    cases hroom
  · obtain ⟨oldest, rest, hbacklog⟩ :=
      List.exists_cons_of_ne_nil (FrameQueue.backlog_ne_nil_of_isFull hfull)
    have hcount : log.queue.backlog.tail.length + 1 = log.queue.backlog.length := by
      rw [hbacklog, List.tail_cons, List.length_cons]
    apply h.entered producer unit haccepted.1 (List.tail_suffix _) hcount
    intro hpos
    have hle := h.bounded hpos
    omega

/-- The oldest unit goes from what is queued to what was popped. -/
theorem receive (h : log.Accounted capacity overflow) {unit : AccessUnit} {queue : FrameQueue}
    (hreceive : log.queue.receive? = some (unit, queue)) :
    (log.took unit queue).Accounted capacity overflow := by
  obtain ⟨backlog, hbacklog, rfl⟩ := FrameQueue.receive?_eq_some_iff.mp hreceive
  obtain ⟨hcapacity, hoverflow, hnewest, hinOrder, hbounded, hempty, hcounted, hbalance⟩ := h
  rw [hbacklog] at hnewest hinOrder hempty hbalance
  refine ⟨hcapacity, hoverflow, ?_, ?_, ?_, ?_, hcounted, ?_⟩
  · exact (List.suffix_cons unit backlog).trans hnewest
  · show ((log.popped ++ [unit]) ++ backlog).Sublist log.accepted
    rw [List.append_assoc]
    exact hinOrder
  · intro hpos
    have hlength := hbounded hpos
    rw [hbacklog, List.length_cons] at hlength
    show backlog.length ≤ log.queue.capacity
    omega
  · intro hclosed
    cases hempty hclosed
  · show log.accepted.length = (log.popped ++ [unit]).length +
      (countDrops log.tallies - log.dropsAtStop) + backlog.length
    rw [List.length_append, List.length_singleton]
    rw [List.length_cons] at hbalance
    omega

theorem call (h : log.Accounted capacity overflow) (call : QueueCall n) :
    (log.call call).Accounted capacity overflow := by
  cases call with
  | start =>
    exact ⟨h.capacity_eq, h.overflow_eq, h.newest, h.inOrder, h.bounded,
      fun hclosed => Bool.noConfusion hclosed, h.counted, h.balance⟩
  | setFlushing flushing | addProducer | dropProducer =>
    exact ⟨h.capacity_eq, h.overflow_eq, h.newest, h.inOrder, h.bounded, h.empty, h.counted,
      h.balance⟩
  | stop => exact h.stop
  | push producer unit => exact h.push producer unit
  | pop =>
    unfold QueueLog.call
    cases hpop : log.queue.pop with
    | unit unit queue =>
      exact h.receive (FrameQueue.receive?_of_pop hpop)
    | failed _ | waits => exact h
  | tryPop =>
    unfold QueueLog.call
    cases hreceive : log.queue.receive? with
    | some taken => exact h.receive hreceive
    | none => exact h

theorem callAll (h : log.Accounted capacity overflow) (calls : List (QueueCall n)) :
    (log.callAll calls).Accounted capacity overflow := by
  induction calls generalizing log with
  | nil => exact h
  | cons call calls ih => exact ih (h.call call)

end Accounted

/-! ## What discards units -/

/-- A push to a full queue that drops puts its unit in the place of the oldest one. -/
theorem push_displaces (log : QueueLog n) (producer : Fin n) (unit : AccessUnit)
    (hopen : log.queue.streaming = true) (hfull : log.queue.isFull = true)
    (hpolicy : log.queue.overflow = .dropOldest) :
    log.call (.push producer unit) = log.entered producer unit log.queue.backlog.tail 1 := by
  rcases log.push_cases producer unit with
    ⟨hrefused, -⟩ | ⟨-, hroom, -⟩ | ⟨-, -, -, hnext⟩
  · refine absurd ⟨hopen, fun hwaits => ?_⟩ hrefused
    rw [hpolicy] at hwaits
    cases hwaits.1
  · rw [hfull] at hroom
    cases hroom
  · exact hnext

/-- Nothing else moves a counter. -/
theorem tallies_call (log : QueueLog n) (call : QueueCall n) :
    (log.call call).tallies = log.tallies ∨
      (∃ producer unit, call = .push producer unit) ∧ log.queue.streaming = true ∧
        log.queue.isFull = true ∧ log.queue.overflow = .dropOldest := by
  cases call with
  | start | stop | setFlushing _ | addProducer | dropProducer => exact Or.inl rfl
  | push producer unit =>
    rcases log.push_cases producer unit with
      ⟨-, hnext⟩ | ⟨-, -, hnext⟩ | ⟨haccepted, hfull, hpolicy, -⟩
    · exact Or.inl (congrArg tallies hnext)
    · exact Or.inl ((congrArg tallies hnext).trans (Function.update_eq_self producer log.tallies))
    · exact Or.inr ⟨⟨producer, unit, rfl⟩, haccepted.1, hfull, hpolicy⟩
  | pop =>
    unfold QueueLog.call
    cases log.queue.pop <;> exact Or.inl rfl
  | tryPop =>
    unfold QueueLog.call
    cases log.queue.receive? <;> exact Or.inl rfl

end QueueLog

/-- **What a queue holds.** For every capacity, both policies, any number of producers and every
sequence of operations, of the units that were accepted since the queue was last stopped, which are
those that were pushed while it was open, by pushes that had not to wait:

* the last ones are queued, and those popped before them were popped in order, each of them once;
* a bounded queue holds no more units than its capacity;
* each one was popped, was discarded and counted, or is queued;
* a queue that is not open is empty;
* a push to a full open queue that drops discards the oldest unit and counts one more, and no other
  operation moves a counter;
* a unit that is accepted goes behind the others, and a push of any other one does nothing; to an open
  queue that is a push that has to wait. -/
theorem queue_contents {n : Nat} (capacity : Nat) (overflow : Overflow) (tallies : Fin n → Tally)
    (calls : List (QueueCall n)) :
    let log := (QueueLog.fresh capacity overflow tallies).callAll calls
    log.queue.backlog <:+ log.accepted ∧
    (log.popped ++ log.queue.backlog).Sublist log.accepted ∧
    (0 < capacity → log.queue.backlog.length ≤ capacity) ∧
    log.accepted.length = log.popped.length + log.drops + log.queue.backlog.length ∧
    (log.queue.streaming = false → log.queue.backlog = []) ∧
    (∀ producer unit, log.queue.streaming = true → overflow = .dropOldest → 0 < capacity →
      log.queue.backlog.length = capacity →
      let next := log.call (.push producer unit)
      ∃ oldest rest, log.queue.backlog = oldest :: rest ∧ next.queue.backlog = rest ++ [unit] ∧
        ∀ other, (next.tallies other).overflowDrops =
          (log.tallies other).overflowDrops + if other = producer then 1 else 0) ∧
    (∀ call, (log.call call).tallies ≠ log.tallies →
      (∃ producer unit, call = .push producer unit) ∧ log.queue.streaming = true ∧
        overflow = .dropOldest ∧ 0 < capacity ∧ log.queue.backlog.length = capacity) ∧
    (∀ producer unit, log.queue.Admits →
      let next := log.call (.push producer unit)
      next.accepted = log.accepted ++ [unit] ∧
        ∃ kept, kept <:+ log.queue.backlog ∧ next.queue.backlog = kept ++ [unit]) ∧
    (∀ producer unit, ¬ log.queue.Admits → log.call (.push producer unit) = log) ∧
    ∀ unit, log.queue.push unit = .full ↔ log.queue.streaming = true ∧ ¬ log.queue.Admits := by
  intro log
  have h : log.Accounted capacity overflow := (QueueLog.Accounted.of_fresh tallies).callAll calls
  have hcapacity := h.capacity_eq
  have hbounded := h.bounded
  unfold FrameQueue.Bounded at hbounded
  rw [hcapacity] at hbounded
  refine ⟨h.newest, h.inOrder, hbounded, h.balance, h.empty, ?_, ?_, ?_, ?_, ?_⟩
  · intro producer unit hopen hpolicy hpos hlength next
    have hfull : log.queue.isFull = true := by
      rw [FrameQueue.isFull_iff, hcapacity]
      exact ⟨hpos, hlength.ge⟩
    have hnext : next = _ :=
      log.push_displaces producer unit hopen hfull (h.overflow_eq.trans hpolicy)
    obtain ⟨oldest, rest, hbacklog⟩ :=
      List.exists_cons_of_ne_nil (FrameQueue.backlog_ne_nil_of_isFull hfull)
    refine ⟨oldest, rest, hbacklog, ?_, ?_⟩
    · rw [hnext, QueueLog.entered, hbacklog, List.tail_cons]
    · intro other
      rw [hnext]
      exact QueueLog.overflowDrops_update log.tallies producer other 1
  · intro call hmoved
    obtain hsame | ⟨hpush, hopen, hfull, hpolicy⟩ := log.tallies_call call
    · exact absurd hsame hmoved
    · obtain ⟨hpos, hle⟩ := FrameQueue.isFull_iff.mp hfull
      rw [hcapacity] at hpos hle
      exact ⟨hpush, hopen, h.overflow_eq.symm.trans hpolicy, hpos,
        Nat.le_antisymm (hbounded hpos) hle⟩
  · intro producer unit haccepted next
    obtain ⟨kept, drops, hkept, hnext⟩ := QueueLog.push_of_admits haccepted producer unit
    have hentered : next = log.entered producer unit kept drops := hnext
    rw [hentered]
    exact ⟨rfl, kept, hkept, rfl⟩
  · exact fun producer unit hrefused => QueueLog.push_of_not_admits hrefused producer unit
  · exact fun unit => FrameQueue.push_eq_full_iff

/-- A queue that was stopped with a unit in it and started again, with a unit discarded, one popped and
two queued, and a queue on which a push has to wait. -/
theorem queue_contents_restarted :
    let first : AccessUnit := { data := [1], timing := none, keyframe := false }
    let second : AccessUnit := { data := [2], timing := none, keyframe := false }
    let third : AccessUnit := { data := [3], timing := none, keyframe := false }
    let fourth : AccessUnit := { data := [4], timing := none, keyframe := true }
    let calls : List (QueueCall 2) :=
      [.addProducer, .addProducer, .start, .push 0 first, .stop, .push 1 first, .start, .push 0 first,
        .push 1 second, .push 0 third, .pop, .push 1 fourth]
    let log := (QueueLog.fresh 2 .dropOldest fun _ => {}).callAll calls
    let waiting := (QueueLog.fresh 1 .block fun _ : Fin 1 => {}).callAll [.start, .push 0 first]
    (log.accepted = [first, second, third, fourth] ∧ log.popped = [second] ∧ log.drops = 1 ∧
      log.queue.backlog = [third, fourth]) ∧
    (log.queue.backlog <:+ log.accepted ∧
      log.accepted.length = log.popped.length + log.drops + log.queue.backlog.length) ∧
    ((log.call (.push 1 first)).accepted = log.accepted ++ [first] ∧
      (log.call (.push 1 first)).queue.backlog = [fourth, first] ∧
      ((log.call (.push 1 first)).tallies 1).overflowDrops = (log.tallies 1).overflowDrops + 1) ∧
    (waiting.queue.push second = .full ∧ waiting.call (.push 0 second) = waiting) := by
  intro first second third fourth calls log waiting
  have hlog : log.queue.streaming = true ∧ log.queue.Admits ∧ log.queue.backlog = [third, fourth] := by
    decide +kernel
  have hwaiting : waiting.queue.streaming = true ∧ ¬ waiting.queue.Admits := by decide +kernel
  have hcontents := queue_contents 2 .dropOldest (fun _ => {}) calls
  have hblocked := queue_contents 1 .block (fun _ : Fin 1 => {}) [.start, .push 0 first]
  -- The logs are kept as they are named, since unfolding them would run the queue.
  rw [show (QueueLog.fresh 2 .dropOldest fun _ => {}).callAll calls = log from rfl] at hcontents
  rw [show (QueueLog.fresh 1 .block fun _ : Fin 1 => {}).callAll [.start, .push 0 first] = waiting
    from rfl] at hblocked
  obtain ⟨hnewest, -, -, hbalance, -, hdisplaced, -, haccepted, -⟩ := hcontents
  obtain ⟨-, -, -, -, -, -, -, -, hrefused, hfull⟩ := hblocked
  obtain ⟨oldest, rest, hbacklog, hnext, hcounted⟩ :=
    hdisplaced 1 first hlog.1 rfl (by decide) (congrArg List.length hlog.2.2)
  obtain ⟨rfl, rfl⟩ := List.cons.inj (hlog.2.2.symm.trans hbacklog)
  exact ⟨by decide +kernel, ⟨hnewest, hbalance⟩,
    ⟨(haccepted 1 first hlog.2.1).1, hnext, hcounted 1⟩,
    (hfull second).mpr hwaiting, hrefused 0 second hwaiting.2⟩

end CamStream
