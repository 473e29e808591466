import CamStream.FrameQueue

/-!
# Pushes and pops, one channel step at a time

Producers and the consumer meet in the channel: a unit is sent if there is room, and the oldest one
is received if there is one. A push or a pop makes several such steps, and looks at the flags and at
the number of producers in between, so that others may act while it is under way.

* `push_outcome`, `pop_outcome`: all ways in which a push or a pop ends that nobody interrupts.
* `pushStep`, `popStep`, `stopStep`: one step of a push, a pop or a stop.
* `pushStep_goes`, `popStep_goes`: all ways in which a push or a pop can go on.
* `exists_pushAlone`, `exists_popAlone`, `exists_stopAlone`: the steps of an operation that nobody
  interrupts lead to the end that `push`, `pop` or `stop` gives it.
-/

namespace CamStream

namespace FrameQueue

variable {queue after : FrameQueue} {unit : AccessUnit}

/-! ## The channel -/

/-- No more units than a bounded queue may hold. -/
def Bounded (queue : FrameQueue) : Prop :=
  0 < queue.capacity → queue.backlog.length ≤ queue.capacity

theorem isFull_iff :
    queue.isFull = true ↔ 0 < queue.capacity ∧ queue.capacity ≤ queue.backlog.length := by
  simp [isFull]

theorem backlog_ne_nil_of_isFull (h : queue.isFull = true) : queue.backlog ≠ [] := by
  obtain ⟨hpos, hlength⟩ := isFull_iff.mp h
  intro hnil
  rw [hnil, List.length_nil] at hlength
  omega

theorem send?_eq_none_iff : queue.send? unit = none ↔ queue.isFull = true := by
  cases hfull : queue.isFull <;> simp [send?, hfull]

theorem send?_eq_some_iff :
    queue.send? unit = some after ↔
      queue.isFull = false ∧ after = { queue with backlog := queue.backlog ++ [unit] } := by
  cases hfull : queue.isFull <;> simp [send?, hfull, eq_comm]

theorem receive?_eq_none_iff : queue.receive? = none ↔ queue.backlog = [] := by
  cases h : queue.backlog <;> simp [receive?, h]

theorem receive?_eq_some_iff :
    queue.receive? = some (unit, after) ↔
      ∃ backlog, queue.backlog = unit :: backlog ∧ after = { queue with backlog } := by
  cases h : queue.backlog with
  | nil => simp [receive?, h]
  | cons first backlog =>
    simp only [receive?, h, Option.some.injEq, Prod.mk.injEq, List.cons.injEq]
    constructor
    · rintro ⟨rfl, rfl⟩
      exact ⟨backlog, ⟨rfl, rfl⟩, rfl⟩
    · rintro ⟨_, ⟨rfl, rfl⟩, rfl⟩
      exact ⟨rfl, rfl⟩

theorem backlog_of_receive? (h : queue.receive? = some (unit, after)) :
    queue.backlog = unit :: after.backlog := by
  obtain ⟨backlog, hbacklog, rfl⟩ := receive?_eq_some_iff.mp h
  exact hbacklog

/-! ## The ends of a push -/

/-- The ways a push can end. -/
inductive Pushes (queue : FrameQueue) (unit : AccessUnit) : PushOutcome → Prop
  | closed (hclosed : queue.streaming = false) : Pushes queue unit .discarded
  | queued (hopen : queue.streaming = true) (hroom : queue.isFull = false) :
      Pushes queue unit (.queued { queue with backlog := queue.backlog ++ [unit] } false)
  | displaced (hopen : queue.streaming = true) (hfull : queue.isFull = true)
      (hpolicy : queue.overflow = .dropOldest) :
      Pushes queue unit (.queued { queue with backlog := queue.backlog.tail ++ [unit] } true)
  | stuck (hopen : queue.streaming = true) (hfull : queue.isFull = true)
      (hpolicy : queue.overflow = .block) : Pushes queue unit .full

theorem push_outcome (queue : FrameQueue) (unit : AccessUnit) :
    queue.Pushes unit (queue.push unit) := by
  unfold push
  split
  · rename_i hopen
    split
    · rename_i hsend
      obtain ⟨hroom, rfl⟩ := send?_eq_some_iff.mp hsend
      exact .queued hopen hroom
    · rename_i hsend
      have hfull := send?_eq_none_iff.mp hsend
      split
      · rename_i hpolicy
        exact .displaced hopen hfull hpolicy
      · rename_i hpolicy
        exact .stuck hopen hfull hpolicy
  · rename_i hclosed
    exact .closed (Bool.eq_false_iff.mpr hclosed)

/-- A push adds its unit behind the others, of which it may discard some. -/
theorem backlog_of_push {evicted : Bool} (h : queue.push unit = .queued after evicted) :
    after.backlog.Sublist (queue.backlog ++ [unit]) := by
  have houtcome := queue.push_outcome unit
  rw [h] at houtcome
  cases houtcome with
  | queued hopen hroom => exact List.Sublist.refl _
  | displaced hopen hfull hpolicy => exact (List.tail_sublist _).append_right _

/-! ## The ends of a pop -/

/-- The ways a pop can end. -/
inductive Pops (queue : FrameQueue) : PopOutcome → Prop
  | flushing (hflushing : queue.flushing = true) : Pops queue (.failed .flushing)
  | notStarted (hcalm : queue.flushing = false) (hclosed : queue.streaming = false) :
      Pops queue (.failed .notStarted)
  | unit (unit : AccessUnit) (backlog : List AccessUnit) (hcalm : queue.flushing = false)
      (hopen : queue.streaming = true) (hbacklog : queue.backlog = unit :: backlog) :
      Pops queue (.unit unit { queue with backlog })
  | ended (hcalm : queue.flushing = false) (hopen : queue.streaming = true)
      (hempty : queue.backlog = []) (hgone : queue.producers = 0) : Pops queue (.failed .closed)
  | waits (hcalm : queue.flushing = false) (hopen : queue.streaming = true)
      (hempty : queue.backlog = []) (hlive : queue.producers ≠ 0) : Pops queue .waits

theorem pop_outcome (queue : FrameQueue) : queue.Pops queue.pop := by
  unfold pop
  split
  · rename_i hflushing
    exact .flushing hflushing
  · rename_i hcalm
    have hcalm := Bool.eq_false_iff.mpr hcalm
    split
    · rename_i hclosed
      exact .notStarted hcalm (Bool.not_eq_true' _ ▸ hclosed)
    · rename_i hopen
      have hopen : queue.streaming = true := by simpa using hopen
      split
      · rename_i hreceive
        obtain ⟨backlog, hbacklog, rfl⟩ := receive?_eq_some_iff.mp hreceive
        exact .unit _ backlog hcalm hopen hbacklog
      · rename_i hreceive
        have hempty := receive?_eq_none_iff.mp hreceive
        split
        · rename_i hgone
          exact .ended hcalm hopen hempty hgone
        · rename_i hlive
          exact .waits hcalm hopen hempty hlive

/-- A pop that gives a unit gives the one that can be received. -/
theorem receive?_of_pop (h : queue.pop = .unit unit after) :
    queue.receive? = some (unit, after) := by
  have houtcome := queue.pop_outcome
  rw [h] at houtcome
  cases houtcome with
  | unit _ backlog hcalm hopen hbacklog =>
    exact receive?_eq_some_iff.mpr ⟨backlog, hbacklog, rfl⟩

end FrameQueue

/-! ## A push in steps -/

/-- Where a push has got to. -/
inductive PushPhase where
  /-- It has still to look whether the queue is open. -/
  | arriving
  /-- It is about to send its unit. -/
  | sending
  /-- There was no room for its unit. -/
  | refused
  /-- It is over, and its unit went into the channel. -/
  | queued
  /-- It is over, and its unit went nowhere. -/
  | discarded
deriving DecidableEq, Repr

/-- Whether a push is over. -/
def PushPhase.isOver : PushPhase → Bool
  | queued | discarded => true
  | arriving | sending | refused => false

/-- What a step of a push leaves. -/
structure PushMove where
  queue : FrameQueue
  /-- The unit that was discarded to make room. -/
  evicted : Option AccessUnit := none
  phase : PushPhase
deriving DecidableEq, Repr

/-- Where a pop has got to. -/
inductive PopPhase where
  /-- It has still to look at the flags. -/
  | looking
  /-- It is about to receive a unit. -/
  | receiving
  /-- No unit came for a while, and it has to look whether there are producers. -/
  | asking
  /-- There are none, and it is about to receive for the last time. -/
  | lastLook
  | got (unit : AccessUnit)
  | failed (failure : PopFailure)
deriving DecidableEq, Repr

/-- Whether a pop is over. -/
def PopPhase.isOver : PopPhase → Bool
  | got _ | failed _ => true
  | looking | receiving | asking | lastLook => false

namespace FrameQueue

variable {queue : FrameQueue} {unit : AccessUnit}

/-- One step of a push. Where there was no room, the oldest unit is discarded if others have left
one, or the push waits, unless the queue was closed or flushed. Then it tries again. -/
def pushStep (queue : FrameQueue) (unit : AccessUnit) : PushPhase → PushMove
  | .arriving => { queue, phase := if queue.streaming then .sending else .discarded }
  | .sending =>
    match queue.send? unit with
    | some queue => { queue, phase := .queued }
    | none => { queue, phase := .refused }
  | .refused =>
    match queue.overflow with
    | .dropOldest =>
      match queue.receive? with
      | some (oldest, queue) => { queue, evicted := some oldest, phase := .sending }
      | none => { queue, phase := .sending }
    | .block =>
      { queue, phase := if queue.streaming && !queue.flushing then .sending else .discarded }
  | .queued => { queue, phase := .queued }
  | .discarded => { queue, phase := .discarded }

/-- So many steps of a push one after the other: the queue, how many units it has discarded, and
where it has got to. -/
def pushAlone (queue : FrameQueue) (unit : AccessUnit) : Nat → PushPhase → FrameQueue × Nat × PushPhase
  | 0, phase => (queue, 0, phase)
  | steps + 1, phase =>
    let move := queue.pushStep unit phase
    let (queue, drops, phase) := move.queue.pushAlone unit steps move.phase
    (queue, move.evicted.toList.length + drops, phase)

/-- Where the steps of a push lead that ends in the given way. -/
def endOfPush (queue : FrameQueue) : PushOutcome → FrameQueue × Nat × PushPhase
  | .queued after evicted => (after, evicted.toNat, .queued)
  | .discarded => (queue, 0, .discarded)
  | .full => (queue, 0, .refused)

theorem pushStep_sending (hroom : queue.isFull = false) :
    queue.pushStep unit .sending =
      { queue := { queue with backlog := queue.backlog ++ [unit] }, phase := .queued } := by
  simp only [pushStep, send?_eq_some_iff.mpr ⟨hroom, rfl⟩]

theorem pushStep_sending_full (hfull : queue.isFull = true) :
    queue.pushStep unit .sending = { queue, phase := .refused } := by
  simp only [pushStep, send?_eq_none_iff.mpr hfull]

theorem pushStep_evict (hpolicy : queue.overflow = .dropOldest) {oldest : AccessUnit}
    {backlog : List AccessUnit} (hbacklog : queue.backlog = oldest :: backlog) :
    queue.pushStep unit .refused =
      { queue := { queue with backlog }, evicted := some oldest, phase := .sending } := by
  simp only [pushStep, hpolicy, receive?_eq_some_iff.mpr ⟨backlog, hbacklog, rfl⟩]

/-- On a queue that was neither closed nor flushed, a push that may not discard tries again. -/
theorem pushStep_retry (hpolicy : queue.overflow = .block) (hopen : queue.streaming = true)
    (hcalm : queue.flushing = false) :
    queue.pushStep unit .refused = { queue, phase := .sending } := by
  simp only [pushStep, hpolicy, hopen, hcalm, Bool.not_false, Bool.and_self, if_true]

theorem pushStep_arriving (hopen : queue.streaming = true) :
    queue.pushStep unit .arriving = { queue, phase := .sending } := by
  simp only [pushStep, hopen, if_true]

/-- The ways in which a push that is not over can go on. -/
inductive PushGoes (queue : FrameQueue) (unit : AccessUnit) : PushPhase → PushMove → Prop
  | enters (hopen : queue.streaming = true) :
      PushGoes queue unit .arriving { queue, phase := .sending }
  | sends (hroom : queue.isFull = false) :
      PushGoes queue unit .sending
        { queue := { queue with backlog := queue.backlog ++ [unit] }, phase := .queued }
  | finds (hfull : queue.isFull = true) : PushGoes queue unit .sending { queue, phase := .refused }
  | evicts (oldest : AccessUnit) (backlog : List AccessUnit)
      (hbacklog : queue.backlog = oldest :: backlog) :
      PushGoes queue unit .refused
        { queue := { queue with backlog }, evicted := some oldest, phase := .sending }
  | retries : PushGoes queue unit .refused { queue, phase := .sending }
  | givesUp (phase : PushPhase) : PushGoes queue unit phase { queue, phase := .discarded }

theorem pushStep_goes (queue : FrameQueue) (unit : AccessUnit) {phase : PushPhase}
    (hover : phase.isOver = false) : queue.PushGoes unit phase (queue.pushStep unit phase) := by
  cases phase with
  | arriving =>
    cases hopen : queue.streaming with
    | true =>
      rw [pushStep_arriving hopen]
      exact .enters hopen
    | false =>
      simp only [pushStep, hopen, Bool.false_eq_true, if_false]
      exact .givesUp _
  | sending =>
    cases hfull : queue.isFull with
    | true =>
      rw [pushStep_sending_full hfull]
      exact .finds hfull
    | false =>
      rw [pushStep_sending hfull]
      exact .sends hfull
  | refused =>
    cases hpolicy : queue.overflow with
    | dropOldest =>
      cases hbacklog : queue.backlog with
      | nil =>
        simp only [pushStep, hpolicy, receive?_eq_none_iff.mpr hbacklog]
        exact .retries
      | cons oldest backlog =>
        rw [pushStep_evict hpolicy hbacklog]
        exact .evicts oldest backlog hbacklog
    | block =>
      simp only [pushStep, hpolicy]
      split
      · exact .retries
      · exact .givesUp _
  | queued | discarded => cases hover

/-- Alone with the queue, a push in steps ends as `push` says. -/
theorem exists_pushAlone (hbound : queue.Bounded) :
    ∃ steps, queue.pushAlone unit steps .arriving = queue.endOfPush (queue.push unit) := by
  have houtcome := queue.push_outcome unit
  generalize queue.push unit = outcome at houtcome
  cases houtcome with
  | closed hclosed => exact ⟨1, by simp [pushAlone, pushStep, endOfPush, hclosed]⟩
  | queued hopen hroom =>
    refine ⟨2, ?_⟩
    simp only [pushAlone, pushStep_arriving hopen, pushStep_sending hroom]
    rfl
  | displaced hopen hfull hpolicy =>
    obtain ⟨hpos, hle⟩ := isFull_iff.mp hfull
    obtain ⟨oldest, backlog, hbacklog⟩ :=
      List.exists_cons_of_ne_nil (backlog_ne_nil_of_isFull hfull)
    -- Behind the eviction there is room for exactly one unit.
    have hroom : ({ queue with backlog } : FrameQueue).isFull = false := by
      have hlength := hbound hpos
      rw [hbacklog, List.length_cons] at hlength
      rw [← Bool.not_eq_true, isFull_iff]
      intro hfull
      have hstill := hfull.2
      dsimp only at hstill
      omega
    refine ⟨4, ?_⟩
    simp only [pushAlone, pushStep_arriving hopen, pushStep_sending_full hfull,
      pushStep_evict hpolicy hbacklog, pushStep_sending hroom, endOfPush, hbacklog]
    rfl
  | stuck hopen hfull hpolicy =>
    refine ⟨2, ?_⟩
    simp only [pushAlone, pushStep_arriving hopen, pushStep_sending_full hfull]
    rfl

/-! ## A pop in steps -/

/-- One step of a pop. It waits for a unit for a while only; if none comes while there are
producers, it begins again. -/
def popStep (queue : FrameQueue) : PopPhase → FrameQueue × PopPhase
  | .looking =>
    (queue,
      if queue.flushing then .failed .flushing
      else if queue.streaming then .receiving else .failed .notStarted)
  | .receiving =>
    match queue.receive? with
    | some (unit, queue) => (queue, .got unit)
    | none => (queue, .asking)
  | .asking => (queue, if queue.producers = 0 then .lastLook else .looking)
  | .lastLook =>
    match queue.receive? with
    | some (unit, queue) => (queue, .got unit)
    | none => (queue, .failed .closed)
  | .got unit => (queue, .got unit)
  | .failed failure => (queue, .failed failure)

theorem popStep_looking (hcalm : queue.flushing = false) (hopen : queue.streaming = true) :
    queue.popStep .looking = (queue, .receiving) := by
  simp only [popStep, hcalm, hopen, Bool.false_eq_true, if_false, if_true]

theorem popStep_receiving_nil (hempty : queue.backlog = []) :
    queue.popStep .receiving = (queue, .asking) := by
  simp only [popStep, receive?_eq_none_iff.mpr hempty]

theorem popStep_asking (hlive : queue.producers ≠ 0) : queue.popStep .asking = (queue, .looking) := by
  simp only [popStep, hlive, if_false]

theorem popStep_asking_gone (hgone : queue.producers = 0) :
    queue.popStep .asking = (queue, .lastLook) := by
  simp only [popStep, hgone, if_true]

theorem popStep_lastLook_nil (hempty : queue.backlog = []) :
    queue.popStep .lastLook = (queue, .failed .closed) := by
  simp only [popStep, receive?_eq_none_iff.mpr hempty]

/-- A pop that receives takes the oldest unit, also when it looks for the last time. -/
theorem popStep_got {backlog : List AccessUnit} (hbacklog : queue.backlog = unit :: backlog)
    {phase : PopPhase} (hphase : phase = .receiving ∨ phase = .lastLook) :
    queue.popStep phase = ({ queue with backlog }, .got unit) := by
  have hreceive : queue.receive? = some (unit, { queue with backlog }) :=
    receive?_eq_some_iff.mpr ⟨backlog, hbacklog, rfl⟩
  rcases hphase with rfl | rfl <;> simp only [popStep, hreceive]

/-- The ways in which a pop that is not over can go on. -/
inductive PopGoes (queue : FrameQueue) : PopPhase → FrameQueue × PopPhase → Prop
  | refuses (failure : PopFailure) (hopen : failure ≠ .closed) :
      PopGoes queue .looking (queue, .failed failure)
  | enters : PopGoes queue .looking (queue, .receiving)
  | gets (phase : PopPhase) (unit : AccessUnit) (backlog : List AccessUnit)
      (hbacklog : queue.backlog = unit :: backlog) :
      PopGoes queue phase ({ queue with backlog }, .got unit)
  | misses : PopGoes queue .receiving (queue, .asking)
  | retries (hlive : queue.producers ≠ 0) : PopGoes queue .asking (queue, .looking)
  | learns (hgone : queue.producers = 0) : PopGoes queue .asking (queue, .lastLook)
  | ends (hempty : queue.backlog = []) : PopGoes queue .lastLook (queue, .failed .closed)

theorem popStep_goes (queue : FrameQueue) {phase : PopPhase} (hover : phase.isOver = false) :
    queue.PopGoes phase (queue.popStep phase) := by
  cases phase with
  | looking =>
    unfold popStep
    dsimp only
    split
    · exact .refuses _ (by decide)
    · split
      · exact .enters
      · exact .refuses _ (by decide)
  | receiving =>
    cases hbacklog : queue.backlog with
    | nil =>
      rw [popStep_receiving_nil hbacklog]
      exact .misses
    | cons unit backlog =>
      rw [popStep_got hbacklog (Or.inl rfl)]
      exact .gets _ unit backlog hbacklog
  | asking =>
    by_cases hgone : queue.producers = 0
    · rw [popStep_asking_gone hgone]
      exact .learns hgone
    · rw [popStep_asking hgone]
      exact .retries hgone
  | lastLook =>
    cases hbacklog : queue.backlog with
    | nil =>
      rw [popStep_lastLook_nil hbacklog]
      exact .ends hbacklog
    | cons unit backlog =>
      rw [popStep_got hbacklog (Or.inr rfl)]
      exact .gets _ unit backlog hbacklog
  | got unit | failed failure => cases hover

/-- So many steps of a pop one after the other. -/
def popAlone (queue : FrameQueue) : Nat → PopPhase → FrameQueue × PopPhase
  | 0, phase => (queue, phase)
  | steps + 1, phase =>
    let (queue, phase) := queue.popStep phase
    queue.popAlone steps phase

/-- Where the steps of a pop lead that ends in the given way. -/
def endOfPop (queue : FrameQueue) : PopOutcome → FrameQueue × PopPhase
  | .unit unit after => (after, .got unit)
  | .failed failure => (queue, .failed failure)
  | .waits => (queue, .looking)

/-- Alone with the queue, a pop in steps ends as `pop` says, or has still to look. -/
theorem exists_popAlone : ∃ steps, 0 < steps ∧
    queue.popAlone steps .looking = queue.endOfPop queue.pop := by
  have houtcome := queue.pop_outcome
  generalize queue.pop = outcome at houtcome
  cases houtcome with
  | flushing hflushing => exact ⟨1, by omega, by simp [popAlone, popStep, endOfPop, hflushing]⟩
  | notStarted hcalm hclosed =>
    exact ⟨1, by omega, by simp [popAlone, popStep, endOfPop, hcalm, hclosed]⟩
  | unit unit backlog hcalm hopen hbacklog =>
    refine ⟨2, by omega, ?_⟩
    simp only [popAlone, popStep_looking hcalm hopen, popStep_got hbacklog (Or.inl rfl)]
    rfl
  | ended hcalm hopen hempty hgone =>
    refine ⟨4, by omega, ?_⟩
    simp only [popAlone, popStep_looking hcalm hopen, popStep_receiving_nil hempty,
      popStep_asking_gone hgone, popStep_lastLook_nil hempty]
    rfl
  | waits hcalm hopen hempty hlive =>
    refine ⟨3, by omega, ?_⟩
    simp only [popAlone, popStep_looking hcalm hopen, popStep_receiving_nil hempty,
      popStep_asking hlive]
    rfl

/-- Alone with an open queue that is empty while there are producers, a pop never ends. -/
theorem popAlone_waits (hcalm : queue.flushing = false) (hopen : queue.streaming = true)
    (hempty : queue.backlog = []) (hlive : queue.producers ≠ 0) (steps : Nat) {phase : PopPhase}
    (hphase : phase = .looking ∨ phase = .receiving ∨ phase = .asking) :
    ∃ next, queue.popAlone steps phase = (queue, next) ∧ next.isOver = false := by
  -- The three phases follow each other in a circle.
  induction steps generalizing phase with
  | zero => exact ⟨phase, rfl, by rcases hphase with rfl | rfl | rfl <;> rfl⟩
  | succ steps ih =>
    rcases hphase with rfl | rfl | rfl
    · rw [popAlone, popStep_looking hcalm hopen]
      exact ih (Or.inr (Or.inl rfl))
    · rw [popAlone, popStep_receiving_nil hempty]
      exact ih (Or.inr (Or.inr rfl))
    · rw [popAlone, popStep_asking hlive]
      exact ih (Or.inl rfl)

/-! ## A stop in steps -/

/-- One step of a stop: the first one closes the queue, the others discard what is still queued. It
ends with the step that finds nothing more. The flag says whether it has begun. -/
def stopStep (queue : FrameQueue) (draining : Bool) : FrameQueue × Option AccessUnit × Bool :=
  if draining then
    match queue.receive? with
    | some (oldest, queue) => (queue, some oldest, true)
    | none => (queue, none, false)
  else ({ queue with streaming := false }, none, true)

/-- So many steps of a stop that has begun, one after the other. -/
def drainAlone (queue : FrameQueue) : Nat → FrameQueue × List AccessUnit × Bool
  | 0 => (queue, [], true)
  | steps + 1 =>
    match queue.stopStep true with
    | (queue, some oldest, _) =>
      let (queue, discarded, draining) := queue.drainAlone steps
      (queue, oldest :: discarded, draining)
    | (queue, none, _) => (queue, [], false)

theorem drainAlone_length (queue : FrameQueue) :
    queue.drainAlone (queue.backlog.length + 1) =
      ({ queue with backlog := [] }, queue.backlog, false) := by
  induction hbacklog : queue.backlog generalizing queue with
  | nil =>
    have hstep : queue.stopStep true = (queue, none, false) := by
      simp only [stopStep, if_true, receive?_eq_none_iff.mpr hbacklog]
    rw [drainAlone, hstep, ← hbacklog]
  | cons oldest backlog ih =>
    have hstep : queue.stopStep true = ({ queue with backlog }, some oldest, true) := by
      simp only [stopStep, if_true, receive?_eq_some_iff.mpr ⟨backlog, hbacklog, rfl⟩]
    have hrest := ih { queue with backlog } rfl
    rw [List.length_cons, drainAlone, hstep]
    simp only [hrest]

/-- Alone with the queue, a stop in steps ends as `stop` says. -/
theorem exists_stopAlone (queue : FrameQueue) : ∃ steps,
    (queue.stopStep false).1.drainAlone steps = (queue.stop, queue.backlog, false) :=
  ⟨queue.backlog.length + 1, drainAlone_length _⟩

end FrameQueue

end CamStream
