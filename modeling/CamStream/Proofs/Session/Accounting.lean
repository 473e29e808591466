import CamStream.Proofs.Framing.Runs
import CamStream.Proofs.Queue.Channel
import CamStream.Session
import CamStream.Store.Memory
import Mathlib.Data.List.ReduceOption

/-!
# The accounts of a session

A session counts its frames and the units that it hands on, and the queue counts the units that it
discards. The counters are bumped in different places, and have to balance after each call: what was
handed on is popped, queued or discarded.

A frame without bytes is counted, and that is all. So a run is the run without these frames, but for two
counters.

* `SessionLog.Balanced`: the invariant.
* `SessionLog.isSome_callAll`: a queue that drops, or has no bound, makes no push wait.
* `SessionLog.call_withEmpty`: no call depends on how many frames were counted.
* `session_accounted`: the balance after every run, and the run without the empty frames.
-/

namespace CamStream

/-! ## Calls -/

/-- What can be asked of a session and its queue. -/
inductive SessionCall where
  | onFrame (frame : CaptureFrame)
  | pop
  | tryPop
deriving DecidableEq, Repr

namespace SessionCall

def isFrame : SessionCall → Bool
  | onFrame _ => true
  | pop | tryPop => false

/-- Whether the call is a frame without bytes. -/
def isEmptyFrame : SessionCall → Bool
  | onFrame frame => frame.data.isEmpty
  | pop | tryPop => false

end SessionCall

/-- Whether one of the units would have to wait for room. -/
def FrameQueue.hasToWait (queue : FrameQueue) : List AccessUnit → Bool
  | [] => false
  | unit :: units =>
    match queue.push unit with
    | .queued queue _ => queue.hasToWait units
    | .discarded => queue.hasToWait units
    | .full => true

/-- Push units in order, unless one of them would have to wait. -/
def FrameQueue.pushAll? (queue : FrameQueue) (units : List AccessUnit) : Option (FrameQueue × Nat) :=
  if queue.hasToWait units then none else some (queue.pushAll units)

/-- A session with its counters, what a store keeps for it, its queue, and what the pops gave. -/
structure SessionLog (σ : Type) where
  session : Session
  tally : Tally := {}
  disk : σ
  queue : FrameQueue
  /-- What each pop gave, nothing where there was no unit. -/
  given : List (Option AccessUnit) := []

namespace SessionLog

variable {σ : Type}

/-- A session on an open and empty queue, with nothing counted. -/
def opened (session : Session) (disk : σ) (capacity : Nat) (overflow : Overflow) : SessionLog σ where
  session
  disk
  queue := ({ capacity, overflow : FrameQueue }).addProducer.start

/-- The units that were popped. -/
def popped (log : SessionLog σ) : List AccessUnit := log.given.reduceOption

/-- The log after a pop that gave a unit, or nothing. -/
def received (log : SessionLog σ) : Option (AccessUnit × FrameQueue) → SessionLog σ
  | some (unit, queue) => { log with queue, given := log.given ++ [some unit] }
  | none => { log with given := log.given ++ [none] }

/-- The log after a call, unless a push would have to wait. -/
def call (keeper? : Option (Keeper (StateM σ))) (log : SessionLog σ) :
    SessionCall → Option (SessionLog σ)
  | .onFrame frame =>
    let ((units, session, tally), disk) :=
      (log.session.onFrame keeper? log.tally frame).run log.disk
    (log.queue.pushAll? units).map fun (queue, drops) =>
      { log with session, disk, queue, tally := tally.afterDrops drops }
  | .pop =>
    match log.queue.pop with
    | .unit unit queue => some (log.received (some (unit, queue)))
    | .failed _ | .waits => some (log.received none)
  | .tryPop => some (log.received log.queue.receive?)

/-- The log after calls, in order. -/
def callAll (keeper? : Option (Keeper (StateM σ))) (log : SessionLog σ)
    (calls : List SessionCall) : Option (SessionLog σ) :=
  calls.foldlM (fun log call => log.call keeper? call) log

/-- More frames without bytes are counted. -/
def withEmpty (log : SessionLog σ) (count : Nat) : SessionLog σ :=
  { log with
    tally :=
      { log.tally with
        framesReceived := log.tally.framesReceived + count
        emptyFrames := log.tally.emptyFrames + count } }

end SessionLog

/-! ## One frame -/

section Frame

variable {σ : Type} (keeper? : Option (Keeper (StateM σ))) (session : Session) (frame : CaptureFrame)
  (disk : σ)

/-- A frame counts itself, its units and the writes of the store. What it does else does not depend on
what was counted before. -/
theorem Session.onFrame_adds :
    ∃ writes failures after, ∀ tally, (session.onFrame keeper? tally frame).run disk =
      (((session.take frame).1.units, (session.take frame).2,
        (tally.afterFrame (session.take frame).1).plusWrites writes failures), after) := by
  obtain ⟨writes, failures, after, hkept⟩ := keepChange_adds keeper? (session.take frame).1.fates
    (session.take frame).2.framer.sets disk
  refine ⟨writes, failures, after, fun tally => ?_⟩
  rw [onFrame, StateT.run_bind, hkept]
  rfl

theorem Session.isEmpty_take : (session.take frame).1.isEmpty = frame.data.isEmpty := by
  unfold take
  split <;> simp_all

end Frame

namespace FrameQueue

/-- All that is pushed to an open queue is queued, at the price of the units that are counted. -/
theorem length_pushAll {queue : FrameQueue} (hopen : queue.streaming = true) {units : List AccessUnit}
    (hfree : queue.hasToWait units = false) :
    (queue.pushAll units).1.streaming = true ∧
      queue.backlog.length + units.length =
        (queue.pushAll units).1.backlog.length + (queue.pushAll units).2 := by
  induction units generalizing queue with
  | nil => exact ⟨hopen, rfl⟩
  | cons unit units ih =>
    have houtcome := queue.push_outcome unit
    rw [hasToWait] at hfree
    rw [pushAll]
    generalize queue.push unit = outcome at houtcome hfree
    cases houtcome with
    | closed hclosed =>
      rw [hopen] at hclosed
      cases hclosed
    | queued =>
      have hfree : hasToWait { queue with backlog := queue.backlog ++ [unit] } units = false := hfree
      obtain ⟨hstreaming, hlength⟩ := ih (by exact hopen) hfree
      refine ⟨hstreaming, ?_⟩
      simp only [List.length_append, List.length_singleton] at hlength
      simp only [List.length_cons, Bool.toNat_false]
      omega
    | displaced _ hfull =>
      have hfree : hasToWait { queue with backlog := queue.backlog.tail ++ [unit] } units = false :=
        hfree
      obtain ⟨hstreaming, hlength⟩ := ih (by exact hopen) hfree
      have hsome := List.length_pos_of_ne_nil (backlog_ne_nil_of_isFull hfull)
      refine ⟨hstreaming, ?_⟩
      simp only [List.length_append, List.length_singleton, List.length_tail] at hlength
      simp only [List.length_cons, Bool.toNat_true]
      omega
    | stuck => cases hfree

theorem length_pushAll? {queue after : FrameQueue} (hopen : queue.streaming = true)
    {units : List AccessUnit} {drops : Nat} (hpushed : queue.pushAll? units = some (after, drops)) :
    after.streaming = true ∧ queue.backlog.length + units.length = after.backlog.length + drops := by
  unfold pushAll? at hpushed
  split at hpushed
  · cases hpushed
  · rename_i hfree
    have hlength := length_pushAll hopen (Bool.eq_false_iff.mpr hfree)
    rw [Option.some.inj hpushed] at hlength
    exact hlength

/-- A queue that never makes a push wait. -/
def Prompt (queue : FrameQueue) : Prop := queue.overflow = .dropOldest ∨ queue.capacity = 0

theorem Prompt.pushAll {queue : FrameQueue} (h : queue.Prompt) (units : List AccessUnit) :
    queue.hasToWait units = false ∧ (queue.pushAll units).1.Prompt := by
  induction units generalizing queue with
  | nil => exact ⟨rfl, h⟩
  | cons unit units ih =>
    have houtcome := queue.push_outcome unit
    rw [hasToWait, FrameQueue.pushAll]
    generalize queue.push unit = outcome at houtcome
    cases houtcome with
    | closed => exact ih h
    | queued | displaced => exact ih (by exact h)
    | stuck _ hfull hpolicy =>
      have hbound := (isFull_iff.mp hfull).1
      rcases h with hdrops | hunbounded
      · rw [hpolicy] at hdrops
        cases hdrops
      · omega

theorem Prompt.exists_pushAll? {queue : FrameQueue} (h : queue.Prompt) (units : List AccessUnit) :
    ∃ after drops, queue.pushAll? units = some (after, drops) ∧ after.Prompt := by
  obtain ⟨hfree, hprompt⟩ := h.pushAll units
  exact ⟨_, _, if_neg (by simp [hfree]), hprompt⟩

end FrameQueue

/-! ## The accounts -/

namespace SessionLog

variable {σ : Type} {keeper? : Option (Keeper (StateM σ))} {log next : SessionLog σ}

/-- What was handed on is popped, queued or discarded. -/
structure Balanced (log : SessionLog σ) : Prop where
  streaming : log.queue.streaming = true
  balance : log.tally.unitsEmitted =
    log.popped.length + log.queue.backlog.length + log.tally.overflowDrops

theorem balanced_opened (session : Session) (disk : σ) (capacity : Nat) (overflow : Overflow) :
    (opened session disk capacity overflow).Balanced := ⟨rfl, rfl⟩

/-- A call that is no frame gives the oldest unit, or nothing. -/
theorem call_cases (keeper? : Option (Keeper (StateM σ))) (log : SessionLog σ) (call : SessionCall) :
    (∃ frame, call = .onFrame frame) ∨
    call.isFrame = false ∧ call.isEmptyFrame = false ∧
      ∃ received?, (∀ received ∈ received?, log.queue.receive? = some received) ∧
        log.call keeper? call = some (log.received received?) := by
  cases call with
  | onFrame frame => exact Or.inl ⟨frame, rfl⟩
  | pop =>
    refine Or.inr ⟨rfl, rfl, ?_⟩
    cases hend : log.queue.pop with
    | unit unit queue =>
      refine ⟨some (unit, queue), ?_, by simp only [SessionLog.call, hend]⟩
      rintro _ ⟨⟩
      exact FrameQueue.receive?_of_pop hend
    | failed _ | waits => exact ⟨none, by simp, by simp only [SessionLog.call, hend]⟩
  | tryPop => exact Or.inr ⟨rfl, rfl, log.queue.receive?, fun _ => id, rfl⟩

theorem tally_received (log : SessionLog σ) (received? : Option (AccessUnit × FrameQueue)) :
    (log.received received?).tally = log.tally := by
  cases received? <;> rfl

theorem queue_received (log : SessionLog σ) {received? : Option (AccessUnit × FrameQueue)}
    (hreceived : ∀ received ∈ received?, log.queue.receive? = some received) :
    ∃ backlog, (log.received received?).queue = { log.queue with backlog } := by
  cases received? with
  | none => exact ⟨log.queue.backlog, rfl⟩
  | some received =>
    obtain ⟨backlog, -, hqueue⟩ := FrameQueue.receive?_eq_some_iff.mp (hreceived _ rfl)
    exact ⟨backlog, hqueue⟩

theorem popped_received (log : SessionLog σ) (received? : Option (AccessUnit × FrameQueue)) :
    (log.received received?).popped = log.popped ++ (received?.map (·.1)).toList := by
  cases received? with
  | none => exact List.reduceOption_append log.given [none]
  | some received => exact List.reduceOption_append log.given [some received.1]

/-- A unit goes from the queue to the consumer. -/
theorem Balanced.received (h : log.Balanced) {received? : Option (AccessUnit × FrameQueue)}
    (hreceived : ∀ received ∈ received?, log.queue.receive? = some received) :
    (log.received received?).Balanced := by
  have hbalance := h.balance
  cases received? with
  | none =>
    refine ⟨h.streaming, ?_⟩
    rw [popped_received, Option.map_none, Option.toList_none, List.append_nil]
    exact hbalance
  | some received =>
    obtain ⟨unit, queue⟩ := received
    obtain ⟨backlog, hbacklog, rfl⟩ := FrameQueue.receive?_eq_some_iff.mp (hreceived _ rfl)
    rw [hbacklog, List.length_cons] at hbalance
    refine ⟨h.streaming, ?_⟩
    rw [popped_received, List.length_append]
    simp only [SessionLog.received, Option.map_some, Option.toList_some, List.length_singleton]
    omega

theorem Balanced.call (h : log.Balanced) {call : SessionCall}
    (hcall : log.call keeper? call = some next) :
    next.Balanced ∧
      next.tally.framesReceived = log.tally.framesReceived + call.isFrame.toNat ∧
      next.tally.emptyFrames = log.tally.emptyFrames + call.isEmptyFrame.toNat := by
  rcases log.call_cases keeper? call with
    ⟨frame, rfl⟩ | ⟨hframe, hempty, received?, hreceived, hpop⟩
  · obtain ⟨writes, failures, after, honFrame⟩ := log.session.onFrame_adds keeper? frame log.disk
    simp only [SessionLog.call, honFrame] at hcall
    obtain ⟨⟨queue, drops⟩, hpushed, rfl⟩ := Option.map_eq_some_iff.mp hcall
    obtain ⟨hstreaming, hlength⟩ := FrameQueue.length_pushAll? h.streaming hpushed
    have hbalance := h.balance
    refine ⟨⟨hstreaming, ?_⟩, rfl, ?_⟩
    · simp only [Tally.afterDrops, Tally.plusWrites, Tally.afterFrame, Tally.afterFates, popped]
        at hbalance ⊢
      omega
    · simp only [Tally.afterDrops, Tally.plusWrites, Tally.afterFrame, Tally.afterFates,
        Session.isEmpty_take, SessionCall.isEmptyFrame]
  · rw [hpop] at hcall
    cases hcall
    refine ⟨h.received hreceived, ?_⟩
    rw [tally_received, hframe, hempty]
    exact ⟨rfl, rfl⟩

theorem callAll_cons (log : SessionLog σ) (call : SessionCall) (calls : List SessionCall) :
    log.callAll keeper? (call :: calls) =
      (log.call keeper? call).bind (·.callAll keeper? calls) := rfl

theorem Balanced.callAll (h : log.Balanced) {calls : List SessionCall}
    (hcalls : log.callAll keeper? calls = some next) :
    next.Balanced ∧
      next.tally.framesReceived = log.tally.framesReceived + calls.countP (·.isFrame) ∧
      next.tally.emptyFrames = log.tally.emptyFrames + calls.countP (·.isEmptyFrame) := by
  induction calls generalizing log with
  | nil =>
    cases hcalls
    exact ⟨h, rfl, rfl⟩
  | cons call calls ih =>
    rw [callAll_cons] at hcalls
    obtain ⟨first, hcall, hrest⟩ := Option.bind_eq_some_iff.mp hcalls
    obtain ⟨hfirst, hframes, hempty⟩ := h.call hcall
    obtain ⟨hnext, hmoreFrames, hmoreEmpty⟩ := ih hfirst hrest
    refine ⟨hnext, ?_, ?_⟩
    · rw [hmoreFrames, hframes, List.countP_cons, Nat.add_assoc, Nat.add_comm (List.countP _ _)]
      cases call.isFrame <;> rfl
    · rw [hmoreEmpty, hempty, List.countP_cons, Nat.add_assoc, Nat.add_comm (List.countP _ _)]
      cases call.isEmptyFrame <;> rfl

/-- Only a push that has to wait ends a run. -/
theorem exists_call (h : log.queue.Prompt) (call : SessionCall) :
    ∃ next, log.call keeper? call = some next ∧ next.queue.Prompt := by
  rcases log.call_cases keeper? call with ⟨frame, rfl⟩ | ⟨-, -, received?, hreceived, hpop⟩
  · obtain ⟨writes, failures, disk, honFrame⟩ := log.session.onFrame_adds keeper? frame log.disk
    obtain ⟨after, drops, hpushed, hprompt⟩ := h.exists_pushAll? (log.session.take frame).1.units
    simp only [SessionLog.call, honFrame, hpushed, Option.map_some]
    exact ⟨_, rfl, hprompt⟩
  · obtain ⟨backlog, hqueue⟩ := log.queue_received hreceived
    refine ⟨_, hpop, ?_⟩
    rw [hqueue]
    exact h

theorem isSome_callAll (h : log.queue.Prompt) (calls : List SessionCall) :
    (log.callAll keeper? calls).isSome = true := by
  induction calls generalizing log with
  | nil => rfl
  | cons call calls ih =>
    obtain ⟨next, hcall, hnext⟩ := exists_call h call
    rw [callAll_cons, hcall]
    exact ih hnext

/-! ## Frames without bytes -/

/-- A frame without bytes is counted, and that is all. -/
theorem call_emptyFrame (log : SessionLog σ) {call : SessionCall} (hempty : call.isEmptyFrame = true) :
    log.call keeper? call = some (log.withEmpty 1) := by
  cases call with
  | onFrame frame =>
    have htake : log.session.take frame =
        ({ isEmpty := true, fates := [], units := [] }, log.session) := if_pos hempty
    have hkept : ∀ sets tally, keepChange keeper? [] sets tally = pure tally := by
      intro sets tally
      cases keeper? <;> rfl
    simp only [SessionLog.call, Session.onFrame, htake, hkept]
    rfl
  | pop | tryPop => cases hempty

/-- No call depends on how many frames were counted. -/
theorem call_withEmpty (log : SessionLog σ) (count : Nat) (call : SessionCall) :
    (log.withEmpty count).call keeper? call =
      (log.call keeper? call).map (·.withEmpty count) := by
  cases call with
  | onFrame frame =>
    obtain ⟨writes, failures, after, honFrame⟩ := log.session.onFrame_adds keeper? frame log.disk
    simp only [SessionLog.call, SessionLog.withEmpty, honFrame]
    cases log.queue.pushAll? (log.session.take frame).1.units with
    | none => rfl
    | some pushed =>
      simp only [Option.map_some, Tally.afterDrops, Tally.plusWrites, Tally.afterFrame,
        Tally.afterFates, Nat.add_right_comm _ count]
  | pop =>
    simp only [SessionLog.call, SessionLog.withEmpty]
    split <;> rfl
  | tryPop =>
    simp only [SessionLog.call, SessionLog.withEmpty, Option.map_some]
    cases log.queue.receive? <;> rfl

theorem callAll_withEmpty (log : SessionLog σ) (count : Nat) (calls : List SessionCall) :
    (log.withEmpty count).callAll keeper? calls =
      (log.callAll keeper? calls).map (·.withEmpty count) := by
  induction calls generalizing log with
  | nil => rfl
  | cons call calls ih =>
    rw [callAll_cons, callAll_cons, call_withEmpty]
    cases log.call keeper? call with
    | none => rfl
    | some next => exact ih next

theorem withEmpty_withEmpty (log : SessionLog σ) (count more : Nat) :
    (log.withEmpty count).withEmpty more = log.withEmpty (more + count) := by
  simp only [withEmpty, Nat.add_assoc, Nat.add_comm more]

/-- A run is the run without the frames that have no bytes, which are counted. -/
theorem callAll_filter (log : SessionLog σ) (calls : List SessionCall) :
    log.callAll keeper? calls =
      (log.callAll keeper? (calls.filter (!·.isEmptyFrame))).map
        (·.withEmpty (calls.countP (·.isEmptyFrame))) := by
  induction calls generalizing log with
  | nil => rfl
  | cons call calls ih =>
    cases hempty : call.isEmptyFrame with
    | true =>
      have hcall : log.call keeper? call = some (log.withEmpty 1) := log.call_emptyFrame hempty
      rw [List.filter_cons_of_neg (by simp [hempty]), List.countP_cons_of_pos hempty, callAll_cons,
        hcall, Option.bind_some, callAll_withEmpty, ih, Option.map_map]
      simp only [Function.comp_def, withEmpty_withEmpty, Nat.add_comm 1]
    | false =>
      rw [List.filter_cons_of_pos (by simp [hempty]), List.countP_cons_of_neg (by simp [hempty]),
        callAll_cons, callAll_cons]
      cases log.call keeper? call with
      | none => rfl
      | some next => exact ih next

end SessionLog

/-- **The accounts of a session.** Let a session begin with nothing counted, on an open and empty queue of
any capacity and either policy, with any store or none, and let frames, pops that wait and pops that do not
come in any order, so long as no push has to wait. After every one of them

* the frames counted are the frames that came, and the empty frames counted those without bytes;
* the units handed on are the ones popped, the ones queued and the ones that a full queue discarded.

And frames without bytes, wherever they come and whatever their timestamps, change nothing but these two
counters of frames: not what any pop gives, the queue, framing, timing, the cached pair, what the store
keeps, nor any other counter. On a queue that drops, or has no bound, no push has to wait. -/
theorem session_accounted {σ : Type} (keeper? : Option (Keeper (StateM σ))) (session : Session)
    (disk : σ) (capacity : Nat) (overflow : Overflow) (calls : List SessionCall) :
    let start : SessionLog σ := .opened session disk capacity overflow
    (∀ log, start.callAll keeper? calls = some log →
      log.tally.framesReceived = calls.countP (·.isFrame) ∧
      log.tally.emptyFrames = calls.countP (·.isEmptyFrame) ∧
      log.tally.unitsEmitted =
        log.popped.length + log.queue.backlog.length + log.tally.overflowDrops) ∧
    start.callAll keeper? calls =
      (start.callAll keeper? (calls.filter (!·.isEmptyFrame))).map
        (·.withEmpty (calls.countP (·.isEmptyFrame))) ∧
    (overflow = .dropOldest ∨ capacity = 0 → (start.callAll keeper? calls).isSome = true) := by
  intro start
  have hstart : start.Balanced := SessionLog.balanced_opened session disk capacity overflow
  refine ⟨fun log hcalls => ?_, start.callAll_filter calls, fun hprompt => ?_⟩
  · obtain ⟨hbalanced, hframes, hempty⟩ := hstart.callAll hcalls
    refine ⟨?_, ?_, hbalanced.balance⟩
    · rw [hframes]
      exact Nat.zero_add _
    · rw [hempty]
      exact Nat.zero_add _
  · have hstart : start.queue.Prompt := hprompt
    exact SessionLog.isSome_callAll hstart calls

/-- Two empty frames come among others. The keyframe is discarded for the slice behind it, which is popped;
the slice after it is queued. -/
theorem session_accounted_past_drop :
    let session : Session := { framer := {}, clock := .new 40 {} }
    let keeper : Keeper (StateM Shelf) := { store := .memory, device := "0" }
    let slice : Bytes := [0, 0, 0, 1, 0x41, 0x9A]
    let opening : Bytes := [0, 0, 0, 1, 0x67, 0x64] ++ [0, 0, 0, 1, 0x65, 0x88] ++ slice
    let calls : List SessionCall :=
      [.onFrame { data := [], timestamp := 7 }, .onFrame { data := opening, timestamp := 100 }, .pop,
        .onFrame { data := [], timestamp := 3 }, .tryPop, .onFrame { data := slice, timestamp := 140 }]
    let start : SessionLog Shelf := .opened session [] 1 .dropOldest
    ∃ log, start.callAll (some keeper) calls = some log ∧
      log.given = [some { data := slice, timing := some ⟨40, 40, 40⟩, keyframe := false }, none] ∧
      log.tally.setWrites = 1 ∧ log.tally.overflowDrops = 1 ∧ log.queue.backlog.length = 1 ∧
      log.tally.framesReceived = 4 ∧ log.tally.emptyFrames = 2 ∧ log.tally.unitsEmitted = 3 := by
  intro session keeper slice opening calls start
  obtain ⟨haccounts, -, hruns⟩ := session_accounted (some keeper) session [] 1 .dropOldest calls
  obtain ⟨log, hlog⟩ : ∃ log, start.callAll (some keeper) calls = some log :=
    Option.isSome_iff_exists.mp (hruns (Or.inl rfl))
  have hseen : (start.callAll (some keeper) calls).map (fun log =>
      (log.given, log.tally.setWrites, log.tally.overflowDrops, log.queue.backlog.length)) =
      some ([some { data := slice, timing := some ⟨40, 40, 40⟩, keyframe := false }, none], 1, 1, 1) := by
    decide +kernel
  simp only [hlog, Option.map_some, Option.some.injEq, Prod.mk.injEq] at hseen
  obtain ⟨hgiven, hwrites, hdrops, hqueued⟩ := hseen
  obtain ⟨hframes, hempty, hbalance⟩ := haccounts log hlog
  refine ⟨log, hlog, hgiven, hwrites, hdrops, hqueued, hframes, hempty, ?_⟩
  rw [hbalance, SessionLog.popped, hgiven, hdrops, hqueued]
  rfl

end CamStream
