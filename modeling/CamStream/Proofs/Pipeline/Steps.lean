import CamStream.Proofs.Framing.Runs
import CamStream.Proofs.Queue.Channel
import CamStream.Proofs.Session.Timing
import Mathlib.Logic.Relation

/-!
# From the capture to the consumer

A pipeline is a session with its queue and a consumer. The capture side takes one frame at a time
and pushes its units one by one; between any two of its steps the consumer may pop. A push to a
full queue that drops is not one step: it finds the queue full, discards the oldest unit, and tries
again, and the consumer may come in between.

* `Pipeline.Step`: all that can happen next.
* `Pipeline.Delivers`: the invariant. The framer is where the frames so far have brought it, the
  units handed on are its outputs, the clock has timed them, and what the consumer has, what is
  queued and what waits are some of them, in order.
* `Pipeline.Delivers.run`: the invariant holds in every run, in whatever order the steps are made.
-/

namespace CamStream

/-! ## Steps -/

/-- A capture and its consumer, with what a store keeps. -/
structure Pipeline (σ : Type) where
  session : Session
  tally : Tally
  disk : σ
  queue : FrameQueue
  /-- The units of the last frame that are still to be pushed. -/
  waiting : List AccessUnit := []
  /-- Whether a push has found the queue full and goes on to discard the oldest unit. -/
  evicting : Bool := false
  /-- The frames taken so far. -/
  frames : List CaptureFrame := []
  /-- The units they gave. -/
  handed : List AccessUnit := []
  /-- The units that the consumer has. -/
  popped : List AccessUnit := []

namespace Pipeline

variable {σ : Type}

/-- An open and empty queue between a session and a consumer. -/
def opened (session : Session) (tally : Tally) (disk : σ) (capacity : Nat)
    (overflow : Overflow) : Pipeline σ where
  session
  tally
  disk
  queue := ({ capacity, overflow : FrameQueue }).addProducer.start

/-- The session takes a frame. -/
def take (keeper? : Option (Keeper (StateM σ))) (now : Pipeline σ) (frame : CaptureFrame) :
    Pipeline σ :=
  let ((units, session, tally), disk) :=
    (now.session.onFrame keeper? now.tally frame).run now.disk
  { now with
    session, tally, disk
    waiting := units
    frames := now.frames ++ [frame]
    handed := now.handed ++ units }

/-- One step of the capture side or of the consumer. -/
inductive Step (keeper? : Option (Keeper (StateM σ))) (now : Pipeline σ) : Pipeline σ → Prop
  /-- The session takes a frame, once the units of the last one are pushed. -/
  | take (frame : CaptureFrame) (hidle : now.waiting = []) :
      Step keeper? now (now.take keeper? frame)
  | push (unit : AccessUnit) (rest : List AccessUnit) (queue : FrameQueue) (evicted : Bool)
      (hwaiting : now.waiting = unit :: rest) (hfree : now.evicting = false)
      (hpush : now.queue.push unit = .queued queue evicted) :
      Step keeper? now { now with
        queue, waiting := rest, tally := now.tally.afterDrops evicted.toNat }
  /-- A push finds the queue full, and goes on with `evict`. -/
  | findFull (hwaiting : now.waiting ≠ []) (hpolicy : now.queue.overflow = .dropOldest)
      (hfull : now.queue.isFull = true) : Step keeper? now { now with evicting := true }
  /-- The oldest unit is discarded, if the consumer has left one. -/
  | evict (hevicting : now.evicting = true) :
      Step keeper? now { now with
        queue := now.queue.evict
        evicting := false
        tally := now.tally.afterDrops (min now.queue.backlog.length 1) }
  | pop (unit : AccessUnit) (queue : FrameQueue) (hpop : now.queue.pop = .unit unit queue) :
      Step keeper? now { now with queue, popped := now.popped ++ [unit] }
  | tryPop (unit : AccessUnit) (queue : FrameQueue)
      (hreceive : now.queue.receive? = some (unit, queue)) :
      Step keeper? now { now with queue, popped := now.popped ++ [unit] }
  /-- The capture ends. -/
  | close (hidle : now.waiting = []) : Step keeper? now { now with queue := now.queue.dropProducer }

/-- What every step keeps, a run keeps. -/
theorem run_keeps {keeper? : Option (Keeper (StateM σ))} {p : Pipeline σ → Prop}
    (hstep : ∀ {now next}, Step keeper? now next → p now → p next) {start now : Pipeline σ}
    (steps : Relation.ReflTransGen (Step keeper?) start now) (h : p start) : p now := by
  induction steps with
  | refl => exact h
  | tail _ step ih => exact hstep step ih

/-- The framer of a session at work on frames. -/
def framing (begun : Session) (frames : List CaptureFrame) : FramerLog :=
  ({ framer := begun.framer } : FramerLog).afterAll (frames.map (.process ·.data))

theorem framing_concat (begun : Session) (frames : List CaptureFrame) (frame : CaptureFrame) :
    framing begun (frames ++ [frame]) = (framing begun frames).after (.process frame.data) := by
  simp [framing, FramerLog.afterAll]

/-! ## The invariant -/

/-- What a pipeline has delivered of the frames that it took since a session began. -/
structure Delivers (begun : Session) (now : Pipeline σ) : Prop where
  framer : now.session.framer = (framing begun now.frames).framer
  becomes : List.Forall₂ Becomes (framing begun now.frames).history.outputs now.handed
  timed : now.session.clock.HasTimed now.handed
  inOrder : (now.popped ++ now.queue.backlog ++ now.waiting).Sublist now.handed

variable {keeper? : Option (Keeper (StateM σ))} {begun : Session} {now next : Pipeline σ}

/-- With any store or none, the session goes on as it does alone. -/
theorem session_take (keeper? : Option (Keeper (StateM σ))) (now : Pipeline σ)
    (frame : CaptureFrame) :
    (now.take keeper? frame).session = (now.session.take frame).2 := rfl

theorem handed_take (keeper? : Option (Keeper (StateM σ))) (now : Pipeline σ)
    (frame : CaptureFrame) :
    (now.take keeper? frame).handed = now.handed ++ (now.session.take frame).1.units := rfl

theorem delivers_opened {tally : Tally} {disk : σ} {capacity : Nat} {overflow : Overflow}
    (htimed : begun.clock.HasTimed []) :
    Delivers begun (opened begun tally disk capacity overflow) :=
  ⟨rfl, .nil, htimed, .slnil⟩

theorem Delivers.take (h : Delivers begun now) (frame : CaptureFrame) (hidle : now.waiting = []) :
    Delivers begun (now.take keeper? frame) := by
  have hframing : framing begun (now.take keeper? frame).frames =
      (framing begun now.frames).after (.process frame.data) := framing_concat _ _ _
  have houtputs : ((framing begun now.frames).after (.process frame.data)).history.outputs =
      (framing begun now.frames).history.outputs ++
        emittedUnits (now.session.framer.process frame.data).1 := by
    rw [h.framer]
    exact History.outputs_meet _ (Framer.length_acceptAll _ _)
  refine ⟨?_, ?_, ?_, ?_⟩
  · rw [hframing, session_take, Session.take_framer, h.framer]
    rfl
  · rw [hframing, houtputs, handed_take]
    exact List.rel_append h.becomes (now.session.take_becomes frame)
  · rw [session_take, handed_take]
    exact h.timed.take frame
  · have horder := h.inOrder
    rw [hidle, List.append_nil] at horder
    exact horder.append_right _

/-- The consumer gets the oldest unit. -/
theorem Delivers.receive (h : Delivers begun now) {unit : AccessUnit} {queue : FrameQueue}
    (hreceive : now.queue.receive? = some (unit, queue)) :
    Delivers begun { now with queue, popped := now.popped ++ [unit] } := by
  refine ⟨h.framer, h.becomes, h.timed, ?_⟩
  have horder := h.inOrder
  rw [FrameQueue.backlog_of_receive? hreceive, List.append_cons now.popped] at horder
  exact horder

theorem Delivers.step (h : Delivers begun now) (step : Step keeper? now next) :
    Delivers begun next := by
  cases step with
  | take frame hidle => exact h.take frame hidle
  | push unit rest queue evicted hwaiting hfree hpush =>
    -- The unit leaves the head of what waits and goes behind what is queued.
    refine ⟨h.framer, h.becomes, h.timed, ?_⟩
    have horder := h.inOrder
    rw [hwaiting, List.append_cons, List.append_assoc now.popped] at horder
    exact (((FrameQueue.backlog_of_push hpush).append_left _).append_right _).trans horder
  | findFull hwaiting hpolicy hfull => exact ⟨h.framer, h.becomes, h.timed, h.inOrder⟩
  | evict hevicting =>
    refine ⟨h.framer, h.becomes, h.timed, ?_⟩
    exact (((List.tail_sublist _).append_left _).append_right _).trans h.inOrder
  | pop unit queue hpop => exact h.receive (FrameQueue.receive?_of_pop hpop)
  | tryPop unit queue hreceive => exact h.receive hreceive
  | close hidle => exact ⟨h.framer, h.becomes, h.timed, h.inOrder⟩

theorem Delivers.run (h : Delivers begun now)
    (steps : Relation.ReflTransGen (Step keeper?) now next) : Delivers begun next :=
  run_keeps (fun step h => h.step step) steps h

end Pipeline

end CamStream
