import CamStream.Bytes
import CamStream.Clock
import CamStream.Text.Blank

/-!
# The hand-off queue

Capture callbacks push units, one consumer pops them, first in first out. A queue is open between
`start` and `stop`; what is pushed while it is closed is discarded. A bounded queue that is full
either gives up its oldest unit or makes the pusher wait.

An operation that would have to wait for another party says so (`PushOutcome.full`,
`PopOutcome.waits`) instead of waiting, so every operation here is one atomic step.
-/

namespace CamStream

/-- One unit on its way to the consumer. Slices carry a time, other units do not. -/
structure AccessUnit where
  data : Bytes
  timing : Option Timing
  keyframe : Bool
deriving DecidableEq, Repr

namespace AccessUnit

/-- When the unit is presented. -/
def pts? (unit : AccessUnit) : Option Nat := unit.timing.map (·.pts)

end AccessUnit

/-- What a full queue does with one more unit. -/
inductive Overflow where
  /-- Discard the oldest queued unit. -/
  | dropOldest
  /-- Make the pusher wait. -/
  | block
deriving DecidableEq, Repr, Inhabited

/-- A name that no overflow policy has. -/
structure UnknownOverflow where
  name : String
deriving DecidableEq, Repr

namespace UnknownOverflow

/-- What the user is told. -/
def message (unknown : UnknownOverflow) : String :=
  s!"unknown overflow policy '{unknown.name}', expected 'drop-oldest' or 'block'"

end UnknownOverflow

namespace Overflow

/-- The name of a policy. -/
def name : Overflow → String
  | dropOldest => "drop-oldest"
  | block => "block"

/-- The policy with a given name. Blanks around the name and the case of ASCII letters do not
matter. -/
def ofName (text : String) : Except UnknownOverflow Overflow :=
  let name := Text.lowerAscii (Text.trim text)
  if name = "drop-oldest" || name = "drop_oldest" then .ok .dropOldest
  else if name = "block" then .ok .block
  else .error { name }

end Overflow

/-- Why a pop gives no unit. -/
inductive PopFailure where
  | notStarted
  | flushing
  | closed
deriving DecidableEq, Repr

namespace PopFailure

/-- What the consumer is told. -/
def message : PopFailure → String
  | notStarted => "streaming has not started"
  | flushing => "queue is flushing"
  | closed => "all producers have stopped"

end PopFailure

/-- A queue between producers and a consumer. -/
structure FrameQueue where
  /-- The most units it holds; zero for no bound. -/
  capacity : Nat
  overflow : Overflow
  streaming : Bool := false
  flushing : Bool := false
  /-- How many producers there are. -/
  producers : Nat := 0
  /-- The queued units, oldest first. -/
  backlog : List AccessUnit := []
deriving DecidableEq, Repr

namespace FrameQueue

/-- A queue without bound. -/
def unbounded : FrameQueue := { capacity := 0, overflow := .dropOldest }

/-- The bound, if there is one. -/
def capacity? (queue : FrameQueue) : Option Nat :=
  if queue.capacity = 0 then none else some queue.capacity

/-- Whether a bounded queue has no room left. -/
def isFull (queue : FrameQueue) : Bool :=
  0 < queue.capacity && queue.capacity ≤ queue.backlog.length

/-! ## Sessions and producers -/

/-- Open the queue for a session. -/
def start (queue : FrameQueue) : FrameQueue := { queue with streaming := true, flushing := false }

/-- Close the session and discard what is still queued. -/
def stop (queue : FrameQueue) : FrameQueue := { queue with streaming := false, backlog := [] }

/-- Let pops fail, and pushes that wait give up, until the flag is cleared. -/
def setFlushing (queue : FrameQueue) (flushing : Bool) : FrameQueue := { queue with flushing }

/-- One more producer. -/
def addProducer (queue : FrameQueue) : FrameQueue :=
  { queue with producers := queue.producers + 1 }

/-- One producer less. -/
def dropProducer (queue : FrameQueue) : FrameQueue :=
  { queue with producers := queue.producers - 1 }

/-! ## The channel -/

/-- The queue with one more unit, if it has room. -/
def send? (queue : FrameQueue) (unit : AccessUnit) : Option FrameQueue :=
  if queue.isFull then none else some { queue with backlog := queue.backlog ++ [unit] }

/-- The oldest unit and the queue without it. -/
def receive? (queue : FrameQueue) : Option (AccessUnit × FrameQueue) :=
  match queue.backlog with
  | [] => none
  | unit :: backlog => some (unit, { queue with backlog })

/-! ## Pushing -/

/-- How a push ends. -/
inductive PushOutcome where
  /-- The unit is queued, at the price of the oldest one if `evicted`. -/
  | queued (queue : FrameQueue) (evicted : Bool)
  /-- The queue is closed. -/
  | discarded
  /-- The pusher has to wait for room. -/
  | full
deriving DecidableEq, Repr

/-- Make room by discarding the oldest unit. -/
def evict (queue : FrameQueue) : FrameQueue := { queue with backlog := queue.backlog.tail }

/-- Push one unit. -/
def push (queue : FrameQueue) (unit : AccessUnit) : PushOutcome :=
  if queue.streaming then
    match queue.send? unit with
    | some queue => .queued queue false
    | none =>
      match queue.overflow with
      | .dropOldest => .queued { queue.evict with backlog := queue.evict.backlog ++ [unit] } true
      | .block => .full
  else .discarded

/-- Go on with a push that had to wait: it gives up on a queue that was closed or is flushing. -/
def resumePush (queue : FrameQueue) (unit : AccessUnit) : PushOutcome :=
  if queue.flushing then .discarded else queue.push unit

/-- Push units in order; a unit that would have to wait is discarded. The second part counts the
evicted units. -/
def pushAll (queue : FrameQueue) : List AccessUnit → FrameQueue × Nat
  | [] => (queue, 0)
  | unit :: units =>
    match queue.push unit with
    | .queued queue evicted =>
      let (queue, drops) := queue.pushAll units
      (queue, drops + evicted.toNat)
    | .discarded | .full => queue.pushAll units

/-! ## Popping -/

/-- How a pop ends. -/
inductive PopOutcome where
  | unit (unit : AccessUnit) (queue : FrameQueue)
  | failed (failure : PopFailure)
  /-- The consumer has to wait for a unit, or for the last producer to go. -/
  | waits
deriving DecidableEq, Repr

/-- Pop the oldest unit. The end of the stream is reported only once the backlog is empty. -/
def pop (queue : FrameQueue) : PopOutcome :=
  if queue.flushing then .failed .flushing
  else if !queue.streaming then .failed .notStarted
  else
    match queue.receive? with
    | some (unit, queue) => .unit unit queue
    | none => if queue.producers = 0 then .failed .closed else .waits

/-- Take all units at once, oldest first. -/
def drain (queue : FrameQueue) : List AccessUnit × FrameQueue :=
  (queue.backlog, { queue with backlog := [] })

end FrameQueue

end CamStream
