import CamStream.Replay.Recording
import CamStream.Session

/-!
# Replaying a recording from end to end

The frames of a recording go through a session into a queue, and a consumer takes the units out of
it until the stream ends.

A queue that blocks makes the consumer keep up: it takes the oldest unit whenever there is no
room. From any other queue it takes the units once the delivery has ended, so a bounded queue that
drops gives it the last ones.
-/

namespace CamStream

/-- A queue and what the consumer has taken out of it. -/
structure Exchange where
  queue : FrameQueue
  /-- The units that the consumer has, in order. -/
  received : List AccessUnit := []
deriving DecidableEq, Repr

namespace Exchange

/-- An open queue with one producer, and a consumer that has nothing yet. -/
def opened (capacity : Nat) (overflow : Overflow) : Exchange where
  queue := ({ capacity, overflow : FrameQueue }).addProducer.start

/-- Let the consumer take the oldest unit. -/
def receive (exchange : Exchange) : Exchange :=
  match exchange.queue.pop with
  | .unit unit queue => { queue, received := exchange.received ++ [unit] }
  | .failed _ | .waits => exchange

/-- Hand on one unit; if there is no room, the consumer makes some first. The second part counts
evicted units. -/
def handOn (exchange : Exchange) (unit : AccessUnit) : Exchange × Nat :=
  let exchange := if exchange.queue.push unit = .full then exchange.receive else exchange
  match exchange.queue.push unit with
  | .queued queue evicted => ({ exchange with queue }, evicted.toNat)
  | .discarded | .full => (exchange, 0)

/-- Hand on units in order. -/
def handOnAll (exchange : Exchange) : List AccessUnit → Exchange × Nat
  | [] => (exchange, 0)
  | unit :: units =>
    let (exchange, drops) := exchange.handOn unit
    let (exchange, others) := exchange.handOnAll units
    (exchange, drops + others)

/-- Let the producer go: the consumer takes what is left and learns how the stream ended. -/
def close (exchange : Exchange) : List AccessUnit × FrameQueue.PopOutcome :=
  let (units, queue) := exchange.queue.dropProducer.drain
  (exchange.received ++ units, queue.pop)

end Exchange

/-- What a replay gave to the consumer. -/
structure Replayed where
  units : List AccessUnit
  /-- How the stream ended. -/
  ending : FrameQueue.PopOutcome
  tally : Tally
deriving DecidableEq, Repr

/-- The state of a replay between two frames. -/
structure Delivery where
  session : Session
  exchange : Exchange
  tally : Tally := {}
deriving DecidableEq, Repr

namespace Delivery

variable {m : Type → Type} [Monad m]

/-- Deliver one frame. -/
def deliver (keeper? : Option (Keeper m)) (delivery : Delivery) (frame : CaptureFrame) :
    m Delivery := do
  let (units, session, tally) ← delivery.session.onFrame keeper? delivery.tally frame
  let (exchange, drops) := delivery.exchange.handOnAll units
  return { session, exchange, tally := tally.afterDrops drops }

/-- Deliver frames in order, each stamped with the clock reading that `clock` gives for the time
at which it is due. -/
def deliverAll (keeper? : Option (Keeper m)) (clock : Nat → m Nat) (delivery : Delivery) :
    List (Bytes × Nat) → m Delivery
  | [] => return delivery
  | (data, due) :: frames => do
    let timestamp ← clock due
    let delivery ← delivery.deliver keeper? { data, timestamp }
    delivery.deliverAll keeper? clock frames

/-- End the delivery. -/
def close (delivery : Delivery) : Replayed :=
  let (units, ending) := delivery.exchange.close
  { units, ending, tally := delivery.tally }

end Delivery

end CamStream
