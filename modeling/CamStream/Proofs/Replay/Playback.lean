import CamStream.CommandLine.Replay
import CamStream.Proofs.Queue.Channel
import CamStream.Proofs.Replay.Outputs
import CamStream.Proofs.Store.Apart

/-!
# A replay in steps

A thread delivers the frames of a recording to the session, which hands their units on to the queue. A
consumer pops the units and puts them into the outputs, until the stream has ended. If writes to the
store are left to a worker, that is a third party. Any of the three may act next.

The thread takes a frame in one step, which is all that happens to the session; the units of the frame
are then pushed one after the other, in the steps that a push has. The consumer makes the steps of a
pop. The last thing that the thread does is to wait for the worker and to drop its end of the queue.

* `ReplayPlan.step`: what a party does next.
* `Playback.UnderWay`: the invariant. Every unit is in one place, and the places are in order.
* `Playback.Over`: what there is in the end.
-/

namespace CamStream

/-! ## The units of frames -/

/-- A frame that is delivered when it is due. -/
def CaptureFrame.due (frame : Bytes × Nat) : CaptureFrame where
  data := frame.1
  timestamp := frame.2

theorem length_dueFrames (recording : Bytes) (interval : Nat) :
    (dueFrames recording interval).length = (splitFrames recording).length := by
  rw [dueFrames, List.length_map, List.length_zipIdx]

/-- The units that frames give, one frame after the other. -/
def Session.unitsOf (session : Session) : List CaptureFrame → List AccessUnit
  | [] => []
  | frame :: frames =>
    (session.take frame).1.units ++ (session.take frame).2.unitsOf frames

/-! ## The parties -/

/-- Who acts next. -/
inductive Party where
  /-- The thread that delivers frames. -/
  | thread
  /-- The worker of the store. -/
  | worker
  | consumer
deriving DecidableEq, Repr

/-- Where the thread has got to. -/
inductive ThreadPhase where
  /-- It has units of a frame to hand on, of which the first one is being pushed. -/
  | delivering (waiting : List AccessUnit) (push : PushPhase)
  /-- It delivers no more frames, and gives up the session. -/
  | leaving
  | gone
deriving DecidableEq, Repr

/-- Where the consumer has got to. -/
inductive ConsumerPhase where
  | popping (pop : PopPhase)
  /-- The stream has ended, and the thread is waited for. -/
  | stopping
  | ended (ending : ReplayEnding)
deriving DecidableEq, Repr

/-- The state of a replay between two steps. -/
structure Playback where
  files : FileSystem
  queue : FrameQueue
  session : Session
  /-- The frames that are still to be delivered, with the times at which they are due. -/
  frames : List (Bytes × Nat)
  outputs : Outputs
  tally : Tally := {}
  /-- The writes that the worker has still to perform. -/
  jobs : List WriteJob := []
  /-- Whether the thread is to go on. -/
  running : Bool := true
  thread : ThreadPhase := .delivering [] .arriving
  /-- What the consumer has popped, in order. -/
  received : List AccessUnit := []
  /-- Why the last pop gave no unit, once there was such a pop. -/
  failure : Option PopFailure := none
  consumer : ConsumerPhase := .popping .looking
deriving DecidableEq, Repr

/-- What a replay goes by. -/
structure ReplayPlan where
  arguments : Arguments
  home : Option String
  settings : Settings
  format : CaptureFormat
deriving DecidableEq, Repr

namespace ReplayPlan

variable (plan : ReplayPlan)

/-- The store with its device, if there is one. -/
def keeper? : Option (Keeper Keeping) :=
  plan.settings.persistence.openKeeper plan.home plan.settings.device

/-- Where the files of the store lie. -/
def storePlaces (working : Location) : List Location :=
  plan.settings.persistence.places working plan.home plan.settings.device

/-- The session at the beginning. -/
def session (framer : Framer) : Session where
  framer
  clock := .new plan.format.interval plan.settings.smoothing

/-- The units that the frames of a recording give. -/
def unitsOf (framer : Framer) (recording : Bytes) : List AccessUnit :=
  (plan.session framer).unitsOf ((dueFrames recording plan.format.interval).map .due)

/-- A replay that begins. -/
def start (framer : Framer) (recording : Bytes) (outputs : Outputs) (files : FileSystem) :
    Playback where
  files
  queue := (Exchange.opened plan.settings.queue.capacity plan.settings.queue.overflow).queue
  session := plan.session framer
  frames := dueFrames recording plan.format.interval
  outputs

/-! ## Steps -/

/-- The thread takes a frame. -/
def deliver (now : Playback) (data : Bytes) (due : Nat) (frames : List (Bytes × Nat)) : Playback :=
  let take : Keeping (List AccessUnit × Session × Tally) := do
    let timestamp ← ReplayCommand.clock plan.arguments due
    now.session.onFrame plan.keeper? now.tally { data, timestamp }
  let (((units, session, tally), jobs), files) := (take.run now.jobs).run now.files
  { now with files, session, frames, tally, jobs, thread := .delivering units .arriving }

/-- The next step of the thread. -/
def stepThread (now : Playback) : Playback :=
  match now.thread with
  | .delivering [] _ =>
    match now.running, now.frames with
    | true, (data, due) :: frames => plan.deliver now data due frames
    | _, _ => { now with running := false, thread := .leaving }
  | .delivering (unit :: waiting) push =>
    let move := now.queue.pushStep unit push
    { now with
      queue := move.queue
      tally := now.tally.afterDrops move.evicted.toList.length
      thread :=
        if move.phase.isOver then .delivering waiting .arriving
        else .delivering (unit :: waiting) move.phase }
  | .leaving =>
    if now.jobs = [] then { now with queue := now.queue.dropProducer, thread := .gone } else now
  | .gone => now

/-- The next step of the worker. -/
def stepWorker (now : Playback) : Playback :=
  match now.jobs with
  | [] => now
  | job :: jobs =>
    let store := BlobStore.directory (plan.settings.persistence.directoryOr plan.home)
    { now with jobs, files := ((store.perform job).run now.files).2 }

/-- How the command ends with a summary. -/
def endingOf (summary : ReplaySummary) : ReplayEnding where
  failure :=
    if summary.units = 0 then some s!"no decodable units in {plan.arguments.input.text}" else none
  summary := some summary

/-- The consumer closes the queue, flushes the outputs and sums up. -/
def finish (now : Playback) : Playback :=
  let now := { now with queue := now.queue.stop }
  match now.outputs.flush.run.run now.files with
  | (.ok outputs, files) =>
    let replayed : Replayed :=
      { units := now.received, ending := .failed .closed, tally := now.tally }
    { now with files, outputs, consumer := .ended (plan.endingOf (.ofReplayed replayed)) }
  | (.error error, files) =>
    { now with files, consumer := .ended { failure := some error.message } }

/-- The next step of the consumer. -/
def stepConsumer (now : Playback) : Playback :=
  match now.consumer with
  | .popping (.got unit) =>
    let now := { now with received := now.received ++ [unit] }
    match (now.outputs.putUnit unit).run.run now.files with
    | (.ok outputs, files) => { now with files, outputs, consumer := .popping .looking }
    | (.error error, files) =>
      { now with files, consumer := .ended { failure := some error.message } }
  | .popping (.failed .closed) =>
    { now with failure := some .closed, running := false, consumer := .stopping }
  | .popping (.failed failure) =>
    { now with
      failure := some failure
      consumer := .ended { failure := some s!"queue failed: {failure.message}" } }
  | .popping pop =>
    let (queue, pop) := now.queue.popStep pop
    { now with queue, consumer := .popping pop }
  | .stopping => if now.thread = .gone then plan.finish now else now
  | .ended _ => now

/-- What a party does next. -/
def step (now : Playback) : Party → Playback
  | .thread => plan.stepThread now
  | .worker => plan.stepWorker now
  | .consumer => plan.stepConsumer now

end ReplayPlan

/-- A replay that is ready to begin. The outputs are made, and neither belongs to the store; the queue
does not discard. -/
structure ReplayPlan.Ready (plan : ReplayPlan) (places : OutputPlaces) (begun : FileSystem)
    (outputs : Outputs) : Prop where
  fast : plan.arguments.fast = true
  lossless : plan.settings.queue.capacity = 0 ∨ plan.settings.queue.overflow = .block
  sound : begun.Sound
  apart : ∀ place ∈ places.toList, place ∉ plan.storePlaces begun.workingDirectory
  outputs : outputs.Hold places begun []
  stream : ∀ path ∈ plan.arguments.output,
    places.stream = some (FileSystem.target begun.workingDirectory path) ∧
      ∃ parent name, begun.Names path parent name
  times : ∀ path ∈ plan.arguments.timestamps,
    places.times = some (FileSystem.target begun.workingDirectory path) ∧
      ∃ parent name, begun.Names path parent name

/-! ## While nothing has gone wrong -/

/-- The units that the thread has still to push. -/
def ThreadPhase.waiting : ThreadPhase → List AccessUnit
  | delivering waiting _ => waiting
  | leaving | gone => []

/-- The unit that was popped and is not yet put into the outputs. -/
def ConsumerPhase.inHand : ConsumerPhase → List AccessUnit
  | popping (.got unit) => [unit]
  | popping _ | stopping | ended _ => []

theorem ConsumerPhase.inHand_popping {pop : PopPhase} (h : pop.isOver = false) :
    (popping pop).inHand = [] := by
  cases pop <;> first | rfl | cases h

/-- What goes with a phase of the thread: it stops only behind the last frame, and is gone only when
all writes are performed. -/
inductive ThreadFits (running : Bool) (producers : Nat) (frames : List (Bytes × Nat))
    (jobs : List WriteJob) : ThreadPhase → Prop
  | delivering {waiting : List AccessUnit} {push : PushPhase} (hrunning : running = true)
      (hproducers : producers = 1) (hpush : push.isOver = false) :
      ThreadFits running producers frames jobs (.delivering waiting push)
  | leaving (hproducers : producers = 1) (hframes : frames = []) :
      ThreadFits running producers frames jobs .leaving
  | gone (hproducers : producers = 0) (hframes : frames = []) (hjobs : jobs = []) :
      ThreadFits running producers frames jobs .gone

/-- What goes with a phase of the consumer: only if the thread is gone does it look for the last time,
and only if there is nothing left does it stop. -/
inductive ConsumerFits (thread : ThreadPhase) (backlog : List AccessUnit)
    (failure : Option PopFailure) : ConsumerPhase → Prop
  | looking (hfailure : failure = none) : ConsumerFits thread backlog failure (.popping .looking)
  | receiving (hfailure : failure = none) : ConsumerFits thread backlog failure (.popping .receiving)
  | asking (hfailure : failure = none) : ConsumerFits thread backlog failure (.popping .asking)
  | got {unit : AccessUnit} (hfailure : failure = none) :
      ConsumerFits thread backlog failure (.popping (.got unit))
  | lastLook (hfailure : failure = none) (hgone : thread = .gone) :
      ConsumerFits thread backlog failure (.popping .lastLook)
  | closed (hfailure : failure = none) (hgone : thread = .gone) (hempty : backlog = []) :
      ConsumerFits thread backlog failure (.popping (.failed .closed))
  | stopping (hfailure : failure = some .closed) (hgone : thread = .gone) (hempty : backlog = []) :
      ConsumerFits thread backlog failure .stopping

/-- What a consumer does while the thread is not gone has nothing to do with the thread or the queue. -/
theorem ConsumerFits.elsewhere {thread other : ThreadPhase} {backlog left : List AccessUnit}
    {failure : Option PopFailure} {consumer : ConsumerPhase}
    (h : ConsumerFits thread backlog failure consumer) (hthread : thread ≠ .gone) :
    ConsumerFits other left failure consumer := by
  cases h with
  | looking hfailure => exact .looking hfailure
  | receiving hfailure => exact .receiving hfailure
  | asking hfailure => exact .asking hfailure
  | got hfailure => exact .got hfailure
  | lastLook _ hgone | closed _ hgone _ | stopping _ hgone _ => exact absurd hgone hthread

/-- What a summary says of so many frames that gave these units. -/
structure ReplaySummary.Tells (summary : ReplaySummary) (frames : Nat) (units : List AccessUnit) :
    Prop where
  taken : summary.tally.framesReceived = frames
  emitted : summary.tally.unitsEmitted = units.length
  drops : summary.tally.overflowDrops = 0
  count : summary.units = units.length
  bytes : summary.bytes = (streamOf units).length
  lastPts : summary.lastPts = (units.filterMap (·.pts?)).getLast?

theorem ReplaySummary.tells_ofReplayed {replayed : Replayed} {frames : Nat}
    (hframes : replayed.tally.framesReceived = frames)
    (hemitted : replayed.tally.unitsEmitted = replayed.units.length)
    (hdrops : replayed.tally.overflowDrops = 0) : (ofReplayed replayed).Tells frames replayed.units where
  taken := hframes
  emitted := hemitted
  drops := hdrops
  count := rfl
  bytes := (count_bytes replayed.units 0).trans (Nat.zero_add _)
  lastPts := rfl

namespace Playback

section

variable (plan : ReplayPlan) (begun : FileSystem) (places : OutputPlaces) (frames : Nat)
  (units : List AccessUnit)

/-- A replay under way that is to give the units of so many frames. Each of them is somewhere, in
order: received, in the hand of the consumer, queued, about to be pushed, or still in the frames. -/
structure UnderWay (now : Playback) : Prop where
  order : now.received ++ now.consumer.inHand ++ now.queue.backlog ++ now.thread.waiting ++
    now.session.unitsOf (now.frames.map .due) = units
  isOpen : now.queue.streaming = true
  calm : now.queue.flushing = false
  lossless : now.queue.capacity = 0 ∨ now.queue.overflow = .block
  patient : ∀ waiting, now.thread = .delivering waiting .refused → now.queue.overflow = .block
  thread : ThreadFits now.running now.queue.producers now.frames now.jobs now.thread
  consumer : ConsumerFits now.thread now.queue.backlog now.failure now.consumer
  taken : now.tally.framesReceived + now.frames.length = frames
  emitted : now.tally.unitsEmitted + (now.session.unitsOf (now.frames.map .due)).length = units.length
  drops : now.tally.overflowDrops = 0
  jobs : ∀ job ∈ now.jobs, plan.settings.persistence.enabled = true ∧
    job.device = plan.settings.device
  files : begun.Spares (places.toList ++ plan.storePlaces begun.workingDirectory) now.files
  outputs : now.outputs.Hold places now.files now.received

/-- A replay that is over. Everything was received, the queue said that the stream has ended, and the
summary tells what it should. -/
structure Over (now : Playback) : Prop where
  received : now.received = units
  failure : now.failure = some .closed
  consumer : ∃ summary, now.consumer = .ended (plan.endingOf summary) ∧ summary.Tells frames units
  thread : now.thread = .gone
  jobs : now.jobs = []
  files : begun.Spares (places.toList ++ plan.storePlaces begun.workingDirectory) now.files
  outputs : now.outputs.Are (OutputFile.Stored (streamOf units)) (OutputFile.Stored (timesOf units))
    places now.files

/-- A replay that is under way or over. -/
inductive Sane (now : Playback) : Prop
  | underWay (h : UnderWay plan begun places frames units now)
  | settled (h : Over plan begun places frames units now)

end

end Playback

end CamStream
