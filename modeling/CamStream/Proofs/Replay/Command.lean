import CamStream.Proofs.Replay.Playback
import CamStream.Proofs.Replay.Preparation

/-!
# The command as one party

The command itself lets the parties of a replay take turns in a fixed order: the consumer takes a unit
only when there is no room for another one, and the worker performs its writes at the end.

* `Exchange.handOnAll_lossless`: a queue that does not discard passes on all units, in order.
* `ReplayPlan.run_deliverAll`: what all frames together give.
* `ReplayPlan.run_command`: what the command comes to.
-/

namespace CamStream

open FileSystem

/-! ## The exchange -/

namespace Exchange

/-- An exchange that loses nothing: a unit that is pushed is queued, if need be behind one that the
consumer takes out. -/
structure Lossless (exchange : Exchange) : Prop where
  isOpen : exchange.queue.streaming = true
  calm : exchange.queue.flushing = false
  bounded : exchange.queue.Bounded
  lossless : exchange.queue.capacity = 0 ∨ exchange.queue.overflow = .block

/-- The units that were handed on, those in the queue last. -/
def units (exchange : Exchange) : List AccessUnit := exchange.received ++ exchange.queue.backlog

variable {exchange : Exchange}

/-- With room in the queue, a unit goes to its end. -/
theorem Lossless.queued (h : exchange.Lossless) (hroom : exchange.queue.isFull = false)
    (unit : AccessUnit) :
    ({ exchange with queue :=
      { exchange.queue with backlog := exchange.queue.backlog ++ [unit] } } : Exchange).Lossless := by
  refine ⟨h.isOpen, h.calm, ?_, h.lossless⟩
  intro hpos
  have hpos : 0 < exchange.queue.capacity := hpos
  have hnot : ¬ exchange.queue.capacity ≤ exchange.queue.backlog.length := by
    intro hfull
    rw [FrameQueue.isFull_iff.mpr ⟨hpos, hfull⟩] at hroom
    cases hroom
  show (exchange.queue.backlog ++ [unit]).length ≤ exchange.queue.capacity
  rw [List.length_append, List.length_singleton]
  omega

theorem Lossless.push_eq (h : exchange.Lossless) (hroom : exchange.queue.isFull = false)
    (unit : AccessUnit) : exchange.queue.push unit =
      .queued { exchange.queue with backlog := exchange.queue.backlog ++ [unit] } false := by
  simp only [FrameQueue.push, h.isOpen, if_true, FrameQueue.send?_eq_some_iff.mpr ⟨hroom, rfl⟩]

/-- A full queue has a unit for the consumer, and room for one behind it. -/
theorem Lossless.receive (h : exchange.Lossless) (hfull : exchange.queue.isFull = true) :
    exchange.receive.Lossless ∧ exchange.receive.queue.isFull = false ∧
      exchange.receive.queue.producers = exchange.queue.producers ∧
      exchange.receive.units = exchange.units := by
  obtain ⟨hpos, hlong⟩ := FrameQueue.isFull_iff.mp hfull
  obtain ⟨oldest, backlog, hbacklog⟩ :=
    List.exists_cons_of_ne_nil (FrameQueue.backlog_ne_nil_of_isFull hfull)
  have hreceive : exchange.receive =
      { queue := { exchange.queue with backlog }, received := exchange.received ++ [oldest] } := by
    simp [Exchange.receive, FrameQueue.pop, FrameQueue.receive?, h.calm, h.isOpen, hbacklog]
  have hlength := h.bounded hpos
  rw [hbacklog, List.length_cons] at hlength
  rw [hreceive]
  refine ⟨⟨h.isOpen, h.calm, fun _ => Nat.le_of_succ_le hlength, h.lossless⟩, ?_, rfl, ?_⟩
  · rw [← Bool.not_eq_true, FrameQueue.isFull_iff]
    intro hstill
    have hless : exchange.queue.capacity ≤ backlog.length := hstill.2
    omega
  · simp [units, hbacklog]

theorem Lossless.handOn (h : exchange.Lossless) (unit : AccessUnit) :
    ∃ after, exchange.handOn unit = (after, 0) ∧ after.Lossless ∧
      after.queue.producers = exchange.queue.producers ∧ after.units = exchange.units ++ [unit] := by
  cases hfull : exchange.queue.isFull with
  | false =>
    refine ⟨_, ?_, h.queued hfull unit, rfl, (List.append_assoc _ _ _).symm⟩
    simp [Exchange.handOn, h.push_eq hfull]
  | true =>
    obtain ⟨hreceived, hroom, hproducers, hunits⟩ := h.receive hfull
    have hpush : exchange.queue.push unit = .full := by
      have hpos := (FrameQueue.isFull_iff.mp hfull).1
      have hpolicy := h.lossless.resolve_left (by omega)
      simp only [FrameQueue.push, h.isOpen, if_true, FrameQueue.send?_eq_none_iff.mpr hfull, hpolicy]
    refine ⟨_, ?_, hreceived.queued hroom unit, hproducers, ?_⟩
    · simp [Exchange.handOn, hpush, hreceived.push_eq hroom]
    · rw [← hunits]
      exact (List.append_assoc _ _ _).symm

theorem Lossless.handOnAll (h : exchange.Lossless) (units : List AccessUnit) :
    ∃ after, exchange.handOnAll units = (after, 0) ∧ after.Lossless ∧
      after.queue.producers = exchange.queue.producers ∧ after.units = exchange.units ++ units := by
  induction units generalizing exchange with
  | nil => exact ⟨exchange, rfl, h, rfl, (List.append_nil _).symm⟩
  | cons unit units ih =>
    obtain ⟨between, hfirst, hbetween, hone, hunit⟩ := h.handOn unit
    obtain ⟨after, hrest, hafter, hsame, hunits⟩ := ih hbetween
    refine ⟨after, ?_, hafter, hsame.trans hone, ?_⟩
    · simp only [Exchange.handOnAll, hfirst, hrest]
    · rw [hunits, hunit, List.append_assoc, List.singleton_append]

end Exchange

/-! ## All frames of a recording -/

namespace ReplayPlan

/-- The files that a replay works on while its outputs are not touched, and the writes that it leaves
to the worker. -/
structure Stores (plan : ReplayPlan) (files after : FileSystem) (left : List WriteJob) : Prop where
  files : files.Spares (plan.storePlaces files.workingDirectory) after
  jobs : ∀ job ∈ left, plan.settings.persistence.enabled = true ∧ job.device = plan.settings.device

theorem Stores.trans {plan : ReplayPlan} {files between after : FileSystem}
    {jobs left : List WriteJob} (h : plan.Stores files between jobs)
    (hrest : plan.Stores between after left) : plan.Stores files after left := by
  have hspares := hrest.files
  rw [h.files.workingDirectory] at hspares
  exact ⟨h.files.trans hspares, hrest.jobs⟩

/-- What a delivery becomes by frames that give these units. -/
structure Delivers (before after : Delivery) (frames : Nat) (units : List AccessUnit) : Prop where
  lossless : after.exchange.Lossless
  producers : after.exchange.queue.producers = before.exchange.queue.producers
  passed : after.exchange.units = before.exchange.units ++ units
  taken : after.tally.framesReceived = before.tally.framesReceived + frames
  emitted : after.tally.unitsEmitted = before.tally.unitsEmitted + units.length
  drops : after.tally.overflowDrops = before.tally.overflowDrops

theorem Delivers.trans {before between after : Delivery} {frames more : Nat}
    {units others : List AccessUnit} (h : Delivers before between frames units)
    (hrest : Delivers between after more others) :
    Delivers before after (frames + more) (units ++ others) where
  lossless := hrest.lossless
  producers := hrest.producers.trans h.producers
  passed := by rw [hrest.passed, h.passed, List.append_assoc]
  taken := by rw [hrest.taken, h.taken, Nat.add_assoc]
  emitted := by rw [hrest.emitted, h.emitted, List.length_append, Nat.add_assoc]
  drops := hrest.drops.trans h.drops

variable {plan : ReplayPlan} {delivery : Delivery} {files : FileSystem} {jobs : List WriteJob}

theorem run_deliver (h : delivery.exchange.Lossless) (hsound : files.Sound)
    (hjobs : ∀ job ∈ jobs, plan.settings.persistence.enabled = true ∧
      job.device = plan.settings.device) (frame : CaptureFrame) :
    ∃ after left last,
      ((delivery.deliver plan.keeper? frame).run jobs).run files = ((after, left), last) ∧
      after.session = (delivery.session.take frame).2 ∧
      Delivers delivery after 1 (delivery.session.take frame).1.units ∧
      plan.Stores files last left := by
  obtain ⟨kept, left, last, hrun, hkept, hstore⟩ := Session.run_onFrame
    plan.settings.persistence plan.home plan.settings.device delivery.session frame hsound jobs
    delivery.tally
  obtain ⟨exchange, hhanded, hlossless, hproducers, hunits⟩ :=
    h.handOnAll (delivery.session.take frame).1.units
  refine ⟨{ session := (delivery.session.take frame).2, exchange, tally := kept.afterDrops 0 }, left,
    last, ?_, rfl, ⟨hlossless, hproducers, hunits, hkept.framesReceived, hkept.unitsEmitted,
      hkept.overflowDrops⟩, hstore.spares, ?_⟩
  · rw [Delivery.deliver, StateT.run_bind, Script.run_bind, keeper?, hrun]
    simp only [hhanded]
    rfl
  · intro job hjob
    exact (hstore.own job hjob).elim (hjobs job) id

theorem run_deliverAll (hfast : plan.arguments.fast = true) (h : delivery.exchange.Lossless)
    (hsound : files.Sound) (hjobs : ∀ job ∈ jobs, plan.settings.persistence.enabled = true ∧
      job.device = plan.settings.device) (frames : List (Bytes × Nat)) :
    ∃ after left last,
      ((delivery.deliverAll plan.keeper? (ReplayCommand.clock plan.arguments) frames).run jobs).run
        files = ((after, left), last) ∧
      Delivers delivery after frames.length (delivery.session.unitsOf (frames.map .due)) ∧
      plan.Stores files last left := by
  induction frames generalizing delivery files jobs with
  | nil =>
    exact ⟨delivery, jobs, files, rfl, ⟨h, rfl, (List.append_nil _).symm, rfl, rfl, rfl⟩,
      .refl hsound, hjobs⟩
  | cons frame frames ih =>
    obtain ⟨between, some, middle, hfirst, hsession, hdelivers, hstores⟩ :=
      run_deliver h hsound hjobs (.due frame)
    obtain ⟨after, left, last, hrest, hmore, hlast⟩ :=
      ih hdelivers.lossless hstores.files.sound hstores.jobs
    rw [hsession] at hmore
    refine ⟨after, left, last, ?_, ?_, hstores.trans hlast⟩
    · have hclock : ReplayCommand.clock plan.arguments frame.2 = pure frame.2 := if_pos hfast
      rw [Delivery.deliverAll, hclock]
      show ((delivery.deliver plan.keeper? (.due frame) >>= fun delivery =>
        delivery.deliverAll plan.keeper? (ReplayCommand.clock plan.arguments) frames).run jobs).run
          files = _
      rw [StateT.run_bind, Script.run_bind, hfirst]
      exact hrest
    · rw [List.length_cons, Nat.add_comm]
      exact hdelivers.trans hmore

/-! ## The whole command -/

theorem spares_performAll {working : Location}
    (hjobs : ∀ job ∈ jobs, plan.settings.persistence.enabled = true ∧
      job.device = plan.settings.device) :
    ((BlobStore.directory (plan.settings.persistence.directoryOr plan.home)).performAll
      jobs).Spares (plan.storePlaces working) working := by
  induction jobs with
  | nil => exact Script.spares_pure _
  | cons job jobs ih =>
    obtain ⟨henabled, hdevice⟩ := hjobs job List.mem_cons_self
    obtain ⟨device, blob⟩ := job
    subst hdevice
    apply Script.Spares.bind (Persistence.spares_perform henabled blob)
    intro _
    exact ih fun job hjob => hjobs job (List.mem_cons_of_mem _ hjob)

theorem run_flush (hsound : files.Sound)
    (hjobs : ∀ job ∈ jobs, plan.settings.persistence.enabled = true ∧
      job.device = plan.settings.device) :
    ∃ last, ((plan.settings.persistence.flush plan.home).run jobs).run files = (((), []), last) ∧
      files.Spares (plan.storePlaces files.workingDirectory) last := by
  have hspares := spares_performAll hjobs files hsound rfl
  refine ⟨_, ?_, hspares⟩
  show ((StateT.lift ((BlobStore.directory
    (plan.settings.persistence.directoryOr plan.home)).performAll jobs) >>=
      fun _ => set ([] : List WriteJob) : Keeping Unit).run jobs).run files = _
  rw [StateT.run_bind, Script.run_bind, StateT.run_lift, Script.run_bind]
  rfl

/-- The delivery at the beginning. -/
def opening (plan : ReplayPlan) (framer : Framer) : Delivery where
  session := plan.session framer
  exchange := .opened plan.settings.queue.capacity plan.settings.queue.overflow

/-- When the only producer has gone, the consumer learns that the stream has ended. -/
theorem ending_close {after : Delivery} (h : after.exchange.Lossless)
    (hone : after.exchange.queue.producers = 1) : after.close.ending = .failed .closed := by
  have hnone : after.exchange.queue.producers - 1 = 0 := by omega
  simp [Delivery.close, Exchange.close, FrameQueue.drain, FrameQueue.dropProducer, FrameQueue.pop,
    FrameQueue.receive?, h.calm, h.isOpen, hnone]

/-- What the consumer receives, and what it is told when there is nothing more. -/
theorem run_replay (hfast : plan.arguments.fast = true)
    (hqueue : plan.settings.queue.capacity = 0 ∨ plan.settings.queue.overflow = .block)
    (hsound : files.Sound) (framer : Framer) (recording : Bytes) :
    ∃ replayed last, (ReplayCommand.replay plan.arguments plan.home plan.settings plan.format
        plan.keeper? framer recording).run files = (replayed, last) ∧
      files.Spares (plan.storePlaces files.workingDirectory) last ∧
      replayed.units = plan.unitsOf framer recording ∧ replayed.ending = .failed .closed ∧
      (ReplaySummary.ofReplayed replayed).Tells (splitFrames recording).length
        (plan.unitsOf framer recording) := by
  have hopened : (plan.opening framer).exchange.Lossless :=
    ⟨rfl, rfl, fun _ => Nat.zero_le _, hqueue⟩
  have hnone : ∀ job ∈ ([] : List WriteJob), plan.settings.persistence.enabled = true ∧
      job.device = plan.settings.device := fun _ hjob => nomatch hjob
  obtain ⟨after, left, between, hrun, hdelivers, hstores⟩ :=
    run_deliverAll hfast hopened hsound hnone (dueFrames recording plan.format.interval)
  obtain ⟨last, hflush, hspares⟩ := run_flush hstores.files.sound hstores.jobs
  rw [hstores.files.workingDirectory] at hspares
  have hreceived : after.close.units = plan.unitsOf framer recording := hdelivers.passed
  refine ⟨after.close, last, ?_, hstores.files.trans hspares, hreceived,
    ending_close hdelivers.lossless hdelivers.producers, ?_⟩
  · have hdelivered : ((do
        let delivery ← (plan.opening framer).deliverAll plan.keeper?
          (ReplayCommand.clock plan.arguments) (dueFrames recording plan.format.interval)
        plan.settings.persistence.flush plan.home
        return delivery.close : Keeping Replayed).run []).run files = ((after.close, []), last) := by
      rw [StateT.run_bind, Script.run_bind, hrun]
      dsimp only
      rw [StateT.run_bind, Script.run_bind, hflush]
      rfl
    rw [ReplayCommand.replay, Script.run_bind]
    exact congrArg (fun result => (result.1.1, result.2)) hdelivered
  · rw [← hreceived]
    apply ReplaySummary.tells_ofReplayed
    · exact hdelivers.taken.trans ((Nat.zero_add _).trans (length_dueFrames _ _))
    · rw [hreceived]
      exact hdelivers.emitted.trans (Nat.zero_add _)
    · exact hdelivers.drops

end ReplayPlan

namespace Outputs

variable {places : OutputPlaces} {files : FileSystem} {units : List AccessUnit} {outputs : Outputs}

theorem Hold.putUnits (h : outputs.Hold places files units) (hsound : files.Sound)
    (others : List AccessUnit) :
    ∃ filled last, (others.foldlM Outputs.putUnit outputs : Script.Fallible Outputs).run.run files =
        (.ok filled, last) ∧
      filled.Hold places last (units ++ others) ∧ files.Spares places.toList last := by
  induction others generalizing outputs files units with
  | nil => exact ⟨outputs, files, rfl, by rwa [List.append_nil], .refl hsound⟩
  | cons unit others ih =>
    obtain ⟨between, middle, hput, hbetween, hspares⟩ := h.putUnit hsound unit
    obtain ⟨filled, last, hrun, hfilled, hrest⟩ := ih hbetween hspares.sound
    refine ⟨filled, last, ?_, ?_, hspares.trans hrest⟩
    · rw [List.foldlM_cons, Script.run_fallible_bind, hput]
      exact hrun
    · rwa [List.append_assoc] at hfilled

/-- What is written to the outputs cannot fail, and is on the disk in the end. -/
theorem Hold.writeUnits (h : outputs.Hold places files []) (hsound : files.Sound)
    (units : List AccessUnit) :
    ∃ (flushed : Outputs) (last : FileSystem),
      (ReplayCommand.writeUnits outputs units).run.run files = (.ok (), last) ∧
      flushed.Are (OutputFile.Stored (streamOf units)) (OutputFile.Stored (timesOf units)) places
        last ∧ files.Spares places.toList last := by
  obtain ⟨filled, between, hput, hfilled, hspares⟩ := h.putUnits hsound units
  obtain ⟨flushed, last, hflush, hstored, hrest⟩ := hfilled.flush hspares.sound
  refine ⟨flushed, last, ?_, hstored, hspares.trans hrest⟩
  rw [ReplayCommand.writeUnits, Script.run_fallible_bind, hput]
  dsimp only
  rw [Script.run_fallible_bind, hflush]
  rfl

end Outputs

theorem ReplayCommand.run_liftM {α : Type} {script : Script α} {files after : FileSystem} {value : α}
    (h : script.run files = (value, after)) :
    (liftM script : Step α).run.run files = (.ok value, after) := by
  show (script >>= fun value => pure (Except.ok value : Except String α)).run files = _
  rw [Script.run_bind, h]
  rfl

/-- The steps of the command, when each of them goes well. -/
theorem ReplayCommand.run_steps {arguments : Arguments} {home : Option String} {settings : Settings}
    {format : CaptureFormat} {outputs : Outputs} {recording : Bytes} {replayed : Replayed}
    {files created between last : FileSystem}
    (hsettings : (readSettings arguments).run.run files = (.ok settings, files))
    (hformat : selectFormat [settings.replay.capability] arguments.constraint.best = .ok format)
    (hcreate : (createOutputs arguments).run.run files = (.ok outputs, created))
    (hread : created.read arguments.input = .ok recording)
    (hreplay : (replay arguments home settings format
      (settings.persistence.openKeeper home settings.device) (settings.framer home files)
      recording).run created = (replayed, between))
    (hwrite : (writeUnits outputs replayed.units).run.run between = (.ok (), last)) :
    (steps arguments home).run.run files = (.ok (.ofReplayed replayed), last) := by
  rw [steps, Script.run_fallible_bind_eq_ok_iff]
  refine ⟨settings, files, hsettings, ?_⟩
  rw [hformat]
  refine Script.run_fallible_bind_eq_ok_iff.mpr ⟨format, files, rfl, ?_⟩
  refine Script.run_fallible_bind_eq_ok_iff.mpr ⟨(settings.framer home files, []), files, ?_, ?_⟩
  · exact run_liftM (settings.run_openFramer home files)
  refine Script.run_fallible_bind_eq_ok_iff.mpr ⟨outputs, created, hcreate, ?_⟩
  refine Script.run_fallible_bind_eq_ok_iff.mpr ⟨.ok recording, created, ?_, ?_⟩
  · apply run_liftM
    rw [Script.run_request, Script.answer, hread]
    rfl
  refine Script.run_fallible_bind_eq_ok_iff.mpr ⟨replayed, between, run_liftM hreplay, ?_⟩
  exact Script.run_fallible_bind_eq_ok_iff.mpr ⟨(), last, run_adapt_eq_ok_iff.mpr hwrite, rfl⟩

namespace ReplayPlan

variable {plan : ReplayPlan} {places : OutputPlaces} {files created : FileSystem} {outputs : Outputs}
  {recording : Bytes}

/-- When the replay is ready, all units go through, and the outputs are written. -/
theorem run_command (hready : plan.Ready places created outputs)
    (hsettings : (ReplayCommand.readSettings plan.arguments).run.run files =
      (.ok plan.settings, files))
    (hformat : selectFormat [plan.settings.replay.capability] plan.arguments.constraint.best =
      .ok plan.format)
    (hcreate : (ReplayCommand.createOutputs plan.arguments).run.run files = (.ok outputs, created))
    (hread : created.read plan.arguments.input = .ok recording) :
    ∃ summary last,
      (ReplayCommand.run plan.arguments plan.home).run files = (plan.endingOf summary, last) ∧
      summary.Tells (splitFrames recording).length
        (plan.unitsOf (plan.settings.framer plan.home files) recording) ∧
      created.Spares (places.toList ++ plan.storePlaces created.workingDirectory) last ∧
      ∃ flushed : Outputs, flushed.Are
        (OutputFile.Stored (streamOf (plan.unitsOf (plan.settings.framer plan.home files) recording)))
        (OutputFile.Stored (timesOf (plan.unitsOf (plan.settings.framer plan.home files) recording)))
        places last := by
  obtain ⟨replayed, between, hreplay, hspares, hunits, -, htells⟩ :=
    run_replay hready.fast hready.lossless hready.sound (plan.settings.framer plan.home files) recording
  obtain ⟨flushed, last, hwrite, hstored, hrest⟩ :=
    (hready.outputs.spared hspares hready.apart).writeUnits hspares.sound replayed.units
  refine ⟨.ofReplayed replayed, last, ?_, htells, ?_, flushed, ?_⟩
  · rw [ReplayCommand.run, Script.run_bind,
      ReplayCommand.run_steps hsettings hformat hcreate hread hreplay hwrite]
    rfl
  · exact (hspares.mono (List.subset_append_right _ _)).trans
      (hrest.mono (List.subset_append_left _ _))
  · rw [← hunits]
    exact hstored

end ReplayPlan

end CamStream
