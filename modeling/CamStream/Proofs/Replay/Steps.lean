import CamStream.Proofs.Replay.Playback
import CamStream.Proofs.Schedule

/-!
# The steps of a replay

While a replay is under way there are few things that a party can do, and none of them goes wrong: the
outputs can be written, the queue has not been closed, and no pop fails before the thread is gone.

* `Playback.Step`: what a party can do.
* `Playback.UnderWay.step_of`: nothing else happens.
* `Playback.UnderWay.after`: whatever happens, the replay remains under way until it is over.
* `Playback.sane_stateAt`: so it is at all times, whoever acts when.
-/

namespace CamStream

open FileSystem

namespace Playback

/-- The party to wait for. The consumer can take out what is queued; if nothing is, the thread has room
to go on, unless it waits for the worker; and if it is gone, the consumer learns so. -/
def helpful (now : Playback) : Party :=
  if now.queue.backlog ≠ [] ∨ now.thread = .gone then .consumer
  else if now.thread = .leaving ∧ now.jobs ≠ [] then .worker
  else .thread

/-- How many steps a push is away from sending, if there is room. -/
def pushDistance : PushPhase → Nat
  | .arriving | .refused => 1
  | .sending | .queued | .discarded => 0

/-- How many steps a pop is away from its end, if there is something in the queue, or if there is
nothing and the thread is gone. -/
def popDistance (something : Bool) : PopPhase → Nat
  | .looking => if something then 2 else 3
  | .receiving => if something then 1 else 2
  | .asking => if something then 3 else 1
  | .lastLook | .got _ | .failed _ => 0

section

variable (plan : ReplayPlan) (places : OutputPlaces) (now : Playback)

/-- What a party can do. -/
inductive Step : Party → Playback → Prop
  | idle {party : Party} (hidle : party ≠ now.helpful) : Step party now
  /-- The thread takes a frame. -/
  | take {frame : Bytes × Nat} {frames : List (Bytes × Nat)} {push : PushPhase} {kept : Tally}
      {jobs : List WriteJob} {files : FileSystem} (hthread : now.thread = .delivering [] push)
      (hframes : now.frames = frame :: frames)
      (hkept : (now.tally.afterFrame (now.session.take (.due frame)).1).SameButWrites kept)
      (happart : KeptApart plan.settings.persistence plan.home plan.settings.device now.files files
        now.jobs jobs) :
      Step .thread { now with
        files, frames, jobs, session := (now.session.take (.due frame)).2, tally := kept,
        thread := .delivering (now.session.take (.due frame)).1.units .arriving }
  /-- The thread has delivered all frames. -/
  | leave {push : PushPhase} (hthread : now.thread = .delivering [] push) (hframes : now.frames = []) :
      Step .thread { now with running := false, thread := .leaving }
  /-- A push goes on, or tries again. -/
  | pushOn {unit : AccessUnit} {waiting : List AccessUnit} {push next : PushPhase}
      (hthread : now.thread = .delivering (unit :: waiting) push) (hnext : next.isOver = false)
      (hpatient : next = .refused → now.queue.overflow = .block)
      (hcloser : now.queue.backlog = [] → pushDistance next < pushDistance push) :
      Step .thread { now with thread := .delivering (unit :: waiting) next }
  /-- A push has sent its unit. -/
  | send {unit : AccessUnit} {waiting : List AccessUnit} {push : PushPhase}
      (hthread : now.thread = .delivering (unit :: waiting) push) :
      Step .thread { now with
        queue := { now.queue with backlog := now.queue.backlog ++ [unit] }
        thread := .delivering waiting .arriving }
  /-- The thread drops its end of the queue. -/
  | drop (hthread : now.thread = .leaving) (hjobs : now.jobs = []) :
      Step .thread { now with queue := now.queue.dropProducer, thread := .gone }
  /-- The worker performs a write. -/
  | perform {job : WriteJob} {jobs : List WriteJob} {files : FileSystem}
      (hjobs : now.jobs = job :: jobs)
      (hspares : now.files.Spares (plan.storePlaces now.files.workingDirectory) files) :
      Step .worker { now with jobs, files }
  /-- A pop goes on. -/
  | popOn {pop next : PopPhase} (hconsumer : now.consumer = .popping pop)
      (hpop : pop.isOver = false) (hnext : next.isOver = false)
      (hfits : ConsumerFits now.thread now.queue.backlog now.failure (.popping next))
      (hcloser : now.queue.backlog ≠ [] ∨ now.thread = .gone →
        popDistance (now.queue.backlog ≠ []) next < popDistance (now.queue.backlog ≠ []) pop) :
      Step .consumer { now with consumer := .popping next }
  /-- A pop has received a unit. -/
  | receive {pop : PopPhase} {unit : AccessUnit} {backlog : List AccessUnit}
      (hconsumer : now.consumer = .popping pop) (hpop : pop.isOver = false)
      (hbacklog : now.queue.backlog = unit :: backlog) :
      Step .consumer { now with
        queue := { now.queue with backlog }, consumer := .popping (.got unit) }
  /-- A pop has found nothing when it looked for the last time. -/
  | conclude (hconsumer : now.consumer = .popping .lastLook) (hempty : now.queue.backlog = []) :
      Step .consumer { now with consumer := .popping (.failed .closed) }
  /-- The consumer puts a unit into the outputs. -/
  | put {unit : AccessUnit} {outputs : Outputs} {files : FileSystem}
      (hconsumer : now.consumer = .popping (.got unit))
      (hhold : outputs.Hold places files (now.received ++ [unit]))
      (hspares : now.files.Spares places.toList files) :
      Step .consumer { now with
        files, outputs, received := now.received ++ [unit], consumer := .popping .looking }
  /-- The consumer learns that the stream has ended. -/
  | close (hconsumer : now.consumer = .popping (.failed .closed)) :
      Step .consumer { now with failure := some .closed, running := false, consumer := .stopping }
  /-- The consumer ends the replay. -/
  | finish {outputs : Outputs} {files : FileSystem} (hconsumer : now.consumer = .stopping)
      (hstored : outputs.Are (OutputFile.Stored (streamOf now.received))
        (OutputFile.Stored (timesOf now.received)) places files)
      (hspares : now.files.Spares places.toList files) :
      Step .consumer { now with
        queue := now.queue.stop, files, outputs
        consumer := .ended (plan.endingOf (.ofReplayed
          { units := now.received, ending := .failed .closed, tally := now.tally })) }

end

/-! ## Nothing else happens -/

section

variable {plan : ReplayPlan} {begun : FileSystem} {places : OutputPlaces} {frames : Nat}
  {units : List AccessUnit} {now next : Playback}

namespace UnderWay

variable (h : UnderWay plan begun places frames units now)

include h

omit h in
theorem deliver_eq (hfast : plan.arguments.fast = true) {frame : Bytes × Nat}
    {frames : List (Bytes × Nat)} {emitted : List AccessUnit} {session : Session} {kept : Tally}
    {jobs : List WriteJob} {files : FileSystem}
    (hrun : ((now.session.onFrame plan.keeper? now.tally (.due frame)).run now.jobs).run now.files =
      (((emitted, session, kept), jobs), files)) :
    plan.deliver now frame.1 frame.2 frames =
      { now with
        files, session, frames, jobs, tally := kept, thread := .delivering emitted .arriving } := by
  have hclock : ReplayCommand.clock plan.arguments frame.2 = pure frame.2 := if_pos hfast
  have htake : (do
      let timestamp ← ReplayCommand.clock plan.arguments frame.2
      now.session.onFrame plan.keeper? now.tally { data := frame.1, timestamp } : Keeping _).run
        now.jobs = (now.session.onFrame plan.keeper? now.tally (.due frame)).run now.jobs := by
    rw [hclock]
    rfl
  rw [ReplayPlan.deliver, htake, hrun]

/-- A push goes on, sends its unit, or finds no room because the consumer has something to do. -/
theorem stepThread_pushing {unit : AccessUnit} {waiting : List AccessUnit} {push : PushPhase}
    (hthread : now.thread = .delivering (unit :: waiting) push) (hpush : push.isOver = false) :
    Step plan places now .thread (plan.stepThread now) := by
  have hphase : ∀ {next : PushPhase}, now.queue.pushStep unit push = { queue := now.queue, phase := next } →
      next.isOver = false →
      plan.stepThread now = { now with thread := .delivering (unit :: waiting) next } := by
    intro next hmove hnext
    simp only [ReplayPlan.stepThread, hthread, hmove, hnext, Bool.false_eq_true, if_false]
    rfl
  cases push with
  | arriving =>
    rw [hphase (FrameQueue.pushStep_arriving h.isOpen) rfl]
    exact .pushOn hthread rfl (fun h => nomatch h) fun _ => by decide
  | sending =>
    by_cases hfull : now.queue.isFull = true
    · rw [hphase (FrameQueue.pushStep_sending_full hfull) rfl]
      -- There is a bound, so the queue makes its pushers wait.
      have hpolicy : now.queue.overflow = .block := by
        have hpos := (FrameQueue.isFull_iff.mp hfull).1
        exact h.lossless.resolve_left (by omega)
      exact .pushOn hthread rfl (fun _ => hpolicy) fun hempty =>
        absurd hempty (FrameQueue.backlog_ne_nil_of_isFull hfull)
    · have hmove := @FrameQueue.pushStep_sending _ unit (Bool.eq_false_iff.mpr hfull)
      have hstep : plan.stepThread now = { now with
          queue := { now.queue with backlog := now.queue.backlog ++ [unit] }
          thread := .delivering waiting .arriving } := by
        simp only [ReplayPlan.stepThread, hthread, hmove]
        rfl
      rw [hstep]
      exact .send hthread
  | refused =>
    rw [hphase (FrameQueue.pushStep_retry (h.patient _ hthread) h.isOpen h.calm) rfl]
    exact .pushOn hthread rfl (fun h => nomatch h) fun _ => by decide
  | queued | discarded => cases hpush

theorem stepThread (hfast : plan.arguments.fast = true) :
    Step plan places now .thread (plan.stepThread now) := by
  have hfits := h.thread
  cases hthread : now.thread with
  | delivering waiting push =>
    rw [hthread] at hfits
    cases hfits with
    | delivering hrunning hproducers hpush =>
      cases waiting with
      | nil =>
        cases hframes : now.frames with
        | nil =>
          have hstep : plan.stepThread now = { now with running := false, thread := .leaving } := by
            simp only [ReplayPlan.stepThread, hthread, hframes, hrunning]
          rw [hstep]
          exact .leave hthread hframes
        | cons frame frames =>
          obtain ⟨kept, left, after, hrun, hkept, happart⟩ := Session.run_onFrame
            plan.settings.persistence plan.home plan.settings.device now.session (.due frame)
            h.files.sound now.jobs now.tally
          have hstep : plan.stepThread now = plan.deliver now frame.1 frame.2 frames := by
            simp only [ReplayPlan.stepThread, hthread, hframes, hrunning]
          rw [hstep, deliver_eq hfast hrun]
          exact .take hthread hframes hkept happart
      | cons unit waiting => exact h.stepThread_pushing hthread hpush
  | leaving =>
    simp only [ReplayPlan.stepThread, hthread]
    by_cases hjobs : now.jobs = []
    · rw [if_pos hjobs]
      exact .drop hthread hjobs
    · rw [if_neg hjobs]
      apply Step.idle
      by_cases hempty : now.queue.backlog = [] <;> simp [helpful, hthread, hjobs, hempty]
  | gone =>
    simp only [ReplayPlan.stepThread, hthread]
    apply Step.idle
    simp [helpful, hthread]

theorem stepWorker : Step plan places now .worker (plan.stepWorker now) := by
  cases hjobs : now.jobs with
  | nil =>
    have hstep : plan.stepWorker now = now := by simp only [ReplayPlan.stepWorker, hjobs]
    rw [hstep]
    apply Step.idle
    by_cases hconsumer : now.queue.backlog ≠ [] ∨ now.thread = .gone <;>
      simp [helpful, hconsumer, hjobs]
  | cons job jobs =>
    obtain ⟨henabled, hdevice⟩ := h.jobs job (hjobs ▸ List.mem_cons_self)
    obtain ⟨device, blob⟩ := job
    subst hdevice
    have hspares : now.files.Spares (plan.storePlaces now.files.workingDirectory) _ :=
      Persistence.spares_perform henabled blob now.files h.files.sound rfl
    have hstep : plan.stepWorker now = { now with
        jobs, files := (((BlobStore.directory (plan.settings.persistence.directoryOr plan.home)).perform
          { device := plan.settings.device, blob }).run now.files).2 } := by
      simp only [ReplayPlan.stepWorker, hjobs]
    rw [hstep]
    exact .perform hjobs hspares

omit h in
theorem stepConsumer_eq {pop next : PopPhase} {queue : FrameQueue}
    (hconsumer : now.consumer = .popping pop) (hpop : pop.isOver = false)
    (hnext : now.queue.popStep pop = (queue, next)) :
    plan.stepConsumer now = { now with queue, consumer := .popping next } := by
  cases pop with
  | looking | receiving | asking | lastLook =>
    simp only [ReplayPlan.stepConsumer, hconsumer, hnext]
  | got _ | failed _ => cases hpop

omit h in
/-- A pop that finds something in the queue takes the oldest unit. -/
theorem stepConsumer_receiving {pop : PopPhase} (hconsumer : now.consumer = .popping pop)
    (hpop : pop = .receiving ∨ pop = .lastLook) (hsome : now.queue.backlog ≠ []) :
    Step plan places now .consumer (plan.stepConsumer now) := by
  obtain ⟨unit, backlog, hbacklog⟩ := List.exists_cons_of_ne_nil hsome
  have hover : pop.isOver = false := by rcases hpop with rfl | rfl <;> rfl
  rw [stepConsumer_eq hconsumer hover (FrameQueue.popStep_got hbacklog hpop)]
  exact .receive hconsumer hover hbacklog

/-- There is a producer until the thread is gone. -/
theorem producers_eq_zero_iff : now.queue.producers = 0 ↔ now.thread = .gone := by
  have hfits := h.thread
  cases hthread : now.thread <;> rw [hthread] at hfits <;> cases hfits <;> simp [*]

/-- A pop goes on, receives a unit, or learns that there will be none. -/
theorem stepConsumer_popping {pop : PopPhase} (hconsumer : now.consumer = .popping pop)
    (hpop : pop.isOver = false) : Step plan places now .consumer (plan.stepConsumer now) := by
  have hfits := h.consumer
  rw [hconsumer] at hfits
  cases hfits with
  | looking hfailure =>
    rw [stepConsumer_eq hconsumer rfl (FrameQueue.popStep_looking h.calm h.isOpen)]
    apply Step.popOn hconsumer rfl rfl (.receiving hfailure)
    intro _
    cases decide (now.queue.backlog ≠ []) <;> decide
  | receiving hfailure =>
    by_cases hempty : now.queue.backlog = []
    · rw [stepConsumer_eq hconsumer rfl (FrameQueue.popStep_receiving_nil hempty)]
      apply Step.popOn hconsumer rfl rfl (.asking hfailure)
      intro _
      simp [hempty, popDistance]
    · exact stepConsumer_receiving hconsumer (Or.inl rfl) hempty
  | asking hfailure =>
    by_cases hproducers : now.queue.producers = 0
    · have hgone := h.producers_eq_zero_iff.mp hproducers
      rw [stepConsumer_eq hconsumer rfl (FrameQueue.popStep_asking_gone hproducers)]
      apply Step.popOn hconsumer rfl rfl (.lastLook hfailure hgone)
      intro _
      cases decide (now.queue.backlog ≠ []) <;> decide
    · rw [stepConsumer_eq hconsumer rfl (FrameQueue.popStep_asking hproducers)]
      apply Step.popOn hconsumer rfl rfl (.looking hfailure)
      rintro (hsome | hgone)
      · simp [hsome, popDistance]
      · exact absurd (h.producers_eq_zero_iff.mpr hgone) hproducers
  | lastLook hfailure hgone =>
    by_cases hempty : now.queue.backlog = []
    · rw [stepConsumer_eq hconsumer rfl (FrameQueue.popStep_lastLook_nil hempty)]
      exact .conclude hconsumer hempty
    · exact stepConsumer_receiving hconsumer (Or.inr rfl) hempty
  | got _ | closed _ _ _ => cases hpop

theorem stepConsumer : Step plan places now .consumer (plan.stepConsumer now) := by
  have hfits := h.consumer
  cases hconsumer : now.consumer with
  | popping pop =>
    cases hpop : pop.isOver with
    | false => exact h.stepConsumer_popping hconsumer hpop
    | true =>
      rw [hconsumer] at hfits
      cases hfits with
      | @got unit hfailure =>
        obtain ⟨outputs, files, hrun, hhold, hspares⟩ := h.outputs.putUnit h.files.sound unit
        have hstep : plan.stepConsumer now = { now with
            files, outputs, received := now.received ++ [unit], consumer := .popping .looking } := by
          simp only [ReplayPlan.stepConsumer, hconsumer, hrun]
        rw [hstep]
        exact .put hconsumer hhold hspares
      | closed hfailure hgone hempty =>
        have hstep : plan.stepConsumer now =
            { now with failure := some .closed, running := false, consumer := .stopping } := by
          simp only [ReplayPlan.stepConsumer, hconsumer]
        rw [hstep]
        exact .close hconsumer
      | looking | receiving | asking | lastLook => cases hpop
  | stopping =>
    rw [hconsumer] at hfits
    cases hfits with
    | stopping hfailure hgone hempty =>
      obtain ⟨outputs, files, hrun, hstored, hspares⟩ := h.outputs.flush h.files.sound
      have hstep : plan.stepConsumer now = { now with
          queue := now.queue.stop, files, outputs
          consumer := .ended (plan.endingOf (.ofReplayed
            { units := now.received, ending := .failed .closed, tally := now.tally })) } := by
        simp only [ReplayPlan.stepConsumer, hconsumer, hgone, if_true, ReplayPlan.finish, hrun]
      rw [hstep]
      exact .finish hconsumer hstored hspares
  | ended ending =>
    rw [hconsumer] at hfits
    cases hfits

theorem step_of (hfast : plan.arguments.fast = true) (party : Party) :
    Step plan places now party (plan.step now party) := by
  cases party with
  | thread => exact h.stepThread hfast
  | worker => exact h.stepWorker
  | consumer => exact h.stepConsumer

end UnderWay

end

/-! ## The invariant -/

section

variable {plan : ReplayPlan} {begun : FileSystem} {places : OutputPlaces} {frames : Nat}
  {units : List AccessUnit} {now next : Playback}

namespace UnderWay

variable (h : UnderWay plan begun places frames units now)

include h

theorem outputs_spared {others : List Location} {files : FileSystem}
    (hspares : now.files.Spares others files) (hothers : ∀ place ∈ places.toList, place ∉ others)
    (hsub : others ⊆ plan.storePlaces begun.workingDirectory) :
    begun.Spares (places.toList ++ plan.storePlaces begun.workingDirectory) files ∧
      now.outputs.Hold places files now.received :=
  ⟨h.files.trans (hspares.mono (List.subset_append_of_subset_right _ hsub)),
    h.outputs.spared hspares hothers⟩

/-- While the thread delivers, it is the producer of the queue, and has not been told to stop. -/
theorem of_delivering {waiting : List AccessUnit} {push : PushPhase}
    (hthread : now.thread = .delivering waiting push) :
    now.running = true ∧ now.queue.producers = 1 := by
  have hfits := h.thread
  rw [hthread] at hfits
  cases hfits with
  | delivering hrunning hproducers hpush => exact ⟨hrunning, hproducers⟩

theorem after_take {frame : Bytes × Nat} {left : List (Bytes × Nat)} {push : PushPhase}
    {kept : Tally} {jobs : List WriteJob} {files : FileSystem}
    (happart : ∀ place ∈ places.toList, place ∉ plan.storePlaces begun.workingDirectory)
    (hthread : now.thread = .delivering [] push) (hframes : now.frames = frame :: left)
    (hkept : (now.tally.afterFrame (now.session.take (.due frame)).1).SameButWrites kept)
    (hstore : KeptApart plan.settings.persistence plan.home plan.settings.device now.files files
      now.jobs jobs) :
    UnderWay plan begun places frames units { now with
      files, frames := left, jobs, session := (now.session.take (.due frame)).2, tally := kept
      thread := .delivering (now.session.take (.due frame)).1.units .arriving } := by
  have hspares := hstore.spares
  rw [h.files.workingDirectory] at hspares
  obtain ⟨hfiles, houtputs⟩ := h.outputs_spared hspares happart (List.Subset.refl _)
  obtain ⟨hrunning, hproducers⟩ := h.of_delivering hthread
  have horder := h.order
  have htaken := h.taken
  have hemitted := h.emitted
  rw [hframes] at htaken
  rw [hframes, List.map_cons, Session.unitsOf] at horder hemitted
  refine { h with
    files := hfiles, outputs := houtputs
    thread := .delivering hrunning hproducers rfl
    consumer := h.consumer.elsewhere (by simp [hthread])
    patient := fun _ hphase => by cases hphase
    order := ?_, taken := ?_, emitted := ?_, drops := hkept.overflowDrops.trans h.drops
    jobs := fun job hjob => (hstore.own job hjob).elim (h.jobs job) id }
  · rw [hthread] at horder
    simpa [ThreadPhase.waiting] using horder
  · have hcount : kept.framesReceived = now.tally.framesReceived + 1 := hkept.framesReceived
    show kept.framesReceived + left.length = frames
    rw [List.length_cons] at htaken
    omega
  · have hcount : kept.unitsEmitted = now.tally.unitsEmitted +
        (now.session.take (.due frame)).1.units.length := hkept.unitsEmitted
    show kept.unitsEmitted +
      ((now.session.take (.due frame)).2.unitsOf (left.map .due)).length = units.length
    rw [List.length_append] at hemitted
    omega

theorem after_leave {push : PushPhase} (hthread : now.thread = .delivering [] push)
    (hframes : now.frames = []) :
    UnderWay plan begun places frames units { now with running := false, thread := .leaving } := by
  have horder := h.order
  rw [hthread] at horder
  exact { h with
    thread := .leaving (h.of_delivering hthread).2 hframes
    consumer := h.consumer.elsewhere (by simp [hthread])
    patient := fun _ hphase => by cases hphase
    order := horder }

theorem after_pushOn {unit : AccessUnit} {waiting : List AccessUnit} {push next : PushPhase}
    (hthread : now.thread = .delivering (unit :: waiting) push) (hnext : next.isOver = false)
    (hpatient : next = .refused → now.queue.overflow = .block) :
    UnderWay plan begun places frames units
      { now with thread := .delivering (unit :: waiting) next } := by
  obtain ⟨hrunning, hproducers⟩ := h.of_delivering hthread
  have horder := h.order
  rw [hthread] at horder
  refine { h with
    thread := .delivering hrunning hproducers hnext
    consumer := h.consumer.elsewhere (by simp [hthread])
    patient := ?_
    order := horder }
  rintro _ ⟨⟩
  exact hpatient rfl

/-- The unit that was pushed is the last one in the queue. -/
theorem after_send {unit : AccessUnit} {waiting : List AccessUnit} {push : PushPhase}
    (hthread : now.thread = .delivering (unit :: waiting) push) :
    UnderWay plan begun places frames units { now with
      queue := { now.queue with backlog := now.queue.backlog ++ [unit] }
      thread := .delivering waiting .arriving } := by
  obtain ⟨hrunning, hproducers⟩ := h.of_delivering hthread
  have horder := h.order
  rw [hthread] at horder
  refine { h with
    thread := .delivering hrunning hproducers rfl
    consumer := h.consumer.elsewhere (by simp [hthread])
    patient := fun _ hphase => by cases hphase
    order := ?_ }
  simpa [ThreadPhase.waiting] using horder

theorem after_drop (hthread : now.thread = .leaving) (hjobs : now.jobs = []) :
    UnderWay plan begun places frames units
      { now with queue := now.queue.dropProducer, thread := .gone } := by
  have hfits := h.thread
  have horder := h.order
  rw [hthread] at hfits horder
  cases hfits with
  | leaving hproducers hframes =>
    exact { h with
      thread := .gone (congrArg (· - 1) hproducers) hframes hjobs
      consumer := h.consumer.elsewhere (by simp [hthread])
      patient := fun _ hphase => by cases hphase
      order := horder }

theorem after_perform {job : WriteJob} {jobs : List WriteJob} {files : FileSystem}
    (happart : ∀ place ∈ places.toList, place ∉ plan.storePlaces begun.workingDirectory)
    (hjobs : now.jobs = job :: jobs)
    (hspares : now.files.Spares (plan.storePlaces now.files.workingDirectory) files) :
    UnderWay plan begun places frames units { now with jobs, files } := by
  rw [h.files.workingDirectory] at hspares
  obtain ⟨hfiles, houtputs⟩ := h.outputs_spared hspares happart (List.Subset.refl _)
  refine { h with files := hfiles, outputs := houtputs, thread := ?_, jobs := ?_ }
  · have hfits := h.thread
    rw [hjobs] at hfits
    show ThreadFits now.running now.queue.producers now.frames jobs now.thread
    generalize now.thread = thread at hfits ⊢
    cases hfits with
    | delivering hrunning hproducers hpush => exact .delivering hrunning hproducers hpush
    | leaving hproducers hframes => exact .leaving hproducers hframes
    | gone _ _ hnone => cases hnone
  · intro found hfound
    exact h.jobs found (hjobs ▸ List.mem_cons_of_mem _ hfound)

theorem after_popOn {pop next : PopPhase} (hconsumer : now.consumer = .popping pop)
    (hpop : pop.isOver = false) (hnext : next.isOver = false)
    (hfits : ConsumerFits now.thread now.queue.backlog now.failure (.popping next)) :
    UnderWay plan begun places frames units { now with consumer := .popping next } := by
  refine { h with consumer := hfits, order := ?_ }
  have horder := h.order
  rw [hconsumer, ConsumerPhase.inHand_popping hpop] at horder
  rw [ConsumerPhase.inHand_popping hnext]
  exact horder

/-- The oldest unit in the queue goes into the hand of the consumer. -/
theorem after_receive {pop : PopPhase} {unit : AccessUnit} {backlog : List AccessUnit}
    (hconsumer : now.consumer = .popping pop) (hpop : pop.isOver = false)
    (hfailure : now.failure = none) (hbacklog : now.queue.backlog = unit :: backlog) :
    UnderWay plan begun places frames units { now with
      queue := { now.queue with backlog }, consumer := .popping (.got unit) } := by
  refine { h with consumer := .got hfailure, order := ?_ }
  have horder := h.order
  rw [hconsumer, ConsumerPhase.inHand_popping hpop, hbacklog] at horder
  simpa [ConsumerPhase.inHand] using horder

theorem after_put {unit : AccessUnit} {outputs : Outputs} {files : FileSystem}
    (hconsumer : now.consumer = .popping (.got unit)) (hfailure : now.failure = none)
    (hhold : outputs.Hold places files (now.received ++ [unit]))
    (hspares : now.files.Spares places.toList files) :
    UnderWay plan begun places frames units { now with
      files, outputs, received := now.received ++ [unit], consumer := .popping .looking } := by
  refine { h with
    consumer := .looking hfailure, order := ?_, outputs := hhold
    files := h.files.trans (hspares.mono (List.subset_append_left _ _)) }
  have horder := h.order
  rw [hconsumer] at horder
  simpa [ConsumerPhase.inHand] using horder

theorem after_conclude (hconsumer : now.consumer = .popping .lastLook)
    (hempty : now.queue.backlog = []) :
    UnderWay plan begun places frames units { now with consumer := .popping (.failed .closed) } := by
  have hfits := h.consumer
  have horder := h.order
  rw [hconsumer] at hfits horder
  cases hfits with
  | lastLook hfailure hgone =>
    exact { h with consumer := .closed hfailure hgone hempty, order := horder }

theorem after_close (hconsumer : now.consumer = .popping (.failed .closed)) :
    UnderWay plan begun places frames units
      { now with failure := some .closed, running := false, consumer := .stopping } := by
  have hfits := h.consumer
  have horder := h.order
  have hthread := h.thread
  rw [hconsumer] at hfits horder
  cases hfits with
  | closed hfailure hgone hempty =>
    rw [hgone] at hthread
    refine { h with consumer := .stopping rfl hgone hempty, order := horder, thread := ?_ }
    show ThreadFits false now.queue.producers now.frames now.jobs now.thread
    rw [hgone]
    cases hthread with
    | gone hproducers hframes hjobs => exact .gone hproducers hframes hjobs

/-- When the thread is gone and nothing is left behind it, every unit has been received. -/
theorem received_eq (hgone : now.thread = .gone) (hempty : now.queue.backlog = [])
    (hnone : now.consumer.inHand = []) : now.frames = [] ∧ now.received = units := by
  have hfits := h.thread
  have horder := h.order
  rw [hgone] at hfits
  cases hfits with
  | gone hproducers hframes hjobs =>
    rw [hnone, hgone, hempty, hframes] at horder
    exact ⟨hframes, by simpa [ThreadPhase.waiting, Session.unitsOf] using horder⟩

theorem over_finish {outputs : Outputs} {files : FileSystem} (hconsumer : now.consumer = .stopping)
    (hstored : outputs.Are (OutputFile.Stored (streamOf now.received))
      (OutputFile.Stored (timesOf now.received)) places files)
    (hspares : now.files.Spares places.toList files) :
    Over plan begun places frames units { now with
      queue := now.queue.stop, files, outputs
      consumer := .ended (plan.endingOf (.ofReplayed
        { units := now.received, ending := .failed .closed, tally := now.tally })) } := by
  have hfits := h.consumer
  rw [hconsumer] at hfits
  cases hfits with
  | stopping hfailure hgone hempty =>
    obtain ⟨hframes, hreceived⟩ := h.received_eq hgone hempty (by rw [hconsumer]; rfl)
    have hjobs : now.jobs = [] := by
      have hthread := h.thread
      rw [hgone] at hthread
      cases hthread with
      | gone _ _ hjobs => exact hjobs
    have htaken := h.taken
    have hemitted := h.emitted
    rw [hframes] at htaken hemitted
    have htells : (ReplaySummary.ofReplayed
        { units := now.received, ending := .failed .closed, tally := now.tally }).Tells frames
          now.received :=
      ReplaySummary.tells_ofReplayed htaken (hreceived ▸ hemitted) h.drops
    refine ⟨hreceived, hfailure, ⟨_, rfl, ?_⟩, hgone, hjobs,
      h.files.trans (hspares.mono (List.subset_append_left _ _)), ?_⟩
    · rw [← hreceived]
      exact htells
    · rw [← hreceived]
      exact hstored

/-- Whatever a party does, the replay goes on until it is over. -/
theorem after (happart : ∀ place ∈ places.toList, place ∉ plan.storePlaces begun.workingDirectory)
    {party : Party} (step : Step plan places now party next) :
    Sane plan begun places frames units next := by
  have hfailure : ∀ {pop}, now.consumer = .popping pop → now.failure = none := by
    intro pop hconsumer
    have hfits := h.consumer
    rw [hconsumer] at hfits
    cases hfits <;> assumption
  cases step with
  | idle hidle => exact .underWay h
  | take hthread hframes hkept hstore =>
    exact .underWay (h.after_take happart hthread hframes hkept hstore)
  | leave hthread hframes => exact .underWay (h.after_leave hthread hframes)
  | pushOn hthread hnext hpatient hcloser =>
    exact .underWay (h.after_pushOn hthread hnext hpatient)
  | send hthread => exact .underWay (h.after_send hthread)
  | drop hthread hjobs => exact .underWay (h.after_drop hthread hjobs)
  | perform hjobs hspares => exact .underWay (h.after_perform happart hjobs hspares)
  | popOn hconsumer hpop hnext hfits hcloser =>
    exact .underWay (h.after_popOn hconsumer hpop hnext hfits)
  | receive hconsumer hpop hbacklog =>
    exact .underWay (h.after_receive hconsumer hpop (hfailure hconsumer) hbacklog)
  | conclude hconsumer hempty => exact .underWay (h.after_conclude hconsumer hempty)
  | put hconsumer hhold hspares =>
    exact .underWay (h.after_put hconsumer (hfailure hconsumer) hhold hspares)
  | close hconsumer => exact .underWay (h.after_close hconsumer)
  | finish hconsumer hstored hspares => exact .settled (h.over_finish hconsumer hstored hspares)

end UnderWay

/-- When a replay is over, nobody does anything any more. -/
theorem Over.step (h : Over plan begun places frames units now) (party : Party) :
    plan.step now party = now := by
  obtain ⟨summary, hconsumer, -⟩ := h.consumer
  cases party with
  | thread => simp only [ReplayPlan.step, ReplayPlan.stepThread, h.thread]
  | worker => simp only [ReplayPlan.step, ReplayPlan.stepWorker, h.jobs]
  | consumer => simp only [ReplayPlan.step, ReplayPlan.stepConsumer, hconsumer]

variable {outputs : Outputs} (hready : plan.Ready places begun outputs)

include hready

theorem Sane.step (h : Sane plan begun places frames units now) (party : Party) :
    Sane plan begun places frames units (plan.step now party) := by
  cases h with
  | underWay h => exact h.after hready.apart (h.step_of hready.fast party)
  | settled h =>
    rw [h.step party]
    exact .settled h

/-- At the beginning all units are still in the frames. -/
theorem underWay_start (framer : Framer) (recording : Bytes) :
    UnderWay plan begun places (splitFrames recording).length (plan.unitsOf framer recording)
      (plan.start framer recording outputs begun) where
  order := rfl
  isOpen := rfl
  calm := rfl
  lossless := hready.lossless
  patient := fun _ hphase => by cases hphase
  thread := .delivering rfl rfl rfl
  consumer := .looking rfl
  taken := (Nat.zero_add _).trans (length_dueFrames _ _)
  emitted := Nat.zero_add _
  drops := rfl
  jobs := fun _ hjob => by cases hjob
  files := .refl hready.sound
  outputs := hready.outputs

/-- At all times the replay is under way or over, whoever acts when. -/
theorem sane_stateAt (framer : Framer) (recording : Bytes) (schedule : Nat → Party) (time : Nat) :
    Sane plan begun places (splitFrames recording).length (plan.unitsOf framer recording)
      (stateAt plan.step (plan.start framer recording outputs begun) schedule time) :=
  stateAt_invariant (.underWay (underWay_start hready framer recording))
    (fun _ party h => h.step hready party) time

end

end Playback

end CamStream
