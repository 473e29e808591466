import CamStream.Proofs.Session.Accounting
import CamStream.Proofs.Session.Timing

/-!
# Sessions have nothing to do with each other

What a session gives is decided by the pair that is cached when it begins and by its frames. A reset
leaves nothing else of what came before. And of the timestamps of the frames only the distance to the
first frame with bytes matters: a capture clock that is ahead by a constant makes no difference.

Two sessions are run side by side. They are in step as long as they frame alike and their clocks differ
in nothing but the origin, by that constant.

* `Session.reset_eq_of_settings`: what a reset leaves is the settings and the cached pair.
* `stampUnits_origin`: the origin of a clock takes no part in timing units.
* `Session.Shifted.take`: one frame gives the same in both sessions, and keeps them in step.
* `session_isolated`: so it is for whole sessions, whatever was before and whatever stores are behind.
-/

namespace CamStream

/-! ## What befalls a session -/

/-- What can befall a session. -/
inductive SessionEvent where
  | frame (frame : CaptureFrame)
  | reset
deriving DecidableEq, Repr

/-- A session at work, with its counters. -/
structure SessionTrace where
  session : Session
  tally : Tally := {}
  /-- What the frames since the last reset gave. -/
  reports : List FrameReport := []
deriving DecidableEq, Repr

namespace SessionTrace

variable {m : Type → Type} [Monad m]

/-- The trace after an event, with a store behind the session or none. The units that a report lists
are those that were handed on. -/
def after (keeper? : Option (Keeper m)) (trace : SessionTrace) : SessionEvent → m SessionTrace
  | .frame frame => do
    let (units, session, tally) ← trace.session.onFrame keeper? trace.tally frame
    let report := { (trace.session.take frame).1 with units }
    return { session, tally, reports := trace.reports ++ [report] }
  | .reset => return { trace with session := trace.session.reset, reports := [] }

/-- The trace after events, in order. -/
def afterAll (keeper? : Option (Keeper m)) (trace : SessionTrace) (events : List SessionEvent) :
    m SessionTrace :=
  events.foldlM (fun trace event => trace.after keeper? event) trace

end SessionTrace

/-- How a session came to be what it is: the store behind it, the pair and the counters that it began
with, and what befell it. -/
structure SessionPast (σ : Type) where
  keeper? : Option (Keeper (StateM σ))
  world : σ
  sets : ParameterSets
  tally : Tally
  events : List SessionEvent

namespace SessionPast

variable {σ : Type} (past : SessionPast σ) (nominalInterval : Nat) (smoothing : Smoothing)
  (limit : Nat)

/-- The session before anything befell it. -/
def start : Session where
  framer := { sets := past.sets, limit }
  clock := .new nominalInterval smoothing

/-- The trace after the past and some more events. -/
def trace (more : List SessionEvent) : SessionTrace :=
  let start : SessionTrace :=
    { session := past.start nominalInterval smoothing limit, tally := past.tally }
  ((start.afterAll past.keeper? (past.events ++ more)).run past.world).1

end SessionPast

namespace Session

/-- What an event does to a session and to the reports on its frames. -/
def meet (state : Session × List FrameReport) : SessionEvent → Session × List FrameReport
  | .frame frame => ((state.1.take frame).2, state.2 ++ [(state.1.take frame).1])
  | .reset => (state.1.reset, [])

def meetAll (state : Session × List FrameReport) (events : List SessionEvent) :
    Session × List FrameReport :=
  events.foldl meet state

end Session

/-- A store takes no part in what befalls a session. -/
theorem SessionTrace.run_afterAll {σ : Type} (keeper? : Option (Keeper (StateM σ)))
    (trace : SessionTrace) (events : List SessionEvent) (world : σ) :
    let last := ((trace.afterAll keeper? events).run world).1
    (last.session, last.reports) = Session.meetAll (trace.session, trace.reports) events := by
  induction events generalizing trace world with
  | nil => rfl
  | cons event events ih =>
    cases event with
    | frame frame =>
      obtain ⟨writes, failures, after, honFrame⟩ :=
        trace.session.onFrame_adds keeper? frame world
      have hstep : (trace.after keeper? (.frame frame)).run world =
          ({ session := (trace.session.take frame).2
             tally := (trace.tally.afterFrame (trace.session.take frame).1).plusWrites writes failures
             reports := trace.reports ++ [(trace.session.take frame).1] }, after) := by
        rw [SessionTrace.after, StateT.run_bind, honFrame]
        rfl
      have hrun : ((trace.afterAll keeper? (.frame frame :: events)).run world).1 =
          ((((trace.after keeper? (.frame frame)).run world).1.afterAll keeper? events).run
            ((trace.after keeper? (.frame frame)).run world).2).1 := rfl
      rw [hrun, hstep]
      exact ih _ after
    | reset => exact ih { trace with session := trace.session.reset, reports := [] } world

/-! ## What a reset leaves -/

namespace Session

variable {session other : Session}

/-- Two sessions with the same settings: a reset makes their clocks equal, and they look at as many
units of a frame. -/
structure SameSettings (session other : Session) : Prop where
  clock : session.clock.reset = other.clock.reset
  limit : session.framer.limit = other.framer.limit

theorem reset_eq_of_settings (h : session.SameSettings other)
    (hsets : session.framer.sets = other.framer.sets) : session.reset = other.reset := by
  simp only [reset, Framer.reset, h.clock, h.limit, hsets]

theorem SameSettings.symm (h : session.SameSettings other) : other.SameSettings session :=
  ⟨h.clock.symm, h.limit.symm⟩

theorem SameSettings.meet (h : session.SameSettings other) (reports : List FrameReport)
    (event : SessionEvent) : (Session.meet (session, reports) event).1.SameSettings other := by
  cases event with
  | frame frame =>
    refine ⟨?_, ?_⟩
    · exact (session.reset_takeAll [frame]).trans h.clock
    · show (session.take frame).2.framer.limit = _
      rw [take_framer, Framer.process, Framer.acceptAll_limit, h.limit]
  | reset => exact ⟨h.clock, h.limit⟩

theorem SameSettings.meetAll (h : session.SameSettings other) (reports : List FrameReport)
    (events : List SessionEvent) :
    (Session.meetAll (session, reports) events).1.SameSettings other := by
  induction events generalizing session reports with
  | nil => exact h
  | cons event events ih => exact ih (h.meet reports event) _

end Session

/-! ## Clocks with different origins -/

namespace OutputClock

variable {clock other : OutputClock} {shift : Int}

theorem stamp_origin (clock : OutputClock) (origin : Option Nat) (now : Int) (keyframe : Bool) :
    { clock with origin }.stamp now keyframe =
      ((clock.stamp now keyframe).1, { (clock.stamp now keyframe).2 with origin }) := by
  have hcount : { clock with origin }.countSlice now keyframe =
      { clock.countSlice now keyframe with origin } := by
    unfold countSlice
    dsimp only
    split <;> rfl
  simp only [stamp, hcount]
  rfl

/-- The other clock has learned the same from a capture clock that is ahead by `shift`. -/
structure Shifted (shift : Int) (clock other : OutputClock) : Prop where
  same : other = { clock with origin := other.origin }
  origin : Option.Rel (fun first second : Nat => (second : Int) = first + shift) clock.origin
    other.origin

theorem shifted_reset (clock : OutputClock) : clock.reset.Shifted shift clock.reset := ⟨rfl, .none⟩

/-- A clock that has no origin yet takes it from the frame, so that the shift cancels out here too. -/
theorem Shifted.relative (h : clock.Shifted shift other) {timestamp later : Nat}
    (hlater : (later : Int) = timestamp + shift) :
    (other.relative later).1 = (clock.relative timestamp).1 ∧
      (clock.relative timestamp).2.Shifted shift (other.relative later).2 := by
  have horigins : ((other.origin.getD later : Nat) : Int) = clock.origin.getD timestamp + shift := by
    obtain ⟨-, horigin⟩ := h
    generalize clock.origin = first at horigin
    generalize other.origin = second at horigin
    cases horigin with
    | some hsecond => exact hsecond
    | none => exact hlater
  have helapsed : later - other.origin.getD later = timestamp - clock.origin.getD timestamp := by
    omega
  refine ⟨?_, ?_, .some horigins⟩
  · simp only [OutputClock.relative, helapsed]
  · have hsame := h.same
    generalize other.origin = second at hsame ⊢
    subst hsame
    rfl

end OutputClock

theorem stampUnits_origin (clock : OutputClock) (origin : Option Nat) (now : Int)
    (framed : List FramedUnit) :
    stampUnits { clock with origin } now framed =
      ((stampUnits clock now framed).1, { (stampUnits clock now framed).2 with origin }) := by
  induction framed generalizing clock with
  | nil => rfl
  | cons first rest ih =>
    cases hslice : first.kind.isSlice with
    | true =>
      rw [stampUnits_slice _ now rest hslice, stampUnits_slice clock now rest hslice,
        OutputClock.stamp_origin]
      dsimp only
      rw [ih]
    | false =>
      rw [stampUnits_other _ now rest hslice, stampUnits_other clock now rest hslice, ih]

theorem OutputClock.Shifted.stampUnits {clock other : OutputClock} {shift : Int}
    (h : clock.Shifted shift other) (now : Int) (framed : List FramedUnit) :
    (stampUnits other now framed).1 = (stampUnits clock now framed).1 ∧
      (stampUnits clock now framed).2.Shifted shift (stampUnits other now framed).2 := by
  have hother := stampUnits_origin clock other.origin now framed
  rw [← h.same] at hother
  have hkept := congrArg (·.2.origin) (stampUnits_origin clock clock.origin now framed)
  rw [hother]
  refine ⟨rfl, rfl, ?_⟩
  rw [hkept]
  exact h.origin

/-! ## Sessions in step -/

/-- The other frame holds the same, and was captured later by `shift`. When a frame without bytes was
captured does not matter. -/
structure CaptureFrame.Shifted (shift : Int) (frame other : CaptureFrame) : Prop where
  data : other.data = frame.data
  timestamp : frame.data ≠ [] → (other.timestamp : Int) = frame.timestamp + shift

namespace Session

/-- The two sessions frame alike, and the clock of the other one is ahead by `shift`. -/
structure Shifted (shift : Int) (session other : Session) : Prop where
  framer : other.framer = session.framer
  clock : session.clock.Shifted shift other.clock

theorem shifted_reset (session : Session) (shift : Int) : session.reset.Shifted shift session.reset :=
  ⟨rfl, session.clock.shifted_reset⟩

theorem meetAll_frame (session : Session) (reports : List FrameReport) (frame : CaptureFrame)
    (events : List SessionEvent) :
    meetAll (session, reports) (.frame frame :: events) =
      meetAll ((session.take frame).2, reports ++ [(session.take frame).1]) events := rfl

variable {session other : Session} {shift : Int}

theorem Shifted.take (h : session.Shifted shift other) {frame later : CaptureFrame}
    (hframe : frame.Shifted shift later) :
    (other.take later).1 = (session.take frame).1 ∧
      (session.take frame).2.Shifted shift (other.take later).2 := by
  unfold Session.take
  rw [hframe.data, h.framer]
  split
  · exact ⟨rfl, h⟩
  · rename_i hbytes
    have htimestamp := hframe.timestamp fun hnil => hbytes (List.isEmpty_iff.mpr hnil)
    obtain ⟨hnow, hclock⟩ := h.clock.relative htimestamp
    obtain ⟨hunits, hstamped⟩ := hclock.stampUnits (session.clock.relative frame.timestamp).1
      (emittedUnits (session.framer.process frame.data).1)
    dsimp only
    rw [hnow, hunits]
    exact ⟨rfl, rfl, hstamped⟩

theorem Shifted.meetAll (h : session.Shifted shift other) {frames later : List CaptureFrame}
    (hframes : List.Forall₂ (CaptureFrame.Shifted shift) frames later) (reports : List FrameReport) :
    (Session.meetAll (other, reports) (later.map .frame)).2 =
        (Session.meetAll (session, reports) (frames.map .frame)).2 ∧
      (Session.meetAll (session, reports) (frames.map .frame)).1.Shifted shift
        (Session.meetAll (other, reports) (later.map .frame)).1 := by
  induction hframes generalizing session other reports with
  | nil => exact ⟨rfl, h⟩
  | @cons frame first frames later hframe hframes ih =>
    obtain ⟨hreport, hnext⟩ := h.take hframe
    rw [List.map_cons, List.map_cons, meetAll_frame, meetAll_frame, hreport]
    exact ih hnext _

end Session

/-! ## Two sessions -/

section Pasts

variable {σ τ : Type} (nominalInterval : Nat) (smoothing : Smoothing) (limit : Nat)

theorem SessionPast.trace_eq (past : SessionPast σ) (more : List SessionEvent) :
    let last := past.trace nominalInterval smoothing limit more
    (last.session, last.reports) = Session.meetAll
      (Session.meetAll (past.start nominalInterval smoothing limit, []) past.events) more := by
  intro last
  have hrun := SessionTrace.run_afterAll past.keeper?
    { session := past.start nominalInterval smoothing limit, tally := past.tally }
    (past.events ++ more) past.world
  exact hrun.trans List.foldl_append

/-- **Sessions have nothing to do with each other.** Two sessions have the same settings and have been
through anything, each with any store behind it or none, so that the same pair is cached in both. Then
both are reset, and are given the same frames, where one capture clock is ahead of the other by a
constant at every frame with bytes. Each frame gives the same in both: the same fates of its units, and
the same units handed on with the same times. And in the end both have the same framing state and the
same estimate of the interval. -/
theorem session_isolated (past : SessionPast σ) (other : SessionPast τ) (shift : Int)
    {frames later : List CaptureFrame}
    (hsets : (other.trace nominalInterval smoothing limit []).session.framer.sets =
      (past.trace nominalInterval smoothing limit []).session.framer.sets)
    (hframes : List.Forall₂ (CaptureFrame.Shifted shift) frames later) :
    let last := past.trace nominalInterval smoothing limit (.reset :: frames.map .frame)
    let otherLast := other.trace nominalInterval smoothing limit (.reset :: later.map .frame)
    otherLast.reports = last.reports ∧
      otherLast.session.framer = last.session.framer ∧
      otherLast.session.clock.interval = last.session.clock.interval := by
  intro last otherLast
  let before := Session.meetAll (past.start nominalInterval smoothing limit, []) past.events
  let otherBefore := Session.meetAll (other.start nominalInterval smoothing limit, []) other.events
  have hstart : (past.start nominalInterval smoothing limit).SameSettings
      (other.start nominalInterval smoothing limit) := ⟨rfl, rfl⟩
  have hsettings : otherBefore.1.SameSettings before.1 :=
    (hstart.meetAll [] past.events).symm.meetAll [] other.events
  have hpair : otherBefore.1.framer.sets = before.1.framer.sets := by
    have htrace := congrArg (·.1.framer.sets) (past.trace_eq nominalInterval smoothing limit [])
    have hother := congrArg (·.1.framer.sets) (other.trace_eq nominalInterval smoothing limit [])
    exact hother.symm.trans (hsets.trans htrace)
  have hreset : otherBefore.1.reset = before.1.reset := Session.reset_eq_of_settings hsettings hpair
  have hlast : (last.session, last.reports) =
      Session.meetAll (before.1.reset, []) (frames.map .frame) := past.trace_eq _ _ _ _
  have hotherLast : (otherLast.session, otherLast.reports) =
      Session.meetAll (before.1.reset, []) (later.map .frame) := by
    rw [← hreset]
    exact other.trace_eq _ _ _ _
  -- Both begin with the same session, and no frame takes them out of step.
  obtain ⟨hreports, hstep⟩ := (before.1.shifted_reset shift).meetAll hframes []
  rw [← hlast, ← hotherLast] at hreports hstep
  exact ⟨hreports, hstep.framer, congrArg (·.interval) hstep.clock.same⟩

end Pasts

/-- The one session has learned its pair from a frame and estimated its interval since, the other one has
begun with that pair and withheld a slice. The capture clock of the other one is behind, and its frame
without bytes comes out of order. A slice is withheld, and then the interval is estimated and a slice
moved. -/
theorem session_isolated_behind :
    let sets : ParameterSets := { sps := [0, 0, 0, 1, 0x67, 0x64], pps := [0, 0, 0, 1, 0x68, 0xAA] }
    let smoothing : Smoothing := { updateSlices := 2, divisor := 2, tolerance := 1 }
    let slice : Bytes := [0, 0, 0, 1, 0x41, 0x9A]
    let keyframe : Bytes := [0, 0, 0, 1, 0x65, 0x88]
    let past : SessionPast Unit :=
      { keeper? := none, world := (), sets := .builtIn, tally := {}
        events := [.frame { data := sets.toBlob ++ keyframe ++ slice, timestamp := 7 },
          .frame { data := keyframe ++ slice, timestamp := 300 },
          .frame { data := keyframe ++ keyframe, timestamp := 900 }] }
    let other : SessionPast Shelf :=
      { keeper? := some { store := .memory, device := "0" }, world := [], sets
        tally := { framesReceived := 5 }, events := [.reset, .frame { data := slice, timestamp := 1 }] }
    let frames (behind empty : Nat) : List CaptureFrame :=
      [{ data := slice, timestamp := 100 - behind }, { data := [], timestamp := empty },
        { data := keyframe ++ slice, timestamp := 150 - behind },
        { data := keyframe, timestamp := 200 - behind },
        { data := keyframe ++ keyframe, timestamp := 400 - behind }]
    let last := past.trace 40 smoothing 9 (.reset :: (frames 0 3).map .frame)
    let otherLast := other.trace 40 smoothing 9 (.reset :: (frames 30 999).map .frame)
    (other.trace 40 smoothing 9 []).session.framer.sets = (past.trace 40 smoothing 9 []).session.framer.sets ∧
      List.Forall₂ (CaptureFrame.Shifted (-30)) (frames 0 3) (frames 30 999) ∧
      last.session.clock.interval = 70 ∧ last.reports.map (·.fates.length) = [1, 0, 2, 1, 2] ∧
      otherLast.reports = last.reports ∧
      otherLast.session.framer = last.session.framer ∧
      otherLast.session.clock.interval = last.session.clock.interval := by
  intro sets smoothing slice keyframe past other frames last otherLast
  have hsets : (other.trace 40 smoothing 9 []).session.framer.sets =
      (past.trace 40 smoothing 9 []).session.framer.sets := by
    decide +kernel
  have hframes : List.Forall₂ (CaptureFrame.Shifted (-30)) (frames 0 3) (frames 30 999) := by
    refine .cons ⟨rfl, fun _ => rfl⟩ (.cons ⟨rfl, fun h => absurd rfl h⟩ (.cons ⟨rfl, fun _ => rfl⟩
      (.cons ⟨rfl, fun _ => rfl⟩ (.cons ⟨rfl, fun _ => rfl⟩ .nil))))
  have hsame := session_isolated 40 smoothing 9 past other (-30) hsets hframes
  refine ⟨hsets, hframes, by decide +kernel, by decide +kernel, ?_⟩
  -- Nothing may be unfolded here, or the two runs are evaluated.
  with_reducible exact hsame

end CamStream
