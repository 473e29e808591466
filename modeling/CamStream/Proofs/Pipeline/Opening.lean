import CamStream.Proofs.Pipeline.Steps
import CamStream.Proofs.Session.Accounting

/-!
# What the consumer begins with

A session withholds what comes before its first IDR slice and puts the cached pair in front of that
slice, so the units that it hands on open on a picture that can be decoded. A full queue that drops
discards its oldest units, whatever they are, and a consumer that comes late begins behind that picture.

* `Framer.acceptAll_closed`: the first unit that goes out of a framer is an IDR slice behind the pair.
* `Pipeline.Opens`: the invariant on what was handed on.
* `Pipeline.Unpopped`: before the first pop, only a full queue has taken units away, the oldest ones.
* `stream_opens`: which unit the consumer begins with.
-/

namespace CamStream

/-! ## The first unit of a session -/

/-- Before its first IDR slice a framer lets nothing out; that slice goes out behind the pair that is
cached when it is met. -/
theorem Framer.acceptAll_closed {framer : Framer} (hclosed : framer.opened = false)
    (units : List NalUnit) :
    (emittedUnits (framer.acceptAll units).1 = [] ∧ (framer.acceptAll units).2.opened = false) ∨
    ∃ skipped unit rest, units = skipped ++ unit :: rest ∧ unit.kind = .idrSlice ∧
      let met := (framer.acceptAll skipped).2
      let out : FramedUnit :=
        { kind := .idrSlice, bytes := met.sets.toBlob ++ unit.bytes, carriesSets := true }
      (met.accept unit).1 = .emitted out ∧
        (emittedUnits (framer.acceptAll units).1).head? = some out := by
  induction units generalizing framer with
  | nil => exact Or.inl ⟨rfl, hclosed⟩
  | cons unit units ih =>
    by_cases hidr : unit.kind = .idrSlice
    · have haccept : (framer.accept unit).1 =
          .emitted { kind := .idrSlice, bytes := framer.sets.toBlob ++ unit.bytes,
                     carriesSets := true } := by
        simp [accept, hidr, emitKeyframe, hclosed]
      refine Or.inr ⟨[], unit, units, rfl, hidr, haccept, ?_⟩
      simp only [acceptAll, emittedUnits, haccept]
      rfl
    · -- Any other unit stays inside, and the framer is as closed as before.
      have hstep := framer.accept_outcome unit
      have hnothing : (framer.accept unit).1.unit? = none ∧ (framer.accept unit).2.opened = false := by
        generalize framer.accept unit = result at hstep
        obtain ⟨fate, next⟩ := result
        cases hstep with
        | cached | refused | withheld => exact ⟨rfl, hclosed⟩
        | keyframe _ hkeyframe => exact absurd hkeyframe hidr
        | forwarded _ _ hopened =>
          rw [hclosed] at hopened
          cases hopened
      have hemitted : emittedUnits (framer.acceptAll (unit :: units)).1 =
          emittedUnits ((framer.accept unit).2.acceptAll units).1 := by
        simp only [acceptAll, emittedUnits, List.filterMap_cons_none hnothing.1]
      rw [hemitted]
      rcases ih hnothing.2 with hnone | ⟨skipped, first, rest, hunits, hfirst⟩
      · exact Or.inl hnone
      · exact Or.inr ⟨unit :: skipped, first, rest, by rw [hunits, List.cons_append], hfirst⟩

namespace Session

/-- A unit that opens a session on frames: an IDR slice of one of them, with the SPS and then the PPS in
front of it that were cached when it was emitted. -/
def OpensOn (begun : Session) (frames : List CaptureFrame) (access : AccessUnit) : Prop :=
  ∃ earlier frame later skipped unit rest,
    frames = earlier ++ frame :: later ∧
    scan frame.data (begun.takeAll earlier).framer.limit = skipped ++ unit :: rest ∧
    unit.kind = .idrSlice ∧ access.keyframe = true ∧
    let framer := ((begun.takeAll earlier).framer.acceptAll skipped).2
    (framer.accept unit).1 =
        .emitted { kind := .idrSlice, bytes := access.data, carriesSets := true } ∧
      access.data = framer.sets.sps ++ framer.sets.pps ++ unit.bytes

theorem OpensOn.append {begun : Session} {frames : List CaptureFrame} {access : AccessUnit}
    (h : begun.OpensOn frames access) (more : List CaptureFrame) :
    begun.OpensOn (frames ++ more) access := by
  obtain ⟨earlier, frame, later, skipped, unit, rest, hframes, hopens⟩ := h
  refine ⟨earlier, frame, later ++ more, skipped, unit, rest, ?_, hopens⟩
  rw [hframes, List.append_assoc, List.cons_append]

theorem takeAll_concat (begun : Session) (frames : List CaptureFrame) (frame : CaptureFrame) :
    begun.takeAll (frames ++ [frame]) = ((begun.takeAll frames).take frame).2 :=
  List.foldl_concat ..

/-- One more frame: a session that has not opened stays so, or opens with the first unit of the frame. -/
theorem opensOn_concat {begun : Session} {frames : List CaptureFrame}
    (hclosed : (begun.takeAll frames).framer.opened = false) (frame : CaptureFrame) :
    let taken := (begun.takeAll frames).take frame
    (taken.1.units = [] ∧ taken.2.framer.opened = false) ∨
      ∃ first rest, taken.1.units = first :: rest ∧ begun.OpensOn (frames ++ [frame]) first := by
  intro taken
  have hbecomes : List.Forall₂ Becomes _ taken.1.units := (begun.takeAll frames).take_becomes frame
  have hframer : taken.2.framer = _ := (begun.takeAll frames).take_framer frame
  rcases Framer.acceptAll_closed hclosed (scan frame.data (begun.takeAll frames).framer.limit) with
    ⟨hnone, hstill⟩ | ⟨skipped, unit, rest, hunits, hidr, hmet, hhead⟩
  · rw [Framer.process, hnone] at hbecomes
    exact Or.inl ⟨List.forall₂_nil_left_iff.mp hbecomes, hframer ▸ hstill⟩
  · obtain ⟨others, hothers⟩ := List.head?_eq_some_iff.mp hhead
    rw [Framer.process, hothers] at hbecomes
    obtain ⟨first, others, hfirst, -, htaken⟩ := List.forall₂_cons_left_iff.mp hbecomes
    refine Or.inr ⟨first, others, htaken, frames, frame, [], skipped, unit, rest, rfl, hunits, hidr,
      hfirst.keyframe, ?_, ?_⟩
    · rw [hfirst.data]
      exact hmet
    · rw [hfirst.data, ParameterSets.toBlob]

end Session

namespace Pipeline

variable {σ : Type} {keeper? : Option (Keeper (StateM σ))} {begun : Session} {now next : Pipeline σ}

/-- What was handed on opens on a keyframe. -/
structure Opens (begun : Session) (now : Pipeline σ) : Prop where
  session : now.session = begun.takeAll now.frames
  closed : now.handed = [] → now.session.framer.opened = false
  opensOn : ∀ opening ∈ now.handed.head?, begun.OpensOn now.frames opening

theorem Opens.take (h : now.Opens begun) (frame : CaptureFrame) :
    (now.take keeper? frame).Opens begun := by
  have hsession : (now.take keeper? frame).session = begun.takeAll (now.frames ++ [frame]) := by
    rw [session_take, h.session, Session.takeAll_concat]
  have hhanded : (now.take keeper? frame).handed =
      now.handed ++ ((begun.takeAll now.frames).take frame).1.units := by
    rw [handed_take, h.session]
  cases hbefore : now.handed with
  | nil =>
    have hclosed := h.closed hbefore
    rw [h.session] at hclosed
    rw [hbefore, List.nil_append] at hhanded
    rcases Session.opensOn_concat hclosed frame with
      ⟨hnone, hstill⟩ | ⟨first, rest, hunits, hopens⟩
    · refine ⟨hsession, fun _ => ?_, ?_⟩
      · rw [hsession, Session.takeAll_concat]
        exact hstill
      · rw [hhanded, hnone]
        simp
    · refine ⟨hsession, ?_, ?_⟩ <;> rw [hhanded, hunits]
      · simp
      · rintro _ ⟨⟩
        exact hopens
  | cons opening more =>
    rw [hbefore] at hhanded
    refine ⟨hsession, ?_, ?_⟩ <;> rw [hhanded, List.cons_append]
    · simp
    · rintro _ ⟨⟩
      exact (h.opensOn opening (by rw [hbefore]; rfl)).append [frame]

theorem Opens.step (h : now.Opens begun) (step : Step keeper? now next) : next.Opens begun := by
  cases step with
  | take frame hidle => exact h.take frame
  | push | findFull | evict | pop | tryPop | close => exact ⟨h.session, h.closed, h.opensOn⟩

/-! ## Before the first pop -/

variable {dropped : Nat}

theorem overflowDrops_take (keeper? : Option (Keeper (StateM σ))) (now : Pipeline σ)
    (frame : CaptureFrame) :
    (now.take keeper? frame).tally.overflowDrops = now.tally.overflowDrops := by
  obtain ⟨writes, failures, after, honFrame⟩ := now.session.onFrame_adds keeper? frame now.disk
  simp only [Pipeline.take, honFrame]
  rfl

/-- Units of which none was popped: the oldest were discarded and counted, the others are still there. -/
def Unpopped (dropped : Nat) (now : Pipeline σ) : Prop :=
  ∃ gone, now.handed = gone ++ (now.queue.backlog ++ now.waiting) ∧
    now.tally.overflowDrops = dropped + gone.length

theorem Unpopped.step (h : now.Unpopped dropped) (step : Step keeper? now next)
    (hpopped : next.popped = []) : next.Unpopped dropped := by
  obtain ⟨gone, hhanded, hdrops⟩ := h
  cases step with
  | take frame hidle =>
    refine ⟨gone, ?_, (overflowDrops_take keeper? now frame).trans hdrops⟩
    rw [handed_take, hhanded, hidle, List.append_nil, List.append_assoc]
    rfl
  | push unit rest queue evicted hwaiting hfree hpush =>
    have houtcome := now.queue.push_outcome unit
    rw [hpush] at houtcome
    rw [hwaiting] at hhanded
    cases houtcome with
    | queued =>
      refine ⟨gone, ?_, hdrops⟩
      rw [hhanded, List.append_assoc, List.singleton_append]
    | displaced hopen hfull hpolicy =>
      obtain ⟨oldest, backlog, hbacklog⟩ :=
        List.exists_cons_of_ne_nil (FrameQueue.backlog_ne_nil_of_isFull hfull)
      refine ⟨gone ++ [oldest], ?_, ?_⟩
      · rw [hhanded, hbacklog]
        simp
      · rw [List.length_append, ← Nat.add_assoc, ← hdrops]
        rfl
  | findFull => exact ⟨gone, hhanded, hdrops⟩
  | evict hevicting =>
    cases hbacklog : now.queue.backlog with
    | nil =>
      refine ⟨gone, ?_, ?_⟩
      · simpa [FrameQueue.evict, hbacklog] using hhanded
      · simpa [Tally.afterDrops, hbacklog] using hdrops
    | cons oldest backlog =>
      refine ⟨gone ++ [oldest], ?_, ?_⟩
      · simpa [FrameQueue.evict, hbacklog] using hhanded
      · simp [Tally.afterDrops, hdrops, Nat.add_assoc]
  | pop | tryPop => simp at hpopped
  | close => exact ⟨gone, hhanded, hdrops⟩

/-- A pipeline whose queue makes a push wait or has no bound. -/
structure Patient (dropped : Nat) (now : Pipeline σ) : Prop where
  waits : now.queue.overflow = .block ∨ now.queue.capacity = 0
  calm : now.evicting = false
  drops : now.tally.overflowDrops = dropped

theorem Patient.not_full (h : now.Patient dropped) (hfull : now.queue.isFull = true) :
    now.queue.overflow ≠ .dropOldest := by
  rcases h.waits with hblock | hunbounded
  · rw [hblock]
    decide
  · have hbound := (FrameQueue.isFull_iff.mp hfull).1
    omega

theorem Patient.step (h : now.Patient dropped) (step : Step keeper? now next) :
    next.Patient dropped := by
  cases step with
  | take frame hidle =>
    exact ⟨h.waits, h.calm, (overflowDrops_take keeper? now frame).trans h.drops⟩
  | push unit rest queue evicted hwaiting hfree hpush =>
    have houtcome := now.queue.push_outcome unit
    rw [hpush] at houtcome
    cases houtcome with
    | queued => exact ⟨h.waits, h.calm, h.drops⟩
    | displaced hopen hfull hpolicy => exact absurd hpolicy (h.not_full hfull)
  | findFull hwaiting hpolicy hfull => exact absurd hpolicy (h.not_full hfull)
  | evict hevicting =>
    rw [h.calm] at hevicting
    cases hevicting
  | pop unit queue hpop =>
    obtain ⟨backlog, -, rfl⟩ := FrameQueue.receive?_eq_some_iff.mp (FrameQueue.receive?_of_pop hpop)
    exact ⟨h.waits, h.calm, h.drops⟩
  | tryPop unit queue hreceive =>
    obtain ⟨backlog, -, rfl⟩ := FrameQueue.receive?_eq_some_iff.mp hreceive
    exact ⟨h.waits, h.calm, h.drops⟩
  | close => exact ⟨h.waits, h.calm, h.drops⟩

/-! ## The first pop -/

theorem Step.popped (step : Step keeper? now next) :
    next.popped = now.popped ∨ ∃ unit queue, now.queue.receive? = some (unit, queue) ∧
      next.popped = now.popped ++ [unit] := by
  cases step with
  | take | push | findFull | evict | close => exact Or.inl rfl
  | pop unit queue hpop => exact Or.inr ⟨unit, queue, FrameQueue.receive?_of_pop hpop, rfl⟩
  | tryPop unit queue hreceive => exact Or.inr ⟨unit, queue, hreceive, rfl⟩

/-- A run in which something is popped has a first pop. -/
theorem exists_firstPop {start : Pipeline σ} (hrun : Relation.ReflTransGen (Step keeper?) start now)
    (hstart : start.popped = []) {first : AccessUnit} {rest : List AccessUnit}
    (hpopped : now.popped = first :: rest) :
    ∃ before next queue, Relation.ReflTransGen (Step keeper?) start before ∧
      Step keeper? before next ∧ Relation.ReflTransGen (Step keeper?) next now ∧
      before.popped = [] ∧ next.popped = [first] ∧
      before.queue.receive? = some (first, queue) := by
  induction hrun generalizing rest with
  | refl =>
    rw [hstart] at hpopped
    cases hpopped
  | @tail now last hnow step ih =>
    rcases step.popped with hsame | ⟨unit, queue, hreceive, hlast⟩
    · obtain ⟨before, next, queue, hbefore, hnext, hlater, hpop⟩ := ih (hsame ▸ hpopped)
      exact ⟨before, next, queue, hbefore, hnext, hlater.tail step, hpop⟩
    · cases hsofar : now.popped with
      | nil =>
        rw [hlast, hsofar, List.nil_append] at hpopped
        cases hpopped
        exact ⟨now, last, queue, hnow, step, .refl, hsofar, by rw [hlast, hsofar]; rfl, hreceive⟩
      | cons earliest more =>
        rw [hlast, hsofar, List.cons_append] at hpopped
        cases hpopped
        obtain ⟨before, next, queue, hbefore, hnext, hlater, hpop⟩ := ih hsofar
        exact ⟨before, next, queue, hbefore, hnext, hlater.tail step, hpop⟩

theorem Unpopped.run {start : Pipeline σ} (h : start.Unpopped dropped)
    (hrun : Relation.ReflTransGen (Step keeper?) start now) (hpopped : now.popped = []) :
    now.Unpopped dropped := by
  induction hrun with
  | refl => exact h
  | tail _ step ih =>
    refine (ih ?_).step step hpopped
    rcases step.popped with hsame | ⟨unit, queue, -, hlast⟩
    · rw [← hsame]
      exact hpopped
    · simp [hpopped] at hlast

/-- The unit that the first pop gives lies in the units handed on behind those that were discarded. -/
theorem Unpopped.getElem?_handed (h : now.Unpopped dropped) {first : AccessUnit} {queue : FrameQueue}
    (hreceive : now.queue.receive? = some (first, queue)) :
    ∃ drops, now.tally.overflowDrops = dropped + drops ∧ now.handed[drops]? = some first := by
  obtain ⟨gone, hhanded, hdrops⟩ := h
  refine ⟨gone.length, hdrops, ?_⟩
  rw [hhanded, FrameQueue.backlog_of_receive? hreceive, List.getElem?_append_right (Nat.le_refl _),
    Nat.sub_self]
  rfl

end Pipeline

/-- **What the consumer begins with.** Let a session begin on an open and empty queue of any capacity and
either policy, let the capture and the consumer make their steps in any order, and let something be popped.
Look at the moment before the first pop.

* The first unit handed on by then is a keyframe: an IDR slice behind the SPS and the PPS, in this order,
  that were cached when it was emitted.
* The unit that is popped comes behind as many of the units handed on as the queue has discarded by then.
  So it is that keyframe if none was discarded.
* None was discarded if the queue has no bound, or makes a push wait. -/
theorem stream_opens {σ : Type} (keeper? : Option (Keeper (StateM σ))) (session : Session)
    (tally : Tally) (disk : σ) (capacity : Nat) (overflow : Overflow) (now : Pipeline σ)
    (first : AccessUnit) (rest : List AccessUnit)
    (hrun : Relation.ReflTransGen (Pipeline.Step keeper?)
      (.opened session.reset tally disk capacity overflow) now)
    (hpopped : now.popped = first :: rest) :
    ∃ before next opening drops,
      Relation.ReflTransGen (Pipeline.Step keeper?)
        (.opened session.reset tally disk capacity overflow) before ∧
      Pipeline.Step keeper? before next ∧
      Relation.ReflTransGen (Pipeline.Step keeper?) next now ∧
      before.popped = [] ∧ next.popped = [first] ∧
      before.handed.head? = some opening ∧ session.reset.OpensOn before.frames opening ∧
      before.tally.overflowDrops = tally.overflowDrops + drops ∧
      before.handed[drops]? = some first ∧
      (drops = 0 → first = opening) ∧
      (overflow = .block ∨ capacity = 0 → drops = 0) := by
  obtain ⟨before, next, queue, hbefore, hpop, hlater, hnone, hfirst, hreceive⟩ :=
    Pipeline.exists_firstPop hrun rfl hpopped
  have hopens : before.Opens session.reset :=
    Pipeline.run_keeps (fun step h => h.step step) hbefore ⟨rfl, fun _ => rfl, by rintro _ ⟨⟩⟩
  have hunpopped : before.Unpopped tally.overflowDrops :=
    Pipeline.Unpopped.run ⟨[], rfl, rfl⟩ hbefore hnone
  obtain ⟨drops, hdrops, hplace⟩ := hunpopped.getElem?_handed hreceive
  obtain ⟨opening, more, hhanded⟩ : ∃ opening more, before.handed = opening :: more := by
    refine List.exists_cons_of_ne_nil fun hnothing => ?_
    rw [hnothing] at hplace
    cases hplace
  refine ⟨before, next, opening, drops, hbefore, hpop, hlater, hnone, hfirst, ?_, ?_, hdrops, hplace,
    ?_, ?_⟩
  · rw [hhanded]
    rfl
  · exact hopens.opensOn opening (by rw [hhanded]; rfl)
  · rintro rfl
    rw [hhanded] at hplace
    exact (Option.some.inj hplace).symm
  · intro hpatient
    have hpatient : before.Patient tally.overflowDrops :=
      Pipeline.run_keeps (fun step h => h.step step) hbefore ⟨hpatient, rfl, rfl⟩
    have hsame := hpatient.drops
    omega

/-- The second frame has the keyframe, behind another PPS. A queue for one unit makes the slice behind it
wait, and the consumer begins with the keyframe. -/
theorem stream_opens_waiting :
    let session : Session := { framer := {}, clock := .new 40 {} }
    let pps : Bytes := [0, 0, 0, 1, 0x68, 0xEE]
    let idr : Bytes := [0, 0, 0, 1, 0x65, 0x88]
    let first : AccessUnit :=
      { data := ParameterSets.builtIn.sps ++ pps ++ idr, timing := some ⟨40, 40, 40⟩, keyframe := true }
    ∃ now before : Pipeline Unit,
      Relation.ReflTransGen (Pipeline.Step none) (.opened session.reset {} () 1 .block) now ∧
      now.popped = [first] ∧ now.waiting.length = 1 ∧
      Relation.ReflTransGen (Pipeline.Step none) before now ∧ before.popped = [] ∧
      session.reset.OpensOn before.frames first := by
  intro session pps idr first
  let slice : Bytes := [0, 0, 0, 1, 0x41, 0x9A]
  let start : Pipeline Unit := .opened session.reset {} () 1 .block
  let early := start.take none { data := slice, timestamp := 100 }
  let started := early.take none { data := pps ++ idr ++ slice, timestamp := 140 }
  let later : AccessUnit := { data := slice, timing := some ⟨80, 80, 40⟩, keyframe := false }
  have hearly : early.waiting = [] := by decide +kernel
  have hstarted : started.waiting = [first, later] := by decide +kernel
  have htaken : Relation.ReflTransGen (Pipeline.Step none) start started :=
    (Relation.ReflTransGen.refl.tail (.take _ rfl)).tail (.take _ hearly)
  have hrun := (htaken.tail (.push first [later] _ _ hstarted rfl rfl)).tail (.pop first _ rfl)
  obtain ⟨before, next, opening, drops, -, hpop, hlater, hnone, -, -, hopens, -, -, hsame, hpatient⟩ :=
    stream_opens none session {} () 1 .block _ first [] hrun rfl
  obtain rfl := hsame (hpatient (Or.inl rfl))
  exact ⟨_, before, hrun, rfl, rfl, Relation.ReflTransGen.head hpop hlater, hnone, hopens⟩

/-- A consumer of a queue that drops may begin with another unit. A queue for one unit discards the
keyframe for the slice behind it, and the slice is the first unit that is popped. -/
theorem keyframe_discarded :
    let session : Session := { framer := {}, clock := .new 40 {} }
    let slice : Bytes := [0, 0, 0, 1, 0x41, 0x9A]
    let first : AccessUnit := { data := slice, timing := some ⟨40, 40, 40⟩, keyframe := false }
    ∃ now : Pipeline Unit,
      Relation.ReflTransGen (Pipeline.Step none) (.opened session.reset {} () 1 .dropOldest) now ∧
      now.frames = [{ data := [0, 0, 0, 1, 0x65, 0x88] ++ slice, timestamp := 100 }] ∧
      now.popped = [first] ∧ ¬ session.reset.OpensOn now.frames first := by
  intro session slice first
  let start : Pipeline Unit := .opened session.reset {} () 1 .dropOldest
  let started := start.take none { data := [0, 0, 0, 1, 0x65, 0x88] ++ slice, timestamp := 100 }
  let idr : AccessUnit :=
    { data := ParameterSets.builtIn.toBlob ++ [0, 0, 0, 1, 0x65, 0x88]
      timing := some ⟨0, 0, 40⟩
      keyframe := true }
  have hstarted : started.waiting = [idr, first] := by decide +kernel
  have hpushed : Relation.ReflTransGen (Pipeline.Step none) start _ :=
    (Relation.ReflTransGen.refl.tail (.take _ rfl)).tail (.push idr [first] _ _ hstarted rfl rfl)
  have hrun := (hpushed.tail (.push first [] _ _ rfl rfl rfl)).tail (.pop first _ rfl)
  refine ⟨_, hrun, rfl, rfl, ?_⟩
  rintro ⟨-, -, -, -, -, -, -, -, -, hkeyframe, -⟩
  cases hkeyframe

end CamStream
