import CamStream.Proofs.Clock.Estimate
import CamStream.Proofs.Clock.Startup

/-!
# The clock in 64 bits

The clock is defined by exact arithmetic. Here the same is computed step by step with signed words of 64
bits and a counter of 32 bits, and as soon as a result does not fit there is no answer. Division truncates.

A run never leaves the words if its numbers leave room. The estimate is a mean of the nominal interval and
of measurements, so it never exceeds the greatest of them, however often it is fed back. And a slice is
placed at most one and a half intervals behind the one before, so the times grow by no more than that.

* `stamp?`: the time of a slice, unless an operation on the way to it overflows.
* `Bounded`: the invariant, with the greatest estimate and the greatest relative timestamp. Every slice keeps
  it (`Bounded.stamp`).
* `Bounded.stamp?_eq`: what leaves room is computed as if exactly.
* `stamps_fit`: so it is along every run.
-/

namespace CamStream

namespace OutputClock

/-! ## Fixed width -/

/-- A result that lies strictly within the range of a signed word. -/
def word (n : Int) : Option Int := if n.natAbs < 2 ^ 63 then some n else none

/-- A count that a counter holds. -/
def counter (n : Nat) : Option Nat := if n < 2 ^ 32 then some n else none

theorem word_eq {n : Int} (h : n.natAbs < 2 ^ 63) : word n = some n := if_pos h

theorem counter_eq {n : Nat} (h : n < 2 ^ 32) : counter n = some n := if_pos h

/-- The interval between the anchor and now. -/
def measured? (anchor now : Int) (slices : Nat) : Option Int := do
  let elapsed ← word (now - anchor)
  word ((max elapsed 0).tdiv slices)

/-- The mean of the old estimate and a measurement. -/
def blend? (divisor : Nat) (interval measured : Int) : Option Int := do
  let rest ← word (divisor - 1)
  let product ← word (interval * rest)
  let sum ← word (product + measured)
  let half ← word ((divisor : Int).tdiv 2)
  let rounded ← word (sum + half)
  let mean ← word (rounded.tdiv divisor)
  return max mean 1

/-- The estimate at a keyframe with enough slices counted. -/
def estimate? (clock : OutputClock) (now : Int) (slices : Nat) : Option Int :=
  match clock.anchor with
  | some anchor => do
    let measured ← measured? anchor now slices
    blend? clock.smoothing.divisor clock.interval measured
  | none => some clock.interval

/-- Count a slice. -/
def countSlice? (clock : OutputClock) (now : Int) (keyframe : Bool) : Option OutputClock := do
  let slices ← counter (clock.slices + 1)
  if keyframe && clock.smoothing.updateSlices ≤ slices then
    let interval ← clock.estimate? now slices
    return { clock with interval, slices := 0, anchor := some now }
  else return { clock with slices }

/-- The time of a slice whose regular time is `candidate`. -/
def place? (clock : OutputClock) (now candidate : Int) : Option Int :=
  if clock.anchor.isSome then do
    let drift ← word (now - candidate)
    let band ← word (clock.smoothing.tolerance * clock.interval)
    let distance ← word drift.natAbs
    if band < distance then
      let half ← word (clock.interval.tdiv 2)
      let lowest ← word (-half)
      word (candidate + max lowest (min drift half))
    else return candidate
  else return candidate

/-- The time of a slice captured at the relative timestamp `now`. The time one interval back is computed for
every slice, though only the first one has no slice before it. -/
def stamp? (clock : OutputClock) (now : Int) (keyframe : Bool) : Option (Timing × OutputClock) := do
  let back ← word (now - clock.interval)
  let previous := clock.previous.getD back
  let clock ← clock.countSlice? now keyframe
  let candidate ← word (previous + clock.interval)
  let time ← clock.place? now candidate
  let step ← word (time - previous)
  return ({ pts := time.toNat, dts := time.toNat, duration := step.toNat },
    { clock with previous := some time })

/-! ## Each step on its own -/

theorem measured?_eq {anchor now : Int} (hanchor : 0 ≤ anchor ∧ anchor < 2 ^ 63)
    (hnow : 0 ≤ now ∧ now < 2 ^ 63) (slices : Nat) :
    measured? anchor now slices = some (measured anchor now slices) := by
  have helapsed : 0 ≤ max (now - anchor) 0 := Int.le_max_right _ _
  have hlower : 0 ≤ max (now - anchor) 0 / (slices : Int) := Int.ediv_nonneg helapsed (by omega)
  have hupper : max (now - anchor) 0 / (slices : Int) ≤ max (now - anchor) 0 :=
    Int.ediv_le_self _ helapsed
  rw [measured?, word_eq (by omega)]
  simp only [bind, Option.bind_some]
  rw [Int.tdiv_eq_ediv_of_nonneg helapsed, word_eq (by omega)]
  rfl

theorem blend?_eq {divisor : Nat} (hdivisor : 1 ≤ divisor) {interval m most : Int}
    (hinterval : 0 ≤ interval ∧ interval ≤ most) (hm : 0 ≤ m ∧ m ≤ most)
    (hroom : divisor * (most + 1) < 2 ^ 63) :
    blend? divisor interval m = some (blend divisor interval m) := by
  have hhalf : (divisor : Int).tdiv 2 = divisor / 2 := Int.tdiv_eq_ediv_of_nonneg (by omega)
  have hproduct : 0 ≤ interval * ((divisor : Int) - 1) :=
    Int.mul_nonneg hinterval.1 (by omega)
  -- The whole sum is less than the divisor times one more than the greatest estimate.
  have hmost : interval * ((divisor : Int) - 1) ≤ most * (divisor - 1) :=
    Int.mul_le_mul_of_nonneg_right hinterval.2 (by omega)
  have hexpand : (divisor : Int) * (most + 1) = most * (divisor - 1) + most + divisor := by ring
  have hlarge : (divisor : Int) ≤ divisor * (most + 1) :=
    le_mul_of_one_le_right (by omega) (by omega)
  rw [blend?, word_eq (by omega)]
  simp only [bind, Option.bind_some]
  rw [word_eq (by omega), Option.bind_some, word_eq (by omega), Option.bind_some, hhalf,
    word_eq (by omega), Option.bind_some, word_eq (by omega), Option.bind_some]
  have hsum : 0 ≤ interval * ((divisor : Int) - 1) + m + divisor / 2 := by omega
  have hlower := Int.ediv_nonneg hsum (show (0 : Int) ≤ divisor by omega)
  have hupper := Int.ediv_le_self (divisor : Int) hsum
  rw [Int.tdiv_eq_ediv_of_nonneg hsum, word_eq (by omega)]
  rfl

theorem place?_eq {clock : OutputClock} {now candidate : Int} (hinterval : 0 ≤ clock.interval)
    (hdrift : (now - candidate).natAbs < 2 ^ 63)
    (hband : clock.smoothing.tolerance * clock.interval < 2 ^ 63) (hhalf : clock.interval < 2 ^ 63)
    (htime : (candidate + clock.correction (now - candidate)).natAbs < 2 ^ 63) :
    clock.place? now candidate = some (candidate + clock.correction (now - candidate)) := by
  have hnonneg : 0 ≤ clock.smoothing.tolerance * clock.interval :=
    Int.mul_nonneg (Int.natCast_nonneg _) hinterval
  have htdiv : clock.interval.tdiv 2 = clock.interval / 2 := Int.tdiv_eq_ediv_of_nonneg hinterval
  cases hanchor : clock.anchor.isSome with
  | false =>
    rw [place?, correction, hanchor, Bool.false_and, if_neg Bool.false_ne_true,
      if_neg Bool.false_ne_true, Int.add_zero]
    rfl
  | true =>
    rw [place?, hanchor, if_pos rfl, word_eq hdrift]
    simp only [bind, Option.bind_some]
    rw [word_eq (by omega), Option.bind_some, word_eq (by omega), Option.bind_some]
    by_cases hbeyond : clock.smoothing.tolerance * clock.interval < ((now - candidate).natAbs : Int)
    · have hmoved : clock.correction (now - candidate) =
          max (-(clock.interval / 2)) (min (now - candidate) (clock.interval / 2)) := by
        rw [correction, hanchor, Bool.true_and, if_pos (decide_eq_true hbeyond)]
      rw [hmoved] at htime ⊢
      rw [if_pos hbeyond, htdiv, word_eq (by omega), Option.bind_some, word_eq (by omega),
        Option.bind_some, word_eq htime]
    · have hstill : clock.correction (now - candidate) = 0 := by
        rw [correction, hanchor, Bool.true_and, decide_eq_false hbeyond, if_neg Bool.false_ne_true]
      rw [if_neg hbeyond, hstill, Int.add_zero]
      rfl

/-! ## A run that leaves room -/

/-- The clock after `k` slices whose relative timestamps lie between zero and `span`, with no estimate
above `most`. -/
structure Bounded (most span : Int) (k : Nat) (clock : OutputClock) : Prop where
  ticking : clock.Ticking
  interval : clock.interval ≤ most
  slices : clock.slices ≤ k
  anchor : ∀ time, clock.anchor = some time → 0 ≤ time ∧ time ≤ span
  previous : ∀ time, clock.previous = some time → time ≤ span + k * (most + most / 2)

section Bounded

variable {clock : OutputClock} {most span now : Int} {k : Nat}

theorem Bounded.measurement?_le (h : Bounded most span k clock) (hnow : 0 ≤ now ∧ now ≤ span)
    {keyframe : Bool} {m : Int} (hm : clock.measurement? now keyframe = some m) : m ≤ span := by
  unfold measurement? at hm
  split at hm
  · obtain ⟨anchor, hanchor, rfl⟩ := Option.map_eq_some_iff.mp hm
    obtain ⟨hearliest, -⟩ := h.anchor anchor hanchor
    have hshare : measured anchor now (clock.slices + 1) ≤ max (now - anchor) 0 :=
      Int.ediv_le_self _ (Int.le_max_right _ _)
    omega
  · cases hm

/-- No estimation exceeds the greatest estimate, because its measurement does not. -/
theorem Bounded.interval_countSlice (h : Bounded most span k clock)
    (hdivisor : 1 ≤ clock.smoothing.divisor) (hspan : span ≤ most) (hnow : 0 ≤ now ∧ now ≤ span)
    (keyframe : Bool) : (clock.countSlice now keyframe).interval ≤ most := by
  have hold := h.interval
  have hleast := h.ticking.interval
  cases hmeasured : clock.measurement? now keyframe with
  | none =>
    rw [interval_countSlice_of_none hmeasured]
    exact hold
  | some m =>
    have hm := h.measurement?_le hnow hmeasured
    have hmean := blend_mem_uIcc hdivisor clock.interval (measurement?_nonneg hmeasured)
    rw [Set.mem_uIcc] at hmean
    rw [interval_countSlice_of_some hmeasured]
    omega

theorem Bounded.stamp (h : Bounded most span k clock) (hdivisor : 1 ≤ clock.smoothing.divisor)
    (hspan : span ≤ most) (hnow : 0 ≤ now ∧ now ≤ span) (keyframe : Bool) :
    Bounded most span (k + 1) (clock.stamp now keyframe).2 := by
  have hinterval := h.interval_countSlice hdivisor hspan hnow keyframe
  have hroom : ((k + 1 : Nat) : Int) * (most + most / 2) =
      k * (most + most / 2) + (most + most / 2) := by
    push_cast
    ring
  refine ⟨h.ticking.stamp hnow.1 keyframe, hinterval, ?_, ?_, fun time htime => ?_⟩
  · have hslices := h.slices
    rw [stamp_snd]
    unfold countSlice
    dsimp only
    split
    · exact Nat.zero_le _
    · dsimp only
      omega
  · rw [stamp_snd]
    unfold countSlice
    dsimp only
    split
    · intro time htime
      obtain rfl := Option.some.inj htime
      exact hnow
    · exact h.anchor
  · -- The first slice is placed where it was captured, and a later one at most one and a half estimates
    -- behind the one before.
    cases hprevious : clock.previous with
    | none =>
      obtain ⟨-, hnext⟩ := stamp_first h.ticking hprevious now keyframe
      obtain rfl := Option.some.inj (hnext.symm.trans htime)
      have hnonneg : 0 ≤ (k : Int) * (most + most / 2) :=
        Int.mul_nonneg (Int.natCast_nonneg k) (by omega)
      omega
    | some before =>
      obtain ⟨step, -, hnext, -, -, hstep⟩ := stamp_later h.ticking hprevious now keyframe
      obtain rfl := Option.some.inj (hnext.symm.trans htime)
      have hbefore := h.previous before hprevious
      omega

theorem Bounded.countSlice?_eq (h : Bounded most span k clock)
    (hdivisor : 1 ≤ clock.smoothing.divisor) (hspan : span ≤ most) (hnow : 0 ≤ now ∧ now ≤ span)
    (hcount : k + 1 < 2 ^ 32) (hmean : clock.smoothing.divisor * (most + 1) < 2 ^ 63)
    (keyframe : Bool) :
    clock.countSlice? now keyframe = some (clock.countSlice now keyframe) := by
  have hslices := h.slices
  have hleast := h.ticking.interval
  have hinterval := h.interval
  have hwhole : most + 1 ≤ clock.smoothing.divisor * (most + 1) :=
    le_mul_of_one_le_left (by omega) (by omega)
  rw [countSlice?, counter_eq (by omega), countSlice]
  simp only [bind, Option.bind_some]
  split
  · cases hanchor : clock.anchor with
    | none =>
      rw [estimate?, hanchor]
      rfl
    | some anchor =>
      have htime := h.anchor anchor hanchor
      have hshare : measured anchor now (clock.slices + 1) ≤ max (now - anchor) 0 :=
        Int.ediv_le_self _ (Int.le_max_right _ _)
      have hmeasured := measured_nonneg anchor now (clock.slices + 1)
      rw [estimate?, hanchor]
      dsimp only
      rw [measured?_eq (by omega) (by omega)]
      simp only [bind, Option.bind_some]
      rw [blend?_eq hdivisor ⟨by omega, hinterval⟩ ⟨hmeasured, by omega⟩ hmean]
      rfl
  · rfl

/-- Where the bounds leave room, nothing overflows on the way to the time of a slice. -/
theorem Bounded.stamp?_eq (h : Bounded most span k clock)
    (hdivisor : 1 ≤ clock.smoothing.divisor) (hspan : span ≤ most) (hnow : 0 ≤ now ∧ now ≤ span)
    (hcount : k + 1 < 2 ^ 32) (hmean : clock.smoothing.divisor * (most + 1) < 2 ^ 63)
    (hband : clock.smoothing.tolerance * most < 2 ^ 63)
    (htimes : span + (k + 1) * (most + most / 2) < 2 ^ 63) (keyframe : Bool) :
    clock.stamp? now keyframe = some (clock.stamp now keyframe) := by
  have hinterval := h.interval
  have hleast := h.ticking.interval
  have hroom : ((k : Int) + 1) * (most + most / 2) = k * (most + most / 2) + (most + most / 2) := by
    ring
  have hnonneg : 0 ≤ (k : Int) * (most + most / 2) :=
    Int.mul_nonneg (Int.natCast_nonneg k) (by omega)
  have hbefore : -most ≤ clock.previousOr now ∧
      clock.previousOr now ≤ span + k * (most + most / 2) := by
    cases hprevious : clock.previous with
    | none =>
      rw [previousOr, hprevious, Option.getD_none]
      omega
    | some before =>
      have hlower := h.ticking.previous before hprevious
      have hupper := h.previous before hprevious
      rw [previousOr, hprevious, Option.getD_some]
      omega
  have hnew := one_le_interval_countSlice h.ticking now keyframe
  have hmost := h.interval_countSlice hdivisor hspan hnow keyframe
  have hsettings := smoothing_countSlice clock now keyframe
  have hprevious : clock.previous.getD (now - clock.interval) = clock.previousOr now := rfl
  rw [stamp?, h.countSlice?_eq hdivisor hspan hnow hcount hmean keyframe, word_eq (by omega)]
  simp only [bind, Option.bind_some, hprevious, OutputClock.stamp]
  generalize clock.countSlice now keyframe = counted at *
  generalize clock.previousOr now = previous at *
  -- The regular time and the corrected one lie between the bounds of this slice and of the next one.
  have hmoved := correction_bounds (show 0 ≤ counted.interval by omega)
    (now - (previous + counted.interval))
  have hwidth : counted.smoothing.tolerance * counted.interval < 2 ^ 63 := by
    rw [hsettings]
    exact (Int.mul_le_mul_of_nonneg_left hmost (Int.natCast_nonneg _)).trans_lt hband
  rw [word_eq (by omega), Option.bind_some,
    place?_eq (by omega) (by omega) hwidth (by omega) (by omega), Option.bind_some,
    word_eq (by omega)]
  rfl

end Bounded

theorem bounded_new (nominalInterval : Nat) (smoothing : Smoothing) (origin : Option Nat) {most : Int}
    (span : Int) (hmost : (new nominalInterval smoothing).nominal ≤ most) :
    Bounded most span 0 ((new nominalInterval smoothing).withOrigin origin) where
  ticking := (ticking_new nominalInterval smoothing).withOrigin origin
  interval := hmost
  slices := Nat.le_refl 0
  anchor := fun time htime => by cases htime
  previous := fun time htime => by cases htime

theorem Bounded.before {clock : OutputClock} {most span : Int} {slices : Nat → ClockSlice}
    {count : Nat} (h : Bounded most span 0 clock) (hdivisor : 1 ≤ clock.smoothing.divisor)
    (hspan : span ≤ most) (hslices : ∀ k < count, 0 ≤ (slices k).now ∧ (slices k).now ≤ span)
    {k : Nat} (hk : k ≤ count) : Bounded most span k (clock.before slices k) := by
  induction k with
  | zero => exact h
  | succ k ih =>
    refine (ih (by omega)).stamp ?_ hspan (hslices k hk) (slices k).keyframe
    rw [smoothing_before]
    exact hdivisor

/-- **The clock stays within 64 bits.** For every nominal interval and smoothing, after the first frame has
fixed the origin, so that asking for relative timestamps changes nothing any more, and for slices with any
such timestamps from zero to some span:

* The estimate never exceeds the nominal interval or the span, whichever is longer.
* If there are fewer than `2 ^ 32` slices, and if the divisor times one more than that greatest estimate,
  the tolerance times it, and the span with one and a half of it for every slice and once more are less
  than `2 ^ 63`, then no operation overflows on the way to the time of any slice. -/
theorem stamps_fit (nominalInterval : Nat) (smoothing : Smoothing) (first : Nat) (span : Int)
    (slices : Nat → ClockSlice) (count : Nat)
    (hslices : ∀ k < count, 0 ≤ (slices k).now ∧ (slices k).now ≤ span) :
    let start := ((new nominalInterval smoothing).relative first).2
    let clock := start.before slices
    let most := max start.nominal span
    (∀ k ≤ count, 1 ≤ (clock k).interval ∧ (clock k).interval ≤ most) ∧
    (count < 2 ^ 32 → smoothing.clamped.divisor * (most + 1) < 2 ^ 63 →
      smoothing.clamped.tolerance * most < 2 ^ 63 →
      span + (count + 1) * (most + most / 2) < 2 ^ 63 →
      ∀ k < count, (clock k).stamp? (slices k).now (slices k).keyframe =
        some ((clock k).stamp (slices k).now (slices k).keyframe)) := by
  intro start clock most
  have hstart : Bounded most span 0 start :=
    bounded_new nominalInterval smoothing (some first) span (Int.le_max_left _ _)
  have hsettings : start.smoothing = smoothing.clamped := rfl
  have hdivisor : 1 ≤ start.smoothing.divisor := Nat.le_max_right _ _
  have hspan : span ≤ most := Int.le_max_right _ _
  have hbounded : ∀ k ≤ count, Bounded most span k (clock k) := fun k hk =>
    hstart.before hdivisor hspan hslices hk
  refine ⟨fun k hk => ⟨(hbounded k hk).ticking.interval, (hbounded k hk).interval⟩, ?_⟩
  intro hcount hmean hband htimes k hk
  have hkept : (clock k).smoothing = smoothing.clamped := smoothing_before start slices k
  have hmost : 1 ≤ most := hstart.ticking.interval.trans hstart.interval
  -- The room for all slices is room for those up to this one.
  have hroom : ((k : Int) + 1) * (most + most / 2) ≤ (count + 1) * (most + most / 2) :=
    Int.mul_le_mul_of_nonneg_right (by omega) (by omega)
  refine (hbounded k (Nat.le_of_lt hk)).stamp?_eq ?_ hspan (hslices k hk) (by omega) ?_ ?_
    (by omega) (slices k).keyframe
  · rw [hkept]
    exact Nat.le_max_right _ _
  · rw [hkept]
    exact hmean
  · rw [hkept]
    exact hband

/-- A camera that is slower than announced and stands still for a while. The anchor is set, the interval is
measured, and a slice is moved. -/
theorem stamps_fit_slow :
    let smoothing : Smoothing := { updateSlices := 2, divisor := 3, tolerance := 1 }
    let slices (k : Nat) : ClockSlice := { now := if k < 4 then k * 17 else 51, keyframe := k % 2 = 1 }
    let start := ((new 10 smoothing).relative 7).2
    let clock := start.before slices
    (∀ k < 8, 0 ≤ (slices k).now ∧ (slices k).now ≤ 51) ∧
    (clock 4).interval = 12 ∧ (clock 4).anchor = some 51 ∧
    (clock 6).interval = 8 ∧ (start.timingOf slices 5).duration = 4 ∧
    (∀ k ≤ 8, 1 ≤ (clock k).interval ∧ (clock k).interval ≤ 51) ∧
    ∀ k < 8, (clock k).stamp? (slices k).now (slices k).keyframe =
      some ((clock k).stamp (slices k).now (slices k).keyframe) := by
  intro smoothing slices start clock
  have hslices : ∀ k < 8, 0 ≤ (slices k).now ∧ (slices k).now ≤ 51 := by decide
  obtain ⟨hinterval, hfit⟩ := stamps_fit 10 smoothing 7 51 slices 8 hslices
  exact ⟨hslices, by decide, by decide, by decide +kernel, by decide +kernel, hinterval,
    hfit (by decide) (by decide) (by decide) (by decide)⟩

/-- The longest interval leaves no room: the third slice would lie two of them after the first one. -/
example :
    let clock := (((new maxSpan {}).relative 0).2).before fun _ => { now := 0, keyframe := false }
    ((clock 1).stamp? 0 false).isSome = true ∧ (clock 2).stamp? 0 false = none := by
  decide +kernel

end OutputClock

end CamStream
