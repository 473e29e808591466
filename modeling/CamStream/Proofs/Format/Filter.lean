import CamStream.Proofs.Format.Selection
import Mathlib.Order.Bounds.Basic

/-!
# What a filter takes

A filter takes a capability at the highest positive framerate that the device offers and the filter
allows, if there is one and the frame size is within bounds. The bounds are those of the last call that
set any: a later call replaces what an earlier one has set, and leaves the others as they are.

So a filter that allows more takes every capability that it took before, at the same framerate or a higher
one, and the format that is selected does not get worse.

* `FormatFilter.bounds_built`: the bounds of a filter, by the calls that built it.
* `FormatFilter.best_eq_some_iff`, `FormatFilter.best_eq_none_iff`: the highest of the admissible rates.
* `FormatFilter.Widens.best`, `FormatFilter.Widens.selectFormat`: what a wider filter takes and selects.
* `filter_picks_highest`: all of it, for every sequence of calls.
-/

namespace CamStream

/-! ## Filters by the calls that build them -/

/-- One call of those that set bounds. -/
inductive FilterCall where
  | onlyWidth (width : Nat)
  | onlyHeight (height : Nat)
  | atMost (width height : Nat)
  | onlyFramerate (rate : Nat)
  | framerateBetween (low high : Nat)
deriving DecidableEq, Repr

namespace FilterCall

def width? : FilterCall → Option Bounds
  | onlyWidth width => some ⟨width, width⟩
  | atMost width _ => some ⟨0, width⟩
  | _ => none

def height? : FilterCall → Option Bounds
  | onlyHeight height => some ⟨height, height⟩
  | atMost _ height => some ⟨0, height⟩
  | _ => none

def framerate? : FilterCall → Option Bounds
  | onlyFramerate rate => some ⟨rate, rate⟩
  | framerateBetween low high => some ⟨low, high⟩
  | _ => none

/-- What the last of the calls has set that set such bounds. -/
def latest? (bounds? : FilterCall → Option Bounds) (calls : List FilterCall) : Option Bounds :=
  (calls.filterMap bounds?).getLast?

theorem latest?_concat (bounds? : FilterCall → Option Bounds) (calls : List FilterCall)
    (call : FilterCall) :
    latest? bounds? (calls ++ [call]) = (bounds? call).or (latest? bounds? calls) := by
  unfold latest?
  rw [List.filterMap_append, List.getLast?_append]
  cases h : bounds? call <;> simp [h]

end FilterCall

namespace FormatFilter

open FilterCall (latest? latest?_concat)

def call (filter : FormatFilter) : FilterCall → FormatFilter
  | .onlyWidth width => filter.onlyWidth width
  | .onlyHeight height => filter.onlyHeight height
  | .atMost width height => filter.atMost width height
  | .onlyFramerate rate => filter.onlyFramerate rate
  | .framerateBetween low high => filter.framerateBetween low high

/-- The filter that calls make of the open one. -/
def built (calls : List FilterCall) : FormatFilter := calls.foldl call {}

theorem bounds_call (filter : FormatFilter) (step : FilterCall) :
    (filter.call step).width = step.width?.or filter.width ∧
      (filter.call step).height = step.height?.or filter.height ∧
      (filter.call step).framerate = step.framerate?.or filter.framerate := by
  cases step <;> exact ⟨rfl, rfl, rfl⟩

theorem bounds_built (calls : List FilterCall) :
    (built calls).width = latest? FilterCall.width? calls ∧
      (built calls).height = latest? FilterCall.height? calls ∧
      (built calls).framerate = latest? FilterCall.framerate? calls := by
  induction calls using List.reverseRecOn with
  | nil => exact ⟨rfl, rfl, rfl⟩
  | append_singleton calls last ih =>
    obtain ⟨hwidth, hheight, hframerate⟩ := ih
    obtain ⟨hwidth', hheight', hframerate'⟩ := bounds_call (built calls) last
    have hbuilt : built (calls ++ [last]) = (built calls).call last := List.foldl_concat ..
    simp only [hbuilt, latest?_concat]
    rw [hwidth', hheight', hframerate', hwidth, hheight, hframerate]
    exact ⟨rfl, rfl, rfl⟩

end FormatFilter

/-! ## The admissible rates -/

/-- Open bounds allow everything, inverted ones nothing. -/
def Allows (bounds? : Option Bounds) (n : Nat) : Prop :=
  ∀ bounds ∈ bounds?, bounds.low ≤ n ∧ n ≤ bounds.high

namespace FrameRates

/-- The device can run at the rate. A range whose ends are inverted offers nothing. -/
def Offers : FrameRates → Nat → Prop
  | discrete rates, rate => rate ∈ rates
  | range lowest highest, rate => lowest ≤ rate ∧ rate ≤ highest

end FrameRates

/-- All numbers of the capability are words of 32 bits. -/
structure Capability.FitsWords (capability : Capability) : Prop where
  width : capability.width < UInt32.size
  height : capability.height < UInt32.size
  rate {rate : Nat} (h : capability.rates.Offers rate) : rate < UInt32.size

namespace FormatFilter

variable {filter wide narrow : FormatFilter} {capability : Capability} {bounds? : Option Bounds}
  {lowest highest rate : Nat}

theorem admits_iff {n : Nat} : admits bounds? n = true ↔ Allows bounds? n := by
  cases bounds? <;> simp [admits, Allows, Bounds.contains]

def AllowsSize (filter : FormatFilter) (capability : Capability) : Prop :=
  Allows filter.width capability.width ∧ Allows filter.height capability.height

theorem admitsSize_iff : filter.admitsSize capability = true ↔ filter.AllowsSize capability := by
  rw [admitsSize, Bool.and_eq_true, admits_iff, admits_iff, AllowsSize]

/-- The positive rates that are offered and allowed. -/
def admissible (filter : FormatFilter) (rates : FrameRates) : Set Nat :=
  {rate | 0 < rate ∧ rates.Offers rate ∧ Allows filter.framerate rate}

/-- Of a range, an interval is admissible, and its upper end is taken unless the interval is empty. -/
theorem exists_interval (filter : FormatFilter) (lowest highest : Nat) :
    ∃ low high, filter.admissible (.range lowest highest) = Set.Icc low high ∧
      highestWithin filter.framerate lowest highest = if low ≤ high then some high else none := by
  unfold highestWithin admissible
  cases filter.framerate with
  | none =>
    refine ⟨max lowest 1, highest, ?_, rfl⟩
    ext n
    have hallowed : Allows none n := nofun
    simp only [FrameRates.Offers, hallowed, and_true, Set.mem_ofPred_eq, Set.mem_Icc]
    omega
  | some bounds =>
    refine ⟨max lowest (max bounds.low 1), min highest bounds.high, ?_, rfl⟩
    ext n
    simp only [FrameRates.Offers, Allows, Option.mem_some_iff, forall_eq', Set.mem_ofPred_eq,
      Set.mem_Icc]
    omega

theorem mem_filter_iff {rates : List Nat} :
    rate ∈ (rates.filter fun rate => 0 < rate && admits filter.framerate rate) ↔
      rate ∈ filter.admissible (.discrete rates) := by
  rw [List.mem_filter, Bool.and_eq_true, decide_eq_true_eq, admits_iff]
  exact and_left_comm

theorem best_eq_some_iff : filter.best capability = some rate ↔
    filter.AllowsSize capability ∧ IsGreatest (filter.admissible capability.rates) rate := by
  unfold best
  by_cases hsize : filter.admitsSize capability = true
  · rw [if_pos hsize, ← admitsSize_iff, and_iff_right hsize]
    cases capability.rates with
    | discrete rates =>
      simp only [List.max?_eq_some_iff, mem_filter_iff]
      rfl
    | range lowest highest =>
      obtain ⟨low, high, hinterval, htaken⟩ := filter.exists_interval lowest highest
      rw [hinterval]
      dsimp only
      rw [htaken]
      constructor
      · intro h
        split at h
        · cases h
          exact isGreatest_Icc (by assumption)
        · cases h
      · rintro ⟨hmem, hgreatest⟩
        have hle : low ≤ high := Nat.le_trans hmem.1 hmem.2
        rw [if_pos hle, (isGreatest_Icc hle).unique ⟨hmem, hgreatest⟩]
  · rw [if_neg hsize, ← admitsSize_iff]
    simp [hsize]

theorem best_eq_none_iff : filter.best capability = none ↔
    ¬ filter.AllowsSize capability ∨ ∀ rate, rate ∉ filter.admissible capability.rates := by
  unfold best
  by_cases hsize : filter.admitsSize capability = true
  · rw [if_pos hsize, ← admitsSize_iff, or_iff_right (not_not_intro hsize)]
    cases capability.rates with
    | discrete rates =>
      simp only [List.max?_eq_none_iff, List.eq_nil_iff_forall_not_mem, mem_filter_iff]
    | range lowest highest =>
      obtain ⟨low, high, hinterval, htaken⟩ := filter.exists_interval lowest highest
      rw [hinterval]
      dsimp only
      rw [htaken, ← Set.eq_empty_iff_forall_notMem, Set.Icc_eq_empty_iff]
      split <;> simp_all
  · rw [if_neg hsize, ← admitsSize_iff]
    simp [hsize]

/-! ## Wider filters -/

/-- One filter allows all that another one does: sizes and positive rates, as words of 32 bits. -/
structure Widens (wide narrow : FormatFilter) : Prop where
  width {n : Nat} (hword : n < UInt32.size) (h : Allows narrow.width n) : Allows wide.width n
  height {n : Nat} (hword : n < UInt32.size) (h : Allows narrow.height n) : Allows wide.height n
  framerate {n : Nat} (hword : n < UInt32.size) (hpositive : 0 < n) (h : Allows narrow.framerate n) :
    Allows wide.framerate n

namespace Widens

variable (h : wide.Widens narrow)

include h

theorem allowsSize (hwords : capability.FitsWords) (hsize : narrow.AllowsSize capability) :
    wide.AllowsSize capability :=
  ⟨h.width hwords.width hsize.1, h.height hwords.height hsize.2⟩

theorem admissible_subset (hwords : capability.FitsWords) :
    narrow.admissible capability.rates ⊆ wide.admissible capability.rates := by
  rintro rate ⟨hpositive, hoffered, hallowed⟩
  exact ⟨hpositive, hoffered, h.framerate (hwords.rate hoffered) hpositive hallowed⟩

/-- A capability that was taken is taken, and not at a lower rate. -/
theorem best (hwords : capability.FitsWords) (htaken : narrow.best capability = some rate) :
    ∃ higher, wide.best capability = some higher ∧ rate ≤ higher := by
  obtain ⟨hsize, hmem, -⟩ := best_eq_some_iff.mp htaken
  have hmember := h.admissible_subset hwords hmem
  cases hbest : wide.best capability with
  | none =>
    rcases best_eq_none_iff.mp hbest with hoff | hnothing
    · exact absurd (h.allowsSize hwords hsize) hoff
    · exact absurd hmember (hnothing rate)
  | some higher =>
    obtain ⟨-, -, hgreatest⟩ := best_eq_some_iff.mp hbest
    exact ⟨higher, rfl, hgreatest hmember⟩

theorem selectFormat {capabilities : List Capability}
    (hwords : ∀ capability ∈ capabilities, capability.FitsWords) {format : CaptureFormat}
    (hselected : selectFormat capabilities narrow.best = .ok format) :
    ∃ better, CamStream.selectFormat capabilities wide.best = .ok better ∧
      format.score ≤ better.score := by
  obtain ⟨i, hi⟩ := selectFormat_eq_ok_iff.mp hselected
  obtain ⟨capability, rate, hat, htaken, rfl⟩ := formatAt?_eq_some_iff.mp hi.taken
  have hmem := List.mem_of_getElem? hat
  obtain ⟨higher, hhigher, hle⟩ := h.best (hwords capability hmem) htaken
  cases hwide : CamStream.selectFormat capabilities wide.best with
  | error failure =>
    have hrejected := (selectFormat_eq_error_iff.mp hwide).2 capability hmem
    rw [hhigher] at hrejected
    cases hrejected
  | ok better =>
    -- What the wider filter makes of the same capability is no better than what it selects.
    obtain ⟨j, hj⟩ := selectFormat_eq_ok_iff.mp hwide
    have hmade := formatAt?_eq_some_iff.mpr ⟨capability, higher, hat, hhigher, rfl⟩
    refine ⟨better, rfl, le_trans ?_ (hj.best i _ hmade)⟩
    exact Prod.Lex.toLex_le_toLex.mpr (Or.inr ⟨rfl, hle⟩)

end Widens

end FormatFilter

/-- **A filter takes the highest admissible rate.** Let a filter be built by any calls, and let its bounds
be those of the last calls that set any.

* It rejects a capability exactly if the size is out of bounds, or no positive rate is both offered by the
  device and allowed.
* It takes a capability at a rate exactly if the size is within bounds and the rate is the greatest of
  those.
* Let other calls build a filter that allows whatever this one does. If a format is selected with this one
  then so it is with the other one, and its number of pixels and framerate do not rank lower. -/
theorem filter_picks_highest (calls : List FilterCall) :
    let filter := FormatFilter.built calls
    let InBounds (capability : Capability) :=
      Allows (FilterCall.latest? FilterCall.width? calls) capability.width ∧
        Allows (FilterCall.latest? FilterCall.height? calls) capability.height
    let admissible (capability : Capability) : Set Nat :=
      {rate | 0 < rate ∧ capability.rates.Offers rate ∧
        Allows (FilterCall.latest? FilterCall.framerate? calls) rate}
    (∀ capability, filter.best capability = none ↔
      ¬ InBounds capability ∨ ∀ rate, rate ∉ admissible capability) ∧
    (∀ capability rate, filter.best capability = some rate ↔
      InBounds capability ∧ IsGreatest (admissible capability) rate) ∧
    ∀ more, (FormatFilter.built more).Widens filter → ∀ capabilities : List Capability,
      (∀ capability ∈ capabilities, capability.FitsWords) →
      ∀ format, selectFormat capabilities filter.best = .ok format →
        ∃ better, selectFormat capabilities (FormatFilter.built more).best = .ok better ∧
          toLex (format.width * format.height, format.framerate) ≤
            toLex (better.width * better.height, better.framerate) := by
  intro filter InBounds admissible
  obtain ⟨hwidth, hheight, hframerate⟩ := FormatFilter.bounds_built calls
  have hinBounds : ∀ capability, filter.AllowsSize capability ↔ InBounds capability := by
    intro capability
    rw [FormatFilter.AllowsSize, hwidth, hheight]
  have hadmissible : ∀ capability, filter.admissible capability.rates = admissible capability := by
    intro capability
    rw [FormatFilter.admissible, hframerate]
  refine ⟨fun capability => ?_, fun capability rate => ?_, fun more hwidens capabilities hwords format h => ?_⟩
  · rw [FormatFilter.best_eq_none_iff, hinBounds, hadmissible]
  · rw [FormatFilter.best_eq_some_iff, hinBounds, hadmissible]
  · exact hwidens.selectFormat hwords h

/-- A later call replaces the only framerate by a range. The capabilities are one with inverted ends, one that
lists a rate of zero, and one that is too large until the filter is widened. -/
theorem filter_picks_highest_replaced :
    let calls : List FilterCall := [.onlyFramerate 60, .atMost 1920 1080, .framerateBetween 0 24]
    let more : List FilterCall := [.framerateBetween 0 30]
    let inverted : Capability := { width := 1280, height := 720, rates := .range 30 5 }
    let listed : Capability := { width := 1920, height := 1080, rates := .discrete [0, 15, 20, 30] }
    let large : Capability := { width := 3840, height := 2160, rates := .range 5 60 }
    let filter := FormatFilter.built calls
    let capabilities := [inverted, listed, large]
    (FormatFilter.built more).Widens filter ∧
      (∀ capability ∈ capabilities, capability.FitsWords) ∧
      filter.best inverted = none ∧
      IsGreatest {rate | 0 < rate ∧ rate ∈ [0, 15, 20, 30] ∧ Allows (some ⟨0, 24⟩) rate} 20 ∧
      selectFormat capabilities filter.best = .ok { width := 1920, height := 1080, framerate := 20 } ∧
      ∃ better, selectFormat capabilities (FormatFilter.built more).best = .ok better ∧
        toLex (1920 * 1080, 20) ≤ toLex (better.width * better.height, better.framerate) := by
  intro calls more inverted listed large filter capabilities
  obtain ⟨hnone, hsome, hwider⟩ := filter_picks_highest calls
  have hwidens : (FormatFilter.built more).Widens filter := by
    refine ⟨fun _ _ => nofun, fun _ _ => nofun, fun {n} _ _ h => ?_⟩
    rintro _ ⟨⟩
    obtain ⟨hlow, hhigh⟩ : 0 ≤ n ∧ n ≤ 24 := h _ rfl
    exact ⟨hlow, Nat.le_trans hhigh (by decide)⟩
  have hwords : ∀ capability ∈ capabilities, capability.FitsWords := by
    have hlisted : ∀ rate ∈ [0, 15, 20, 30], rate < UInt32.size := by decide
    intro capability hmem
    simp only [capabilities, List.mem_cons, List.not_mem_nil, or_false] at hmem
    rcases hmem with rfl | rfl | rfl
    · exact ⟨by decide, by decide, fun h => Nat.lt_of_le_of_lt h.2 (by decide)⟩
    · exact ⟨by decide, by decide, fun h => hlisted _ h⟩
    · exact ⟨by decide, by decide, fun h => Nat.lt_of_le_of_lt h.2 (by decide)⟩
  have hselected : selectFormat capabilities filter.best =
      .ok { width := 1920, height := 1080, framerate := 20 } := by decide
  refine ⟨hwidens, hwords, ?_, ?_, hselected, hwider more hwidens capabilities hwords _ hselected⟩
  · refine (hnone inverted).mpr (Or.inr fun rate hrate => ?_)
    obtain ⟨-, ⟨hlow, hhigh⟩, -⟩ := hrate
    exact absurd (Nat.le_trans hlow hhigh) (by decide)
  · exact ((hsome listed 20).mp (by decide)).2

end CamStream
