import CamStream.Proofs.Format.Filter

/-!
# Two ways to constrain nothing

A host can select without a constraint, or with a filter that was never bounded. Both take the highest
positive framerate of a capability, and they agree on every capability but one kind: a range whose ends are
inverted. It offers no framerate at all. The filter rejects it, and without a constraint its upper end is
taken, which is a rate that the device does not offer.

* `best_open`: the two on one capability.
* `selectFormat_open_eq_ok_iff`: the filter selects as if such capabilities were not listed.
* `unbounded_selections_agree`: so the selections differ only if the one without a constraint is such a rate,
  and what the different ways to describe a capability have to do with it.
* `inverted_range_taken`: that they do differ.
-/

namespace CamStream

/-- A range whose lower end lies above its upper one. -/
def Capability.isInverted (capability : Capability) : Bool :=
  match capability.rates with
  | .discrete _ => false
  | .range lowest highest => highest < lowest

section

variable {capability : Capability} {capabilities : List Capability} {format : CaptureFormat} {i rate : Nat}

theorem unconstrained_eq_some_iff :
    unconstrained capability = some rate ↔ capability.rates.max? = some rate ∧ 0 < rate := by
  rw [unconstrained, Option.filter_eq_some_iff, decide_eq_true_eq]

theorem not_offers_of_isInverted (h : capability.isInverted = true) (rate : Nat) :
    ¬ capability.rates.Offers rate := by
  unfold Capability.isInverted at h
  cases hrates : capability.rates with
  | discrete rates =>
    rw [hrates] at h
    cases h
  | range lowest highest =>
    rw [hrates, decide_eq_true_eq] at h
    rintro ⟨hlow, hhigh⟩
    omega

/-- What is taken without a constraint is the greatest positive rate on offer, if the ends of a range are in
order. -/
theorem unconstrained_eq_some_iff_isGreatest (h : capability.isInverted = false) :
    unconstrained capability = some rate ↔
      IsGreatest {rate | 0 < rate ∧ capability.rates.Offers rate} rate := by
  rw [unconstrained_eq_some_iff]
  unfold Capability.isInverted at h
  cases hrates : capability.rates with
  | discrete rates =>
    rw [FrameRates.max?, List.max?_eq_some_iff]
    constructor
    · rintro ⟨⟨hmem, hle⟩, hpositive⟩
      exact ⟨⟨hpositive, hmem⟩, fun other hother => hle other hother.2⟩
    · rintro ⟨⟨hpositive, hmem⟩, hle⟩
      refine ⟨⟨hmem, fun other hother => ?_⟩, hpositive⟩
      -- A rate of zero is listed, but it exceeds nothing.
      rcases Nat.eq_zero_or_pos other with rfl | hother'
      · exact Nat.zero_le rate
      · exact hle ⟨hother', hother⟩
  | range lowest highest =>
    rw [hrates, decide_eq_false_iff_not] at h
    rw [FrameRates.max?, Option.some_inj]
    constructor
    · rintro ⟨rfl, hpositive⟩
      exact ⟨⟨hpositive, by omega, le_rfl⟩, fun other hother => hother.2.2⟩
    · rintro ⟨⟨hpositive, hlow, hhigh⟩, hle⟩
      have hends : 0 < highest := Nat.lt_of_lt_of_le hpositive hhigh
      exact ⟨Nat.le_antisymm (hle ⟨hends, by omega, le_rfl⟩) hhigh, hpositive⟩

theorem best_open (capability : Capability) :
    ({} : FormatFilter).best capability =
      if capability.isInverted then none else unconstrained capability := by
  have hallowed : ∀ n, Allows none n := fun _ => nofun
  have hsize : ({} : FormatFilter).AllowsSize capability := ⟨hallowed _, hallowed _⟩
  split
  · rename_i hinverted
    refine FormatFilter.best_eq_none_iff.mpr (Or.inr fun rate hrate => ?_)
    exact not_offers_of_isInverted hinverted rate hrate.2.1
  · rename_i hordered
    ext rate
    rw [FormatFilter.best_eq_some_iff, and_iff_right hsize,
      unconstrained_eq_some_iff_isGreatest (Bool.not_eq_true _ ▸ hordered)]
    simp only [FormatFilter.admissible, hallowed, and_true]

/-! ## Selections -/

/-- A capability that wins without a constraint wins with the filter too, if its ends are in order. -/
theorem Wins.unbounded (h : Wins capabilities unconstrained i format) (hat : capabilities[i]? = some capability)
    (hordered : capability.isInverted = false) :
    Wins capabilities ({} : FormatFilter).best i format := by
  have hmade : ∀ j other, formatAt? capabilities ({} : FormatFilter).best j = some other →
      formatAt? capabilities unconstrained j = some other := by
    intro j other hother
    obtain ⟨candidate, rate, hcandidate, hrate, rfl⟩ := formatAt?_eq_some_iff.mp hother
    rw [best_open] at hrate
    split at hrate
    · cases hrate
    · exact formatAt?_eq_some_iff.mpr ⟨candidate, rate, hcandidate, hrate, rfl⟩
  refine ⟨?_, fun j other hother => h.best j other (hmade j other hother),
    fun j hj other hother => h.first j hj other (hmade j other hother)⟩
  obtain ⟨winner, rate, hwinner, hrate, rfl⟩ := formatAt?_eq_some_iff.mp h.taken
  obtain rfl : capability = winner := Option.some.inj (hat.symm.trans hwinner)
  refine formatAt?_eq_some_iff.mpr ⟨capability, rate, hwinner, ?_, rfl⟩
  rw [best_open, hordered]
  exact hrate

theorem selectFormat_open_eq_ok_iff :
    selectFormat capabilities ({} : FormatFilter).best = .ok format ↔
      selectFormat (capabilities.filter (!·.isInverted)) unconstrained = .ok format := by
  have hformats : capabilities.filterMap (CaptureFormat.ofCapability? ({} : FormatFilter).best) =
      (capabilities.filter (!·.isInverted)).filterMap (CaptureFormat.ofCapability? unconstrained) := by
    rw [List.filterMap_filter]
    congr 1
    funext capability
    rw [CaptureFormat.ofCapability?, best_open]
    cases capability.isInverted <;> rfl
  unfold selectFormat
  rw [hformats]
  split <;> simp

/-- The selections agree, or the one without a constraint is of a range with inverted ends. -/
theorem selectFormat_unconstrained_cases (capabilities : List Capability) :
    selectFormat capabilities unconstrained = selectFormat capabilities ({} : FormatFilter).best ∨
      ∃ capability ∈ capabilities, capability.isInverted = true ∧ ∃ rate,
        unconstrained capability = some rate ∧
        selectFormat capabilities unconstrained =
          .ok { width := capability.width, height := capability.height, framerate := rate } := by
  cases hselected : selectFormat capabilities unconstrained with
  | error failure =>
    left
    obtain ⟨hcount, hrejected⟩ := selectFormat_eq_error_iff.mp hselected
    refine (selectFormat_eq_error_iff.mpr ⟨hcount, fun capability hmem => ?_⟩).symm
    rw [best_open, hrejected capability hmem, ite_self]
  | ok format =>
    obtain ⟨i, hi⟩ := selectFormat_eq_ok_iff.mp hselected
    obtain ⟨capability, rate, hat, hrate, rfl⟩ := formatAt?_eq_some_iff.mp hi.taken
    cases hinverted : capability.isInverted with
    | false => exact Or.inl (selectFormat_eq_ok_iff.mpr ⟨i, hi.unbounded hat hinverted⟩).symm
    | true => exact Or.inr ⟨capability, List.mem_of_getElem? hat, hinverted, rate, hrate, rfl⟩

end

/-! ## Capabilities by intervals -/

theorem isInverted_ofIntervalRange_iff (width height shortest longest : Nat) :
    (Capability.ofIntervalRange width height shortest longest).isInverted = true ↔
      10000000 / max shortest 1 < 10000000 / max longest 1 := decide_eq_true_iff

/-- Intervals in order give rates in order. -/
theorem isInverted_ofIntervalRange_of_le {shortest longest : Nat} (h : max shortest 1 ≤ max longest 1)
    (width height : Nat) :
    (Capability.ofIntervalRange width height shortest longest).isInverted = false := by
  rw [← Bool.not_eq_true, isInverted_ofIntervalRange_iff, Nat.not_lt]
  exact Nat.div_le_div_left h (Nat.lt_of_lt_of_le Nat.one_pos (Nat.le_max_right shortest 1))

/-- **Selections that nothing bounds.** For all capabilities:

* The selection without a constraint and the one with the filter that was never bounded agree, unless the
  former is of a range with inverted ends, at a rate that the device does not offer.
* The filter selects what would be selected without a constraint if no such range was listed.
* Ends are inverted only in ranges: in one that is given by rates if the lower one is the greater, and in one
  that is given by intervals if the one that counts as the longest gives the higher rate. It does not if the
  intervals, with zero counted as one, are in order. -/
theorem unbounded_selections_agree (capabilities : List Capability) :
    (selectFormat capabilities unconstrained = selectFormat capabilities ({} : FormatFilter).best ∨
      ∃ capability ∈ capabilities, capability.isInverted = true ∧
        (∀ rate, ¬ capability.rates.Offers rate) ∧ ∃ rate,
          selectFormat capabilities unconstrained =
            .ok { width := capability.width, height := capability.height, framerate := rate }) ∧
    (∀ format, selectFormat capabilities ({} : FormatFilter).best = .ok format ↔
      selectFormat (capabilities.filter (!·.isInverted)) unconstrained = .ok format) ∧
    (∀ width height rates, ({ width, height, rates := .discrete rates } : Capability).isInverted = false) ∧
    (∀ width height intervals, (Capability.ofIntervals width height intervals).isInverted = false) ∧
    (∀ width height lowest highest,
      ({ width, height, rates := .range lowest highest } : Capability).isInverted = true ↔
        highest < lowest) ∧
    (∀ width height shortest longest,
      ((Capability.ofIntervalRange width height shortest longest).isInverted = true ↔
        10000000 / max shortest 1 < 10000000 / max longest 1) ∧
      (max shortest 1 ≤ max longest 1 →
        (Capability.ofIntervalRange width height shortest longest).isInverted = false)) := by
  refine ⟨?_, fun format => selectFormat_open_eq_ok_iff, fun _ _ _ => rfl, fun _ _ _ => rfl,
    fun _ _ _ _ => decide_eq_true_iff, fun width height shortest longest =>
      ⟨isInverted_ofIntervalRange_iff width height shortest longest,
        fun h => isInverted_ofIntervalRange_of_le h width height⟩⟩
  rcases selectFormat_unconstrained_cases capabilities with hsame | ⟨capability, hmem, hinverted, rate, -, h⟩
  · exact Or.inl hsame
  · exact Or.inr ⟨capability, hmem, hinverted, not_offers_of_isInverted hinverted, rate, h⟩

/-- Ranges by rates, by intervals in order and by the same intervals the wrong way round, of one size. Only the
last one is inverted, and it is passed over. -/
theorem unbounded_selections_agree_turned :
    let range : Capability := { width := 640, height := 480, rates := .range 5 10 }
    let ordered := Capability.ofIntervalRange 640 480 333333 666666
    let turned := Capability.ofIntervalRange 640 480 666666 333333
    max 333333 1 ≤ max 666666 1 ∧ ordered.isInverted = false ∧
      selectFormat [range, turned, ordered] ({} : FormatFilter).best =
        .ok { width := 640, height := 480, framerate := 30 } ∧
      selectFormat [range, ordered] unconstrained = .ok { width := 640, height := 480, framerate := 30 } := by
  intro range ordered turned
  obtain ⟨-, hfiltered, -, -, -, hintervals⟩ := unbounded_selections_agree [range, turned, ordered]
  have hselected : selectFormat [range, turned, ordered] ({} : FormatFilter).best =
      .ok { width := 640, height := 480, framerate := 30 } := by decide
  have hordered : max 333333 1 ≤ max 666666 1 := by decide
  exact ⟨hordered, (hintervals 640 480 333333 666666).2 hordered, hselected, (hfiltered _).mp hselected⟩

/-- A range with inverted ends, and one that has them from its intervals, of which the longest is zero. Without a
constraint their upper ends are selected, and with the filter nothing is. -/
theorem inverted_range_taken :
    let inverted : Capability := { width := 640, height := 480, rates := .range 30 15 }
    let zero := Capability.ofIntervalRange 640 480 333333 0
    (selectFormat [inverted] unconstrained = .ok { width := 640, height := 480, framerate := 15 } ∧
      selectFormat [inverted] ({} : FormatFilter).best = .error { candidates := 1 }) ∧
    (zero.rates = .range 10000000 30 ∧
      selectFormat [zero] unconstrained = .ok { width := 640, height := 480, framerate := 30 } ∧
      selectFormat [zero] ({} : FormatFilter).best = .error { candidates := 1 }) := by
  decide

end CamStream
