import CamStream.CaptureFormat
import Mathlib.Data.List.MinMax
import Mathlib.Data.Prod.Lex

/-!
# The best format is selected

A constraint makes a format of every capability that it takes. The selection goes over these formats once
and keeps the better of two, the earlier one of equals. So it ends with the first of the best ones, where
formats are compared by the number of pixels and then by the framerate, which is the lexicographic order.

How the best ones are ranked does not depend on the order of the capabilities, which decides only among
formats of one rank.

* `foldl_keepBetter`: what is kept is the maximum of the list (`List.argmax`).
* `Wins`: the capability at an index is taken, in a format that no other one exceeds and no earlier one
  equals. There is one at most (`Wins.unique`), and it is selected (`selectFormat_eq_ok_iff`).
* `selectFormat_optimal`: both, and that the order of the capabilities does not matter.
-/

namespace CamStream

namespace CaptureFormat

/-- The rank in the order that formats are compared in. -/
def score (format : CaptureFormat) : Nat ×ₗ Nat := toLex format.rank

theorem isBetter_iff {format than : CaptureFormat} :
    format.isBetter than = true ↔ than.score < format.score := by
  simp only [isBetter, score, Prod.Lex.toLex_lt_toLex, Bool.or_eq_true, Bool.and_eq_true,
    decide_eq_true_eq]
  rw [eq_comm]

end CaptureFormat

/-! ## What is kept -/

theorem foldl_keepBetter (formats : List CaptureFormat) :
    formats.foldl keepBetter none = formats.argmax CaptureFormat.score := by
  have hstep : keepBetter =
      List.argAux fun candidate kept => kept.score < CaptureFormat.score candidate := by
    funext kept candidate
    cases kept with
    | none => rfl
    | some format =>
      simp only [keepBetter, List.argAux, CaptureFormat.isBetter_iff]
  rw [hstep]
  rfl

/-- A maximum of a list is the first one: what stands before it is smaller. -/
theorem exists_before_of_mem_argmax {α β : Type} [LinearOrder β] [DecidableEq α] {value : α → β}
    {list : List α} {best : α} (h : best ∈ list.argmax value) :
    ∃ before after, list = before ++ best :: after ∧ ∀ other ∈ before, value other < value best := by
  obtain ⟨hmem, -, hfirst⟩ := List.mem_argmax_iff.mp h
  obtain ⟨before, after, rfl, hbefore⟩ := List.eq_append_cons_of_mem hmem
  refine ⟨before, after, rfl, fun other hother => ?_⟩
  by_contra hle
  have hindex := hfirst other (List.mem_append_left _ hother) (not_lt.mp hle)
  rw [List.idxOf_append_of_notMem hbefore, List.idxOf_cons_self,
    List.idxOf_append_of_mem hother] at hindex
  have hless := List.idxOf_lt_length_of_mem hother
  omega

/-! ## The capability that wins -/

section Wins

variable {capabilities others : List Capability} {constraint : Constraint} {i j : Nat}
  {format other : CaptureFormat}

/-- The format that the constraint makes of the capability at an index. -/
def formatAt? (capabilities : List Capability) (constraint : Constraint) (i : Nat) :
    Option CaptureFormat :=
  capabilities[i]?.bind (CaptureFormat.ofCapability? constraint)

theorem formatAt?_eq_some_iff : formatAt? capabilities constraint i = some format ↔
    ∃ capability rate, capabilities[i]? = some capability ∧ constraint capability = some rate ∧
      format = { width := capability.width, height := capability.height, framerate := rate } := by
  simp only [formatAt?, CaptureFormat.ofCapability?, Option.bind_eq_some_iff, Option.map_eq_some_iff]
  constructor
  · rintro ⟨capability, hat, rate, hrate, rfl⟩
    exact ⟨capability, rate, hat, hrate, rfl⟩
  · rintro ⟨capability, rate, hat, hrate, rfl⟩
    exact ⟨capability, hat, rate, hrate, rfl⟩

/-- No format exceeds that of the capability at the index, and no earlier one equals it. -/
structure Wins (capabilities : List Capability) (constraint : Constraint) (i : Nat)
    (format : CaptureFormat) : Prop where
  taken : formatAt? capabilities constraint i = some format
  best : ∀ j other, formatAt? capabilities constraint j = some other → other.score ≤ format.score
  first : ∀ j < i, ∀ other, formatAt? capabilities constraint j = some other →
    other.score < format.score

theorem Wins.unique (h : Wins capabilities constraint i format)
    (hother : Wins capabilities constraint j other) : other = format := by
  rcases Nat.lt_trichotomy i j with hlt | rfl | hlt
  · exact absurd (h.best j other hother.taken) (not_le.mpr (hother.first i hlt format h.taken))
  · exact Option.some.inj (hother.taken.symm.trans h.taken)
  · exact absurd (hother.best i format h.taken) (not_le.mpr (h.first j hlt other hother.taken))

theorem mem_of_formatAt? (h : formatAt? capabilities constraint i = some format) :
    format ∈ capabilities.filterMap (CaptureFormat.ofCapability? constraint) := by
  obtain ⟨capability, hcapability, hformat⟩ := Option.bind_eq_some_iff.mp h
  exact List.mem_filterMap.mpr ⟨capability, List.mem_of_getElem? hcapability, hformat⟩

theorem exists_formatAt? (h : format ∈
      capabilities.filterMap (CaptureFormat.ofCapability? constraint)) :
    ∃ i, formatAt? capabilities constraint i = some format := by
  obtain ⟨capability, hmem, hformat⟩ := List.mem_filterMap.mp h
  obtain ⟨i, hi⟩ := List.mem_iff_getElem?.mp hmem
  exact ⟨i, Option.bind_eq_some_iff.mpr ⟨capability, hi, hformat⟩⟩

/-- The first maximum of the formats is that of a capability that wins. -/
theorem exists_wins (h : format ∈
      (capabilities.filterMap (CaptureFormat.ofCapability? constraint)).argmax CaptureFormat.score) :
    ∃ i, Wins capabilities constraint i format := by
  obtain ⟨before, after, hsplit, hbefore⟩ := exists_before_of_mem_argmax h
  obtain ⟨early, rest, hearly, rfl, hrest⟩ := List.filterMap_eq_append_iff.mp hsplit
  obtain ⟨rejected, capability, late, rfl, hrejected, htaken, -⟩ := List.filterMap_eq_cons_iff.mp hrest
  have hcapabilities : capabilities = (early ++ rejected) ++ capability :: late := by
    rw [hearly, List.append_assoc]
  refine ⟨(early ++ rejected).length, ?_, fun j other hother => ?_, fun j hj other hother => ?_⟩
  · rw [formatAt?, hcapabilities, List.getElem?_append_right (Nat.le_refl _), Nat.sub_self]
    exact htaken
  · exact List.le_of_mem_argmax (mem_of_formatAt? hother) h
  · obtain ⟨earlier, hat, hmade⟩ := Option.bind_eq_some_iff.mp hother
    rw [hcapabilities, List.getElem?_append_left hj] at hat
    rcases List.mem_append.mp (List.mem_of_getElem? hat) with hmem | hmem
    · exact hbefore other (List.mem_filterMap.mpr ⟨earlier, hmem, hmade⟩)
    · rw [hrejected earlier hmem] at hmade
      cases hmade

/-! ## The selection -/

theorem selectFormat_eq_ok_iff :
    selectFormat capabilities constraint = .ok format ↔ ∃ i, Wins capabilities constraint i format := by
  have hexists := @exists_wins capabilities constraint
  unfold selectFormat
  rw [foldl_keepBetter]
  split
  · rename_i selected hselected
    obtain ⟨k, hk⟩ := hexists hselected
    refine ⟨fun h => ?_, fun ⟨i, hi⟩ => ?_⟩
    · cases h
      exact ⟨k, hk⟩
    · rw [hi.unique hk]
  · rename_i hnone
    refine ⟨fun h => ?_, fun ⟨i, hi⟩ => ?_⟩
    · cases h
    · have hmem := mem_of_formatAt? hi.taken
      rw [List.argmax_eq_none.mp hnone] at hmem
      cases hmem

theorem selectFormat_eq_error_iff {failure : NoCompatibleFormat} :
    selectFormat capabilities constraint = .error failure ↔
      failure.candidates = capabilities.length ∧
        ∀ capability ∈ capabilities, constraint capability = none := by
  have hnone : (capabilities.filterMap (CaptureFormat.ofCapability? constraint)) = [] ↔
      ∀ capability ∈ capabilities, constraint capability = none := by
    simp only [List.filterMap_eq_nil_iff, CaptureFormat.ofCapability?, Option.map_eq_none_iff]
  rw [← hnone]
  unfold selectFormat
  rw [foldl_keepBetter, ← List.argmax_eq_none (f := CaptureFormat.score)]
  cases failure
  split
  · rename_i hselected
    simp [hselected]
  · rename_i hselected
    simp [hselected, eq_comm]

theorem exists_selectFormat_iff :
    (∃ format, selectFormat capabilities constraint = .ok format) ↔
      ∃ capability ∈ capabilities, constraint capability ≠ none := by
  cases hselect : selectFormat capabilities constraint with
  | ok format =>
    refine iff_of_true ⟨format, rfl⟩ ?_
    by_contra hrejected
    push Not at hrejected
    rw [selectFormat_eq_error_iff.mpr ⟨rfl, hrejected⟩] at hselect
    cases hselect
  | error failure =>
    obtain ⟨-, hrejected⟩ := selectFormat_eq_error_iff.mp hselect
    exact iff_of_false nofun fun ⟨capability, hmem, htaken⟩ => htaken (hrejected capability hmem)

/-- The order of the capabilities decides among formats of one rank only. -/
theorem rank_selectFormat_perm (h : others.Perm capabilities) :
    (selectFormat others constraint).map CaptureFormat.rank =
      (selectFormat capabilities constraint).map CaptureFormat.rank := by
  cases hselected : selectFormat capabilities constraint with
  | error failure =>
    obtain ⟨hcount, hrejected⟩ := selectFormat_eq_error_iff.mp hselected
    have hothers : selectFormat others constraint = .error failure :=
      selectFormat_eq_error_iff.mpr ⟨hcount.trans h.length_eq.symm,
        fun capability hmem => hrejected capability (h.mem_iff.mp hmem)⟩
    rw [hothers]
  | ok format =>
    obtain ⟨i, hi⟩ := selectFormat_eq_ok_iff.mp hselected
    cases hother : selectFormat others constraint with
    | error failure =>
      obtain ⟨-, hrejected⟩ := selectFormat_eq_error_iff.mp hother
      have hnone : selectFormat capabilities constraint = .error { candidates := capabilities.length } :=
        selectFormat_eq_error_iff.mpr ⟨rfl, fun capability hmem =>
          hrejected capability (h.mem_iff.mpr hmem)⟩
      rw [hselected] at hnone
      cases hnone
    | ok other =>
      obtain ⟨j, hj⟩ := selectFormat_eq_ok_iff.mp hother
      -- Either format is made of a capability of both lists, so neither exceeds the other.
      have hformats := h.filterMap (CaptureFormat.ofCapability? constraint)
      obtain ⟨k, hk⟩ := exists_formatAt? (hformats.mem_iff.mp (mem_of_formatAt? hj.taken))
      obtain ⟨l, hl⟩ := exists_formatAt? (hformats.mem_iff.mpr (mem_of_formatAt? hi.taken))
      have hscore : other.score = format.score := le_antisymm (hi.best k other hk) (hj.best l format hl)
      exact congrArg Except.ok (toLex.injective hscore)

end Wins

/-- A 64-bit word holds the product of two 32-bit sizes. -/
theorem resolution_ofWords (width height : UInt32) (rates : FrameRates) :
    (width.toUInt64 * height.toUInt64).toNat =
      ({ width := width.toNat, height := height.toNat, rates } : Capability).resolution := by
  have hproduct : width.toNat * height.toNat ≤ (2 ^ 32 - 1) * (2 ^ 32 - 1) :=
    Nat.mul_le_mul (Nat.le_sub_one_of_lt width.toNat_lt) (Nat.le_sub_one_of_lt height.toNat_lt)
  rw [UInt64.toNat_mul, UInt32.toNat_toUInt64, UInt32.toNat_toUInt64, Nat.mod_eq_of_lt (by omega)]
  rfl

/-- **The best format is selected.** For every list of capabilities and every constraint:

* The selection fails exactly if the constraint takes none of the capabilities, and tells how many there
  were.
* Otherwise it gives the size of a capability with the framerate at which the constraint takes it, such
  that no capability that is taken ranks higher by number of pixels and then framerate, and each one before
  it ranks lower. There is only one such format.
* The numbers of pixels are exact: sizes of 32 bits are multiplied without loss in 64 bits.
* In whatever order the capabilities are listed, a format of the same rank is selected, or none. -/
theorem selectFormat_optimal (capabilities : List Capability) (constraint : Constraint) :
    (∀ failure, selectFormat capabilities constraint = .error failure ↔
      failure.candidates = capabilities.length ∧
        ∀ capability ∈ capabilities, constraint capability = none) ∧
    (∀ format, selectFormat capabilities constraint = .ok format ↔
      ∃ (i : Nat) (capability : Capability) (rate : Nat),
        capabilities[i]? = some capability ∧ constraint capability = some rate ∧
        format = { width := capability.width, height := capability.height, framerate := rate } ∧
        ∀ (j : Nat) (other : Capability) (otherRate : Nat),
          capabilities[j]? = some other → constraint other = some otherRate →
          toLex (other.resolution, otherRate) ≤ toLex (capability.resolution, rate) ∧
          (j < i → toLex (other.resolution, otherRate) < toLex (capability.resolution, rate))) ∧
    (∀ (width height : UInt32) (rates : FrameRates), (width.toUInt64 * height.toUInt64).toNat =
      ({ width := width.toNat, height := height.toNat, rates } : Capability).resolution) ∧
    ∀ others, others.Perm capabilities →
      (selectFormat others constraint).map CaptureFormat.rank =
        (selectFormat capabilities constraint).map CaptureFormat.rank := by
  refine ⟨fun failure => selectFormat_eq_error_iff, fun format => ?_, resolution_ofWords,
    fun others h => rank_selectFormat_perm h⟩
  rw [selectFormat_eq_ok_iff]
  constructor
  · rintro ⟨i, hi⟩
    obtain ⟨capability, rate, hat, hrate, rfl⟩ := formatAt?_eq_some_iff.mp hi.taken
    refine ⟨i, capability, rate, hat, hrate, rfl, fun j other otherRate hother hotherRate => ?_⟩
    have hmade := formatAt?_eq_some_iff.mpr ⟨other, otherRate, hother, hotherRate, rfl⟩
    exact ⟨hi.best j _ hmade, fun hj => hi.first j hj _ hmade⟩
  · rintro ⟨i, capability, rate, hat, hrate, rfl, hothers⟩
    refine ⟨i, formatAt?_eq_some_iff.mpr ⟨capability, rate, hat, hrate, rfl⟩, ?_, ?_⟩
    · intro j _ hmade
      obtain ⟨other, otherRate, hother, hotherRate, rfl⟩ := formatAt?_eq_some_iff.mp hmade
      exact (hothers j other otherRate hother hotherRate).1
    · intro j hj _ hmade
      obtain ⟨other, otherRate, hother, hotherRate, rfl⟩ := formatAt?_eq_some_iff.mp hmade
      exact (hothers j other otherRate hother hotherRate).2 hj

/-- Three shapes of the same number of pixels, more than 32 bits hold, behind a larger one that is not taken.
The highest framerate wins, and the order decides the shape but not the rank. -/
theorem selectFormat_optimal_shapes :
    let wide : Capability := { width := 4294967294, height := 3, rates := .discrete [25, 30, 90] }
    let tall : Capability := { width := 3, height := 4294967294, rates := .range 5 60 }
    let flat : Capability := { width := 2147483647, height := 6, rates := .range 5 61 }
    let huge : Capability := { width := 4294967295, height := 4294967295, rates := .discrete [120] }
    let constraint := (FormatFilter.framerateBetween {} 1 60).best
    let capabilities := [huge, wide, tall, flat]
    let others := [flat, tall, huge, wide]
    others.Perm capabilities ∧
      selectFormat capabilities constraint = .ok { width := 3, height := 4294967294, framerate := 60 } ∧
      selectFormat others constraint = .ok { width := 2147483647, height := 6, framerate := 60 } ∧
      (selectFormat others constraint).map CaptureFormat.rank =
        (selectFormat capabilities constraint).map CaptureFormat.rank := by
  intro wide tall flat huge constraint capabilities others
  have hperm : others.Perm capabilities := by decide
  obtain ⟨-, -, -, hrank⟩ := selectFormat_optimal capabilities constraint
  exact ⟨hperm, by decide, by decide, hrank others hperm⟩

end CamStream
