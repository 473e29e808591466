import CamStream.Proofs.Outcome
import CamStream.Settings.Draft
import Mathlib.Data.List.DropRight

/-!
# What a draft is resolved to

A draft is resolved exactly if it meets four conditions (`SettingsDraft.Acceptable`), and otherwise
the first one that it violates is reported (`SettingsDraft.FirstFault`). The settings that come out
are the valid ones (`Settings.Valid`), no more and no fewer: written out as a draft
(`Settings.asDraft`), valid settings are resolved to themselves.

* `SettingsDraft.exists_resolve_iff`, `SettingsDraft.resolve_eq_error_iff`: which drafts are
  resolved, and what is reported of the others.
* `SettingsDraft.valid_of_resolve`: no gap is filled, and no number moved, to something invalid.
* `Settings.Valid.resolve_asDraft`: resolving changes nothing that is valid.
* `settings_resolved`: all this in one statement.
-/

namespace CamStream

/-! ## Texts without blanks at their ends -/

namespace Text

theorem trimChars_trimChars (chars : List Char) : trimChars (trimChars chars) = trimChars chars := by
  -- What is cut off at the end leaves the first character where it is, and that is no blank.
  have hfront : ((chars.dropWhile isBlank).rdropWhile isBlank).dropWhile isBlank =
      (chars.dropWhile isBlank).rdropWhile isBlank := by
    rw [List.dropWhile_eq_self_iff]
    intro hlength
    rw [(List.rdropWhile_prefix isBlank (chars.dropWhile isBlank)).getElem hlength]
    exact List.dropWhile_get_zero_not isBlank chars _
  change (((chars.dropWhile isBlank).rdropWhile isBlank).dropWhile isBlank).rdropWhile isBlank = _
  rw [hfront]
  exact List.rdropWhile_idempotent _ _

theorem trim_trim (text : String) : trim (trim text) = trim text := by
  rw [trim, trim, String.toList_ofList, trimChars_trimChars]

end Text

/-! ## Names of overflow policies -/

namespace Overflow

/-- A name as it is looked up: without blanks around it, its ASCII capitals in lower case. -/
def lookedUp (text : String) : String := Text.lowerAscii (Text.trim text)

/-- The names that stand for a policy. -/
def knownNames : List String := ["drop-oldest", "drop_oldest", "block"]

theorem exists_ofName_of_known {text : String} (h : lookedUp text ∈ knownNames) :
    ∃ overflow, ofName text = .ok overflow := by
  simp only [knownNames, lookedUp, List.mem_cons, List.not_mem_nil, or_false] at h
  rcases h with h | h | h <;> simp [ofName, h]

theorem ofName_of_not_known {text : String} (h : lookedUp text ∉ knownNames) :
    ofName text = .error { name := lookedUp text } := by
  simp only [knownNames, List.mem_cons, List.not_mem_nil, or_false, not_or] at h
  obtain ⟨hdash, hunderscore, hblock⟩ := h
  rw [lookedUp] at hdash hunderscore hblock
  simp [ofName, lookedUp, hdash, hunderscore, hblock]

theorem ofName_name (overflow : Overflow) : ofName overflow.name = .ok overflow := by
  cases overflow <;> decide

end Overflow

/-! ## What can be wrong with a draft -/

namespace SettingsDraft

variable {draft : SettingsDraft} {settings : Settings} {error : SettingsError}

/-- The version is left open, or the one that this library knows. -/
def KnowsVersion (draft : SettingsDraft) : Prop :=
  draft.version = 0 ∨ draft.version = settingsVersion

/-- The overflow policy is left open, or has a known name. -/
def KnowsOverflow (draft : SettingsDraft) : Prop :=
  ∀ name ∈ draft.overflow, Overflow.lookedUp name ∈ Overflow.knownNames

/-- The framerates are left open, or one of them is not zero. -/
def OffersRate (draft : SettingsDraft) : Prop :=
  ∀ framerates ∈ draft.framerates, ∃ rate ∈ framerates, rate ≠ 0

/-- No side of the picture is zero. -/
def HasSize (draft : SettingsDraft) : Prop := draft.width ≠ some 0 ∧ draft.height ≠ some 0

/-- Nothing is wrong with a draft. -/
structure Acceptable (draft : SettingsDraft) : Prop where
  version : draft.KnowsVersion
  overflow : draft.KnowsOverflow
  framerates : draft.OffersRate
  size : draft.HasSize

/-- What is reported of a draft: the first of its four faults. -/
inductive FirstFault (draft : SettingsDraft) : SettingsError → Prop
  | version (h : ¬ draft.KnowsVersion) : FirstFault draft (.unsupportedVersion draft.version)
  | overflow {name : String} (hversion : draft.KnowsVersion) (hname : draft.overflow = some name)
      (h : Overflow.lookedUp name ∉ Overflow.knownNames) :
      FirstFault draft (.invalid (.overflow { name := Overflow.lookedUp name }))
  | framerates (hversion : draft.KnowsVersion) (hoverflow : draft.KnowsOverflow)
      (h : ¬ draft.OffersRate) : FirstFault draft (.invalid .noFramerate)
  | size (hversion : draft.KnowsVersion) (hoverflow : draft.KnowsOverflow)
      (hrate : draft.OffersRate) (h : ¬ draft.HasSize) :
      FirstFault draft (.invalid (.emptySize (draft.width.getD 1920) (draft.height.getD 1080)))

theorem acceptable_or_firstFault (draft : SettingsDraft) :
    draft.Acceptable ∨ ∃ error, draft.FirstFault error := by
  by_cases hversion : draft.KnowsVersion
  swap
  · exact Or.inr ⟨_, .version hversion⟩
  by_cases hoverflow : draft.KnowsOverflow
  swap
  · simp only [KnowsOverflow, Option.mem_def, not_forall] at hoverflow
    obtain ⟨name, hname, hunknown⟩ := hoverflow
    exact Or.inr ⟨_, .overflow hversion hname hunknown⟩
  by_cases hrate : draft.OffersRate
  swap
  · exact Or.inr ⟨_, .framerates hversion hoverflow hrate⟩
  by_cases hsize : draft.HasSize
  · exact Or.inl ⟨hversion, hoverflow, hrate, hsize⟩
  · exact Or.inr ⟨_, .size hversion hoverflow hrate hsize⟩

/-! ## Part by part -/

theorem resolveVersion_of_known (h : draft.KnowsVersion) :
    draft.resolveVersion = .ok settingsVersion := by
  rcases h with h | h <;> simp [resolveVersion, h, settingsVersion]

theorem resolveVersion_of_not_known (h : ¬ draft.KnowsVersion) :
    draft.resolveVersion = .error (.unsupportedVersion draft.version) := by
  simp only [KnowsVersion, not_or] at h
  simp [resolveVersion, h.1, h.2]

theorem exists_resolveQueue (h : draft.KnowsOverflow) :
    ∃ queue, draft.resolveQueue = .ok queue := by
  cases hname : draft.overflow with
  | none => exact ⟨_, by rw [resolveQueue, hname]; rfl⟩
  | some name =>
    obtain ⟨overflow, hoverflow⟩ := Overflow.exists_ofName_of_known (h name hname)
    exact ⟨_, by simp only [resolveQueue, hname, hoverflow]; rfl⟩

theorem resolveQueue_of_not_known {name : String} (hname : draft.overflow = some name)
    (h : Overflow.lookedUp name ∉ Overflow.knownNames) :
    draft.resolveQueue = .error (.invalid (.overflow { name := Overflow.lookedUp name })) := by
  simp only [resolveQueue, hname, Overflow.ofName_of_not_known h]
  rfl

/-- The framerates of a draft that are not zero, in its order. -/
def rates (draft : SettingsDraft) : List Nat := (draft.framerates.getD [30]).filter (0 < ·)

theorem rates_eq_nil_iff : draft.rates = [] ↔ ¬ draft.OffersRate := by
  cases hframerates : draft.framerates <;> simp [rates, OffersRate, hframerates]

theorem map_filter_getD_eq_rates (draft : SettingsDraft) :
    (draft.framerates.map (·.filter (0 < ·))).getD [30] = draft.rates := by
  cases hframerates : draft.framerates <;> simp [rates, hframerates]

/-- The format of a replay, in the words of the conditions. -/
theorem resolveReplay_eq (draft : SettingsDraft) :
    draft.resolveReplay =
      if draft.rates = [] then .error (.invalid .noFramerate)
      else if draft.width.getD 1920 = 0 ∨ draft.height.getD 1080 = 0 then
        .error (.invalid (.emptySize (draft.width.getD 1920) (draft.height.getD 1080)))
      else .ok {
        width := draft.width.getD 1920
        height := draft.height.getD 1080
        framerates := draft.rates } := by
  simp only [resolveReplay, map_filter_getD_eq_rates, List.isEmpty_iff, Bool.or_eq_true,
    decide_eq_true_eq]
  split
  · rfl
  · split <;> rfl

theorem hasSize_iff :
    draft.HasSize ↔ ¬ (draft.width.getD 1920 = 0 ∨ draft.height.getD 1080 = 0) := by
  cases hwidth : draft.width <;> cases hheight : draft.height <;> simp [HasSize, hwidth, hheight]

theorem Acceptable.rates_ne_nil (h : draft.Acceptable) : draft.rates ≠ [] :=
  fun hnil => rates_eq_nil_iff.mp hnil h.framerates

theorem Acceptable.resolveReplay_eq (h : draft.Acceptable) :
    draft.resolveReplay = .ok {
      width := draft.width.getD 1920
      height := draft.height.getD 1080
      framerates := draft.rates } := by
  rw [SettingsDraft.resolveReplay_eq, if_neg h.rates_ne_nil, if_neg (hasSize_iff.mp h.size)]

/-! ## The whole draft -/

theorem resolve_eq_ok_iff :
    draft.resolve = .ok settings ↔
      ∃ version queue replay, draft.resolveVersion = .ok version ∧
        draft.resolveQueue = .ok queue ∧ draft.resolveReplay = .ok replay ∧
        { version, queue, replay
          device := draft.resolveDevice
          unitLimit := max (draft.unitLimit.getD defaultUnitLimit) 1
          persistence := draft.resolvePersistence
          smoothing := draft.resolveSmoothing } = settings := by
  simp only [resolve, bind_eq_ok_iff, pure, Except.pure, Except.ok.injEq, exists_and_left]

theorem exists_resolve_of_acceptable (h : draft.Acceptable) :
    ∃ settings, draft.resolve = .ok settings := by
  obtain ⟨queue, hqueue⟩ := exists_resolveQueue h.overflow
  exact ⟨_, resolve_eq_ok_iff.mpr
    ⟨_, queue, _, resolveVersion_of_known h.version, hqueue, h.resolveReplay_eq, rfl⟩⟩

theorem resolve_of_firstFault (h : draft.FirstFault error) : draft.resolve = .error error := by
  cases h with
  | version h => rw [resolve, resolveVersion_of_not_known h]; rfl
  | overflow hversion hname h =>
    rw [resolve, resolveVersion_of_known hversion, resolveQueue_of_not_known hname h]; rfl
  | framerates hversion hoverflow h =>
    obtain ⟨queue, hqueue⟩ := exists_resolveQueue hoverflow
    rw [resolve, resolveVersion_of_known hversion, hqueue, resolveReplay_eq,
      if_pos (rates_eq_nil_iff.mpr h)]
    rfl
  | size hversion hoverflow hrate h =>
    obtain ⟨queue, hqueue⟩ := exists_resolveQueue hoverflow
    rw [resolve, resolveVersion_of_known hversion, hqueue, resolveReplay_eq,
      if_neg (fun hnil => rates_eq_nil_iff.mp hnil hrate),
      if_pos (not_not.mp fun hno => h (hasSize_iff.mpr hno))]
    rfl

theorem exists_resolve_iff : (∃ settings, draft.resolve = .ok settings) ↔ draft.Acceptable := by
  refine ⟨fun ⟨settings, hok⟩ => ?_, exists_resolve_of_acceptable⟩
  rcases draft.acceptable_or_firstFault with hacceptable | ⟨error, hfault⟩
  · exact hacceptable
  · rw [resolve_of_firstFault hfault] at hok
    cases hok

theorem resolve_eq_error_iff : draft.resolve = .error error ↔ draft.FirstFault error := by
  refine ⟨fun herror => ?_, resolve_of_firstFault⟩
  rcases draft.acceptable_or_firstFault with hacceptable | ⟨other, hfault⟩
  · obtain ⟨settings, hok⟩ := exists_resolve_of_acceptable hacceptable
    rw [hok] at herror
    cases herror
  · rw [resolve_of_firstFault hfault] at herror
    cases herror
    exact hfault

end SettingsDraft

/-! ## Valid settings -/

namespace Settings

/-- What every part of the program relies on. -/
structure Valid (settings : Settings) : Prop where
  version : settings.version = settingsVersion
  device : settings.device ≠ ""
  trimmed : Text.trim settings.device = settings.device
  unitLimit : 1 ≤ settings.unitLimit
  directory : settings.persistence.directory ≠ some ⟨""⟩
  updateSlices : 1 ≤ settings.smoothing.updateSlices
  divisor : 1 ≤ settings.smoothing.divisor
  tolerance : 1 ≤ settings.smoothing.tolerance
  framerates : settings.replay.framerates ≠ []
  rates : ∀ rate ∈ settings.replay.framerates, 0 < rate
  width : 0 < settings.replay.width
  height : 0 < settings.replay.height

/-- Settings as a draft that leaves nothing open, except for a directory that is the one in the home
directory. -/
def asDraft (settings : Settings) : SettingsDraft where
  version := settings.version
  device := some settings.device
  unitLimit := some settings.unitLimit
  persistenceEnabled := some settings.persistence.enabled
  directory := settings.persistence.directory.map (·.text)
  background := some settings.persistence.background
  updateSlices := some settings.smoothing.updateSlices
  divisor := some settings.smoothing.divisor
  tolerance := some settings.smoothing.tolerance
  capacity := some settings.queue.capacity
  overflow := some settings.queue.overflow.name
  width := some settings.replay.width
  height := some settings.replay.height
  framerates := some settings.replay.framerates

end Settings

namespace SettingsDraft

variable {draft : SettingsDraft} {settings : Settings}

/-- The device is the default one, or the one given, with something left of it. -/
theorem resolveDevice_cases (draft : SettingsDraft) :
    draft.resolveDevice = defaultDevice ∨
      ∃ device ∈ draft.device, Text.trim device ≠ "" ∧ draft.resolveDevice = Text.trim device := by
  cases hdevice : draft.device with
  | none => exact Or.inl (by simp [resolveDevice, hdevice])
  | some device =>
    by_cases hblank : Text.trim device = ""
    · exact Or.inl (by simp [resolveDevice, hdevice, hblank, Option.filter_some])
    · exact Or.inr ⟨device, rfl, hblank, by
        simp [resolveDevice, hdevice, hblank, Option.filter_some]⟩

theorem resolveDevice_ne (draft : SettingsDraft) : draft.resolveDevice ≠ "" := by
  rcases draft.resolveDevice_cases with heq | ⟨device, -, hblank, heq⟩ <;> rw [heq]
  · decide
  · exact hblank

theorem trim_resolveDevice (draft : SettingsDraft) :
    Text.trim draft.resolveDevice = draft.resolveDevice := by
  rcases draft.resolveDevice_cases with heq | ⟨device, -, -, heq⟩ <;> rw [heq]
  · decide
  · exact Text.trim_trim device

theorem directory_resolvePersistence (draft : SettingsDraft) :
    draft.resolvePersistence.directory ≠ some ⟨""⟩ := by
  simp [resolvePersistence]

/-- Settings that a draft is resolved to are valid. -/
theorem valid_of_resolve (h : draft.resolve = .ok settings) : settings.Valid := by
  have hacceptable := exists_resolve_iff.mp ⟨settings, h⟩
  obtain ⟨version, queue, replay, hversion, -, hreplay, rfl⟩ := resolve_eq_ok_iff.mp h
  rw [resolveVersion_of_known hacceptable.version] at hversion
  rw [hacceptable.resolveReplay_eq] at hreplay
  cases hversion
  cases hreplay
  have hsize := hasSize_iff.mp hacceptable.size
  rw [not_or] at hsize
  exact {
    version := rfl
    device := draft.resolveDevice_ne
    trimmed := draft.trim_resolveDevice
    unitLimit := Nat.le_max_right _ _
    directory := draft.directory_resolvePersistence
    updateSlices := Nat.le_max_right _ _
    divisor := Nat.le_max_right _ _
    tolerance := Nat.le_max_right _ _
    framerates := hacceptable.rates_ne_nil
    rates := fun rate hrate => by simpa using (List.mem_filter.mp hrate).2
    width := Nat.pos_of_ne_zero hsize.1
    height := Nat.pos_of_ne_zero hsize.2 }

theorem framerates_of_resolve (h : draft.resolve = .ok settings) :
    settings.replay.framerates = draft.rates := by
  have hacceptable := exists_resolve_iff.mp ⟨settings, h⟩
  obtain ⟨version, queue, replay, -, -, hreplay, rfl⟩ := resolve_eq_ok_iff.mp h
  rw [hacceptable.resolveReplay_eq] at hreplay
  cases hreplay
  rfl

end SettingsDraft

namespace Settings

variable {settings : Settings}

theorem Valid.acceptable (h : settings.Valid) : settings.asDraft.Acceptable where
  version := Or.inr h.version
  overflow := by
    rintro _ ⟨⟩
    cases settings.queue.overflow <;> decide
  framerates := by
    rintro _ ⟨⟩
    obtain ⟨rate, hrate⟩ := List.exists_mem_of_ne_nil _ h.framerates
    exact ⟨rate, hrate, Nat.ne_of_gt (h.rates rate hrate)⟩
  size := ⟨by simpa [asDraft] using Nat.ne_of_gt h.width,
    by simpa [asDraft] using Nat.ne_of_gt h.height⟩

theorem Valid.rates_asDraft (h : settings.Valid) :
    settings.asDraft.rates = settings.replay.framerates :=
  List.filter_eq_self.mpr fun rate hrate => decide_eq_true (h.rates rate hrate)

theorem Valid.resolveDevice_asDraft (h : settings.Valid) :
    settings.asDraft.resolveDevice = settings.device := by
  simp [SettingsDraft.resolveDevice, asDraft, h.trimmed, h.device, Option.filter_some]

theorem Valid.resolvePersistence_asDraft (h : settings.Valid) :
    settings.asDraft.resolvePersistence = settings.persistence := by
  have hdirectory : ((settings.persistence.directory.map (·.text)).filter (· ≠ "")).map Path.mk =
      settings.persistence.directory := by
    cases hpath : settings.persistence.directory with
    | none => rfl
    | some path =>
      have hnamed : path.text ≠ "" := fun hempty =>
        h.directory (hpath.trans (congrArg (some ∘ Path.mk) hempty))
      simp [Option.filter_some, hnamed]
  simp only [SettingsDraft.resolvePersistence, asDraft, Option.getD_some, hdirectory]

theorem Valid.resolveSmoothing_asDraft (h : settings.Valid) :
    settings.asDraft.resolveSmoothing = settings.smoothing := by
  simp only [SettingsDraft.resolveSmoothing, asDraft, Option.getD_some, Smoothing.clamped,
    Nat.max_eq_left h.updateSlices, Nat.max_eq_left h.divisor, Nat.max_eq_left h.tolerance]

/-- Resolving changes nothing that is valid. -/
theorem Valid.resolve_asDraft (h : settings.Valid) : settings.asDraft.resolve = .ok settings := by
  have hqueue : settings.asDraft.resolveQueue = .ok settings.queue := by
    simp only [SettingsDraft.resolveQueue, asDraft, Overflow.ofName_name]
    rfl
  have hreplay : settings.asDraft.resolveReplay = .ok settings.replay := by
    rw [h.acceptable.resolveReplay_eq, h.rates_asDraft]
    rfl
  have hlimit : max settings.unitLimit 1 = settings.unitLimit := Nat.max_eq_left h.unitLimit
  refine SettingsDraft.resolve_eq_ok_iff.mpr ⟨_, _, _,
    SettingsDraft.resolveVersion_of_known h.acceptable.version, hqueue, hreplay, ?_⟩
  rw [h.resolveDevice_asDraft, h.resolvePersistence_asDraft, h.resolveSmoothing_asDraft, ← h.version]
  simp only [asDraft, Option.getD_some, hlimit]

theorem valid_iff : settings.Valid ↔ settings.asDraft.resolve = .ok settings :=
  ⟨fun h => h.resolve_asDraft, SettingsDraft.valid_of_resolve⟩

end Settings

/-- A draft that leaves everything open stands for the default settings. -/
theorem SettingsDraft.resolve_open : ({} : SettingsDraft).resolve = .ok {} := rfl

/-- **What drafts are resolved to.** For every draft:

* it is resolved exactly if its version is left open or the one that is known, its overflow policy is
  left open or has a known name (up to blanks around it and ASCII capitals), its framerates are left
  open or not all zero, and no side of the picture is zero;
* otherwise the first of these conditions that fails is the one that is reported;
* the settings that it is resolved to are valid, their framerates are those of the draft that are not
  zero, in order, and written out as a draft they are resolved to themselves;
* that is so for all valid settings, and for no others. -/
theorem settings_resolved (draft : SettingsDraft) :
    ((∃ settings, draft.resolve = .ok settings) ↔ draft.Acceptable) ∧
    (∀ error, draft.resolve = .error error ↔ draft.FirstFault error) ∧
    (∀ settings, draft.resolve = .ok settings →
      settings.Valid ∧ settings.replay.framerates = draft.rates ∧
        settings.asDraft.resolve = .ok settings) ∧
    ∀ settings : Settings, settings.Valid ↔ settings.asDraft.resolve = .ok settings := by
  refine ⟨SettingsDraft.exists_resolve_iff, fun error => SettingsDraft.resolve_eq_error_iff,
    fun settings hresolve => ?_, fun settings => Settings.valid_iff⟩
  have hvalid := SettingsDraft.valid_of_resolve hresolve
  exact ⟨hvalid, SettingsDraft.framerates_of_resolve hresolve, hvalid.resolve_asDraft⟩

-- Everything is wrong with this draft but its version.
example :
    let draft : SettingsDraft :=
      { overflow := some " Newest ", framerates := some [0], width := some 0 }
    draft.resolve = .error (.invalid (.overflow { name := "newest" })) := by decide

end CamStream
