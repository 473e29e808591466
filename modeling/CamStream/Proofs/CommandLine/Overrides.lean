import CamStream.CommandLine.Replay
import CamStream.Proofs.CommandLine.Reading
import CamStream.Proofs.Format.Filter
import CamStream.Proofs.Settings.Resolution

/-!
# Arguments over settings

The settings in force are those of a draft that could be resolved, with what the arguments say put in
their place afterwards. Of that only the directory has been checked, so a device, a framerate or a
picture size that a draft would have been turned down for, or that would have been replaced, gets
through (`empty_picture_accepted`). A framerate of zero ends in no format; nothing else does.

* `ReplayCommand.exists_resolve_of_readSettings`: where the settings in force come from.
* `Arguments.Sound.valid_override_iff`: when they are valid.
* `Arguments.exists_format_iff`, `ReplayCommand.exists_format`: when a replay gets a format.
* `overridden_settings_valid_iff`: all this for arguments as they are given.
-/

namespace CamStream

/-! ## Where settings come from -/

namespace Settings

variable {settings : Settings}

theorem exists_resolve_iff_valid :
    (∃ draft : SettingsDraft, draft.resolve = .ok settings) ↔ settings.Valid :=
  ⟨fun ⟨_, h⟩ => SettingsDraft.valid_of_resolve h, fun h => ⟨_, h.resolve_asDraft⟩⟩

theorem exists_resolve_of_ofFile {path : Path} {contents : Except FileError Bytes}
    (h : ofFile path contents = .ok settings) :
    ∃ draft : SettingsDraft, draft.resolve = .ok settings := by
  unfold ofFile at h
  split at h
  · cases h
  · split at h
    · cases h
    · unfold ofToml at h
      split at h
      · cases h
        exact ⟨_, SettingsDraft.resolve_open⟩
      · split at h
        · exact ⟨_, h⟩
        · cases h

end Settings

theorem ReplayCommand.exists_resolve_of_readSettings {arguments : Arguments} {settings : Settings}
    {files after : FileSystem}
    (h : (readSettings arguments).run.run files = (.ok settings, after)) :
    ∃ draft base, SettingsDraft.resolve draft = .ok base ∧ settings = arguments.override base := by
  unfold readSettings at h
  cases hpath : arguments.settings with
  | none =>
    rw [hpath] at h
    cases h
    exact ⟨_, _, SettingsDraft.resolve_open, rfl⟩
  | some path =>
    rw [hpath] at h
    obtain ⟨contents, read, -, h⟩ := Script.run_fallible_bind_eq_ok_iff.mp h
    cases hfile : Settings.ofFile path contents with
    | error error =>
      rw [hfile] at h
      cases h
    | ok base =>
      rw [hfile] at h
      cases h
      obtain ⟨draft, hdraft⟩ := Settings.exists_resolve_of_ofFile hfile
      exact ⟨draft, base, hdraft, rfl⟩

/-! ## What is put in their place -/

namespace Arguments

variable {arguments : Arguments} {settings : Settings} {rate : Nat}

theorem mem_framerates_override :
    rate ∈ (arguments.override settings).replay.framerates ↔
      rate ∈ settings.replay.framerates ∨ arguments.framerate = some rate := by
  cases hframerate : arguments.framerate with
  | none => simp [override, hframerate]
  | some asked =>
    simp only [override, hframerate, Option.some.injEq]
    split
    · rename_i hthere
      refine ⟨Or.inl, fun h => h.elim id ?_⟩
      rintro rfl
      exact List.contains_iff_mem.mp hthere
    · rw [List.mem_append, List.mem_singleton, eq_comm]

theorem positive_rates_override_iff (h : ∀ rate ∈ settings.replay.framerates, 0 < rate) :
    (∀ rate ∈ (arguments.override settings).replay.framerates, 0 < rate) ↔
      arguments.framerate ≠ some 0 := by
  constructor
  · intro hpositive hzero
    exact Nat.lt_irrefl 0 (hpositive 0 (mem_framerates_override.mpr (Or.inr hzero)))
  · intro hnonzero rate hrate
    rcases mem_framerates_override.mp hrate with hoffered | hasked
    · exact h rate hoffered
    · exact Nat.pos_of_ne_zero fun hzero => hnonzero (hzero ▸ hasked)

theorem framerates_override_ne_nil (h : settings.replay.framerates ≠ []) :
    (arguments.override settings).replay.framerates ≠ [] := by
  obtain ⟨rate, hrate⟩ := List.exists_mem_of_ne_nil _ h
  exact List.ne_nil_of_mem (mem_framerates_override.mpr (Or.inl hrate))

/-- A number that may be left open is positive unless it is given as zero. -/
theorem getD_pos_iff {given? : Option Nat} {default : Nat} (h : 0 < default) :
    0 < given?.getD default ↔ given? ≠ some 0 := by
  cases given? <;> simp [h, Nat.pos_iff_ne_zero]

theorem Sound.size_override (h : arguments.Sound) (settings : Settings) :
    (arguments.override settings).replay.width = arguments.width.getD settings.replay.width ∧
      (arguments.override settings).replay.height =
        arguments.height.getD settings.replay.height := by
  have hsize := h.size
  -- A width alone would be passed over.
  cases hwidth : arguments.width <;> cases hheight : arguments.height <;>
    simp only [hwidth, hheight, Option.isSome_some, Option.isSome_none, Bool.false_eq_true,
      Bool.true_eq_false] at hsize <;>
    simp only [override, hwidth, hheight, Option.getD_none, Option.getD_some, and_self]

theorem Sound.directory_override (h : arguments.Sound)
    (hsettings : settings.persistence.directory ≠ some ⟨""⟩) :
    (arguments.override settings).persistence.directory ≠ some ⟨""⟩ := by
  cases hgiven : arguments.storeDirectory with
  | none => simpa [override, hgiven] using hsettings
  | some directory => simpa [override, hgiven] using h.directory

theorem Sound.valid_override_iff (h : arguments.Sound) (hsettings : settings.Valid) :
    (arguments.override settings).Valid ↔
      (∀ device ∈ arguments.device, Text.trim device = device ∧ device ≠ "") ∧
        arguments.framerate ≠ some 0 ∧ arguments.width ≠ some 0 ∧ arguments.height ≠ some 0 := by
  obtain ⟨hwidth, hheight⟩ := h.size_override settings
  constructor
  · intro hvalid
    refine ⟨fun device hdevice => ?_, (positive_rates_override_iff hsettings.rates).mp hvalid.rates,
      (getD_pos_iff hsettings.width).mp (hwidth ▸ hvalid.width),
      (getD_pos_iff hsettings.height).mp (hheight ▸ hvalid.height)⟩
    have hput : (arguments.override settings).device = device := by
      rw [override, Option.mem_def.mp hdevice, Option.getD_some]
    exact ⟨hput ▸ hvalid.trimmed, hput ▸ hvalid.device⟩
  · rintro ⟨hdevice, hrate, hnarrow, hflat⟩
    have hnamed : Text.trim (arguments.override settings).device =
        (arguments.override settings).device ∧ (arguments.override settings).device ≠ "" := by
      rw [override]
      cases hgiven : arguments.device with
      | none => exact ⟨hsettings.trimmed, hsettings.device⟩
      | some device => exact hdevice device hgiven
    exact {
      version := hsettings.version
      device := hnamed.2
      trimmed := hnamed.1
      unitLimit := hsettings.unitLimit
      directory := h.directory_override hsettings.directory
      updateSlices := hsettings.updateSlices
      divisor := hsettings.divisor
      tolerance := hsettings.tolerance
      framerates := framerates_override_ne_nil hsettings.framerates
      rates := (positive_rates_override_iff hsettings.rates).mpr hrate
      width := hwidth ▸ (getD_pos_iff hsettings.width).mpr hnarrow
      height := hheight ▸ (getD_pos_iff hsettings.height).mpr hflat }

/-! ## The format -/

theorem allows_constraint_iff :
    Allows arguments.constraint.framerate rate ↔ ∀ asked ∈ arguments.framerate, asked = rate := by
  unfold constraint
  cases arguments.framerate with
  | none => simp [Allows]
  | some asked =>
    simp only [FormatFilter.onlyFramerate, Allows, Bounds.only, Option.mem_some_iff, forall_eq']
    omega

theorem allowsSize_constraint (arguments : Arguments) (capability : Capability) :
    arguments.constraint.AllowsSize capability := by
  unfold constraint
  split <;> exact ⟨nofun, nofun⟩

/-- A replay gets a format unless a framerate of zero is asked for: the one that is asked for is among
those that are offered, and is accepted if it is positive. -/
theorem exists_format_iff (h : settings.Valid) :
    (∃ format, selectFormat [(arguments.override settings).replay.capability]
      arguments.constraint.best = .ok format) ↔ arguments.framerate ≠ some 0 := by
  have hrates : (∃ format, selectFormat [(arguments.override settings).replay.capability]
      arguments.constraint.best = .ok format) ↔
      ∃ rate, 0 < rate ∧ (rate ∈ settings.replay.framerates ∨ arguments.framerate = some rate) ∧
        ∀ asked ∈ arguments.framerate, asked = rate := by
    rw [exists_selectFormat_iff]
    simp only [List.mem_singleton, exists_eq_left, ne_eq, FormatFilter.best_eq_none_iff, not_or,
      not_not, allowsSize_constraint, true_and, not_forall]
    refine exists_congr fun rate => ?_
    rw [← mem_framerates_override, ← allows_constraint_iff]
    rfl
  rw [hrates]
  cases hframerate : arguments.framerate with
  | none =>
    obtain ⟨rate, hrate⟩ := List.exists_mem_of_ne_nil _ h.framerates
    exact iff_of_true ⟨rate, h.rates rate hrate, Or.inl hrate, nofun⟩ nofun
  | some asked =>
    constructor
    · rintro ⟨rate, hpositive, -, hasked⟩ ⟨⟩
      rw [← hasked 0 rfl] at hpositive
      exact Nat.lt_irrefl 0 hpositive
    · intro hnonzero
      refine ⟨asked, Nat.pos_of_ne_zero fun hzero => hnonzero (congrArg some hzero), Or.inr rfl, ?_⟩
      rintro _ ⟨⟩
      rfl

end Arguments

/-- A replay gets a format, whatever the settings say. -/
theorem ReplayCommand.exists_format {arguments : Arguments} {settings : Settings}
    {files : FileSystem} (hrate : arguments.framerate ≠ some 0)
    (h : (readSettings arguments).run.run files = (.ok settings, files)) :
    ∃ format, selectFormat [settings.replay.capability] arguments.constraint.best = .ok format := by
  obtain ⟨draft, base, hdraft, rfl⟩ := exists_resolve_of_readSettings h
  exact (Arguments.exists_format_iff (SettingsDraft.valid_of_resolve hdraft)).mpr hrate

/-! ## Settings that no draft would have given -/

/-- **What arguments do to settings.** For arguments that have been read, the settings in force, if
there are any, are some that a draft was resolved to, with the arguments put over them. And for all
settings that a draft is resolved to, with `settings` for what the arguments make of them:

* the directory is not an empty one, and some framerate is offered;
* the device is not blank exactly if no blank one is given;
* no framerate is zero exactly if none of zero is asked for;
* no side of the picture is zero exactly if none is given as zero;
* there is a draft for just these settings exactly if nothing of that is given, nor a device with
  blanks around it;
* a replay goes on with them, in a format, exactly if no framerate of zero is asked for, and so with
  a blank device and an empty picture too. -/
theorem overridden_settings_valid_iff {texts : List String} {arguments : Arguments}
    (hread : Command.ofArguments texts = .ok (.replay arguments)) :
    (∀ files settings after,
      (ReplayCommand.readSettings arguments).run.run files = (.ok settings, after) →
        ∃ draft base, SettingsDraft.resolve draft = .ok base ∧
          settings = arguments.override base) ∧
    ∀ draft base, SettingsDraft.resolve draft = .ok base →
      let settings := arguments.override base
      settings.persistence.directory ≠ some ⟨""⟩ ∧ settings.replay.framerates ≠ [] ∧
      (Text.trim settings.device ≠ "" ↔ ∀ device ∈ arguments.device, Text.trim device ≠ "") ∧
      ((∀ rate ∈ settings.replay.framerates, 0 < rate) ↔ arguments.framerate ≠ some 0) ∧
      (0 < settings.replay.width ∧ 0 < settings.replay.height ↔
        arguments.width ≠ some 0 ∧ arguments.height ≠ some 0) ∧
      ((∃ other, SettingsDraft.resolve other = .ok settings) ↔
        (∀ device ∈ arguments.device, Text.trim device = device ∧ device ≠ "") ∧
          arguments.framerate ≠ some 0 ∧ arguments.width ≠ some 0 ∧ arguments.height ≠ some 0) ∧
      ((∃ format, selectFormat [settings.replay.capability] arguments.constraint.best = .ok format) ↔
        arguments.framerate ≠ some 0) := by
  have hsound := Arguments.sound_of_ofArguments hread
  refine ⟨fun files settings after => ReplayCommand.exists_resolve_of_readSettings,
    fun draft base hbase => ?_⟩
  have hvalid := SettingsDraft.valid_of_resolve hbase
  obtain ⟨hwidth, hheight⟩ := hsound.size_override base
  refine ⟨hsound.directory_override hvalid.directory,
    Arguments.framerates_override_ne_nil hvalid.framerates, ?_,
    Arguments.positive_rates_override_iff hvalid.rates, ?_,
    Settings.exists_resolve_iff_valid.trans (hsound.valid_override_iff hvalid),
    Arguments.exists_format_iff hvalid⟩
  · rw [Arguments.override]
    cases arguments.device with
    | none =>
      refine iff_of_true ?_ nofun
      rw [Option.getD_none, hvalid.trimmed]
      exact hvalid.device
    | some device => simp
  · rw [hwidth, hheight, Arguments.getD_pos_iff hvalid.width, Arguments.getD_pos_iff hvalid.height]

/-- A blank device goes through, and an empty picture with it. -/
theorem overridden_settings_valid_iff_blank :
    let texts := ["--input", "in.h264", "--device", " ", "--width", "640", "--height", "0"]
    let arguments : Arguments :=
      { input := ⟨"in.h264"⟩, device := some " ", width := some 640, height := some 0 }
    let files := FileSystem.emptyWorkspace.1
    let settings := arguments.override {}
    Command.ofArguments texts = .ok (.replay arguments) ∧
    (ReplayCommand.readSettings arguments).run.run files = (.ok settings, files) ∧
    ({} : SettingsDraft).resolve = .ok {} ∧
    (∃ draft base, SettingsDraft.resolve draft = .ok base ∧ settings = arguments.override base) ∧
    Text.trim settings.device = "" ∧ (∀ rate ∈ settings.replay.framerates, 0 < rate) ∧
    ¬ (0 < settings.replay.width ∧ 0 < settings.replay.height) ∧
    (¬ ∃ other, SettingsDraft.resolve other = .ok settings) ∧
    ∃ format, selectFormat [settings.replay.capability] arguments.constraint.best = .ok format := by
  intro texts arguments files settings
  have hread : Command.ofArguments texts = .ok (.replay arguments) := by
    decide +kernel
  have hsettings : (ReplayCommand.readSettings arguments).run.run files = (.ok settings, files) := rfl
  have hbase : ({} : SettingsDraft).resolve = .ok {} := rfl
  obtain ⟨hfrom, hover⟩ := overridden_settings_valid_iff hread
  obtain ⟨-, -, hdevice, hrates, hsize, hdraft, hformat⟩ := hover {} {} hbase
  refine ⟨hread, hsettings, hbase, hfrom files settings files hsettings, ?_, hrates.mpr nofun, ?_, ?_,
    hformat.mpr nofun⟩
  · by_contra hnamed
    exact hdevice.mp hnamed " " rfl (by decide)
  · exact fun hpositive => (hsize.mp hpositive).2 rfl
  · exact fun hother => (hdraft.mp hother).2.2.2 rfl

/-- A picture without a pixel, which a draft is turned down for, can be asked for by arguments, and a
replay goes on with it. -/
theorem empty_picture_accepted :
    let texts := ["--input", "in.h264", "--width", "0", "--height", "0"]
    let arguments : Arguments := { input := ⟨"in.h264"⟩, width := some 0, height := some 0 }
    let files := FileSystem.emptyWorkspace.1
    let settings := arguments.override {}
    Command.ofArguments texts = .ok (.replay arguments) ∧
    (ReplayCommand.readSettings arguments).run.run files = (.ok settings, files) ∧
    ¬ (0 < settings.replay.width ∧ 0 < settings.replay.height) ∧
    settings.asDraft.resolve = .error (.invalid (.emptySize 0 0)) ∧
    selectFormat [settings.replay.capability] arguments.constraint.best =
      .ok { width := 0, height := 0, framerate := 30 } := by
  refine ⟨by decide +kernel, rfl, ?_, ?_, ?_⟩ <;> decide

end CamStream
