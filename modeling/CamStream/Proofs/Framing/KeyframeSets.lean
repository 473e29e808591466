import CamStream.Proofs.Framing.Runs

/-!
# Parameter sets in front of keyframes

A consumer can decode an IDR slice if it knows the pair that was cached when the slice went out.
The pair goes out with the first IDR slice of a session and with the first one after a parameter
set was accepted, so a consumer that remembers only the pair it was last given is never behind.

* `Logged.lastSent_eq`: in an opened session with no set pending, the consumer was last given the
  cached pair.
* `keyframes_decodable`: which units carry the pair, which pair they carry, and what the consumer
  knows at each IDR slice.
-/

namespace CamStream

namespace History

variable {history : History} {unit : NalUnit} {fate : Fate}

theorem lastSent_met :
    lastSent (.met unit fate :: history) =
      ((Event.met unit fate).sentSets?).or (lastSent history) := by
  cases h : (Event.met unit fate).sentSets? <;> simp [lastSent, session, h]

/-- A keyframe that goes out behind a pair tells the consumer that pair. -/
theorem lastSent_emitted {out : FramedUnit} {blob : Bytes}
    (hbytes : out.bytes = (if out.carriesSets then blob else []) ++ unit.bytes)
    (h : out.carriesSets = false → lastSent history = some blob) :
    lastSent (.met unit (.emitted out) :: history) = some blob := by
  rw [lastSent_met]
  cases hcarries : out.carriesSets with
  | false => simpa [Event.sentSets?, hcarries] using h hcarries
  | true => simp [Event.sentSets?, hbytes, hcarries]

end History

/-- The consumer is behind only before a session has opened, or while a set is pending. -/
theorem Logged.lastSent_eq {seed : ParameterSets} {history : History} {framer : Framer}
    (h : Logged seed history framer) (hopened : framer.opened = true)
    (hpending : framer.pending = false) :
    History.lastSent history = some framer.sets.toBlob := by
  induction h with
  | start limit => cases hopened
  | met _ step ih =>
    cases step with
    -- An accepted set leaves the consumer behind, but then it is pending.
    | cached changed hset hadmissible => cases hpending
    | refused refusal hset hadmissible =>
      rw [History.lastSent_met]
      exact ih hopened hpending
    | keyframe carries hidr hcarries =>
      refine History.lastSent_emitted rfl fun hno => ?_
      dsimp only at hno
      rw [hcarries, Bool.or_eq_false_iff, Bool.not_eq_false'] at hno
      exact ih hno.1 hno.2
    | forwarded hset hidr _ =>
      rw [History.lastSent_met]
      exact ih hopened hpending
    | withheld hset hidr hclosed =>
      rw [hopened] at hclosed
      cases hclosed
  | restarted _ ih => cases hopened
  | limited limit _ ih => exact ih hopened hpending

/-- A keyframe carries the pair if the session has not opened or a set was accepted since the last
keyframe. -/
theorem Tracks.carries_iff {seed : ParameterSets} {history : History} {framer : Framer}
    (h : Tracks seed history framer) :
    (!framer.opened || framer.pending) = true ↔
      history.opened = false ∨ history.setSinceKeyframe = true := by
  rw [← h.opened]
  cases hopened : framer.opened with
  | false => simp
  | true => simp [h.pending hopened]

/-- **Every keyframe can be decoded.** In every run of a framer, from any pair and with any store
or none:

* the cached pair is the latest accepted set of each kind, over all sessions;
* a parameter set is accepted exactly when it has 5 to 1024 bytes;
* every IDR slice goes out, and it carries the pair exactly when it is the first one of its session
  or a parameter set was accepted since the last one; what it carries is the pair cached then;
* once it is out, that pair is what the consumer was last given in this session;
* no other unit carries anything. -/
theorem keyframes_decodable {σ : Type} (keeper? : Option (Keeper (StateM σ)))
    (seed : ParameterSets) (tally : Tally) (calls : List FramerCall) (world : σ) :
    let log := ((({ framer := { sets := seed }, tally } : FramerLog).callAll keeper? calls).run
      world).1
    log.framer.sets = log.history.latestSets seed ∧
    ∀ unit fate before, .met unit fate :: before <:+ log.history →
      ((∃ changed, fate = .cached changed) ↔
        unit.kind.isParameterSet = true ∧ 5 ≤ unit.bytes.length ∧ unit.bytes.length ≤ 1024) ∧
      (unit.kind = .idrSlice → ∃ out, fate = .emitted out ∧
        (out.carriesSets = true ↔
          History.opened before = false ∨ History.setSinceKeyframe before = true) ∧
        out.bytes =
          (if out.carriesSets then
            History.latest .sps seed.sps before ++ History.latest .pps seed.pps before
          else []) ++ unit.bytes ∧
        History.lastSent (.met unit fate :: before) =
          some (History.latest .sps seed.sps before ++ History.latest .pps seed.pps before)) ∧
      (∀ out, fate = .emitted out → out.kind = unit.kind ∧
        (unit.kind ≠ .idrSlice → out.carriesSets = false ∧ out.bytes = unit.bytes)) := by
  intro log
  have hlogged : Logged seed log.history log.framer :=
    FramerLog.logged_callAll keeper? _ calls world (.start defaultUnitLimit)
  refine ⟨hlogged.tracks.sets, ?_⟩
  intro unit fate before hmem
  obtain ⟨framer, next, hbefore, hstep⟩ := hlogged.before hmem
  have htracks := hbefore.tracks
  refine ⟨hstep.cached_iff, ?_, ?_⟩
  · intro hidr
    obtain ⟨out, rfl⟩ := hstep.emitted_iff.mpr ⟨Outcome.not_set_of_idrSlice hidr, Or.inl hidr⟩
    obtain ⟨-, hbytes, hcarries⟩ := hstep.bytes_of_emitted
    rw [decide_eq_true hidr, Bool.true_and] at hcarries
    have hblob : framer.sets.toBlob =
        History.latest .sps seed.sps before ++ History.latest .pps seed.pps before := by
      rw [htracks.sets]
      rfl
    rw [hblob] at hbytes
    refine ⟨out, rfl, ?_, hbytes, History.lastSent_emitted hbytes fun hno => ?_⟩
    · rw [hcarries]
      exact htracks.carries_iff
    · rw [hcarries, Bool.or_eq_false_iff, Bool.not_eq_false'] at hno
      rw [hbefore.lastSent_eq hno.1 hno.2, hblob]
  · rintro out rfl
    obtain ⟨hkind, hbytes, hcarries⟩ := hstep.bytes_of_emitted
    refine ⟨hkind, fun hidr => ?_⟩
    rw [decide_eq_false hidr, Bool.false_and] at hcarries
    exact ⟨hcarries, by simpa [hcarries] using hbytes⟩

end CamStream
