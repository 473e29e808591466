import CamStream.Proofs.Store.RoundTrip

/-!
# The cached pair is always valid

What makes a parameter set is checked in different places: the scan finds its start code, its header sorts
it into its place, and its length is checked when it is put there. A pair from a store passes through the
same three, and if one of its sets fails the last, neither is taken. So both cached sets are what they
should be at any time, whatever was in the store and in the frames.

* `ParameterSets.orBuiltIn_eq_setBoth`: taking over one set after the other, and neither if one is refused.
* `ParameterSets.Valid`: a pair of sets in their places. The pair to start with is valid
  (`ParameterSets.valid_ofAnswer`), and then so is the latest accepted one (`History.valid_latestSets`).
* `cached_pair_valid`: where the pair to start with comes from, and what the cached pair is after every run.
-/

namespace CamStream

namespace ParameterSets

variable {sets stored : ParameterSets}

/-! ## The pair to start with -/

/-- The built-in sets are replaced one after the other. If one is refused, both are put back. -/
theorem orBuiltIn_eq_setBoth (stored : ParameterSets) :
    stored.orBuiltIn =
      ((builtIn.setSps stored.sps).bind (·.setPps stored.pps)).toOption.getD builtIn := by
  unfold orBuiltIn
  cases hsps : builtIn.setSps stored.sps with
  | error refusal =>
    rw [if_neg]
    · rfl
    · rintro ⟨hadmissible, -⟩
      cases hsps.symm.trans (setSps_eq_ok_iff.mpr ⟨hadmissible, rfl⟩)
  | ok sets =>
    obtain ⟨hadmissible, rfl⟩ := setSps_eq_ok_iff.mp hsps
    dsimp only [Except.bind]
    cases hpps : ParameterSets.setPps { builtIn with sps := stored.sps } stored.pps with
    | error refusal =>
      rw [if_neg]
      · rfl
      · rintro ⟨-, hadmissible'⟩
        cases hpps.symm.trans (setPps_eq_ok_iff.mpr ⟨hadmissible', rfl⟩)
    | ok sets =>
      obtain ⟨hadmissible', rfl⟩ := setPps_eq_ok_iff.mp hpps
      exact if_pos ⟨hadmissible, hadmissible'⟩

/-- Never one set of each, unless it is the same in both pairs. -/
theorem orBuiltIn_not_mixed
    (h : stored.orBuiltIn.sps = stored.sps ∧ stored.orBuiltIn.pps = builtIn.pps ∨
      stored.orBuiltIn.sps = builtIn.sps ∧ stored.orBuiltIn.pps = stored.pps) :
    stored.sps = builtIn.sps ∨ stored.pps = builtIn.pps := by
  unfold orBuiltIn at h
  split at h
  · exact h.elim (fun hmixed => Or.inr hmixed.2) fun hmixed => Or.inl hmixed.1
  · exact h.elim (fun hmixed => Or.inl hmixed.1.symm) fun hmixed => Or.inr hmixed.2.symm

/-! ## Valid pairs -/

/-- A unit that can be cached as a parameter set of a kind. -/
structure SetUnit (kind : NalKind) (unit : Bytes) : Prop where
  begins : startCode <+: unit
  number : NalKind.headerNumber (unit.getD startCode.length 0) = kind.number
  length : Admissible unit

/-- Both sets are what they should be. -/
structure Valid (sets : ParameterSets) : Prop where
  sps : SetUnit .sps sets.sps
  pps : SetUnit .pps sets.pps

theorem setUnit_of_scanned {kind : NalKind} {unit : Bytes} (h : Scanned kind unit)
    (hlength : Admissible unit) : SetUnit kind unit := by
  obtain ⟨header, body, rfl, rfl, -⟩ := h
  exact ⟨List.prefix_append _ _, (NalKind.number_ofHeader header).symm, hlength⟩

theorem valid_builtIn : builtIn.Valid where
  sps := setUnit_of_scanned whole_builtIn.sps.scanned keepable_builtIn.sps
  pps := setUnit_of_scanned whole_builtIn.pps.scanned keepable_builtIn.pps

/-- The sets that a blob is led by were scanned. -/
theorem Leads.scanned {blob : Bytes} (h : sets.Leads blob) :
    Scanned .sps sets.sps ∧ Scanned .pps sets.pps := by
  have hscanned : ∀ pair ∈ ((scanAll blob).take 2).map fun unit => (unit.kind, unit.bytes),
      Scanned pair.1 pair.2 := by
    intro pair hpair
    obtain ⟨unit, hunit, rfl⟩ := List.mem_map.mp hpair
    exact scanned_of_mem_scan (List.mem_of_mem_take hunit)
  rcases h with h | h
  · rw [h] at hscanned
    exact ⟨hscanned (.sps, sets.sps) (by simp), hscanned (.pps, sets.pps) (by simp)⟩
  · rw [h] at hscanned
    exact ⟨hscanned (.sps, sets.sps) (by simp), hscanned (.pps, sets.pps) (by simp)⟩

theorem Leads.valid_orBuiltIn {blob : Bytes} (h : sets.Leads blob) : sets.orBuiltIn.Valid := by
  obtain ⟨hsps, hpps⟩ := h.scanned
  unfold orBuiltIn
  split
  · rename_i hadmissible
    exact ⟨setUnit_of_scanned hsps hadmissible.1, setUnit_of_scanned hpps hadmissible.2⟩
  · exact valid_builtIn

/-- Whatever a store answers, the pair to start with is valid. -/
theorem valid_ofAnswer (answer : Except FileError (Option Bytes)) : (ofAnswer answer).Valid := by
  match answer with
  | .error error => exact valid_builtIn
  | .ok none => exact valid_builtIn
  | .ok (some blob) =>
    cases hsets : ofBlob? blob with
    | none => simpa [ofAnswer, inAnswer?, hsets] using valid_builtIn
    | some sets =>
      simpa [ofAnswer, inAnswer?, hsets] using (ofBlob?_eq_some_iff.mp hsets).valid_orBuiltIn

/-- No more is read back from a file than two sets can take, which is enough for a valid pair. -/
theorem Valid.length_toBlob_le (h : sets.Valid) :
    sets.toBlob.length ≤ DirectoryStore.maxBlobSize := by
  have hsps := h.sps.length.2
  have hpps := h.pps.length.2
  simp only [toBlob, List.length_append, DirectoryStore.maxBlobSize]
  omega

end ParameterSets

/-! ## Runs -/

theorem History.valid_latestSets {history : History} {seed : ParameterSets} (hseed : seed.Valid)
    (h : ∀ unit ∈ history.units, Scanned unit.kind unit.bytes) :
    (history.latestSets seed).Valid where
  sps := latest_of_met hseed.sps fun unit hunit => ParameterSets.setUnit_of_scanned (h unit hunit)
  pps := latest_of_met hseed.pps fun unit hunit => ParameterSets.setUnit_of_scanned (h unit hunit)

variable {σ : Type}

/-- A framer starts with a valid pair. -/
theorem Framer.run_seeded (keeper? : Option (Keeper (StateM σ))) (world : σ) :
    ∃ seed : ParameterSets, ((Framer.seeded keeper?).run world).1 = { sets := seed } ∧ seed.Valid ∧
      ∀ keeper, keeper? = some keeper → seed = (keeper.seed.run world).1 := by
  cases keeper? with
  | none => exact ⟨.builtIn, rfl, ParameterSets.valid_builtIn, fun _ h => by cases h⟩
  | some keeper =>
    refine ⟨(keeper.seed.run world).1, ?_, ?_, fun _ h => by cases h; rfl⟩
    · simp only [Framer.seeded, StateT.run_bind]
      rfl
    · rw [Keeper.run_seed]
      exact ParameterSets.valid_ofAnswer _

/-- The pair to start with is made of the loaded one. -/
theorem Keeper.seed_eq (keeper : Keeper (StateM σ)) (world : σ) :
    (keeper.seed.run world).1 =
      (((keeper.store.load keeper.device).run world).1.map (·.orBuiltIn)).getD .builtIn := by
  rw [Keeper.run_seed, BlobStore.run_load]
  rfl

/-- Every run of a framer keeps its pair valid. -/
theorem FramerLog.valid_callAll (keeper? : Option (Keeper (StateM σ))) {seed : ParameterSets}
    (hseed : seed.Valid) (limit : Nat) (tally : Tally) (calls : List FramerCall) (world : σ) :
    ((({ framer := { sets := seed, limit }, tally } : FramerLog).callAll keeper? calls).run
      world).1.framer.sets.Valid := by
  have hlogged := FramerLog.logged_callAll keeper?
    { framer := { sets := seed, limit }, tally } calls world (.start limit)
  have hunits := FramerLog.units_callAll keeper?
    { framer := { sets := seed, limit }, tally } calls world
  rw [hlogged.tracks.sets]
  refine History.valid_latestSets hseed fun unit hunit => ?_
  rw [hunits] at hunit
  obtain ⟨frame, -, hmem⟩ := mem_unitsLookedAt hunit
  exact scanned_of_mem_scan hmem

namespace Outcome

variable {framer next : Framer} {unit : NalUnit} {fate : Fate}

theorem isRefused_iff (h : Outcome framer unit fate next) :
    fate.isRefused = true ↔
      unit.kind.isParameterSet = true ∧ ¬ ParameterSets.Admissible unit.bytes := by
  cases h with
  | refused refusal hset hlength => exact ⟨fun _ => ⟨hset, hlength⟩, fun _ => rfl⟩
  | cached changed hset hlength => simp [Fate.isRefused, hlength]
  | keyframe carries hidr => simp [Fate.isRefused, not_set_of_idrSlice hidr]
  | forwarded hset | withheld hset => simp [Fate.isRefused, hset]

/-- A unit that is refused leaves the framer as it is. -/
theorem eq_of_isRefused (h : Outcome framer unit fate next) (hrefused : fate.isRefused = true) :
    next = framer := by
  cases h with
  | refused => rfl
  | cached | keyframe | forwarded | withheld => cases hrefused

end Outcome

/-- **The cached pair is always valid.**

* For every store, whatever it holds or fails with, the sets of the loaded pair replace the built-in ones
  one after the other, and if either is refused both are put back. So the pair to start with is the loaded
  one if both of its sets are 5 to 1024 bytes long, and the built-in one otherwise. It is never one set of
  each, unless a set is the same in both.
* A framer that starts with this pair, or with the built-in one without a store, is called any number of
  times, with any frames, new sessions and new limits. After that each cached set begins with a start code
  and the header of its kind and is 5 to 1024 bytes long. So the blob of the pair takes at most 2048 bytes,
  and is read back whole from every file that holds it.
* A unit is refused exactly if it is a parameter set of another length. It leaves the framer as it is, the
  pair and both flags included. -/
theorem cached_pair_valid {σ : Type} :
    (∀ (keeper : Keeper (StateM σ)) (world : σ),
      let loaded := ((keeper.store.load keeper.device).run world).1
      let seed := (keeper.seed.run world).1
      (loaded = none → seed = .builtIn) ∧
      ∀ stored, loaded = some stored →
        let Fits := ParameterSets.Admissible stored.sps ∧ ParameterSets.Admissible stored.pps
        seed = ((ParameterSets.builtIn.setSps stored.sps).bind
          (·.setPps stored.pps)).toOption.getD .builtIn ∧
        (Fits → seed = stored) ∧ (¬ Fits → seed = .builtIn) ∧
        (seed.sps = stored.sps ∧ seed.pps = ParameterSets.builtIn.pps ∨
            seed.sps = ParameterSets.builtIn.sps ∧ seed.pps = stored.pps →
          stored.sps = ParameterSets.builtIn.sps ∨ stored.pps = ParameterSets.builtIn.pps)) ∧
    (∀ (keeper? : Option (Keeper (StateM σ))) (world : σ) (tally : Tally)
        (calls : List FramerCall),
      let first := (Framer.seeded keeper?).run world
      let last := (({ framer := first.1, tally } : FramerLog).callAll keeper? calls).run first.2
      let sets := last.1.framer.sets
      (∀ keeper, keeper? = some keeper → first.1.sets = (keeper.seed.run world).1) ∧
      sets.Valid ∧ sets.toBlob = sets.sps ++ sets.pps ∧ sets.toBlob.length ≤ 2048 ∧
      ∀ directory device files,
        files.read (DirectoryStore.blobPath directory device) = .ok sets.toBlob →
        ((DirectoryStore.read directory device).run.run files).1 = .ok (some sets.toBlob)) ∧
    ∀ (framer : Framer) (unit : NalUnit),
      ((framer.accept unit).1.isRefused = true ↔
        unit.kind.isParameterSet = true ∧ ¬ ParameterSets.Admissible unit.bytes) ∧
      ((framer.accept unit).1.isRefused = true → (framer.accept unit).2 = framer) := by
  refine ⟨fun keeper world => ?_, fun keeper? world tally calls => ?_, fun framer unit => ?_⟩
  · intro loaded seed
    have hseed : seed = (loaded.map (·.orBuiltIn)).getD .builtIn := keeper.seed_eq world
    refine ⟨fun hnone => ?_, fun stored hstored => ?_⟩
    · rw [hseed, hnone]
      rfl
    · rw [hstored] at hseed
      change seed = stored.orBuiltIn at hseed
      rw [hseed]
      exact ⟨stored.orBuiltIn_eq_setBoth, fun hfits => if_pos hfits, fun hfits => if_neg hfits,
        ParameterSets.orBuiltIn_not_mixed⟩
  · intro first last sets
    obtain ⟨seed, hfirst, hvalid, hkeeper⟩ := Framer.run_seeded keeper? world
    have hsets : sets.Valid := by
      have hrun := FramerLog.valid_callAll keeper? hvalid defaultUnitLimit tally calls first.2
      rwa [← hfirst] at hrun
    refine ⟨fun keeper heq => ?_, hsets, rfl, hsets.length_toBlob_le, fun directory device files h => ?_⟩
    · rw [← hkeeper keeper heq]
      exact congrArg Framer.sets hfirst
    · rw [DirectoryStore.run_read, h]
      exact congrArg (Except.ok ∘ some) (List.take_of_length_le hsets.length_toBlob_le)
  · have houtcome := framer.accept_outcome unit
    exact ⟨houtcome.isRefused_iff, houtcome.eq_of_isRefused⟩

/-- Two stored pairs, of which the second has a set that is one byte too long; and a run that meets that
set. -/
theorem cached_pair_valid_long :
    let long : Bytes := startCode ++ 0x67 :: List.replicate 1020 0xFF
    let stored : ParameterSets := { sps := [0, 0, 0, 1, 0x67, 0x64], pps := [0, 0, 0, 1, 0x68] }
    let shelf : Shelf := [("0", stored.toBlob), ("1", long ++ stored.pps)]
    let keeper (device : String) : Keeper (StateM Shelf) := { store := .memory, device }
    let calls : List FramerCall := [.process (long ++ [0, 0, 0, 1, 0x68, 0xAA])]
    let first := (Framer.seeded (some (keeper "0"))).run shelf
    let directory : Path := ⟨"/work/.spspps"⟩
    let sets : ParameterSets := { stored with pps := [0, 0, 0, 1, 0x68, 0xAA] }
    let files := ((DirectoryStore.write directory "0" sets.toBlob).run.run
      FileSystem.emptyWorkspace.1).2
    (((keeper "0").store.load "0").run shelf).1 = some stored ∧
    ParameterSets.Admissible stored.sps ∧ ParameterSets.Admissible stored.pps ∧
    ((keeper "0").seed.run shelf).1 = stored ∧
    (((keeper "1").store.load "1").run shelf).1 = some { stored with sps := long } ∧
    ¬ ParameterSets.Admissible long ∧ ((keeper "1").seed.run shelf).1 = .builtIn ∧
    ((({ framer := first.1 } : FramerLog).callAll (some (keeper "0")) calls).run
      first.2).1.framer.sets = sets ∧ sets.Valid ∧
    files.read (DirectoryStore.blobPath directory "0") = .ok sets.toBlob ∧
    ((DirectoryStore.read directory "0").run.run files).1 = .ok (some sets.toBlob) := by
  intro long stored shelf keeper calls first directory sets files
  have hloaded : (((keeper "0").store.load "0").run shelf).1 = some stored := by decide +kernel
  have hlong : (((keeper "1").store.load "1").run shelf).1 = some { stored with sps := long } := by
    decide +kernel
  have hrefused : ¬ ParameterSets.Admissible long := by decide +kernel
  have hcached : ((({ framer := first.1 } : FramerLog).callAll (some (keeper "0")) calls).run
      first.2).1.framer.sets = sets := by decide +kernel
  have hread : files.read (DirectoryStore.blobPath directory "0") = .ok sets.toBlob := by
    decide +kernel
  obtain ⟨hseeds, hruns, -⟩ := @cached_pair_valid Shelf
  have hstored : ((keeper "0").seed.run shelf).1 = stored :=
    ((hseeds (keeper "0") shelf).2 stored hloaded).2.1 ⟨by decide, by decide⟩
  have hother : ((keeper "1").seed.run shelf).1 = .builtIn :=
    ((hseeds (keeper "1") shelf).2 _ hlong).2.2.1 fun hfits => hrefused hfits.1
  obtain ⟨-, hvalid, -, -, hwhole⟩ := hruns (some (keeper "0")) shelf {} calls
  rw [hcached] at hvalid hwhole
  exact ⟨hloaded, by decide, by decide, hstored, hlong, hrefused, hother, hcached, hvalid, hread,
    hwhole directory "0" files hread⟩

end CamStream
