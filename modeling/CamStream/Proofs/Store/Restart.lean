import CamStream.Proofs.Framing.SelfDelimiting
import CamStream.Proofs.Store.Directory

/-!
# Restarts

A framer keeps its pair whenever a frame changes it, so that the next framer for the same device can
go on with it. Three forms of the pair have to agree for this: the cached one, the blob that was
written, and what a scan of that blob finds.

* `ParameterSets.Keepable`: the pairs for which they do agree. A framer never leaves them as long as
  no frame ends in a bare start code.
* `BlobStore.Reliable`: stores that give back what was written. So does the store in memory, and so
  does a store in a directory that can be written to.
* `Keeper.InStep.call`: what a new framer would start with changes together with the cached pair.
* `restart_continues`: after every run, a new framer starts with the pair that was cached.
-/

namespace CamStream

/-! ## Pairs that can be kept -/

namespace ParameterSets

/-- A pair that can be told apart in its blob, and whose sets are neither too short nor too long. -/
structure Keepable (sets : ParameterSets) : Prop where
  whole : sets.Whole
  sps : Admissible sets.sps
  pps : Admissible sets.pps

theorem keepable_builtIn : builtIn.Keepable where
  whole := whole_builtIn
  sps := by decide
  pps := by decide

/-- The pair in the answer of a store, if there is one. -/
def inAnswer? : Except FileError (Option Bytes) → Option ParameterSets
  | .ok (some blob) => ofBlob? blob
  | .ok none | .error _ => none

/-- The pair to start with after a store has answered. -/
def ofAnswer (answer : Except FileError (Option Bytes)) : ParameterSets :=
  ((inAnswer? answer).map (·.orBuiltIn)).getD builtIn

namespace Keepable

variable {sets : ParameterSets}

theorem ofAnswer_toBlob (h : sets.Keepable) : ofAnswer (.ok (some sets.toBlob)) = sets := by
  rw [ofAnswer, inAnswer?, h.whole.ofBlob?_toBlob]
  exact if_pos ⟨h.sps, h.pps⟩

theorem length_toBlob_le (h : sets.Keepable) : sets.toBlob.length ≤ 2 * maxSetLength := by
  have hsps := h.sps.2
  have hpps := h.pps.2
  simp only [toBlob, List.length_append]
  omega

theorem learn {unit : NalUnit} (h : sets.Keepable) (hunit : Genuine unit.kind unit.bytes)
    (hadmissible : Admissible unit.bytes) : (sets.learn unit).Keepable := by
  obtain ⟨⟨hsps, hpps⟩, hsps', hpps'⟩ := h
  unfold ParameterSets.learn
  split
  · rename_i hkind
    rw [hkind] at hunit
    exact ⟨⟨hunit, hpps⟩, hadmissible, hpps'⟩
  · rename_i hkind
    rw [hkind] at hunit
    exact ⟨⟨hsps, hunit⟩, hsps', hadmissible⟩
  · exact ⟨⟨hsps, hpps⟩, hsps', hpps'⟩

end Keepable

end ParameterSets

/-! ## What a frame does to the pair -/

namespace Framer

variable {framer : Framer} {unit : NalUnit}

theorem keepable_accept (h : framer.sets.Keepable) (hunit : Genuine unit.kind unit.bytes) :
    (framer.accept unit).2.sets.Keepable := by
  have hstep := framer.accept_outcome unit
  generalize framer.accept unit = result at hstep ⊢
  obtain ⟨fate, next⟩ := result
  cases hstep with
  | cached changed hset hadmissible => exact h.learn hunit hadmissible
  | refused | keyframe | forwarded | withheld => exact h

theorem keepable_acceptAll {units : List NalUnit} (h : framer.sets.Keepable)
    (hunits : ∀ unit ∈ units, Genuine unit.kind unit.bytes) :
    (framer.acceptAll units).2.sets.Keepable := by
  induction units generalizing framer with
  | nil => exact h
  | cons unit units ih =>
    have hnext := keepable_accept h (hunits unit List.mem_cons_self)
    exact ih hnext fun other hother => hunits other (List.mem_cons_of_mem _ hother)

theorem isChange_cache (result : Except SetRefusal ParameterSets) :
    (framer.cache result).1.isChange = decide ((framer.cache result).2.sets ≠ framer.sets) := by
  cases result with
  | ok sets => rfl
  | error refusal => simp [cache, Fate.isChange]

/-- A fate is a change exactly when other bytes are cached afterwards. -/
theorem isChange_accept :
    (framer.accept unit).1.isChange = decide ((framer.accept unit).2.sets ≠ framer.sets) := by
  unfold accept
  cases unit.kind with
  | sps | pps => exact isChange_cache _
  | idrSlice => simp [emitKeyframe, Fate.isChange]
  | slice | other =>
    dsimp only
    unfold emitPlain
    split <;> simp [Fate.isChange]

theorem sets_acceptAll_of_not_isChange {units : List NalUnit}
    (h : (framer.acceptAll units).1.any (·.isChange) = false) :
    (framer.acceptAll units).2.sets = framer.sets := by
  induction units generalizing framer with
  | nil => rfl
  | cons unit units ih =>
    simp only [acceptAll, List.any_cons, Bool.or_eq_false_iff, isChange_accept,
      decide_eq_false_iff_not, not_not] at h
    exact (ih h.2).trans h.1

end Framer

/-! ## Stores that can be relied on -/

/-- In a good world a blob as long as a pair can be is written, and the store is then good and holds
that blob. Reading leaves the world as it is. -/
structure BlobStore.Reliable {σ : Type} (store : BlobStore (StateM σ)) (device : String)
    (Good : σ → Prop) : Prop where
  read (world : σ) : ((store.read device).run world).2 = world
  write {world : σ} (h : Good world) {blob : Bytes} (hsize : blob.length ≤ 2 * maxSetLength) :
    ∃ last, (store.write device blob).run world = (.ok (), last) ∧ Good last ∧
      ((store.read device).run last).1 = .ok (some blob)

theorem BlobStore.read_memory_put (shelf : Shelf) (device : String) (blob : Bytes) :
    ((BlobStore.memory.read device).run (KeyedList.put shelf device blob)).1 = .ok (some blob) := by
  have hfound : KeyedList.get? (KeyedList.put shelf device blob) device = some blob := by
    rw [KeyedList.get?_put, if_pos rfl]
  exact congrArg Except.ok hfound

theorem BlobStore.reliable_memory (device : String) :
    BlobStore.memory.Reliable device fun _ => True where
  read _ := rfl
  write {shelf} _ blob _ :=
    ⟨shelf.put device blob, rfl, trivial, read_memory_put shelf device blob⟩

/-- The store in a directory, on the file system that is its state. -/
def BlobStore.onFiles (directory : Path) : BlobStore (StateM FileSystem) :=
  (BlobStore.directory directory).lift fun script files => script.run files

theorem BlobStore.reliable_onFiles (directory : Path) (device : String) :
    (BlobStore.onFiles directory).Reliable device (DirectoryStore.Healthy directory device) where
  read files := by
    have hrun := DirectoryStore.run_read directory device files
    exact congrArg Prod.snd hrun
  write {files} h blob hsize := by
    obtain ⟨last, hwrite, hlast, hread⟩ := h.run_write blob
    refine ⟨last, hwrite, hlast, ?_⟩
    have hrun := congrArg Prod.fst (DirectoryStore.run_read directory device last)
    rw [hread] at hrun
    exact hrun.trans (congrArg (Except.ok ∘ some) (List.take_of_length_le hsize))

/-! ## Framer and store in step -/

theorem BlobStore.run_load {σ : Type} (store : BlobStore (StateM σ)) (device : String) (world : σ) :
    (store.load device).run world = (ParameterSets.inAnswer? ((store.read device).run world).1,
      ((store.read device).run world).2) := by
  simp only [BlobStore.load, StateT.run_bind]
  generalize (store.read device).run world = result
  match result with
  | (.error error, after) => rfl
  | (.ok none, after) => rfl
  | (.ok (some blob), after) => rfl

namespace Keeper

variable {σ : Type} (keeper : Keeper (StateM σ))

/-- A new framer would start with the pair that the running one has cached. -/
structure InStep (Good : σ → Prop) (framer : Framer) (world : σ) : Prop where
  good : Good world
  keepable : framer.sets.Keepable
  seed : (keeper.seed.run world).1 = framer.sets

variable {keeper} {Good : σ → Prop} {framer : Framer} {world : σ}

/-- The pair to start with is decided by the answer of the store. -/
theorem run_seed (keeper : Keeper (StateM σ)) (world : σ) :
    keeper.seed.run world = (.ofAnswer ((keeper.store.read keeper.device).run world).1,
      ((keeper.store.read keeper.device).run world).2) := by
  simp only [seed, BlobStore.seed, StateT.run_bind, BlobStore.run_load,
    ParameterSets.ofAnswer]
  cases ParameterSets.inAnswer? ((keeper.store.read keeper.device).run world).1 <;> rfl

/-- Keeping a pair makes it the one to start with. -/
theorem inStep_save (hstore : keeper.store.Reliable keeper.device Good) (hgood : Good world)
    (hsets : framer.sets.Keepable) (tally : Tally) :
    keeper.InStep Good framer ((keeper.save framer.sets tally).run world).2 := by
  obtain ⟨last, hwrite, hlast, hread⟩ := hstore.write hgood hsets.length_toBlob_le
  have hsave : ((keeper.save framer.sets tally).run world).2 = last := congrArg Prod.snd hwrite
  rw [hsave]
  refine ⟨hlast, hsets, ?_⟩
  rw [run_seed, hread]
  exact hsets.ofAnswer_toBlob

theorem InStep.keepChange {next : Framer} (hstore : keeper.store.Reliable keeper.device Good)
    (h : keeper.InStep Good framer world) {fates : List Fate} (hnext : next.sets.Keepable)
    (hsame : fates.any (·.isChange) = false → next.sets = framer.sets) (tally : Tally) :
    keeper.InStep Good next ((keepChange (some keeper) fates next.sets tally).run world).2 := by
  unfold CamStream.keepChange
  cases hchange : fates.any (·.isChange) with
  | true => exact inStep_save hstore h.good hnext tally
  | false => exact ⟨h.good, hnext, h.seed.trans (hsame hchange).symm⟩

/-- One call: the store follows the cached pair. -/
theorem InStep.call (hstore : keeper.store.Reliable keeper.device Good) {log : FramerLog}
    (h : keeper.InStep Good log.framer world) {call : FramerCall}
    (hcall : ∀ frame, call = .process frame → ¬ startCode <:+ frame) :
    let last := (log.call (some keeper) call).run world
    keeper.InStep Good last.1.framer last.2 := by
  cases call with
  | process frame =>
    have hunits : ∀ unit ∈ scan frame log.framer.limit, Genuine unit.kind unit.bytes := by
      intro unit hunit
      exact whole_of_mem_scan (hcall frame rfl) hunit
    -- The pair is written at most once in a frame, behind all of its units. Without a change among
    -- the fates it is still the one that the store holds.
    exact h.keepChange hstore (Framer.keepable_acceptAll h.keepable hunits)
      Framer.sets_acceptAll_of_not_isChange _
  | reset | setLimit => exact ⟨h.good, h.keepable, h.seed⟩

theorem InStep.callAll (hstore : keeper.store.Reliable keeper.device Good) {log : FramerLog}
    (h : keeper.InStep Good log.framer world) {calls : List FramerCall}
    (hcalls : ∀ frame, .process frame ∈ calls → ¬ startCode <:+ frame) :
    let last := (log.callAll (some keeper) calls).run world
    keeper.InStep Good last.1.framer last.2 := by
  induction calls generalizing log world with
  | nil => exact h
  | cons call calls ih =>
    have hstep := h.call hstore fun frame heq => hcalls frame (heq ▸ List.mem_cons_self)
    exact ih hstep fun frame hmem => hcalls frame (List.mem_cons_of_mem _ hmem)

/-! ## The run between two starts -/

/-- A framer that is started on the world that calls left starts with the pair that was cached after
them: the latest accepted set of each kind among the units that the calls made it look at. -/
def Continues (keeper : Keeper (StateM σ)) (world : σ) (tally : Tally) (calls : List FramerCall) :
    Prop :=
  let first := (Framer.seeded (some keeper)).run world
  let last := (({ framer := first.1, tally } : FramerLog).callAll (some keeper) calls).run first.2
  ((Framer.seeded (some keeper)).run last.2).1.sets = last.1.framer.sets ∧
    last.1.framer.sets = last.1.history.latestSets .builtIn ∧
    last.1.history.units = unitsLookedAt defaultUnitLimit calls

variable (keeper) in
theorem continues_of_reliable (hstore : keeper.store.Reliable keeper.device Good)
    (hgood : Good world) (hnone : ((keeper.store.read keeper.device).run world).1 = .ok none)
    (tally : Tally) {calls : List FramerCall}
    (hcalls : ∀ frame, .process frame ∈ calls → ¬ startCode <:+ frame) :
    keeper.Continues world tally calls := by
  have hseed : keeper.seed.run world = (.builtIn, world) := by
    rw [run_seed, hnone, hstore.read]
    rfl
  have hfirst : (Framer.seeded (some keeper)).run world = ({}, world) := by
    simp only [Framer.seeded, StateT.run_bind, hseed]
    rfl
  have hstart : keeper.InStep Good {} world :=
    ⟨hgood, ParameterSets.keepable_builtIn, congrArg Prod.fst hseed⟩
  have hfresh : Logged .builtIn [] {} := .start defaultUnitLimit
  have hlogged := FramerLog.logged_callAll (some keeper) { framer := {}, tally } calls world hfresh
  unfold Continues
  rw [hfirst]
  exact ⟨(hstart.callAll hstore hcalls).seed, hlogged.tracks.sets,
    FramerLog.units_callAll (some keeper) _ calls world⟩

end Keeper

/-- **A restart continues.** Let a store in memory, or a store in a directory that can be written to,
hold nothing for a device. A framer starts on it and is called any number of times, with any frames
that do not end in a bare start code, new sessions and new limits. After that, a new framer for the
same device starts with the pair that the running one has cached, which is the latest accepted set of
each kind, or the built-in one where there was none. -/
theorem restart_continues (device : String) (tally : Tally) (calls : List FramerCall)
    (hcalls : ∀ frame, .process frame ∈ calls → ¬ startCode <:+ frame) :
    (∀ shelf : Shelf, KeyedList.get? shelf device = none →
      Keeper.Continues { store := .memory, device } shelf tally calls) ∧
    (∀ directory files, DirectoryStore.Healthy directory device files →
      ((DirectoryStore.read directory device).run.run files).1 = .ok none →
      Keeper.Continues { store := .onFiles directory, device } files tally calls) := by
  constructor
  · intro shelf hnone
    let keeper : Keeper (StateM Shelf) := { store := .memory, device }
    have hread : ((keeper.store.read keeper.device).run shelf).1 = .ok none :=
      congrArg Except.ok hnone
    exact keeper.continues_of_reliable (BlobStore.reliable_memory device) trivial hread tally hcalls
  · intro directory files hhealthy hnone
    let keeper : Keeper (StateM FileSystem) := { store := .onFiles directory, device }
    have hread : ((keeper.store.read keeper.device).run files).1 = .ok none := hnone
    exact keeper.continues_of_reliable (BlobStore.reliable_onFiles directory device) hhealthy hread
      tally hcalls

/-- A pair that was learned in two sessions, with a limit that keeps the second frame's picture
parameter set from being looked at. -/
theorem restart_continues_learned :
    let calls : List FramerCall :=
      [.process [0, 0, 0, 1, 0x67, 0x64, 0, 0, 0, 1, 0x68, 0xAA, 0, 0, 0, 1, 0x65, 0x88],
        .reset, .setLimit 1, .process [0, 0, 0, 1, 0x67, 0x42, 0, 0, 0, 1, 0x68, 0xBB]]
    let shelved : Keeper (StateM Shelf) := { store := .memory, device := "0" }
    let directory : Path := ⟨"/work/.spspps"⟩
    let filed : Keeper (StateM FileSystem) := { store := .onFiles directory, device := "0" }
    let files := FileSystem.emptyWorkspace.1
    (∀ frame, .process frame ∈ calls → ¬ startCode <:+ frame) ∧
      KeyedList.get? ([] : Shelf) "0" = none ∧ shelved.Continues [] {} calls ∧
      DirectoryStore.Healthy directory "0" files ∧
      ((DirectoryStore.read directory "0").run.run files).1 = .ok none ∧
      filed.Continues files {} calls ∧
      ((({ framer := {} } : FramerLog).callAll (some filed) calls).run files).1.framer.sets =
        { sps := [0, 0, 0, 1, 0x67, 0x42], pps := [0, 0, 0, 1, 0x68, 0xAA] } := by
  intro calls shelved directory filed files
  have hcalls : ∀ frame, .process frame ∈ calls → ¬ startCode <:+ frame := by
    intro frame hframe
    simp only [calls, List.mem_cons, List.not_mem_nil, reduceCtorEq, or_false, false_or] at hframe
    rcases hframe with heq | heq <;> cases heq <;> decide
  have hwrite : ((DirectoryStore.write directory "0" []).run.run files).1 = .ok () := by
    decide +kernel
  have hhealthy : DirectoryStore.Healthy directory "0" files :=
    ⟨[], _, Prod.ext hwrite rfl⟩
  have hnone : ((DirectoryStore.read directory "0").run.run files).1 = .ok none := by
    decide +kernel
  have hcontinues := restart_continues "0" {} calls hcalls
  exact ⟨hcalls, rfl, hcontinues.1 [] rfl, hhealthy, hnone,
    hcontinues.2 directory files hhealthy hnone, by decide +kernel⟩

end CamStream
