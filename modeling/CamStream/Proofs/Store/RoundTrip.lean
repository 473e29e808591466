import CamStream.Proofs.Store.Background

/-!
# What comes back from a store

A blob has no lengths in it, so a pair is found again by scanning. What is found are the first two units of
the blob, if they are one set of each kind, whatever lies in front of them and however much follows.

* `ParameterSets.Leads`: the blobs that a pair is read back from, and no others
  (`ParameterSets.ofBlob?_eq_some_iff`, `BlobStore.load_eq_some_iff`). A whole pair leads its blob, in either
  order of the two sets (`ParameterSets.Whole.leads`).
* `BlobStore.Restores`: a blob is written, and the pair is loaded again. `BlobStore.RestoresBehind`: it is
  left to a worker, the store can be dropped, and the pair is loaded when it has been opened again.
* `pair_round_trip`: both, in memory and in a directory.
-/

namespace CamStream

namespace ParameterSets

variable {sets : ParameterSets} {blob : Bytes}

/-! ## The blobs that hold a pair -/

/-- The first two units of the blob are the sets of the pair, in either order. -/
def Leads (sets : ParameterSets) (blob : Bytes) : Prop :=
  let units := ((scanAll blob).take 2).map fun unit => (unit.kind, unit.bytes)
  units = [(.sps, sets.sps), (.pps, sets.pps)] ∨ units = [(.pps, sets.pps), (.sps, sets.sps)]

theorem ofBlob?_eq_some_iff : ofBlob? blob = some sets ↔ sets.Leads blob := by
  have hlength : ((scanAll blob).take 2).length ≤ 2 := List.length_take_le _ _
  unfold ofBlob? splitBlob Leads
  rw [scan_eq_take]
  generalize (scanAll blob).take 2 = units at hlength
  obtain ⟨sps, pps⟩ := sets
  match units, hlength with
  | [], _ => simp [lastOfKind]
  | [first], _ => cases hfirst : first.kind <;> simp [lastOfKind, hfirst]
  | [first, second], _ =>
    cases hfirst : first.kind <;> cases hsecond : second.kind <;>
      simp [lastOfKind, hfirst, hsecond, and_comm]

/-- The two ways to lay a pair out as a blob. The first is the one in which `BlobStore.save` writes it. -/
def layouts (sets : ParameterSets) : List Bytes := [sets.toBlob, sets.pps ++ sets.sps]

theorem length_of_mem_layouts (h : blob ∈ sets.layouts) :
    blob.length = sets.sps.length + sets.pps.length := by
  simp only [layouts, List.mem_cons, List.not_mem_nil, or_false] at h
  rcases h with rfl | rfl
  · exact List.length_append
  · rw [List.length_append, Nat.add_comm]

/-- The first two units of two whole ones in a row. -/
theorem take_scanAll_pair {first second : Bytes} (hfirst : WholeUnit first)
    (hsecond : WholeUnit second) :
    ((scanAll (first ++ second)).take 2).map (fun unit => (unit.kind, unit.bytes)) =
      [(kindOfUnit first, first), (kindOfUnit second, second)] := by
  have hunits : scanAll [first, second].flatten = layOut 0 [first, second] :=
    scanAll_flatten (by simpa using ⟨hfirst, hsecond⟩)
  have hflatten : [first, second].flatten = first ++ second := by simp
  rw [← hflatten, hunits]
  rfl

theorem Whole.leads (h : sets.Whole) (hblob : blob ∈ sets.layouts) : sets.Leads blob := by
  simp only [layouts, List.mem_cons, List.not_mem_nil, or_false] at hblob
  rcases hblob with rfl | rfl
  · left
    rw [toBlob, take_scanAll_pair h.sps.1 h.pps.1, ← h.sps.2, ← h.pps.2]
  · right
    rw [take_scanAll_pair h.pps.1 h.sps.1, ← h.sps.2, ← h.pps.2]

end ParameterSets

/-! ## Stores -/

namespace BlobStore

variable {σ : Type} {store : BlobStore (StateM σ)} {device : String} {blob : Bytes}
  {sets : ParameterSets} {world last : σ}

/-- A store gives a pair exactly if the blob that it reads is led by that pair. -/
theorem load_eq_some_iff : ((store.load device).run world).1 = some sets ↔
    ∃ blob, ((store.read device).run world).1 = .ok (some blob) ∧ sets.Leads blob := by
  rw [run_load]
  match ((store.read device).run world).1 with
  | .ok (some blob) => simp [ParameterSets.inAnswer?, ParameterSets.ofBlob?_eq_some_iff]
  | .ok none => simp [ParameterSets.inAnswer?]
  | .error error => simp [ParameterSets.inAnswer?]

/-- The blob can be written, and then the pair is loaded. -/
def Restores (store : BlobStore (StateM σ)) (device : String) (blob : Bytes) (sets : ParameterSets)
    (world : σ) : Prop :=
  ((store.write device blob).run world).1 = .ok () ∧
    ((store.load device).run ((store.write device blob).run world).2).1 = some sets

theorem restores_of_run_write (hwrite : (store.write device blob).run world = (.ok (), last))
    (hread : ((store.read device).run last).1 = .ok (some blob)) (h : sets.Leads blob) :
    store.Restores device blob sets world := by
  rw [Restores, hwrite]
  exact ⟨rfl, load_eq_some_iff.mpr ⟨blob, hread, h⟩⟩

/-- The writes are left to a worker. -/
structure RestoresBehind (store : BlobStore (StateM σ)) (device : String) (blob : Bytes)
    (sets : ParameterSets) (world : σ) : Prop where
  /-- Whatever has been done with the store, it is dropped as soon as the worker has had the time. -/
  drops (order more : List WriteBehind.Turn)
    (h : 2 * (WriteBehind.submissions order).length + 2 ≤ more.count .worker) :
    (({ world } : WriteBehind σ).turns store (order ++ .drop :: (more ++ [.drop]))).age = .dropped
  /-- Whenever the worker gets to its writes: if the blob is the last one, then the pair is loaded by a
  store that is opened on the world in which the dropped one was left. -/
  loads (order : List WriteBehind.Turn) (earlier : List WriteJob)
    (hblob : WriteBehind.submissions order = earlier ++ [⟨device, blob⟩])
    (hage : (({ world } : WriteBehind σ).turns store order).age = .dropped) :
    (((store.background.load device).run []).run
      (({ world } : WriteBehind σ).turns store order).world).1.1 = some sets

theorem run_load_background (jobs : List WriteJob) :
    ((store.background.load device).run jobs).run world =
      ((((store.load device).run world).1, jobs), ((store.load device).run world).2) := by
  have hread : ((store.background.read device).run jobs).run world =
      ((((store.read device).run world).1, jobs), ((store.read device).run world).2) := rfl
  rw [run_load]
  simp only [load, StateT.run_bind, hread]
  obtain ⟨answer, after⟩ := (store.read device).run world
  cases answer with
  | error error => rfl
  | ok blob? => cases blob? <;> rfl

/-- A worker restores what is restored after any writes. -/
theorem restoresBehind (hreads : ∀ device world, ((store.read device).run world).2 = world)
    (h : ∀ earlier, store.Restores device blob sets (store.written world earlier)) :
    store.RestoresBehind device blob sets world where
  drops order more hmore := by
    have hclosed := WriteBehind.age_turn_drop store (({ world } : WriteBehind σ).turns store order)
    have hqueued := ((WriteBehind.inOrder_fresh store world).turns hreads order).length_jobs_le
    rw [WriteBehind.submitted_turns hreads rfl order, List.nil_append] at hqueued
    rw [WriteBehind.turns_append]
    refine WriteBehind.age_turns_drop hreads hclosed.1 ?_
    rw [hclosed.2]
    omega
  loads order earlier hblob hage := by
    have hsubmitted : (({ world } : WriteBehind σ).turns store order).submitted =
        earlier ++ [⟨device, blob⟩] :=
      (WriteBehind.submitted_turns hreads rfl order).trans hblob
    have hworld := ((WriteBehind.inOrder_fresh store world).turns hreads order).world_dropped hage
    rw [hsubmitted, written_append] at hworld
    rw [run_load_background, hworld]
    exact (h earlier).2

/-- No writes to a directory, for whichever devices, keep a device from being written there. -/
theorem healthy_written {directory : Path} {files : FileSystem}
    (h : DirectoryStore.Healthy directory device files) (jobs : List WriteJob) :
    DirectoryStore.Healthy directory device ((onFiles directory).written files jobs) := by
  induction jobs generalizing files with
  | nil => exact h
  | cons job jobs ih => exact ih (h.run_write_other job.device job.blob)

end BlobStore

/-- **What comes back from a store.** For every store, and whatever it reads, a pair is loaded exactly if a
blob is read whose first two units are the sets of this pair, in either order. A store that leaves its
writes to a worker loads the same, whatever is waiting to be written.

So a pair of whole units of the two kinds is loaded, byte for byte, when it has been saved, and when its
blob has been written with the picture parameter set in front:

* from memory, whatever their lengths;
* from a directory that can be written to, if they are at most 2048 bytes long together;
* from either, when this was left to a worker behind any other writes, and the store has been dropped, which
  it always can be, and opened again. -/
theorem pair_round_trip :
    (∀ (σ : Type) (store : BlobStore (StateM σ)) (device : String) (world : σ)
        (sets : ParameterSets),
      let Given := ∃ blob, ((store.read device).run world).1 = .ok (some blob) ∧ sets.Leads blob
      (((store.load device).run world).1 = some sets ↔ Given) ∧
      ∀ jobs, (((store.background.load device).run jobs).run world).1.1 = some sets ↔ Given) ∧
    ∀ sets : ParameterSets, sets.Whole → ∀ blob ∈ sets.layouts, ∀ device : String,
      (∀ shelf : Shelf, BlobStore.memory.Restores device blob sets shelf ∧
        BlobStore.memory.RestoresBehind device blob sets shelf) ∧
      ∀ directory files, DirectoryStore.Healthy directory device files →
        sets.sps.length + sets.pps.length ≤ DirectoryStore.maxBlobSize →
        (BlobStore.onFiles directory).Restores device blob sets files ∧
        (BlobStore.onFiles directory).RestoresBehind device blob sets files := by
  constructor
  · intro σ store device world sets Given
    refine ⟨BlobStore.load_eq_some_iff, fun jobs => ?_⟩
    rw [BlobStore.run_load_background]
    exact BlobStore.load_eq_some_iff
  · intro sets hsets blob hblob device
    have hleads := hsets.leads hblob
    constructor
    · intro shelf
      have hmemory : ∀ shelf, BlobStore.memory.Restores device blob sets shelf := fun shelf =>
        BlobStore.restores_of_run_write rfl (BlobStore.read_memory_put shelf device blob) hleads
      exact ⟨hmemory shelf, BlobStore.restoresBehind (fun _ _ => rfl) fun _ => hmemory _⟩
    · intro directory files hhealthy hlength
      rw [← ParameterSets.length_of_mem_layouts hblob] at hlength
      have hfiles : ∀ files, DirectoryStore.Healthy directory device files →
          (BlobStore.onFiles directory).Restores device blob sets files := by
        intro files hhealthy
        obtain ⟨last, hwrite, -, hread⟩ :=
          (BlobStore.reliable_onFiles directory device).write hhealthy hlength
        exact BlobStore.restores_of_run_write hwrite hread hleads
      refine ⟨hfiles files hhealthy, BlobStore.restoresBehind ?_ fun earlier => ?_⟩
      · exact fun device => (BlobStore.reliable_onFiles directory device).read
      · exact hfiles _ (BlobStore.healthy_written hhealthy earlier)

/-- A picture parameter set that ends in three zeros, in front of the other set. It is left to a worker
behind a write for another device, which is late. -/
theorem pair_round_trip_zeros :
    let sets : ParameterSets :=
      { sps := [0, 0, 0, 1, 0x67, 0x64], pps := [0, 0, 0, 1, 0x68, 0xEE, 0, 0, 0] }
    let blob := sets.pps ++ sets.sps
    let directory : Path := ⟨"/work/.spspps"⟩
    let files := FileSystem.emptyWorkspace.1
    let order : List WriteBehind.Turn := [.submit ⟨"1", [9]⟩, .submit ⟨"0", blob⟩, .worker, .drop,
      .worker, .worker, .worker, .worker, .drop]
    sets.Whole ∧ blob ∈ sets.layouts ∧ DirectoryStore.Healthy directory "0" files ∧
      sets.sps.length + sets.pps.length ≤ DirectoryStore.maxBlobSize ∧
      BlobStore.memory.Restores "0" blob sets [] ∧
      (BlobStore.onFiles directory).Restores "0" blob sets files ∧
      WriteBehind.submissions order = [⟨"1", [9]⟩] ++ [⟨"0", blob⟩] ∧
      (({ world := files } : WriteBehind FileSystem).turns (.onFiles directory) order).age =
        .dropped ∧
      ((((BlobStore.onFiles directory).background.load "0").run []).run
        (({ world := files } : WriteBehind FileSystem).turns (.onFiles directory) order).world).1.1 =
          some sets := by
  intro sets blob directory files order
  have hwhole : sets.Whole :=
    ⟨⟨⟨0x67, [0x64], rfl, by unfold CodeFree; decide⟩, by decide⟩,
      ⟨⟨0x68, [0xEE, 0, 0, 0], rfl, by unfold CodeFree; decide⟩, by decide⟩⟩
  have hblob : blob ∈ sets.layouts := by decide
  have hwrite : ((DirectoryStore.write directory "0" []).run.run files).1 = .ok () := by
    decide +kernel
  have hhealthy : DirectoryStore.Healthy directory "0" files := ⟨[], _, Prod.ext hwrite rfl⟩
  have hlength : sets.sps.length + sets.pps.length ≤ DirectoryStore.maxBlobSize := by decide
  have hage : (({ world := files } : WriteBehind FileSystem).turns (.onFiles directory) order).age =
      .dropped := by decide +kernel
  obtain ⟨hmemory, hfiles⟩ := pair_round_trip.2 sets hwhole blob hblob "0"
  obtain ⟨hrestores, hbehind⟩ := hfiles directory files hhealthy hlength
  exact ⟨hwhole, hblob, hhealthy, hlength, (hmemory []).1, hrestores, rfl, hage,
    hbehind.loads order [⟨"1", [9]⟩] rfl hage⟩

end CamStream
