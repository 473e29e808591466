import CamStream.Proofs.Files.Directories

/-!
# Files that have nothing to do with each other

A file system without links gives every path one place, which can be read off the path: `target`.
What is made, written or moved at some places leaves the files at all others as they are, provided
that no two files share their number.

* `FileSystem.target_of_locate`, `FileSystem.target_of_locateEntry`: where a path can lead at all, it
  leads to its target.
* `FileSystem.Sound`: every file has a number of its own.
* `FileSystem.Spares`: all that was there is as before, except at the places named.
* `Script.Spares`: so it is after a script, whatever it comes to.
-/

namespace CamStream

namespace FileSystem

open CamStream.Path

variable {files after last : FileSystem} {location : Location}

/-! ## Where paths lead -/

/-- The location to which steps lead if they can be taken. -/
def follow (location : Location) : List Step → Location
  | [] => location
  | .up :: steps => follow location.dropLast steps
  | .into name :: steps => follow (location ++ [name]) steps

/-- The location to which a path leads if it leads anywhere. -/
def target (working : Location) (path : Path) : Location :=
  follow (if path.isAbsolute then [] else working) path.steps

theorem follow_append (location : Location) (steps more : List Step) :
    follow location (steps ++ more) = follow (follow location steps) more := by
  induction steps generalizing location with
  | nil => rfl
  | cons step steps ih => cases step <;> exact ih _

theorem follow_of_walk {start : Location} {steps : List Step}
    (h : files.walk start steps = .ok location) : location = follow start steps := by
  induction steps generalizing start with
  | nil =>
    cases h
    rfl
  | cons step steps ih =>
    obtain ⟨next, hstep, hrest⟩ := bind_eq_ok_iff.mp h
    have hlast := ih hrest
    cases step with
    | up =>
      obtain ⟨-, rfl⟩ := step_up_eq_ok_iff.mp hstep
      exact hlast
    | into name =>
      obtain ⟨-, -, rfl, -⟩ := step_into_eq_ok_iff.mp hstep
      exact hlast

theorem target_of_locate {path : Path} (h : files.locate path = .ok location) :
    location = target files.workingDirectory path := by
  obtain ⟨⟨⟩, -, h⟩ := bind_eq_ok_iff.mp h
  obtain ⟨found, hwalk, h⟩ := bind_eq_ok_iff.mp h
  have hfound := follow_of_walk hwalk
  split at h
  · cases h
  · cases h
    exact hfound

/-- The last name of a path is its last step. -/
theorem steps_of_lastName? {path : Path} {name : String} (h : path.lastName? = some name) :
    path.steps = path.steps.dropLast ++ [.into name] := by
  obtain ⟨hlast, hname⟩ := Option.filter_eq_some_iff.mp h
  simp only [decide_eq_true_eq, Bool.and_eq_true] at hname
  -- Empty parts stand for no step.
  have hsteps : path.steps = (path.parts.filter (· ≠ "")).filterMap Step.ofPart? := by
    rw [steps, List.filterMap_filter]
    congr 1
    funext part
    by_cases hempty : part = "" <;> simp [hempty, Step.ofPart?]
  obtain ⟨before, hparts⟩ := List.getLast?_eq_some_iff.mp hlast
  have hne : name ≠ "" := by
    have hmem : name ∈ path.parts.filter (· ≠ "") := by
      rw [hparts]
      exact List.mem_append_right _ (List.mem_singleton_self name)
    simpa using (List.mem_filter.mp hmem).2
  have hstep : Step.ofPart? name = some (.into name) := by
    simp [Step.ofPart?, hne, hname.1, hname.2]
  rw [hsteps, hparts, List.filterMap_append, List.filterMap_cons_some hstep, List.filterMap_nil,
    List.dropLast_concat]

theorem target_of_locateEntry {path : Path} {parent : Location} {name : String}
    (h : files.locateEntry path = .ok (parent, some name)) :
    parent ++ [name] = target files.workingDirectory path := by
  obtain ⟨-, hwalk, -, hname⟩ := locateEntry_eq_ok_iff.mp h
  have hname : path.lastName? = some name := hname.symm
  rw [hname] at hwalk
  rw [target, steps_of_lastName? hname, follow_append]
  exact congrArg (· ++ [name]) (follow_of_walk hwalk)

/-! ## Changes in named places -/

/-- Every file has a number of its own, below the next one. -/
structure Sound (files : FileSystem) : Prop where
  below : ∀ {location number bytes}, files.node? location = some (.file number bytes) →
    number < files.nextNumber
  alone : ∀ {location other number bytes contents},
    files.node? location = some (.file number bytes) →
    files.node? other = some (.file number contents) → location = other

/-- If only files are there that were there before, and there they still are, nothing is wrong with
their numbers. -/
theorem Sound.of_node? (h : files.Sound)
    (hnode : ∀ {location number bytes}, after.node? location = some (.file number bytes) →
      ∃ before, files.node? location = some (.file number before))
    (hnext : files.nextNumber ≤ after.nextNumber) : after.Sound where
  below := by
    intro location number bytes hfile
    obtain ⟨before, hbefore⟩ := hnode hfile
    exact Nat.lt_of_lt_of_le (h.below hbefore) hnext
  alone := by
    intro location other number bytes contents hfile hother
    obtain ⟨before, hbefore⟩ := hnode hfile
    obtain ⟨again, hagain⟩ := hnode hother
    exact h.alone hbefore hagain

theorem node?_emptyWorkspace (location : Location) :
    emptyWorkspace.1.node? location =
      if location = [] ∨ location = ["work"] then some (.directory openMode) else none := by
  simp only [node?, emptyWorkspace, put, KeyedList.put, KeyedList.erase, KeyedList.get?_cons,
    KeyedList.get?_nil, List.filter_nil]
  grind

theorem sound_emptyWorkspace : emptyWorkspace.1.Sound := by
  have hfile : ∀ {location number bytes},
      emptyWorkspace.1.node? location ≠ some (.file number bytes) := by
    intro location number bytes hfile
    rw [node?_emptyWorkspace] at hfile
    split at hfile <;> cases hfile
  exact ⟨fun h => absurd h hfile, fun h _ => absurd h hfile⟩

/-- What was there is as before, except at the places named; and no directory is gone. -/
structure Spares (places : List Location) (files after : FileSystem) : Prop where
  workingDirectory : after.workingDirectory = files.workingDirectory
  sound : after.Sound
  isDirectoryAt : ∀ {location}, files.isDirectoryAt location = true →
    after.isDirectoryAt location = true
  node? : ∀ {location}, location ∉ places → (files.node? location).isSome = true →
    after.node? location = files.node? location

namespace Spares

variable {places more : List Location}

theorem refl (hsound : files.Sound) : Spares places files files :=
  ⟨rfl, hsound, id, fun _ _ => rfl⟩

theorem trans (h : Spares places files after) (hlast : Spares places after last) :
    Spares places files last where
  workingDirectory := hlast.workingDirectory.trans h.workingDirectory
  sound := hlast.sound
  isDirectoryAt := fun hthere => hlast.isDirectoryAt (h.isDirectoryAt hthere)
  node? := by
    intro location hplace hthere
    have hsame := h.node? hplace hthere
    rw [← hsame] at hthere
    exact (hlast.node? hplace hthere).trans hsame

theorem mono (h : Spares places files after) (hsub : places ⊆ more) : Spares more files after where
  workingDirectory := h.workingDirectory
  sound := h.sound
  isDirectoryAt := h.isDirectoryAt
  node? := fun hplace hthere => h.node? (fun hmem => hplace (hsub hmem)) hthere

/-- A path to a file at another place still leads there. -/
theorem file (h : Spares places files after) (hplace : location ∉ places) {number : Nat}
    {bytes : Bytes} (hfile : files.node? location = some (.file number bytes)) :
    after.node? location = some (.file number bytes) := by
  rw [h.node? hplace (by rw [hfile]; rfl), hfile]

end Spares

/-- A walk is the same as before if there is still something where it ends. -/
theorem Spares.walk {places : List Location} (h : Spares places files after) {start : Location}
    {steps : List Step} (hwalk : files.walk start steps = .ok location)
    (hlast : (after.node? location).isSome = true) : after.walk start steps = .ok location := by
  induction steps generalizing start with
  | nil => exact hwalk
  | cons step steps ih =>
    obtain ⟨next, hstep, hrest⟩ := bind_eq_ok_iff.mp hwalk
    refine bind_eq_ok_iff.mpr ⟨next, ?_, ih hrest⟩
    cases step with
    | up =>
      obtain ⟨hstart, hnext⟩ := step_up_eq_ok_iff.mp hstep
      exact step_up_eq_ok_iff.mpr ⟨h.isDirectoryAt hstart, hnext⟩
    | into name =>
      obtain ⟨hstart, hfits, hnext, -⟩ := step_into_eq_ok_iff.mp hstep
      refine step_into_eq_ok_iff.mpr ⟨h.isDirectoryAt hstart, hfits, hnext, ?_⟩
      -- The walk ends here, or this is a directory.
      cases steps with
      | nil =>
        cases hrest
        exact hlast
      | cons step steps =>
        obtain ⟨_, hstep, -⟩ := bind_eq_ok_iff.mp hrest
        exact isSome_node?_of_isDirectoryAt (h.isDirectoryAt (isDirectoryAt_of_step hstep))

theorem Spares.read {places : List Location} (h : Spares places files after) {path : Path}
    {bytes : Bytes} (hread : files.read path = .ok bytes)
    (hplace : target files.workingDirectory path ∉ places) : after.read path = .ok bytes := by
  obtain ⟨location, hlocate, hfile⟩ := bind_eq_ok_iff.mp hread
  rw [← target_of_locate hlocate] at hplace
  have hnode : ∃ number, files.node? location = some (.file number bytes) := by
    cases hnode : files.node? location with
    | none => simp [hnode] at hfile
    | some node => cases node <;> simp_all
  obtain ⟨number, hnode⟩ := hnode
  have hafter := h.file hplace hnode
  refine bind_eq_ok_iff.mpr ⟨location, ?_, by simp [hafter]⟩
  obtain ⟨⟨⟩, hcheck, hlocate⟩ := bind_eq_ok_iff.mp hlocate
  obtain ⟨found, hwalk, hlocate⟩ := bind_eq_ok_iff.mp hlocate
  have hfound : found = location := by
    split at hlocate <;> cases hlocate
    rfl
  subst hfound
  have horigin : after.origin path = files.origin path := by
    simp [origin, h.workingDirectory]
  refine bind_eq_ok_iff.mpr ⟨(), hcheck, bind_eq_ok_iff.mpr ⟨found, ?_, ?_⟩⟩
  · rw [horigin]
    exact h.walk hwalk (by rw [hafter]; rfl)
  · have hkind : after.isDirectoryAt found = files.isDirectoryAt found := by
      simp only [FileSystem.isDirectoryAt, hafter, hnode]
    rw [hkind]
    exact hlocate

/-- A file was opened for writing at a place, and is empty. -/
structure Created (place : Location) (files : FileSystem) (handle : Handle) (after : FileSystem) :
    Prop where
  position : handle.position = 0
  workingDirectory : after.workingDirectory = files.workingDirectory
  isFree : files.isDirectoryAt place = false
  node? : ∀ location,
    after.node? location = if location = place then some (.file handle.number []) else files.node? location
  sound : files.Sound → after.Sound

/-- The number of a file that is opened is its own, or no other file has it. -/
theorem sound_created (hsound : files.Sound) {place : Location} {number : Nat}
    (hnumber : ∀ {location bytes}, files.node? location = some (.file number bytes) → location = place)
    (hnodes : ∀ location,
      after.node? location = if location = place then some (.file number []) else files.node? location)
    (hnext : number < after.nextNumber) (hmore : files.nextNumber ≤ after.nextNumber) :
    after.Sound where
  below := by
    intro location found bytes hfile
    rw [hnodes] at hfile
    split at hfile
    · cases hfile
      exact hnext
    · exact Nat.lt_of_lt_of_le (hsound.below hfile) hmore
  alone := by
    intro location other found bytes contents hfile hother
    rw [hnodes] at hfile hother
    split at hfile
    · rename_i hlocation
      cases hfile
      split at hother
      · rename_i hsame
        rw [hlocation, hsame]
      · rw [hlocation, hnumber hother]
    · split at hother
      · rename_i hsame
        cases hother
        rw [hsame, hnumber hfile]
      · exact hsound.alone hfile hother

theorem created_of_create {path : Path} {handle : Handle}
    (h : files.create path = .ok (handle, after)) :
    Created (target files.workingDirectory path) files handle after := by
  obtain ⟨⟨parent, name?⟩, hentry, h⟩ := bind_eq_ok_iff.mp h
  cases name? with
  | none => cases h
  | some name =>
    have htarget := target_of_locateEntry hentry
    dsimp only at h
    split at h
    · cases h
    · obtain ⟨location, hlocation, h⟩ := bind_eq_ok_iff.mp h
      obtain ⟨-, rfl⟩ := entryLocation_eq_ok_iff.mp hlocation
      rw [htarget] at h
      have hroot : target files.workingDirectory path ≠ [] := by
        rw [← htarget]
        exact List.concat_ne_nil name parent
      cases hnode : files.node? (target files.workingDirectory path) with
      | none =>
        rw [hnode] at h
        cases h
        have hnodes : ∀ location,
            ({ files.put (target files.workingDirectory path) (.file files.nextNumber []) with
              nextNumber := files.nextNumber + 1 } : FileSystem).node? location =
              if location = target files.workingDirectory path then
                some (.file files.nextNumber []) else files.node? location :=
          node?_put files _ hroot
        refine ⟨rfl, rfl, by simp [isDirectoryAt, hnode], hnodes, fun hsound => ?_⟩
        apply sound_created hsound ?_ hnodes (Nat.lt_succ_self _) (Nat.le_succ _)
        intro location bytes hfile
        exact absurd (hsound.below hfile) (Nat.lt_irrefl _)
      | some node =>
        rw [hnode] at h
        cases node with
        | directory mode => cases h
        | file number bytes =>
          cases h
          refine ⟨rfl, rfl, by simp [isDirectoryAt, hnode, Node.isDirectory],
            node?_put files _ hroot, fun hsound => ?_⟩
          exact sound_created hsound (fun hfile => hsound.alone hfile hnode)
            (node?_put files _ hroot) (hsound.below hnode) (Nat.le_refl _)

namespace Created

variable {place : Location} {handle : Handle} (h : Created place files handle after)

include h

theorem node?_self : after.node? place = some (.file handle.number []) := by
  rw [h.node?, if_pos rfl]

theorem spares (hsound : files.Sound) : Spares [place] files after where
  workingDirectory := h.workingDirectory
  sound := h.sound hsound
  isDirectoryAt := by
    intro location hthere
    have hsame := sameDirectories_of_node? h.isFree rfl h.workingDirectory h.node?
    rw [hsame.isDirectoryAt, hthere]
  node? := by
    intro location hplace _
    rw [h.node?, if_neg fun heq => hplace (List.mem_singleton.mpr heq)]

end Created

/-! ## Files by their paths -/

/-- A path names an entry of a directory that is there, whether or not the entry is. -/
structure Names (files : FileSystem) (path : Path) (parent : Location) (name : String) : Prop where
  valid : checkPath path = .ok ()
  lastName : path.lastName? = some name
  noSlash : path.endsInSlash = false
  fits : name.utf8ByteSize ≤ maxNameSize
  walk : files.walk (files.origin path) path.steps.dropLast = .ok parent
  isDirectory : files.isDirectoryAt parent = true

/-- A file that could be made has a name. -/
theorem names_of_create {path : Path} {handle : Handle} (h : files.create path = .ok (handle, after)) :
    ∃ parent name, files.Names path parent name := by
  obtain ⟨⟨parent, name?⟩, hentry, h⟩ := bind_eq_ok_iff.mp h
  obtain ⟨hvalid, hwalk, hdirectory, hname⟩ := locateEntry_eq_ok_iff.mp hentry
  cases name? with
  | none => cases h
  | some name =>
    have hname : path.lastName? = some name := hname.symm
    rw [hname] at hwalk
    dsimp only at h
    cases hslash : path.endsInSlash with
    | true =>
      rw [hslash] at h
      cases h
    | false =>
      rw [hslash] at h
      obtain ⟨location, hlocation, -⟩ := bind_eq_ok_iff.mp h
      exact ⟨parent, name, hvalid, hname, hslash, (entryLocation_eq_ok_iff.mp hlocation).1, hwalk,
        hdirectory⟩

namespace Names

variable {path : Path} {parent : Location} {name : String} (h : files.Names path parent name)

include h

theorem target_eq : target files.workingDirectory path = parent ++ [name] := by
  rw [target, steps_of_lastName? h.lastName, follow_append]
  exact congrArg (· ++ [name]) (follow_of_walk h.walk).symm

/-- It does so as long as no directory is gone. -/
theorem spared {places : List Location} (hspares : Spares places files after) :
    after.Names path parent name := by
  have hdirectory := hspares.isDirectoryAt h.isDirectory
  refine ⟨h.valid, h.lastName, h.noSlash, h.fits, ?_, hdirectory⟩
  rw [origin, hspares.workingDirectory]
  exact hspares.walk h.walk (isSome_node?_of_isDirectoryAt hdirectory)

theorem read {number : Nat} {bytes : Bytes}
    (hnode : files.node? (target files.workingDirectory path) = some (.file number bytes)) :
    files.read path = .ok bytes := by
  rw [h.target_eq] at hnode
  have hstep : files.step parent (.into name) = .ok (parent ++ [name]) :=
    step_into_eq_ok_iff.mpr ⟨h.isDirectory, h.fits, rfl, by rw [hnode]; rfl⟩
  have hwalk : files.walk (files.origin path) path.steps = .ok (parent ++ [name]) := by
    rw [steps_of_lastName? h.lastName, walk_append, bind_eq_ok_iff]
    exact ⟨parent, h.walk, bind_eq_ok_iff.mpr ⟨_, hstep, rfl⟩⟩
  have hend : path.endsInDirectory = false := by
    obtain ⟨hlast, hname⟩ := Option.filter_eq_some_iff.mp h.lastName
    simp only [decide_eq_true_eq, Bool.and_eq_true] at hname
    simp [endsInDirectory, h.noSlash, hlast, hname.1]
  have hlocate : files.locate path = .ok (parent ++ [name]) := by
    simp only [FileSystem.locate, h.valid, hwalk, hend]
    rfl
  rw [FileSystem.read, hlocate]
  simp only [bind, Except.bind, hnode]

end Names

/-! ## What each operation spares -/

theorem rewritten_eq_file_iff {handle : Handle} {bytes : Bytes} {node : Node} {number : Nat}
    {contents : Bytes} (h : rewritten handle bytes node = .file number contents) :
    ∃ before, node = .file number before := by
  cases node with
  | directory mode => cases h
  | file found before =>
    dsimp only [rewritten] at h
    split at h <;> cases h <;> exact ⟨_, rfl⟩

/-- A write through a handle changes the file that has its number, and no other one. -/
theorem node?_write_of_ne (hsound : files.Sound) {place : Location} {handle : Handle}
    {contents : Bytes} (hfile : files.node? place = some (.file handle.number contents))
    (bytes : Bytes) (hplace : location ≠ place) :
    (files.write handle bytes).2.node? location = files.node? location := by
  rw [node?_write]
  cases hnode : files.node? location with
  | none => rfl
  | some node =>
    cases node with
    | directory mode => rfl
    | file number before =>
      have hother : number ≠ handle.number := by
        rintro rfl
        exact hplace (hsound.alone hnode hfile)
      simp [rewritten, hother]

theorem spares_write (hsound : files.Sound) {place : Location} {handle : Handle} {contents : Bytes}
    (hfile : files.node? place = some (.file handle.number contents)) (bytes : Bytes) :
    Spares [place] files (files.write handle bytes).2 where
  workingDirectory := rfl
  sound := by
    refine hsound.of_node? (fun {location number found} hnode => ?_) (Nat.le_refl files.nextNumber)
    rw [node?_write, Option.map_eq_some_iff] at hnode
    obtain ⟨node, hnode, hrewritten⟩ := hnode
    obtain ⟨before, rfl⟩ := rewritten_eq_file_iff hrewritten
    exact ⟨before, hnode⟩
  isDirectoryAt := by
    intro location hthere
    rw [(sameDirectories_write files handle bytes).isDirectoryAt, hthere]
  node? hplace _ :=
    node?_write_of_ne hsound hfile bytes fun heq => hplace (List.mem_singleton.mpr heq)

/-- A directory was made at a place where nothing was. -/
structure Made (place : Location) (files after : FileSystem) : Prop where
  workingDirectory : after.workingDirectory = files.workingDirectory
  nextNumber : after.nextNumber = files.nextNumber
  isFree : files.node? place = none
  node? : ∃ mode, ∀ location,
    after.node? location = if location = place then some (.directory mode) else files.node? location

theorem made_of_makeDirectory {path : Path} {mode : Nat} (h : files.makeDirectory path mode = .ok after) :
    Made (target files.workingDirectory path) files after := by
  obtain ⟨⟨parent, name?⟩, hentry, h⟩ := bind_eq_ok_iff.mp h
  cases name? with
  | none => cases h
  | some name =>
    rw [← target_of_locateEntry hentry]
    obtain ⟨location, hlocation, h⟩ := bind_eq_ok_iff.mp h
    obtain ⟨-, rfl⟩ := entryLocation_eq_ok_iff.mp hlocation
    cases hnode : files.node? (parent ++ [name]) with
    | some node =>
      rw [hnode] at h
      cases h
    | none =>
      rw [hnode] at h
      cases h
      exact ⟨rfl, rfl, hnode, mode, node?_put files _ (List.concat_ne_nil name parent)⟩

theorem Made.spares {place : Location} (h : Made place files after) (hsound : files.Sound) :
    Spares [] files after := by
  obtain ⟨mode, hnodes⟩ := h.node?
  have hother : ∀ {location}, (files.node? location).isSome = true →
      after.node? location = files.node? location := by
    intro location hthere
    rw [hnodes, if_neg]
    rintro rfl
    rw [h.isFree] at hthere
    cases hthere
  refine ⟨h.workingDirectory, hsound.of_node? ?_ (Nat.le_of_eq h.nextNumber.symm), ?_,
    fun _ hthere => hother hthere⟩
  · intro location number bytes hfile
    rw [hnodes] at hfile
    split at hfile
    · cases hfile
    · exact ⟨bytes, hfile⟩
  · intro location hthere
    rw [isDirectoryAt, hother (isSome_node?_of_isDirectoryAt hthere)]
    exact hthere

/-- What a move from one location to another leaves. -/
theorem sound_moved (hsound : files.Sound) {source goal : Location} {number : Nat} {bytes : Bytes}
    (hfile : files.node? source = some (.file number bytes))
    (hnodes : ∀ location, after.node? location =
      if location = goal then some (.file number bytes)
      else if location = source then none else files.node? location)
    (hnext : after.nextNumber = files.nextNumber) : after.Sound where
  below := by
    intro location found contents hnode
    rw [hnext]
    rw [hnodes] at hnode
    split at hnode
    · cases hnode
      exact hsound.below hfile
    · split at hnode
      · cases hnode
      · exact hsound.below hnode
  alone := by
    have hgoal : ∀ {location contents}, location ≠ source →
        files.node? location ≠ some (.file number contents) := by
      intro location contents hne hnode
      exact hne (hsound.alone hnode hfile)
    intro location other found contents there hnode hother
    rw [hnodes] at hnode hother
    split at hnode <;> split at hother
    · simp_all
    · split at hother
      · cases hother
      · cases hnode
        exact absurd hother (hgoal (by assumption))
    · split at hnode
      · cases hnode
      · cases hother
        exact absurd hnode (hgoal (by assumption))
    · split at hnode
      · cases hnode
      · split at hother
        · cases hother
        · exact hsound.alone hnode hother

/-- A file was moved from one place to another, over the file that was there. -/
structure Moved (source goal : Location) (files after : FileSystem) : Prop where
  workingDirectory : after.workingDirectory = files.workingDirectory
  isFree : files.isDirectoryAt goal = false
  node? : ∃ number bytes, files.node? source = some (.file number bytes) ∧ ∀ location,
    after.node? location = if location = goal then some (.file number bytes)
      else if location = source then none else files.node? location
  sound : files.Sound → after.Sound

theorem moved_of_rename {source goal : Path} (h : files.rename source goal = .ok after) :
    Moved (target files.workingDirectory source) (target files.workingDirectory goal) files after := by
  obtain ⟨start, hstart, h⟩ := bind_eq_ok_iff.mp h
  obtain ⟨⟨parent, name?⟩, hentry, h⟩ := bind_eq_ok_iff.mp h
  rw [← target_of_locate hstart]
  cases name? with
  | none => cases h
  | some name =>
    rw [← target_of_locateEntry hentry]
    obtain ⟨location, hlocation, h⟩ := bind_eq_ok_iff.mp h
    obtain ⟨-, rfl⟩ := entryLocation_eq_ok_iff.mp hlocation
    cases hfree : files.isDirectoryAt (parent ++ [name]) with
    | true =>
      rw [hfree] at h
      cases h
    | false =>
      rw [hfree] at h
      cases hnode : files.node? start with
      | none =>
        rw [hnode] at h
        cases h
      | some node =>
        rw [hnode] at h
        cases node with
        | directory mode => cases h
        | file number bytes =>
          cases h
          have hroot : start ≠ [] := by
            rintro rfl
            cases hnode
          have hnodes : ∀ location,
              ((files.remove start).put (parent ++ [name]) (.file number bytes)).node? location =
                if location = parent ++ [name] then some (.file number bytes)
                else if location = start then none else files.node? location := by
            intro location
            rw [node?_put _ _ (List.concat_ne_nil name parent), node?_remove _ hroot]
          exact ⟨rfl, hfree, ⟨number, bytes, hnode, hnodes⟩, fun hsound =>
            sound_moved hsound hnode hnodes rfl⟩

theorem spares_rename (hsound : files.Sound) {source goal : Path}
    (h : files.rename source goal = .ok after) :
    Spares [target files.workingDirectory source, target files.workingDirectory goal] files after := by
  have hmoved := moved_of_rename h
  generalize target files.workingDirectory source = start at hmoved ⊢
  generalize target files.workingDirectory goal = place at hmoved ⊢
  obtain ⟨number, bytes, hnode, hnodes⟩ := hmoved.node?
  refine ⟨hmoved.workingDirectory, hmoved.sound hsound, ?_, ?_⟩
  · intro location hthere
    have hgoal : location ≠ place := by
      rintro rfl
      rw [hmoved.isFree] at hthere
      cases hthere
    have hstart : location ≠ start := by
      rintro rfl
      rw [isDirectoryAt, hnode] at hthere
      cases hthere
    rw [isDirectoryAt, hnodes, if_neg hgoal, if_neg hstart]
    exact hthere
  · intro location hplace _
    simp only [List.mem_cons, List.not_mem_nil, or_false, not_or] at hplace
    rw [hnodes, if_neg hplace.2, if_neg hplace.1]

end FileSystem

/-! ## Scripts -/

namespace Script

open FileSystem (Sound target)

variable {α β : Type}

section Keeps

variable {R : FileSystem → FileSystem → Prop}

/-- Whatever a script comes to, what it leaves is related to what it found. -/
def Keeps (R : FileSystem → FileSystem → Prop) (script : Script α) : Prop :=
  ∀ files, R files (script.run files).2

variable (hrefl : ∀ files, R files files)
  (htrans : ∀ files after last, R files after → R after last → R files last)

include hrefl in
theorem keeps_pure (value : α) : (pure value : Script α).Keeps R := hrefl

include htrans in
theorem Keeps.bind {script : Script α} {next : α → Script β} (h : script.Keeps R)
    (hnext : ∀ value, (next value).Keeps R) : (script >>= next).Keeps R := by
  intro files
  rw [run_bind]
  exact htrans _ _ _ (h files) (hnext _ _)

include hrefl htrans

theorem Keeps.fallible_bind {script : Fallible α} {next : α → Fallible β} (h : script.run.Keeps R)
    (hnext : ∀ value, (next value).run.Keeps R) : (script >>= next).run.Keeps R := by
  rw [ExceptT.run_bind]
  apply h.bind htrans
  intro result
  cases result with
  | ok value => exact hnext value
  | error error => exact keeps_pure hrefl _

theorem Keeps.tryCatch {script : Fallible α} {handle : FileError → Fallible α}
    (h : script.run.Keeps R) (hhandle : ∀ error, (handle error).run.Keeps R) :
    (tryCatch script handle : Fallible α).run.Keeps R := by
  apply Keeps.bind htrans h
  intro result
  cases result with
  | ok value => exact keeps_pure hrefl _
  | error error => exact hhandle error

end Keeps

/-- Making a directory leaves everything as it is, or a directory was made. -/
theorem keeps_makeDirectory {R : FileSystem → FileSystem → Prop} (hrefl : ∀ files, R files files)
    {path : Path} (hmade : ∀ files after : FileSystem,
      FileSystem.Made (target files.workingDirectory path) files after → R files after) :
    (makeDirectory path).run.Keeps R := by
  intro files
  rw [run_makeDirectory]
  cases hmake : files.makeDirectory path FileSystem.privateMode with
  | ok after => exact hmade _ _ (FileSystem.made_of_makeDirectory hmake)
  | error error => exact hrefl files

variable {places : List Location} {working : Location}

/-- Whatever a script comes to, what was there is as before, except at the places named. -/
def Spares (places : List Location) (working : Location) (script : Script α) : Prop :=
  ∀ files : FileSystem, files.Sound → files.workingDirectory = working →
    files.Spares places (script.run files).2

/-- The relation that such a script keeps. -/
def SparesFrom (places : List Location) (working : Location) (files after : FileSystem) : Prop :=
  files.Sound → files.workingDirectory = working → files.Spares places after

theorem sparesFrom_refl (files : FileSystem) : SparesFrom places working files files :=
  fun hsound _ => .refl hsound

theorem sparesFrom_trans (files after last : FileSystem) (h : SparesFrom places working files after)
    (hlast : SparesFrom places working after last) : SparesFrom places working files last := by
  intro hsound hworking
  have hfirst := h hsound hworking
  exact hfirst.trans (hlast hfirst.sound (hfirst.workingDirectory.trans hworking))

theorem spares_pure (value : α) : (pure value : Script α).Spares places working :=
  keeps_pure sparesFrom_refl value

theorem Spares.bind {script : Script α} {next : α → Script β} (h : script.Spares places working)
    (hnext : ∀ value, (next value).Spares places working) :
    (script >>= next).Spares places working :=
  Keeps.bind sparesFrom_trans h hnext

theorem Spares.fallible_bind {script : Fallible α} {next : α → Fallible β}
    (h : script.run.Spares places working) (hnext : ∀ value, (next value).run.Spares places working) :
    (script >>= next).run.Spares places working :=
  Keeps.fallible_bind sparesFrom_refl sparesFrom_trans h hnext

end Script

end CamStream
