import CamStream.Proofs.Files.Ancestors

/-!
# Trees to which directories are added

Directories are made on the way to a path, and some of them may be left over when the rest could not be
made. A walk that fails for any other reason than that something is missing goes on to fail in the same
way, and a walk that comes to its end still does. Only a walk that was at a loss before may come further.

* `FileSystem.Grown`: directories were added where some paths lead, and nothing else happened.
* `FileSystem.walk_kept`: walks that are the same as before.
* `FileSystem.Grown.node?_missing`: a directory that was missing is empty when it has been made.
* `FileSystem.walk_of_clear`: a walk on which only directories can be met ends well, or something is
  missing.
* `FileSystem.PartOf`: a tree of which another one is a completion. What can be walked in the completion
  is there, or it is missing and can be made (`FileSystem.PartOf.makeDirectory`).
-/

namespace CamStream

open CamStream.Path

namespace Path

/-- The path lies on the way to another one. -/
structure OnTheWay (path directory : Path) : Prop where
  isAbsolute : path.isAbsolute = directory.isAbsolute
  steps : path.steps <+: directory.steps

theorem onTheWay_of_mem {directory path : Path} (h : path ∈ directory :: directory.ancestors) :
    path.OnTheWay directory := by
  rcases List.mem_cons.mp h with rfl | h
  · exact ⟨rfl, List.prefix_refl _⟩
  · exact ⟨(steps_of_mem_ancestors h).1, (steps_of_mem_ancestors h).2⟩

/-- Each ancestor lies on the way to those before it. -/
theorem pairwise_ancestors (directory : Path) :
    (directory :: directory.ancestors).Pairwise fun path above => above.OnTheWay path := by
  have hslash : ∀ n, ∀ component ∈ directory.components.take n,
      '/' ∉ component.toList ∧ component ≠ "" :=
    fun n component hmem => mem_components (List.mem_of_mem_take hmem)
  have habsolute : ∀ n, (ofComponents directory.isAbsolute (directory.components.take n)).isAbsolute =
      directory.isAbsolute := fun n => isAbsolute_ofComponents _ (hslash n)
  rw [List.pairwise_cons]
  refine ⟨fun above habove => onTheWay_of_mem (List.mem_cons_of_mem _ habove), ?_⟩
  apply List.Pairwise.filter
  rw [List.pairwise_map, List.pairwise_reverse]
  refine List.pairwise_lt_range.imp fun {n m} hless => ⟨?_, ?_⟩
  · rw [habsolute, habsolute]
  · rw [steps_ofComponents _ fun component hmem => (hslash n component hmem).1,
      steps_ofComponents _ fun component hmem => (hslash m component hmem).1]
    exact (List.take_prefix_take_left (Nat.le_of_lt hless)).filterMap _

theorem OnTheWay.origin {path directory : Path} (h : path.OnTheWay directory) (files : FileSystem) :
    files.origin path = files.origin directory := by
  rw [FileSystem.origin, h.isAbsolute]
  rfl

end Path

namespace FileSystem

variable {files after last part whole : FileSystem} {directory path : Path} {paths : List Path}
  {start location place parent : Location} {steps : List Step} {name : String}

/-! ## Directories that are added -/

/-- Directories were added where some paths lead, all of which start where the path of the directory starts.
Without a place to start from nothing can be added. -/
structure Grown (directory : Path) (paths : List Path) (files after : FileSystem) : Prop where
  workingDirectory : after.workingDirectory = files.workingDirectory
  sound : files.Sound → after.Sound
  rooted : files.Rooted → after.Rooted
  unchanged : files.isDirectoryAt (files.origin directory) = false → after = files
  node? (location : Location) : after.node? location = files.node? location ∨
    files.node? location = none ∧ after.node? location = some (.directory privateMode) ∧
      ∃ path ∈ paths, location = target files.workingDirectory path

namespace Grown

theorem refl (files : FileSystem) : Grown directory paths files files where
  workingDirectory := rfl
  sound := id
  rooted := id
  unchanged _ := rfl
  node? _ := Or.inl rfl

theorem trans (h : Grown directory paths files after) (hlast : Grown directory paths after last) :
    Grown directory paths files last where
  workingDirectory := hlast.workingDirectory.trans h.workingDirectory
  sound := hlast.sound ∘ h.sound
  rooted := hlast.rooted ∘ h.rooted
  unchanged hstart := by
    obtain rfl := h.unchanged hstart
    exact hlast.unchanged hstart
  node? location := by
    have hfirst := h.node? location
    rcases hlast.node? location with hsame | ⟨hnone, hnew, hpath⟩
    · rw [hsame]
      exact hfirst
    · right
      rw [h.workingDirectory] at hpath
      rcases hfirst with hsame | ⟨-, hthere, -⟩
      · exact ⟨hsame ▸ hnone, hnew, hpath⟩
      · rw [hnone] at hthere
        cases hthere

theorem mono (h : Grown directory paths files after) {more : List Path} (hsub : paths ⊆ more) :
    Grown directory more files after where
  workingDirectory := h.workingDirectory
  sound := h.sound
  rooted := h.rooted
  unchanged := h.unchanged
  node? location := by
    refine (h.node? location).imp_right ?_
    rintro ⟨hnone, hnew, path, hpath, htarget⟩
    exact ⟨hnone, hnew, path, hsub hpath, htarget⟩

/-- What was there is there. -/
theorem kept (h : Grown directory paths files after) (hthere : (files.node? location).isSome = true) :
    after.node? location = files.node? location := by
  rcases h.node? location with hsame | ⟨hnone, -, -⟩
  · exact hsame
  · rw [hnone] at hthere
    cases hthere

theorem isDirectoryAt (h : Grown directory paths files after)
    (hthere : files.isDirectoryAt location = true) : after.isDirectoryAt location = true := by
  unfold FileSystem.isDirectoryAt at hthere ⊢
  rwa [h.kept (isSome_node?_of_isDirectoryAt hthere)]

theorem of_isDirectoryAt (h : Grown directory paths files after)
    (hthere : after.isDirectoryAt location = true) :
    files.isDirectoryAt location = true ∨
      ∃ path ∈ paths, location = target files.workingDirectory path := by
  rcases h.node? location with hsame | ⟨-, -, hpath⟩
  · left
    unfold FileSystem.isDirectoryAt at hthere ⊢
    rwa [hsame] at hthere
  · exact Or.inr hpath

theorem origin_eq (h : Grown directory paths files after) (path : Path) :
    after.origin path = files.origin path := by
  rw [origin, h.workingDirectory]
  rfl

/-- Nothing was made where the paths start. -/
theorem origin_kept (h : Grown directory paths files after) :
    after.node? (files.origin directory) = files.node? (files.origin directory) := by
  cases hstart : files.isDirectoryAt (files.origin directory) with
  | true => exact h.kept (isSome_node?_of_isDirectoryAt hstart)
  | false => rw [h.unchanged hstart]

end Grown

/-- What a directory that could be made has changed. -/
theorem makeDirectory_eq_ok {mode : Nat} (h : files.makeDirectory path mode = .ok after) :
    ∃ parent name, path.lastName? = some name ∧
      files.walk (files.origin path) path.steps.dropLast = .ok parent ∧
      files.isDirectoryAt parent = true ∧ name.utf8ByteSize ≤ maxNameSize ∧
      files.node? (parent ++ [name]) = none ∧ after = files.put (parent ++ [name]) (.directory mode) := by
  obtain ⟨⟨parent, name?⟩, hentry, h⟩ := bind_eq_ok_iff.mp h
  obtain ⟨-, hwalk, hdirectory, hname⟩ := locateEntry_eq_ok_iff.mp hentry
  cases name? with
  | none => cases h
  | some name =>
    have hname : path.lastName? = some name := hname.symm
    rw [hname] at hwalk
    obtain ⟨location, hlocation, h⟩ := bind_eq_ok_iff.mp h
    obtain ⟨hfits, rfl⟩ := entryLocation_eq_ok_iff.mp hlocation
    refine ⟨parent, name, hname, hwalk, hdirectory, hfits, ?_⟩
    cases hnode : files.node? (parent ++ [name]) with
    | some node =>
      rw [hnode] at h
      cases h
    | none =>
      rw [hnode] at h
      cases h
      exact ⟨rfl, rfl⟩

/-- A directory is made in a directory. -/
theorem rooted_put (hrooted : files.Rooted) (hparent : files.isDirectoryAt parent = true)
    (name : String) (mode : Nat) :
    (files.put (parent ++ [name]) (.directory mode)).Rooted where
  parent {location other} hthere := by
    have hnodes := node?_put files (.directory mode) (List.concat_ne_nil name parent)
    have hkept : files.isDirectoryAt location = true →
        (files.put (parent ++ [name]) (.directory mode)).isDirectoryAt location = true := by
      intro hdirectory
      unfold isDirectoryAt at hdirectory ⊢
      rw [hnodes]
      split
      · rfl
      · exact hdirectory
    apply hkept
    rw [hnodes] at hthere
    split at hthere
    · rename_i hplace
      rw [(List.append_inj' hplace rfl).1]
      exact hparent
    · exact hrooted.parent hthere

theorem grown_of_makeDirectory (hpath : path ∈ paths) (hstart : path.isAbsolute = directory.isAbsolute)
    (h : files.makeDirectory path privateMode = .ok after) : Grown directory paths files after := by
  obtain ⟨parent, name, hname, hwalk, hparent, -, hnone, rfl⟩ := makeDirectory_eq_ok h
  have hmade := made_of_makeDirectory h
  refine ⟨rfl, fun hsound => (hmade.spares hsound).sound, fun hrooted =>
    rooted_put hrooted hparent name _, fun hmissing => ?_, fun location => ?_⟩
  · have horigin := isDirectoryAt_of_walk hwalk hparent
    rw [origin, hstart] at horigin
    exact absurd horigin (Bool.eq_false_iff.mp hmissing)
  · rw [node?_put files _ (List.concat_ne_nil name parent)]
    split
    · rename_i hlocation
      right
      rw [hlocation]
      refine ⟨hnone, rfl, path, hpath, ?_⟩
      rw [target, steps_of_lastName? hname, follow_append]
      exact congrArg (· ++ [name]) (follow_of_walk hwalk)
    · exact Or.inl rfl

/-! ## Walks -/

theorem isDirectoryAt_eq (h : after.node? location = files.node? location) :
    after.isDirectoryAt location = files.isDirectoryAt location := by
  unfold isDirectoryAt
  rw [h]

theorem Rooted.isDirectoryAt_dropLast (h : files.Rooted) (hthere : files.isDirectoryAt location = true) :
    files.isDirectoryAt location.dropLast = true := by
  rcases List.eq_nil_or_concat location with rfl | ⟨above, name, rfl⟩
  · exact hthere
  · rw [List.concat_eq_append] at hthere ⊢
    rw [List.dropLast_concat]
    exact h.parent (isSome_node?_of_isDirectoryAt hthere)

/-- A step leads to something that is there. -/
theorem isSome_node?_of_step (hrooted : files.Rooted) {step : Step}
    (h : files.step start step = .ok location) : (files.node? location).isSome = true := by
  cases step with
  | up =>
    obtain ⟨hstart, rfl⟩ := step_up_eq_ok_iff.mp h
    exact isSome_node?_of_isDirectoryAt (hrooted.isDirectoryAt_dropLast hstart)
  | into name => exact (step_into_eq_ok_iff.mp h).2.2.2

theorem isSome_node?_of_walk (hrooted : files.Rooted) (hstart : (files.node? start).isSome = true)
    (h : files.walk start steps = .ok location) : (files.node? location).isSome = true := by
  induction steps generalizing start with
  | nil =>
    cases h
    exact hstart
  | cons step steps ih =>
    obtain ⟨next, hstep, hrest⟩ := bind_eq_ok_iff.mp h
    exact ih (isSome_node?_of_step hrooted hstep) hrest

section Kept

variable (hkept : ∀ location, (files.node? location).isSome = true →
  after.node? location = files.node? location)

include hkept

theorem step_kept (hstart : after.node? start = files.node? start) {step : Step}
    (h : files.step start step ≠ .error .notFound) : after.step start step = files.step start step := by
  have hsame := isDirectoryAt_eq hstart
  cases step with
  | up => simp only [FileSystem.step, hsame]
  | into name =>
    cases hnode : files.node? (start ++ [name]) with
    | some node =>
      have hthere := hkept _ (Option.isSome_of_eq_some hnode)
      simp only [FileSystem.step, hsame, hthere]
    | none =>
      -- It is not for want of the entry that this step cannot be taken.
      by_cases hdirectory : files.isDirectoryAt start = true
      · have hlong : maxNameSize < name.utf8ByteSize := by
          apply Nat.lt_of_not_le
          intro hfits
          exact h (step_into_eq_notFound_iff.mpr ⟨hdirectory, hfits, hnode⟩)
        simp only [FileSystem.step, hsame, hlong, if_true]
      · simp only [FileSystem.step, hsame, hdirectory]
        rfl

/-- Where all that was there still is, a walk that did not miss anything is the same. -/
theorem walk_kept (hrooted : files.Rooted) (hstart : after.node? start = files.node? start)
    (h : files.walk start steps ≠ .error .notFound) :
    after.walk start steps = files.walk start steps := by
  induction steps generalizing start with
  | nil => rfl
  | cons step steps ih =>
    have hstep : files.step start step ≠ .error .notFound := by
      intro hmissing
      exact h (bind_eq_error_iff.mpr (Or.inl hmissing))
    rw [walk, walk, step_kept hkept hstart hstep]
    cases hnext : files.step start step with
    | error error => rfl
    | ok next =>
      rw [walk, hnext] at h
      exact ih (hkept next (isSome_node?_of_step hrooted hnext)) h

end Kept

/-- A read fails where its walk does. -/
theorem read_of_walk_error {error : FileError}
    (h : files.walk (files.origin path) path.steps = .error error) :
    files.read path = (checkPath path >>= fun _ => .error error) := by
  cases hpath : checkPath path <;> simp only [read, locate, hpath, h] <;> rfl

/-- Only where there is a directory is something missing. -/
theorem isDirectoryAt_of_walk_notFound (h : files.walk start steps = .error .notFound) :
    files.isDirectoryAt start = true := by
  cases steps with
  | nil => cases h
  | cons step steps =>
    rcases bind_eq_error_iff.mp h with hstep | ⟨next, hstep, -⟩
    · cases hdirectory : files.isDirectoryAt start with
      | true => rfl
      | false =>
        unfold FileSystem.step at hstep
        rw [hdirectory] at hstep
        cases hstep
    · exact isDirectoryAt_of_step hstep

/-- The first part of a walk to a directory is one, too. -/
theorem walk_front {front : List Step} (hfront : front <+: steps)
    (h : files.walk start steps = .ok location) (hlast : files.isDirectoryAt location = true) :
    files.walk start front = .ok (follow start front) ∧
      files.isDirectoryAt (follow start front) = true := by
  obtain ⟨back, rfl⟩ := hfront
  rw [walk_append] at h
  obtain ⟨between, hwalk, hback⟩ := bind_eq_ok_iff.mp h
  obtain rfl := follow_of_walk hwalk
  exact ⟨hwalk, isDirectoryAt_of_walk hback hlast⟩

theorem fits_of_walk (h : files.walk start steps = .ok location) (hname : .into name ∈ steps) :
    name.utf8ByteSize ≤ maxNameSize := by
  induction steps generalizing start with
  | nil => cases hname
  | cons step steps ih =>
    obtain ⟨next, hstep, hrest⟩ := bind_eq_ok_iff.mp h
    rcases List.mem_cons.mp hname with rfl | hname
    · exact (step_into_eq_ok_iff.mp hstep).2.1
    · exact ih hrest hname

/-- A walk on which only directories can be met, by names that can be given, leads to a directory, or
something is missing. -/
theorem walk_of_clear (hrooted : files.Rooted) (hstart : files.isDirectoryAt start = true)
    (hclear : ∀ front, front <+: steps →
      files.node? (follow start front) = none ∨ files.isDirectoryAt (follow start front) = true)
    (hfits : ∀ name, .into name ∈ steps → name.utf8ByteSize ≤ maxNameSize) :
    (files.walk start steps = .ok (follow start steps) ∧
        files.isDirectoryAt (follow start steps) = true) ∨
      files.walk start steps = .error .notFound := by
  induction steps generalizing start with
  | nil => exact Or.inl ⟨rfl, hstart⟩
  | cons step steps ih =>
    have hrest : ∀ front, front <+: steps → ∀ next, follow start (step :: front) = follow next front →
        files.node? (follow next front) = none ∨ files.isDirectoryAt (follow next front) = true := by
      intro front hfront next hnext
      rw [← hnext]
      exact hclear _ (List.cons_prefix_cons.mpr ⟨rfl, hfront⟩)
    have hnames : ∀ name, .into name ∈ steps → name.utf8ByteSize ≤ maxNameSize :=
      fun name hname => hfits name (List.mem_cons_of_mem _ hname)
    cases step with
    | up =>
      have hstep := step_up_eq_ok_iff.mpr ⟨hstart, rfl⟩
      rw [walk, hstep]
      exact ih (hrooted.isDirectoryAt_dropLast hstart)
        (fun front hfront => hrest front hfront _ rfl) hnames
    | into name =>
      have hname := hfits name List.mem_cons_self
      rcases hclear [.into name] (List.cons_prefix_cons.mpr ⟨rfl, List.nil_prefix⟩) with hnone | hnext
      · right
        exact bind_eq_error_iff.mpr (Or.inl (step_into_eq_notFound_iff.mpr ⟨hstart, hname, hnone⟩))
      · have hstep := step_into_eq_ok_iff.mpr
          ⟨hstart, hname, rfl, isSome_node?_of_isDirectoryAt hnext⟩
        rw [walk, hstep]
        exact ih hnext (fun front hfront => hrest front hfront _ rfl) hnames

/-- On a walk that misses something there are directories and then nothing. -/
theorem Rooted.clear_of_notFound (h : files.Rooted) (hup : files.NoUpBehind start steps)
    (hwalk : files.walk start steps = .error .notFound) {front : List Step} (hfront : front <+: steps) :
    files.node? (follow start front) = none ∨ files.isDirectoryAt (follow start front) = true := by
  have hupFront := (hup.front hfront).1
  obtain ⟨back, rfl⟩ := hfront
  rw [walk_append] at hwalk
  rcases bind_eq_error_iff.mp hwalk with hmissing | ⟨between, hthere, hmissing⟩
  · left
    have hbelow := h.node?_below hupFront hmissing []
    rwa [List.append_nil] at hbelow
  · right
    obtain rfl := follow_of_walk hthere
    exact isDirectoryAt_of_walk_notFound hmissing

/-- A directory that was missing is empty when it has been made. -/
theorem Grown.node?_missing (h : Grown directory paths files after)
    (hway : ∀ path ∈ paths, path.OnTheWay directory) (hrooted : files.Rooted)
    (hup : files.NoUpBehind (files.origin directory) directory.steps)
    (hwalk : files.walk (files.origin directory) directory.steps = .error .notFound) (name : String) :
    after.node? (target files.workingDirectory directory ++ [name]) = none := by
  rcases h.node? (target files.workingDirectory directory ++ [name]) with
    hsame | ⟨hnone, -, path, hpath, hlocation⟩
  · rw [hsame]
    exact hrooted.node?_below hup hwalk [name]
  · obtain ⟨habsolute, hprefix⟩ := hway path hpath
    rcases (hup.front hprefix).2 with ⟨place, hthere⟩ | ⟨rest, hrest, hdown⟩
    · -- The path can be walked, so there was no need to make anything where it leads.
      have hstart := isSome_node?_of_isDirectoryAt (isDirectoryAt_of_walk_notFound hwalk)
      have hsome := isSome_node?_of_walk hrooted hstart hthere
      have htarget : target files.workingDirectory path = place := by
        rw [← (hway path hpath).origin files] at hthere
        exact (follow_of_walk hthere).symm
      rw [← htarget, ← hlocation, hnone] at hsome
      cases hsome
    · -- Behind the path come only steps down, so it does not lead into the directory.
      exact absurd hlocation (target_ne_of_append habsolute hrest hdown _ _)

/-! ## Paths to directories -/

theorem LeadsTo.isDirectory_path (h : files.LeadsTo path place) (hpath : checkPath path = .ok ()) :
    files.isDirectory path = true := by
  have hlocate : files.locate path = .ok place := by
    simp only [locate, hpath, h.walk, bind, Except.bind, h.isDirectory, Bool.not_true, Bool.and_false,
      Bool.false_eq_true, if_false]
    rfl
  simp only [FileSystem.isDirectory, hlocate, h.isDirectory]

theorem leadsTo_of_isDirectory (h : files.isDirectory path = true) :
    checkPath path = .ok () ∧ ∃ place, files.LeadsTo path place := by
  unfold FileSystem.isDirectory at h
  split at h
  · rename_i place hlocate
    obtain ⟨⟨⟩, hpath, hlocate⟩ := bind_eq_ok_iff.mp hlocate
    obtain ⟨found, hwalk, hlocate⟩ := bind_eq_ok_iff.mp hlocate
    have hfound : found = place := by
      split at hlocate <;> cases hlocate
      rfl
    exact ⟨hpath, place, hfound ▸ hwalk, h⟩
  · cases h

theorem LeadsTo.target_eq (h : files.LeadsTo path place) :
    place = target files.workingDirectory path := follow_of_walk h.walk

/-- The path of a directory goes through the one in which it lies. -/
theorem leadsTo_of_lastName? (hname : path.lastName? = some name)
    (hwalk : files.walk (files.origin path) path.steps.dropLast = .ok parent)
    (hparent : files.isDirectoryAt parent = true) (hfits : name.utf8ByteSize ≤ maxNameSize)
    (hthere : files.isDirectoryAt (parent ++ [name]) = true) :
    files.LeadsTo path (parent ++ [name]) where
  walk := by
    have hstep := step_into_eq_ok_iff.mpr ⟨hparent, hfits, rfl, isSome_node?_of_isDirectoryAt hthere⟩
    rw [steps_of_lastName? hname, walk_append]
    exact bind_eq_ok_iff.mpr ⟨parent, hwalk, bind_eq_ok_iff.mpr ⟨_, hstep, rfl⟩⟩
  isDirectory := hthere

/-- Where a path does not lead to a directory, and not for want of anything, no name behind it leads
anywhere. -/
theorem walk_into_of_not_leadsTo (h : ¬ ∃ place, files.LeadsTo path place)
    (hwalk : files.walk (files.origin path) path.steps ≠ .error .notFound) (name : String) :
    ∃ error, error ≠ FileError.notFound ∧
      files.walk (files.origin path) (path.steps ++ [.into name]) = .error error := by
  rw [walk_append]
  cases hpath : files.walk (files.origin path) path.steps with
  | error error =>
    rw [hpath] at hwalk
    exact ⟨error, fun heq => hwalk (congrArg _ heq), rfl⟩
  | ok place =>
    have hplace : files.isDirectoryAt place = false := by
      apply Bool.eq_false_iff.mpr
      intro hdirectory
      exact h ⟨place, hpath, hdirectory⟩
    refine ⟨.notADirectory, by simp, bind_eq_error_iff.mpr (Or.inr ⟨place, rfl, ?_⟩)⟩
    apply bind_eq_error_iff.mpr
    left
    unfold step
    rw [hplace]
    rfl

theorem LeadsTo.onTheWay (h : files.LeadsTo directory place) (hpath : path.OnTheWay directory) :
    files.LeadsTo path (target files.workingDirectory path) := by
  have hwalk := walk_front hpath.steps h.walk h.isDirectory
  rw [← hpath.origin] at hwalk
  exact ⟨hwalk.1, hwalk.2⟩

/-- The way to the directory in which a path names an entry is the first part of the path. -/
theorem front_entrySteps (path : Path) :
    (if path.lastName?.isSome then path.steps.dropLast else path.steps) <+: path.steps := by
  split
  · exact List.dropLast_prefix _
  · exact List.prefix_refl _

theorem LeadsTo.exists_locateEntry (h : files.LeadsTo path place) (hpath : checkPath path = .ok ()) :
    ∃ parent, files.locateEntry path = .ok (parent, path.lastName?) := by
  have hwalk := walk_front (front_entrySteps path) h.walk h.isDirectory
  exact ⟨_, locateEntry_eq_ok_iff.mpr ⟨hpath, hwalk.1, hwalk.2, rfl⟩⟩

theorem LeadsTo.of_more (h : files.LeadsTo path place)
    (hworking : after.workingDirectory = files.workingDirectory)
    (hmore : ∀ location, files.isDirectoryAt location = true → after.isDirectoryAt location = true) :
    after.LeadsTo path place where
  walk := by
    rw [origin, hworking]
    exact walk_of_more hmore h.walk h.isDirectory
  isDirectory := hmore _ h.isDirectory

theorem locateEntry_of_more (hworking : after.workingDirectory = files.workingDirectory)
    (hmore : ∀ location, files.isDirectoryAt location = true → after.isDirectoryAt location = true)
    {entry : Location × Option String} (h : files.locateEntry path = .ok entry) :
    after.locateEntry path = .ok entry := by
  rw [locateEntry_eq_ok_iff] at h ⊢
  have horigin : after.origin path = files.origin path := by rw [origin, hworking]; rfl
  rw [horigin]
  exact ⟨h.1, walk_of_more hmore h.2.1 h.2.2.1, hmore _ h.2.2.1, h.2.2.2⟩

/-! ## Trees that can be completed -/

/-- A tree of which the other one is a completion: it has all directories of this one, and where it has
more there is nothing here. -/
structure PartOf (part whole : FileSystem) : Prop where
  workingDirectory : whole.workingDirectory = part.workingDirectory
  rooted : part.Rooted
  isDirectoryAt {location : Location} (h : part.isDirectoryAt location = true) :
    whole.isDirectoryAt location = true
  clear {location : Location} (h : whole.isDirectoryAt location = true) :
    part.node? location = none ∨ part.isDirectoryAt location = true

/-- Directories that the completion has may be added. -/
theorem PartOf.grown (h : part.PartOf whole) (hgrown : Grown directory paths part after)
    (hpaths : ∀ path ∈ paths, whole.isDirectoryAt (target part.workingDirectory path) = true) :
    after.PartOf whole where
  workingDirectory := h.workingDirectory.trans hgrown.workingDirectory.symm
  rooted := hgrown.rooted h.rooted
  isDirectoryAt hthere := by
    rcases hgrown.of_isDirectoryAt hthere with hthere | ⟨path, hpath, rfl⟩
    · exact h.isDirectoryAt hthere
    · exact hpaths path hpath
  clear {location} hwhole := by
    rcases hgrown.node? location with hsame | ⟨-, hnew, -⟩
    · rw [hsame, isDirectoryAt_eq hsame]
      exact h.clear hwhole
    · right
      rw [FileSystem.isDirectoryAt, hnew]
      rfl

theorem Grown.partOf (h : Grown directory paths files after) (hrooted : files.Rooted) :
    files.PartOf after where
  workingDirectory := h.workingDirectory
  rooted := hrooted
  isDirectoryAt := h.isDirectoryAt
  clear {location} hthere := by
    cases hnode : files.node? location with
    | none => exact Or.inl rfl
    | some node =>
      right
      rw [← isDirectoryAt_eq (h.kept (Option.isSome_of_eq_some hnode))]
      exact hthere

section PartOf

variable (h : part.PartOf whole)

include h

theorem PartOf.walk (hstart : part.isDirectoryAt start = true)
    (hwalk : whole.walk start steps = .ok location) (hlast : whole.isDirectoryAt location = true) :
    (part.walk start steps = .ok location ∧ part.isDirectoryAt location = true) ∨
      part.walk start steps = .error .notFound := by
  rw [follow_of_walk hwalk]
  apply walk_of_clear h.rooted hstart
  · intro front hfront
    exact h.clear (walk_front hfront hwalk hlast).2
  · intro name hname
    exact fits_of_walk hwalk hname

variable (hleads : whole.LeadsTo path place)

include hleads

/-- Where the completion has a directory, the one in which it lies is there or missing. -/
theorem PartOf.locateEntry (hpath : checkPath path = .ok ())
    (hstart : part.isDirectoryAt (part.origin path) = true) :
    (∃ parent, part.locateEntry path = .ok (parent, path.lastName?)) ∨
      part.locateEntry path = .error .notFound := by
  have hwalk := walk_front (front_entrySteps path) hleads.walk hleads.isDirectory
  have horigin : whole.origin path = part.origin path := by rw [origin, h.workingDirectory]; rfl
  rw [horigin] at hwalk
  rcases h.walk hstart hwalk.1 hwalk.2 with ⟨hthere, hdirectory⟩ | hmissing
  · exact Or.inl ⟨_, locateEntry_eq_ok_iff.mpr ⟨hpath, hthere, hdirectory, rfl⟩⟩
  · right
    simp only [FileSystem.locateEntry, hpath, hmissing]
    rfl

/-- In a directory that is there, the one that the completion has is there, or it can be made. -/
theorem PartOf.makeDirectory (hentry : part.locateEntry path = .ok (parent, path.lastName?)) :
    (part.makeDirectory path privateMode = .error .alreadyExists ∧ part.LeadsTo path place) ∨
      ∃ after, part.makeDirectory path privateMode = .ok after ∧ after.LeadsTo path place := by
  obtain ⟨-, hwalk, hparent, -⟩ := locateEntry_eq_ok_iff.mp hentry
  have hplace := hleads.target_eq
  rw [h.workingDirectory] at hplace
  cases hname : path.lastName? with
  | none =>
    rw [hname] at hwalk hentry
    left
    refine ⟨by simp only [FileSystem.makeDirectory, hentry]; rfl, ?_⟩
    have hsame : place = parent := hplace.trans (follow_of_walk hwalk).symm
    exact ⟨hsame ▸ hwalk, hsame ▸ hparent⟩
  | some name =>
    rw [hname] at hwalk hentry
    obtain rfl : place = parent ++ [name] := by
      rw [hplace, target, steps_of_lastName? hname, follow_append]
      exact congrArg (· ++ [name]) (follow_of_walk hwalk).symm
    have hfits : name.utf8ByteSize ≤ maxNameSize := by
      apply fits_of_walk hleads.walk
      rw [steps_of_lastName? hname]
      exact List.mem_append_right _ (List.mem_singleton_self _)
    have hlocation : entryLocation parent name = .ok (parent ++ [name]) :=
      entryLocation_eq_ok_iff.mpr ⟨hfits, rfl⟩
    rcases h.clear hleads.isDirectory with hnone | hthere
    · right
      have hmake : part.makeDirectory path privateMode =
          .ok (part.put (parent ++ [name]) (.directory privateMode)) := by
        simp only [FileSystem.makeDirectory, hentry, hlocation, hnone, bind, Except.bind]
        rfl
      have hgrown := grown_of_makeDirectory (List.mem_singleton_self path) rfl hmake
      have hwalk : part.walk (part.origin path) path.steps.dropLast = .ok parent := hwalk
      refine ⟨_, hmake, leadsTo_of_lastName? hname ?_ (hgrown.isDirectoryAt hparent) hfits ?_⟩
      · rw [hgrown.origin_eq, walk_kept (fun _ => hgrown.kept) h.rooted hgrown.origin_kept, hwalk]
        rw [hwalk]
        simp
      · rw [FileSystem.isDirectoryAt, node?_put part _ (List.concat_ne_nil name parent), if_pos rfl]
        rfl
    · left
      have hsome := isSome_node?_of_isDirectoryAt hthere
      refine ⟨?_, leadsTo_of_lastName? hname hwalk hparent hfits hthere⟩
      simp only [FileSystem.makeDirectory, hentry, hlocation, bind, Except.bind, hsome]
      rfl

end PartOf

end FileSystem

end CamStream
