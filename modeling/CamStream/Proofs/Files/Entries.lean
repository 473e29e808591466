import CamStream.Proofs.Files.Apart

/-!
# Entries of a directory

A path of a name inside a directory is read in two stages. The path of the directory leads to it or fails,
and what is read then depends on the name and on the entry of that name, and on nothing else.

* `FileSystem.read_join`: a read in a directory that is there.
* `FileSystem.read_join_of_notFound`: in one that is missing nothing is found.
* `FileSystem.makeDirectory_join`, `FileSystem.LeadsTo.made`: a directory can be made where there is
  nothing, and then it is there.
* `FileSystem.walk_of_makeDirectory`, `FileSystem.walk_of_makeDirectory_notFound`: a directory that could
  be made, or could not for want of those above it, was missing.
-/

namespace CamStream

namespace FileSystem

open CamStream.Path

variable {files : FileSystem} {directory : Path} {name : String} {parent : Location}

/-- The path leads to a directory. -/
structure LeadsTo (files : FileSystem) (directory : Path) (place : Location) : Prop where
  walk : files.walk (files.origin directory) directory.steps = .ok place
  isDirectory : files.isDirectoryAt place = true

theorem LeadsTo.same (h : files.LeadsTo directory parent) {other : FileSystem}
    (hsame : files.SameDirectories other) : other.LeadsTo directory parent where
  walk := by
    rw [hsame.origin]
    exact hsame.walk h.walk h.isDirectory
  isDirectory := (hsame.isDirectoryAt parent).trans h.isDirectory

theorem Place.leadsTo (h : files.Place directory name parent) : files.LeadsTo directory parent :=
  ⟨h.walk, h.isDirectory⟩

/-! ## Reading an entry -/

/-- What is read from an entry of a directory, by its name and by what is there. -/
def entryBytes (name : String) (node? : Option Node) : Except FileError Bytes :=
  if maxNameSize < name.utf8ByteSize then .error .nameTooLong
  else
    match node? with
    | some (.file _ bytes) => .ok bytes
    | some (.directory _) => .error .isADirectory
    | none => .error .notFound

theorem read_join (h : Plain name) (hleads : files.LeadsTo directory parent) :
    files.read (directory.join name) =
      (checkPath (directory.join name) >>= fun _ =>
        entryBytes name (files.node? (parent ++ [name]))) := by
  have hsteps : files.walk (files.origin (directory.join name)) (directory.join name).steps =
      files.step parent (.into name) := by
    rw [origin_join files directory h, steps_join h, walk_append, hleads.walk]
    show files.walk parent [.into name] = _
    cases hstep : files.step parent (.into name) <;> simp only [walk, hstep] <;> rfl
  cases hpath : checkPath (directory.join name) with
  | error error => simp only [FileSystem.read, locate, hpath]; rfl
  | ok _ =>
    simp only [FileSystem.read, locate, hpath, hsteps, endsInDirectory_join h]
    unfold step entryBytes
    rw [if_pos hleads.isDirectory]
    by_cases hlong : maxNameSize < name.utf8ByteSize
    · simp only [hlong, if_true]
      rfl
    · cases hnode : files.node? (parent ++ [name]) with
      | none =>
        simp only [hlong, hnode, if_false]
        rfl
      | some node =>
        simp only [hlong, hnode, if_false]
        cases node <;> simp [bind, Except.bind, hnode, pure, Except.pure]

/-- In a directory that is not there no entry is found. -/
theorem read_join_of_notFound (h : Plain name)
    (hwalk : files.walk (files.origin directory) directory.steps = .error .notFound) :
    files.read (directory.join name) =
      (checkPath (directory.join name) >>= fun _ => .error .notFound) := by
  have hsteps : files.walk (files.origin (directory.join name)) (directory.join name).steps =
      .error .notFound := by
    rw [origin_join files directory h, steps_join h, walk_append, hwalk]
    rfl
  cases hpath : checkPath (directory.join name) with
  | error error => simp only [FileSystem.read, locate, hpath]; rfl
  | ok _ => simp only [FileSystem.read, locate, hpath, hsteps]; rfl

/-- If a name can be named in a directory, so can every name that is no longer and without NUL. -/
theorem checkPath_join_of_shorter {longer : String} (h : Plain name) (hname : '\x00' ∉ name.toList)
    (hsize : name.utf8ByteSize ≤ longer.utf8ByteSize)
    (hlonger : checkPath (directory.join longer) = .ok ()) :
    checkPath (directory.join name) = .ok () := by
  obtain ⟨before, htext⟩ : ∃ before, ∀ name, (directory.join name).text = before ++ name := by
    unfold join
    split
    · exact ⟨_, fun _ => rfl⟩
    · exact ⟨_, fun _ => rfl⟩
  rw [checkPath_eq_ok_iff, htext] at hlonger ⊢
  obtain ⟨hnul, -, hlength⟩ := hlonger
  simp only [String.toList_append, String.utf8ByteSize_append, List.mem_append, not_or]
    at hnul hlength ⊢
  refine ⟨⟨hnul.1, hname⟩, ?_, by omega⟩
  simp [h.ne_empty]

/-! ## Making a directory -/

/-- Where nothing has the name of a directory, it can be made. -/
theorem makeDirectory_join (h : Plain name) (hpath : checkPath (directory.join name) = .ok ())
    (hleads : files.LeadsTo directory parent) (hfits : name.utf8ByteSize ≤ maxNameSize)
    (hnone : files.node? (parent ++ [name]) = none) (mode : Nat) :
    files.makeDirectory (directory.join name) mode =
      .ok (files.put (parent ++ [name]) (.directory mode)) := by
  have hentry : files.locateEntry (directory.join name) = .ok (parent, some name) :=
    (locateEntry_join_eq_ok_iff h).mpr ⟨hpath, hleads.walk, hleads.isDirectory, rfl⟩
  have hlocation : entryLocation parent name = .ok (parent ++ [name]) :=
    entryLocation_eq_ok_iff.mpr ⟨hfits, rfl⟩
  refine bind_eq_ok_iff.mpr ⟨_, hentry, bind_eq_ok_iff.mpr ⟨_, hlocation, ?_⟩⟩
  rw [hnone]
  rfl

theorem target_join (working : Location) (directory : Path) (h : Plain name) :
    target working (directory.join name) = target working directory ++ [name] := by
  rw [target, steps_join h, isAbsolute_join h, follow_append]
  rfl

theorem LeadsTo.target_join (hleads : files.LeadsTo directory parent) (h : Plain name) :
    target files.workingDirectory (directory.join name) = parent ++ [name] := by
  rw [FileSystem.target_join _ _ h]
  exact congrArg (· ++ [name]) (follow_of_walk hleads.walk).symm

/-- The path leads to a directory that was made. -/
theorem LeadsTo.made (hleads : files.LeadsTo directory parent) (hsound : files.Sound) (h : Plain name)
    (hfits : name.utf8ByteSize ≤ maxNameSize) {made : FileSystem}
    (hmade : Made (parent ++ [name]) files made) :
    made.LeadsTo (directory.join name) (parent ++ [name]) := by
  have hspares := hmade.spares hsound
  have hparent := hspares.isDirectoryAt hleads.isDirectory
  obtain ⟨mode, hnodes⟩ := hmade.node?
  have hnode : made.node? (parent ++ [name]) = some (.directory mode) := by rw [hnodes, if_pos rfl]
  refine ⟨?_, by rw [isDirectoryAt, hnode]; rfl⟩
  rw [origin_join made directory h, steps_join h, walk_append, bind_eq_ok_iff]
  refine ⟨parent, ?_, bind_eq_ok_iff.mpr ⟨_, step_into_eq_ok_iff.mpr ?_, rfl⟩⟩
  · rw [origin, hspares.workingDirectory]
    exact hspares.walk hleads.walk (isSome_node?_of_isDirectoryAt hparent)
  · exact ⟨hparent, hfits, rfl, by rw [hnode]; rfl⟩

/-! ## Directories that are not there -/

theorem step_into_eq_notFound_iff {start : Location} :
    files.step start (.into name) = .error .notFound ↔ files.isDirectoryAt start = true ∧
      name.utf8ByteSize ≤ maxNameSize ∧ files.node? (start ++ [name]) = none := by
  unfold step
  cases hdirectory : files.isDirectoryAt start with
  | false => simp
  | true =>
    by_cases hlong : maxNameSize < name.utf8ByteSize
    · have hfits : ¬ name.utf8ByteSize ≤ maxNameSize := Nat.not_le.mpr hlong
      simp [hlong, hfits]
    · have hfits : name.utf8ByteSize ≤ maxNameSize := Nat.le_of_not_lt hlong
      cases hnode : files.node? (start ++ [name]) <;> simp [hlong, hfits, hnode]

/-- Where a directory could be made there was none. -/
theorem walk_of_makeDirectory {path : Path} {mode : Nat} {after : FileSystem}
    (h : files.makeDirectory path mode = .ok after) :
    files.walk (files.origin path) path.steps = .error .notFound := by
  obtain ⟨⟨parent, name?⟩, hentry, h⟩ := bind_eq_ok_iff.mp h
  obtain ⟨-, hwalk, hdirectory, hname⟩ := locateEntry_eq_ok_iff.mp hentry
  cases name? with
  | none => cases h
  | some name =>
    have hname : path.lastName? = some name := hname.symm
    rw [hname] at hwalk
    obtain ⟨location, hlocation, h⟩ := bind_eq_ok_iff.mp h
    obtain ⟨hfits, rfl⟩ := entryLocation_eq_ok_iff.mp hlocation
    have hnode : files.node? (parent ++ [name]) = none := by
      cases hnode : files.node? (parent ++ [name]) with
      | none => rfl
      | some node =>
        rw [hnode] at h
        cases h
    have hstep := step_into_eq_notFound_iff.mpr ⟨hdirectory, hfits, hnode⟩
    rw [steps_of_lastName? hname, walk_append, bind_eq_error_iff]
    exact Or.inr ⟨parent, hwalk, bind_eq_error_iff.mpr (Or.inl hstep)⟩

/-- An entry is not found for want of the directories above it. -/
theorem walk_of_locateEntry_notFound {path : Path} (htext : path.text ≠ "")
    (h : files.locateEntry path = .error .notFound) :
    files.walk (files.origin path) path.steps = .error .notFound := by
  rcases bind_eq_error_iff.mp h with hpath | ⟨⟨⟩, -, h⟩
  · unfold checkPath pathFault? at hpath
    grind
  rcases bind_eq_error_iff.mp h with hwalk | ⟨parent, -, h⟩
  · cases hname : path.lastName? with
    | none => simpa [hname] using hwalk
    | some name =>
      rw [hname] at hwalk
      rw [steps_of_lastName? hname, walk_append, bind_eq_error_iff]
      exact Or.inl hwalk
  · cases hdirectory : files.isDirectoryAt parent with
    | true =>
      rw [hdirectory] at h
      cases h
    | false =>
      rw [hdirectory] at h
      cases h

/-- Where a directory could not be made for want of those above it there was none. -/
theorem walk_of_makeDirectory_notFound {path : Path} {mode : Nat} (htext : path.text ≠ "")
    (h : files.makeDirectory path mode = .error .notFound) :
    files.walk (files.origin path) path.steps = .error .notFound := by
  rcases bind_eq_error_iff.mp h with hentry | ⟨⟨parent, name?⟩, -, h⟩
  · exact walk_of_locateEntry_notFound htext hentry
  -- With the directories above it there, it fails for other reasons.
  exfalso
  cases name? with
  | none => cases h
  | some name =>
    rcases bind_eq_error_iff.mp h with hlocation | ⟨location, -, h⟩
    · unfold entryLocation at hlocation
      split at hlocation <;> cases hlocation
    · split at h <;> cases h

end FileSystem

end CamStream
