import CamStream.Proofs.Files.Apart
import CamStream.Proofs.Files.Ancestors
import CamStream.Proofs.Store.Effect

/-!
# No device leads out of the directory

The name of a device comes from outside and may hold anything. What it is turned into is always a single
name for a file: letters, digits and three other characters, never nothing and never a step to the directory
itself or up from it. So the file of a device and its staging file are entries of the directory, wherever
that is, and two different ones. Turning such a name into one again changes nothing, and two devices share a
file exactly if their names are turned into the same one.

* `Path.isEntry_join`: joining a plain name to the path of a directory goes one step further.
* `DirectoryStore.mem_nameChars`: the characters of a name, one by one.
* `device_files_stay_inside`: all of it, for every device and every directory.
-/

namespace CamStream

open FileSystem

namespace Path

variable {path directory : Path} {name part : String}

/-- Two texts of one path: both start at the root or neither does, and they have the same components. -/
def Same (path other : Path) : Prop :=
  path.isAbsolute = other.isAbsolute ∧ path.components = other.components

/-- The path of an entry of a directory goes one name further than that of the directory. -/
structure IsEntry (path directory : Path) (name : String) : Prop where
  plain : Plain name
  isAbsolute : path.isAbsolute = directory.isAbsolute
  components : path.components = directory.components ++ [name]
  steps : path.steps = directory.steps ++ [.into name]

theorem components_of_parts {other : Path} (h : path.parts = other.parts ++ [part]) :
    path.components = other.components ++ [part].filter fun part => part ≠ "" && part ≠ "." := by
  obtain ⟨first, others, hparts⟩ : ∃ first others, other.parts = first :: others := ⟨_, _, rfl⟩
  rw [components, h, components, hparts, List.cons_append]
  simp only [List.filter_append, List.append_assoc]

theorem filter_plain (h : Plain name) :
    [name].filter (fun part => part ≠ "" && part ≠ ".") = [name] := by
  simp [h.ne_empty, h.ne_here]

theorem components_join (directory : Path) (h : Plain name) :
    (directory.join name).components = directory.components ++ [name] := by
  have hnothing : '/' ∉ ("" : String).toList := by simp
  unfold join
  by_cases hempty : directory.text = ""
  · obtain rfl : directory = ⟨""⟩ := by rw [← hempty]
    simp [components, parts_of_noSlash h.noSlash, parts_of_noSlash hnothing, h.ne_empty]
  · by_cases hslash : directory.endsInSlash = true
    · obtain ⟨text, htext⟩ := exists_eq_append_slash hslash
      have hdirectory : directory.parts = parts ⟨text⟩ ++ [""] := by
        have happend := parts_append_slash text hnothing
        rwa [String.append_empty, ← htext] at happend
      simp only [hslash, Bool.or_true, if_true, htext]
      rw [components_of_parts (parts_append_slash text h.noSlash), components_of_parts hdirectory,
        filter_plain h]
      simp
    · simp only [hempty, hslash, decide_false, Bool.or_self, Bool.false_eq_true, if_false]
      rw [components_of_parts (parts_append_slash directory.text h.noSlash), filter_plain h]

theorem isEntry_join (directory : Path) (h : Plain name) :
    (directory.join name).IsEntry directory name :=
  ⟨h, isAbsolute_join h, components_join directory h, steps_join h⟩

namespace IsEntry

variable {other : Path} {second : String} (h : path.IsEntry directory name)

include h

theorem target_eq (working : Location) : target working path = target working directory ++ [name] := by
  rw [target, h.steps, h.isAbsolute, follow_append]
  rfl

/-- Entries of one directory have the same path if they have the same name. -/
theorem same_iff (hother : other.IsEntry directory second) : path.Same other ↔ name = second := by
  rw [Same, h.isAbsolute, hother.isAbsolute, h.components, hother.components, List.append_cancel_left_eq,
    List.singleton_inj, and_iff_right rfl]

end IsEntry

end Path

namespace DirectoryStore

variable {directory : Path} {device : String}

/-- The characters that names of files are made of. -/
def nameChars : String := "ABCDEFGHIJKLMNOPQRSTUVWXYZabcdefghijklmnopqrstuvwxyz0123456789-_."

theorem mem_nameChars {c : Char} (h : isNameChar c = true) : c ∈ nameChars.toList := by
  have hall : ∀ n < 128, isNameChar (Char.ofNat n) = true → Char.ofNat n ∈ nameChars.toList := by
    decide +kernel
  have hbelow : ∀ most : Char, c.val ≤ most.val → most.toNat < 128 → c.toNat < 128 := by
    intro most hc hmost
    exact Nat.lt_of_le_of_lt (UInt32.le_iff_toNat_le.mp hc) hmost
  have hless : c.toNat < 128 := by
    simp only [isNameChar, Char.isAlphanum, Bool.or_eq_true, decide_eq_true_eq] at h
    rcases h with ((((h | h) | rfl) | rfl) | rfl)
    · rcases Bool.or_eq_true_iff.mp h with h | h
      · exact hbelow 'Z' (decide_eq_true_iff.mp h).2 (by decide)
      · exact hbelow 'z' (decide_eq_true_iff.mp (Bool.and_eq_true_iff.mp h).2) (by decide)
    · exact hbelow '9' (decide_eq_true_iff.mp (Bool.and_eq_true_iff.mp h).2) (by decide)
    · decide
    · decide
    · decide
  have hc := hall c.toNat hless
  rw [Char.ofNat_toNat] at hc
  exact hc h

theorem isEntry_blobPath (directory : Path) (device : String) :
    (blobPath directory device).IsEntry directory (fileName device) :=
  directory.isEntry_join (plain_fileName device)

theorem isEntry_stagingPath (directory : Path) (device : String) :
    (stagingPath directory device).IsEntry directory (stagingName device) :=
  directory.isEntry_join (plain_stagingName device)

end DirectoryStore

open DirectoryStore in
/-- **No device leads out of the directory.** For every device and every directory:

* The name of its file consists of `nameChars`, is not empty, and is neither `.` nor `..`.
* The file and the staging file are entries of the directory: their paths go one plain name further than that
  of the directory, and from every working directory they lead to what has this name there.
* They are different from each other.
* To turn the name of the file into the name of a file again changes nothing.
* Two devices have the same path exactly if the names of their files are the same. -/
theorem device_files_stay_inside (directory : Path) (device : String) :
    (fileName device ≠ "" ∧ fileName device ≠ "." ∧ fileName device ≠ ".." ∧
      ∀ c ∈ (fileName device).toList, c ∈ nameChars.toList) ∧
    ((blobPath directory device).IsEntry directory (fileName device) ∧
      (stagingPath directory device).IsEntry directory ("." ++ fileName device ++ ".tmp") ∧
      ∀ working,
        target working (blobPath directory device) = target working directory ++ [fileName device] ∧
        target working (stagingPath directory device) =
          target working directory ++ ["." ++ fileName device ++ ".tmp"]) ∧
    (¬ (blobPath directory device).Same (stagingPath directory device) ∧
      ∀ working, target working (blobPath directory device) ≠
        target working (stagingPath directory device)) ∧
    fileName (fileName device) = fileName device ∧
    ∀ other,
      ((blobPath directory device).Same (blobPath directory other) ↔ fileName device = fileName other) ∧
      (blobPath directory device = blobPath directory other ↔ fileName device = fileName other) := by
  have hplain := plain_fileName device
  have hblob := isEntry_blobPath directory device
  have hstaging := isEntry_stagingPath directory device
  have hne := fileName_ne_stagingName device
  refine ⟨⟨hplain.ne_empty, hplain.ne_here, hplain.ne_up, fun c hc =>
    mem_nameChars (isNameChar_of_mem_fileName hc)⟩, ⟨hblob, hstaging, fun working =>
    ⟨hblob.target_eq working, hstaging.target_eq working⟩⟩, ⟨?_, fun working => ?_⟩, ?_, fun other => ?_⟩
  · rw [hblob.same_iff hstaging]
    exact hne
  · rw [hblob.target_eq, hstaging.target_eq]
    intro heq
    exact hne (List.singleton_inj.mp (List.append_cancel_left heq))
  · apply fileName_eq_self
    · exact fun c hc => isNameChar_of_mem_fileName hc
    · exact ⟨hplain.ne_empty, hplain.ne_here, hplain.ne_up⟩
  · have hsame := hblob.same_iff (isEntry_blobPath directory other)
    refine ⟨hsame, fun heq => ?_, fun heq => ?_⟩
    · rw [← hsame, heq]
      exact ⟨rfl, rfl⟩
    · rw [blobPath, blobPath, heq]

end CamStream
