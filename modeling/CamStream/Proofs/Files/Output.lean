import CamStream.Files.Output
import CamStream.Proofs.Files.Apart

/-!
# What an output file holds

What was put into an output file is on the disk or waits in the buffer, in order, whatever is written
meanwhile to other files. When the buffer is flushed, all of it is on the disk.

* `OutputFile.Holds`: a file, its buffer, and what was put into it.
* `OutputFile.Holds.put`, `OutputFile.Holds.flush`: neither can fail, and nothing is lost.
* `OutputFile.Holds.spared`: nor does it matter what happens to other files.
-/

namespace CamStream

open FileSystem

/-! ## The bytes of texts -/

namespace Bytes

theorem toList_loop (bytes : ByteArray) (i : Nat) (reversed : Bytes) :
    ByteArray.toList.loop bytes i reversed = reversed.reverse ++ bytes.data.toList.drop i := by
  induction hleft : bytes.size - i generalizing i reversed with
  | zero =>
    have hend : bytes.data.toList.length ≤ i := by
      rw [Array.length_toList]
      exact Nat.le_of_sub_eq_zero hleft
    rw [ByteArray.toList.loop, if_neg (by omega), List.drop_eq_nil_of_le hend, List.append_nil]
  | succ left ih =>
    have hless : i < bytes.size := by omega
    have hlength : i < bytes.data.toList.length := by
      rw [Array.length_toList]
      exact hless
    have hbyte : bytes.get! i = bytes.data.toList[i] := by
      rw [Array.getElem_toList]
      exact getElem!_pos bytes.data i hless
    rw [ByteArray.toList.loop, if_pos hless, ih _ _ (by omega), List.drop_eq_getElem_cons hlength,
      List.reverse_cons, List.append_assoc, hbyte]
    rfl

theorem ofText_append (text more : String) : ofText (text ++ more) = ofText text ++ ofText more := by
  simp [ofText, ByteArray.toList, toList_loop]

theorem ofText_join (texts : List String) :
    ofText (String.join texts) = (texts.map ofText).flatten := by
  induction texts with
  | nil => simp [ofText, ByteArray.toList, toList_loop]
  | cons text texts ih =>
    rw [String.join_cons, ofText_append, ih, List.map_cons, List.flatten_cons]

end Bytes

namespace OutputFile

variable {file : OutputFile} {place : Location} {files after : FileSystem} {contents : Bytes}
  {handle : Handle}

/-! ## Writing behind the end -/

theorem overwrite_end (contents bytes : Bytes) :
    overwrite contents contents.length bytes = contents ++ bytes := by
  simp [overwrite]

/-- An open file at a place, written up to its end. -/
def AtEnd (handle : Handle) (place : Location) (files : FileSystem) (contents : Bytes) : Prop :=
  files.node? place = some (.file handle.number contents) ∧ handle.position = contents.length

theorem AtEnd.write (h : AtEnd handle place files contents) (bytes : Bytes) :
    AtEnd (files.write handle bytes).1 place (files.write handle bytes).2 (contents ++ bytes) := by
  obtain ⟨hnode, hposition⟩ := h
  constructor
  · rw [node?_write, hnode, Option.map_some, rewritten, if_pos rfl, hposition, overwrite_end]
    rfl
  · show handle.position + bytes.length = (contents ++ bytes).length
    rw [hposition, List.length_append]

theorem AtEnd.writeAll (h : AtEnd handle place files contents) (hsound : files.Sound)
    (chunks : List Bytes) :
    ∃ moved last, (chunks.foldlM Script.write handle).run.run files = (.ok moved, last) ∧
      AtEnd moved place last (contents ++ chunks.flatten) ∧ files.Spares [place] last := by
  induction chunks generalizing handle files contents with
  | nil => exact ⟨handle, files, rfl, by simpa using h, .refl hsound⟩
  | cons chunk chunks ih =>
    have hspares := spares_write hsound h.1 chunk
    obtain ⟨moved, last, hrun, hend, hrest⟩ := ih (h.write chunk) hspares.sound
    refine ⟨moved, last, ?_, ?_, hspares.trans hrest⟩
    · rw [List.foldlM_cons, Script.run_fallible_bind, Script.run_write]
      exact hrun
    · rw [List.flatten_cons, ← List.append_assoc]
      exact hend

/-! ## Files with their buffers -/

/-- A file at a place of which the contents are what is there and what waits behind it. -/
def Holds (file : OutputFile) (place : Location) (files : FileSystem) (contents : Bytes) : Prop :=
  ∃ written, AtEnd file.handle place files written ∧ written ++ file.buffer.toBytes = contents

theorem Holds.spared {places : List Location} (h : file.Holds place files contents)
    (hspares : files.Spares places after) (hplace : place ∉ places) :
    file.Holds place after contents := by
  obtain ⟨written, ⟨hnode, hposition⟩, hcontents⟩ := h
  exact ⟨written, ⟨hspares.file hplace hnode, hposition⟩, hcontents⟩

/-- A new file holds nothing, and it can be read by its path. -/
theorem holds_of_create {path : Path} (hsound : files.Sound)
    (h : (create path).run.run files = (.ok file, after)) :
    file.Holds (target files.workingDirectory path) after [] ∧
      files.Spares [target files.workingDirectory path] after ∧
      ∃ parent name, files.Names path parent name := by
  obtain ⟨handle, created, hrun, hfile⟩ := Script.run_fallible_bind_eq_ok_iff.mp h
  have hcreate := Script.run_create_eq_ok_iff.mp hrun
  have hcreated := created_of_create hcreate
  cases hfile
  exact ⟨⟨[], ⟨hcreated.node?_self, hcreated.position⟩, rfl⟩, hcreated.spares hsound,
    names_of_create hcreate⟩

theorem Holds.put (h : file.Holds place files contents) (hsound : files.Sound) (bytes : Bytes) :
    ∃ filled last, (file.put bytes).run.run files = (.ok filled, last) ∧
      filled.Holds place last (contents ++ bytes) ∧ files.Spares [place] last := by
  obtain ⟨written, hend, rfl⟩ := h
  obtain ⟨moved, last, hrun, hmoved, hspares⟩ := hend.writeAll hsound (file.buffer.put bytes).1
  refine ⟨{ handle := moved, buffer := (file.buffer.put bytes).2 }, last, ?_,
    ⟨_, hmoved, ?_⟩, hspares⟩
  · have hput : file.put bytes = (do
        return { handle := ← (file.buffer.put bytes).1.foldlM Script.write file.handle,
                 buffer := (file.buffer.put bytes).2 }) := rfl
    rw [hput, Script.run_fallible_bind, hrun]
    rfl
  · rw [List.append_assoc, List.append_assoc, file.buffer.toBytes_put bytes]

theorem Holds.putAll (h : file.Holds place files contents) (hsound : files.Sound)
    (pieces : List Bytes) :
    ∃ filled last, (pieces.foldlM OutputFile.put file).run.run files = (.ok filled, last) ∧
      filled.Holds place last (contents ++ pieces.flatten) ∧ files.Spares [place] last := by
  induction pieces generalizing file files contents with
  | nil => exact ⟨file, files, rfl, by simpa using h, .refl hsound⟩
  | cons piece pieces ih =>
    obtain ⟨filled, between, hput, hfilled, hspares⟩ := h.put hsound piece
    obtain ⟨last, after, hrun, hlast, hrest⟩ := ih hfilled hspares.sound
    refine ⟨last, after, ?_, ?_, hspares.trans hrest⟩
    · rw [List.foldlM_cons, Script.run_fallible_bind, hput]
      exact hrun
    · rw [List.flatten_cons, ← List.append_assoc]
      exact hlast

/-- A flushed file has on the disk what it holds. -/
theorem Holds.flush (h : file.Holds place files contents) (hsound : files.Sound) :
    ∃ flushed last, file.flush.run.run files = (.ok flushed, last) ∧
      (∃ number, last.node? place = some (.file number contents)) ∧ files.Spares [place] last := by
  obtain ⟨written, hend, rfl⟩ := h
  obtain ⟨moved, last, hrun, hmoved, hspares⟩ := hend.writeAll hsound file.buffer.pending
  rw [WriteBuffer.flatten_pending] at hmoved
  refine ⟨{ handle := moved }, last, ?_, ⟨moved.number, hmoved.1⟩, hspares⟩
  rw [OutputFile.flush, Script.run_fallible_bind, hrun]
  rfl

end OutputFile

end CamStream
