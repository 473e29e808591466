import CamStream.CommandLine.Replay
import CamStream.Proofs.Store.Apart
import CamStream.Proofs.Store.Directory

/-!
# Before a replay begins

The framer of a replay is the one that the store was left with, and reading the store changes nothing.

* `Settings.run_openFramer`: looking into the store gives a framer, and that is all.
-/

namespace CamStream

/-- An action that changes neither the files nor what is left to the worker. -/
def OnlyLooks {α : Type} (action : Keeping α) : Prop :=
  ∀ jobs files, ∃ value, (action.run jobs).run files = ((value, jobs), files)

namespace OnlyLooks

theorem pure {α : Type} (value : α) : OnlyLooks (Pure.pure value) := fun _ _ => ⟨value, rfl⟩

theorem bind {α β : Type} {action : Keeping α} {next : α → Keeping β} (h : OnlyLooks action)
    (hnext : ∀ value, OnlyLooks (next value)) : OnlyLooks (action >>= next) := by
  intro jobs files
  obtain ⟨value, hrun⟩ := h jobs files
  obtain ⟨last, hlast⟩ := hnext value jobs files
  refine ⟨last, ?_⟩
  rw [StateT.run_bind, Script.run_bind, hrun]
  exact hlast

theorem lift {α : Type} {script : Script α} (h : ∀ files, (script.run files).2 = files) :
    OnlyLooks (StateT.lift script : Keeping α) := by
  intro jobs files
  refine ⟨(script.run files).1, ?_⟩
  rw [StateT.run_lift, Script.run_bind, Script.run_pure, h]

end OnlyLooks

namespace Persistence

variable {persistence : Persistence} {home : Option String} {device : String}

theorem onlyLooks_read {store : BlobStore Keeping} (h : persistence.openStore home = some store) :
    OnlyLooks (store.read device) := by
  have hlooks : OnlyLooks (StateT.lift
      ((BlobStore.directory (persistence.directoryOr home)).read device) : Keeping _) :=
    .lift fun files => congrArg Prod.snd (DirectoryStore.run_read _ device files)
  obtain ⟨-, rfl | rfl⟩ := openStore_eq_some h <;> exact hlooks

end Persistence

namespace Settings

theorem onlyLooks_openFramer (settings : Settings) (home : Option String) (device : String) :
    OnlyLooks (settings.openFramer (settings.persistence.openKeeper home device)) := by
  refine .bind ?_ fun framer => .pure _
  cases hkeeper : settings.persistence.openKeeper home device with
  | none => exact .pure _
  | some keeper =>
    obtain ⟨store, hstore, rfl⟩ := Option.map_eq_some_iff.mp hkeeper
    refine .bind (.bind (.bind (Persistence.onlyLooks_read hstore) ?_) ?_) fun sets => .pure _
    · intro answer
      split <;> exact .pure _
    · intro sets?
      split <;> exact .pure _

/-- The framer that a session starts with. -/
def framer (settings : Settings) (home : Option String) (files : FileSystem) : Framer :=
  ((((settings.openFramer (settings.persistence.openKeeper home settings.device)).run []).run
    files).1).1

theorem run_openFramer (settings : Settings) (home : Option String) (files : FileSystem) :
    ((settings.openFramer (settings.persistence.openKeeper home settings.device)).run []).run files =
      ((settings.framer home files, []), files) := by
  obtain ⟨value, hrun⟩ := settings.onlyLooks_openFramer home settings.device [] files
  rw [framer, hrun]

end Settings

end CamStream
