import CamStream.CommandLine.Arguments
import CamStream.Proofs.Outcome

/-!
# What arguments have been checked for

Reading arguments is a run of steps, each of which takes over one option with a value of its kind
(`Arguments.Takes`, `Arguments.readFrom_cons_cases`). So the values of all options that are given are of their kinds
(`Arguments.Proper`), and of what the arguments ask for two things are known: no directory has an
empty name, and a width comes with a height (`Arguments.Sound`). Nothing is known of the device, nor
that a number is not zero.
-/

namespace CamStream

namespace Arguments

variable {given last : Given} {argument option text : String} {kind : ValueKind}
  {rest texts : List String} {arguments : Arguments}

/-! ## Options -/

theorem of_give_eq_ok (h : give given option kind text = .ok last) :
    (kind ≠ .nothing → isValue kind text = true) ∧ last = given.put option text := by
  unfold give at h
  split at h
  · cases h
  · split at h
    · cases h
    · rename_i hchecked
      cases h
      refine ⟨fun htakes => ?_, rfl⟩
      simpa [htakes] using hchecked

/-- An option is taken over, with a value of its kind. -/
def Takes (given after : Given) : Prop :=
  ∃ option kind text, options.lookup option = some kind ∧ give given option kind text = .ok after

theorem exists_takes (hkind : options.lookup option = some kind)
    (h : (give given option kind text >>= (readFrom · texts)) = .ok (some last)) :
    ∃ after, Takes given after ∧ readFrom after texts = .ok (some last) := by
  obtain ⟨after, hgive, hread⟩ := bind_eq_ok_iff.mp h
  exact ⟨after, ⟨option, kind, text, hkind, hgive⟩, hread⟩

/-- One step of reading: the arguments are over, or an option is taken over, and reading goes on
behind it. -/
theorem readFrom_cons_cases (h : readFrom given (argument :: rest) = .ok (some last)) :
    last = given ∨ ∃ after later, Takes given after ∧ later.length ≤ rest.length ∧
      readFrom after later = .ok (some last) := by
  unfold readFrom at h
  split at h
  · split at h <;> cases h
    exact Or.inl rfl
  · split at h
    split at h
    · split at h <;> cases h
    · split at h
      · cases h
      · cases h
      · rename_i hkind _
        obtain ⟨after, htakes, hread⟩ := exists_takes hkind h
        exact Or.inr ⟨after, _, htakes, Nat.le_refl _, hread⟩
      · rename_i hkind _
        obtain ⟨after, htakes, hread⟩ := exists_takes hkind h
        exact Or.inr ⟨after, _, htakes, Nat.le_refl _, hread⟩
      · rename_i hkind _
        -- The value is an argument of its own.
        split at h
        · obtain ⟨after, htakes, hread⟩ := exists_takes hkind h
          exact Or.inr ⟨after, _, htakes, Nat.le_succ _, hread⟩
        · cases h
      · cases h
  · cases h
  · cases h

/-- The values that are given are of the kinds that their options take. -/
def Proper (given : Given) : Prop :=
  ∀ option kind text, options.lookup option = some kind → kind ≠ .nothing →
    given.get? option = some text → isValue kind text = true

theorem Proper.takes {after : Given} (h : Proper given) (htakes : Takes given after) :
    Proper after := by
  obtain ⟨option, kind, text, hkind, hgive⟩ := htakes
  obtain ⟨hvalue, rfl⟩ := of_give_eq_ok hgive
  intro other otherKind otherText hother htakesValue hget
  rw [KeyedList.get?_put] at hget
  split at hget
  · rename_i hsame
    subst hsame
    cases hget
    rw [hkind] at hother
    cases hother
    exact hvalue htakesValue
  · exact h other otherKind otherText hother htakesValue hget

theorem Proper.readFrom (h : Proper given) (hread : Arguments.readFrom given texts = .ok (some last)) :
    Proper last := by
  -- The induction is on the number of arguments left, since a step may take two of them.
  induction hlength : texts.length using Nat.strongRecOn generalizing given texts with
  | ind length ih =>
    cases texts with
    | nil =>
      cases hread
      exact h
    | cons argument rest =>
      rcases readFrom_cons_cases hread with rfl | ⟨after, later, htakes, hle, hlater⟩
      · exact h
      · rw [List.length_cons] at hlength
        exact ih later.length (by omega) (h.takes htakes) hlater rfl

/-! ## What is asked for -/

/-- What is known of arguments that have been read. -/
structure Sound (arguments : Arguments) : Prop where
  directory : arguments.storeDirectory ≠ some ⟨""⟩
  size : arguments.width.isSome = arguments.height.isSome

theorem isSome_of_requireCompanion {companion : String}
    (h : requireCompanion given option companion = .ok ()) (hgiven : (given.get? option).isSome) :
    (given.get? companion).isSome := by
  unfold requireCompanion at h
  split at h
  · cases h
  · rename_i hthere
    simpa [hgiven, Option.isSome_iff_ne_none] using hthere

theorem Proper.isSome_number? (h : Proper given) (hkind : options.lookup option = some .number) :
    ((given.get? option).bind number?).isSome = (given.get? option).isSome := by
  cases hget : given.get? option with
  | none => rfl
  | some text => exact h option .number text hkind (by decide) hget

theorem Proper.sound (h : Proper given) (hasked : ofGiven given = .ok arguments) :
    arguments.Sound := by
  unfold ofGiven at hasked
  dsimp only at hasked
  split at hasked
  · obtain ⟨_, hwidth, hasked⟩ := bind_eq_ok_iff.mp hasked
    obtain ⟨_, hheight, hasked⟩ := bind_eq_ok_iff.mp hasked
    cases hasked
    refine ⟨fun hempty => ?_, ?_⟩
    · obtain ⟨text, hget, htext⟩ := Option.map_eq_some_iff.mp hempty
      cases htext
      exact absurd (h "spspps-dir" .path "" (by decide) (by decide) hget) (by decide)
    · dsimp only
      rw [h.isSome_number? (by decide), h.isSome_number? (by decide), Bool.eq_iff_iff]
      exact ⟨isSome_of_requireCompanion hwidth, isSome_of_requireCompanion hheight⟩
  · cases hasked

theorem sound_of_ofArguments (h : Command.ofArguments texts = .ok (.replay arguments)) :
    arguments.Sound := by
  obtain ⟨given?, hread, h⟩ := bind_eq_ok_iff.mp h
  cases given? with
  | none => cases h
  | some given =>
    obtain ⟨asked, hasked, h⟩ := bind_eq_ok_iff.mp h
    cases h
    have hnothing : Proper [] := fun _ _ _ _ _ hget => nomatch hget
    exact (hnothing.readFrom hread).sound hasked

end Arguments

end CamStream
