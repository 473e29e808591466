import CamStream.Proofs.Files.Entries

/-!
# Directories above directories

A directory that is made with all the directories above it that are missing is new, and so it is empty.
That needs two things: its ancestors are what the steps of its path lead to, none of them a place in the
directory itself; and in a tree nothing lies below a place where nothing is. A path may lead through a
directory that is made, and by a `..` out of it again to one that was there all the time. So no `..` may
stand behind the part of the path that is there.

* `Path.steps_of_mem_ancestors`: the steps to an ancestor are the first steps of the path.
* `FileSystem.Rooted`: whatever there is lies in a directory.
* `FileSystem.NoUpBehind`: no `..` stands behind the part of a walk that is there.
* `FileSystem.Rooted.node?_below`: nothing lies below a path that leads nowhere.
-/

namespace CamStream

namespace Path

variable {components : List String}

/-! ## The paths of ancestors -/

theorem noSlash_partsOf {chars part : List Char}
    (h : part ∈ (partsOf chars).1 :: (partsOf chars).2) : '/' ∉ part := by
  induction chars generalizing part with
  | nil =>
    rw [partsOf, List.mem_singleton] at h
    simp [h]
  | cons c rest ih =>
    rw [partsOf] at h
    by_cases hslash : c = '/'
    · simp only [hslash, if_true, List.mem_cons] at h
      rcases h with rfl | h
      · exact List.not_mem_nil
      · exact ih (List.mem_cons.mpr h)
    · simp only [hslash, if_false, List.mem_cons] at h
      rcases h with rfl | h
      · rw [List.mem_cons, not_or]
        exact ⟨Ne.symm hslash, ih List.mem_cons_self⟩
      · exact ih (List.mem_cons_of_mem _ h)

theorem noSlash_parts {path : Path} {part : String} (h : part ∈ path.parts) :
    '/' ∉ part.toList := by
  obtain ⟨chars, hchars, rfl⟩ := List.mem_map.mp h
  rw [String.toList_ofList]
  exact noSlash_partsOf hchars

theorem mem_components {path : Path} {component : String} (h : component ∈ path.components) :
    '/' ∉ component.toList ∧ component ≠ "" := by
  have hparts : component ∈ path.parts ∧ component ≠ "" := by
    unfold components at h
    cases hparts : path.parts with
    | nil => simp [hparts] at h
    | cons first others =>
      simp only [hparts, List.mem_append, List.mem_filter, List.mem_singleton, decide_eq_true_eq,
        Bool.and_eq_true] at h
      rcases h with ⟨rfl, hne⟩ | ⟨hmem, hne, -⟩
      · exact ⟨List.mem_cons_self, hne⟩
      · exact ⟨List.mem_cons_of_mem _ hmem, hne⟩
  exact ⟨noSlash_parts hparts.1, hparts.2⟩

/-- The parts that are left out stand for no steps. -/
theorem steps_eq_components (path : Path) :
    path.steps = path.components.filterMap Step.ofPart? := by
  have hleft : ∀ (parts : List String) (keep : String → Bool),
      (∀ part, keep part = false → Step.ofPart? part = none) →
      (parts.filter keep).filterMap Step.ofPart? = parts.filterMap Step.ofPart? := by
    intro parts keep hnone
    rw [List.filterMap_filter]
    congr 1
    funext part
    cases hkeep : keep part with
    | true => rfl
    | false => exact (hnone part hkeep).symm
  unfold steps components
  cases path.parts with
  | nil => rfl
  | cons first others =>
    rw [List.filterMap_append, hleft [first], hleft others, ← List.filterMap_append]
    · rfl
    · intro part hpart
      simp only [Bool.and_eq_false_iff, decide_eq_false_iff_not, Decidable.not_not] at hpart
      rcases hpart with rfl | rfl <;> rfl
    · intro part hpart
      simp only [decide_eq_false_iff_not, Decidable.not_not] at hpart
      rw [hpart]
      rfl

theorem parts_intercalate (hne : components ≠ [])
    (hslash : ∀ component ∈ components, '/' ∉ component.toList) :
    parts ⟨"/".intercalate components⟩ = components := by
  induction components with
  | nil => exact absurd rfl hne
  | cons first rest ih =>
    have hfirst := hslash first List.mem_cons_self
    cases rest with
    | nil => rw [String.intercalate_singleton, parts_of_noSlash hfirst]
    | cons second rest =>
      have hrest := ih (List.cons_ne_nil _ _) fun component hmem =>
        hslash component (List.mem_cons_of_mem _ hmem)
      rw [String.intercalate_cons_cons, parts_slash, parts_of_noSlash hfirst, hrest]
      rfl

theorem steps_ofComponents (absolute : Bool)
    (hslash : ∀ component ∈ components, '/' ∉ component.toList) :
    (ofComponents absolute components).steps = components.filterMap Step.ofPart? := by
  have hrelative : steps ⟨"/".intercalate components⟩ = components.filterMap Step.ofPart? := by
    cases components with
    | nil => rfl
    | cons first rest => rw [steps, parts_intercalate (List.cons_ne_nil _ _) hslash]
  rw [← hrelative]
  cases absolute with
  | false => simp [ofComponents]
  | true =>
    have hparts := parts_slash "" ("/".intercalate components)
    rw [String.empty_append] at hparts
    simp only [steps, ofComponents, if_true, hparts]
    rfl

theorem isAbsolute_ofComponents (absolute : Bool)
    (h : ∀ component ∈ components, '/' ∉ component.toList ∧ component ≠ "") :
    (ofComponents absolute components).isAbsolute = absolute := by
  cases absolute with
  | true => simp [ofComponents, isAbsolute]
  | false =>
    cases components with
    | nil => rfl
    | cons first rest =>
      obtain ⟨hslash, hne⟩ := h first List.mem_cons_self
      obtain ⟨more, htext⟩ : ∃ more, "/".intercalate (first :: rest) = first ++ more := by
        cases rest with
        | nil => exact ⟨"", by simp⟩
        | cons second rest => exact ⟨"/" ++ "/".intercalate (second :: rest), by
            rw [String.intercalate_cons_cons, String.append_assoc]⟩
      have hchars : first.toList ≠ [] := by simpa using hne
      have hhead : first.toList.head hchars ≠ '/' := by
        intro heq
        apply hslash
        rw [← heq]
        exact List.head_mem hchars
      simp [ofComponents, isAbsolute, htext, List.head?_append, List.head?_eq_some_head hchars, hhead]

/-- An ancestor starts where the path starts, and the steps to it are the first steps of the path. -/
theorem steps_of_mem_ancestors {path ancestor : Path} (h : ancestor ∈ path.ancestors) :
    ancestor.isAbsolute = path.isAbsolute ∧ ancestor.steps <+: path.steps := by
  obtain ⟨hancestor, -⟩ := List.mem_filter.mp h
  obtain ⟨n, -, rfl⟩ := List.mem_map.mp hancestor
  have hcomponents : ∀ component ∈ path.components.take n,
      '/' ∉ component.toList ∧ component ≠ "" :=
    fun component hmem => mem_components (List.mem_of_mem_take hmem)
  refine ⟨isAbsolute_ofComponents _ hcomponents, ?_⟩
  rw [steps_ofComponents _ fun component hmem => (hcomponents component hmem).1,
    steps_eq_components]
  exact (List.take_prefix n path.components).filterMap _

end Path

namespace FileSystem

open CamStream.Path

variable {files : FileSystem} {location start place : Location} {steps : List Step}

/-! ## Places below a path -/

/-- Steps that do not lead up lead further down. -/
theorem follow_of_not_up (location : Location) (h : .up ∉ steps) :
    ∃ names, follow location steps = location ++ names := by
  induction steps generalizing location with
  | nil => exact ⟨[], by rw [follow, List.append_nil]⟩
  | cons step steps ih =>
    rw [List.mem_cons, not_or] at h
    cases step with
    | up => exact absurd rfl h.1
    | into name =>
      obtain ⟨names, hnames⟩ := ih (location ++ [name]) h.2
      exact ⟨name :: names, by rw [follow, hnames, List.append_assoc, List.singleton_append]⟩

/-- No `..` stands behind the part of a walk that is there. -/
def NoUpBehind (files : FileSystem) (start : Location) (steps : List Step) : Prop :=
  ∃ front back place, steps = front ++ back ∧ files.walk start front = .ok place ∧ .up ∉ back

theorem noUpBehind_of_not_mem (h : .up ∉ steps) : files.NoUpBehind start steps :=
  ⟨[], steps, start, rfl, rfl, h⟩

/-- The same holds of a first part of the walk. It can be walked, or no `..` stands behind it. -/
theorem NoUpBehind.front {front : List Step} (h : files.NoUpBehind start steps)
    (hfront : front <+: steps) :
    files.NoUpBehind start front ∧ ((∃ location, files.walk start front = .ok location) ∨
      ∃ rest, front ++ rest = steps ∧ .up ∉ rest) := by
  obtain ⟨there, back, place, hsteps, hwalk, hup⟩ := h
  rcases List.prefix_or_prefix_of_prefix hfront ⟨back, hsteps.symm⟩ with ⟨more, rfl⟩ | ⟨more, rfl⟩
  · rw [walk_append] at hwalk
    obtain ⟨between, hwalk, -⟩ := bind_eq_ok_iff.mp hwalk
    exact ⟨⟨front, [], between, (List.append_nil front).symm, hwalk, List.not_mem_nil⟩,
      Or.inl ⟨between, hwalk⟩⟩
  · obtain ⟨rest, rfl⟩ := hfront
    rw [List.append_assoc] at hsteps
    obtain rfl := List.append_cancel_left hsteps
    rw [List.mem_append, not_or] at hup
    exact ⟨⟨there, more, place, rfl, hwalk, hup.1⟩, Or.inr ⟨rest, rfl, hup.2⟩⟩

/-- Whatever there is lies in a directory. -/
structure Rooted (files : FileSystem) : Prop where
  parent {location : Location} {name : String}
    (h : (files.node? (location ++ [name])).isSome = true) : files.isDirectoryAt location = true

theorem rooted_emptyWorkspace : emptyWorkspace.1.Rooted where
  parent {location name} h := by
    rw [node?_emptyWorkspace] at h
    split at h
    · rename_i hplace
      have hroot : location = [] := by
        rcases hplace with hplace | hplace
        · exact absurd hplace (List.concat_ne_nil name location)
        · exact (List.append_eq_singleton_iff.mp hplace).resolve_right (by simp) |>.1
      rw [hroot]
      rfl
    · cases h

namespace Rooted

variable (h : files.Rooted)

include h

theorem isSome_node?_of_append {names : List String}
    (hthere : (files.node? (location ++ names)).isSome = true) :
    (files.node? location).isSome = true := by
  induction names generalizing location with
  | nil => rwa [List.append_nil] at hthere
  | cons name names ih =>
    rw [List.append_cons] at hthere
    exact isSome_node?_of_isDirectoryAt (h.parent (ih hthere))

theorem node?_below_of_not_mem (hup : .up ∉ steps)
    (hwalk : files.walk start steps = .error .notFound) (names : List String) :
    files.node? (follow start steps ++ names) = none := by
  induction steps generalizing start with
  | nil => cases hwalk
  | cons step steps ih =>
    rw [List.mem_cons, not_or] at hup
    cases step with
    | up => exact absurd rfl hup.1
    | into name =>
      rcases bind_eq_error_iff.mp hwalk with hstep | ⟨next, hstep, hrest⟩
      · obtain ⟨-, -, hnone⟩ := step_into_eq_notFound_iff.mp hstep
        obtain ⟨more, hfollow⟩ := follow_of_not_up (start ++ [name]) hup.2
        cases hnode : files.node? (follow start (.into name :: steps) ++ names) with
        | none => rfl
        | some node =>
          rw [follow, hfollow, List.append_assoc] at hnode
          have hthere := h.isSome_node?_of_append (by rw [hnode]; rfl)
          rw [hnone] at hthere
          cases hthere
      · obtain ⟨-, -, rfl, -⟩ := step_into_eq_ok_iff.mp hstep
        exact ih hup.2 hrest

/-- Nothing lies below a path that leads nowhere. -/
theorem node?_below (hup : files.NoUpBehind start steps)
    (hwalk : files.walk start steps = .error .notFound) (names : List String) :
    files.node? (follow start steps ++ names) = none := by
  obtain ⟨front, back, place, rfl, hfront, hback⟩ := hup
  rw [walk_append, hfront] at hwalk
  obtain rfl := follow_of_walk hfront
  rw [follow_append]
  exact h.node?_below_of_not_mem hback hwalk names

end Rooted

/-- What lies in a directory is not passed on the way to it, unless a `..` comes behind. -/
theorem target_ne_of_append {directory path : Path} {more : List Step}
    (habsolute : path.isAbsolute = directory.isAbsolute) (hsteps : path.steps ++ more = directory.steps)
    (hup : .up ∉ more) (working : Location) (name : String) :
    target working directory ++ [name] ≠ target working path := by
  intro heq
  unfold target at heq
  rw [habsolute, ← hsteps, follow_append] at heq
  obtain ⟨names, hnames⟩ := follow_of_not_up _ hup
  rw [hnames] at heq
  have hlength := congrArg List.length heq
  simp at hlength

end FileSystem

end CamStream
