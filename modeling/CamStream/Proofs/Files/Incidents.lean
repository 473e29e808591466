import CamStream.Proofs.Files.Apart

/-!
# Scripts that meet with failures

On a real disk a request of a script may fail for reasons that no file system shows: the disk is full, a
device does not answer, a quota is used up. Bytes to be written may go out in several pieces, of which the
last one fails. And the whole process may stop at any time.

A course is how far a script has come, with the files as they then are. At each request it meets with an
incident: the request is carried out, or some of the bytes are written, or it fails. The process stops
where the list of incidents ends, so what holds after every list of incidents holds at every moment.
A request that fails leaves no trace but the bytes that were written before, and a file is moved in one
step or not at all.

* `FileSystem.write_append`: bytes written in pieces are written.
* `Script.Throughout`: what holds of the files as long as a script is under way, and when it has ended,
  whatever it meets with.
* `Script.Throughout.meet`, `Script.Throughout.course`: so it is after one incident, and after all.
* `Script.throughout_bind` and the lemmas behind it: a script at a time, and a request at a time.
* `Script.exists_course_eq_run`: a script that meets with no failure runs.
-/

namespace CamStream

/-! ## Writing in pieces -/

namespace FileSystem

theorem overwrite_append (contents : Bytes) (position : Nat) (first second : Bytes) :
    overwrite contents position (first ++ second) =
      overwrite (overwrite contents position first) (position + first.length) second := by
  let front := contents.take position ++ List.replicate (position - contents.length) 0 ++ first
  have hfront : front.length = position + first.length := by
    simp only [front, List.length_append, List.length_take, List.length_replicate]
    omega
  have hfirst : overwrite contents position first =
      front ++ contents.drop (position + first.length) := rfl
  have hgap : position + first.length -
      (front ++ contents.drop (position + first.length)).length = 0 := by
    rw [List.length_append, hfront]
    omega
  have hrest : (front ++ contents.drop (position + first.length)).drop
      (position + first.length + second.length) =
        contents.drop (position + (first ++ second).length) := by
    rw [List.drop_append, List.drop_eq_nil_of_le (by omega), List.nil_append, hfront,
      List.drop_drop, List.length_append]
    congr 1
    omega
  rw [hfirst, overwrite, overwrite, hgap, List.take_left' hfront, hrest, List.replicate_zero,
    List.append_nil, ← List.append_assoc]

theorem rewritten_append (handle : Handle) (first second : Bytes) (node : Node) :
    rewritten handle (first ++ second) node =
      rewritten { handle with position := handle.position + first.length } second
        (rewritten handle first node) := by
  cases node with
  | directory mode => rfl
  | file number contents =>
    dsimp only [rewritten]
    split
    · rename_i hnumber
      rw [overwrite_append]
      exact (if_pos hnumber).symm
    · rename_i hnumber
      exact (if_neg hnumber).symm

theorem write_append (files : FileSystem) (handle : Handle) (first second : Bytes) :
    files.write handle (first ++ second) =
      (files.write handle first).2.write (files.write handle first).1 second := by
  have hhandle : (files.write handle (first ++ second)).1 =
      ((files.write handle first).2.write (files.write handle first).1 second).1 := by
    simp only [write, List.length_append, Nat.add_assoc]
  have hnodes : (files.write handle (first ++ second)).2.nodes =
      ((files.write handle first).2.write (files.write handle first).1 second).2.nodes := by
    rw [nodes_write, nodes_write, nodes_write, List.map_map]
    refine List.map_congr_left fun entry _ => ?_
    rw [rewritten_append]
    rfl
  refine Prod.ext hhandle ?_
  show ({ files with nodes := _ } : FileSystem) = { files with nodes := _ }
  rw [FileSystem.mk.injEq]
  exact ⟨hnodes, rfl, rfl⟩

end FileSystem

/-! ## Incidents -/

/-- What a script meets with at a request. -/
inductive Incident where
  | carriedOut
  /-- So many of the bytes are written, and the others are still to be written. -/
  | partly (count : Nat)
  | failure (error : FileError)
deriving DecidableEq, Repr

namespace Request

/-- The answer to a request that fails. What cannot be looked at is not seen to be a directory, and waiting
does not fail. -/
def refusal? (error : FileError) : (request : Request) → Option request.Answer
  | isDirectory _ => some false
  | makeDirectory _ => some (.error error)
  | read .. => some (.error error)
  | create _ => some (.error error)
  | write .. => some (.error error)
  | sync _ => some (.error error)
  | rename .. => some (.error error)
  | wait _ => none

/-- The source and the target of a move, if a request has made one. -/
def move? : (request : Request) → request.Answer → Option (Path × Path)
  | rename source target, .ok () => some (source, target)
  | _, _ => none

/-- What may be on the disk while the request is under way. -/
def Underway : Request → FileSystem → FileSystem → Prop
  | write handle bytes, files, seen =>
    seen = files ∨ ∃ count, seen = (files.write handle (bytes.take count)).2
  | _, files, seen => seen = files

theorem underway_self (request : Request) (files : FileSystem) : request.Underway files files := by
  cases request with
  | write handle bytes => exact Or.inl rfl
  | _ => rfl

end Request

/-- How far a script has come, with the moves that have been made on the way. -/
structure Course (α : Type) where
  rest : Script α
  files : FileSystem
  moves : List (Path × Path) := []

namespace Course

variable {α : Type}

/-- The value of a script that has come to its end. -/
def value? (course : Course α) : Option α :=
  match course.rest with
  | .done value => some value
  | .ask .. => none

/-- Meet with an incident at the next request. -/
def meet (course : Course α) (incident : Incident) : Course α :=
  match course.rest with
  | .done _ => course
  | .ask request next =>
    match incident with
    | .carriedOut =>
      let (given, files) := Script.answer course.files request
      { rest := next given, files, moves := course.moves ++ (request.move? given).toList }
    | .partly count =>
      match request, next with
      | .write handle bytes, next =>
        let (handle, files) := course.files.write handle (bytes.take count)
        { course with rest := .ask (.write handle (bytes.drop count)) next, files }
      | _, _ => course
    | .failure error =>
      match request.refusal? error with
      | some given => { course with rest := next given }
      | none => course

end Course

namespace Script

variable {α β : Type}

/-- The course of a script that meets with incidents. -/
def course (script : Script α) (files : FileSystem) (incidents : List Incident) : Course α :=
  incidents.foldl Course.meet { rest := script, files }

/-! ## What holds throughout -/

/-- Whatever the script meets with, the one holds of the moves and the files as long as it is under way,
and the other when it has come to a value. -/
def Throughout (during : List (Path × Path) → FileSystem → Prop)
    (after : α → List (Path × Path) → FileSystem → Prop) :
    Script α → List (Path × Path) → FileSystem → Prop
  | done value, moves, files => after value moves files
  | ask request next, moves, files =>
    (∀ seen, request.Underway files seen → during moves seen ∧
      ∀ error given, request.refusal? error = some given →
        (next given).Throughout during after moves seen) ∧
    (next (answer files request).1).Throughout during after
      (moves ++ (request.move? (answer files request).1).toList) (answer files request).2

variable {during during' : List (Path × Path) → FileSystem → Prop}
  {after after' : α → List (Path × Path) → FileSystem → Prop} {script : Script α}
  {moves : List (Path × Path)} {files : FileSystem}

/-- Of a script the bytes of which are written in part, the same holds of the rest. -/
theorem Throughout.partly {handle : Handle} {bytes : Bytes}
    {next : Request.Answer (.write handle bytes) → Script α}
    (h : (ask (.write handle bytes) next).Throughout during after moves files) (count : Nat) :
    (ask (.write (files.write handle (bytes.take count)).1 (bytes.drop count)) next).Throughout
      during after moves (files.write handle (bytes.take count)).2 := by
  obtain ⟨hduring, hend⟩ := h
  -- What may be seen while the rest goes out might have been seen before, after a larger part.
  refine ⟨fun seen hseen => hduring seen (Or.inr ?_), ?_⟩
  · rcases hseen with rfl | ⟨more, rfl⟩
    · exact ⟨count, rfl⟩
    · exact ⟨count + more, by rw [List.take_add, FileSystem.write_append]⟩
  · have hwhole : answer files (.write handle bytes) =
        answer (files.write handle (bytes.take count)).2
          (.write (files.write handle (bytes.take count)).1 (bytes.drop count)) := by
      simp only [answer, ← FileSystem.write_append, List.take_append_drop]
    rw [hwhole] at hend
    exact hend

/-- **One incident.** -/
theorem Throughout.meet {course : Course α}
    (h : course.rest.Throughout during after course.moves course.files) (incident : Incident) :
    (course.meet incident).rest.Throughout during after (course.meet incident).moves
      (course.meet incident).files := by
  obtain ⟨rest, files, moves⟩ := course
  cases rest with
  | done value => exact h
  | ask request next =>
    cases incident with
    | carriedOut => exact h.2
    | partly count =>
      cases request with
      | write handle bytes => exact h.partly count
      | _ => exact h
    | failure error =>
      unfold Course.meet
      dsimp only
      split
      · rename_i given hgiven
        exact (h.1 files (request.underway_self files)).2 error given hgiven
      · exact h

theorem Throughout.meetAll {course : Course α}
    (h : course.rest.Throughout during after course.moves course.files) (incidents : List Incident) :
    let last := incidents.foldl Course.meet course
    last.rest.Throughout during after last.moves last.files := by
  induction incidents generalizing course with
  | nil => exact h
  | cons incident incidents ih => exact ih (h.meet incident)

/-- **All incidents.** As long as there is no value the one holds, and when there is one the other. -/
theorem Throughout.course (h : script.Throughout during after [] files) (incidents : List Incident) :
    let course := script.course files incidents
    (course.value? = none ∧ during course.moves course.files) ∨
      ∃ value, course.value? = some value ∧ after value course.moves course.files := by
  intro course
  have hlast : course.rest.Throughout during after course.moves course.files :=
    Throughout.meetAll h incidents
  unfold Course.value?
  cases hrest : course.rest with
  | done value =>
    rw [hrest] at hlast
    exact Or.inr ⟨value, rfl, hlast⟩
  | ask request next =>
    rw [hrest] at hlast
    exact Or.inl ⟨rfl, (hlast.1 _ (request.underway_self _)).1⟩

theorem Throughout.mono (h : script.Throughout during after moves files)
    (hduring : ∀ moves files, during moves files → during' moves files)
    (hafter : ∀ value moves files, after value moves files → after' value moves files) :
    script.Throughout during' after' moves files := by
  induction script generalizing moves files with
  | done value => exact hafter value moves files h
  | ask request next ih =>
    refine ⟨fun seen hseen => ⟨hduring moves seen (h.1 seen hseen).1, fun error given hgiven => ?_⟩,
      ih _ h.2⟩
    exact ih given ((h.1 seen hseen).2 error given hgiven)

/-- A script that goes on with another one. -/
theorem throughout_bind {next : α → Script β} {after : β → List (Path × Path) → FileSystem → Prop}
    (h : script.Throughout during
      (fun value moves files => (next value).Throughout during after moves files) moves files) :
    (script >>= next).Throughout during after moves files := by
  induction script generalizing moves files with
  | done value => exact h
  | ask request answered ih =>
    refine ⟨fun seen hseen => ⟨(h.1 seen hseen).1, fun error given hgiven => ?_⟩, ih _ h.2⟩
    exact ih given ((h.1 seen hseen).2 error given hgiven)

/-- A script that goes on with another one unless it fails. -/
theorem throughout_fallible_bind {script : Fallible α} {next : α → Fallible β}
    {after : Except FileError β → List (Path × Path) → FileSystem → Prop}
    (h : script.run.Throughout during
      (fun
        | .ok value => (next value).run.Throughout during after
        | .error error => after (.error error)) moves files) :
    (script >>= next).run.Throughout during after moves files := by
  rw [ExceptT.run_bind]
  refine throughout_bind (h.mono (fun _ _ => id) fun result moves files hresult => ?_)
  cases result <;> exact hresult

section Requests

variable {path source target : Path} {handle : Handle} {bytes : Bytes}

/-- A request that fails at once leaves the files as they are. -/
theorem throughout_refused {after : Except FileError α → List (Path × Path) → FileSystem → Prop}
    (hfiles : during moves files) (hfailed : ∀ error, after (.error error) moves files) :
    ∀ seen, seen = files → during moves seen ∧ ∀ error given, some (.error error) = some given →
      (done given).Throughout during after moves seen := by
  rintro seen rfl
  refine ⟨hfiles, fun error given hgiven => ?_⟩
  cases hgiven
  exact hfailed error

theorem throughout_create {after : Except FileError Handle → List (Path × Path) → FileSystem → Prop}
    (hfiles : during moves files) (hfailed : ∀ error, after (.error error) moves files)
    (hcreated : ∀ handle created, files.create path = .ok (handle, created) →
      after (.ok handle) moves created) :
    (create path).run.Throughout during after moves files := by
  refine ⟨throughout_refused hfiles hfailed, ?_⟩
  show Throughout during after (done (answer files (.create path)).1) (moves ++ []) _
  rw [List.append_nil]
  simp only [answer]
  cases hcreate : files.create path with
  | error error => exact hfailed error
  | ok created => exact hcreated _ _ hcreate

/-- The bytes may go out in pieces. -/
theorem throughout_write {after : Except FileError Handle → List (Path × Path) → FileSystem → Prop}
    (hfiles : during moves files ∧ ∀ error, after (.error error) moves files)
    (hpiece : ∀ count, during moves (files.write handle (bytes.take count)).2 ∧
      ∀ error, after (.error error) moves (files.write handle (bytes.take count)).2)
    (hwritten : after (.ok (files.write handle bytes).1) moves (files.write handle bytes).2) :
    (write handle bytes).run.Throughout during after moves files := by
  refine ⟨fun seen hseen => ?_, ?_⟩
  · have hboth : during moves seen ∧ ∀ error, after (.error error) moves seen := by
      rcases hseen with rfl | ⟨count, rfl⟩
      · exact hfiles
      · exact hpiece count
    exact throughout_refused hboth.1 hboth.2 seen rfl
  · show after _ (moves ++ []) _
    rw [List.append_nil]
    exact hwritten

theorem throughout_sync {after : Except FileError Unit → List (Path × Path) → FileSystem → Prop}
    (hfiles : during moves files) (hfailed : ∀ error, after (.error error) moves files)
    (hsynced : after (.ok ()) moves files) : (sync handle).run.Throughout during after moves files := by
  refine ⟨throughout_refused hfiles hfailed, ?_⟩
  show after _ (moves ++ []) _
  rw [List.append_nil]
  exact hsynced

theorem throughout_rename {after : Except FileError Unit → List (Path × Path) → FileSystem → Prop}
    (hfiles : during moves files) (hfailed : ∀ error, after (.error error) moves files)
    (hmoved : ∀ moved, files.rename source target = .ok moved →
      after (.ok ()) (moves ++ [(source, target)]) moved) :
    (rename source target).run.Throughout during after moves files := by
  refine ⟨throughout_refused hfiles hfailed, ?_⟩
  show Throughout during after (done (answer files (.rename source target)).1)
    (moves ++ ((Request.rename source target).move? (answer files (.rename source target)).1).toList) _
  simp only [answer]
  cases hrename : files.rename source target with
  | error error =>
    show after _ (moves ++ []) _
    rw [List.append_nil]
    exact hfailed error
  | ok moved => exact hmoved moved hrename

end Requests

/-! ## What a script may ask -/

/-- All requests that the script makes are allowed, whatever they are answered with. -/
def Asks (Allowed : Request → Prop) : Script α → Prop
  | done _ => True
  | ask request next => Allowed request ∧ ∀ given, (next given).Asks Allowed

section Asks

variable {Allowed : Request → Prop}

theorem Asks.bind (h : script.Asks Allowed) {next : α → Script β}
    (hnext : ∀ value, (next value).Asks Allowed) : (script >>= next).Asks Allowed := by
  induction script with
  | done value => exact hnext value
  | ask request answered ih => exact ⟨h.1, fun given => ih given (h.2 given)⟩

theorem Asks.fallible_bind {script : Fallible α} (h : script.run.Asks Allowed) {next : α → Fallible β}
    (hnext : ∀ value, (next value).run.Asks Allowed) : (script >>= next).run.Asks Allowed := by
  rw [ExceptT.run_bind]
  apply h.bind
  intro result
  cases result with
  | ok value => exact hnext value
  | error error => exact trivial

theorem Asks.tryCatch {script : Fallible α} (h : script.run.Asks Allowed)
    {handle : FileError → Fallible α} (hhandle : ∀ error, (handle error).run.Asks Allowed) :
    (tryCatch script handle : Fallible α).run.Asks Allowed := by
  apply Asks.bind h
  intro result
  cases result with
  | ok value => exact trivial
  | error error => exact hhandle error

/-- What no allowed request takes away holds throughout. -/
theorem Asks.throughout (h : script.Asks Allowed) {Keeps : FileSystem → Prop}
    (hmove : ∀ request, Allowed request → ∀ given, request.move? given = none)
    (hunderway : ∀ request, Allowed request → ∀ files seen, Keeps files →
      request.Underway files seen → Keeps seen)
    (hanswer : ∀ request, Allowed request → ∀ files, Keeps files → Keeps (answer files request).2)
    (hfiles : Keeps files) :
    script.Throughout (fun made seen => made = moves ∧ Keeps seen)
      (fun _ made last => made = moves ∧ Keeps last) moves files := by
  induction script generalizing files with
  | done value => exact ⟨rfl, hfiles⟩
  | ask request next ih =>
    obtain ⟨hrequest, hnext⟩ := h
    constructor
    · intro seen hseen
      have hkept := hunderway request hrequest files seen hfiles hseen
      exact ⟨⟨rfl, hkept⟩, fun error given _ => ih given (hnext given) hkept⟩
    · rw [hmove request hrequest, Option.toList_none, List.append_nil]
      exact ih _ (hnext _) (hanswer request hrequest files hfiles)

end Asks

/-! ## Without failures -/

/-- A script that meets with no failure runs. -/
theorem exists_course_eq_run (script : Script α) (files : FileSystem) :
    ∃ count moves, script.course files (List.replicate count .carriedOut) =
      { rest := .done (script.run files).1, files := (script.run files).2, moves } := by
  suffices hcourse : ∀ moves, ∃ count last,
      (List.replicate count Incident.carriedOut).foldl Course.meet { rest := script, files, moves } =
        { rest := .done (script.run files).1, files := (script.run files).2, moves := last } from
    hcourse []
  intro moves
  induction script generalizing files moves with
  | done value => exact ⟨0, moves, rfl⟩
  | ask request next ih =>
    obtain ⟨count, last, hlast⟩ := ih (answer files request).1 (answer files request).2
      (moves ++ (request.move? (answer files request).1).toList)
    exact ⟨count + 1, last, hlast⟩

end Script

end CamStream
