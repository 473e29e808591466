import CamStream.Proofs.Store.Restart
import CamStream.Store.Background
import Mathlib.Tactic.Common

/-!
# Writes in the background, in order

Callers submit writes to a queue and read from the store behind it; a worker takes the writes from the
queue one at a time and performs them; and the store is dropped, which closes the queue and waits for the
worker. Between any two of these steps all others may act, and the worker may be arbitrarily late.

The queue is first in, first out, and nothing else writes. So what was submitted is what was performed,
what the worker holds, and what is queued, in this order, and the world is what the performed writes make
of it. A write that fails is one of them: what it leaves is up to the store, and the next one is performed
all the same.

* `BlobStore.written`: what writes make of a world when they are performed at once;
  `KeepsByDevice.read_last`: what is read then.
* `WriteBehind.turn`: one step of one party; `WriteBehind.Moves`: all that can come of it.
* `WriteBehind.InOrder`: the invariant.
* `WriteBehind.turns_closed`: how far the worker is from its end, once the queue is closed.
* `background_keeps_order`: every world and every read comes of the first submitted writes, and the world
  at the end of all of them.
-/

namespace CamStream

/-! ## Writes performed at once -/

namespace BlobStore

variable {σ : Type} (inner : BlobStore (StateM σ))

/-- The world after writes, one after the other, whether they fail or not. -/
def written (world : σ) (jobs : List WriteJob) : σ :=
  jobs.foldl (fun world job => ((inner.write job.device job.blob).run world).2) world

theorem written_append (world : σ) (jobs more : List WriteJob) :
    inner.written world (jobs ++ more) = inner.written (inner.written world jobs) more :=
  List.foldl_append

/-- To flush is to perform the submitted writes. -/
theorem run_flush (jobs : List WriteJob) (world : σ) :
    ((inner.flush).run jobs).run world = (((), []), inner.written world jobs) := by
  have hall : (inner.performAll jobs).run world = ((), inner.written world jobs) := by
    induction jobs generalizing world with
    | nil => rfl
    | cons job jobs ih => exact ih (inner.written world [job])
  have hflush : ((inner.flush).run jobs).run world =
      (((), []), ((inner.performAll jobs).run world).2) := rfl
  rw [hflush, hall]

/-- A write that goes well decides what is read for its device, one that fails leaves that as it is, and
neither has any influence on other devices. -/
structure KeepsByDevice : Prop where
  own {device : String} {blob : Bytes} {world : σ}
    (h : ((inner.write device blob).run world).1 = .ok ()) :
    ((inner.read device).run ((inner.write device blob).run world).2).1 = .ok (some blob)
  refused {device : String} {blob : Bytes} {world : σ} {error : FileError}
    (h : ((inner.write device blob).run world).1 = .error error) :
    ((inner.read device).run ((inner.write device blob).run world).2).1 =
      ((inner.read device).run world).1
  other {device other : String} (h : other ≠ device) (blob : Bytes) (world : σ) :
    ((inner.read device).run ((inner.write other blob).run world).2).1 =
      ((inner.read device).run world).1

/-- None of the writes goes well for a device. -/
def NoneFor (device : String) (world : σ) (jobs : List WriteJob) : Prop :=
  ∀ before job after, jobs = before ++ job :: after → job.device = device →
    ∃ error, ((inner.write device job.blob).run (inner.written world before)).1 = .error error

variable {inner}

theorem NoneFor.of_cons {device : String} {world : σ} {job : WriteJob} {jobs : List WriteJob}
    (h : inner.NoneFor device world (job :: jobs)) :
    inner.NoneFor device ((inner.write job.device job.blob).run world).2 jobs := by
  intro before other after hjobs hother
  exact h (job :: before) other after (by rw [hjobs, List.cons_append]) hother

theorem KeepsByDevice.read_written (h : inner.KeepsByDevice) {device : String} {world : σ}
    {jobs : List WriteJob} (hjobs : inner.NoneFor device world jobs) :
    ((inner.read device).run (inner.written world jobs)).1 = ((inner.read device).run world).1 := by
  induction jobs generalizing world with
  | nil => rfl
  | cons job jobs ih =>
    have hjob : ((inner.read device).run ((inner.write job.device job.blob).run world).2).1 =
        ((inner.read device).run world).1 := by
      by_cases hdevice : job.device = device
      · obtain ⟨error, herror⟩ := hjobs [] job jobs rfl hdevice
        rw [hdevice]
        exact h.refused herror
      · exact h.other hdevice job.blob world
    exact (ih hjobs.of_cons).trans hjob

/-- The last write that goes well for a device wins. -/
theorem KeepsByDevice.read_last (h : inner.KeepsByDevice) {earlier later : List WriteJob}
    {job : WriteJob} {world : σ}
    (hjob : ((inner.write job.device job.blob).run (inner.written world earlier)).1 = .ok ())
    (hlater : inner.NoneFor job.device (inner.written world (earlier ++ [job])) later) :
    ((inner.read job.device).run (inner.written world (earlier ++ job :: later))).1 =
      .ok (some job.blob) := by
  have hsplit : earlier ++ job :: later = (earlier ++ [job]) ++ later := by simp
  rw [hsplit, written_append _ _ (earlier ++ [job]), h.read_written hlater, written_append]
  exact h.own hjob

end BlobStore

/-! ## The parties -/

/-- Where the worker has got to. -/
inductive WriterPhase where
  | waiting
  /-- It has taken a write from the queue, which it performs next. -/
  | holding (job : WriteJob)
  | gone
deriving DecidableEq, Repr

/-- The write that the worker has taken. -/
def WriterPhase.held : WriterPhase → List WriteJob
  | holding job => [job]
  | waiting | gone => []

/-- How far a store has come in its life. -/
inductive StoreAge where
  | inUse
  /-- The queue is closed, and the worker is waited for. -/
  | closing
  | dropped
deriving DecidableEq, Repr

/-- What a read was answered. -/
structure Reading where
  device : String
  answer : Except FileError (Option Bytes)
  /-- How many writes had been submitted by then. -/
  submitted : Nat

/-- A store that leaves its writes to a worker, between two steps. -/
structure WriteBehind (σ : Type) where
  /-- The world of the store behind the worker. -/
  world : σ
  /-- The queued writes, oldest first. -/
  jobs : List WriteJob := []
  writer : WriterPhase := .waiting
  age : StoreAge := .inUse
  /-- All writes that were submitted, in order. -/
  submitted : List WriteJob := []
  /-- All reads, in order. -/
  readings : List Reading := []

namespace WriteBehind

/-- Who makes a step. -/
inductive Turn where
  | submit (job : WriteJob)
  | read (device : String)
  | worker
  /-- The store is dropped, or the drop that has begun makes a step. -/
  | drop
deriving DecidableEq, Repr

variable {σ : Type} (inner : BlobStore (StateM σ))

/-- What a step leads to. Nobody can call a store that is being dropped. -/
def turn (now : WriteBehind σ) : Turn → WriteBehind σ
  | .submit job =>
    if now.age = .inUse then
      let ((_, jobs), world) :=
        ((inner.background.write job.device job.blob).run now.jobs).run now.world
      { now with world, jobs, submitted := now.submitted ++ [job] }
    else now
  | .read device =>
    if now.age = .inUse then
      let ((answer, jobs), world) := ((inner.background.read device).run now.jobs).run now.world
      let reading : Reading := { device, answer, submitted := now.submitted.length }
      { now with world, jobs, readings := now.readings ++ [reading] }
    else now
  | .worker =>
    match now.writer, now.jobs with
    | .waiting, job :: jobs => { now with jobs, writer := .holding job }
    | .waiting, [] => if now.age = .inUse then now else { now with writer := .gone }
    | .holding job, _ =>
      { now with world := ((inner.perform job).run now.world).2, writer := .waiting }
    | .gone, _ => now
  | .drop =>
    match now.age with
    | .inUse => { now with age := .closing }
    | .closing => if now.writer = .gone then { now with age := .dropped } else now
    | .dropped => now

/-- What steps lead to, in order. -/
def turns (now : WriteBehind σ) (order : List Turn) : WriteBehind σ := order.foldl (turn inner) now

/-- The writes that steps submit to a store in use, which they do until it is dropped. -/
def submissions : List Turn → List WriteJob
  | [] => []
  | .submit job :: order => job :: submissions order
  | .drop :: _ => []
  | .read _ :: order | .worker :: order => submissions order

/-! ## What a step can do -/

/-- All that can come of a step, when reads leave the world as it is. -/
inductive Moves (now : WriteBehind σ) : Turn → WriteBehind σ → Prop
  /-- Nobody calls a store that is being dropped, the worker waits for a write, or a drop waits for the
  worker. -/
  | idle (turn : Turn)
      (hworker : turn = .worker →
        now.writer = .gone ∨ now.writer = .waiting ∧ now.jobs = [] ∧ now.age = .inUse)
      (hdrop : turn = .drop → now.age ≠ .inUse ∧ (now.writer = .gone → now.age = .dropped))
      (hcall : turn ≠ .worker → turn ≠ .drop → now.age ≠ .inUse) : Moves now turn now
  | submit (job : WriteJob) (hage : now.age = .inUse) :
      Moves now (.submit job)
        { now with jobs := now.jobs ++ [job], submitted := now.submitted ++ [job] }
  | read (device : String) (hage : now.age = .inUse) :
      Moves now (.read device)
        { now with
          readings := now.readings ++ [{
            device
            answer := ((inner.read device).run now.world).1
            submitted := now.submitted.length }] }
  | take (job : WriteJob) (jobs : List WriteJob) (hwriter : now.writer = .waiting)
      (hjobs : now.jobs = job :: jobs) :
      Moves now .worker { now with jobs, writer := .holding job }
  | perform (job : WriteJob) (hwriter : now.writer = .holding job) :
      Moves now .worker
        { now with world := inner.written now.world [job], writer := .waiting }
  | leave (hwriter : now.writer = .waiting) (hjobs : now.jobs = []) (hage : now.age ≠ .inUse) :
      Moves now .worker { now with writer := .gone }
  | close (hage : now.age = .inUse) : Moves now .drop { now with age := .closing }
  | finish (hage : now.age = .closing) (hwriter : now.writer = .gone) :
      Moves now .drop { now with age := .dropped }

variable {inner} {now next : WriteBehind σ} {turn : Turn}

theorem turn_moves (hreads : ∀ device world, ((inner.read device).run world).2 = world)
    (now : WriteBehind σ) (turn : Turn) : now.Moves inner turn (now.turn inner turn) := by
  cases turn with
  | submit job =>
    rw [WriteBehind.turn]
    split
    · rename_i hage
      exact .submit job hage
    · rename_i hage
      exact .idle _ (by simp) (by simp) fun _ _ => hage
  | read device =>
    rw [WriteBehind.turn]
    split
    · rename_i hage
      have hread : ((inner.background.read device).run now.jobs).run now.world =
          ((((inner.read device).run now.world).1, now.jobs), now.world) :=
        congrArg (fun world => ((((inner.read device).run now.world).1, now.jobs), world))
          (hreads device now.world)
      rw [hread]
      exact .read device hage
    · rename_i hage
      exact .idle _ (by simp) (by simp) fun _ _ => hage
  | worker =>
    rw [WriteBehind.turn]
    split
    · rename_i job jobs hwriter hjobs
      exact .take job jobs hwriter hjobs
    · rename_i hwriter hjobs
      split
      · rename_i hage
        exact .idle _ (fun _ => Or.inr ⟨hwriter, hjobs, hage⟩) (by simp) (by simp)
      · rename_i hage
        exact .leave hwriter hjobs hage
    · rename_i job hwriter
      exact .perform job hwriter
    · rename_i hwriter
      exact .idle _ (fun _ => Or.inl hwriter) (by simp) (by simp)
  | drop =>
    rw [WriteBehind.turn]
    split
    · rename_i hage
      exact .close hage
    · rename_i hage
      split
      · rename_i hwriter
        exact .finish hage hwriter
      · rename_i hwriter
        exact .idle _ (by simp) (fun _ => ⟨by simp [hage], fun h => absurd h hwriter⟩) (by simp)
    · rename_i hage
      exact .idle _ (by simp) (fun _ => ⟨by simp [hage], fun _ => hage⟩) (by simp)

/-! ## Nothing is lost, and nothing overtakes -/

variable (inner) in
/-- What was submitted is what was performed, what the worker holds, and what is queued, in this order.
Reads saw what some of the first writes made of the world, and the worker only leaves an empty queue. -/
structure InOrder (start : σ) (now : WriteBehind σ) : Prop where
  queued : ∃ performed, now.submitted = performed ++ (now.writer.held ++ now.jobs) ∧
    now.world = inner.written start performed
  answered : ∀ reading ∈ now.readings, reading.submitted ≤ now.submitted.length ∧
    ∃ performed ≤ reading.submitted, reading.answer =
      ((inner.read reading.device).run (inner.written start (now.submitted.take performed))).1
  left : now.writer = .gone → now.jobs = [] ∧ now.age ≠ .inUse
  dropped : now.age = .dropped → now.writer = .gone

theorem inOrder_fresh (inner : BlobStore (StateM σ)) (start : σ) :
    InOrder inner start { world := start } where
  queued := ⟨[], rfl, rfl⟩
  answered := by simp
  left := by simp
  dropped := by simp

namespace InOrder

variable {start : σ}

/-- What was performed is the beginning of what was submitted. -/
theorem world_eq (h : now.InOrder inner start) :
    ∃ performed ≤ now.submitted.length,
      now.world = inner.written start (now.submitted.take performed) := by
  obtain ⟨performed, hsubmitted, hworld⟩ := h.queued
  refine ⟨performed.length, ?_, ?_⟩
  · rw [hsubmitted, List.length_append]
    exact Nat.le_add_right _ _
  · rw [hsubmitted, List.take_left, hworld]

/-- The first submitted writes stay the first ones when more are submitted. -/
theorem answered_append (h : now.InOrder inner start) (more : List WriteJob) :
    ∀ reading ∈ now.readings, reading.submitted ≤ (now.submitted ++ more).length ∧
      ∃ performed ≤ reading.submitted, reading.answer = ((inner.read reading.device).run
        (inner.written start ((now.submitted ++ more).take performed))).1 := by
  intro reading hreading
  obtain ⟨hcount, performed, hperformed, hanswer⟩ := h.answered reading hreading
  refine ⟨?_, performed, hperformed, ?_⟩
  · rw [List.length_append]
    exact Nat.le_add_right_of_le hcount
  · rw [List.take_append_of_le_length (Nat.le_trans hperformed hcount)]
    exact hanswer

theorem moves (h : now.InOrder inner start) (hmoves : now.Moves inner turn next) :
    next.InOrder inner start := by
  cases hmoves with
  | idle => exact h
  | submit job hage =>
    obtain ⟨performed, hsubmitted, hworld⟩ := h.queued
    refine ⟨⟨performed, ?_, hworld⟩, h.answered_append [job], fun hwriter => ?_, h.dropped⟩
    · simp only [hsubmitted, List.append_assoc]
    · exact absurd hage (h.left hwriter).2
  | read device hage =>
    refine ⟨h.queued, ?_, h.left, h.dropped⟩
    intro reading hreading
    rcases List.mem_append.mp hreading with hold | hnew
    · exact h.answered reading hold
    · obtain ⟨performed, hperformed, hworld⟩ := h.world_eq
      rw [List.mem_singleton.mp hnew]
      exact ⟨Nat.le_refl _, performed, hperformed, by rw [hworld]⟩
  | take job jobs hwriter hjobs =>
    obtain ⟨performed, hsubmitted, hworld⟩ := h.queued
    refine ⟨⟨performed, ?_, hworld⟩, h.answered, by simp, fun hage => ?_⟩
    · rw [hsubmitted, hwriter, hjobs]
      rfl
    · exact absurd (hwriter.symm.trans (h.dropped hage)) (by simp)
  | perform job hwriter =>
    -- The write goes from the worker to those that were performed, whatever comes of it.
    obtain ⟨performed, hsubmitted, hworld⟩ := h.queued
    refine ⟨⟨performed ++ [job], ?_, ?_⟩, h.answered, by simp, fun hage => ?_⟩
    · simp [hsubmitted, hwriter, WriterPhase.held]
    · rw [BlobStore.written_append, hworld]
    · exact absurd (hwriter.symm.trans (h.dropped hage)) (by simp)
  | leave hwriter hjobs hage =>
    obtain ⟨performed, hsubmitted, hworld⟩ := h.queued
    refine ⟨⟨performed, ?_, hworld⟩, h.answered, fun _ => ⟨hjobs, hage⟩, fun _ => rfl⟩
    rw [hsubmitted, hwriter]
    rfl
  | close hage => exact ⟨h.queued, h.answered, fun hwriter => ⟨(h.left hwriter).1, by simp⟩, by simp⟩
  | finish hage hwriter =>
    exact ⟨h.queued, h.answered, fun _ => ⟨(h.left hwriter).1, by simp⟩, fun _ => hwriter⟩

theorem turns (hreads : ∀ device world, ((inner.read device).run world).2 = world)
    (h : now.InOrder inner start) (order : List Turn) :
    (now.turns inner order).InOrder inner start := by
  induction order generalizing now with
  | nil => exact h
  | cons turn order ih => exact ih (h.moves (turn_moves hreads now turn))

/-- A store that has been dropped has performed every write. -/
theorem world_dropped (h : now.InOrder inner start) (hage : now.age = .dropped) :
    now.world = inner.written start now.submitted := by
  have hwriter := h.dropped hage
  obtain ⟨performed, hsubmitted, hworld⟩ := h.queued
  rw [hwriter, (h.left hwriter).1] at hsubmitted
  rw [hworld, hsubmitted]
  simp [WriterPhase.held]

theorem length_jobs_le (h : now.InOrder inner start) : now.jobs.length ≤ now.submitted.length := by
  obtain ⟨performed, hsubmitted, -⟩ := h.queued
  rw [hsubmitted, List.length_append, List.length_append]
  omega

end InOrder

/-! ## A drop comes to its end -/

/-- A drop closes the queue and leaves what is queued. -/
theorem age_turn_drop (inner : BlobStore (StateM σ)) (now : WriteBehind σ) :
    (now.turn inner .drop).age ≠ .inUse ∧ (now.turn inner .drop).jobs = now.jobs := by
  cases hage : now.age with
  | inUse => simp [turn, hage]
  | closing =>
    by_cases hwriter : now.writer = .gone <;> simp [turn, hage, hwriter]
  | dropped => simp [turn, hage]

theorem turns_append (now : WriteBehind σ) (order more : List Turn) :
    now.turns inner (order ++ more) = (now.turns inner order).turns inner more :=
  List.foldl_append

/-- How many steps the worker still has to make when the queue is closed. -/
def distance (now : WriteBehind σ) : Nat :=
  match now.writer with
  | .waiting => 2 * now.jobs.length + 1
  | .holding _ => 2 * now.jobs.length + 2
  | .gone => 0

theorem distance_le (now : WriteBehind σ) : now.distance ≤ 2 * now.jobs.length + 2 := by
  unfold distance
  split <;> omega

theorem writer_of_distance (h : now.distance = 0) : now.writer = .gone := by
  unfold distance at h
  split at h
  · omega
  · omega
  · assumption

/-- Once the queue is closed it stays closed, nothing more is submitted, and each step of the worker brings
it one step closer to its end. -/
theorem Moves.closed (hmoves : now.Moves inner turn next) (hage : now.age ≠ .inUse) :
    next.age ≠ .inUse ∧ next.submitted = now.submitted ∧
      next.distance = now.distance - [turn].count .worker := by
  cases hmoves with
  | idle _ hworker =>
    refine ⟨hage, rfl, ?_⟩
    by_cases hturn : turn = .worker
    · rcases hworker hturn with hwriter | ⟨-, -, huse⟩
      · simp [distance, hwriter]
      · exact absurd huse hage
    · rw [List.count_singleton, if_neg (by simpa using hturn), Nat.sub_zero]
  | submit job huse => exact absurd huse hage
  | read device huse => exact absurd huse hage
  | take job jobs hwriter hjobs =>
    refine ⟨hage, rfl, ?_⟩
    simp only [distance, hwriter, hjobs, List.length_cons, List.count_singleton_self]
    omega
  | perform job hwriter =>
    refine ⟨hage, rfl, ?_⟩
    simp [distance, hwriter]
  | leave hwriter hjobs =>
    refine ⟨hage, rfl, ?_⟩
    simp [distance, hwriter, hjobs]
  | close huse => exact absurd huse hage
  | finish hclosing hwriter => exact ⟨by simp, rfl, by simp [distance, hwriter]⟩

theorem turns_closed (hreads : ∀ device world, ((inner.read device).run world).2 = world)
    (hage : now.age ≠ .inUse) (order : List Turn) :
    (now.turns inner order).age ≠ .inUse ∧
      (now.turns inner order).submitted = now.submitted ∧
      (now.turns inner order).distance = now.distance - order.count .worker := by
  induction order generalizing now with
  | nil => exact ⟨hage, rfl, rfl⟩
  | cons turn order ih =>
    obtain ⟨hnext, hsubmitted, hdistance⟩ := (turn_moves hreads now turn).closed hage
    obtain ⟨hlast, hsubmitted', hdistance'⟩ := ih hnext
    refine ⟨hlast, hsubmitted'.trans hsubmitted, ?_⟩
    have hcount : (turn :: order).count Turn.worker = [turn].count .worker + order.count .worker := by
      rw [← List.count_append, List.singleton_append]
    rw [hcount, ← Nat.sub_sub, ← hdistance]
    exact hdistance'

/-- A store is dropped when its worker is given the time for what is queued. -/
theorem age_turns_drop (hreads : ∀ device world, ((inner.read device).run world).2 = world)
    (hage : now.age ≠ .inUse) {order : List Turn}
    (horder : 2 * now.jobs.length + 2 ≤ order.count .worker) :
    (now.turns inner (order ++ [.drop])).age = .dropped := by
  obtain ⟨hclosed, -, hdistance⟩ := turns_closed hreads hage order
  have hgone : (now.turns inner order).writer = .gone := by
    apply writer_of_distance
    have hle := now.distance_le
    omega
  rw [turns_append]
  change ((now.turns inner order).turn inner .drop).age = .dropped
  generalize now.turns inner order = last at hclosed hgone
  cases hlast : last.age with
  | inUse => exact absurd hlast hclosed
  | closing => simp [turn, hlast, hgone]
  | dropped => simp [turn, hlast]

/-- What is submitted is what the callers submit until the store is dropped. -/
theorem submitted_turns (hreads : ∀ device world, ((inner.read device).run world).2 = world)
    (hage : now.age = .inUse) (order : List Turn) :
    (now.turns inner order).submitted = now.submitted ++ submissions order := by
  induction order generalizing now with
  | nil => simp [submissions, turns]
  | cons turn order ih =>
    change ((now.turn inner turn).turns inner order).submitted = _
    have hmoves := turn_moves hreads now turn
    generalize now.turn inner turn = next at hmoves
    cases hmoves with
    | idle _ hworker hdrop hcall =>
      rw [ih hage]
      cases turn with
      | worker => rfl
      | drop => exact absurd hage (hdrop rfl).1
      | submit | read => exact absurd hage (hcall (by simp) (by simp))
    | submit job =>
      refine (ih (by exact hage)).trans ?_
      simp [submissions]
    | read | take | perform => exact ih hage
    | leave hwriter hjobs hclosed => exact absurd hage hclosed
    | close =>
      rw [(turns_closed hreads (by simp) order).2.1]
      simp [submissions]
    | finish hclosing => simp [hage] at hclosing

end WriteBehind

/-- **Background writes are performed in order, and none is lost.** Let a store whose reads leave the world
as it is be used only through a queue and a worker. Callers submit writes and read, the worker takes and
performs the writes, and the store is dropped, in any order.

* At each point the world is what the first few of the submitted writes make of it, each performed when its
  turn comes, whether the ones before it failed or not; and every read was answered by such a world.
* After the drop the world is what all submitted writes make of it when they are performed at once. So
  where writes to one device have no influence on the others, and those that fail have none at all, the last
  write that went well for a device is what is read, and its pair is what is loaded.
* A drop that has begun comes to its end as soon as the worker has made the steps that the queue asks for,
  whatever happens in between. -/
theorem background_keeps_order {σ : Type} (inner : BlobStore (StateM σ))
    (hreads : ∀ device world, ((inner.read device).run world).2 = world) (start : σ)
    (order : List WriteBehind.Turn) :
    let fresh : WriteBehind σ := { world := start }
    let now := fresh.turns inner order
    now.submitted = WriteBehind.submissions order ∧
    (∃ performed ≤ now.submitted.length,
      now.world = inner.written start (now.submitted.take performed)) ∧
    (∀ reading ∈ now.readings, ∃ performed ≤ reading.submitted,
      reading.submitted ≤ now.submitted.length ∧ reading.answer =
        ((inner.read reading.device).run
          (inner.written start (now.submitted.take performed))).1) ∧
    (now.age = .dropped →
      now.world = inner.written start now.submitted ∧
      (inner.KeepsByDevice → ∀ earlier job later, now.submitted = earlier ++ job :: later →
        ((inner.write job.device job.blob).run (inner.written start earlier)).1 = .ok () →
        inner.NoneFor job.device (inner.written start (earlier ++ [job])) later →
        ((inner.read job.device).run now.world).1 = .ok (some job.blob) ∧
        ∀ sets : ParameterSets, sets.Whole → job.blob = sets.toBlob →
          ((inner.load job.device).run now.world).1 = some sets)) ∧
    (now.age ≠ .inUse → ∀ more : List WriteBehind.Turn,
      2 * now.jobs.length + 2 ≤ more.count .worker →
      (now.turns inner (more ++ [.drop])).age = .dropped) := by
  intro fresh now
  have hinv : now.InOrder inner start := (WriteBehind.inOrder_fresh inner start).turns hreads order
  refine ⟨?_, hinv.world_eq, ?_, fun hage => ⟨hinv.world_dropped hage, ?_⟩, fun hage more hmore => ?_⟩
  · exact WriteBehind.submitted_turns hreads rfl order
  · intro reading hreading
    obtain ⟨hcount, performed, hperformed, hanswer⟩ := hinv.answered reading hreading
    exact ⟨performed, hperformed, hcount, hanswer⟩
  · intro hkeeps earlier job later hsubmitted hjob hlater
    have hread : ((inner.read job.device).run now.world).1 = .ok (some job.blob) := by
      rw [hinv.world_dropped hage, hsubmitted]
      exact hkeeps.read_last hjob hlater
    refine ⟨hread, fun sets hsets hblob => ?_⟩
    rw [BlobStore.run_load, hread, hblob]
    exact hsets.ofBlob?_toBlob
  · exact WriteBehind.age_turns_drop hreads hage hmore

/-- The store in memory, but for empty blobs, which it refuses. -/
def BlobStore.memoryOfBytes : BlobStore (StateM Shelf) where
  read := memory.read
  write device blob := if blob = [] then return .error .other else memory.write device blob

theorem BlobStore.run_write_memoryOfBytes {blob : Bytes} (h : blob ≠ []) (device : String)
    (shelf : Shelf) :
    (memoryOfBytes.write device blob).run shelf = (.ok (), KeyedList.put shelf device blob) := by
  simp only [memoryOfBytes, if_neg h]
  rfl

theorem BlobStore.keepsByDevice_memoryOfBytes : memoryOfBytes.KeepsByDevice where
  own {device blob shelf} h := by
    have hblob : blob ≠ [] := by
      rintro rfl
      cases h
    rw [run_write_memoryOfBytes hblob]
    exact read_memory_put shelf device blob
  refused {device blob shelf error} h := by
    by_cases hblob : blob = []
    · subst hblob
      rfl
    · rw [run_write_memoryOfBytes hblob] at h
      cases h
  other {device other} h blob shelf := by
    by_cases hblob : blob = []
    · subst hblob
      rfl
    · have hfound := KeyedList.get?_put shelf other device blob
      rw [if_neg fun heq => h heq.symm] at hfound
      rw [run_write_memoryOfBytes hblob]
      exact congrArg Except.ok hfound

/-- The worker is late for the first read and has performed one of two writes at the second one. The last
write for the device fails during the drop, so the one before it is read. -/
theorem background_keeps_order_late :
    let inner := BlobStore.memoryOfBytes
    let order : List WriteBehind.Turn := [.submit ⟨"0", [1]⟩, .worker, .read "0", .submit ⟨"0", []⟩,
      .worker, .read "0", .submit ⟨"0", [3]⟩, .submit ⟨"1", [2]⟩, .submit ⟨"0", []⟩, .drop,
      .submit ⟨"0", [4]⟩]
    let more : List WriteBehind.Turn := .replicate 10 .worker ++ [.drop]
    let fresh : WriteBehind Shelf := { world := [] }
    let now := fresh.turns inner order
    let last := fresh.turns inner (order ++ more)
    (∀ device world, ((inner.read device).run world).2 = world) ∧
      now.age ≠ .inUse ∧ last.age = .dropped ∧
      last.world = inner.written [] last.submitted ∧
      last.submitted = [⟨"0", [1]⟩, ⟨"0", []⟩, ⟨"0", [3]⟩, ⟨"1", [2]⟩, ⟨"0", []⟩] ∧
      last.readings.map (·.answer) = [.ok none, .ok (some [1])] ∧
      ((inner.read "0").run last.world).1 = .ok (some [3]) := by
  intro inner order more fresh now last
  have hreads : ∀ device world, ((inner.read device).run world).2 = world := fun _ _ => rfl
  have hnow : now.age ≠ .inUse := by decide
  have hage : last.age = .dropped := by
    have hend := (background_keeps_order inner hreads [] order).2.2.2.2 hnow (.replicate 10 .worker)
      (by decide)
    rwa [← WriteBehind.turns_append] at hend
  obtain ⟨hworld, hlast⟩ := (background_keeps_order inner hreads [] (order ++ more)).2.2.2.1 hage
  have hnone : inner.NoneFor "0" (inner.written [] [⟨"0", [1]⟩, ⟨"0", []⟩, ⟨"0", [3]⟩])
      [⟨"1", [2]⟩, ⟨"0", []⟩] := by
    intro before job after hjobs hdevice
    rcases before with _ | ⟨first, _ | ⟨second, before⟩⟩
    · cases hjobs
      exact absurd hdevice (by decide)
    · cases hjobs
      exact ⟨.other, rfl⟩
    · simp at hjobs
  have hread := (hlast BlobStore.keepsByDevice_memoryOfBytes [⟨"0", [1]⟩, ⟨"0", []⟩] ⟨"0", [3]⟩
    [⟨"1", [2]⟩, ⟨"0", []⟩] (by decide) (by decide) hnone).1
  exact ⟨hreads, hnow, hage, hworld, by decide, by decide, hread⟩

end CamStream
