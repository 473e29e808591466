import CamStream.Proofs.Queue.Channel

/-!
# Traffic on a queue

Producers come, push and go, a consumer pops, and the queue is started, flushed and stopped. Every
operation makes its steps one at a time, and between any two of them all others may act. Several
pushes can be under way, one for each producer, and a producer does not go while it is at one.

The channel is first in, first out, so a unit can be told by its place: the first unit that was put in
is the first one that was taken out.

* `Traffic.turn`: one step of one party.
* `Traffic.Moves`: all that can come of a step.
* `Traffic.Sound`: the invariant. The producers are counted, and what was put into the channel is what
  was taken out of it, followed by what is in it.
-/

namespace CamStream

/-- Where a unit went that was taken out of the channel. -/
inductive Exit where
  | delivered
  /-- A push made room for its own unit. -/
  | evicted
  /-- A stop emptied the channel. -/
  | discarded
deriving DecidableEq, Repr

/-- Whether a push has found the queue open and is not over. -/
def PushPhase.isInside : PushPhase → Bool
  | sending | refused => true
  | arriving | queued | discarded => false

/-- A queue with those who use it. -/
structure Traffic where
  queue : FrameQueue
  /-- The producers there are, each with the push that it is at. -/
  producers : List (Option (AccessUnit × PushPhase)) := []
  /-- How many producers there have been. -/
  created : Nat := 0
  /-- How many of them have gone. -/
  dropped : Nat := 0
  /-- Where the latest pop has got to. -/
  popping : Option PopPhase := none
  /-- Whether a stop has closed the queue and is not over. -/
  draining : Bool := false
  /-- Every unit that a push has put into the channel, in order. -/
  sent : List AccessUnit := []
  /-- Every unit that was taken out of it, in order. -/
  taken : List (AccessUnit × Exit) := []
deriving DecidableEq, Repr

namespace Traffic

/-- A new queue that nobody uses. -/
def fresh (capacity : Nat) (overflow : Overflow) : Traffic where
  queue := { capacity, overflow }

/-- Who makes a step. A producer is named by its place among those there are. -/
inductive Turn where
  | create
  /-- A producer goes, unless it is at a push. -/
  | drop (index : Nat)
  /-- A producer begins a push, unless it is at another one. -/
  | hand (index : Nat) (unit : AccessUnit)
  /-- The push that a producer is at makes a step. -/
  | push (index : Nat)
  /-- A pop begins, unless another one is under way. -/
  | look
  /-- The pop makes a step. -/
  | pop
  /-- Someone takes the oldest unit without waiting. -/
  | tryPop
  | start
  | setFlushing (flushing : Bool)
  /-- A stop begins, or the one that has begun makes a step. -/
  | stop
deriving DecidableEq, Repr

/-- A producer is at another point of its push, or at no push. -/
def withPush (now : Traffic) (index : Nat) (push? : Option (AccessUnit × PushPhase)) : Traffic :=
  { now with producers := now.producers.set index push? }

/-- A unit was put into the channel. -/
def put (now : Traffic) (unit : AccessUnit) : Traffic :=
  { now with
    queue := { now.queue with backlog := now.queue.backlog ++ [unit] }
    sent := now.sent ++ [unit] }

/-- The oldest unit was taken out of the channel. -/
def remove (now : Traffic) (unit : AccessUnit) (backlog : List AccessUnit) (exit : Exit) : Traffic :=
  { now with
    queue := { now.queue with backlog }
    taken := now.taken ++ [(unit, exit)] }

/-- The push of a producer has made a step. -/
def pushOn (now : Traffic) (index : Nat) (unit : AccessUnit) (move : PushMove) : Traffic :=
  { now with
    queue := move.queue
    producers :=
      now.producers.set index (if move.phase.isOver then none else some (unit, move.phase))
    sent := now.sent ++ if move.phase = .queued then [unit] else []
    taken := now.taken ++ move.evicted.toList.map (·, .evicted) }

/-- The pop has made a step. -/
def popOn (now : Traffic) (queue : FrameQueue) (phase : PopPhase) : Traffic :=
  { now with
    queue
    popping := some phase
    taken := now.taken ++
      match phase with
      | .got unit => [(unit, .delivered)]
      | _ => [] }

/-- The stop has made a step. -/
def stopOn (now : Traffic) (queue : FrameQueue) (discarded : Option AccessUnit) (draining : Bool) :
    Traffic :=
  { now with
    queue, draining, taken := now.taken ++ discarded.toList.map (·, .discarded) }

/-- What a step leads to. -/
def turn (now : Traffic) : Turn → Traffic
  | .create =>
    { now with
      queue := now.queue.addProducer
      producers := now.producers ++ [none]
      created := now.created + 1 }
  | .drop index =>
    match now.producers[index]? with
    | some none =>
      { now with
        queue := now.queue.dropProducer
        producers := now.producers.eraseIdx index
        dropped := now.dropped + 1 }
    | some (some _) | none => now
  | .hand index unit =>
    match now.producers[index]? with
    | some none => now.withPush index (some (unit, .arriving))
    | some (some _) | none => now
  | .push index =>
    match now.producers[index]? with
    | some (some (unit, phase)) =>
      if phase.isOver then now else now.pushOn index unit (now.queue.pushStep unit phase)
    | some none | none => now
  | .look =>
    if now.popping.any (!·.isOver) then now else { now with popping := some .looking }
  | .pop =>
    match now.popping with
    | some phase =>
      if phase.isOver then now
      else
        let (queue, phase) := now.queue.popStep phase
        now.popOn queue phase
    | none => now
  | .tryPop =>
    match now.queue.receive? with
    | some (unit, queue) => now.remove unit queue.backlog .delivered
    | none => now
  | .start => { now with queue := now.queue.start }
  | .setFlushing flushing => { now with queue := now.queue.setFlushing flushing }
  | .stop =>
    let (queue, discarded, draining) := now.queue.stopStep now.draining
    now.stopOn queue discarded draining

/-- What steps lead to, in order. -/
def turns (now : Traffic) (order : List Turn) : Traffic := order.foldl turn now

theorem turns_append (now : Traffic) (order more : List Turn) :
    now.turns (order ++ more) = (now.turns order).turns more := List.foldl_append

/-! ## What a step can do -/

/-- All that can come of a step. -/
inductive Moves (now : Traffic) : Turn → Traffic → Prop
  | idle (turn : Turn) : Moves now turn now
  | create :
      Moves now .create
        { now with
          queue := now.queue.addProducer
          producers := now.producers ++ [none]
          created := now.created + 1 }
  | drop (index : Nat) (hidle : now.producers[index]? = some none) :
      Moves now (.drop index)
        { now with
          queue := now.queue.dropProducer
          producers := now.producers.eraseIdx index
          dropped := now.dropped + 1 }
  | hand (index : Nat) (unit : AccessUnit) (hidle : now.producers[index]? = some none) :
      Moves now (.hand index unit) (now.withPush index (some (unit, .arriving)))
  /-- Only a push that finds the queue open comes to where it may put its unit into the channel. -/
  | goOn (index : Nat) (unit : AccessUnit) (phase next : PushPhase)
      (hpush : now.producers[index]? = some (some (unit, phase)))
      (hinside : phase.isInside = true ∨ now.queue.streaming = true) :
      Moves now (.push index) (now.withPush index (some (unit, next)))
  | giveUp (index : Nat) (unit : AccessUnit) (phase : PushPhase)
      (hpush : now.producers[index]? = some (some (unit, phase))) :
      Moves now (.push index) (now.withPush index none)
  | send (index : Nat) (unit : AccessUnit)
      (hpush : now.producers[index]? = some (some (unit, .sending))) :
      Moves now (.push index) ((now.withPush index none).put unit)
  | evict (index : Nat) (unit oldest : AccessUnit) (backlog : List AccessUnit)
      (hpush : now.producers[index]? = some (some (unit, .refused)))
      (hbacklog : now.queue.backlog = oldest :: backlog) :
      Moves now (.push index)
        ((now.withPush index (some (unit, .sending))).remove oldest backlog .evicted)
  | look : Moves now .look { now with popping := some .looking }
  | popOn (phase next : PopPhase) (hpop : now.popping = some phase)
      (hlast : next = .lastLook → now.queue.producers = 0)
      (hclosed : next = .failed .closed → phase = .lastLook ∧ now.queue.backlog = []) :
      Moves now .pop { now with popping := some next }
  | get (unit : AccessUnit) (backlog : List AccessUnit)
      (hbacklog : now.queue.backlog = unit :: backlog) :
      Moves now .pop { now.remove unit backlog .delivered with popping := some (.got unit) }
  | tryPop (unit : AccessUnit) (backlog : List AccessUnit)
      (hbacklog : now.queue.backlog = unit :: backlog) :
      Moves now .tryPop (now.remove unit backlog .delivered)
  | start : Moves now .start { now with queue := now.queue.start }
  | setFlushing (flushing : Bool) :
      Moves now (.setFlushing flushing) { now with queue := now.queue.setFlushing flushing }
  | close :
      Moves now .stop { now with queue := { now.queue with streaming := false }, draining := true }
  | discard (unit : AccessUnit) (backlog : List AccessUnit)
      (hbacklog : now.queue.backlog = unit :: backlog) :
      Moves now .stop (now.remove unit backlog .discarded)
  | stopped : Moves now .stop { now with draining := false }

theorem pushOn_moves (now : Traffic) {index : Nat} {unit : AccessUnit} {phase : PushPhase}
    (hpush : now.producers[index]? = some (some (unit, phase))) (hover : phase.isOver = false) :
    now.Moves (.push index) (now.pushOn index unit (now.queue.pushStep unit phase)) := by
  have hgoes := now.queue.pushStep_goes unit hover
  generalize now.queue.pushStep unit phase = move at hgoes
  -- A step that moves no unit changes where the push has got to and nothing else.
  have hphase : ∀ next : PushPhase, next ≠ .queued →
      now.pushOn index unit { queue := now.queue, phase := next } =
        now.withPush index (if next.isOver then none else some (unit, next)) := by
    intro next hqueued
    simp only [pushOn, withPush, hqueued, if_false, Option.toList_none, List.map_nil,
      List.append_nil]
  cases hgoes with
  | enters hopen =>
    rw [hphase .sending (by decide)]
    exact .goOn index unit .arriving .sending hpush (Or.inr hopen)
  | sends hroom =>
    have hsend : now.pushOn index unit
        { queue := { now.queue with backlog := now.queue.backlog ++ [unit] }, phase := .queued } =
        (now.withPush index none).put unit := by
      simp only [pushOn, put, withPush, PushPhase.isOver, if_true, Option.toList_none, List.map_nil,
        List.append_nil]
    rw [hsend]
    exact .send index unit hpush
  | finds hfull =>
    rw [hphase .refused (by decide)]
    exact .goOn index unit .sending .refused hpush (Or.inl rfl)
  | evicts oldest backlog hbacklog =>
    have hevict : now.pushOn index unit
        { queue := { now.queue with backlog }, evicted := some oldest, phase := .sending } =
        (now.withPush index (some (unit, .sending))).remove oldest backlog .evicted := by
      simp [pushOn, remove, withPush, PushPhase.isOver]
    rw [hevict]
    exact .evict index unit oldest backlog hpush hbacklog
  | retries =>
    rw [hphase .sending (by decide)]
    exact .goOn index unit .refused .sending hpush (Or.inl rfl)
  | givesUp =>
    rw [hphase .discarded (by decide)]
    exact .giveUp index unit phase hpush

theorem popOn_moves (now : Traffic) {phase : PopPhase} (hpop : now.popping = some phase)
    (hover : phase.isOver = false) :
    now.Moves .pop (now.popOn (now.queue.popStep phase).1 (now.queue.popStep phase).2) := by
  have hgoes := now.queue.popStep_goes hover
  generalize now.queue.popStep phase = result at hgoes
  have hphase : ∀ next : PopPhase, (∀ unit, next ≠ .got unit) →
      now.popOn now.queue next = { now with popping := some next } := by
    intro next hgot
    cases next with
    | got unit => exact absurd rfl (hgot unit)
    | looking | receiving | asking | lastLook | failed _ => simp only [popOn, List.append_nil]
  cases hgoes with
  | refuses failure hopen =>
    rw [hphase _ (by simp)]
    exact .popOn _ _ hpop (by simp) (by simpa using hopen)
  | enters | misses | retries _ =>
    rw [hphase _ (by simp)]
    exact .popOn _ _ hpop (by simp) (by simp)
  | gets _ unit backlog hbacklog => exact .get unit backlog hbacklog
  | learns hgone =>
    rw [hphase _ (by simp)]
    exact .popOn _ _ hpop (fun _ => hgone) (by simp)
  | ends hempty =>
    rw [hphase _ (by simp)]
    exact .popOn _ _ hpop (by simp) (fun _ => ⟨rfl, hempty⟩)

theorem turn_moves (now : Traffic) (turn : Turn) : now.Moves turn (now.turn turn) := by
  cases turn with
  | create => exact .create
  | drop index =>
    rw [Traffic.turn]
    split
    · rename_i hidle
      exact .drop index hidle
    · exact .idle _
    · exact .idle _
  | hand index unit =>
    rw [Traffic.turn]
    split
    · rename_i hidle
      exact .hand index unit hidle
    · exact .idle _
    · exact .idle _
  | push index =>
    rw [Traffic.turn]
    split
    · rename_i unit phase hpush
      split
      · exact .idle _
      · rename_i hover
        exact now.pushOn_moves hpush (Bool.eq_false_iff.mpr hover)
    · exact .idle _
    · exact .idle _
  | look =>
    rw [Traffic.turn]
    split
    · exact .idle _
    · exact .look
  | pop =>
    rw [Traffic.turn]
    split
    · rename_i phase hpop
      split
      · exact .idle _
      · rename_i hover
        exact now.popOn_moves hpop (Bool.eq_false_iff.mpr hover)
    · exact .idle _
  | tryPop =>
    rw [Traffic.turn]
    split
    · rename_i unit queue hreceive
      exact .tryPop unit queue.backlog (FrameQueue.backlog_of_receive? hreceive)
    · exact .idle _
  | start => exact .start
  | setFlushing flushing => exact .setFlushing flushing
  | stop =>
    rw [Traffic.turn]
    cases hdraining : now.draining with
    | false =>
      have hclose : now.Moves .stop _ := .close
      simpa only [FrameQueue.stopStep, stopOn, Bool.false_eq_true, if_false, Option.toList_none,
        List.map_nil, List.append_nil] using hclose
    | true =>
      cases hreceive : now.queue.receive? with
      | none =>
        have hstopped : now.Moves .stop _ := .stopped
        simpa only [FrameQueue.stopStep, stopOn, hreceive, if_true, Option.toList_none,
          List.map_nil, List.append_nil] using hstopped
      | some received =>
        obtain ⟨unit, queue⟩ := received
        obtain ⟨backlog, hbacklog, rfl⟩ := FrameQueue.receive?_eq_some_iff.mp hreceive
        have hdiscard := Moves.discard unit backlog hbacklog
        simpa only [FrameQueue.stopStep, stopOn, remove, hreceive, hdraining, if_true,
          Option.toList_some, List.map_cons, List.map_nil] using hdiscard

/-! ## The invariant -/

/-- The producers are counted, and the channel keeps all units in order. -/
structure Sound (now : Traffic) : Prop where
  counted : now.queue.producers = now.producers.length
  created : now.created = now.dropped + now.producers.length
  inOrder : now.sent = now.taken.map (·.1) ++ now.queue.backlog

theorem sound_fresh (capacity : Nat) (overflow : Overflow) : (fresh capacity overflow).Sound :=
  ⟨rfl, rfl, rfl⟩

variable {now next : Traffic} {turn : Turn}

theorem Sound.withPush (h : now.Sound) (index : Nat) (push? : Option (AccessUnit × PushPhase)) :
    (now.withPush index push?).Sound :=
  ⟨by simpa [Traffic.withPush] using h.counted, by simpa [Traffic.withPush] using h.created, h.inOrder⟩

theorem Sound.put (h : now.Sound) (unit : AccessUnit) : (now.put unit).Sound :=
  ⟨h.counted, h.created, by rw [Traffic.put, h.inOrder, List.append_assoc]⟩

theorem Sound.remove (h : now.Sound) {unit : AccessUnit} {backlog : List AccessUnit}
    (hbacklog : now.queue.backlog = unit :: backlog) (exit : Exit) :
    (now.remove unit backlog exit).Sound :=
  ⟨h.counted, h.created, by simp [Traffic.remove, h.inOrder, hbacklog]⟩

theorem Sound.moves (h : now.Sound) (hmoves : now.Moves turn next) : next.Sound := by
  have hcounted := h.counted
  have hcreated := h.created
  cases hmoves with
  | idle => exact h
  | create =>
    refine ⟨?_, ?_, h.inOrder⟩
    · simp [FrameQueue.addProducer, hcounted]
    · simp [hcreated, Nat.add_assoc]
  | drop index hidle =>
    obtain ⟨hindex, -⟩ := List.getElem?_eq_some_iff.mp hidle
    have hlength := List.length_eraseIdx_of_lt hindex
    refine ⟨?_, ?_, h.inOrder⟩
    · simp only [FrameQueue.dropProducer, hcounted, hlength]
    · simp only [hlength]
      omega
  | hand index unit _ | goOn index unit _ _ _ _ | giveUp index unit _ _ => exact h.withPush index _
  | send index unit _ => exact (h.withPush index none).put unit
  | evict index unit oldest backlog _ hbacklog => exact (h.withPush index _).remove hbacklog _
  | get unit backlog hbacklog =>
    have hremoved := h.remove hbacklog .delivered
    exact ⟨hremoved.counted, hremoved.created, hremoved.inOrder⟩
  | tryPop unit backlog hbacklog | discard unit backlog hbacklog => exact h.remove hbacklog _
  | look | popOn | start | setFlushing | close | stopped => exact ⟨hcounted, hcreated, h.inOrder⟩

theorem Sound.turns (h : now.Sound) (order : List Turn) : (now.turns order).Sound := by
  induction order generalizing now with
  | nil => exact h
  | cons turn order ih => exact ih (h.moves (now.turn_moves turn))

/-! ## What has gone through the channel -/

/-- A step takes nothing back, and only a stop discards. -/
theorem Moves.taken (hmoves : now.Moves turn next) :
    ∃ more, next.taken = now.taken ++ more ∧
      (turn ≠ .stop → ∀ gone ∈ more, gone.2 = .delivered ∨ gone.2 = .evicted) := by
  cases hmoves with
  | evict index unit oldest backlog _ _ => exact ⟨[(oldest, .evicted)], rfl, by simp⟩
  | get unit backlog _ => exact ⟨[(unit, .delivered)], rfl, by simp⟩
  | tryPop unit backlog _ => exact ⟨[(unit, .delivered)], rfl, by simp⟩
  | discard unit backlog _ => exact ⟨[(unit, .discarded)], rfl, fun hstop => absurd rfl hstop⟩
  | idle | create | drop | hand | goOn | giveUp | send | look | popOn | start | setFlushing | close
  | stopped => exact ⟨[], by simp [withPush, put], by simp⟩

theorem taken_turns (now : Traffic) (order : List Turn) :
    ∃ more, (now.turns order).taken = now.taken ++ more ∧
      (.stop ∉ order → ∀ gone ∈ more, gone.2 = .delivered ∨ gone.2 = .evicted) := by
  induction order generalizing now with
  | nil => exact ⟨[], by simp [turns], by simp⟩
  | cons turn order ih =>
    obtain ⟨first, hfirst, hexit⟩ := (now.turn_moves turn).taken
    obtain ⟨more, hmore, hexits⟩ := ih (now.turn turn)
    refine ⟨first ++ more, ?_, fun hstop gone hgone => ?_⟩
    · rw [← List.append_assoc, ← hfirst]
      exact hmore
    · obtain ⟨hturn, horder⟩ := List.ne_and_not_mem_of_not_mem_cons hstop
      rcases List.mem_append.mp hgone with hgone | hgone
      · exact hexit (Ne.symm hturn) gone hgone
      · exact hexits horder gone hgone

end Traffic

end CamStream
