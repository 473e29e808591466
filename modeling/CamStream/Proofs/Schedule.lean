/-!
# Schedules

Several parties act on one state, one at a time, and a schedule says who acts next. What is true at
the start and kept by every step is true at all times. That something happens at last is shown by a
measure that no party ever raises, with a party named for every state whose next step lowers it: a
fair schedule lets that party act again, and until then nothing changes who it is.

* `stateAt_invariant`: what every step keeps is true at all times.
* `Progress.exists_done`: under a fair schedule the end comes.
-/

namespace CamStream

/-- Every party acts again and again. -/
def Fair {π : Type} (schedule : Nat → π) : Prop :=
  ∀ party time, ∃ later, time ≤ later ∧ schedule later = party

variable {σ π : Type}

/-- The state after so many steps. -/
def stateAt (step : σ → π → σ) (start : σ) (schedule : Nat → π) : Nat → σ
  | 0 => start
  | time + 1 => step (stateAt step start schedule time) (schedule time)

variable {step : σ → π → σ} {start : σ} {schedule : Nat → π} {holds done : σ → Prop}

theorem stateAt_invariant (hstart : holds start)
    (hstep : ∀ state party, holds state → holds (step state party)) (time : Nat) :
    holds (stateAt step start schedule time) := by
  induction time with
  | zero => exact hstart
  | succ time ih => exact hstep _ _ ih

/-- A measure that falls whenever the helpful party acts. The others may make their own steps as long
as they do not raise it; and if they do not lower it, the same party remains the helpful one. -/
structure Progress (step : σ → π → σ) (holds done : σ → Prop) (measure : σ → Nat)
    (helpful : σ → π) : Prop where
  never_up : ∀ state party, holds state → measure (step state party) ≤ measure state
  stays : ∀ state party, holds state → ¬ done state → party ≠ helpful state →
    measure (step state party) = measure state → helpful (step state party) = helpful state
  helps : ∀ state, holds state → ¬ done state → measure (step state (helpful state)) < measure state

namespace Progress

variable {measure : σ → Nat} {helpful : σ → π}

/-- The end has come by then, or the measure has fallen. -/
def Moves (step : σ → π → σ) (done : σ → Prop) (measure : σ → Nat) (start : σ)
    (schedule : Nat → π) (time : Nat) : Prop :=
  ∃ later, time ≤ later ∧ (done (stateAt step start schedule later) ∨
    measure (stateAt step start schedule later) < measure (stateAt step start schedule time))

/-- As long as nothing moves, the party to wait for remains the same, whoever acts. -/
theorem waits (h : Progress step holds done measure helpful)
    (hholds : ∀ time, holds (stateAt step start schedule time)) (time count : Nat) :
    Moves step done measure start schedule time ∨
    measure (stateAt step start schedule (time + count)) =
        measure (stateAt step start schedule time) ∧
      helpful (stateAt step start schedule (time + count)) =
        helpful (stateAt step start schedule time) := by
  induction count with
  | zero => exact Or.inr ⟨rfl, rfl⟩
  | succ count ih =>
    obtain hmoves | ⟨hmeasure, hhelpful⟩ := ih
    · exact Or.inl hmoves
    · by_cases hdone : done (stateAt step start schedule (time + count))
      · exact Or.inl ⟨time + count, Nat.le_add_right _ _, Or.inl hdone⟩
      · have hup := h.never_up _ (schedule (time + count)) (hholds (time + count))
        rw [hmeasure] at hup
        rcases Nat.lt_or_eq_of_le hup with hless | hequal
        · exact Or.inl ⟨time + count + 1, by omega, Or.inr hless⟩
        · have hother : schedule (time + count) ≠
              helpful (stateAt step start schedule (time + count)) := by
            intro hacts
            have hless := h.helps _ (hholds (time + count)) hdone
            rw [← hacts] at hless
            omega
          have hstays := h.stays _ _ (hholds (time + count)) hdone hother
            (hequal.trans hmeasure.symm)
          exact Or.inr ⟨hequal, hstays.trans hhelpful⟩

/-- A fair schedule lets the helpful party act. -/
theorem moves (h : Progress step holds done measure helpful)
    (hholds : ∀ time, holds (stateAt step start schedule time)) (hfair : Fair schedule)
    (time : Nat) : Moves step done measure start schedule time := by
  obtain ⟨later, hlater, hacts⟩ := hfair (helpful (stateAt step start schedule time)) time
  obtain ⟨count, rfl⟩ := Nat.exists_eq_add_of_le hlater
  obtain hmoves | ⟨hmeasure, hhelpful⟩ := h.waits hholds time count
  · exact hmoves
  · by_cases hdone : done (stateAt step start schedule (time + count))
    · exact ⟨time + count, hlater, Or.inl hdone⟩
    · have hless := h.helps _ (hholds (time + count)) hdone
      rw [hhelpful, ← hacts, hmeasure] at hless
      exact ⟨time + count + 1, by omega, Or.inr hless⟩

/-- Under a fair schedule the end comes, whatever the order of the steps. -/
theorem exists_done (h : Progress step holds done measure helpful)
    (hholds : ∀ time, holds (stateAt step start schedule time)) (hfair : Fair schedule)
    (time : Nat) : ∃ later, time ≤ later ∧ done (stateAt step start schedule later) := by
  induction hmeasure : measure (stateAt step start schedule time) using Nat.strongRecOn
    generalizing time with
  | ind bound ih =>
    subst hmeasure
    obtain ⟨later, hlater, hdone | hless⟩ := h.moves hholds hfair time
    · exact ⟨later, hlater, hdone⟩
    · obtain ⟨last, hlast, hdone⟩ := ih _ hless later rfl
      exact ⟨last, Nat.le_trans hlater hlast, hdone⟩

end Progress

end CamStream
