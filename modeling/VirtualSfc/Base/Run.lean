import Mathlib.Data.List.Basic

/-! Runs of a deterministic machine over finite input lists. Every scheduling
choice and every failure of the environment is part of an input, so a statement
about all input lists is a statement about all executions. -/
namespace VirtualSfc.Base.Run

universe u v w

variable {State : Type u} {Input : Type v}

def states (step : State → Input → State) (start : State) : List Input → List State
  | [] => [start]
  | input :: rest => start :: states step (step start input) rest

/-- The inputs of a run, each with the state in which it is taken. -/
def moves (step : State → Input → State) (start : State) :
    List Input → List (State × Input)
  | [] => []
  | input :: rest => (start, input) :: moves step (step start input) rest

def final (step : State → Input → State) (start : State) (inputs : List Input) : State :=
  inputs.foldl step start

theorem final_invariant (step : State → Input → State) (invariant : State → Prop)
    (hstep : ∀ state input, invariant state → invariant (step state input))
    (inputs : List Input) (start : State) (hstart : invariant start) :
    invariant (final step start inputs) := by
  induction inputs generalizing start with
  | nil => exact hstart
  | cons input rest ih => exact ih _ (hstep _ _ hstart)

theorem final_invariant_allowed (step : State → Input → State) (invariant : State → Prop)
    (allowed : State → Input → Prop)
    (hstep : ∀ state input, allowed state input → invariant state →
      invariant (step state input))
    (inputs : List Input) (start : State)
    (hallowed : ∀ move ∈ moves step start inputs, allowed move.1 move.2)
    (hstart : invariant start) : invariant (final step start inputs) := by
  induction inputs generalizing start with
  | nil => exact hstart
  | cons input rest ih =>
      rw [moves, List.forall_mem_cons] at hallowed
      exact ih _ hallowed.2 (hstep _ _ hallowed.1 hstart)

theorem final_simulation {Abstract : Type w} (abstractStep : Abstract → Input → Abstract)
    (step : State → Input → State) (related : Abstract → State → Prop)
    (hstep : ∀ abstract state input, related abstract state →
      related (abstractStep abstract input) (step state input))
    (inputs : List Input) (abstract : Abstract) (start : State)
    (hstart : related abstract start) :
    related (final abstractStep abstract inputs) (final step start inputs) := by
  induction inputs generalizing abstract start with
  | nil => exact hstart
  | cons input rest ih => exact ih _ _ (hstep _ _ _ hstart)

theorem states_invariant (step : State → Input → State) (invariant : State → Prop)
    (hstep : ∀ state input, invariant state → invariant (step state input))
    (inputs : List Input) (start : State) (hstart : invariant start) :
    ∀ state ∈ states step start inputs, invariant state := by
  induction inputs generalizing start with
  | nil =>
      intro state hstate
      rw [states, List.mem_singleton] at hstate
      rwa [hstate]
  | cons input rest ih =>
      intro state hstate
      rw [states, List.mem_cons] at hstate
      cases hstate with
      | inl heq => rwa [heq]
      | inr htail => exact ih _ (hstep _ _ hstart) state htail

theorem moves_invariant (step : State → Input → State) (invariant : State → Prop)
    (inputs : List Input)
    (hstep : ∀ input ∈ inputs, ∀ state, invariant state → invariant (step state input))
    (start : State) (hstart : invariant start) :
    ∀ move ∈ moves step start inputs, invariant move.1 ∧ move.2 ∈ inputs := by
  induction inputs generalizing start with
  | nil =>
      intro move hmove
      simp [moves] at hmove
  | cons input rest ih =>
      intro move hmove
      rw [List.forall_mem_cons] at hstep
      rw [moves, List.mem_cons] at hmove
      cases hmove with
      | inl heq =>
          rw [heq]
          exact ⟨hstart, List.mem_cons_self⟩
      | inr htail =>
          have hrest := ih hstep.2 _ (hstep.1 _ hstart) move htail
          exact ⟨hrest.1, List.mem_cons_of_mem _ hrest.2⟩

theorem moves_forall_iff (step : State → Input → State) (good : State → Input → Prop)
    (inputs : List Input) (start : State) :
    (∀ move ∈ moves step start inputs, good move.1 move.2) ↔
      ∀ before input after, inputs = before ++ input :: after →
        good (final step start before) input := by
  induction inputs generalizing start with
  | nil => simp [moves]
  | cons first rest ih =>
      rw [moves, List.forall_mem_cons, ih]
      constructor
      · intro hall before input after hinputs
        cases before with
        | nil =>
            rw [List.nil_append, List.cons.injEq] at hinputs
            rw [← hinputs.1]
            exact hall.1
        | cons head tail =>
            rw [List.cons_append, List.cons.injEq] at hinputs
            rw [← hinputs.1]
            exact hall.2 tail input after hinputs.2
      · intro hall
        refine ⟨hall [] first rest rfl, fun before input after hinputs => ?_⟩
        exact hall (first :: before) input after (by rw [hinputs, List.cons_append])

/-- Exactness of a step condition. If steps are good exactly when they are allowed
from tidy states, and allowed steps keep states tidy, then all steps of a run are
good exactly when all of them are allowed. -/
theorem moves_good_iff (step : State → Input → State) (tidy : State → Prop)
    (good allowed : State → Input → Prop)
    (hexact : ∀ state input, tidy state → (good state input ↔ allowed state input))
    (hkeep : ∀ state input, tidy state → allowed state input → tidy (step state input))
    (inputs : List Input) (start : State) (hstart : tidy start) :
    (∀ move ∈ moves step start inputs, good move.1 move.2) ↔
      ∀ move ∈ moves step start inputs, allowed move.1 move.2 := by
  induction inputs generalizing start with
  | nil => simp [moves]
  | cons input rest ih =>
      rw [moves, List.forall_mem_cons, List.forall_mem_cons, hexact start input hstart]
      exact and_congr_right fun hallowed => ih _ (hkeep start input hstart hallowed)

theorem moves_iff (step : State → Input → State) (invariant : State → Prop)
    (good allowed : State → Input → Prop)
    (hstep : ∀ state input, invariant state → invariant (step state input))
    (hexact : ∀ state input, invariant state → (good state input ↔ allowed state input))
    (inputs : List Input) (start : State) (hstart : invariant start) :
    (∀ move ∈ moves step start inputs, good move.1 move.2) ↔
      ∀ move ∈ moves step start inputs, allowed move.1 move.2 :=
  moves_good_iff step invariant good allowed hexact
    (fun state input hstate _ => hstep state input hstate) inputs start hstart

theorem states_forall_iff (step : State → Input → State) (good : State → Prop)
    (inputs : List Input) (start : State) :
    (∀ state ∈ states step start inputs, good state) ↔
      good start ∧ ∀ move ∈ moves step start inputs, good (step move.1 move.2) := by
  induction inputs generalizing start with
  | nil => simp [states, moves]
  | cons input rest ih => rw [states, moves, List.forall_mem_cons, List.forall_mem_cons, ih]

theorem final_mem_states (step : State → Input → State) (start : State)
    (inputs : List Input) : final step start inputs ∈ states step start inputs := by
  induction inputs generalizing start with
  | nil => exact List.mem_cons_self
  | cons input rest ih => exact List.mem_cons_of_mem _ (ih _)

/-- The same for conditions on the states: if, from a good state, a step ends in a
good state exactly when it is allowed, then a run stays good exactly when every one
of its steps is allowed. -/
theorem states_good_iff (step : State → Input → State)
    (invariant good : State → Prop) (allowed : State → Input → Prop)
    (hstep : ∀ state input, invariant state → invariant (step state input))
    (hexact : ∀ state input, invariant state → good state →
      (good (step state input) ↔ allowed state input))
    (inputs : List Input) (start : State) (hstart : invariant start)
    (hgood : good start) :
    (∀ state ∈ states step start inputs, good state) ↔
      ∀ move ∈ moves step start inputs, allowed move.1 move.2 := by
  rw [states_forall_iff, and_iff_right hgood]
  apply moves_good_iff step (fun state => invariant state ∧ good state)
    (fun state input => good (step state input)) allowed
  · intro state input htidy
    exact hexact state input htidy.1 htidy.2
  · intro state input htidy hallowed
    exact ⟨hstep state input htidy.1, (hexact state input htidy.1 htidy.2).mpr hallowed⟩
  · exact ⟨hstart, hgood⟩

def changes [DecidableEq State] (step : State → Input → State) (start : State) :
    List Input → Nat
  | [] => 0
  | input :: rest =>
      (if step start input = start then 0 else 1) + changes step (step start input) rest

theorem changes_le [DecidableEq State] (step : State → Input → State) (measure : State → Nat)
    (invariant : State → Prop) (allowed : State → Input → Prop)
    (hstep : ∀ state input, allowed state input → invariant state → invariant (step state input))
    (hdown : ∀ state input, allowed state input → invariant state →
      step state input = state ∨ measure (step state input) < measure state)
    (inputs : List Input) (start : State)
    (hallowed : ∀ move ∈ moves step start inputs, allowed move.1 move.2)
    (hstart : invariant start) : changes step start inputs ≤ measure start := by
  induction inputs generalizing start with
  | nil => exact Nat.zero_le _
  | cons input rest ih =>
      rw [moves, List.forall_mem_cons] at hallowed
      have hrest := ih _ hallowed.2 (hstep start input hallowed.1 hstart)
      rw [changes]
      cases hdown start input hallowed.1 hstart with
      | inl hsame =>
          rw [hsame] at hrest
          rw [if_pos hsame, hsame, Nat.zero_add]
          exact hrest
      | inr hless =>
          split
          · omega
          · omega

end VirtualSfc.Base.Run
