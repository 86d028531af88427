import Mathlib.Data.List.Basic

/-! Machines that answer every input, and what it means that one of them shows
another. The inputs of a large machine may concern a small one only now and then;
in between the small one stands still. -/

namespace Machines

variable {σ : Type u} {τ : Type v} {ι : Type w} {ω : Type x}

def after (step : σ → ι → σ × ω) (state : σ) (inputs : List ι) : σ :=
  inputs.foldl (fun state input => (step state input).1) state

/-- The inputs of a run with their answers. -/
def trace (step : σ → ι → σ × ω) (state : σ) : List ι → List (ι × ω)
  | [] => []
  | input :: inputs => (input, (step state input).2) :: trace step (step state input).1 inputs

section

variable {step : σ → ι → σ × ω}

theorem after_append (state : σ) (first second : List ι) :
    after step state (first ++ second) = after step (after step state first) second :=
  List.foldl_append

theorem after_concat (state : σ) (inputs : List ι) (last : ι) :
    after step state (inputs ++ [last]) = (step (after step state inputs) last).1 :=
  after_append state inputs [last]

theorem trace_append (state : σ) (first second : List ι) :
    trace step state (first ++ second) = trace step state first ++ trace step (after step state first) second := by
  induction first generalizing state with
  | nil => rfl
  | cons input first ih => exact congrArg ((input, (step state input).2) :: ·) (ih _)

/-- What every input preserves holds after every run. -/
theorem after_invariant {valid : σ → Prop} (preserves : ∀ state input, valid state → valid (step state input).1)
    {state : σ} (initial : valid state) (inputs : List ι) : valid (after step state inputs) := by
  induction inputs generalizing state with
  | nil => exact initial
  | cons input inputs ih => exact ih (preserves state input initial)

end

section

variable {β : Type y}

/-- What the answers of a run emit, in order. -/
def emissions (emits : ω → List β) (steps : List (ι × ω)) : List β := steps.flatMap fun step => emits step.2

theorem emissions_concat {step : σ → ι → σ × ω} (emits : ω → List β) (state : σ) (inputs : List ι) (last : ι) :
    emissions emits (trace step state (inputs ++ [last])) =
      emissions emits (trace step state inputs) ++ emits (step (after step state inputs) last).2 := by
  simp [emissions, trace_append, trace]

/-- Where every emission is paid for, a run emits no more than there is to spend. -/
theorem length_emissions_le {step : σ → ι → σ × ω} {emits : ω → List β} {valid : σ → Prop} (budget : σ → Nat)
    (keeps : ∀ state input, valid state → valid (step state input).1)
    (pays : ∀ state input, valid state →
      (emits (step state input).2).length + budget (step state input).1 ≤ budget state)
    {state : σ} (initial : valid state) (inputs : List ι) :
    (emissions emits (trace step state inputs)).length + budget (after step state inputs) ≤ budget state := by
  induction inputs generalizing state with
  | nil => exact Nat.le_of_eq (Nat.zero_add _)
  | cons input inputs ih =>
    have paid := pays state input initial
    have rest := ih (keeps state input initial)
    have emitted : (emissions emits (trace step state (input :: inputs))).length =
        (emits (step state input).2).length + (emissions emits (trace step (step state input).1 inputs)).length := by
      rw [emissions, trace, List.flatMap_cons, List.length_append]
      rfl
    have final : after step state (input :: inputs) = after step (step state input).1 inputs := rfl
    rw [emitted, final]
    omega

/-- What a state admits, it or a later state may still emit. Every emission comes
before whatever is admitted after it. -/
structure Emits (step : σ → ι → σ × ω) (emits : ω → List β) (allowed : ι → Prop) (valid : σ → Prop)
    (admits : σ → β → Prop) (order : β → β → Prop) : Prop where
  keeps : ∀ state input, allowed input → valid state → valid (step state input).1
  shrinks : ∀ state input, allowed input → valid state → ∀ item, admits (step state input).1 item → admits state item
  admitted : ∀ state input, allowed input → valid state → ∀ item ∈ emits (step state input).2, admits state item
  together : ∀ state input, allowed input → valid state → (emits (step state input).2).Pairwise order
  precedes : ∀ state input, allowed input → valid state → ∀ item ∈ emits (step state input).2,
    ∀ later, admits (step state input).1 later → order item later

namespace Emits

variable {step : σ → ι → σ × ω} {emits : ω → List β} {allowed : ι → Prop} {valid : σ → Prop} {admits : σ → β → Prop}
  {order : β → β → Prop}

theorem admitted_run (emitting : Emits step emits allowed valid admits order) {state : σ} (initial : valid state)
    {inputs : List ι} (permitted : ∀ input ∈ inputs, allowed input) :
    ∀ item ∈ emissions emits (trace step state inputs), admits state item := by
  induction inputs generalizing state with
  | nil => simp [emissions, trace]
  | cons input inputs ih =>
    have allows := permitted input List.mem_cons_self
    intro item member
    rw [emissions, trace, List.flatMap_cons, List.mem_append] at member
    rcases member with now | later
    · exact emitting.admitted state input allows initial item now
    · have rest := fun other member => permitted other (List.mem_cons_of_mem input member)
      exact emitting.shrinks state input allows initial item
        (ih (emitting.keeps state input allows initial) rest item later)

/-- The emissions of a run are in order. -/
theorem pairwise (emitting : Emits step emits allowed valid admits order) {state : σ} (initial : valid state)
    {inputs : List ι} (permitted : ∀ input ∈ inputs, allowed input) :
    (emissions emits (trace step state inputs)).Pairwise order := by
  induction inputs generalizing state with
  | nil => exact List.Pairwise.nil
  | cons input inputs ih =>
    have allows := permitted input List.mem_cons_self
    have rest := fun other member => permitted other (List.mem_cons_of_mem input member)
    have next := emitting.keeps state input allows initial
    rw [emissions, trace, List.flatMap_cons, List.pairwise_append]
    refine ⟨emitting.together state input allows initial, ih next rest, ?_⟩
    intro item now later member
    exact emitting.precedes state input allows initial item now later (emitting.admitted_run next rest later member)

end Emits
end

/-- The large machine answers the relevant inputs as the small one does, and the
other inputs do not move the small one. -/
structure Simulates (large : σ → ι → σ × ω) (small : τ → ι → τ × ω) (relevant : ι → Bool) (related : σ → τ → Prop) :
    Prop where
  answers : ∀ state slot input, relevant input = true → related state slot →
    related (large state input).1 (small slot input).1 ∧ (large state input).2 = (small slot input).2
  stands : ∀ state slot input, relevant input = false → related state slot → related (large state input).1 slot

namespace Simulates

variable {large : σ → ι → σ × ω} {small : τ → ι → τ × ω} {relevant : ι → Bool} {related : σ → τ → Prop}

theorem after (simulates : Simulates large small relevant related) {state : σ} {slot : τ} (initial : related state slot)
    (inputs : List ι) : related (after large state inputs) (Machines.after small slot (inputs.filter relevant)) := by
  induction inputs generalizing state slot with
  | nil => exact initial
  | cons input inputs ih =>
    cases concerned : relevant input with
    | true =>
      rw [List.filter_cons_of_pos concerned]
      exact ih (simulates.answers state slot input concerned initial).1
    | false =>
      rw [List.filter_cons_of_neg (by simp [concerned])]
      exact ih (simulates.stands state slot input concerned initial)

theorem trace (simulates : Simulates large small relevant related) {state : σ} {slot : τ} (initial : related state slot)
    (inputs : List ι) : (trace large state inputs).filter (fun step => relevant step.1) =
      Machines.trace small slot (inputs.filter relevant) := by
  induction inputs generalizing state slot with
  | nil => rfl
  | cons input inputs ih =>
    rw [Machines.trace]
    cases concerned : relevant input with
    | true =>
      obtain ⟨next, same⟩ := simulates.answers state slot input concerned initial
      simp only [List.filter_cons, concerned, ↓reduceIte, Machines.trace, same, ih next]
    | false =>
      simp only [List.filter_cons, concerned, Bool.false_eq_true, ↓reduceIte]
      exact ih (simulates.stands state slot input concerned initial)

end Simulates
end Machines
