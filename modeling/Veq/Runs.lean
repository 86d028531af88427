import Mathlib.Data.List.Basic

/-! Runs of a partial step function over a list of labels. A defect that only
some orders of steps reach is described by the condition that the other orders
meet at every step, so the rules below carry such a condition along. -/

namespace Runs

variable {σ : Type u} {ℓ : Type v} {step : σ → ℓ → Option σ} {state : σ} {labels : List ℓ}

def run (step : σ → ℓ → Option σ) (state : σ) (labels : List ℓ) : Option σ := labels.foldlM step state

/-- Every step of the run meets a condition on the state before it. -/
def Meets (step : σ → ℓ → Option σ) (condition : σ → ℓ → Prop) (state : σ) : List ℓ → Prop
  | [] => True
  | label :: labels => condition state label ∧ ∀ next ∈ step state label, Meets step condition next labels

instance decidableMeets (step : σ → ℓ → Option σ) (condition : σ → ℓ → Prop)
    [∀ state label, Decidable (condition state label)] (state : σ) :
    (labels : List ℓ) → Decidable (Meets step condition state labels)
  | [] => inferInstanceAs (Decidable True)
  | _ :: labels =>
    have := fun next => decidableMeets step condition next labels
    inferInstanceAs (Decidable (_ ∧ ∀ next ∈ _, _))

theorem run_cons {label : ℓ} {final : σ} (reached : run step state (label :: labels) = some final) :
    ∃ next, step state label = some next ∧ run step next labels = some final := by
  unfold run at reached
  rw [List.foldlM_cons] at reached
  exact Option.bind_eq_some_iff.mp reached

theorem run_append {first second : List ℓ} {middle : σ} (reached : run step state first = some middle) :
    run step state (first ++ second) = run step middle second := by
  unfold run at reached ⊢
  rw [List.foldlM_append, reached]
  rfl

/-- What every step preserves holds in every state that is reached. -/
theorem Meets.invariant {condition : σ → ℓ → Prop} {valid : σ → Prop} {final : σ}
    (preserves : ∀ state label next, valid state → condition state label → step state label = some next → valid next)
    (meets : Meets step condition state labels) (initial : valid state) (reached : run step state labels = some final) :
    valid final := by
  induction labels generalizing state with
  | nil =>
    cases reached
    exact initial
  | cons label labels ih =>
    obtain ⟨next, stepped, rest⟩ := run_cons reached
    exact ih (meets.2 next stepped) (preserves state label next initial meets.1 stepped) rest

/-- What a condition and an invariant give at one step, they give at every step. -/
theorem Meets.imp {condition property : σ → ℓ → Prop} {valid : σ → Prop}
    (preserves : ∀ state label next, valid state → condition state label → step state label = some next → valid next)
    (gives : ∀ state label, valid state → condition state label → property state label)
    (meets : Meets step condition state labels) (initial : valid state) : Meets step property state labels := by
  induction labels generalizing state with
  | nil => trivial
  | cons label labels ih =>
    refine ⟨gives state label initial meets.1, ?_⟩
    intro next stepped
    exact ih (meets.2 next stepped) (preserves state label next initial meets.1 stepped)

theorem Meets.and {first second : σ → ℓ → Prop} (one : Meets step first state labels)
    (two : Meets step second state labels) :
    Meets step (fun state label => first state label ∧ second state label) state labels := by
  induction labels generalizing state with
  | nil => trivial
  | cons label labels ih => exact ⟨⟨one.1, two.1⟩, fun next stepped => ih (one.2 next stepped) (two.2 next stepped)⟩

/-- A run that goes on from a state that was reached. -/
theorem Meets.after {condition : σ → ℓ → Prop} {later : List ℓ} {reached : σ}
    (meets : Meets step condition state (labels ++ later)) (ran : run step state labels = some reached) :
    Meets step condition state labels ∧ Meets step condition reached later := by
  induction labels generalizing state with
  | nil =>
    cases ran
    exact ⟨trivial, meets⟩
  | cons label labels ih =>
    obtain ⟨next, stepped, rest⟩ := run_cons ran
    obtain ⟨before, after⟩ := ih (meets.2 next stepped) rest
    refine ⟨⟨meets.1, ?_⟩, after⟩
    intro other same
    cases stepped.symm.trans same
    exact before

theorem persists {bad : σ → Prop} (keeps : ∀ state label next, bad state → step state label = some next → bad next)
    {final : σ} (initial : bad state) (reached : run step state labels = some final) : bad final := by
  induction labels generalizing state with
  | nil =>
    cases reached
    exact initial
  | cons label labels ih =>
    obtain ⟨next, stepped, rest⟩ := run_cons reached
    exact ih (keeps state label next initial stepped) rest

/-- Where a step against the condition does lasting damage, a run without damage
met the condition. -/
theorem Meets.of_final {condition : σ → ℓ → Prop} {valid : σ → Prop} (bad : σ → Prop)
    (preserves : ∀ state label next, valid state → condition state label → step state label = some next → valid next)
    (breaks : ∀ state label next, valid state → ¬ condition state label → step state label = some next → bad next)
    (keeps : ∀ state label next, bad state → step state label = some next → bad next)
    {final : σ} (initial : valid state) (reached : run step state labels = some final) (good : ¬ bad final) :
    Meets step condition state labels := by
  induction labels generalizing state with
  | nil => trivial
  | cons label labels ih =>
    obtain ⟨next, stepped, rest⟩ := run_cons reached
    by_cases holds : condition state label
    · refine ⟨holds, ?_⟩
      intro other same
      cases stepped.symm.trans same
      exact ih (preserves state label next initial holds stepped) rest
    · exact absurd (persists keeps (breaks state label next initial holds stepped) rest) good

section

variable {α : Type u} {β : Type v} {calls : List α} {call other : Nat} {value found : α}

theorem set_some (held : (calls.set call value)[other]? = some found) :
    other = call ∧ found = value ∨ other ≠ call ∧ calls[other]? = some found := by
  rw [List.getElem?_set] at held
  split at held
  next same =>
    split at held
    · exact .inl ⟨same.symm, (Option.some.inj held).symm⟩
    · cases held
  next different => exact .inr ⟨Ne.symm different, held⟩

theorem append_some (held : (calls ++ [value])[other]? = some found) :
    other = calls.length ∧ found = value ∨ calls[other]? = some found := by
  rw [List.getElem?_append] at held
  split at held
  · exact .inr held
  · rw [List.getElem?_singleton] at held
    split at held
    · exact .inl ⟨by omega, (Option.some.inj held).symm⟩
    · cases held

theorem filterMap_cons_toList (hold : α → Option β) (first : α) (rest : List α) :
    (first :: rest).filterMap hold = (hold first).toList ++ rest.filterMap hold := by
  cases held : hold first with
  | none => simp [held]
  | some value => simp [held]

/-- What the calls hold together, when one of them changes. -/
theorem filterMap_set (hold : α → Option β) (held : calls[call]? = some found) (value : α) :
    ((calls.set call value).filterMap hold ++ (hold found).toList).Perm
      (calls.filterMap hold ++ (hold value).toList) := by
  induction calls generalizing call with
  | nil => cases held
  | cons first calls ih =>
    cases call with
    | zero =>
      obtain rfl : first = found := Option.some.inj held
      rw [List.set_cons_zero, filterMap_cons_toList, filterMap_cons_toList, List.append_assoc]
      exact List.perm_append_comm.trans (List.perm_append_comm.append_right _)
    | succ call =>
      rw [List.set_cons_succ, filterMap_cons_toList, filterMap_cons_toList, List.append_assoc, List.append_assoc]
      exact (ih held).append_left _

theorem countP_set (p : α → Bool) (held : calls[call]? = some found) (value : α) :
    (calls.set call value).countP p + (p found).toNat = calls.countP p + (p value).toNat := by
  obtain ⟨inside, rfl⟩ := List.getElem?_eq_some_iff.mp held
  have counted : p calls[call] = true → 0 < calls.countP p := by
    intro holds
    exact List.countP_pos_iff.mpr ⟨_, List.getElem_mem inside, holds⟩
  rw [List.countP_set inside]
  cases before : p calls[call] with
  | false => cases after : p value <;> simp
  | true =>
    have positive := counted before
    cases after : p value <;> simp <;> omega

theorem countP_lt {p q : α → Bool} (implies : ∀ value ∈ calls, p value = true → q value = true)
    (more : ∃ value ∈ calls, q value = true ∧ p value = false) : calls.countP p < calls.countP q := by
  induction calls with
  | nil => simp at more
  | cons first calls ih =>
    obtain ⟨value, member, holds, fails⟩ := more
    have rest := List.countP_mono_left fun value inside => implies value (List.mem_cons_of_mem first inside)
    have here := implies first List.mem_cons_self
    rcases List.mem_cons.mp member with rfl | inside
    · simp [holds, fails]
      omega
    · have later := ih (fun value inside => implies value (List.mem_cons_of_mem first inside)) ⟨value, inside, holds, fails⟩
      rw [List.countP_cons, List.countP_cons]
      cases before : p first with
      | true => simp [here before, later]
      | false => cases after : q first <;> simp <;> omega

end

end Runs
