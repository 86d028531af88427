import Mathlib.Logic.Function.Basic
import Mathlib.Logic.Relation
import Mathlib.Data.List.Nodup

/-! A registry of tokens that pass through stages. A key holds at most one token
at one stage, so the form of a ledger already excludes two entries under a key;
the rest follows from how an entry can change in one move. -/

namespace Lifecycle

variable {κ : Type u} {τ : Type v} {ς : Type w} {advances : ς → ς → Prop}

/-- `issued` lists the tokens that were entered, with their keys. -/
structure Ledger (κ : Type u) (τ : Type v) (ς : Type w) where
  entries : κ → Option (ς × τ)
  issued : List (κ × τ)

/-- What one operation does to a ledger. -/
inductive Move (advances : ς → ς → Prop) (ledger next : Ledger κ τ ς) : Prop where
  | stay (same : next = ledger)
  | leave (key : κ) (gone : next.entries key = none)
      (others : ∀ other, other ≠ key → next.entries other = ledger.entries other) (issued : next.issued = ledger.issued)
  | enter (key : κ) (stage : ς) (token : τ) (fresh : token ∉ ledger.issued.map Prod.snd)
      (entered : next.entries key = some (stage, token))
      (others : ∀ other, other ≠ key → next.entries other = ledger.entries other)
      (issued : next.issued = ledger.issued ++ [(key, token)])
  | advance (key : κ) (before after : ς) (token : τ) (held : ledger.entries key = some (before, token))
      (allowed : advances before after) (moved : next.entries key = some (after, token))
      (others : ∀ other, other ≠ key → next.entries other = ledger.entries other) (issued : next.issued = ledger.issued)

structure Valid (ledger : Ledger κ τ ς) : Prop where
  unique : (ledger.issued.map Prod.snd).Nodup
  tracked : ∀ key stage token, ledger.entries key = some (stage, token) → (key, token) ∈ ledger.issued

variable {ledger next earlier later : Ledger κ τ ς}

namespace Valid

theorem same_key (valid : Valid ledger) {first second : κ} {token : τ} (one : (first, token) ∈ ledger.issued)
    (two : (second, token) ∈ ledger.issued) : first = second :=
  congrArg Prod.fst (List.inj_on_of_nodup_map valid.unique one two rfl)

theorem single (valid : Valid ledger) {first second : κ} {firstStage secondStage : ς} {token : τ}
    (one : ledger.entries first = some (firstStage, token)) (two : ledger.entries second = some (secondStage, token)) :
    first = second ∧ firstStage = secondStage := by
  obtain rfl := valid.same_key (valid.tracked _ _ _ one) (valid.tracked _ _ _ two)
  cases one.symm.trans two
  exact ⟨rfl, rfl⟩

theorem move (valid : Valid ledger) (move : Move advances ledger next) : Valid next := by
  classical
  have old : ∀ {key other stage token}, (∀ third, third ≠ key → next.entries third = ledger.entries third) → other ≠ key →
      next.entries other = some (stage, token) → (other, token) ∈ ledger.issued := by
    intro key other stage token others different found
    exact valid.tracked other stage token (others other different ▸ found)
  cases move with
  | stay same => exact same ▸ valid
  | leave key gone others issued =>
    refine ⟨issued ▸ valid.unique, ?_⟩
    intro other stage token found
    rw [issued]
    by_cases same : other = key
    · simp [same, gone] at found
    · exact old others same found
  | enter key stage token fresh entered others issued =>
    refine ⟨?_, ?_⟩
    · rw [issued, List.map_append]
      exact List.nodup_append.mpr ⟨valid.unique, by simp, by
        intro taken member other new same
        obtain rfl : other = token := List.mem_singleton.mp new
        exact fresh (same ▸ member)⟩
    · intro other held current found
      rw [issued]
      by_cases same : other = key
      · subst same
        cases entered.symm.trans found
        exact List.mem_append_right _ (List.mem_singleton.mpr rfl)
      · exact List.mem_append_left _ (old others same found)
  | advance key before after token held allowed moved others issued =>
    refine ⟨issued ▸ valid.unique, ?_⟩
    intro other stage current found
    rw [issued]
    by_cases same : other = key
    · subst same
      cases moved.symm.trans found
      exact valid.tracked other before token held
    · exact old others same found

end Valid

/-- What was issued stays issued, and a token that was issued earlier is held later
only where it was held before, at the same or a later stage. -/
structure Follows (advances : ς → ς → Prop) (earlier later : Ledger κ τ ς) : Prop where
  issued : earlier.issued ⊆ later.issued
  stages : ∀ key stage token, later.entries key = some (stage, token) → (key, token) ∈ earlier.issued →
    ∃ before, earlier.entries key = some (before, token) ∧ Relation.ReflTransGen advances before stage

namespace Follows

theorem refl (ledger : Ledger κ τ ς) : Follows advances ledger ledger :=
  ⟨List.Subset.refl _, fun _ stage _ found _ => ⟨stage, found, .refl⟩⟩

theorem trans {middle : Ledger κ τ ς} (first : Follows advances earlier middle) (second : Follows advances middle later) :
    Follows advances earlier later := by
  refine ⟨List.Subset.trans first.issued second.issued, ?_⟩
  intro key stage token found issued
  obtain ⟨between, held, rest⟩ := second.stages key stage token found (first.issued issued)
  obtain ⟨before, origin, start⟩ := first.stages key between token held issued
  exact ⟨before, origin, start.trans rest⟩

theorem move (move : Move advances ledger next) : Follows advances ledger next := by
  classical
  have kept : ∀ {key other stage token}, (∀ third, third ≠ key → next.entries third = ledger.entries third) → other ≠ key →
      next.entries other = some (stage, token) →
      ∃ before, ledger.entries other = some (before, token) ∧ Relation.ReflTransGen advances before stage := by
    intro key other stage token others different found
    exact ⟨stage, others other different ▸ found, .refl⟩
  cases move with
  | stay same =>
    rw [same]
    exact .refl ledger
  | leave key gone others issued =>
    refine ⟨by simp [issued], ?_⟩
    intro other stage token found known
    by_cases same : other = key
    · simp [same, gone] at found
    · exact kept others same found
  | enter key stage token fresh entered others issued =>
    refine ⟨by simp [issued], ?_⟩
    intro other held current found known
    by_cases same : other = key
    · subst same
      cases entered.symm.trans found
      exact absurd (List.mem_map_of_mem known) fresh
    · exact kept others same found
  | advance key before after token held allowed moved others issued =>
    refine ⟨by simp [issued], ?_⟩
    intro other stage current found known
    by_cases same : other = key
    · subst same
      cases moved.symm.trans found
      exact ⟨before, held, .single allowed⟩
    · exact kept others same found

/-- A token that is in no entry any more does not come back. -/
theorem absent (follows : Follows advances earlier later) {key : κ} {token : τ} (issued : (key, token) ∈ earlier.issued)
    (gone : ∀ stage, earlier.entries key ≠ some (stage, token)) (stage : ς) : later.entries key ≠ some (stage, token) := by
  intro found
  obtain ⟨before, held, -⟩ := follows.stages key stage token found issued
  exact gone before held

end Follows
end Lifecycle
