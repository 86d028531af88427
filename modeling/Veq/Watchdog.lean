import Mathlib.Data.List.Basic
import Mathlib.Data.List.Induction

/-! A watchdog that is fed by beats and looks at regular ticks whether it was fed.
The first tick without a beat since the tick before it is the last one. -/

namespace Watchdog

inductive Mark where
  | tick
  | beat
  | other
deriving DecidableEq, Repr

structure State where
  armed : Bool
  expired : Bool
deriving DecidableEq, Repr

def start : State := ⟨true, false⟩

def step (state : State) : Mark → State
  | .tick => if state.expired then state else if state.armed then ⟨false, false⟩ else ⟨false, true⟩
  | .beat => { state with armed := true }
  | .other => state

def run (marks : List Mark) : State := marks.foldl step start

/-- No beat since the last tick. -/
def Unfed (marks : List Mark) : Prop := ∃ before since, marks = before ++ .tick :: since ∧ .beat ∉ since

/-- Two ticks without a beat between them. -/
def Starved (marks : List Mark) : Prop :=
  ∃ before between later, marks = before ++ .tick :: (between ++ .tick :: later) ∧ .beat ∉ between

variable {marks : List Mark} {mark : Mark}

theorem run_concat (marks : List Mark) (mark : Mark) : run (marks ++ [mark]) = step (run marks) mark :=
  List.foldl_concat step start mark marks

theorem unfed_concat : Unfed (marks ++ [mark]) ↔ mark = .tick ∨ mark ≠ .beat ∧ Unfed marks := by
  constructor
  · intro unfed
    obtain ⟨before, since, split, none⟩ := unfed
    rcases List.eq_nil_or_concat since with rfl | ⟨earlier, last, rfl⟩
    · have same := List.append_inj_right' split rfl
      cases same
      exact .inl rfl
    · rw [List.concat_eq_append] at split none
      rw [← List.cons_append, ← List.append_assoc] at split
      obtain ⟨same, equal⟩ := List.append_inj' split rfl
      cases equal
      refine .inr ⟨?_, before, earlier, same, ?_⟩
      · intro beat
        exact none (by simp [beat])
      · intro member
        exact none (List.mem_append_left _ member)
  · intro cases
    rcases cases with rfl | ⟨different, before, since, rfl, none⟩
    · exact ⟨marks, [], rfl, by simp⟩
    · refine ⟨before, since ++ [mark], by simp, ?_⟩
      intro member
      rcases List.mem_append.mp member with earlier | now
      · exact none earlier
      · exact different (List.mem_singleton.mp now).symm

theorem starved_concat : Starved (marks ++ [mark]) ↔ Starved marks ∨ mark = .tick ∧ Unfed marks := by
  constructor
  · intro starved
    obtain ⟨before, between, later, split, none⟩ := starved
    rcases List.eq_nil_or_concat later with rfl | ⟨earlier, last, rfl⟩
    · rw [← List.cons_append, ← List.append_assoc] at split
      obtain ⟨same, equal⟩ := List.append_inj' split rfl
      cases equal
      exact .inr ⟨rfl, before, between, same, none⟩
    · rw [List.concat_eq_append] at split
      have regroup : before ++ .tick :: (between ++ .tick :: (earlier ++ [last])) =
          (before ++ .tick :: (between ++ .tick :: earlier)) ++ [last] := by simp
      rw [regroup] at split
      exact .inl ⟨before, between, earlier, (List.append_inj' split rfl).1, none⟩
  · intro cases
    rcases cases with ⟨before, between, later, rfl, none⟩ | ⟨rfl, before, since, rfl, none⟩
    · exact ⟨before, between, later ++ [mark], by simp, none⟩
    · exact ⟨before, since, [], by simp, none⟩

/-- Until it expires, a watchdog knows whether it was fed since the last tick. -/
theorem run_spec (marks : List Mark) : ((run marks).expired = true ↔ Starved marks) ∧
    ((run marks).expired = false → ((run marks).armed = false ↔ Unfed marks)) := by
  induction marks using List.reverseRecOn with
  | nil => simp [run, start, Starved, Unfed]
  | append_singleton marks mark ih =>
    obtain ⟨expired, armed⟩ := ih
    rw [run_concat, starved_concat, unfed_concat, ← expired]
    cases spent : (run marks).expired with
    | true => cases mark <;> simp [step, spent]
    | false =>
      rw [← armed spent]
      cases fed : (run marks).armed with
      | true => cases mark <;> simp [step, spent, fed]
      | false => cases mark <;> simp [step, spent, fed]

/-- A watchdog has expired exactly when two ticks had no beat between them. -/
theorem expired_iff (marks : List Mark) : (run marks).expired = true ↔ Starved marks := (run_spec marks).1

/-- How many ticks a watchdog survives without a beat, and one more. -/
def patience (state : State) : Nat := if state.expired then 0 else if state.armed then 2 else 1

theorem expired_step {state : State} (expired : state.expired = true) (mark : Mark) : (step state mark).expired = true := by
  cases mark <;> simp [step, expired]

theorem expired_foldl {state : State} (expired : state.expired = true) (marks : List Mark) :
    (marks.foldl step state).expired = true := by
  induction marks generalizing state with
  | nil => exact expired
  | cons mark marks ih => exact ih (expired_step expired mark)

theorem patience_step {state : State} (alive : (step state mark).expired = false) :
    [mark].count .tick + patience (step state mark) ≤ patience state + [mark].count .beat := by
  unfold step patience at *
  cases mark <;> cases spent : state.expired <;> cases fed : state.armed <;> simp_all

/-- A watchdog that has not expired had a beat for every tick but the first. -/
theorem ticks_le {state : State} (alive : (marks.foldl step state).expired = false) :
    marks.count .tick + patience (marks.foldl step state) ≤ patience state + marks.count .beat := by
  induction marks generalizing state with
  | nil => simp
  | cons mark marks ih =>
    have now : (step state mark).expired = false := by
      by_contra spent
      have expired := expired_foldl (by simpa using spent) marks
      rw [List.foldl_cons, expired] at alive
      cases alive
    have first := patience_step now
    have rest := ih alive
    rw [← List.singleton_append, List.count_append, List.count_append, List.foldl_append]
    rw [List.foldl_cons, List.foldl_nil]
    omega

/-- Too few beats for the ticks are the end of every watchdog. -/
theorem expired_of_ticks (state : State) (more : marks.count .beat + 2 ≤ marks.count .tick) :
    (marks.foldl step state).expired = true := by
  by_contra alive
  rw [Bool.not_eq_true] at alive
  have bound := ticks_le alive
  have most : patience state ≤ 2 := by
    unfold patience
    split
    · omega
    · split <;> omega
  have left : 1 ≤ patience (marks.foldl step state) := by
    rw [patience, alive, if_neg Bool.false_ne_true]
    split <;> omega
  omega

end Watchdog
