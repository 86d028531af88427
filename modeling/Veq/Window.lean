import Mathlib.Data.Finset.Max
import Mathlib.Data.Finset.Lattice.Fold

/-! A set that retains the largest items it has seen, up to a fixed size, and
refuses an item that it holds or that lies below everything it holds. The set
forgets items, but never forgets that they must be refused. -/

namespace Window

variable {α : Type*} [LinearOrder α]

def first (window : Finset α) : Option α :=
  if nonempty : window.Nonempty then some (window.min' nonempty) else none

/-- `BTreeSet::pop_first`, without the item it returns. -/
def popFirst (window : Finset α) : Finset α :=
  match first window with
  | none => window
  | some least => window.erase least

/-- Drop the least item until at most `size` items are left. -/
def trim (size : Nat) (window : Finset α) : Finset α :=
  popFirst^[window.card - size] window

def Refuses (window : Finset α) (item : α) : Prop :=
  item ∈ window ∨ ∃ least ∈ first window, item < least

instance (window : Finset α) (item : α) : Decidable (Refuses window item) :=
  inferInstanceAs (Decidable (_ ∨ _))

def enter (size : Nat) (window : Finset α) (item : α) : Finset α :=
  trim size (insert item window)

def visit (size : Nat) (window : Finset α) (item : α) : Finset α :=
  if Refuses window item then window else enter size window item

theorem refuses_iff {window : Finset α} {item : α} :
    Refuses window item ↔ item ∈ window ∨ window.Nonempty ∧ ∀ other ∈ window, item < other := by
  unfold Refuses first
  by_cases nonempty : window.Nonempty
  · simp [nonempty, Finset.lt_min'_iff]
  · simp [nonempty]

@[simp] theorem not_refuses_empty (item : α) : ¬ Refuses ∅ item := by
  simp [refuses_iff]

private theorem popFirst_eq {window : Finset α} (nonempty : window.Nonempty) :
    popFirst window = window.erase (window.min' nonempty) := by
  simp [popFirst, first, nonempty]

theorem card_popFirst (window : Finset α) : (popFirst window).card = window.card - 1 := by
  by_cases nonempty : window.Nonempty
  · rw [popFirst_eq nonempty, Finset.card_erase_of_mem (window.min'_mem nonempty)]
  · simp only [Finset.not_nonempty_iff_eq_empty] at nonempty
    simp [popFirst, first, nonempty]

theorem refuses_popFirst {window : Finset α} {item : α} (several : 1 < window.card)
    (refused : Refuses window item) : Refuses (popFirst window) item := by
  have nonempty : window.Nonempty := Finset.card_pos.mp (by omega)
  have remaining : (popFirst window).Nonempty := Finset.card_pos.mp (by rw [card_popFirst]; omega)
  rw [refuses_iff] at refused ⊢
  rw [popFirst_eq nonempty] at remaining ⊢
  rcases refused with member | ⟨-, below⟩
  · by_cases least : item = window.min' nonempty
    · subst least
      exact .inr ⟨remaining, fun other kept => window.min'_lt_of_mem_erase_min' nonempty kept⟩
    · exact .inl (Finset.mem_erase.mpr ⟨least, member⟩)
  · exact .inr ⟨remaining, fun other kept => below other (Finset.mem_of_mem_erase kept)⟩

private theorem card_iterate_popFirst (window : Finset α) (count : Nat) :
    (popFirst^[count] window).card = window.card - count := by
  induction count with
  | zero => rfl
  | succ count ih =>
    rw [Function.iterate_succ_apply', card_popFirst, ih]
    omega

private theorem refuses_iterate_popFirst {window : Finset α} {item : α} (refused : Refuses window item) (count : Nat)
    (fewer : count < window.card) : Refuses (popFirst^[count] window) item := by
  induction count with
  | zero => exact refused
  | succ count ih =>
    rw [Function.iterate_succ_apply']
    exact refuses_popFirst (by rw [card_iterate_popFirst]; omega) (ih (by omega))

theorem card_trim_le (size : Nat) (window : Finset α) : (trim size window).card ≤ size := by
  rw [trim, card_iterate_popFirst]
  omega

theorem refuses_trim {size : Nat} (positive : 1 ≤ size) {window : Finset α} {item : α}
    (refused : Refuses window item) : Refuses (trim size window) item := by
  have nonempty : 0 < window.card := by
    rw [refuses_iff] at refused
    rcases refused with member | ⟨nonempty, -⟩
    · exact Finset.card_pos.mpr ⟨item, member⟩
    · exact Finset.card_pos.mpr nonempty
  exact refuses_iterate_popFirst refused _ (by omega)

theorem trim_subset (size : Nat) (window : Finset α) : trim size window ⊆ window := by
  unfold trim
  induction window.card - size with
  | zero => exact Finset.Subset.refl window
  | succ count ih =>
    rw [Function.iterate_succ_apply']
    refine Finset.Subset.trans ?_ ih
    unfold popFirst
    split
    · exact Finset.Subset.refl _
    · exact Finset.erase_subset _ _

theorem refuses_enter_self {size : Nat} (positive : 1 ≤ size) (window : Finset α) (item : α) :
    Refuses (enter size window item) item :=
  refuses_trim positive (.inl (Finset.mem_insert_self item window))

/-- An admitted item is not below the window, so what was refused stays refused. -/
theorem refuses_enter {size : Nat} (positive : 1 ≤ size) {window : Finset α} {item other : α}
    (admitted : ¬ Refuses window item) (refused : Refuses window other) :
    Refuses (enter size window item) other := by
  apply refuses_trim positive
  rw [refuses_iff] at admitted refused ⊢
  rcases refused with member | ⟨nonempty, below⟩
  · exact .inl (Finset.mem_insert_of_mem member)
  · push Not at admitted
    obtain ⟨lower, inside, above⟩ := admitted.2 nonempty
    refine .inr ⟨Finset.insert_nonempty _ _, ?_⟩
    intro candidate present
    rcases Finset.mem_insert.mp present with rfl | present
    · exact (below lower inside).trans_le above
    · exact below candidate present

theorem card_visit_le {size : Nat} {window : Finset α} (bounded : window.card ≤ size) (item : α) :
    (visit size window item).card ≤ size := by
  unfold visit
  split
  · exact bounded
  · exact card_trim_le _ _

theorem refuses_visit_self {size : Nat} (positive : 1 ≤ size) (window : Finset α) (item : α) :
    Refuses (visit size window item) item := by
  unfold visit
  split
  · assumption
  · exact refuses_enter_self positive window item

theorem refuses_visit {size : Nat} (positive : 1 ≤ size) {window : Finset α} {other : α}
    (refused : Refuses window other) (item : α) : Refuses (visit size window item) other := by
  unfold visit
  split
  · exact refused
  next admitted => exact refuses_enter positive admitted refused

/-- A window of one item only moves up. -/
theorem lt_of_refuses_of_admits {window : Finset α} (single : window.card ≤ 1) {refused admitted : α}
    (old : Refuses window refused) (new : ¬ Refuses window admitted) : refused < admitted := by
  rw [refuses_iff] at old new
  push Not at new
  have unique := Finset.card_le_one.mp single
  rcases old with member | ⟨nonempty, below⟩
  · obtain ⟨lower, inside, above⟩ := new.2 ⟨refused, member⟩
    rw [unique refused member lower inside]
    refine lt_of_le_of_ne above ?_
    rintro rfl
    exact new.1 inside
  · obtain ⟨lower, inside, above⟩ := new.2 nonempty
    exact (below lower inside).trans_le above

/-- The window after these items were shown to it. -/
def visits (size : Nat) (window : Finset α) (items : List α) : Finset α :=
  items.foldl (visit size) window

/-- Those of the items that were not refused. -/
def admitted (size : Nat) (window : Finset α) : List α → List α
  | [] => []
  | item :: items =>
    if Refuses window item then admitted size (visit size window item) items
    else item :: admitted size (visit size window item) items

theorem visits_append (size : Nat) (window : Finset α) (items : List α) (item : α) :
    visits size window (items ++ [item]) = visit size (visits size window items) item := by
  simp [visits]

theorem admitted_append (size : Nat) (window : Finset α) (items : List α) (item : α) :
    admitted size window (items ++ [item]) =
      admitted size window items ++ if Refuses (visits size window items) item then [] else [item] := by
  induction items generalizing window with
  | nil =>
    simp only [List.nil_append, admitted, visits, List.foldl_nil]
    rfl
  | cons first items ih =>
    simp only [List.cons_append, admitted, ih]
    split
    · rfl
    · rfl

/-- The window holds the largest of the items that it admitted, up to its size. -/
structure Retains (size : Nat) (items : List α) (window : Finset α) : Prop where
  subset : ∀ item ∈ window, item ∈ items
  card : window.card = min size items.length
  above : ∀ item ∈ items, item ∉ window → ∀ other ∈ window, item < other

theorem trim_of_card_le {size : Nat} {window : Finset α} (fits : window.card ≤ size) : trim size window = window := by
  rw [trim, Nat.sub_eq_zero_of_le fits]
  rfl

theorem trim_of_card_succ {size : Nat} {window : Finset α} (full : window.card = size + 1) :
    trim size window = popFirst window := by
  rw [trim, full, Nat.add_sub_cancel_left]
  rfl

theorem Retains.empty (size : Nat) : Retains size ([] : List α) ∅ :=
  ⟨by simp, by simp, by simp⟩

/-- A window that is not full has forgotten nothing. -/
theorem Retains.mem_of_room {size : Nat} {items : List α} {window : Finset α} (retains : Retains size items window)
    (room : items.length ≤ size) {item : α} (member : item ∈ items) : item ∈ window := by
  have all : window = items.toFinset := by
    refine Finset.eq_of_subset_of_card_le ?_ ?_
    · intro other inside
      exact List.mem_toFinset.mpr (retains.subset other inside)
    · rw [retains.card, Nat.min_eq_right room]
      exact items.toFinset_card_le
  rw [all]
  exact List.mem_toFinset.mpr member

theorem Retains.enter {size : Nat} {items : List α} {window : Finset α} {item : α} (retains : Retains size items window)
    (fresh : item ∉ items) : Retains size (items ++ [item]) (enter size window item) := by
  have outside : item ∉ window := fun member => fresh (retains.subset item member)
  have grown : (insert item window).card = window.card + 1 := Finset.card_insert_of_notMem outside
  have count := retains.card
  have inside : ∀ other ∈ insert item window, other ∈ items ++ [item] := by
    intro other member
    rcases Finset.mem_insert.mp member with rfl | member
    · simp
    · simp [retains.subset other member]
  by_cases room : items.length < size
  · rw [Window.enter, trim_of_card_le (by omega)]
    refine ⟨inside, by rw [List.length_append, List.length_singleton]; omega, ?_⟩
    intro other member missing
    rcases List.mem_append.mp member with member | member
    · exact absurd (Finset.mem_insert_of_mem (retains.mem_of_room (Nat.le_of_lt room) member)) missing
    · exact absurd (List.mem_singleton.mp member ▸ Finset.mem_insert_self item window) missing
  · have nonempty : (insert item window).Nonempty := Finset.insert_nonempty _ _
    have least := (insert item window).min'_mem nonempty
    rw [Window.enter, trim_of_card_succ (by omega), popFirst_eq nonempty]
    refine ⟨fun other member => inside other (Finset.mem_of_mem_erase member), ?_, ?_⟩
    · rw [Finset.card_erase_of_mem least, List.length_append, List.length_singleton]
      omega
    · intro other member missing kept present
      have later := Finset.min'_lt_of_mem_erase_min' _ nonempty present
      by_cases dropped : other = (insert item window).min' nonempty
      · exact dropped ▸ later
      · have forgotten : other ∉ insert item window := fun held => missing (Finset.mem_erase.mpr ⟨dropped, held⟩)
        have old : other ∈ items := by
          rcases List.mem_append.mp member with member | member
          · exact member
          · exact absurd (List.mem_singleton.mp member ▸ Finset.mem_insert_self item window) forgotten
        have below := retains.above other old (fun held => forgotten (Finset.mem_insert_of_mem held))
        rcases Finset.mem_insert.mp (Finset.mem_of_mem_erase present) with rfl | present
        · rcases Finset.mem_insert.mp least with same | least
          · exact absurd same (ne_of_lt later)
          · exact (below _ least).trans later
        · exact below kept present

/-- A full window admits an item unless as many items as it holds are greater. -/
theorem Retains.admits_iff {size : Nat} {items : List α} {window : Finset α} {item : α}
    (retains : Retains size items window) (positive : 1 ≤ size) (full : size ≤ items.length) (distinct : items.Nodup)
    (fresh : item ∉ items) : ¬ Refuses window item ↔ items.countP (item < ·) < size := by
  have size_eq : window.card = size := by rw [retains.card, Nat.min_eq_left full]
  have nonempty : window.Nonempty := Finset.card_pos.mp (by omega)
  have count : items.countP (item < ·) = (items.filter (item < ·)).toFinset.card := by
    rw [List.countP_eq_length_filter, List.toFinset_card_of_nodup (distinct.filter _)]
  rw [refuses_iff, count]
  constructor
  · intro admitted
    push Not at admitted
    obtain ⟨lower, inside, above⟩ := admitted.2 nonempty
    have greater : (items.filter (item < ·)).toFinset ⊆ window.erase lower := by
      intro other member
      obtain ⟨old, later⟩ : other ∈ items ∧ item < other := by simpa using member
      refine Finset.mem_erase.mpr ⟨(above.trans_lt later).ne', ?_⟩
      by_contra missing
      exact absurd (retains.above other old missing lower inside) (not_lt.mpr (above.trans later.le))
    have bound := Finset.card_le_card greater
    rw [Finset.card_erase_of_mem inside] at bound
    omega
  · intro few refused
    rcases refused with member | ⟨-, below⟩
    · exact fresh (retains.subset item member)
    · have all : window ⊆ (items.filter (item < ·)).toFinset := by
        intro other member
        simpa using ⟨retains.subset other member, below other member⟩
      have bound := Finset.card_le_card all
      omega

/-- A window with room admits an item unless all that it holds is greater. -/
theorem Retains.admits_of_room {size : Nat} {items : List α} {window : Finset α} {item first : α}
    (retains : Retains size items window) (room : items.length ≤ size) (fresh : item ∉ items) (member : first ∈ items)
    (least : ∀ other ∈ items, first ≤ other) : ¬ Refuses window item ↔ first ≤ item := by
  have held := retains.mem_of_room room member
  rw [refuses_iff]
  constructor
  · intro admitted
    push Not at admitted
    obtain ⟨lower, inside, above⟩ := admitted.2 ⟨first, held⟩
    exact (least lower (retains.subset lower inside)).trans above
  · intro above refused
    rcases refused with present | ⟨-, below⟩
    · exact fresh (retains.subset item present)
    · exact absurd (below first held) (not_lt.mpr above)

theorem admitted_sublist (size : Nat) (window : Finset α) (items : List α) :
    (admitted size window items).Sublist items := by
  induction items generalizing window with
  | nil => exact .slnil
  | cons item items ih =>
    unfold admitted
    split
    · exact (ih _).cons item
    · exact (ih _).cons_cons item

theorem retains_visits (size : Nat) {items : List α} (distinct : items.Nodup) :
    Retains size (admitted size ∅ items) (visits size ∅ items) := by
  induction items using List.reverseRecOn with
  | nil => exact .empty size
  | append_singleton items item ih =>
    obtain ⟨before, -, apart⟩ := List.nodup_append.mp distinct
    have fresh : item ∉ admitted size ∅ items := fun member =>
      apart item ((admitted_sublist size ∅ items).subset member) item (by simp) rfl
    rw [admitted_append, visits_append, visit]
    split
    · simpa using ih before
    · exact (ih before).enter fresh

/-- None of the items that may fill the window is below the first of them. -/
def Ascends (size : Nat) (items : List α) : Prop :=
  ∀ item ∈ items.take size, ∀ first ∈ items.head?, first ≤ item

theorem ascends_append (size : Nat) (items : List α) (item : α) :
    Ascends size (items ++ [item]) ↔
      Ascends size items ∧ (items.length < size → ∀ first ∈ items.head?, first ≤ item) := by
  cases items with
  | nil =>
    simp only [Ascends, List.nil_append, List.head?_cons, Option.mem_some_iff, forall_eq']
    constructor
    · simp
    · intro _ other member
      exact (List.mem_singleton.mp (List.mem_of_mem_take member)).ge
  | cons first items =>
    have same : (first :: items ++ [item]).head? = some first := rfl
    rw [Ascends, List.take_append, same]
    simp only [Ascends, List.mem_append, or_imp, forall_and, List.head?_cons, Option.mem_some_iff, forall_eq']
    apply and_congr_right
    intro _
    by_cases room : (first :: items).length < size
    · rw [List.take_of_length_le (by simp only [List.length_singleton]; omega)]
      simp only [List.mem_singleton, forall_eq, room, forall_const]
    · rw [Nat.sub_eq_zero_of_le (Nat.not_lt.mp room)]
      simp only [List.take_zero, List.not_mem_nil, false_implies, implies_true, room]

private theorem admits_filling {size : Nat} {items : List α} {item : α} (distinct : (items ++ [item]).Nodup)
    (ascends : Ascends size items) (room : items.length < size) (all : admitted size ∅ items = items) :
    ¬ Refuses (visits size ∅ items) item ↔ ∀ first ∈ items.head?, first ≤ item := by
  obtain ⟨before, -, apart⟩ := List.nodup_append.mp distinct
  have retains := retains_visits size before
  rw [all] at retains
  cases items with
  | nil => simp [visits]
  | cons first items =>
    have fresh : item ∉ first :: items := fun member => apart item member item (by simp) rfl
    have least : ∀ other ∈ first :: items, first ≤ other := by
      intro other member
      rw [← List.take_of_length_le (Nat.le_of_lt room)] at member
      exact ascends other member first (by simp)
    rw [retains.admits_of_room (Nat.le_of_lt room) fresh (by simp) least]
    simp

/-- Until the window is full, nothing was refused. -/
private theorem admitted_filling {size : Nat} {items : List α} (distinct : items.Nodup) (ascends : Ascends size items) :
    admitted size ∅ items = items ∨ size ≤ (admitted size ∅ items).length := by
  induction items using List.reverseRecOn with
  | nil => exact .inl rfl
  | append_singleton items item ih =>
    obtain ⟨before, low⟩ := (ascends_append size items item).mp ascends
    have grows : (admitted size ∅ items).length ≤ (admitted size ∅ (items ++ [item])).length := by
      rw [admitted_append]
      simp
    rcases ih (List.nodup_append.mp distinct).1 before with all | full
    · by_cases room : items.length < size
      · have admits := (admits_filling distinct before room all).mpr (low room)
        rw [admitted_append, if_neg admits, all]
        exact .inl rfl
      · rw [all] at grows
        exact .inr (by omega)
    · exact .inr (by omega)

/-- Every item is admitted exactly when fewer than `size` admitted items before it
are greater. -/
def Deep (size : Nat) (items : List α) : Prop :=
  ∀ before item after, items = before ++ item :: after →
    (¬ Refuses (visits size ∅ before) item ↔ (admitted size ∅ before).countP (item < ·) < size)

theorem deep_append (size : Nat) (items : List α) (item : α) :
    Deep size (items ++ [item]) ↔ Deep size items ∧
      (¬ Refuses (visits size ∅ items) item ↔ (admitted size ∅ items).countP (item < ·) < size) := by
  constructor
  · intro deep
    refine ⟨?_, deep items item [] rfl⟩
    rintro before other after rfl
    exact deep before other (after ++ [item]) (by simp)
  · rintro ⟨deep, last⟩ before other after split
    rcases List.eq_nil_or_concat after with rfl | ⟨after, final, rfl⟩
    · obtain ⟨rfl, same⟩ := List.append_inj' split rfl
      cases same
      exact last
    · rw [List.concat_eq_append, ← List.cons_append, ← List.append_assoc] at split
      exact deep before other after (List.append_inj_left' split rfl)

/-- While it is filling up, a window admits nothing below its first item. -/
theorem deep_iff_ascends {size : Nat} (positive : 1 ≤ size) {items : List α} (distinct : items.Nodup) :
    Deep size items ↔ Ascends size items := by
  induction items using List.reverseRecOn with
  | nil => simp [Deep, Ascends]
  | append_singleton items item ih =>
    obtain ⟨before, -, apart⟩ := List.nodup_append.mp distinct
    rw [deep_append, ascends_append, ih before]
    apply and_congr_right
    intro ascends
    have fresh : item ∉ admitted size ∅ items := fun member =>
      apart item ((admitted_sublist size ∅ items).subset member) item (by simp) rfl
    by_cases room : items.length < size
    · have all : admitted size ∅ items = items := by
        rcases admitted_filling before ascends with all | full
        · exact all
        · exact absurd (admitted_sublist size ∅ items).length_le (by omega)
      have few : (admitted size ∅ items).countP (item < ·) < size :=
        (List.countP_le_length.trans_eq (congrArg List.length all)).trans_lt room
      rw [admits_filling distinct ascends room all]
      simp only [few, iff_true, room, forall_const]
    · have full : size ≤ (admitted size ∅ items).length := by
        rcases admitted_filling before ascends with all | full
        · rw [all]
          omega
        · exact full
      rw [(retains_visits size before).admits_iff positive full (before.sublist (admitted_sublist size ∅ items)) fresh]
      simp [room]

end Window
