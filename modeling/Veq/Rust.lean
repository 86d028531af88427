import Mathlib.Algebra.GroupWithZero.Nat
import Mathlib.Data.List.Basic
import Std.Data.TreeMap.Lemmas

/-! The parts of the Rust language and standard library that the models below
use: checked `u64` addition, slice chunking, hash maps and ordered maps. A panic
is a value here, so that its absence is something to prove. -/

namespace Rust

abbrev Bytes := List UInt8

/-- A `Vec<u8>`: no vector is longer than `isize::MAX` bytes. -/
abbrev ByteVec := { data : Bytes // data.length < 2 ^ 63 }

theorem property_of_mem {p : α → Prop} (items : List (Subtype p)) : ∀ value ∈ items.map Subtype.val, p value := by
  intro value member
  obtain ⟨item, -, rfl⟩ := List.mem_map.mp member
  exact item.property

inductive Panic where
  | overflow
  | chunkSize
  | index
  | unwrap
  | slice
  | capacity
deriving DecidableEq, Repr

/-- A computation that does not panic, taken apart at its first step. -/
theorem bind_ok {ε : Type} {value : Except ε α} {next : α → Except ε β} {result : β} :
    value >>= next = .ok result ↔ ∃ intermediate, value = .ok intermediate ∧ next intermediate = .ok result := by
  cases value with
  | error panic => simp [bind, Except.bind]
  | ok intermediate => simp [bind, Except.bind]

/-- `u64` addition with overflow checks. -/
def addU64 (left right : Nat) : Except Panic Nat :=
  if left + right < 2 ^ 64 then .ok (left + right) else .error .overflow

theorem addU64_ok {left right sum : Nat} (added : addU64 left right = .ok sum) :
    sum = left + right ∧ sum < 2 ^ 64 := by
  unfold addU64 at added
  split at added
  · cases added
    exact ⟨rfl, by assumption⟩
  · cases added

/-- `slice::chunks`: consecutive pieces of `size` items, the last one possibly
shorter. An empty slice has no chunks. -/
def chunks (size : Nat) (data : List α) : List (List α) :=
  (List.range ((data.length + size - 1) / size)).map fun index => (data.drop (index * size)).take size

@[simp] theorem length_chunks (size : Nat) (data : List α) :
    (chunks size data).length = (data.length + size - 1) / size := by
  simp [chunks]

private theorem flatten_pieces (size count : Nat) (data : List α) :
    ((List.range count).map fun index => (data.drop (index * size)).take size).flatten = data.take (count * size) := by
  induction count with
  | zero => simp
  | succ count ih =>
    rw [List.range_succ, List.map_append, List.flatten_append, ih, Nat.succ_mul, List.take_add]
    simp

theorem flatten_chunks {size : Nat} (positive : 1 ≤ size) (data : List α) : (chunks size data).flatten = data := by
  rw [chunks, flatten_pieces]
  apply List.take_of_length_le
  have covers := Nat.div_add_mod (data.length + size - 1) size
  have remainder := Nat.mod_lt (data.length + size - 1) positive
  rw [Nat.mul_comm]
  omega

theorem length_le_of_mem_chunks {size : Nat} {data piece : List α} (member : piece ∈ chunks size data) :
    piece.length ≤ size := by
  obtain ⟨index, -, rfl⟩ := List.mem_map.mp member
  simp only [List.length_take]
  omega

theorem length_chunks_le {size : Nat} (positive : 1 ≤ size) (data : List α) :
    (chunks size data).length ≤ data.length := by
  rw [length_chunks]
  apply Nat.le_of_lt_succ
  rw [Nat.div_lt_iff_lt_mul positive, Nat.succ_mul]
  have : data.length ≤ data.length * size := Nat.le_mul_of_pos_right _ positive
  omega

/-- A `HashMap`, of which only lookup, insertion and removal are used. -/
abbrev HashMap (κ : Type u) (ν : Type v) := κ → Option ν

namespace HashMap

variable {κ : Type u} {ν : Type v}

def empty : HashMap κ ν := fun _ => none

@[simp] theorem empty_apply (key : κ) : (empty : HashMap κ ν) key = none := rfl

variable [DecidableEq κ]

def insert (map : HashMap κ ν) (key : κ) (value : ν) : HashMap κ ν :=
  fun other => if other = key then some value else map other

def remove (map : HashMap κ ν) (key : κ) : HashMap κ ν :=
  fun other => if other = key then none else map other

@[simp] theorem insert_same (map : HashMap κ ν) (key : κ) (value : ν) : map.insert key value key = some value := by
  simp [insert]

@[simp] theorem insert_other (map : HashMap κ ν) {key other : κ} (value : ν) (different : other ≠ key) :
    map.insert key value other = map other := by
  simp [insert, different]

@[simp] theorem remove_same (map : HashMap κ ν) (key : κ) : map.remove key key = none := by
  simp [remove]

@[simp] theorem remove_other (map : HashMap κ ν) {key other : κ} (different : other ≠ key) :
    map.remove key other = map other := by
  simp [remove, different]

theorem insert_some {map : HashMap κ ν} {key other : κ} {value found : ν}
    (registered : map.insert key value other = some found) :
    other = key ∧ found = value ∨ other ≠ key ∧ map other = some found := by
  by_cases same : other = key
  · subst same
    rw [insert_same, Option.some.injEq] at registered
    exact .inl ⟨rfl, registered.symm⟩
  · rw [insert_other _ _ same] at registered
    exact .inr ⟨same, registered⟩

end HashMap

section

variable {κ : Type u} {ν : Type v} {cmp : κ → κ → Ordering}

/-- The entry that `BTreeMap::pop_first` returns. -/
def firstEntry (map : Std.TreeMap κ ν cmp) : Option (κ × ν) := map.toList.head?

/-- `BTreeMap::pop_first`, without the entry it returns. -/
def popFirst (map : Std.TreeMap κ ν cmp) : Std.TreeMap κ ν cmp :=
  match map.minKey? with
  | none => map
  | some key => map.erase key

variable [Std.TransCmp cmp]

theorem minKey?_firstEntry (map : Std.TreeMap κ ν cmp) : map.minKey? = (firstEntry map).map Prod.fst := by
  rw [Std.TreeMap.minKey?_eq_head?_keys, ← Std.TreeMap.map_fst_toList_eq_keys, firstEntry, List.head?_map]

theorem getElem?_firstEntry [Std.LawfulEqCmp cmp] {map : Std.TreeMap κ ν cmp} {key : κ} {value : ν}
    (first : firstEntry map = some (key, value)) : map[key]? = some value :=
  Std.TreeMap.mem_toList_iff_getElem?_eq_some.mp (List.mem_of_head? first)

theorem popFirst_none {map : Std.TreeMap κ ν cmp} (empty : firstEntry map = none) : popFirst map = map := by
  rw [popFirst, minKey?_firstEntry, empty]
  rfl

theorem popFirst_some {map : Std.TreeMap κ ν cmp} {key : κ} {value : ν} (found : (popFirst map)[key]? = some value) :
    map[key]? = some value := by
  unfold popFirst at found
  split at found
  · exact found
  · rw [Std.TreeMap.getElem?_erase] at found
    split at found
    · cases found
    · exact found

theorem popFirst_other [Std.LawfulEqCmp cmp] {map : Std.TreeMap κ ν cmp} {key : κ} (other : key ∉ map.minKey?) :
    (popFirst map)[key]? = map[key]? := by
  unfold popFirst
  split
  · rfl
  next first least =>
    rw [Std.TreeMap.getElem?_erase, if_neg]
    intro same
    exact other (least.trans (congrArg some (Std.LawfulEqCmp.compare_eq_iff_eq.mp same)))

theorem size_popFirst {map : Std.TreeMap κ ν cmp} (nonempty : 0 < map.size) : (popFirst map).size + 1 = map.size := by
  unfold popFirst
  split
  next none =>
    rw [Std.TreeMap.minKey?_eq_none_iff, Std.TreeMap.isEmpty_eq_size_eq_zero] at none
    simp at none
    omega
  next key first =>
    have member := Std.TreeMap.contains_minKey? first
    rw [Std.TreeMap.size_erase, if_pos member]
    omega

/-- Of several entries, `pop_first` does not take the last one. -/
theorem popFirst_last {map : Std.TreeMap κ ν cmp} {key : κ} (last : ∀ other ∈ map, (cmp other key).isLE)
    (several : 1 < map.size) : (popFirst map)[key]? = map[key]? := by
  unfold popFirst
  split
  · rfl
  next first least =>
    rw [Std.TreeMap.getElem?_erase, if_neg]
    intro same
    have fewer : map.size ≤ (map.erase key).size + 1 := Std.TreeMap.size_le_size_erase
    have remains : ¬ (map.erase key).isEmpty := by
      rw [Std.TreeMap.isEmpty_eq_size_eq_zero]
      simp only [beq_iff_eq]
      omega
    obtain ⟨other, found⟩ := Option.ne_none_iff_exists'.mp (mt Std.TreeMap.minKey?_eq_none_iff.mp remains)
    obtain ⟨different, member⟩ := Std.TreeMap.mem_erase.mp
      (Std.TreeMap.mem_iff_contains.mpr (Std.TreeMap.contains_minKey? found))
    have above := Std.TransCmp.isLE_trans (Ordering.isLE_of_eq_eq (Std.OrientedCmp.eq_symm same))
      (Std.TreeMap.minKey?_le_of_mem member (Option.get_of_eq_some _ least))
    exact different (Std.OrientedCmp.isLE_antisymm above (last other member))

end

end Rust
