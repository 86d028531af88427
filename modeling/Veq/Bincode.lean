import Veq.Rust
import Mathlib.Data.List.Dedup

/-! The byte format of `bincode::serialize`: fixed-width little-endian integers,
`u64` lengths and `u32` variant tags. A codec carries the proof that decoding
inverts encoding on every value it can represent. As with
`bincode::deserialize`, bytes after the decoded value are ignored. -/

namespace Bincode
open Rust

def leBytes : Nat → Nat → Bytes
  | 0, _ => []
  | width + 1, value => UInt8.ofNat value :: leBytes width (value / 256)

def leNat : Bytes → Nat
  | [] => 0
  | byte :: rest => byte.toNat + 256 * leNat rest

@[simp] theorem length_leBytes (width value : Nat) : (leBytes width value).length = width := by
  induction width generalizing value with
  | zero => rfl
  | succ width ih => simp [leBytes, ih]

theorem leNat_leBytes (width value : Nat) : leNat (leBytes width value) = value % 256 ^ width := by
  induction width generalizing value with
  | zero => simp [leBytes, leNat, Nat.mod_one]
  | succ width ih =>
    simp only [leBytes, leNat, ih, UInt8.toNat_ofNat']
    rw [Nat.pow_succ 256, Nat.mul_comm (256 ^ width) 256, Nat.mod_mul]

structure Codec (α : Type) where
  encode : α → Bytes
  decode : Bytes → Option (α × Bytes)
  Fits : α → Prop
  decode_encode : ∀ value rest, Fits value → decode (encode value ++ rest) = some (value, rest)

namespace Codec

variable {α β : Type}

def deserialize (codec : Codec α) (bytes : Bytes) : Option α :=
  (codec.decode bytes).map Prod.fst

theorem deserialize_encode (codec : Codec α) {value : α} (fits : codec.Fits value) :
    codec.deserialize (codec.encode value) = some value := by
  have decoded := codec.decode_encode value [] fits
  rw [List.append_nil] at decoded
  simp [deserialize, decoded]

def uint (width : Nat) : Codec Nat where
  encode := leBytes width
  decode input := if input.length < width then none else some (leNat (input.take width), input.drop width)
  Fits value := value < 256 ^ width
  decode_encode value rest fits := by
    have enough : ¬ (leBytes width value ++ rest).length < width := by simp
    rw [if_neg enough, List.take_left' (length_leBytes width value), List.drop_left' (length_leBytes width value),
      leNat_leBytes, Nat.mod_eq_of_lt fits]

abbrev u32 : Codec Nat := uint 4

abbrev u64 : Codec Nat := uint 8

theorem fits_u32 {value : Nat} : u32.Fits value ↔ value < 2 ^ 32 := Iff.rfl

/-- `Vec<u8>`, and everything else that serializes as a byte slice. -/
def bytes : Codec Bytes where
  encode data := u64.encode data.length ++ data
  decode input := do
    let (length, rest) ← u64.decode input
    if rest.length < length then none else some (rest.take length, rest.drop length)
  Fits data := data.length < 2 ^ 64
  decode_encode data rest fits := by
    rw [List.append_assoc, u64.decode_encode _ _ fits]
    simp

def pair (first : Codec α) (second : Codec β) : Codec (α × β) where
  encode value := first.encode value.1 ++ second.encode value.2
  decode input := do
    let (left, rest) ← first.decode input
    let (right, rest) ← second.decode rest
    some ((left, right), rest)
  Fits value := first.Fits value.1 ∧ second.Fits value.2
  decode_encode value rest fits := by
    rw [List.append_assoc, first.decode_encode _ _ fits.1]
    simp [second.decode_encode _ _ fits.2]

/-- A type represented by another one, some of whose values may be invalid. -/
def refine (codec : Codec α) (check : α → Option β) (forget : β → α)
    (checked : ∀ value, check (forget value) = some value) : Codec β where
  encode value := codec.encode (forget value)
  decode input := do
    let (raw, rest) ← codec.decode input
    let value ← check raw
    some (value, rest)
  Fits value := codec.Fits (forget value)
  decode_encode value rest fits := by
    rw [codec.decode_encode _ _ fits]
    simp [checked]

def isomorphic (codec : Codec α) (build : α → β) (forget : β → α)
    (inverse : ∀ value, build (forget value) = value) : Codec β :=
  codec.refine (fun raw => some (build raw)) forget (fun value => congrArg some (inverse value))

/-- One variant of an enum: the values that `project` accepts. -/
def variant (codec : Codec α) (inject : α → β) (project : β → Option α)
    (injected : ∀ value raw, project value = some raw → inject raw = value) : Codec β where
  encode value := ((project value).map codec.encode).getD []
  decode input := do
    let (raw, rest) ← codec.decode input
    some (inject raw, rest)
  Fits value := ∃ raw, project value = some raw ∧ codec.Fits raw
  decode_encode value rest fits := by
    obtain ⟨raw, projected, fits⟩ := fits
    simp [projected, codec.decode_encode _ _ fits, injected value raw projected]

def unit : Codec Unit where
  encode _ := []
  decode input := some ((), input)
  Fits _ := True
  decode_encode _ _ _ := rfl

/-- An enum: the variant's index as a `u32`, then the variant's fields. -/
def tagged (tag : β → Nat) (variants : Nat → Option (Codec β)) : Codec β where
  encode value := u32.encode (tag value) ++ ((variants (tag value)).map (·.encode value)).getD []
  decode input := do
    let (index, rest) ← u32.decode input
    let codec ← variants index
    codec.decode rest
  Fits value := u32.Fits (tag value) ∧ ∃ codec, variants (tag value) = some codec ∧ codec.Fits value
  decode_encode value rest fits := by
    obtain ⟨small, codec, selected, fits⟩ := fits
    rw [List.append_assoc, u32.decode_encode _ _ small]
    simp [selected, codec.decode_encode _ _ fits]

def decodeMany (codec : Codec α) : Nat → Bytes → Option (List α × Bytes)
  | 0, input => some ([], input)
  | count + 1, input => do
    let (value, rest) ← codec.decode input
    let (values, rest) ← codec.decodeMany count rest
    some (value :: values, rest)

theorem decodeMany_encode (codec : Codec α) {values : List α} (rest : Bytes) (fits : ∀ value ∈ values, codec.Fits value) :
    codec.decodeMany values.length (values.flatMap codec.encode ++ rest) = some (values, rest) := by
  induction values with
  | nil => rfl
  | cons value values ih =>
    have first := codec.decode_encode value (values.flatMap codec.encode ++ rest) (fits value List.mem_cons_self)
    have others := ih fun other member => fits other (List.mem_cons_of_mem _ member)
    rw [List.flatMap_cons, List.append_assoc, List.length_cons, decodeMany, first]
    simp [others]

/-- A `HashSet`, as the list of its elements. Elements that come twice are read as
one. -/
def set [DecidableEq α] (codec : Codec α) : Codec (List α) where
  encode values := u64.encode values.length ++ values.flatMap codec.encode
  decode input := do
    let (count, rest) ← u64.decode input
    let (values, rest) ← codec.decodeMany count rest
    some (values.dedup, rest)
  Fits values := values.Nodup ∧ values.length < 2 ^ 64 ∧ ∀ value ∈ values, codec.Fits value
  decode_encode values rest fits := by
    rw [List.append_assoc, u64.decode_encode _ _ fits.2.1]
    simp [codec.decodeMany_encode rest fits.2.2, fits.1.dedup]

/-- The octets of an address, the most significant first. -/
def octets (width : Nat) : Codec Nat where
  encode value := (leBytes width value).reverse
  decode input := if input.length < width then none else some (leNat (input.take width).reverse, input.drop width)
  Fits value := value < 256 ^ width
  decode_encode value rest fits := by
    have length : (leBytes width value).reverse.length = width := by simp
    have enough : ¬ ((leBytes width value).reverse ++ rest).length < width := by simp
    rw [if_neg enough, List.take_left' length, List.drop_left' length, List.reverse_reverse, leNat_leBytes,
      Nat.mod_eq_of_lt fits]

end Codec
end Bincode
