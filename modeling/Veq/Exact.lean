import Veq.Bincode

/-! Codecs that accept nothing but what they write: whatever decodes is the
encoding of a value that fits, followed by the bytes that are left over. -/

namespace Bincode
open Rust

theorem leNat_lt (bytes : Bytes) : leNat bytes < 256 ^ bytes.length := by
  induction bytes with
  | nil => simp [leNat]
  | cons byte bytes ih =>
    have small := byte.toNat_lt
    rw [leNat, List.length_cons, Nat.pow_succ]
    omega

theorem leBytes_leNat (bytes : Bytes) : leBytes bytes.length (leNat bytes) = bytes := by
  induction bytes with
  | nil => rfl
  | cons byte bytes ih =>
    have small := byte.toNat_lt
    have low : UInt8.ofNat (byte.toNat + 256 * leNat bytes) = byte := by
      apply UInt8.toNat_inj.mp
      rw [UInt8.toNat_ofNat']
      omega
    have high : (byte.toNat + 256 * leNat bytes) / 256 = leNat bytes := by omega
    rw [List.length_cons, leNat, leBytes, low, high, ih]

namespace Codec

variable {α β : Type}

def Exact (codec : Codec α) : Prop :=
  ∀ input value rest, codec.decode input = some (value, rest) → codec.Fits value ∧ input = codec.encode value ++ rest

namespace Exact

variable {first : Codec α} {second : Codec β} {codec : Codec α}

theorem deserialize_iff (exact : codec.Exact) {input : Bytes} {value : α} :
    codec.deserialize input = some value ↔ codec.Fits value ∧ ∃ rest, input = codec.encode value ++ rest := by
  constructor
  · intro decoded
    obtain ⟨⟨found, rest⟩, parsed, rfl⟩ := Option.map_eq_some_iff.mp decoded
    obtain ⟨fits, same⟩ := exact input found rest parsed
    exact ⟨fits, rest, same⟩
  · intro ⟨fits, rest, same⟩
    rw [deserialize, same, codec.decode_encode value rest fits]
    rfl

theorem uint (width : Nat) : (Codec.uint width).Exact := by
  intro input value rest decoded
  simp only [Codec.uint, Option.ite_none_left_eq_some, Option.some.injEq, Prod.mk.injEq] at decoded
  obtain ⟨enough, rfl, rfl⟩ := decoded
  have length : (input.take width).length = width := by
    rw [List.length_take]
    omega
  constructor
  · have small := leNat_lt (input.take width)
    rwa [length] at small
  · have bytes := leBytes_leNat (input.take width)
    rw [length] at bytes
    simp only [Codec.uint, bytes, List.take_append_drop]

theorem bytes : Codec.bytes.Exact := by
  intro input data rest decoded
  obtain ⟨⟨length, remaining⟩, read, taken⟩ := Option.bind_eq_some_iff.mp decoded
  simp only [Option.ite_none_left_eq_some, Option.some.injEq, Prod.mk.injEq] at taken
  obtain ⟨enough, rfl, rfl⟩ := taken
  obtain ⟨small, same⟩ := uint 8 input length remaining read
  have count : (remaining.take length).length = length := by
    rw [List.length_take]
    omega
  constructor
  · change (remaining.take length).length < 2 ^ 64
    rw [count]
    exact small
  · simp only [Codec.bytes, count, List.append_assoc, List.take_append_drop]
    exact same

theorem pair (left : first.Exact) (right : second.Exact) : (first.pair second).Exact := by
  intro input value rest decoded
  obtain ⟨⟨one, remaining⟩, read, decoded⟩ := Option.bind_eq_some_iff.mp decoded
  obtain ⟨⟨two, leftover⟩, then_, found⟩ := Option.bind_eq_some_iff.mp decoded
  cases found
  obtain ⟨fitsOne, rfl⟩ := left input one remaining read
  obtain ⟨fitsTwo, rfl⟩ := right remaining two rest then_
  exact ⟨⟨fitsOne, fitsTwo⟩, by simp [Codec.pair]⟩

theorem refine (exact : codec.Exact) {check : α → Option β} {forget : β → α}
    {checked : ∀ value, check (forget value) = some value}
    (forgotten : ∀ raw value, check raw = some value → forget value = raw) : (codec.refine check forget checked).Exact := by
  intro input value rest decoded
  obtain ⟨⟨raw, remaining⟩, read, decoded⟩ := Option.bind_eq_some_iff.mp decoded
  obtain ⟨found, valid, same⟩ := Option.bind_eq_some_iff.mp decoded
  cases same
  obtain ⟨fits, same⟩ := exact input raw rest read
  rw [← forgotten raw value valid] at fits same
  exact ⟨fits, same⟩

theorem isomorphic (exact : codec.Exact) {build : α → β} {forget : β → α} {inverse : ∀ value, build (forget value) = value}
    (forgotten : ∀ raw, forget (build raw) = raw) : (codec.isomorphic build forget inverse).Exact := by
  refine exact.refine ?_
  intro raw value same
  cases same
  exact forgotten raw

theorem unit : Codec.unit.Exact := by
  intro input value rest decoded
  cases decoded
  exact ⟨trivial, rfl⟩

theorem variant (exact : codec.Exact) {inject : α → β} {project : β → Option α}
    {injected : ∀ value raw, project value = some raw → inject raw = value}
    (projected : ∀ raw, project (inject raw) = some raw) : (codec.variant inject project injected).Exact := by
  intro input value rest decoded
  obtain ⟨⟨raw, remaining⟩, read, same⟩ := Option.bind_eq_some_iff.mp decoded
  cases same
  obtain ⟨fits, rfl⟩ := exact input raw rest read
  refine ⟨⟨raw, projected raw, fits⟩, ?_⟩
  simp [Codec.variant, projected]

theorem tagged {tag : β → Nat} {variants : Nat → Option (Codec β)}
    (exact : ∀ index codec, variants index = some codec → codec.Exact)
    (named : ∀ index codec, variants index = some codec → ∀ value, codec.Fits value → tag value = index) :
    (Codec.tagged tag variants).Exact := by
  intro input value rest decoded
  obtain ⟨⟨index, remaining⟩, read, decoded⟩ := Option.bind_eq_some_iff.mp decoded
  obtain ⟨codec, selected, parsed⟩ := Option.bind_eq_some_iff.mp decoded
  obtain ⟨small, rfl⟩ := uint 4 input index remaining read
  obtain ⟨fits, rfl⟩ := exact index codec selected remaining value rest parsed
  have same := named index codec selected value fits
  subst same
  refine ⟨⟨small, codec, selected, fits⟩, ?_⟩
  simp [Codec.tagged, selected]

end Exact
end Codec
end Bincode
