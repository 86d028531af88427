import Veq.Proofs.Replay

/-! Which authentic packets the lossy transport accepts, when they arrive in any
order. Once its window is full it tolerates reordering up to its size. While the
window is filling up, the first packet sets a bound that nothing may fall below. -/

namespace Veq.LossyTransportState
open Rust Bincode

variable {S : Type} (cipher : Cipher S) (capacity : Nat)

def nonceOf (packet : Bytes) : Option Nat :=
  (Nonced.codec.deserialize packet).map Nonced.nonce

def nonces (packets : List Bytes) : List Nat := packets.filterMap nonceOf

def readEach (state : LossyTransportState S) (packets : List Bytes) : LossyTransportState S :=
  packets.foldl (fun state packet => (state.readMessage cipher packet capacity).1) state

def acceptedNonces (state : LossyTransportState S) (packets : List Bytes) : List Nat :=
  (state.readAll cipher capacity packets).filterMap fun read =>
    match read.2 with
    | .ok _ => nonceOf read.1
    | .error _ => none

/-- A packet is accepted exactly when fewer packets than the window has room for
were accepted before it with a greater nonce. -/
def AcceptsByDepth (state : LossyTransportState S) (packets : List Bytes) : Prop :=
  ∀ before packet after nonce, packets = before ++ packet :: after → nonceOf packet = some nonce →
    ((∃ plaintext, ((state.readEach cipher capacity before).readMessage cipher packet capacity).2 = .ok plaintext) ↔
      (state.acceptedNonces cipher capacity before).countP (nonce < ·) < state.size)

variable {cipher capacity} {state : LossyTransportState S} {packet : Bytes} {packets : List Bytes}

theorem nonceOf_authentic {stateless : S} (genuine : authentic cipher capacity stateless packet = true) :
    ∃ nonced, Nonced.codec.deserialize packet = some nonced ∧ nonceOf packet = some nonced.nonce ∧
      ∃ plaintext, cipher.readMessage stateless nonced.nonce nonced.payload capacity = some plaintext := by
  cases decoded : Nonced.codec.deserialize packet with
  | none => simp [authentic, decoded] at genuine
  | some nonced =>
    refine ⟨nonced, rfl, by simp [nonceOf, decoded], ?_⟩
    simpa [authentic, decoded, Option.isSome_iff_exists] using genuine

theorem accepts_iff {nonce : Nat} (genuine : authentic cipher capacity state.stateless packet = true)
    (carries : nonceOf packet = some nonce) :
    (∃ plaintext, (state.readMessage cipher packet capacity).2 = .ok plaintext) ↔
      ¬ Window.Refuses state.receivedNonces nonce := by
  obtain ⟨nonced, decoded, same, plaintext, opened⟩ := nonceOf_authentic genuine
  cases same.symm.trans carries
  by_cases refused : Window.Refuses state.receivedNonces nonced.nonce
  · simp [readMessage, decoded, refused]
  · simp [readMessage, decoded, refused, opened]

theorem readMessage_visits {nonce : Nat} (carries : nonceOf packet = some nonce) :
    (state.readMessage cipher packet capacity).1 =
      { state with receivedNonces := Window.visit state.size state.receivedNonces nonce } := by
  obtain ⟨nonced, decoded, rfl⟩ := Option.map_eq_some_iff.mp carries
  rw [readMessage_state, decoded]

theorem readEach_authentic (genuine : ∀ packet ∈ packets, authentic cipher capacity state.stateless packet = true) :
    state.readEach cipher capacity packets =
      { state with receivedNonces := Window.visits state.size state.receivedNonces (nonces packets) } := by
  induction packets generalizing state with
  | nil => rfl
  | cons packet packets ih =>
    obtain ⟨nonced, -, carries, -⟩ := nonceOf_authentic (genuine packet (by simp))
    have read : (state.readMessage cipher packet capacity).1 = _ := readMessage_visits carries
    rw [readEach, List.foldl_cons, read, nonces, List.filterMap_cons_some carries]
    exact ih (fun other member => genuine other (by simp [member]))

theorem acceptedNonces_authentic
    (genuine : ∀ packet ∈ packets, authentic cipher capacity state.stateless packet = true) :
    state.acceptedNonces cipher capacity packets =
      Window.admitted state.size state.receivedNonces (nonces packets) := by
  induction packets generalizing state with
  | nil => rfl
  | cons packet packets ih =>
    obtain ⟨nonced, -, carries, -⟩ := nonceOf_authentic (genuine packet (by simp))
    have rest : (state.readMessage cipher packet capacity).1.acceptedNonces cipher capacity packets = _ :=
      ih (fun other member => by
        rw [readMessage_stateless]
        exact genuine other (by simp [member]))
    have accepts := accepts_iff (genuine packet (by simp)) carries
    rw [readMessage_visits carries] at rest
    rw [nonces, List.filterMap_cons_some carries, Window.admitted, acceptedNonces, readAll]
    cases result : (state.readMessage cipher packet capacity).2 with
    | ok plaintext =>
      rw [List.filterMap_cons_some (by exact carries), if_neg (accepts.mp ⟨plaintext, result⟩), readMessage_visits carries]
      exact congrArg (nonced.nonce :: ·) rest
    | error failure =>
      have refused : Window.Refuses state.receivedNonces nonced.nonce := by
        by_contra admitted
        obtain ⟨plaintext, accepted⟩ := accepts.mpr admitted
        cases result.symm.trans accepted
      rw [List.filterMap_cons_none rfl, if_pos refused, readMessage_visits carries]
      exact rest

theorem nonces_split {before after : List Nat} {nonce : Nat} (split : nonces packets = before ++ nonce :: after) :
    ∃ first packet last, packets = first ++ packet :: last ∧ nonces first = before ∧ nonceOf packet = some nonce := by
  obtain ⟨first, rest, rfl, rfl, tail⟩ := List.filterMap_eq_append_iff.mp split
  obtain ⟨skipped, packet, last, rfl, none, carries, -⟩ := List.filterMap_eq_cons_iff.mp tail
  refine ⟨first ++ skipped, packet, last, by simp, ?_, carries⟩
  rw [nonces, List.filterMap_append, List.filterMap_eq_nil_iff.mpr none, List.append_nil]

/-- The transport accepts the packets that its window has room for exactly when
none of the packets that fill the window has a nonce below that of the first. -/
theorem window_depth_iff (cipher : Cipher S) (stateless : S) {size : Nat} (positive : 1 ≤ size) (capacity : Nat)
    (packets : List Bytes) (genuine : ∀ packet ∈ packets, authentic cipher capacity stateless packet = true)
    (distinct : (nonces packets).Nodup) :
    (new stateless size).AcceptsByDepth cipher capacity packets ↔
      ∀ nonce ∈ (nonces packets).take size, ∀ first ∈ (nonces packets).head?, first ≤ nonce := by
  have prior : ∀ before after, packets = before ++ after →
      ∀ packet ∈ before, authentic cipher capacity (new stateless size).stateless packet = true := by
    rintro before after rfl packet member
    exact genuine packet (by simp [member])
  have here : ∀ before packet after nonce, packets = before ++ packet :: after → nonceOf packet = some nonce →
      (((∃ plaintext, (((new stateless size).readEach cipher capacity before).readMessage cipher packet capacity).2 =
          .ok plaintext) ↔ ((new stateless size).acceptedNonces cipher capacity before).countP (nonce < ·) < size) ↔
        (¬ Window.Refuses (Window.visits size ∅ (nonces before)) nonce ↔
          (Window.admitted size ∅ (nonces before)).countP (nonce < ·) < size)) := by
    intro before packet after nonce split carries
    have authenticated := genuine packet (by simp [split])
    rw [acceptedNonces_authentic (prior before _ split), readEach_authentic (prior before _ split),
      accepts_iff authenticated carries]
    rfl
  refine Iff.trans ?_ (Window.deep_iff_ascends positive distinct)
  constructor
  · intro accepts before nonce after split
    obtain ⟨first, packet, last, whole, rfl, carries⟩ := nonces_split split
    exact (here first packet last nonce whole carries).mp (accepts first packet last nonce whole carries)
  · intro deep before packet after nonce split carries
    refine (here before packet after nonce split carries).mpr (deep (nonces before) nonce (nonces after) ?_)
    rw [split, nonces, List.filterMap_append, List.filterMap_cons_some carries]
    rfl

theorem window_depth_reordered :
    (new () 2).AcceptsByDepth tagCipher 65535 [tagged 3 [7], tagged 5 [8], tagged 4 [9]] :=
  (window_depth_iff tagCipher () (by decide) 65535 _ (by decide) (by decide)).mpr (by decide)

/-- A window of two that holds one nonce refuses the nonces below it. -/
theorem filling_window_refuses :
    (∀ packet ∈ [tagged 5 [7], tagged 3 [8]], authentic tagCipher 65535 () packet = true) ∧
    (nonces [tagged 5 [7], tagged 3 [8]]).Nodup ∧
    ((new () 2).readAll tagCipher 65535 [tagged 5 [7], tagged 3 [8]]).map Prod.snd = [.ok [7], .error .snow] ∧
    (new () 2).acceptedNonces tagCipher 65535 [tagged 5 [7]] = [5] ∧
    ¬ (new () 2).AcceptsByDepth tagCipher 65535 [tagged 5 [7], tagged 3 [8]] := by
  refine ⟨by decide, by decide, by decide, by decide, ?_⟩
  intro accepts
  obtain ⟨plaintext, accepted⟩ := (accepts [tagged 5 [7]] (tagged 3 [8]) [] 3 rfl (by decide)).mpr (by decide)
  have refused : (((new () 2).readEach tagCipher 65535 [tagged 5 [7]]).readMessage tagCipher (tagged 3 [8]) 65535).2 =
      .error .snow := by
    decide
  cases refused.symm.trans accepted

end Veq.LossyTransportState
