import Veq.Proofs.RoundTrip

/-! The lengths at which the encrypted framing overruns its buffer. Snow checks
that its ciphertext fits before the nonce and the length go in front of it, so
the last sixteen lengths that snow lets through are too long for the packet. -/

namespace Veq
open Rust Bincode

variable {S : Type}

/-- What snow promises about lengths: a tag of sixteen bytes, and a failure exactly
when the result exceeds a Noise message or the buffer. -/
structure Cipher.Sized (cipher : Cipher S) (writer : S) : Prop where
  fails : ∀ nonce payload capacity, nonce < 2 ^ 64 - 1 →
    (cipher.writeMessage writer nonce payload capacity = none ↔ min 65535 capacity < payload.length + 16)
  length : ∀ nonce payload capacity ciphertext,
    cipher.writeMessage writer nonce payload capacity = some ciphertext → ciphertext.length = payload.length + 16

/-- `write_message` fails with an error, or its packet lies within the buffer and
decodes to the nonce and the ciphertext. -/
def LossyTransportState.Framed (cipher : Cipher S) (state : LossyTransportState S) (payload : Bytes) (capacity : Nat) :
    Prop :=
  match (state.writeMessage cipher payload capacity).2 with
  | .error failure => ∀ panic, failure ≠ .panic panic
  | .ok (len, message) => len ≤ capacity ∧ ∃ ciphertext,
      cipher.writeMessage state.stateless state.nextNonce payload capacity = some ciphertext ∧
      Nonced.codec.deserialize (message.take len) = some ⟨state.nextNonce, ciphertext⟩

/-- `send` fails with an error, or emits a packet from which the peer decodes the
nonce and the ciphertext of the message. -/
def Session.Emits (cipher : Cipher S) (session : Session S) (data : Bytes) : Prop :=
  match (session.send cipher data).2 with
  | .error failure => ∀ panic, failure ≠ .panic panic
  | .ok (_, packet, _) => SessionPacket.codec.deserialize (SessionPacket.codec.encode packet) = some packet ∧
      packet.id = session.id ∧ ∃ encrypted ciphertext,
        RawMessage.codec.deserialize packet.data = some (.encrypted encrypted) ∧
        cipher.writeMessage session.transport.stateless session.transport.nextNonce (Message.codec.encode (.payload data))
          65535 = some ciphertext ∧
        Nonced.codec.deserialize encrypted = some ⟨session.transport.nextNonce, ciphertext⟩

theorem LossyTransportState.writeMessage_result {cipher : Cipher S} {state : LossyTransportState S}
    (room : state.nextNonce < 2 ^ 64 - 1) (payload : Bytes) (capacity : Nat) :
    (state.writeMessage cipher payload capacity).2 =
      match cipher.writeMessage state.stateless state.nextNonce payload capacity with
      | none => .error .snow
      | some ciphertext => .ok (ciphertext.length + 16,
          (Nonced.codec.encode ⟨state.nextNonce, ciphertext⟩).take capacity) := by
  have added : addU64 state.nextNonce 1 = .ok (state.nextNonce + 1) := by rw [addU64, if_pos (by omega)]
  simp only [writeMessage, added]
  cases cipher.writeMessage state.stateless state.nextNonce payload capacity with
  | none => rfl
  | some ciphertext => simp [Nonced.length_encode]

theorem LossyTransportState.framed_iff {cipher : Cipher S} {state : LossyTransportState S}
    (sized : cipher.Sized state.stateless) (room : state.nextNonce < 2 ^ 64 - 1) (payload : Bytes) (capacity : Nat) :
    state.Framed cipher payload capacity ↔
      min 65535 capacity < payload.length + 16 ∨ payload.length + 32 ≤ capacity := by
  have fails := sized.fails state.nextNonce payload capacity room
  rw [Framed, writeMessage_result room]
  cases written : cipher.writeMessage state.stateless state.nextNonce payload capacity with
  | none =>
    have long := fails.mp written
    simp [long]
  | some ciphertext =>
    have length := sized.length _ _ _ _ written
    have short : ¬ min 65535 capacity < payload.length + 16 := fun long => by
      cases written.symm.trans (fails.mpr long)
    simp only [short, false_or]
    constructor
    · rintro ⟨fits, -⟩
      omega
    · intro fits
      refine ⟨by omega, ciphertext, rfl, ?_⟩
      have whole : (Nonced.codec.encode ⟨state.nextNonce, ciphertext⟩).length = ciphertext.length + 16 :=
        Nonced.length_encode _
      have uncut : (Nonced.codec.encode ⟨state.nextNonce, ciphertext⟩).take capacity =
        Nonced.codec.encode ⟨state.nextNonce, ciphertext⟩ := List.take_of_length_le (by omega)
      rw [uncut, ← whole, List.take_length]
      exact Nonced.codec.deserialize_encode (Nonced.fits (by simp only; omega) (by simp only; omega))

namespace Session

variable {cipher : Cipher S} {session : Session S}

theorem encrypt_result (room : session.transport.nextNonce < 2 ^ 64 - 1) {message : Message} {ciphertext : Bytes}
    (written : cipher.writeMessage session.transport.stateless session.transport.nextNonce (Message.codec.encode message)
      65535 = some ciphertext) :
    (session.encrypt cipher message).2 = if ciphertext.length + 16 ≤ 65535 then
        .ok (session.remoteAddr, ⟨session.id,
          RawMessage.codec.encode (.encrypted (Nonced.codec.encode ⟨session.transport.nextNonce, ciphertext⟩))⟩, 64)
      else .error (.panic .slice) := by
  have whole : (Nonced.codec.encode ⟨session.transport.nextNonce, ciphertext⟩).length = ciphertext.length + 16 :=
    Nonced.length_encode _
  split
  next fits => exact encrypt_whole room written (by omega)
  next long =>
    have added : addU64 session.transport.nextNonce 1 = .ok (session.transport.nextNonce + 1) := by
      rw [addU64, if_pos (by omega)]
    simp only [encrypt, LossyTransportState.writeMessage, added, written, whole, if_neg long]

theorem encrypt_refused (room : session.transport.nextNonce < 2 ^ 64 - 1) {message : Message}
    (refused : cipher.writeMessage session.transport.stateless session.transport.nextNonce (Message.codec.encode message)
      65535 = none) : (session.encrypt cipher message).2 = .error .snow := by
  have added : addU64 session.transport.nextNonce 1 = .ok (session.transport.nextNonce + 1) := by
    rw [addU64, if_pos (by omega)]
  simp only [encrypt, LossyTransportState.writeMessage, added, refused]

theorem send_alive (alive : session.dead = false) (data : Bytes) :
    session.send cipher data = session.encrypt cipher (.payload data) := by
  simp [send, isDead, alive]

theorem emits_iff (sized : cipher.Sized session.transport.stateless) (room : session.transport.nextNonce < 2 ^ 64 - 1)
    (data : Bytes) :
    session.Emits cipher data ↔ session.dead = true ∨ 65535 < data.length + 28 ∨ data.length + 44 ≤ 65535 := by
  cases life : session.dead with
  | true => simp [Emits, send, isDead, life]
  | false =>
    have size := Message.length_encode_payload data
    have fails := sized.fails session.transport.nextNonce (Message.codec.encode (.payload data)) 65535 room
    rw [Emits, send_alive life]
    simp only [Bool.false_eq_true, false_or]
    cases written : cipher.writeMessage session.transport.stateless session.transport.nextNonce
        (Message.codec.encode (.payload data)) 65535 with
    | none =>
      have long := fails.mp written
      rw [encrypt_refused room written]
      simp only [ne_eq, reduceCtorEq, not_false_eq_true, implies_true, true_iff]
      exact .inl (by omega)
    | some ciphertext =>
      have length := sized.length _ _ _ _ written
      have short : ¬ min 65535 65535 < (Message.codec.encode (.payload data)).length + 16 := fun long => by
        cases written.symm.trans (fails.mpr long)
      rw [encrypt_result room written]
      by_cases fits : ciphertext.length + 16 ≤ 65535
      · have whole : (Nonced.codec.encode ⟨session.transport.nextNonce, ciphertext⟩).length = ciphertext.length + 16 :=
          Nonced.length_encode _
        have carried := RawMessage.length_encode_encrypted
          (Nonced.codec.encode ⟨session.transport.nextNonce, ciphertext⟩)
        simp only [if_pos fits]
        refine iff_of_true ⟨?_, trivial, Nonced.codec.encode ⟨session.transport.nextNonce, ciphertext⟩, ciphertext, ?_, rfl,
          ?_⟩ (.inr (by omega))
        · exact SessionPacket.codec.deserialize_encode (SessionPacket.fits (by simp only; omega))
        · exact RawMessage.codec.deserialize_encode (RawMessage.fits_encrypted (by omega))
        · exact Nonced.codec.deserialize_encode (Nonced.fits (by simp only; omega) (by simp only; omega))
      · simp only [if_neg fits]
        refine iff_of_false (fun promised => promised .slice rfl) ?_
        rintro (long | enough)
        · omega
        · omega

/-- The lengths that snow lets through and the packet has no room for. -/
theorem send_overruns (sized : cipher.Sized session.transport.stateless)
    (room : session.transport.nextNonce < 2 ^ 64 - 1) (alive : session.dead = false) {data : Bytes}
    (passes : data.length + 28 ≤ 65535) (long : 65535 < data.length + 44) :
    (session.send cipher data).2 = .error (.panic .slice) := by
  have size := Message.length_encode_payload data
  have fails := sized.fails session.transport.nextNonce (Message.codec.encode (.payload data)) 65535 room
  cases written : cipher.writeMessage session.transport.stateless session.transport.nextNonce
      (Message.codec.encode (.payload data)) 65535 with
  | none =>
    have tooLong := fails.mp written
    omega
  | some ciphertext =>
    have length := sized.length _ _ _ _ written
    rw [send_alive alive, encrypt_result room written, if_neg (by omega)]

end Session

/-- The framing keeps its promise except at the sixteen lengths just below the
limit. -/
theorem framing_iff (cipher : Cipher S) (session : Session S) (sized : cipher.Sized session.transport.stateless)
    (room : session.transport.nextNonce < 2 ^ 64 - 1) :
    (∀ payload capacity, session.transport.Framed cipher payload capacity ↔
      min 65535 capacity < payload.length + 16 ∨ payload.length + 32 ≤ capacity) ∧
    (∀ data, session.Emits cipher data ↔
      session.dead = true ∨ 65535 < data.length + 28 ∨ data.length + 44 ≤ 65535) :=
  ⟨LossyTransportState.framed_iff sized room, Session.emits_iff sized room⟩

theorem tagCipher_sized : LossyTransportState.tagCipher.Sized () := by
  constructor
  · intro nonce payload capacity _
    simp only [LossyTransportState.tagCipher, ite_eq_right_iff, reduceCtorEq, imp_false, not_le]
  · intro nonce payload capacity ciphertext written
    simp only [LossyTransportState.tagCipher] at written
    split at written
    · cases written
      simp
    · cases written

theorem framing_short :
    (LossyTransportState.new () 1).Framed LossyTransportState.tagCipher [1] 33 ∧
    (Session.new 7 (.v4 1 1) (.new () 1)).Emits LossyTransportState.tagCipher [1, 2] :=
  have promised := framing_iff LossyTransportState.tagCipher (Session.new 7 (.v4 1 1) (.new () 1)) tagCipher_sized (by decide)
  ⟨(promised.1 [1] 33).mpr (by decide), (promised.2 [1, 2]).mpr (by decide)⟩

/-- A ciphertext that just fits its buffer leaves no room for the header, and a
message of 65507 bytes makes `send` panic. -/
theorem framing_overruns :
    ((LossyTransportState.new () 1).writeMessage LossyTransportState.tagCipher [] 16).2.map Prod.fst = .ok 32 ∧
    ¬ (LossyTransportState.new () 1).Framed LossyTransportState.tagCipher [] 16 ∧
    ((Session.new 7 (.v4 1 1) (.new () 1)).send LossyTransportState.tagCipher (List.replicate 65507 0)).2 =
      .error (.panic .slice) ∧
    ¬ (Session.new 7 (.v4 1 1) (.new () 1)).Emits LossyTransportState.tagCipher (List.replicate 65507 0) := by
  have count : (List.replicate 65507 (0 : UInt8)).length = 65507 := List.length_replicate
  have overrun : ((Session.new 7 (.v4 1 1) (.new () 1)).send LossyTransportState.tagCipher
      (List.replicate 65507 0)).2 = .error (.panic .slice) :=
    Session.send_overruns tagCipher_sized (by decide) rfl (by omega) (by omega)
  refine ⟨by decide, ?_, overrun, ?_⟩
  · rintro ⟨fits, -⟩
    exact absurd fits (by decide)
  · rw [Session.Emits, overrun]
    exact fun promised => promised .slice rfl

end Veq
