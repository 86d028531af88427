import Veq.Proofs.Naming

/-! The bytes of one chunk from the sending handle to the receiving one. Every
layer adds a header of fixed length, so a chunk of at most 4096 bytes stays far
below the buffers that it is copied through, and what is not cut off decodes. -/

namespace Veq
open Rust Bincode

variable {H S : Type}

/-- What snow promises of the two ends of a transport: a tag of sixteen bytes, no
refusal of what fits a Noise message and the buffer, and that one end opens what
the other has written. The largest nonce is reserved. -/
structure Cipher.Seals (cipher : Cipher S) (writer reader : S) : Prop where
  writes : ∀ nonce plaintext capacity, nonce < 2 ^ 64 - 1 → plaintext.length + 16 ≤ min 65535 capacity →
    ∃ ciphertext, cipher.writeMessage writer nonce plaintext capacity = some ciphertext ∧
      ciphertext.length = plaintext.length + 16
  opens : ∀ nonce plaintext ciphertext capacity room,
    cipher.writeMessage writer nonce plaintext capacity = some ciphertext → plaintext.length ≤ room →
    cipher.readMessage reader nonce ciphertext room = some plaintext

namespace Session

variable {cipher : Cipher S} {session : Session S}

/-- A packet that fits the buffer is not cut off by the copy into it. -/
theorem encrypt_whole {message : Message} {ciphertext : Bytes} (room : session.transport.nextNonce < 2 ^ 64 - 1)
    (written : cipher.writeMessage session.transport.stateless session.transport.nextNonce (Message.codec.encode message)
      65535 = some ciphertext)
    (short : (Nonced.codec.encode ⟨session.transport.nextNonce, ciphertext⟩).length ≤ 65535) :
    (session.encrypt cipher message).2 = .ok (session.remoteAddr,
      ⟨session.id, RawMessage.codec.encode (.encrypted (Nonced.codec.encode ⟨session.transport.nextNonce, ciphertext⟩))⟩, 64) := by
  have added : addU64 session.transport.nextNonce 1 = .ok (session.transport.nextNonce + 1) := by
    rw [addU64, if_pos (by omega)]
  simp only [encrypt, LossyTransportState.writeMessage, added, written, if_pos short, List.take_of_length_le short,
    List.take_length]

theorem handleIncoming_payload {packet : SessionPacket} {encrypted data : Bytes} {transport : LossyTransportState S}
    (carried : RawMessage.codec.deserialize packet.data = some (.encrypted encrypted))
    (opened : session.transport.readMessage cipher encrypted 65535 = (transport, .ok (Message.codec.encode (.payload data))))
    (bounded : data.length < 2 ^ 64) :
    (session.handleIncoming cipher packet).1.messages = session.messages ++ [data] := by
  simp [handleIncoming, carried, opened, Message.codec.deserialize_encode (Message.fits_payload bounded)]

end Session

theorem LossyTransportState.readMessage_admitted {cipher : Cipher S} {state : LossyTransportState S} {nonce : Nat}
    {ciphertext plaintext : Bytes} {capacity : Nat} (small : nonce < 2 ^ 64) (bounded : ciphertext.length < 2 ^ 64)
    (admitted : ¬ Window.Refuses state.receivedNonces nonce)
    (opened : cipher.readMessage state.stateless nonce ciphertext capacity = some plaintext) :
    state.readMessage cipher (Nonced.codec.encode ⟨nonce, ciphertext⟩) capacity =
      ({ state with receivedNonces := Window.enter state.size state.receivedNonces nonce }, .ok plaintext) := by
  have fits : Nonced.codec.Fits ⟨nonce, ciphertext⟩ := Nonced.fits small bounded
  simp [readMessage, Nonced.codec.deserialize_encode fits, admitted, opened]

theorem Chunker.chunked_length {group : Nat} {data : Bytes} {chunk : ChunkedData}
    (member : chunk ∈ Chunker.chunked group 4096 data) : chunk.data.length ≤ 4096 :=
  length_le_of_mem_chunks (List.mem_of_getElem? (Assembly.mem_chunked member).2.2)

theorem sealed_layers (id : SessionId) (nonce : Nat) {ciphertext : Bytes}
    (short : ciphertext.length ≤ 4156) :
    let nonced := Nonced.codec.encode ⟨nonce, ciphertext⟩
    let packet : SessionPacket := ⟨id, RawMessage.codec.encode (.encrypted nonced)⟩
    nonced.length = ciphertext.length + 16 ∧ (SessionPacket.codec.encode packet).length = ciphertext.length + 60 ∧
      SessionPacket.codec.deserialize (SessionPacket.codec.encode packet) = some packet ∧
      RawMessage.codec.deserialize packet.data = some (.encrypted nonced) := by
  intro nonced packet
  have noncedLength : nonced.length = ciphertext.length + 16 := Nonced.length_encode _
  have rawLength : packet.data.length = nonced.length + 12 := RawMessage.length_encode_encrypted nonced
  have datagramLength := SessionPacket.length_encode packet
  refine ⟨noncedLength, by omega, ?_, ?_⟩
  · exact SessionPacket.codec.deserialize_encode (SessionPacket.fits (by omega))
  · exact RawMessage.codec.deserialize_encode (RawMessage.fits_encrypted (by omega))

theorem tagCipher_seals : LossyTransportState.tagCipher.Seals () () := by
  constructor
  · intro nonce plaintext capacity _ room
    exact ⟨plaintext ++ leBytes 16 (nonce + 1), if_pos room, by simp⟩
  · intro nonce plaintext ciphertext capacity room written fits
    simp only [LossyTransportState.tagCipher] at written ⊢
    split at written
    · cases written
      simp [fits]
    · cases written

def initiatorCalls : List Socket.Label :=
  [.operate (.initiate 7 ⟨[], [9]⟩ 0 40),
    .operate (.handleIncoming (.v4 1 1) (Handler.packetFor 7 (.handshakeResponse [2])) 0), .operate (.keepalive 7)]

def responderCalls : List Socket.Label :=
  [.operate (.respond 7 ⟨[], [1]⟩ 50),
    .operate (.handleIncoming (.v4 2 2) (Handler.packetFor 7 (.handshakeInitiation [1])) 0),
    .operate (.handleIncoming (.v4 2 2) (Handler.packetFor 7 (.encrypted
      (LossyTransportState.tagged 0 (Message.codec.encode .keepalive)))) 0)]

end Veq
