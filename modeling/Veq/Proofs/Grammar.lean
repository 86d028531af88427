import Veq.Exact
import Veq.Proofs.Handover
import Veq.Proofs.Independence

/-! What the decoders accept. Each format of the wire accepts its own encodings and
nothing else, except that it overlooks what follows them; from this one reads off
which datagrams deliver a payload to a session. -/

namespace Veq
open Rust Bincode Machines

variable {H S : Type}

theorem Uuid.exact : Uuid.codec.Exact := by
  refine Codec.Exact.bytes.refine ?_
  intro raw id parsed
  simp only [fromSlice, Option.ite_none_right_eq_some, Option.some.injEq] at parsed
  obtain ⟨length, rfl⟩ := parsed
  have reversed : raw.reverse.length = 16 := by rw [List.length_reverse, length]
  have small := leNat_lt raw.reverse
  rw [reversed] at small
  have bytes := leBytes_leNat raw.reverse
  rw [reversed] at bytes
  have value : (Fin.ofNat (2 ^ 128) (leNat raw.reverse)).val = leNat raw.reverse := Nat.mod_eq_of_lt small
  rw [asBytes, value, bytes, List.reverse_reverse]

theorem SessionPacket.exact : SessionPacket.codec.Exact := (Uuid.exact.pair .bytes).isomorphic fun _ => rfl

theorem Nonced.exact : Nonced.codec.Exact := ((Codec.Exact.uint 8).pair .bytes).isomorphic fun _ => rfl

theorem ChunkedData.exact : ChunkedData.codec.Exact :=
  ((Codec.Exact.uint 8).pair ((Codec.Exact.uint 8).pair ((Codec.Exact.uint 8).pair .bytes))).isomorphic fun _ => rfl

theorem RawMessage.exact : RawMessage.codec.Exact := by
  refine .tagged ?_ ?_
  · intro index codec selected
    match index with
    | 0 =>
      cases selected
      exact Codec.Exact.unit.variant fun _ => rfl
    | 1 | 2 | 3 =>
      cases selected
      exact Codec.Exact.bytes.variant fun _ => rfl
    | _ + 4 => cases selected
  · intro index codec selected value fits
    match index with
    | 0 | 1 | 2 | 3 =>
      cases selected
      obtain ⟨raw, projected, -⟩ := fits
      cases value <;> simp_all [tag]
    | _ + 4 => cases selected

theorem Message.exact : Message.codec.Exact := by
  refine .tagged ?_ ?_
  · intro index codec selected
    match index with
    | 0 =>
      cases selected
      exact Codec.Exact.unit.variant fun _ => rfl
    | 1 =>
      cases selected
      exact Codec.Exact.bytes.variant fun _ => rfl
    | _ + 2 => cases selected
  · intro index codec selected value fits
    match index with
    | 0 | 1 =>
      cases selected
      obtain ⟨raw, projected, -⟩ := fits
      cases value <;> simp_all [tag]
    | _ + 2 => cases selected

/-- Each of the five formats accepts exactly the encodings of values that fit, with
anything after them. -/
theorem formats_exact (input : Bytes) :
    (∀ packet, SessionPacket.codec.deserialize input = some packet ↔
      SessionPacket.codec.Fits packet ∧ ∃ rest, input = SessionPacket.codec.encode packet ++ rest) ∧
    (∀ message, RawMessage.codec.deserialize input = some message ↔
      RawMessage.codec.Fits message ∧ ∃ rest, input = RawMessage.codec.encode message ++ rest) ∧
    (∀ nonced, Nonced.codec.deserialize input = some nonced ↔
      Nonced.codec.Fits nonced ∧ ∃ rest, input = Nonced.codec.encode nonced ++ rest) ∧
    (∀ message, Message.codec.deserialize input = some message ↔
      Message.codec.Fits message ∧ ∃ rest, input = Message.codec.encode message ++ rest) ∧
    ∀ chunk, ChunkedData.codec.deserialize input = some chunk ↔
      ChunkedData.codec.Fits chunk ∧ ∃ rest, input = ChunkedData.codec.encode chunk ++ rest :=
  ⟨fun _ => SessionPacket.exact.deserialize_iff, fun _ => RawMessage.exact.deserialize_iff,
    fun _ => Nonced.exact.deserialize_iff, fun _ => Message.exact.deserialize_iff,
    fun _ => ChunkedData.exact.deserialize_iff⟩

/-- The datagram carries a ciphertext for a session: three nested encodings, each of
which may be followed by anything. -/
def Carries (datagram : Bytes) (id : SessionId) (nonce : Nat) (ciphertext : Bytes) : Prop :=
  ∃ first second third,
    let body := RawMessage.codec.encode (.encrypted (Nonced.codec.encode ⟨nonce, ciphertext⟩ ++ first)) ++ second
    datagram = SessionPacket.codec.encode ⟨id, body⟩ ++ third ∧ nonce < 2 ^ 64 ∧ body.length < 2 ^ 64

theorem Message.fits_payload_iff {data : Bytes} : Message.codec.Fits (.payload data) ↔ data.length < 2 ^ 64 := by
  constructor
  · intro fits
    obtain ⟨-, codec, selected, fits⟩ := fits
    cases selected
    obtain ⟨raw, projected, fits⟩ := fits
    cases projected
    exact fits
  · exact fits_payload

theorem SessionPacket.encrypted_some {packet : SessionPacket} {data : Bytes} :
    packet.encrypted = some data ↔ RawMessage.codec.deserialize packet.data = some (.encrypted data) := by
  unfold SessionPacket.encrypted
  split <;> simp_all

theorem carries_iff {datagram : Bytes} {id : SessionId} {nonce : Nat} {ciphertext : Bytes} :
    Carries datagram id nonce ciphertext ↔ ∃ packet encrypted, SessionPacket.codec.deserialize datagram = some packet ∧
      packet.id = id ∧ packet.encrypted = some encrypted ∧ Nonced.codec.deserialize encrypted = some ⟨nonce, ciphertext⟩ := by
  constructor
  · intro carries
    obtain ⟨first, second, third, same, small, short⟩ := carries
    have body := RawMessage.length_encode_encrypted (Nonced.codec.encode ⟨nonce, ciphertext⟩ ++ first)
    have inner := Nonced.length_encode ⟨nonce, ciphertext⟩
    simp only [List.length_append] at body inner short
    refine ⟨_, _, SessionPacket.exact.deserialize_iff.mpr ⟨SessionPacket.fits ?_, third, same⟩, rfl,
      SessionPacket.encrypted_some.mpr (RawMessage.exact.deserialize_iff.mpr ⟨RawMessage.fits_encrypted ?_, second, rfl⟩),
      Nonced.exact.deserialize_iff.mpr ⟨Nonced.fits small ?_, first, rfl⟩⟩
    · simp only [List.length_append]
      omega
    · simp only [List.length_append]
      omega
    · simp only
      omega
  · intro found
    obtain ⟨packet, encrypted, decoded, rfl, carried, opened⟩ := found
    obtain ⟨fits, third, rfl⟩ := SessionPacket.exact.deserialize_iff.mp decoded
    obtain ⟨-, second, body⟩ := RawMessage.exact.deserialize_iff.mp (SessionPacket.encrypted_some.mp carried)
    obtain ⟨fitting, first, rfl⟩ := Nonced.exact.deserialize_iff.mp opened
    refine ⟨first, second, third, ?_, fitting.1, ?_⟩
    · rw [← body]
    · rw [← body]
      exact fits.2

theorem mem_payloads {cipher : Cipher S} {transport : LossyTransportState S} {packet : SessionPacket} {data : Bytes} :
    data ∈ payloads cipher transport packet ↔ ∃ encrypted nonce ciphertext plaintext,
      packet.encrypted = some encrypted ∧ Nonced.codec.deserialize encrypted = some ⟨nonce, ciphertext⟩ ∧
      ¬ Window.Refuses transport.receivedNonces nonce ∧
      cipher.readMessage transport.stateless nonce ciphertext 65535 = some plaintext ∧
      Message.codec.deserialize plaintext = some (.payload data) := by
  simp only [payloads, Party.opening, List.mem_filterMap, Option.mem_toList, Option.bind_eq_some_iff]
  constructor
  · intro found
    obtain ⟨⟨nonce, plaintext⟩, ⟨encrypted, carried, taken⟩, named⟩ := found
    obtain ⟨⟨_, ciphertext⟩, decoded, rfl, admitted, opens⟩ := transport.read?_some cipher taken
    refine ⟨encrypted, _, ciphertext, plaintext, carried, decoded, admitted, opens, ?_⟩
    unfold payload? at named
    split at named
    next decoded =>
      cases named
      exact decoded
    · cases named
  · intro found
    obtain ⟨encrypted, nonce, ciphertext, plaintext, carried, decoded, admitted, opens, message⟩ := found
    refine ⟨(nonce, plaintext), ⟨encrypted, carried, ?_⟩, by simp [payload?, message]⟩
    simp [LossyTransportState.read?, LossyTransportState.readMessage, decoded, admitted, opens]

theorem payloads_length (cipher : Cipher S) (transport : LossyTransportState S) (packet : SessionPacket) :
    (payloads cipher transport packet).length ≤ 1 := by
  unfold payloads Party.opening
  refine (List.length_filterMap_le _ _).trans ?_
  cases packet.encrypted.bind (transport.read? cipher · 65535) with
  | none => exact Nat.zero_le 1
  | some read => exact Nat.le_refl 1

/-- The payloads that an established session under `id` finds in a datagram. -/
def payloadsIn (cipher : Cipher S) (transport : LossyTransportState S) (id : SessionId) (datagram : Bytes) : List Bytes :=
  (packetTo id datagram).elim [] (payloads cipher transport)

theorem payloadsIn_length (cipher : Cipher S) (transport : LossyTransportState S) (id : SessionId) (datagram : Bytes) :
    (payloadsIn cipher transport id datagram).length ≤ 1 := by
  unfold payloadsIn
  cases packetTo id datagram with
  | none => exact Nat.zero_le 1
  | some packet => exact payloads_length cipher transport packet

theorem eq_singleton_iff_mem {items : List α} (short : items.length ≤ 1) (item : α) : items = [item] ↔ item ∈ items := by
  constructor
  · intro same
    rw [same]
    exact List.mem_singleton_self item
  · intro member
    match items with
    | [] => cases member
    | [other] => rw [List.mem_singleton.mp member]
    | _ :: _ :: _ => simp at short

/-- A datagram conveys a payload to a transport: it carries, at a nonce that the
window does not refuse, a ciphertext that opens to this payload. What follows the
payload, or one of the three encodings around it, is overlooked. -/
def Conveys (cipher : Cipher S) (transport : LossyTransportState S) (id : SessionId) (datagram data : Bytes) : Prop :=
  ∃ nonce ciphertext rest, Carries datagram id nonce ciphertext ∧ ¬ Window.Refuses transport.receivedNonces nonce ∧
    data.length < 2 ^ 64 ∧ cipher.readMessage transport.stateless nonce ciphertext 65535 =
      some (Message.codec.encode (.payload data) ++ rest)

namespace Handler

/-- A datagram that decodes reaches the established session of its id, and no other. -/
theorem Holds.handleIncoming {keypair : SnowKeypair} {id : SessionId} {handler : Handler H S} {oneTimeId : OneTimeId}
    {session : Session S} (holds : Holds keypair id handler (.established session oneTimeId)) (snow : Snow H S)
    (src : SocketAddr) (datagram : Bytes) (ephemeral : Nat) :
    (handler.handleIncoming snow src datagram ephemeral).1.establishedSessions id =
      some (oneTimeId, (packetTo id datagram).elim session fun packet => (session.handleIncoming snow.toCipher packet).1) := by
  unfold Handler.handleIncoming
  cases decoded : SessionPacket.codec.deserialize datagram with
  | none =>
    rw [packetTo, decoded]
    exact holds.established
  | some packet =>
    by_cases same : packet.id = id
    · have addressed : packetTo id datagram = some packet := by simp [packetTo, decoded, same]
      rw [addressed]
      exact (holds.handlePacket snow src same ephemeral).established
    · have elsewhere : packetTo id datagram = none := by simp [packetTo, decoded, same]
      rw [elsewhere]
      exact (holds.handlePacketOther snow src (Ne.symm same) ephemeral).established

theorem packetTo_some {id : SessionId} {datagram : Bytes} {packet : SessionPacket} :
    packetTo id datagram = some packet ↔ SessionPacket.codec.deserialize datagram = some packet ∧ packet.id = id := by
  simp [packetTo]

theorem mem_payloadsIn {cipher : Cipher S} {transport : LossyTransportState S} {id : SessionId} {datagram data : Bytes} :
    data ∈ payloadsIn cipher transport id datagram ↔ Conveys cipher transport id datagram data := by
  unfold payloadsIn
  constructor
  · intro member
    cases addressed : packetTo id datagram with
    | none => simp [addressed] at member
    | some packet =>
      rw [addressed] at member
      obtain ⟨decoded, named⟩ := packetTo_some.mp addressed
      obtain ⟨encrypted, nonce, ciphertext, plaintext, carried, opened, admitted, opens, message⟩ := mem_payloads.mp member
      obtain ⟨fits, rest, rfl⟩ := Message.exact.deserialize_iff.mp message
      exact ⟨nonce, ciphertext, rest, carries_iff.mpr ⟨packet, encrypted, decoded, named, carried, opened⟩, admitted,
        Message.fits_payload_iff.mp fits, opens⟩
  · intro conveyed
    obtain ⟨nonce, ciphertext, rest, carries, admitted, short, opens⟩ := conveyed
    obtain ⟨packet, encrypted, decoded, named, carried, opened⟩ := carries_iff.mp carries
    have message := Message.exact.deserialize_iff.mpr ⟨Message.fits_payload short, rest, rfl⟩
    rw [packetTo_some.mpr ⟨decoded, named⟩]
    exact mem_payloads.mpr ⟨encrypted, nonce, ciphertext, _, carried, opened, admitted, opens, message⟩

theorem Holds.queues {keypair : SnowKeypair} {id : SessionId} {handler : Handler H S} {oneTimeId : OneTimeId}
    {session : Session S} (holds : Holds keypair id handler (.established session oneTimeId)) (snow : Snow H S)
    (src : SocketAddr) (datagram : Bytes) (ephemeral : Nat) :
    ∃ next, (handler.handleIncoming snow src datagram ephemeral).1.establishedSessions id = some (oneTimeId, next) ∧
      next.messages = session.messages ++ payloadsIn snow.toCipher session.transport id datagram := by
  refine ⟨_, holds.handleIncoming snow src datagram ephemeral, ?_⟩
  unfold payloadsIn
  cases packetTo id datagram with
  | none => exact (List.append_nil _).symm
  | some packet => exact (session.handleIncoming_state snow.toCipher packet).2

/-- A payload `[5]` with something after each of the four encodings. -/
def paddedDatagram : Bytes :=
  SessionPacket.codec.encode ⟨7, RawMessage.codec.encode (.encrypted
    (LossyTransportState.tagged 0 (Message.codec.encode (.payload [5]) ++ [1]) ++ [2])) ++ [3]⟩ ++ [4]

end Handler
end Veq
