import Veq.Bincode

/-! The packets of session.rs and their bytes on the wire. A packet carries its
session id in the clear, next to a handshake message or a ciphertext. -/

namespace Veq
open Rust Bincode

abbrev Uuid := Fin (2 ^ 128)

namespace Uuid

instance nonempty : NeZero (2 ^ 128) := inferInstance

def asBytes (id : Uuid) : Bytes := (leBytes 16 id.val).reverse

def fromSlice (raw : Bytes) : Option Uuid :=
  if raw.length = 16 then some (Fin.ofNat (2 ^ 128) (leNat raw.reverse)) else none

theorem fromSlice_asBytes (id : Uuid) : fromSlice id.asBytes = some id := by
  have value : leNat id.asBytes.reverse = id.val := by
    rw [asBytes, List.reverse_reverse, leNat_leBytes]
    exact Nat.mod_eq_of_lt id.isLt
  have length : id.asBytes.length = 16 := by simp [asBytes]
  rw [fromSlice, if_pos length, value]
  exact congrArg some (Fin.ext (Nat.mod_eq_of_lt id.isLt))

def codec : Codec Uuid := Codec.bytes.refine fromSlice asBytes fromSlice_asBytes

theorem fits (id : Uuid) : codec.Fits id := by
  change id.asBytes.length < 2 ^ 64
  simp [asBytes]

/-- `Display`: lower-case hexadecimal digits in five groups. -/
def hyphenated (id : Uuid) : String :=
  let digits := (List.range 32).map fun place => Nat.digitChar (id.val / 16 ^ (31 - place) % 16)
  "-".intercalate ([(0, 8), (8, 4), (12, 4), (16, 4), (20, 12)].map fun group =>
    String.ofList ((digits.drop group.1).take group.2))

example : hyphenated 0x67e5504410b1426f9247bb680e5fe0c8 = "67e55044-10b1-426f-9247-bb680e5fe0c8" := by decide

end Uuid

abbrev SessionId := Uuid

inductive SocketAddr where
  | v4 (ip : BitVec 32) (port : UInt16)
  | v6 (ip : BitVec 128) (port : UInt16)
deriving DecidableEq, Repr

structure ConnectionInfo where
  addresses : List SocketAddr
  publicKey : Bytes
deriving DecidableEq, Repr

structure SessionPacket where
  id : SessionId
  data : Bytes
deriving DecidableEq, Repr

def SessionPacket.codec : Codec SessionPacket :=
  (Uuid.codec.pair Codec.bytes).isomorphic (fun fields => ⟨fields.1, fields.2⟩)
    (fun packet => (packet.id, packet.data)) (fun _ => rfl)

theorem SessionPacket.fits {packet : SessionPacket} (data : packet.data.length < 2 ^ 64) : codec.Fits packet :=
  ⟨Uuid.fits packet.id, data⟩

theorem SessionPacket.length_encode (packet : SessionPacket) : (codec.encode packet).length = packet.data.length + 32 := by
  simp only [codec, Codec.isomorphic, Codec.refine, Codec.pair, Codec.bytes, Codec.uint, Uuid.codec, Uuid.asBytes,
    List.length_append, List.length_reverse, length_leBytes]
  omega

inductive RawMessage where
  | handshakePoke
  | handshakeInitiation (initiation : Bytes)
  | handshakeResponse (response : Bytes)
  | encrypted (data : Bytes)
deriving DecidableEq, Repr

namespace RawMessage

def tag : RawMessage → Nat
  | .handshakePoke => 0
  | .handshakeInitiation _ => 1
  | .handshakeResponse _ => 2
  | .encrypted _ => 3

def variants : Nat → Option (Codec RawMessage)
  | 0 => some (Codec.unit.variant (fun _ => .handshakePoke)
      (fun message => match message with | .handshakePoke => some () | _ => none) (by rintro (_ | _) <;> simp))
  | 1 => some (Codec.bytes.variant .handshakeInitiation
      (fun message => match message with | .handshakeInitiation data => some data | _ => none)
      (by rintro (_ | _) <;> simp))
  | 2 => some (Codec.bytes.variant .handshakeResponse
      (fun message => match message with | .handshakeResponse data => some data | _ => none)
      (by rintro (_ | _) <;> simp))
  | 3 => some (Codec.bytes.variant .encrypted
      (fun message => match message with | .encrypted data => some data | _ => none) (by rintro (_ | _) <;> simp))
  | _ => none

def codec : Codec RawMessage := Codec.tagged tag variants

theorem fits_encrypted {data : Bytes} (bounded : data.length < 2 ^ 64) : codec.Fits (.encrypted data) :=
  ⟨Codec.fits_u32.mpr (by decide : 3 < 2 ^ 32), _, rfl, data, rfl, bounded⟩

theorem length_encode_encrypted (data : Bytes) : (codec.encode (.encrypted data)).length = data.length + 12 := by
  simp only [codec, Codec.tagged, tag, variants, Codec.variant, Codec.bytes, Codec.uint, Option.map_some,
    Option.getD_some, List.length_append, length_leBytes]
  omega

end RawMessage

namespace SessionPacket

/-- The handshake message or ciphertext in a packet, by the stage that reads it. -/
def initiation (packet : SessionPacket) : Option Bytes :=
  match RawMessage.codec.deserialize packet.data with
  | some (.handshakeInitiation initiation) => some initiation
  | _ => none

def response (packet : SessionPacket) : Option Bytes :=
  match RawMessage.codec.deserialize packet.data with
  | some (.handshakeResponse response) => some response
  | _ => none

def encrypted (packet : SessionPacket) : Option Bytes :=
  match RawMessage.codec.deserialize packet.data with
  | some (.encrypted encrypted) => some encrypted
  | _ => none

theorem initiation_some {packet : SessionPacket} {initiation : Bytes} :
    packet.initiation = some initiation ↔ RawMessage.codec.deserialize packet.data = some (.handshakeInitiation initiation) := by
  unfold SessionPacket.initiation
  split <;> simp_all

theorem response_some {packet : SessionPacket} {response : Bytes} :
    packet.response = some response ↔ RawMessage.codec.deserialize packet.data = some (.handshakeResponse response) := by
  unfold SessionPacket.response
  split <;> simp_all

end SessionPacket

inductive Message where
  | keepalive
  | payload (data : Bytes)
deriving DecidableEq, Repr

namespace Message

def tag : Message → Nat
  | .keepalive => 0
  | .payload _ => 1

def variants : Nat → Option (Codec Message)
  | 0 => some (Codec.unit.variant (fun _ => .keepalive)
      (fun message => match message with | .keepalive => some () | _ => none) (by rintro (_ | _) <;> simp))
  | 1 => some (Codec.bytes.variant .payload
      (fun message => match message with | .payload data => some data | _ => none) (by rintro (_ | _) <;> simp))
  | _ => none

def codec : Codec Message := Codec.tagged tag variants

theorem fits_keepalive : codec.Fits .keepalive :=
  ⟨Codec.fits_u32.mpr (by decide : 0 < 2 ^ 32), _, rfl, (), rfl, trivial⟩

theorem fits_payload {data : Bytes} (bounded : data.length < 2 ^ 64) : codec.Fits (.payload data) :=
  ⟨Codec.fits_u32.mpr (by decide : 1 < 2 ^ 32), _, rfl, data, rfl, bounded⟩

theorem length_encode_payload (data : Bytes) : (codec.encode (.payload data)).length = data.length + 12 := by
  simp only [codec, Codec.tagged, tag, variants, Codec.variant, Codec.bytes, Codec.uint, Option.map_some,
    Option.getD_some, List.length_append, length_leBytes]
  omega

end Message
end Veq
