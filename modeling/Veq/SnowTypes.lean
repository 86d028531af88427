import Veq.Bincode
import Veq.Window

/-! snow_types.rs: the Noise handshake and the transport that tolerates loss. The
crate snow is a parameter. A buffer that a function fills is represented by its
length going in and by the bytes written at its front coming out. -/

namespace Veq
open Rust Bincode

structure SnowKeypair where
  publicKey : Bytes
  privateKey : Bytes
deriving DecidableEq, Repr

inductive Failure where
  | snow
  | bincode
  | other (text : String)
  | panic (panic : Panic)
deriving DecidableEq, Repr

/-- snow's `StatelessTransportState`. Both operations take the nonce, the input
and the length of the output buffer. -/
structure Cipher (S : Type) where
  writeMessage : S → Nat → Bytes → Nat → Option Bytes
  readMessage : S → Nat → Bytes → Nat → Option Bytes

/-- What the code uses of snow. `H` is `HandshakeState`; writing a handshake
message draws an ephemeral key, which is passed as a number. Reading a handshake
message returns the state that follows and whether the message was accepted. -/
structure Snow (H S : Type) extends Cipher S where
  buildInitiator : SnowKeypair → Bytes → Option H
  buildResponder : SnowKeypair → Bytes → Option H
  writeHandshake : H → Nat → Option (H × Bytes)
  readHandshake : H → Bytes → H × Bool
  intoStatelessTransportMode : H → Option S

structure Nonced where
  nonce : Nat
  payload : Bytes
deriving DecidableEq, Repr

def Nonced.codec : Codec Nonced :=
  (Codec.u64.pair Codec.bytes).isomorphic (fun fields => ⟨fields.1, fields.2⟩)
    (fun nonced => (nonced.nonce, nonced.payload)) (fun _ => rfl)

theorem Nonced.fits {nonced : Nonced} (nonce : nonced.nonce < 2 ^ 64) (payload : nonced.payload.length < 2 ^ 64) :
    codec.Fits nonced :=
  ⟨nonce, payload⟩

theorem Nonced.length_encode (nonced : Nonced) : (codec.encode nonced).length = nonced.payload.length + 16 := by
  simp only [codec, Codec.isomorphic, Codec.refine, Codec.pair, Codec.bytes, Codec.uint, List.length_append, length_leBytes]
  omega

structure LossyTransportState (S : Type) where
  stateless : S
  size : Nat
  nextNonce : Nat
  receivedNonces : Finset Nat

namespace LossyTransportState

variable {S : Type}

def new (stateless : S) (size : Nat) : LossyTransportState S :=
  ⟨stateless, size, 0, ∅⟩

def fromStateless (stateless : S) : LossyTransportState S :=
  new stateless 1

/-- The returned length is that of the whole packet; the copy into the buffer
stops at its end. -/
def writeMessage (cipher : Cipher S) (state : LossyTransportState S) (payload : Bytes) (capacity : Nat) :
    LossyTransportState S × Except Failure (Nat × Bytes) :=
  match addU64 state.nextNonce 1 with
  | .error panic => (state, .error (.panic panic))
  | .ok nextNonce =>
    match cipher.writeMessage state.stateless state.nextNonce payload capacity with
    | none => ({ state with nextNonce }, .error .snow)
    | some ciphertext =>
      let serialized := Nonced.codec.encode ⟨state.nextNonce, ciphertext⟩
      ({ state with nextNonce }, .ok (serialized.length, serialized.take capacity))

/-- The nonce enters the window before the ciphertext is authenticated. -/
def readMessage (cipher : Cipher S) (state : LossyTransportState S) (payload : Bytes) (capacity : Nat) :
    LossyTransportState S × Except Failure Bytes :=
  match Nonced.codec.deserialize payload with
  | none => (state, .error .bincode)
  | some nonced =>
    if Window.Refuses state.receivedNonces nonced.nonce then (state, .error .snow)
    else
      let state := { state with receivedNonces := Window.enter state.size state.receivedNonces nonced.nonce }
      match cipher.readMessage state.stateless nonced.nonce nonced.payload capacity with
      | none => (state, .error .snow)
      | some plaintext => (state, .ok plaintext)

end LossyTransportState

structure SnowInitiator (H : Type) where
  state : H
  initiation : Bytes

inductive ReceiveResponseResult (H S : Type) where
  | ok (transport : LossyTransportState S)
  | err (initiator : SnowInitiator H)

structure SnowResponder (H : Type) where
  state : H

variable {H S : Type}

namespace SnowInitiator

def new (snow : Snow H S) (keypair : SnowKeypair) (remotePublicKey : Bytes) (ephemeral : Nat) :
    Option (SnowInitiator H) := do
  let state ← snow.buildInitiator keypair remotePublicKey
  let (state, initiation) ← snow.writeHandshake state ephemeral
  return ⟨state, initiation⟩

def receiveResponse (snow : Snow H S) (initiator : SnowInitiator H) (response : Bytes) :
    Except Failure (ReceiveResponseResult H S) :=
  match snow.readHandshake initiator.state response with
  | (state, false) => .ok (.err { initiator with state })
  | (state, true) =>
    match snow.intoStatelessTransportMode state with
    | none => .error .snow
    | some stateless => .ok (.ok (.fromStateless stateless))

end SnowInitiator

namespace SnowResponder

def new (snow : Snow H S) (keypair : SnowKeypair) (remotePublicKey : Bytes) : Option (SnowResponder H) := do
  let state ← snow.buildResponder keypair remotePublicKey
  return ⟨state⟩

def response (snow : Snow H S) (responder : SnowResponder H) (initiation : Bytes) (ephemeral : Nat) :
    Except Failure (LossyTransportState S × Bytes) :=
  match snow.readHandshake responder.state initiation with
  | (_, false) => .error .snow
  | (state, true) =>
    match snow.writeHandshake state ephemeral with
    | none => .error .snow
    | some (state, response) =>
      match snow.intoStatelessTransportMode state with
      | none => .error .snow
      | some stateless => .ok (.fromStateless stateless, response)

end SnowResponder
end Veq
