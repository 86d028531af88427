import Veq.SnowTypes
import Veq.Transform
import Veq.Wire

/-! session.rs: the three pending stages of a session and the established
session. A background task is represented by what one tick of its interval does. -/

namespace Veq
open Rust Bincode

abbrev Waker := Nat

/-- Destination, packet and time to live, as they enter the outgoing channel. -/
abbrev Outgoing := SocketAddr × SessionPacket × Nat

/-- A task that sends the same packets at every tick until it is aborted. -/
structure JoinHandle where
  packets : List Outgoing
  aborted : Bool
deriving DecidableEq, Repr

namespace JoinHandle

def spawn (id : SessionId) (addresses : List SocketAddr) (message : RawMessage) : JoinHandle :=
  ⟨addresses.map fun address => (address, ⟨id, RawMessage.codec.encode message⟩, 64), false⟩

def abort (handle : JoinHandle) : JoinHandle := { handle with aborted := true }

end JoinHandle

structure Session (S : Type) where
  id : SessionId
  remoteAddr : SocketAddr
  messages : List Bytes
  wakers : Std.TreeMap Uuid Waker
  heartbeat : Bool
  dead : Bool
  transport : LossyTransportState S

namespace Session

variable {S : Type}

def new (id : SessionId) (remoteAddr : SocketAddr) (transport : LossyTransportState S) : Session S :=
  ⟨id, remoteAddr, [], ∅, true, false, transport⟩

/-- The result names the waker that was woken, if any. -/
def handleIncoming (cipher : Cipher S) (session : Session S) (packet : SessionPacket) :
    Session S × Except Failure (Option Waker) :=
  match RawMessage.codec.deserialize packet.data with
  | none => (session, .error .bincode)
  | some .handshakePoke => (session, .ok none)
  | some (.handshakeInitiation _) => (session, .ok none)
  | some (.handshakeResponse _) => (session, .ok none)
  | some (.encrypted encrypted) =>
    match session.transport.readMessage cipher encrypted 65535 with
    | (transport, .error failure) => ({ session with transport }, .error failure)
    | (transport, .ok data) =>
      match Message.codec.deserialize data with
      | none => ({ session with transport }, .error .bincode)
      | some .keepalive => ({ session with transport, heartbeat := true }, .ok none)
      | some (.payload data) =>
        ({ session with
          transport
          messages := session.messages ++ [data]
          wakers := popFirst session.wakers },
          .ok (session.wakers.minKey?.bind (session.wakers[·]?)))

/-- Encrypt a message and address the packet. The slice of the filled part of
the buffer panics when the reported length exceeds the buffer. -/
def encrypt (cipher : Cipher S) (session : Session S) (message : Message) : Session S × Except Failure Outgoing :=
  match session.transport.writeMessage cipher (Message.codec.encode message) 65535 with
  | (transport, .error failure) => ({ session with transport }, .error failure)
  | (transport, .ok (len, encrypted)) =>
    if len ≤ 65535 then
      ({ session with transport },
        .ok (session.remoteAddr, ⟨session.id, RawMessage.codec.encode (.encrypted (encrypted.take len))⟩, 64))
    else ({ session with transport }, .error (.panic .slice))

def isDead (session : Session S) : Bool := session.dead

def send (cipher : Cipher S) (session : Session S) (data : Bytes) : Session S × Except Failure Outgoing :=
  if session.isDead then (session, .error (.other "Can't send because am dead"))
  else session.encrypt cipher (.payload data)

/-- One tick of the task that keeps the session alive. -/
def keepalive (cipher : Cipher S) (session : Session S) : Session S × Except Failure Outgoing :=
  session.encrypt cipher .keepalive

/-- One tick of the task that watches for the peer's keepalives, with the wakers
it wakes when the session dies. -/
def checkHeartbeat (session : Session S) : Session S × List Waker :=
  if session.heartbeat then ({ session with heartbeat := false }, [])
  else ({ session with dead := true }, session.wakers.values)

def close (session : Session S) : Session S := { session with dead := true }

/-- `Receiving::poll` for the future with the given id. -/
def poll (session : Session S) (receiving : Uuid) (waker : Waker) : Session S × Poll (Except VeqError Bytes) :=
  if session.dead then (session, .ready (.error .disconnected))
  else
    match session.messages with
    | data :: rest => ({ session with messages := rest, wakers := session.wakers.erase receiving }, .ready (.ok data))
    | [] => ({ session with wakers := session.wakers.insert receiving waker }, .pending)

end Session

structure PendingSessionResponder (S : Type) where
  handle : JoinHandle
  remoteAddr : SocketAddr
  waker : Option Waker
  id : SessionId
  transport : LossyTransportState S
  ready : Bool

namespace PendingSessionResponder

variable {S : Type}

def new (id : SessionId) (remoteAddr : SocketAddr) (transport : LossyTransportState S) (response : Bytes) :
    PendingSessionResponder S :=
  ⟨.spawn id [remoteAddr] (.handshakeResponse response), remoteAddr, none, id, transport, false⟩

/-- No caller ever sets the waker, so that accepting a keepalive also reports an
error; the handler logs it and goes by `isReady`. -/
def handleIncoming (cipher : Cipher S) (pending : PendingSessionResponder S) (packet : SessionPacket) :
    PendingSessionResponder S × Except Failure Unit :=
  match RawMessage.codec.deserialize packet.data with
  | none => (pending, .error .bincode)
  | some (.encrypted encrypted) =>
    match pending.transport.readMessage cipher encrypted 65535 with
    | (transport, .error failure) => ({ pending with transport }, .error failure)
    | (transport, .ok decrypted) =>
      match Message.codec.deserialize decrypted with
      | none => ({ pending with transport }, .error .bincode)
      | some .keepalive =>
        match pending.waker with
        | none => ({ pending with transport, ready := true }, .error (.other "No waker in guard"))
        | some _ => ({ pending with transport, ready := true, waker := none }, .ok ())
      | some (.payload _) =>
        ({ pending with transport }, .error (.other "Deserialized decrypted message not of type Keepalive."))
  | some _ => (pending, .error (.other "Deserialized message not of type Encrypted."))

def isReady (pending : PendingSessionResponder S) : Bool := pending.ready

def session (pending : PendingSessionResponder S) : Except Failure (Session S) :=
  if pending.ready then .ok (.new pending.id pending.remoteAddr pending.transport)
  else .error (.other "Am not ready")

def abort (pending : PendingSessionResponder S) : PendingSessionResponder S :=
  { pending with handle := pending.handle.abort }

end PendingSessionResponder

variable {H S : Type}

structure PendingSessionPoker (H : Type) where
  handle : JoinHandle
  workingRemoteAddr : Option (SocketAddr × Bytes)
  waker : Option Waker
  id : SessionId
  snowResponder : SnowResponder H

namespace PendingSessionPoker

def new (id : SessionId) (connInfo : ConnectionInfo) (responder : SnowResponder H) : PendingSessionPoker H :=
  ⟨.spawn id connInfo.addresses .handshakePoke, none, none, id, responder⟩

def handleIncoming (pending : PendingSessionPoker H) (src : SocketAddr) (packet : SessionPacket) :
    PendingSessionPoker H :=
  match RawMessage.codec.deserialize packet.data with
  | some (.handshakeInitiation initiation) =>
    { pending with workingRemoteAddr := some (src, initiation), waker := none }
  | _ => pending

def isReady (pending : PendingSessionPoker H) : Bool := pending.workingRemoteAddr.isSome

/-- The poking task is aborted before the handshake step, which can fail. -/
def responder (snow : Snow H S) (pending : PendingSessionPoker H) (ephemeral : Nat) :
    Except Failure (PendingSessionResponder S) :=
  match pending.workingRemoteAddr with
  | some (address, initiation) => do
    let (transport, response) ← pending.snowResponder.response snow initiation ephemeral
    return .new pending.id address transport response
  | none => .error (.other "working_remote_addr is None.")

def abort (pending : PendingSessionPoker H) : PendingSessionPoker H :=
  { pending with handle := pending.handle.abort }

end PendingSessionPoker

structure PendingSessionInitiator (H : Type) where
  handle : JoinHandle
  workingRemoteAddr : Option (SocketAddr × Bytes)
  waker : Option Waker
  id : SessionId
  initiator : SnowInitiator H

inductive SessionResult (H S : Type) where
  | ok (session : Session S)
  | err (pending : PendingSessionInitiator H)

namespace PendingSessionInitiator

def new (id : SessionId) (connInfo : ConnectionInfo) (initiator : SnowInitiator H) : PendingSessionInitiator H :=
  ⟨.spawn id connInfo.addresses (.handshakeInitiation initiator.initiation), none, none, id, initiator⟩

def handleIncoming (pending : PendingSessionInitiator H) (src : SocketAddr) (packet : SessionPacket) :
    PendingSessionInitiator H :=
  match RawMessage.codec.deserialize packet.data with
  | some (.handshakeResponse response) =>
    { pending with workingRemoteAddr := some (src, response), waker := none }
  | _ => pending

def isReady (pending : PendingSessionInitiator H) : Bool := pending.workingRemoteAddr.isSome

/-- The retransmitting task is aborted before the response is checked, and the
object handed back after a rejected response keeps the aborted task. -/
def session (snow : Snow H S) (pending : PendingSessionInitiator H) : Except Failure (SessionResult H S) :=
  match pending.workingRemoteAddr with
  | some (remoteAddr, response) =>
    match pending.initiator.receiveResponse snow response with
    | .error failure => .error failure
    | .ok (.ok transport) => .ok (.ok (.new pending.id remoteAddr transport))
    | .ok (.err initiator) =>
      .ok (.err { pending with handle := pending.handle.abort, workingRemoteAddr := none, initiator })
  | none => .ok (.err pending)

def abort (pending : PendingSessionInitiator H) : PendingSessionInitiator H :=
  { pending with handle := pending.handle.abort }

end PendingSessionInitiator
end Veq
