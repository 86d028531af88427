import Veq.Handler
import Veq.Proofs.Replay

/-! The two handles of one session and the network between them. The initiating
end is established from the start; the responding end waits for a keepalive. A
handle sends one message at a time, and its session's tasks run between any two
packets of it. -/

namespace Veq
open Rust Bincode LossyTransportState

variable {S : Type}

/-- `BidirectionalSession` of veq.rs, over the session that its id stands for.
The arguments after the cipher belong to the future that a `recv` polls. A send
that panics is a failed one, since either way nothing is transmitted after it. -/
def bidirectionalSession (cipher : Cipher S) (receiving : Uuid) (waker : Waker) : Bidirectional (Session S) where
  send session data :=
    match session.send cipher data with
    | (session, .ok _) => (session, .ok ())
    | (session, .error _) => (session, .error .disconnected)
  recv session :=
    if session.isDead then .ok (session, .ready (.error .disconnected)) else .ok (session.poll receiving waker)

/-- The handle that `connect` makes of an established session. -/
def Chunker.connected (session : Session S) : Chunker (Session S) := .new session 4096

inductive Stage (S : Type) where
  | responding (pending : PendingSessionResponder S)
  | established (handle : Chunker (Session S))

def Stage.transport : Stage S → LossyTransportState S
  | .responding pending => pending.transport
  | .established handle => handle.delegate.transport

/-- One end of a session. `outbox` is what the current send has still to transmit;
the last four fields record what passed through `send`, `recv` and the transport. -/
structure Party (S : Type) where
  id : SessionId
  registered : Bool
  stage : Stage S
  outbox : List Bytes
  sent : List Bytes
  returned : List Bytes
  written : List Sealed
  received : List (Nat × Bytes)

inductive Action where
  | send (data : ByteVec)
  | transmit
  | keepalive
  | deliver (datagram : Bytes)
  | recv (receiving : Uuid) (waker : Waker)
  | checkHeartbeat
  | close
deriving DecidableEq

namespace Party

variable (cipher : Cipher S)

def start (id : SessionId) (stage : Stage S) : Party S :=
  ⟨id, true, stage, [], [], [], [], []⟩

/-- The record of a message that the session encrypts. -/
def sealing (session : Session S) (message : Message) : List Sealed :=
  (session.transport.written? cipher (Message.codec.encode message) 65535).toList

def opening (transport : LossyTransportState S) (packet : SessionPacket) : List (Nat × Bytes) :=
  (packet.encrypted.bind (transport.read? cipher · 65535)).toList

def handlePacket (party : Party S) (packet : SessionPacket) : Party S :=
  match party.stage with
  | .responding pending =>
    let party := { party with received := party.received ++ opening cipher pending.transport packet }
    match pending.advance cipher packet with
    | .promote session => { party with stage := .established (.connected session) }
    | .putBack pending => { party with stage := .responding pending }
    | .discard => { party with registered := false }
  | .established handle =>
    { party with
      stage := .established { handle with delegate := (handle.delegate.handleIncoming cipher packet).1 }
      received := party.received ++ opening cipher handle.delegate.transport packet }

/-- A new send drops what an earlier one has left: that send has failed or its
future was dropped. -/
def send (party : Party S) (handle : Chunker (Session S)) (data : Bytes) : Party S :=
  match handle.prepare data with
  | .ok (handle, outbox) => { party with stage := .established handle, outbox, sent := party.sent ++ [data] }
  | .error _ => { party with outbox := [], sent := party.sent ++ [data] }

/-- One iteration of the transmission loop. -/
def transmit (party : Party S) (handle : Chunker (Session S)) : Party S :=
  match party.outbox with
  | [] => party
  | data :: outbox =>
    let written := if handle.delegate.isDead then [] else sealing cipher handle.delegate (.payload data)
    match (bidirectionalSession cipher 0 0).send handle.delegate data with
    | (delegate, .ok ()) =>
      { party with stage := .established { handle with delegate }, outbox, written := party.written ++ written }
    | (delegate, .error _) =>
      { party with stage := .established { handle with delegate }, outbox := [], written := party.written ++ written }

/-- One iteration of the loop of `recv`. -/
def recv (party : Party S) (handle : Chunker (Session S)) (receiving : Uuid) (waker : Waker) : Except Panic (Party S) := do
  match ← handle.recvStep (bidirectionalSession cipher receiving waker) with
  | (handle, some (.ready (.ok data))) =>
    return { party with stage := .established handle, returned := party.returned ++ [data] }
  | (handle, _) => return { party with stage := .established handle }

def keepalive (party : Party S) (handle : Chunker (Session S)) : Party S :=
  { party with
    stage := .established { handle with delegate := (handle.delegate.keepalive cipher).1 }
    written := party.written ++ sealing cipher handle.delegate .keepalive }

def deliver (party : Party S) (datagram : Bytes) : Party S :=
  match SessionPacket.codec.deserialize datagram with
  | none => party
  | some packet => if packet.id = party.id ∧ party.registered then party.handlePacket cipher packet else party

def close (party : Party S) : Party S :=
  match party.stage with
  | .responding pending => { party with registered := false, stage := .responding pending.abort }
  | .established handle =>
    { party with registered := false, stage := .established { handle with delegate := handle.delegate.close } }

/-- What the handle and the tasks of an established session do. -/
def use (party : Party S) (handle : Chunker (Session S)) : Action → Except Panic (Party S)
  | .send data => .ok (party.send handle data)
  | .transmit => .ok (party.transmit cipher handle)
  | .keepalive => .ok (party.keepalive cipher handle)
  | .recv receiving waker => party.recv cipher handle receiving waker
  | .checkHeartbeat =>
    .ok { party with stage := .established { handle with delegate := handle.delegate.checkHeartbeat.1 } }
  | .deliver datagram => .ok (party.deliver cipher datagram)
  | .close => .ok party.close

/-- There is no handle to use before the session is established. -/
def act (party : Party S) (action : Action) : Except Panic (Party S) :=
  match party.stage, action with
  | .established handle, action => party.use cipher handle action
  | .responding _, .deliver datagram => .ok (party.deliver cipher datagram)
  | .responding _, .close => .ok party.close
  | .responding _, _ => .ok party

end Party

inductive Side where
  | initiator
  | responder
deriving DecidableEq, Repr

structure Link (S : Type) where
  initiator : Party S
  responder : Party S

namespace Link

/-- Both ends right after the handshake: the responder has yet to see a packet
that was encrypted for it. -/
def start (id : SessionId) (initiatorAddr responderAddr : SocketAddr) (response : Bytes) (initiator responder : S) :
    Link S where
  initiator := .start id (.established (.connected (.new id responderAddr (.fromStateless initiator))))
  responder := .start id (.responding (.new id initiatorAddr (.fromStateless responder) response))

def party (link : Link S) : Side → Party S
  | .initiator => link.initiator
  | .responder => link.responder

def peer (link : Link S) : Side → Party S
  | .initiator => link.responder
  | .responder => link.initiator

def step (cipher : Cipher S) (link : Link S) : Side × Action → Except Panic (Link S)
  | (.initiator, action) => do return { link with initiator := ← link.initiator.act cipher action }
  | (.responder, action) => do return { link with responder := ← link.responder.act cipher action }

def run (cipher : Cipher S) (link : Link S) (events : List (Side × Action)) : Except Panic (Link S) :=
  events.foldlM (step cipher) link

/-- The transports of one direction and what passed through them. -/
def ends (writer reader : Party S) : Ends S :=
  ⟨writer.stage.transport, reader.stage.transport, writer.written, reader.received⟩

/-- The network may deliver any bytes, as long as a ciphertext in them that opens
is one that the other end wrote. -/
def Ideal (cipher : Cipher S) (link : Link S) : Side × Action → Prop
  | (side, .deliver datagram) =>
    ∀ encrypted ∈ (SessionPacket.codec.deserialize datagram).bind SessionPacket.encrypted,
      (ends (link.peer side) (link.party side)).Ideal cipher (.read encrypted 65535)
  | _ => True

instance (cipher : Cipher S) (link : Link S) : (event : Side × Action) → Decidable (link.Ideal cipher event)
  | (_, .deliver _) => inferInstanceAs (Decidable (∀ encrypted ∈ _, _))
  | (_, .send _) | (_, .transmit) | (_, .keepalive) | (_, .recv _ _) | (_, .checkHeartbeat) | (_, .close) =>
    inferInstanceAs (Decidable True)

def IdealRun (cipher : Cipher S) (link : Link S) : List (Side × Action) → Prop
  | [] => True
  | event :: events => link.Ideal cipher event ∧
    match link.step cipher event with
    | .ok next => IdealRun cipher next events
    | .error _ => True

instance decidableIdealRun (cipher : Cipher S) (link : Link S) :
    (events : List (Side × Action)) → Decidable (link.IdealRun cipher events)
  | [] => inferInstanceAs (Decidable True)
  | event :: events =>
    have : Decidable (match link.step cipher event with
        | .ok next => IdealRun cipher next events
        | .error _ => True) :=
      match link.step cipher event with
      | .ok next => decidableIdealRun cipher next events
      | .error _ => inferInstanceAs (Decidable True)
    inferInstanceAs (Decidable (_ ∧ _))

end Link
end Veq
