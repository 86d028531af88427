import Veq.Calls
import Veq.Runs

/-! veq.rs: a socket with the connects that wait for their session and the handles
that completed connects returned. Every call runs to completion here. -/

namespace Veq
open Rust Bincode

variable {H S : Type}

/-- What a packet does to the pending entry under its id. -/
inductive Fate where
  | keep (place : Place)
  | advance (before after : Place)
  | discard (place : Place)
deriving DecidableEq, Repr

namespace Fate

def ofDisposition {P Q : Type} (before after : Place) : Disposition P Q → Fate
  | .promote _ => .advance before after
  | .putBack _ => .keep before
  | .discard => .discard before

end Fate

namespace Handler

def fate (snow : Snow H S) (handler : Handler H S) (src : SocketAddr) (packet : SessionPacket) (ephemeral : Nat) :
    Option (OneTimeId × Fate) :=
  match handler.pendingSessionsPoker packet.id with
  | some entry =>
    some (entry.oneTimeId, .ofDisposition .poker .responder (entry.session.advance snow src packet ephemeral))
  | none =>
    match handler.pendingSessionsInitiator packet.id with
    | some entry => some (entry.oneTimeId, .ofDisposition .initiator .established (entry.session.advance snow src packet))
    | none =>
      match handler.pendingSessionsResponder packet.id with
      | some entry =>
        some (entry.oneTimeId, .ofDisposition .responder .established (entry.session.advance snow.toCipher packet))
      | none => none

def isListening (handler : Handler H S) (oneTimeId : OneTimeId) : Bool :=
  (handler.readiness oneTimeId).any Readiness.listening

/-- The one-time id that a packet makes the handler notify, if any. -/
def notifies (snow : Snow H S) (handler : Handler H S) (src : SocketAddr) (data : Bytes) (ephemeral : Nat) :
    Option OneTimeId :=
  match SessionPacket.codec.deserialize data with
  | none => none
  | some packet =>
    match handler.fate snow src packet ephemeral with
    | some (oneTimeId, .advance _ .established) => if handler.isListening oneTimeId then some oneTimeId else none
    | _ => none

/-- A poll of the future of a connect. -/
def pollReady (handler : Handler H S) (ready : SessionReady) (waker : Waker) :
    Option (Handler H S × SessionReady × Poll (SessionId × OneTimeId)) :=
  match handler.readiness ready.oneTimeId with
  | none => none
  | some readiness =>
    let (again, readiness, result) := ready.poll readiness waker
    some ({ handler with readiness := handler.readiness.insert ready.oneTimeId readiness }, again, result)

/-- The receiver of the broadcast channel goes with the future. -/
def hangUp (handler : Handler H S) (oneTimeId : OneTimeId) : Handler H S :=
  match handler.readiness oneTimeId with
  | none => handler
  | some channel =>
    { handler with readiness := handler.readiness.insert oneTimeId { channel with listening := false } }

/-- A poll of the future that `recv_from` returned: once its session has left the
map, the session is dead. -/
def pollReceiving (handler : Handler H S) (id : SessionId) (receiving : Receiving) (future : Uuid) (waker : Waker) :
    Handler H S × Poll (Except VeqError Bytes) :=
  match handler.establishedSessions id with
  | none => (handler, .ready (.error .disconnected))
  | some (oneTimeId, session) =>
    if oneTimeId = receiving.session then
      let (session, result) := session.poll future waker
      (handler.putEstablished id (oneTimeId, session), result)
    else (handler, .ready (.error .disconnected))

end Handler

structure BidirectionalSession where
  id : SessionId
  oneTimeId : OneTimeId
deriving DecidableEq, Repr

namespace BidirectionalSession

def send (cipher : Cipher S) (handler : Handler H S) (handle : BidirectionalSession) (data : Bytes) :
    Handler H S × Except Panic (Except VeqError Outgoing) :=
  match handler.send cipher handle.id data with
  | (handler, .ok outgoing) => (handler, .ok (.ok outgoing))
  | (handler, .error (.panic panic)) => (handler, .error panic)
  | (handler, .error _) => (handler, .ok (.error .disconnected))

/-- `recv` up to the future that it awaits. -/
def recv (handler : Handler H S) (handle : BidirectionalSession) : Handler H S × Except VeqError Receiving :=
  match handler.recvFrom handle.id with
  | (handler, some receiving) => (handler, .ok receiving)
  | (handler, none) => (handler, .error .disconnected)

end BidirectionalSession

/-- The call of a connect on the handler. -/
def Request.operation (id : SessionId) (oneTimeId : OneTimeId) : Request → Handler.Operation
  | .initiate info ephemeral => .initiate id info ephemeral oneTimeId
  | .respond info => .respond id info oneTimeId

/-- `issued` records the one-time id of every entry that was inserted and
`notified` the ready notifications that were sent. A connect that was dropped is
not in `waiting` any more. -/
structure Socket (H S : Type) where
  handler : Handler H S
  waiting : List SessionReady
  handles : List BidirectionalSession
  receiving : List (BidirectionalSession × Receiving)
  issued : List (SessionId × OneTimeId)
  notified : List OneTimeId

namespace Socket

/-- The close that a dropped connect or handle spawns is a later operation. -/
inductive Label where
  | operate (operation : Handler.Operation)
  | poll (waiter : Nat) (waker : Waker)
  | drop (waiter : Nat)
  | send (handle : Nat) (data : Bytes)
  | recv (handle : Nat)
  | pollReceiving (future : Nat) (id : Uuid) (waker : Waker)
deriving DecidableEq

def start (keypair : SnowKeypair) : Socket H S := ⟨.new keypair, [], [], [], [], []⟩

def connect (socket : Socket H S) : Handler H S × Except Failure SessionReady → Socket H S
  | (handler, .error _) => { socket with handler }
  | (handler, .ok ready) =>
    { socket with
      handler
      waiting := socket.waiting ++ [ready]
      issued := socket.issued ++ [(ready.id, ready.oneTimeId)] }

/-- `Uuid::new_v4` returns a one-time id that was not issued before. -/
def operate (snow : Snow H S) (socket : Socket H S) : Handler.Operation → Option (Socket H S)
  | .initiate id info ephemeral oneTimeId =>
    if (socket.issued.map Prod.snd).contains oneTimeId then none
    else some (socket.connect (socket.handler.initiate snow id info ephemeral oneTimeId))
  | .respond id info oneTimeId =>
    if (socket.issued.map Prod.snd).contains oneTimeId then none
    else some (socket.connect (socket.handler.respond snow id info oneTimeId))
  | .handleIncoming src data ephemeral =>
    some { socket with
      handler := (socket.handler.handleIncoming snow src data ephemeral).1
      notified := socket.notified ++ (socket.handler.notifies snow src data ephemeral).toList }
  | .send id data => some { socket with handler := socket.handler.step snow (.send id data) }
  | .recvFrom id => some { socket with handler := socket.handler.step snow (.recvFrom id) }
  | .closeSession id oneTimeId => some { socket with handler := socket.handler.step snow (.closeSession id oneTimeId) }
  | .keepalive id => some { socket with handler := socket.handler.step snow (.keepalive id) }
  | .checkHeartbeat id => some { socket with handler := socket.handler.step snow (.checkHeartbeat id) }

/-- A poll of a waiting connect. Once it is ready, `connect` looks up the remote
address and returns a handle. -/
def poll (socket : Socket H S) (waiter : Nat) (waker : Waker) : Option (Socket H S) :=
  match socket.waiting[waiter]? with
  | none => none
  | some ready =>
    if ready.completed then none
    else
      match socket.handler.pollReady ready waker with
      | none => none
      | some (handler, ready, result) =>
        let socket := { socket with handler, waiting := socket.waiting.set waiter ready }
        match result with
        | .pending => some socket
        | .ready (id, oneTimeId) =>
          match handler.remoteAddr id with
          | none => some socket
          | some _ => some { socket with handles := socket.handles ++ [⟨id, oneTimeId⟩] }

def drop (socket : Socket H S) (waiter : Nat) : Option (Socket H S) :=
  match socket.waiting[waiter]? with
  | none => none
  | some ready =>
    some { socket with handler := socket.handler.hangUp ready.oneTimeId, waiting := socket.waiting.eraseIdx waiter }

def step (snow : Snow H S) (socket : Socket H S) : Label → Option (Socket H S)
  | .operate operation => socket.operate snow operation
  | .poll waiter waker => socket.poll waiter waker
  | .drop waiter => socket.drop waiter
  | .send handle data =>
    match socket.handles[handle]? with
    | none => none
    | some handle => some { socket with handler := (handle.send snow.toCipher socket.handler data).1 }
  | .recv handle =>
    match socket.handles[handle]? with
    | none => none
    | some handle =>
      match handle.recv socket.handler with
      | (handler, .error _) => some { socket with handler }
      | (handler, .ok receiving) => some { socket with handler, receiving := socket.receiving ++ [(handle, receiving)] }
  | .pollReceiving future id waker =>
    match socket.receiving[future]? with
    | none => none
    | some (handle, receiving) =>
      some { socket with handler := (socket.handler.pollReceiving handle.id receiving id waker).1 }

end Socket
end Veq
