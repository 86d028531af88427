import Veq.Socket

/-! One session of a handler, seen on its own. Everything that reaches a handler
is an access, and almost every access is about one session id; a slot is what the
handler holds under that id. -/

namespace Veq
open Rust Bincode

variable {H S : Type}

/-- Everything that reads or changes a handler: its calls and ticks, the polls of
the futures that `recv_from` returned, the ticks of the tasks of pending sessions. -/
inductive Access where
  | operate (operation : Handler.Operation)
  | poll (id : SessionId) (receiving : Receiving) (future : Uuid) (waker : Waker)
  | retransmit (id : SessionId)
  | remoteAddr (id : SessionId)
deriving DecidableEq

/-- What an access returns to its caller or puts into the outgoing channel. -/
inductive Output where
  | connected (result : Except Failure SessionReady)
  | handled (result : Except Failure Unit)
  | sent (result : Except Failure Outgoing)
  | receiving (result : Option Receiving)
  | polled (result : Poll (Except VeqError Bytes))
  | woken (wakers : List Waker)
  | packets (outgoing : List Outgoing)
  | address (result : Option SocketAddr)
  | nothing

namespace Access

/-- The session id that an access is about. Bytes that do not decode as a packet
are about none. -/
def id? : Access → Option SessionId
  | .operate (.initiate id _ _ _) => some id
  | .operate (.respond id _ _) => some id
  | .operate (.handleIncoming _ data _) => (SessionPacket.codec.deserialize data).map SessionPacket.id
  | .operate (.send id _) => some id
  | .operate (.recvFrom id) => some id
  | .operate (.closeSession id _) => some id
  | .operate (.keepalive id) => some id
  | .operate (.checkHeartbeat id) => some id
  | .poll id _ _ _ => some id
  | .retransmit id => some id
  | .remoteAddr id => some id

def concerns (id : SessionId) (access : Access) : Bool := access.id? == some id

def initiates : Access → Bool
  | .operate (.initiate _ _ _ _) => true
  | _ => false

def isDatagram : Access → Bool
  | .operate (.handleIncoming _ _ _) => true
  | _ => false

/-- The peer that a connect names. -/
def info? : Access → Option ConnectionInfo
  | .operate (.initiate _ info _ _) => some info
  | .operate (.respond _ info _) => some info
  | _ => none

end Access

/-- The packets that a tick of the task sends. -/
def JoinHandle.tick (handle : JoinHandle) : List Outgoing := if handle.aborted then [] else handle.packets

namespace Output

/-- The packets that enter the outgoing channel. -/
def outgoing : Output → List Outgoing
  | .sent (.ok outgoing) => [outgoing]
  | .packets outgoing => outgoing
  | _ => []

def sessionPackets (output : Output) : List SessionPacket := output.outgoing.map fun outgoing => outgoing.2.1

end Output

namespace Handler

def retransmissions (handler : Handler H S) (id : SessionId) : List Outgoing :=
  ((handler.pendingSessionsPoker id).map fun entry => entry.session.handle.tick).getD [] ++
    ((handler.pendingSessionsInitiator id).map fun entry => entry.session.handle.tick).getD [] ++
    ((handler.pendingSessionsResponder id).map fun entry => entry.session.handle.tick).getD []

/-- A tick of the keepalive task of a registered session. The tick after the session
has left is a step of `Attended`. -/
def keepalive (cipher : Cipher S) (handler : Handler H S) (id : SessionId) : Handler H S × Output :=
  match handler.establishedSessions id with
  | none => (handler, .nothing)
  | some (oneTimeId, session) =>
    let (session, result) := session.keepalive cipher
    (handler.putEstablished id (oneTimeId, session), .sent result)

def checkHeartbeat (handler : Handler H S) (id : SessionId) : Handler H S × Output :=
  match handler.establishedSessions id with
  | none => (handler, .nothing)
  | some (oneTimeId, session) =>
    let (session, woken) := session.checkHeartbeat
    (handler.putEstablished id (oneTimeId, session), .woken woken)

def access (snow : Snow H S) (handler : Handler H S) : Access → Handler H S × Output
  | .operate (.initiate id info ephemeral oneTimeId) =>
    let (handler, result) := handler.initiate snow id info ephemeral oneTimeId
    (handler, .connected result)
  | .operate (.respond id info oneTimeId) =>
    let (handler, result) := handler.respond snow id info oneTimeId
    (handler, .connected result)
  | .operate (.handleIncoming src data ephemeral) =>
    let (handler, result) := handler.handleIncoming snow src data ephemeral
    (handler, .handled result)
  | .operate (.send id data) =>
    let (handler, result) := handler.send snow.toCipher id data
    (handler, .sent result)
  | .operate (.recvFrom id) =>
    let (handler, result) := handler.recvFrom id
    (handler, .receiving result)
  | .operate (.closeSession id oneTimeId) => (handler.removeSession id (some oneTimeId), .nothing)
  | .operate (.keepalive id) => handler.keepalive snow.toCipher id
  | .operate (.checkHeartbeat id) => handler.checkHeartbeat id
  | .poll id receiving future waker =>
    let (handler, result) := handler.pollReceiving id receiving future waker
    (handler, .polled result)
  | .retransmit id => (handler, .packets (handler.retransmissions id))
  | .remoteAddr id => (handler, .address (handler.remoteAddr id))

end Handler

/-- What a handler holds under one id. -/
inductive Slot (H S : Type) where
  | vacant
  | poking (pending : PendingSessionPoker H) (oneTimeId : OneTimeId)
  | initiating (pending : PendingSessionInitiator H) (oneTimeId : OneTimeId)
  | responding (pending : PendingSessionResponder S) (oneTimeId : OneTimeId)
  | established (session : Session S) (oneTimeId : OneTimeId)

namespace Slot

def oneTimeId : Slot H S → Option OneTimeId
  | .vacant => none
  | .poking _ oneTimeId => some oneTimeId
  | .initiating _ oneTimeId => some oneTimeId
  | .responding _ oneTimeId => some oneTimeId
  | .established _ oneTimeId => some oneTimeId

def poker : Slot H S → Option (Pending (PendingSessionPoker H))
  | .poking pending oneTimeId => some ⟨pending, oneTimeId⟩
  | _ => none

def initiator : Slot H S → Option (Pending (PendingSessionInitiator H))
  | .initiating pending oneTimeId => some ⟨pending, oneTimeId⟩
  | _ => none

def responder : Slot H S → Option (Pending (PendingSessionResponder S))
  | .responding pending oneTimeId => some ⟨pending, oneTimeId⟩
  | _ => none

def session : Slot H S → Option (OneTimeId × Session S)
  | .established session oneTimeId => some (oneTimeId, session)
  | _ => none

/-- The handshake goes forward, waits, or is given up. -/
def receive (snow : Snow H S) (src : SocketAddr) (packet : SessionPacket) (ephemeral : Nat) : Slot H S → Slot H S
  | .vacant => .vacant
  | .poking pending oneTimeId =>
    match pending.advance snow src packet ephemeral with
    | .promote next => .responding next oneTimeId
    | .putBack pending => .poking pending oneTimeId
    | .discard => .vacant
  | .initiating pending oneTimeId =>
    match pending.advance snow src packet with
    | .promote session => .established session oneTimeId
    | .putBack pending => .initiating pending oneTimeId
    | .discard => .vacant
  | .responding pending oneTimeId =>
    match pending.advance snow.toCipher packet with
    | .promote session => .established session oneTimeId
    | .putBack pending => .responding pending oneTimeId
    | .discard => .vacant
  | .established session oneTimeId => .established (session.handleIncoming snow.toCipher packet).1 oneTimeId

def initiate (snow : Snow H S) (keypair : SnowKeypair) (id : SessionId) (info : ConnectionInfo) (ephemeral : Nat)
    (oneTimeId : OneTimeId) : Slot H S × Output :=
  match SnowInitiator.new snow keypair info.publicKey ephemeral with
  | none => (.vacant, .connected (.error .snow))
  | some initiator =>
    (.initiating (.new id info initiator) oneTimeId, .connected (.ok ⟨id, oneTimeId, false, false⟩))

def respond (snow : Snow H S) (keypair : SnowKeypair) (id : SessionId) (info : ConnectionInfo)
    (oneTimeId : OneTimeId) : Slot H S × Output :=
  match SnowResponder.new snow keypair info.publicKey with
  | none => (.vacant, .connected (.error .snow))
  | some responder =>
    (.poking (.new id info responder) oneTimeId, .connected (.ok ⟨id, oneTimeId, false, false⟩))

def send (cipher : Cipher S) (id : SessionId) (data : Bytes) : Slot H S → Slot H S × Output
  | .established session oneTimeId =>
    let (session, result) := session.send cipher data
    (.established session oneTimeId, .sent result)
  | slot => (slot, .sent (.error (.other s!"SessionId {id.hyphenated} is not in established sessions")))

def recvFrom : Slot H S → Slot H S × Output
  | .established session oneTimeId =>
    if session.isDead then (.vacant, .receiving none)
    else (.established session oneTimeId, .receiving (some ⟨oneTimeId⟩))
  | slot => (slot, .receiving none)

def close (slot : Slot H S) (oneTimeId : OneTimeId) : Slot H S :=
  if slot.oneTimeId = some oneTimeId then .vacant else slot

/-- The tick after the session has left is a step of `Lineage`. -/
def keepalive (cipher : Cipher S) : Slot H S → Slot H S × Output
  | .established session oneTimeId =>
    let (session, result) := session.keepalive cipher
    (.established session oneTimeId, .sent result)
  | slot => (slot, .nothing)

def checkHeartbeat : Slot H S → Slot H S × Output
  | .established session oneTimeId =>
    let (session, woken) := session.checkHeartbeat
    (.established session oneTimeId, .woken woken)
  | slot => (slot, .nothing)

def poll (receiving : Receiving) (future : Uuid) (waker : Waker) : Slot H S → Slot H S × Output
  | .established session oneTimeId =>
    if oneTimeId = receiving.session then
      let (session, result) := session.poll future waker
      (.established session oneTimeId, .polled result)
    else (.established session oneTimeId, .polled (.ready (.error .disconnected)))
  | slot => (slot, .polled (.ready (.error .disconnected)))

def retransmissions : Slot H S → List Outgoing
  | .poking pending _ => pending.handle.tick
  | .initiating pending _ => pending.handle.tick
  | .responding pending _ => pending.handle.tick
  | .vacant => []
  | .established _ _ => []

def remoteAddr : Slot H S → Option SocketAddr
  | .established session _ => some session.remoteAddr
  | _ => none

/-- An access about the session `id` of a socket with this keypair. -/
def access (snow : Snow H S) (keypair : SnowKeypair) (id : SessionId) (slot : Slot H S) : Access → Slot H S × Output
  | .operate (.initiate _ info ephemeral oneTimeId) => initiate snow keypair id info ephemeral oneTimeId
  | .operate (.respond _ info oneTimeId) => respond snow keypair id info oneTimeId
  | .operate (.handleIncoming src data ephemeral) =>
    match SessionPacket.codec.deserialize data with
    | none => (slot, .handled (.error .bincode))
    | some packet => (slot.receive snow src packet ephemeral, .handled (.ok ()))
  | .operate (.send _ data) => slot.send snow.toCipher id data
  | .operate (.recvFrom _) => slot.recvFrom
  | .operate (.closeSession _ oneTimeId) => (slot.close oneTimeId, .nothing)
  | .operate (.keepalive _) => slot.keepalive snow.toCipher
  | .operate (.checkHeartbeat _) => slot.checkHeartbeat
  | .poll _ receiving future waker => slot.poll receiving future waker
  | .retransmit _ => (slot, .packets slot.retransmissions)
  | .remoteAddr _ => (slot, .address slot.remoteAddr)

end Slot
end Veq
