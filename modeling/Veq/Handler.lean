import Veq.Session

/-! handler.rs: the registry of pending and established sessions. Each critical
section is a definition of its own; the operations here run their sections
without interruption. -/

namespace Veq
open Rust Bincode

abbrev OneTimeId := SessionId

/-- The broadcast channel and the wakers that an entry shares with the
`SessionReady` of the same one-time id. -/
structure Readiness where
  notifications : Nat
  listening : Bool
  wakers : List Waker
  woken : List Waker
deriving DecidableEq, Repr

structure Pending (P : Type) where
  session : P
  oneTimeId : OneTimeId

/-- What a pending session becomes once it has seen a packet. -/
inductive Disposition (P Q : Type) where
  | promote (next : Q)
  | putBack (pending : P)
  | discard

variable {H S : Type}

def PendingSessionPoker.advance (snow : Snow H S) (pending : PendingSessionPoker H) (src : SocketAddr)
    (packet : SessionPacket) (ephemeral : Nat) : Disposition (PendingSessionPoker H) (PendingSessionResponder S) :=
  let pending := pending.handleIncoming src packet
  if pending.isReady then
    match pending.responder snow ephemeral with
    | .ok session => .promote session
    | .error _ => .discard
  else .putBack pending

def PendingSessionInitiator.advance (snow : Snow H S) (pending : PendingSessionInitiator H) (src : SocketAddr)
    (packet : SessionPacket) : Disposition (PendingSessionInitiator H) (Session S) :=
  let pending := pending.handleIncoming src packet
  if pending.isReady then
    match pending.session snow with
    | .ok (.ok session) => .promote session
    | .ok (.err pending) => .putBack pending
    | .error _ => .discard
  else .putBack pending

def PendingSessionResponder.advance (cipher : Cipher S) (pending : PendingSessionResponder S)
    (packet : SessionPacket) : Disposition (PendingSessionResponder S) (Session S) :=
  let pending := (pending.handleIncoming cipher packet).1
  if pending.isReady then
    match pending.session with
    | .ok session => .promote session
    | .error _ => .discard
  else .putBack pending

structure Handler (H S : Type) where
  pendingSessionsPoker : HashMap SessionId (Pending (PendingSessionPoker H))
  pendingSessionsInitiator : HashMap SessionId (Pending (PendingSessionInitiator H))
  pendingSessionsResponder : HashMap SessionId (Pending (PendingSessionResponder S))
  establishedSessions : HashMap SessionId (OneTimeId × Session S)
  keypair : SnowKeypair
  readiness : HashMap OneTimeId Readiness

structure SessionReady where
  id : SessionId
  oneTimeId : OneTimeId
  addedWaker : Bool
  completed : Bool
deriving DecidableEq, Repr

/-- `try_recv` on the broadcast channel. -/
def Readiness.tryRecv (readiness : Readiness) : Option Readiness :=
  if 0 < readiness.notifications then some { readiness with notifications := readiness.notifications - 1 } else none

namespace SessionReady

/-- Only the waker of the first poll is ever registered. -/
def register (ready : SessionReady) (readiness : Readiness) (waker : Waker) : SessionReady × Readiness :=
  if ready.addedWaker then (ready, readiness)
  else ({ ready with addedWaker := true }, { readiness with wakers := readiness.wakers ++ [waker] })

def poll (ready : SessionReady) (readiness : Readiness) (waker : Waker) :
    SessionReady × Readiness × Poll (SessionId × OneTimeId) :=
  match readiness.tryRecv with
  | some readiness => ({ ready with completed := true }, readiness, .ready (ready.id, ready.oneTimeId))
  | none =>
    let (ready, readiness) := ready.register readiness waker
    (ready, readiness, .pending)

end SessionReady

/-- The future returned by `recv_from`: it reads the queue of the session that
had this one-time id. -/
structure Receiving where
  session : OneTimeId
deriving DecidableEq, Repr

namespace Handler

def new (keypair : SnowKeypair) : Handler H S :=
  ⟨.empty, .empty, .empty, .empty, keypair, .empty⟩

def putPoker (handler : Handler H S) (id : SessionId) (entry : Pending (PendingSessionPoker H)) : Handler H S :=
  { handler with pendingSessionsPoker := handler.pendingSessionsPoker.insert id entry }

def putInitiator (handler : Handler H S) (id : SessionId) (entry : Pending (PendingSessionInitiator H)) :
    Handler H S :=
  { handler with pendingSessionsInitiator := handler.pendingSessionsInitiator.insert id entry }

def putResponder (handler : Handler H S) (id : SessionId) (entry : Pending (PendingSessionResponder S)) :
    Handler H S :=
  { handler with pendingSessionsResponder := handler.pendingSessionsResponder.insert id entry }

def putEstablished (handler : Handler H S) (id : SessionId) (entry : OneTimeId × Session S) : Handler H S :=
  { handler with establishedSessions := handler.establishedSessions.insert id entry }

def takePoker (handler : Handler H S) (id : SessionId) : Handler H S :=
  { handler with pendingSessionsPoker := handler.pendingSessionsPoker.remove id }

def takeInitiator (handler : Handler H S) (id : SessionId) : Handler H S :=
  { handler with pendingSessionsInitiator := handler.pendingSessionsInitiator.remove id }

def takeResponder (handler : Handler H S) (id : SessionId) : Handler H S :=
  { handler with pendingSessionsResponder := handler.pendingSessionsResponder.remove id }

/-- `broadcast::Sender::send`, which fails once the receiver is gone. -/
def notify (handler : Handler H S) (oneTimeId : OneTimeId) : Handler H S × Bool :=
  match handler.readiness oneTimeId with
  | some ready =>
    if ready.listening then
      ({ handler with
        readiness := handler.readiness.insert oneTimeId { ready with notifications := ready.notifications + 1 } }, true)
    else (handler, false)
  | none => (handler, false)

def wake (handler : Handler H S) (oneTimeId : OneTimeId) : Handler H S :=
  match handler.readiness oneTimeId with
  | some ready =>
    { handler with
      readiness := handler.readiness.insert oneTimeId { ready with woken := ready.woken ++ ready.wakers } }
  | none => handler

def upgradeSession (handler : Handler H S) (id : SessionId) (oneTimeId : OneTimeId) (session : Session S) :
    Handler H S × Bool :=
  match (handler.putEstablished id (oneTimeId, session)).notify oneTimeId with
  | (handler, true) => (handler.wake oneTimeId, true)
  | (handler, false) => (handler, false)

def handlePacket (snow : Snow H S) (handler : Handler H S) (src : SocketAddr) (packet : SessionPacket)
    (ephemeral : Nat) : Handler H S :=
  match handler.pendingSessionsPoker packet.id with
  | some entry =>
    let handler := handler.takePoker packet.id
    match entry.session.advance snow src packet ephemeral with
    | .promote session => handler.putResponder packet.id ⟨session, entry.oneTimeId⟩
    | .putBack session => handler.putPoker packet.id ⟨session, entry.oneTimeId⟩
    | .discard => handler
  | none =>
    match handler.pendingSessionsInitiator packet.id with
    | some entry =>
      let handler := handler.takeInitiator packet.id
      match entry.session.advance snow src packet with
      | .promote session => (handler.upgradeSession packet.id entry.oneTimeId session).1
      | .putBack session => handler.putInitiator packet.id ⟨session, entry.oneTimeId⟩
      | .discard => handler
    | none =>
      match handler.pendingSessionsResponder packet.id with
      | some entry =>
        let handler := handler.takeResponder packet.id
        match entry.session.advance snow.toCipher packet with
        | .promote session => (handler.upgradeSession packet.id entry.oneTimeId session).1
        | .putBack session => handler.putResponder packet.id ⟨session, entry.oneTimeId⟩
        | .discard => handler
      | none =>
        match handler.establishedSessions packet.id with
        | some (oneTimeId, session) =>
          handler.putEstablished packet.id (oneTimeId, (session.handleIncoming snow.toCipher packet).1)
        | none => handler

def handleIncoming (snow : Snow H S) (handler : Handler H S) (src : SocketAddr) (data : Bytes) (ephemeral : Nat) :
    Handler H S × Except Failure Unit :=
  match SessionPacket.codec.deserialize data with
  | none => (handler, .error .bincode)
  | some packet => (handler.handlePacket snow src packet ephemeral, .ok ())

def send (cipher : Cipher S) (handler : Handler H S) (id : SessionId) (data : Bytes) :
    Handler H S × Except Failure Outgoing :=
  match handler.establishedSessions id with
  | none => (handler, .error (.other s!"SessionId {id.hyphenated} is not in established sessions"))
  | some (oneTimeId, session) =>
    let (session, result) := session.send cipher data
    (handler.putEstablished id (oneTimeId, session), result)

def recvFrom (handler : Handler H S) (id : SessionId) : Handler H S × Option Receiving :=
  match handler.establishedSessions id with
  | none => (handler, none)
  | some (oneTimeId, session) =>
    if session.isDead then
      ({ handler with establishedSessions := handler.establishedSessions.remove id }, none)
    else (handler, some ⟨oneTimeId⟩)

def remoteAddr (handler : Handler H S) (id : SessionId) : Option SocketAddr :=
  (handler.establishedSessions id).map fun entry => entry.2.remoteAddr

/-- One block of `remove_session`: without a one-time id whatever is registered
under `id` goes, with one only the entry that has it. -/
def sweep {α : Type} (current : α → OneTimeId) (map : HashMap SessionId α) (id : SessionId) :
    Option OneTimeId → HashMap SessionId α × Option α
  | some oneTimeId => if (map id).map current = some oneTimeId then (map.remove id, map id) else (map, none)
  | none => (map.remove id, map id)

def removeEstablished (handler : Handler H S) (id : SessionId) (oneTimeId : Option OneTimeId) :
    Handler H S × Option (OneTimeId × Session S) :=
  let (establishedSessions, removed) := sweep Prod.fst handler.establishedSessions id oneTimeId
  ({ handler with establishedSessions }, removed.map fun entry => (entry.1, entry.2.close))

def removeResponder (handler : Handler H S) (id : SessionId) (oneTimeId : Option OneTimeId) :
    Handler H S × Option (PendingSessionResponder S) :=
  let (pendingSessionsResponder, removed) := sweep Pending.oneTimeId handler.pendingSessionsResponder id oneTimeId
  ({ handler with pendingSessionsResponder }, removed.map fun entry => entry.session.abort)

def removePoker (handler : Handler H S) (id : SessionId) (oneTimeId : Option OneTimeId) :
    Handler H S × Option (PendingSessionPoker H) :=
  let (pendingSessionsPoker, removed) := sweep Pending.oneTimeId handler.pendingSessionsPoker id oneTimeId
  ({ handler with pendingSessionsPoker }, removed.map fun entry => entry.session.abort)

def removeInitiator (handler : Handler H S) (id : SessionId) (oneTimeId : Option OneTimeId) :
    Handler H S × Option (PendingSessionInitiator H) :=
  let (pendingSessionsInitiator, removed) := sweep Pending.oneTimeId handler.pendingSessionsInitiator id oneTimeId
  ({ handler with pendingSessionsInitiator }, removed.map fun entry => entry.session.abort)

def removeSession (handler : Handler H S) (id : SessionId) (oneTimeId : Option OneTimeId) : Handler H S :=
  let (handler, _) := handler.removeEstablished id oneTimeId
  let (handler, _) := handler.removeResponder id oneTimeId
  let (handler, _) := handler.removePoker id oneTimeId
  let (handler, _) := handler.removeInitiator id oneTimeId
  handler

/-- The broadcast channel and waker list of a new entry. -/
def openReadiness (handler : Handler H S) (oneTimeId : OneTimeId) : Handler H S :=
  { handler with readiness := handler.readiness.insert oneTimeId ⟨0, true, [], []⟩ }

def insertInitiator (snow : Snow H S) (handler : Handler H S) (id : SessionId) (info : ConnectionInfo)
    (ephemeral : Nat) (oneTimeId : OneTimeId) : Handler H S × Except Failure SessionReady :=
  match SnowInitiator.new snow handler.keypair info.publicKey ephemeral with
  | none => (handler, .error .snow)
  | some initiator =>
    ((handler.putInitiator id ⟨.new id info initiator, oneTimeId⟩).openReadiness oneTimeId,
      .ok ⟨id, oneTimeId, false, false⟩)

def insertPoker (snow : Snow H S) (handler : Handler H S) (id : SessionId) (info : ConnectionInfo)
    (oneTimeId : OneTimeId) : Handler H S × Except Failure SessionReady :=
  match SnowResponder.new snow handler.keypair info.publicKey with
  | none => (handler, .error .snow)
  | some responder =>
    ((handler.putPoker id ⟨.new id info responder, oneTimeId⟩).openReadiness oneTimeId,
      .ok ⟨id, oneTimeId, false, false⟩)

def initiate (snow : Snow H S) (handler : Handler H S) (id : SessionId) (info : ConnectionInfo) (ephemeral : Nat)
    (oneTimeId : OneTimeId) : Handler H S × Except Failure SessionReady :=
  (handler.removeSession id none).insertInitiator snow id info ephemeral oneTimeId

def respond (snow : Snow H S) (handler : Handler H S) (id : SessionId) (info : ConnectionInfo)
    (oneTimeId : OneTimeId) : Handler H S × Except Failure SessionReady :=
  (handler.removeSession id none).insertPoker snow id info oneTimeId

/-- What a session's own tasks do to the session that is registered under `id`. -/
def updateEstablished (handler : Handler H S) (id : SessionId) (update : Session S → Session S) : Handler H S :=
  match handler.establishedSessions id with
  | none => handler
  | some (oneTimeId, session) => handler.putEstablished id (oneTimeId, update session)

/-- The calls and ticks of a handler. Random choices are arguments: the ephemeral
key of a handshake message and the one-time id of a new entry. -/
inductive Operation where
  | initiate (id : SessionId) (info : ConnectionInfo) (ephemeral : Nat) (oneTimeId : OneTimeId)
  | respond (id : SessionId) (info : ConnectionInfo) (oneTimeId : OneTimeId)
  | handleIncoming (src : SocketAddr) (data : Bytes) (ephemeral : Nat)
  | send (id : SessionId) (data : Bytes)
  | recvFrom (id : SessionId)
  | closeSession (id : SessionId) (oneTimeId : OneTimeId)
  | keepalive (id : SessionId)
  | checkHeartbeat (id : SessionId)
deriving DecidableEq

def step (snow : Snow H S) (handler : Handler H S) : Operation → Handler H S
  | .initiate id info ephemeral oneTimeId => (handler.initiate snow id info ephemeral oneTimeId).1
  | .respond id info oneTimeId => (handler.respond snow id info oneTimeId).1
  | .handleIncoming src data ephemeral => (handler.handleIncoming snow src data ephemeral).1
  | .send id data => (handler.send snow.toCipher id data).1
  | .recvFrom id => (handler.recvFrom id).1
  | .closeSession id oneTimeId => handler.removeSession id (some oneTimeId)
  | .keepalive id => handler.updateEstablished id fun session => (session.keepalive snow.toCipher).1
  | .checkHeartbeat id => handler.updateEstablished id fun session => session.checkHeartbeat.1

def run (snow : Snow H S) (handler : Handler H S) (operations : List Operation) : Handler H S :=
  operations.foldl (step snow) handler

end Handler
end Veq
