import Veq.Handler
import Veq.Runs

/-! Concurrent calls on one handler. A call holds a lock for one critical section
at a time, and other calls run in between: `handle_incoming` keeps an entry
outside the maps while it works on it, and `remove_session` goes through the four
maps one after another. -/

namespace Veq
open Rust Bincode

variable {H S : Type}

inductive Place where
  | established
  | responder
  | poker
  | initiator
deriving DecidableEq, Repr

namespace Place

/-- The order in which `remove_session` visits the maps. -/
def order : List Place := [.established, .responder, .poker, .initiator]

/-- The maps that `initiate` and `respond` insert into. -/
def isFirst : Place → Bool
  | .poker | .initiator => true
  | .responder | .established => false

end Place

namespace Handler

/-- The one-time id of the entry under `id` in one of the maps. -/
def registered (handler : Handler H S) : Place → SessionId → Option OneTimeId
  | .established, id => (handler.establishedSessions id).map Prod.fst
  | .responder, id => (handler.pendingSessionsResponder id).map Pending.oneTimeId
  | .poker, id => (handler.pendingSessionsPoker id).map Pending.oneTimeId
  | .initiator, id => (handler.pendingSessionsInitiator id).map Pending.oneTimeId

def removeFrom (handler : Handler H S) (id : SessionId) (oneTimeId : Option OneTimeId) : Place → Handler H S
  | .established => (handler.removeEstablished id oneTimeId).1
  | .responder => (handler.removeResponder id oneTimeId).1
  | .poker => (handler.removePoker id oneTimeId).1
  | .initiator => (handler.removeInitiator id oneTimeId).1

end Handler

/-- Where a `handle_incoming` call stands: the critical section that it enters
next, with the entry that it holds. -/
inductive Incoming (H S : Type) where
  | takePoker
  | takeInitiator
  | takeResponder
  | readEstablished
  | putPoker (entry : Pending (PendingSessionPoker H))
  | putInitiator (entry : Pending (PendingSessionInitiator H))
  | putResponder (entry : Pending (PendingSessionResponder S))
  | putEstablished (oneTimeId : OneTimeId) (session : Session S)
  | notify (oneTimeId : OneTimeId)
  | wake (oneTimeId : OneTimeId)
  | finished

namespace Incoming

/-- The next critical section, and the work on the entry up to the one after it. -/
def enter (snow : Snow H S) (handler : Handler H S) (src : SocketAddr) (packet : SessionPacket) (ephemeral : Nat) :
    Incoming H S → Handler H S × Incoming H S
  | .takePoker =>
    match handler.pendingSessionsPoker packet.id with
    | none => (handler, .takeInitiator)
    | some entry =>
      match entry.session.advance snow src packet ephemeral with
      | .promote session => (handler.takePoker packet.id, .putResponder ⟨session, entry.oneTimeId⟩)
      | .putBack session => (handler.takePoker packet.id, .putPoker ⟨session, entry.oneTimeId⟩)
      | .discard => (handler.takePoker packet.id, .finished)
  | .takeInitiator =>
    match handler.pendingSessionsInitiator packet.id with
    | none => (handler, .takeResponder)
    | some entry =>
      match entry.session.advance snow src packet with
      | .promote session => (handler.takeInitiator packet.id, .putEstablished entry.oneTimeId session)
      | .putBack session => (handler.takeInitiator packet.id, .putInitiator ⟨session, entry.oneTimeId⟩)
      | .discard => (handler.takeInitiator packet.id, .finished)
  | .takeResponder =>
    match handler.pendingSessionsResponder packet.id with
    | none => (handler, .readEstablished)
    | some entry =>
      match entry.session.advance snow.toCipher packet with
      | .promote session => (handler.takeResponder packet.id, .putEstablished entry.oneTimeId session)
      | .putBack session => (handler.takeResponder packet.id, .putResponder ⟨session, entry.oneTimeId⟩)
      | .discard => (handler.takeResponder packet.id, .finished)
  | .readEstablished =>
    match handler.establishedSessions packet.id with
    | none => (handler, .finished)
    | some (oneTimeId, session) =>
      (handler.putEstablished packet.id (oneTimeId, (session.handleIncoming snow.toCipher packet).1), .finished)
  | .putPoker entry => (handler.putPoker packet.id entry, .finished)
  | .putInitiator entry => (handler.putInitiator packet.id entry, .finished)
  | .putResponder entry => (handler.putResponder packet.id entry, .finished)
  | .putEstablished oneTimeId session => (handler.putEstablished packet.id (oneTimeId, session), .notify oneTimeId)
  | .notify oneTimeId =>
    match handler.notify oneTimeId with
    | (handler, true) => (handler, .wake oneTimeId)
    | (handler, false) => (handler, .finished)
  | .wake oneTimeId => (handler.wake oneTimeId, .finished)
  | .finished => (handler, .finished)

/-- The map that the call is about to take an entry from. -/
def takes : Incoming H S → Option Place
  | .takePoker => some .poker
  | .takeInitiator => some .initiator
  | .takeResponder => some .responder
  | _ => none

/-- The map that the call is about to put its entry into, and the one-time id. -/
def puts : Incoming H S → Option (Place × OneTimeId)
  | .putPoker entry => some (.poker, entry.oneTimeId)
  | .putInitiator entry => some (.initiator, entry.oneTimeId)
  | .putResponder entry => some (.responder, entry.oneTimeId)
  | .putEstablished oneTimeId _ => some (.established, oneTimeId)
  | _ => none

end Incoming

inductive Request where
  | initiate (info : ConnectionInfo) (ephemeral : Nat)
  | respond (info : ConnectionInfo)
deriving DecidableEq, Repr

namespace Request

/-- The map that the entry of a request is inserted into. -/
def place : Request → Place
  | .initiate _ _ => .initiator
  | .respond _ => .poker

def insert (snow : Snow H S) (handler : Handler H S) (id : SessionId) (oneTimeId : OneTimeId) :
    Request → Handler H S × Except Failure SessionReady
  | .initiate info ephemeral => handler.insertInitiator snow id info ephemeral oneTimeId
  | .respond info => handler.insertPoker snow id info oneTimeId

end Request

/-- A call in progress. `remaining` lists the maps that are still to be visited. -/
inductive Call (H S : Type) where
  | incoming (src : SocketAddr) (packet : SessionPacket) (ephemeral : Nat) (next : Incoming H S)
  | remove (id : SessionId) (oneTimeId : OneTimeId) (remaining : List Place)
  | connect (id : SessionId) (request : Request) (remaining : List Place)
  | connected (id : SessionId) (oneTimeId : Option OneTimeId)

namespace Call

def puts : Call H S → Option (Place × SessionId × OneTimeId)
  | .incoming _ packet _ next => next.puts.map fun target => (target.1, packet.id, target.2)
  | _ => none

def isFinished : Call H S → Bool
  | .incoming _ _ _ .finished => true
  | .incoming _ _ _ _ => false
  | .remove _ _ remaining => remaining.isEmpty
  | .connect _ _ _ => false
  | .connected _ _ => true

end Call

/-- `issued` records the one-time id of every entry that was inserted. -/
structure System (H S : Type) where
  handler : Handler H S
  calls : List (Call H S)
  issued : List (SessionId × OneTimeId)

inductive Label where
  | receive (src : SocketAddr) (data : Bytes) (ephemeral : Nat)
  | connect (id : SessionId) (request : Request)
  | close (id : SessionId) (oneTimeId : OneTimeId)
  | enter (task : Nat) (oneTimeId : OneTimeId)
  | send (id : SessionId) (data : Bytes)
  | recvFrom (id : SessionId)
  | keepalive (id : SessionId)
  | checkHeartbeat (id : SessionId)
deriving DecidableEq

namespace System

def start (keypair : SnowKeypair) : System H S := ⟨.new keypair, [], []⟩

def spawn (system : System H S) (call : Call H S) : System H S :=
  { system with calls := system.calls ++ [call] }

/-- One critical section of a call. A one-time id is only consumed by an
insertion, and `Uuid::new_v4` returns one that was not issued before. -/
def enter (snow : Snow H S) (system : System H S) (task : Nat) (oneTimeId : OneTimeId) : Option (System H S) :=
  match system.calls[task]? with
  | none => none
  | some (.incoming src packet ephemeral next) =>
    let (handler, next) := next.enter snow system.handler src packet ephemeral
    some { system with handler, calls := system.calls.set task (.incoming src packet ephemeral next) }
  | some (.remove id closing (place :: remaining)) =>
    some { system with
      handler := system.handler.removeFrom id (some closing) place
      calls := system.calls.set task (.remove id closing remaining) }
  | some (.connect id request (place :: remaining)) =>
    some { system with
      handler := system.handler.removeFrom id none place
      calls := system.calls.set task (.connect id request remaining) }
  | some (.connect id request []) =>
    if oneTimeId ∈ system.issued.map Prod.snd then none
    else
      match request.insert snow system.handler id oneTimeId with
      | (handler, .error _) => some { system with handler, calls := system.calls.set task (.connected id none) }
      | (handler, .ok ready) =>
        some {
          handler
          calls := system.calls.set task (.connected id (some ready.oneTimeId))
          issued := system.issued ++ [(id, ready.oneTimeId)] }
  | some (.remove _ _ []) => none
  | some (.connected _ _) => none

/-- `close_session` is called by the holder of an entry's id and one-time id. -/
def step (snow : Snow H S) (system : System H S) : Label → Option (System H S)
  | .receive src data ephemeral =>
    match SessionPacket.codec.deserialize data with
    | none => some system
    | some packet => some (system.spawn (.incoming src packet ephemeral .takePoker))
  | .connect id request => some (system.spawn (.connect id request Place.order))
  | .close id oneTimeId =>
    if (id, oneTimeId) ∈ system.issued then some (system.spawn (.remove id oneTimeId Place.order)) else none
  | .enter task oneTimeId => system.enter snow task oneTimeId
  | .send id data => some { system with handler := (system.handler.send snow.toCipher id data).1 }
  | .recvFrom id => some { system with handler := (system.handler.recvFrom id).1 }
  | .keepalive id => some { system with
      handler := system.handler.updateEstablished id fun session => (session.keepalive snow.toCipher).1 }
  | .checkHeartbeat id => some { system with
      handler := system.handler.updateEstablished id fun session => session.checkHeartbeat.1 }

def run (snow : Snow H S) (system : System H S) (labels : List Label) : Option (System H S) :=
  Runs.run (step snow) system labels

end System
end Veq
