import Veq.Calls
import Veq.Locks

/-! The locks of an endpoint and where its code holds them. The four maps of a
handler are shared by all calls; a session, an attempt to connect and a chunker
have locks of their own, which are named by the one-time id that they go back to. -/

namespace Veq
open Locks

inductive Lock where
  | sessions (place : Place)
  | waker (place : Place) (attempt : OneTimeId)
  | readyWakers (attempt : OneTimeId)
  | completed (attempt : OneTimeId)
  | transport (session : OneTimeId)
  | nextNonce (session : OneTimeId)
  | receivedNonces (session : OneTimeId)
  | wakers (session : OneTimeId)
  | currentGroup (chunker : OneTimeId)
  | chunkGroups (chunker : OneTimeId)
  | completedChunks (chunker : OneTimeId)
deriving DecidableEq, Repr

namespace Lock

/-- The locks of `std::sync`, which block the thread of the runtime. -/
def isBlocking : Lock → Bool
  | .waker _ _ | .readyWakers _ | .completed _ | .wakers _ => true
  | _ => false

/-- The order in which one call comes to hold several locks. -/
def rank : Lock → Nat
  | .sessions .established => 1
  | .transport _ => 2
  | .nextNonce _ | .receivedNonces _ => 3
  | .waker _ _ | .readyWakers _ | .completed _ | .wakers _ => 3
  | _ => 0

end Lock

namespace Locking

abbrev Code := Program OneTimeId Lock

/-- A guard that is dropped before any other lock is taken. -/
def visit (lock : Lock) : Code := .hold lock .skip

namespace LossyTransportState

def writeMessage (session : OneTimeId) : Code := visit (.nextNonce session)

def readMessage (session : OneTimeId) : Code := .either .skip (visit (.receivedNonces session))

end LossyTransportState

namespace Pending

/-- `handle_incoming` of a poker and of an initiator. -/
def handleIncoming (place : Place) (attempt : OneTimeId) : Code := .either .skip (visit (.waker place attempt))

/-- A pending responder owns its transport and reads without a lock on it. -/
def confirm (attempt : OneTimeId) : Code :=
  .either .skip
    (.seq (LossyTransportState.readMessage attempt) (.either .skip (visit (.waker .responder attempt))))

end Pending

namespace Session

def handleIncoming (session : OneTimeId) : Code :=
  .either .skip
    (.hold (.transport session)
      (.seq (LossyTransportState.readMessage session) (.either .skip (visit (.wakers session)))))

def send (session : OneTimeId) : Code :=
  .either .skip (.hold (.transport session) (LossyTransportState.writeMessage session))

/-- The task that `Session::new` spawns to send keepalives. -/
def keepalive (session : OneTimeId) : Code :=
  .loop (.seq .wait (.hold (.transport session) (LossyTransportState.writeMessage session)))

/-- The task that `Session::new` spawns to check the heartbeat. -/
def checkHeartbeat (session : OneTimeId) : Code :=
  .loop (.seq .wait (.either .skip (visit (.wakers session))))

end Session

namespace Receiving

def poll (session : OneTimeId) : Code := .either .skip (visit (.wakers session))

def await (session : OneTimeId) : Code := .seq (.loop (.seq (poll session) .wait)) (poll session)

end Receiving

namespace SessionReady

def poll (attempt : OneTimeId) : Code :=
  .either (visit (.completed attempt)) (.either .skip (visit (.readyWakers attempt)))

def drop (attempt : OneTimeId) : Code := visit (.completed attempt)

def await (attempt : OneTimeId) : Code :=
  .seq (.loop (.seq (poll attempt) .wait)) (.seq (poll attempt) (drop attempt))

end SessionReady

namespace Handler

def notify (attempt : OneTimeId) : Code := .either .skip (visit (.readyWakers attempt))

def upgradeSession (attempt : OneTimeId) : Code := .seq (visit (.sessions .established)) (notify attempt)

def readEstablished : Code := .hold (.sessions .established) (.either .skip (.pick Session.handleIncoming))

/-- The responder is put back unless it is ready. -/
def takeResponder : Code :=
  .seq (visit (.sessions .responder))
    (.either
      (.pick fun attempt => .seq (Pending.confirm attempt)
        (.either (upgradeSession attempt) (.either .skip (visit (.sessions .responder)))))
      readEstablished)

def takeInitiator : Code :=
  .seq (visit (.sessions .initiator))
    (.either
      (.pick fun attempt => .seq (Pending.handleIncoming .initiator attempt)
        (.either (upgradeSession attempt) (.either .skip (visit (.sessions .initiator)))))
      takeResponder)

def takePoker : Code :=
  .seq (visit (.sessions .poker))
    (.either
      (.pick fun attempt => .seq (Pending.handleIncoming .poker attempt)
        (.either (.either .skip (visit (.sessions .responder))) (visit (.sessions .poker))))
      takeInitiator)

def handleIncoming : Code := .either .skip takePoker

def send : Code := .hold (.sessions .established) (.either .skip (.pick Session.send))

def recvFrom : Code := visit (.sessions .established)

def remoteAddr : Code := visit (.sessions .established)

def removeFrom (places : List Place) : Code := .sequence (places.map fun place => visit (.sessions place))

def removeSession : Code := removeFrom Place.order

def insert (place : Place) : Code := .either .skip (visit (.sessions place))

end Handler

namespace Chunker

def addChunk (chunker : OneTimeId) : Code :=
  .seq (visit (.chunkGroups chunker))
    (.seq (.either .skip (.seq (visit (.chunkGroups chunker)) (visit (.completedChunks chunker))))
      (visit (.chunkGroups chunker)))

def nextReadyChunk (chunker : OneTimeId) : Code := visit (.completedChunks chunker)

/-- The guard of the group counter is held while the chunks go to the delegate. -/
def send (chunker : OneTimeId) (chunks : Nat) : Code :=
  .seq (visit (.currentGroup chunker))
    (.hold (.currentGroup chunker) (.attempts (List.replicate chunks Handler.send)))

def recv (chunker : OneTimeId) : Code :=
  .loop (.seq (nextReadyChunk chunker)
    (.either .skip
      (.seq Handler.recvFrom
        (.either .skip (.pick fun session => .seq (Receiving.await session) (.either .skip (addChunk chunker)))))))

end Chunker

namespace VeqSocket

/-- What `connect` does once its entry is registered. -/
def established : Code :=
  .either .skip (.pick fun attempt => .seq (SessionReady.await attempt) Handler.remoteAddr)

def connect (place : Place) : Code :=
  .seq Handler.removeSession (.seq (Handler.insert place) established)

/-- The task that reads the UDP socket. -/
def receive : Code := .loop (.seq .wait (.either .skip Handler.handleIncoming))

end VeqSocket
end Locking

/-- What runs on an endpoint: the calls of its users, and the tasks that it spawns. -/
inductive Job where
  | receive
  | handleIncoming
  | connect (request : Request)
  | dropReady (attempt : OneTimeId)
  | removeSession
  | send (chunker : OneTimeId) (chunks : Nat)
  | recv (chunker : OneTimeId)
  | keepalive (session : OneTimeId)
  | checkHeartbeat (session : OneTimeId)

def Job.program : Job → Locking.Code
  | .receive => Locking.VeqSocket.receive
  | .handleIncoming => Locking.Handler.handleIncoming
  | .connect request => Locking.VeqSocket.connect request.place
  | .dropReady attempt => Locking.SessionReady.drop attempt
  | .removeSession => Locking.Handler.removeSession
  | .send chunker chunks => Locking.Chunker.send chunker chunks
  | .recv chunker => Locking.Chunker.recv chunker
  | .keepalive session => Locking.Session.keepalive session
  | .checkHeartbeat session => Locking.Session.checkHeartbeat session

namespace Endpoint

inductive Event where
  | spawn (job : Job)
  | advance (task : Nat) (choice : Choice OneTimeId)
  | cancel (task : Nat)

def Event.label : Event → Locks.Label OneTimeId Lock
  | .spawn job => .spawn job.program
  | .advance task choice => .advance task choice
  | .cancel task => .cancel task

def run (threads : Threads OneTimeId Lock) (events : List Event) : Option (Threads OneTimeId Lock) :=
  threads.run (events.map Event.label)

end Endpoint

variable {H S : Type}

/-- What a `handle_incoming` call has still to lock. -/
def Incoming.thread : Incoming H S → Thread OneTimeId Lock
  | .takePoker => [.run Locking.Handler.takePoker]
  | .takeInitiator => [.run Locking.Handler.takeInitiator]
  | .takeResponder => [.run Locking.Handler.takeResponder]
  | .readEstablished => [.run Locking.Handler.readEstablished]
  | .putPoker _ => [.run (Locking.visit (.sessions .poker))]
  | .putInitiator _ => [.run (Locking.visit (.sessions .initiator))]
  | .putResponder _ => [.run (Locking.visit (.sessions .responder))]
  | .putEstablished oneTimeId _ => [.run (Locking.Handler.upgradeSession oneTimeId)]
  | .notify oneTimeId => [.run (Locking.Handler.notify oneTimeId)]
  | .wake oneTimeId => [.run (Locking.visit (.readyWakers oneTimeId))]
  | .finished => []

/-- What a call has still to lock. -/
def Call.thread : Call H S → Thread OneTimeId Lock
  | .incoming _ _ _ next => next.thread
  | .remove _ _ remaining => [.run (Locking.Handler.removeFrom remaining)]
  | .connect _ request remaining =>
    [.run (Locking.Handler.removeFrom remaining),
      .run (.seq (Locking.Handler.insert request.place) Locking.VeqSocket.established)]
  | .connected _ _ => [.run Locking.VeqSocket.established]

end Veq
