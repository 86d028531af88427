import Veq.Rendezvous
import Veq.Socket

/-! veq.rs: who answers for an entry of the handler. The future of a `connect` does
until its session is ready, and then the handle that `connect` returns. The clones of
a handle share one `BidirectionalSession`, and the last one to go spawns the close.
Every call on the handler runs to completion here. -/

namespace Veq
open Rust Bincode

variable {H S : Type}

/-- What became of a connect that entered a session. -/
inductive Owner where
  | waiting (ready : SessionReady)
  | looking (id : SessionId) (oneTimeId : OneTimeId)
  | holding (handle : BidirectionalSession) (others : Nat)
  | closing (id : SessionId) (oneTimeId : OneTimeId)
  | abandoned (id : SessionId) (oneTimeId : OneTimeId)
  | released (id : SessionId) (oneTimeId : OneTimeId)
deriving DecidableEq, Repr

namespace Owner

def key : Owner → SessionId × OneTimeId
  | .waiting ready => (ready.id, ready.oneTimeId)
  | .looking id oneTimeId => (id, oneTimeId)
  | .holding handle _ => (handle.id, handle.oneTimeId)
  | .closing id oneTimeId => (id, oneTimeId)
  | .abandoned id oneTimeId => (id, oneTimeId)
  | .released id oneTimeId => (id, oneTimeId)

end Owner

/-- A socket with the owners of the entries that its connects made, in the order of
the connects. -/
structure Custody (H S : Type) where
  connectionInfo : ConnectionInfo
  handler : Handler H S
  owners : List Owner

namespace Custody

inductive Label where
  | connect (id : SessionId) (info : ConnectionInfo) (ephemeral : Nat) (oneTimeId : OneTimeId)
  | poll (owner : Nat) (waker : Waker)
  | lookUp (owner : Nat)
  | cancel (owner : Nat)
  | clone (owner : Nat)
  | drop (owner : Nat)
  | close (owner : Nat)
  | send (owner : Nat) (data : Bytes)
  | recv (owner : Nat)
  | packet (src : SocketAddr) (data : Bytes) (ephemeral : Nat)
  | keepalive (id : SessionId)
  | checkHeartbeat (id : SessionId)
deriving DecidableEq

def start (connectionInfo : ConnectionInfo) (keypair : SnowKeypair) : Custody H S := ⟨connectionInfo, .new keypair, []⟩

def setOwner (custody : Custody H S) (index : Nat) (owner : Owner) : Custody H S :=
  { custody with owners := custody.owners.set index owner }

/-- The public key decides on the role. -/
def request (custody : Custody H S) (info : ConnectionInfo) (ephemeral : Nat) : Request :=
  if custody.connectionInfo.isInitiator info then .initiate info ephemeral else .respond info

/-- `connect` up to the future that it awaits. `Uuid::new_v4` returns a one-time id
that was not issued before. -/
def connect (snow : Snow H S) (custody : Custody H S) (id : SessionId) (info : ConnectionInfo) (ephemeral : Nat)
    (oneTimeId : OneTimeId) : Option (Custody H S) :=
  if (custody.owners.map fun owner => owner.key.2).contains oneTimeId then none
  else
    match (custody.request info ephemeral).insert snow (custody.handler.removeSession id none) id oneTimeId with
    | (handler, .error _) => some { custody with handler }
    | (handler, .ok ready) => some { custody with handler, owners := custody.owners ++ [.waiting ready] }

def poll (custody : Custody H S) (index : Nat) (ready : SessionReady) (waker : Waker) : Option (Custody H S) :=
  match custody.handler.pollReady ready waker with
  | none => none
  | some (handler, ready, .pending) => some ({ custody with handler }.setOwner index (.waiting ready))
  | some (handler, _, .ready (id, oneTimeId)) =>
    some ({ custody with handler := handler.hangUp oneTimeId }.setOwner index (.looking id oneTimeId))

/-- `connect` after its session is ready. -/
def lookUp (custody : Custody H S) (index : Nat) (id : SessionId) (oneTimeId : OneTimeId) : Custody H S :=
  match custody.handler.remoteAddr id with
  | none => custody.setOwner index (.released id oneTimeId)
  | some _ => custody.setOwner index (.holding ⟨id, oneTimeId⟩ 0)

/-- The future of a connect is dropped. Where the session was ready already, there is
neither a future nor a handle to close it. -/
def cancel (custody : Custody H S) (index : Nat) : Owner → Option (Custody H S)
  | .waiting ready =>
    let custody := { custody with handler := custody.handler.hangUp ready.oneTimeId }
    if ready.completed then some (custody.setOwner index (.released ready.id ready.oneTimeId))
    else some (custody.setOwner index (.closing ready.id ready.oneTimeId))
  | .looking id oneTimeId => some (custody.setOwner index (.abandoned id oneTimeId))
  | _ => none

/-- A clone of a handle is dropped. -/
def drop (custody : Custody H S) (index : Nat) (handle : BidirectionalSession) : Nat → Custody H S
  | 0 => custody.setOwner index (.closing handle.id handle.oneTimeId)
  | others + 1 => custody.setOwner index (.holding handle others)

/-- The task that `close_session` spawned. -/
def close (custody : Custody H S) (index : Nat) (id : SessionId) (oneTimeId : OneTimeId) : Custody H S :=
  { custody with handler := custody.handler.removeSession id (some oneTimeId) }.setOwner index (.released id oneTimeId)

def step (snow : Snow H S) (custody : Custody H S) : Label → Option (Custody H S)
  | .connect id info ephemeral oneTimeId => custody.connect snow id info ephemeral oneTimeId
  | .poll index waker =>
    match custody.owners[index]? with
    | some (.waiting ready) => custody.poll index ready waker
    | _ => none
  | .lookUp index =>
    match custody.owners[index]? with
    | some (.looking id oneTimeId) => some (custody.lookUp index id oneTimeId)
    | _ => none
  | .cancel index =>
    match custody.owners[index]? with
    | some owner => custody.cancel index owner
    | none => none
  | .clone index =>
    match custody.owners[index]? with
    | some (.holding handle others) => some (custody.setOwner index (.holding handle (others + 1)))
    | _ => none
  | .drop index =>
    match custody.owners[index]? with
    | some (.holding handle others) => some (custody.drop index handle others)
    | _ => none
  | .close index =>
    match custody.owners[index]? with
    | some (.closing id oneTimeId) => some (custody.close index id oneTimeId)
    | _ => none
  | .send index data =>
    match custody.owners[index]? with
    | some (.holding handle _) => some { custody with handler := (handle.send snow.toCipher custody.handler data).1 }
    | _ => none
  | .recv index =>
    match custody.owners[index]? with
    | some (.holding handle _) => some { custody with handler := (handle.recv custody.handler).1 }
    | _ => none
  | .packet src data ephemeral =>
    some { custody with handler := custody.handler.step snow (.handleIncoming src data ephemeral) }
  | .keepalive id => some { custody with handler := custody.handler.step snow (.keepalive id) }
  | .checkHeartbeat id => some { custody with handler := custody.handler.step snow (.checkHeartbeat id) }

end Custody
end Veq
