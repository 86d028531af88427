import Veq.Slot

/-! A session with the two tasks that `Session::new` spawns. They hold the
transport, the flags and the wakers of the session and go on when the session is
dropped, until they find out. -/

namespace Veq
open Rust Bincode

variable {S : Type}

/-- `held` says that the session is still in the handler's map, `sending` and
`watching` that the loops of the two tasks are running. -/
structure Spawned (S : Type) where
  session : Session S
  held : Bool
  sending : Bool
  watching : Bool

namespace Spawned

inductive Event where
  | receive (packet : SessionPacket)
  | send (data : Bytes)
  | poll (future : Uuid) (waker : Waker)
  | keepaliveTick
  | heartbeatTick
  | drop
deriving DecidableEq

/-- What an event puts into the outgoing channel and whom it wakes. -/
structure Effect where
  outgoing : List Outgoing
  woken : List Waker
deriving DecidableEq

def new (id : SessionId) (remoteAddr : SocketAddr) (transport : LossyTransportState S) : Spawned S :=
  ⟨.new id remoteAddr transport, true, true, true⟩

/-- One iteration of the loop that keeps the session alive. After an error the loop
goes on before it looks whether the session is dead. -/
def keepaliveTick (cipher : Cipher S) (spawned : Spawned S) : Spawned S × Effect :=
  if spawned.sending then
    match spawned.session.keepalive cipher with
    | (session, .ok outgoing) => ({ spawned with session, sending := !session.dead }, ⟨[outgoing], []⟩)
    | (session, .error (.panic _)) => ({ spawned with session, sending := false }, ⟨[], []⟩)
    | (session, .error _) => ({ spawned with session }, ⟨[], []⟩)
  else (spawned, ⟨[], []⟩)

/-- One iteration of the loop that watches the heartbeat. -/
def heartbeatTick (spawned : Spawned S) : Spawned S × Effect :=
  if spawned.watching then
    let (session, woken) := spawned.session.checkHeartbeat
    ({ spawned with session, watching := spawned.session.heartbeat }, ⟨[], woken⟩)
  else (spawned, ⟨[], []⟩)

def step (cipher : Cipher S) (spawned : Spawned S) : Event → Spawned S × Effect
  | .receive packet =>
    if spawned.held then
      match spawned.session.handleIncoming cipher packet with
      | (session, .ok woken) => ({ spawned with session }, ⟨[], woken.toList⟩)
      | (session, .error _) => ({ spawned with session }, ⟨[], []⟩)
    else (spawned, ⟨[], []⟩)
  | .send data =>
    if spawned.held then
      let (session, result) := spawned.session.send cipher data
      ({ spawned with session }, ⟨(Output.sent result).outgoing, []⟩)
    else (spawned, ⟨[], []⟩)
  | .poll future waker =>
    let (session, _) := spawned.session.poll future waker
    ({ spawned with session }, ⟨[], []⟩)
  | .keepaliveTick => spawned.keepaliveTick cipher
  | .heartbeatTick => spawned.heartbeatTick
  | .drop => ({ spawned with session := spawned.session.close, held := false }, ⟨[], []⟩)

end Spawned
end Veq
