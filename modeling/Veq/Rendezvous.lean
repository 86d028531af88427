import Veq.Network
import Veq.Runs
import Veq.Slot

/-! Two sockets that connect to each other under one session id, over a network
that loses, repeats, delays and reorders their datagrams. Meanwhile each socket
goes on with its other sessions. -/

namespace Veq
open Rust Bincode

variable {H S : Type}

namespace ConnectionInfo

/-- `VeqSocket::is_initiator`: the socket whose public key comes first. -/
def isInitiator (own info : ConnectionInfo) : Bool := own.publicKey < info.publicKey

/-- The call of `VeqSocket::connect` on the handler. -/
def connect (own info : ConnectionInfo) (id : SessionId) (ephemeral : Nat) (oneTimeId : OneTimeId) : Access :=
  if own.isInitiator info then .operate (.initiate id info ephemeral oneTimeId) else .operate (.respond id info oneTimeId)

end ConnectionInfo

/-- A datagram of `host` to `destination` reaches the other host when it has a
route, and the route is the source that the other host sees. -/
structure Peers where
  id : SessionId
  keypairs : Host → SnowKeypair
  addresses : Host → List SocketAddr
  route : Host → SocketAddr → Option SocketAddr

def Peers.info (peers : Peers) (host : Host) : ConnectionInfo := ⟨peers.addresses host, (peers.keypairs host).publicKey⟩

structure Datagram where
  sender : Host
  destination : SocketAddr
  packet : SessionPacket
deriving DecidableEq, Repr

/-- `sent` holds every datagram that was ever sent, since each of them may still
arrive, any number of times. -/
structure Rendezvous (H S : Type) where
  handlers : Host → Handler H S
  sent : List Datagram
  joined : List Host

namespace Rendezvous

inductive Label where
  | connect (host : Host) (ephemeral : Nat) (oneTimeId : OneTimeId)
  | access (host : Host) (access : Access)
  | deliver (index : Nat) (ephemeral : Nat)
deriving DecidableEq

def start (peers : Peers) : Rendezvous H S := ⟨fun host => .new (peers.keypairs host), [], []⟩

/-- An access to the handler of a host; what enters its outgoing channel is sent. -/
def perform (snow : Snow H S) (state : Rendezvous H S) (host : Host) (access : Access) : Rendezvous H S :=
  let (handler, output) := (state.handlers host).access snow access
  { state with
    handlers := Function.update state.handlers host handler
    sent := state.sent ++ output.outgoing.map fun outgoing => ⟨host, outgoing.1, outgoing.2.1⟩ }

/-- A datagram without a route is lost. -/
def deliver (snow : Snow H S) (peers : Peers) (state : Rendezvous H S) (ephemeral : Nat) (datagram : Datagram) :
    Rendezvous H S :=
  match peers.route datagram.sender datagram.destination with
  | none => state
  | some src =>
    state.perform snow datagram.sender.other
      (.operate (.handleIncoming src (SessionPacket.codec.encode datagram.packet) ephemeral))

/-- Everything but a connect or a datagram of the session under consideration. -/
def permits (peers : Peers) (access : Access) : Bool :=
  !access.concerns peers.id || access.info?.isNone && !access.isDatagram

/-- Each host connects once under the id. -/
def step (snow : Snow H S) (peers : Peers) (state : Rendezvous H S) : Label → Option (Rendezvous H S)
  | .connect host ephemeral oneTimeId =>
    if state.joined.contains host then none
    else
      let access := (peers.info host).connect (peers.info host.other) peers.id ephemeral oneTimeId
      some { state.perform snow host access with joined := host :: state.joined }
  | .access host access => if permits peers access then some (state.perform snow host access) else none
  | .deliver index ephemeral => (state.sent[index]?).map (state.deliver snow peers ephemeral)

/-- The next tick of the tasks of a host. The keepalive task of a dead session may
have ended. -/
def tick (snow : Snow H S) (peers : Peers) (state : Rendezvous H S) (host : Host) : Rendezvous H S :=
  let state := state.perform snow host (.retransmit peers.id)
  match (state.handlers host).establishedSessions peers.id with
  | none => state
  | some (_, session) => if session.isDead then state else state.perform snow host (.operate (.keepalive peers.id))

/-- A tick of a host, all of whose datagrams arrive. -/
def exchange (snow : Snow H S) (peers : Peers) (ephemeral : Nat) (state : Rendezvous H S) (host : Host) : Rendezvous H S :=
  let ticked := state.tick snow peers host
  (ticked.sent.drop state.sent.length).foldl (deliver snow peers · ephemeral ·) ticked

end Rendezvous
end Veq
