import Veq.Dualstack
import Veq.Lineage
import Veq.Machines

/-! What `VeqSocket::from_socket` sets up: the addresses of a socket, and the two
tasks that move datagrams between the socket and its handler. -/

namespace Veq
open Rust Bincode Machines

inductive IpAddr where
  | v4 (ip : BitVec 32)
  | v6 (ip : BitVec 128)
deriving DecidableEq, Repr

namespace IpAddr

def isUnspecified : IpAddr → Bool
  | .v4 ip => ip == 0
  | .v6 ip => ip == 0

end IpAddr

namespace SocketAddr

def ip : SocketAddr → IpAddr
  | .v4 ip _ => .v4 ip
  | .v6 ip _ => .v6 ip

def port : SocketAddr → UInt16
  | .v4 _ port => port
  | .v6 _ port => port

def setPort : SocketAddr → UInt16 → SocketAddr
  | .v4 ip _, port => .v4 ip port
  | .v6 ip _, port => .v6 ip port

end SocketAddr

/-- What the host tells about itself: the addresses of its network interfaces, the
addresses of the STUN server, and the answers of the server. -/
structure Surroundings where
  interfaces : Except IoError (List (List IpAddr))
  stunAddrs : Option (List SocketAddr)
  externalAddress : SocketAddr → Except IoError SocketAddr

namespace Surroundings

def localIpsV4 (host : Surroundings) (port : UInt16) : Except IoError (List SocketAddr) :=
  host.interfaces.map fun interfaces => interfaces.flatten.filterMap fun
    | .v4 ip => some (.v4 ip port)
    | .v6 _ => none

def localIpsV6 (host : Surroundings) (port : UInt16) : Except IoError (List SocketAddr) :=
  host.interfaces.map fun interfaces => interfaces.flatten.filterMap fun
    | .v4 _ => none
    | .v6 ip => some (.v6 ip port)

def stunAddr (host : Surroundings) (family : Family) : Option SocketAddr :=
  host.stunAddrs.bind (List.find? fun addr => addr.family == family)

def publicV4 (host : Surroundings) : List SocketAddr :=
  match host.stunAddr .v4 with
  | none => []
  | some server =>
    match host.externalAddress server with
    | .ok addr => [addr]
    | .error _ => []

/-- The external address is also taken with the port that the socket is bound to. -/
def publicV6 (host : Surroundings) (socket : UdpSocket) : Except IoError (List SocketAddr) :=
  match host.stunAddr .v6 with
  | none => .ok []
  | some server =>
    match host.externalAddress server with
    | .ok addr => socket.localAddr.map fun bound => [addr, addr.setPort bound.port]
    | .error _ => .ok []

/-- A `HashSet` as the list of its elements. -/
def extend (ips : List SocketAddr) (addrs : List SocketAddr) : List SocketAddr :=
  addrs.foldl (fun ips addr => ips.insert addr) ips

def discoverV4 (host : Surroundings) (ips : List SocketAddr) : Option UdpSocket → Except IoError (List SocketAddr)
  | none => .ok ips
  | some socket => do
    let bound ← socket.localAddr
    let found ← host.localIpsV4 bound.port
    return extend (extend (ips.insert bound) found) host.publicV4

/-- An error of `publicV6` is passed over. -/
def discoverV6 (host : Surroundings) (ips : List SocketAddr) : Option UdpSocket → Except IoError (List SocketAddr)
  | none => .ok ips
  | some socket => do
    let bound ← socket.localAddr
    let found ← host.localIpsV6 bound.port
    return extend (extend (ips.insert bound) found) ((host.publicV6 socket).toOption.getD [])

def discoverIps {σ : Type} [MaybeDual σ] (host : Surroundings) (socket : σ) : Except IoError (List SocketAddr) := do
  let ips ← host.discoverV4 [] (MaybeDual.v4 socket)
  let ips ← host.discoverV6 ips (MaybeDual.v6 socket)
  return ips.filter fun addr => !addr.ip.isUnspecified

end Surroundings

variable {H S σ : Type}

/-- A socket with its handler, the tasks that outlive the handler's sessions, and the
channel between them and the task that sends. `accesses` records what was done with
the handler and which tasks ticked, and `taken` what was taken from the channel. -/
structure Driver (σ H S : Type) where
  connectionInfo : ConnectionInfo
  socket : σ
  handler : Attended H S
  outgoing : List Outgoing
  accesses : List Attended.Label
  taken : List Outgoing

namespace Driver

inductive Label where
  | receive (first : Bool) (ephemeral : Nat)
  | transmit
  | perform (access : Attended.Label)

def fromSocket [MaybeDual σ] (host : Surroundings) (socket : σ) (keypair : SnowKeypair) : Except IoError (Driver σ H S) := do
  let addresses ← host.discoverIps socket
  return ⟨⟨addresses, keypair.publicKey⟩, socket, .new keypair, [], [], []⟩

theorem fromSocket_ok [MaybeDual σ] {host : Surroundings} {socket : σ} {keypair : SnowKeypair} {driver : Driver σ H S}
    (made : fromSocket host socket keypair = .ok driver) :
    ∃ addresses, host.discoverIps socket = .ok addresses ∧
      driver = ⟨⟨addresses, keypair.publicKey⟩, socket, .new keypair, [], [], []⟩ := by
  obtain ⟨addresses, found, same⟩ := bind_ok.mp made
  cases same
  exact ⟨addresses, found, rfl⟩

/-- Whatever an access puts into the outgoing channel is behind what is there. -/
def perform (snow : Snow H S) (driver : Driver σ H S) (access : Attended.Label) : Driver σ H S :=
  let (handler, answer) := driver.handler.step snow access
  { driver with handler, outgoing := driver.outgoing ++ answer.output.outgoing, accesses := driver.accesses ++ [access] }

/-- One round of the task that reads the socket. -/
def receive [BidirSocket σ] (snow : Snow H S) (driver : Driver σ H S) (first : Bool) (ephemeral : Nat) :
    Option (Driver σ H S) :=
  match BidirSocket.recvFrom driver.socket first (List.replicate 65536 0) with
  | none => none
  | some (socket, buf, .ok (len, src)) =>
    some ({ driver with socket }.perform snow (.access (.operate (.handleIncoming src (buf.take len) ephemeral))))
  | some (socket, _, .error _) => some { driver with socket }

/-- One round of the task that writes the socket. -/
def transmit [BidirSocket σ] (driver : Driver σ H S) : Option (Driver σ H S) :=
  match driver.outgoing with
  | [] => none
  | (dest, packet, ttl) :: outgoing =>
    let (socket, _) := BidirSocket.setTtl driver.socket ttl
    let (socket, _) := BidirSocket.sendTo socket (SessionPacket.codec.encode packet) dest
    some { driver with socket, outgoing, taken := driver.taken ++ [(dest, packet, ttl)] }

/-- Datagrams come from the socket only. -/
def step [BidirSocket σ] (snow : Snow H S) (driver : Driver σ H S) : Label → Option (Driver σ H S)
  | .receive first ephemeral => driver.receive snow first ephemeral
  | .transmit => driver.transmit
  | .perform access => if access.isDatagram then none else some (driver.perform snow access)

def run [BidirSocket σ] (snow : Snow H S) (driver : Driver σ H S) (labels : List Label) : Option (Driver σ H S) :=
  labels.foldlM (step snow) driver

end Driver

/-- A socket made of UDP sockets: each read takes the oldest datagram of one of
them, and each write goes to the one that the destination belongs to. -/
class Wired (σ : Type) [BidirSocket σ] (ι : outParam Type) [DecidableEq ι] where
  udp : σ → ι → UdpSocket
  route : SocketAddr → ι
  recvFrom_none : ∀ socket first buf, BidirSocket.recvFrom socket first buf = none ↔ ∀ index, (udp socket index).inbox = []
  recvFrom_some : ∀ socket first buf next read result, BidirSocket.recvFrom socket first buf = some (next, read, result) →
    ∃ index scratch taken, scratch.length = buf.length ∧
      (udp socket index).recvFrom scratch = some (taken, read, result) ∧
      udp next = Function.update (udp socket) index taken
  setTtl_udp : ∀ socket ttl index, ∃ hops refusesTtl,
    udp (BidirSocket.setTtl socket ttl).1 index = { udp socket index with ttl := hops, refusesTtl }
  setTtl_ttl : ∀ socket ttl, (∀ index, (udp socket index).refusesTtl = fun _ => false) →
    ∀ index, udp (BidirSocket.setTtl socket ttl).1 index = { udp socket index with ttl := some ttl }
  sendTo_udp : ∀ socket buf addr, udp (BidirSocket.sendTo socket buf addr).1 =
    Function.update (udp socket) (route addr) ((udp socket (route addr)).sendTo buf addr).1

end Veq
