import Veq.Wire

/-! dualstack/: UDP sockets of either family, and one socket made of two. What the
operating system does is part of a socket here: the datagrams that wait to be read,
and what it refuses. -/

namespace Veq
open Rust

inductive Family where
  | v4
  | v6
deriving DecidableEq, Repr

def SocketAddr.family : SocketAddr → Family
  | .v4 _ _ => .v4
  | .v6 _ _ => .v6

inductive IoError where
  | invalidInput
  | system
deriving DecidableEq, Repr

/-- The payload of a UDP datagram, whose length is a 16-bit number. -/
structure Payload where
  data : Bytes
  fits : data.length < 2 ^ 16

structure Transmission where
  destination : SocketAddr
  data : Bytes
  ttl : Option Nat
deriving DecidableEq, Repr

/-- tokio's `UdpSocket`. `refusesTtl` and `refuses` are what the operating system
will answer to the calls to come: call number 0 is the next one. -/
structure UdpSocket where
  localAddr : Except IoError SocketAddr
  inbox : List (Except IoError (SocketAddr × Payload))
  ttl : Option Nat
  sent : List Transmission
  refusesTtl : Nat → Bool
  refuses : Nat → Bool

namespace UdpSocket

/-- None while there is nothing to read. What does not fit the buffer is lost. -/
def recvFrom (socket : UdpSocket) (buf : Bytes) : Option (UdpSocket × Bytes × Except IoError (Nat × SocketAddr)) :=
  match socket.inbox with
  | [] => none
  | .error error :: inbox => some ({ socket with inbox }, buf, .error error)
  | .ok (src, payload) :: inbox =>
    let len := min payload.data.length buf.length
    some ({ socket with inbox }, payload.data.take len ++ buf.drop len, .ok (len, src))

def setTtl (socket : UdpSocket) (ttl : Nat) : UdpSocket × Except IoError Unit :=
  let refusesTtl := fun call => socket.refusesTtl (call + 1)
  if socket.refusesTtl 0 then ({ socket with refusesTtl }, .error .system)
  else ({ socket with ttl := some ttl, refusesTtl }, .ok ())

def sendTo (socket : UdpSocket) (buf : Bytes) (addr : SocketAddr) : UdpSocket × Except IoError Nat :=
  let refuses := fun call => socket.refuses (call + 1)
  if socket.refuses 0 then ({ socket with refuses }, .error .system)
  else ({ socket with sent := socket.sent ++ [⟨addr, buf, socket.ttl⟩], refuses }, .ok buf.length)

end UdpSocket

/-- tokio's `select!` of two futures, with the one that it polls first. -/
def select {α : Type} (first : Bool) (left right : Option α) : Option α :=
  match first, left, right with
  | true, some value, _ => some value
  | true, none, right => right
  | false, _, some value => some value
  | false, left, none => left

theorem select_some {α : Type} {first : Bool} {left right : Option α} {value : α}
    (ready : select first left right = some value) : left = some value ∨ right = some value := by
  unfold select at ready
  split at ready
  · exact .inl ready
  · exact .inr ready
  · exact .inr ready
  · exact .inl ready

theorem select_none {α : Type} {first : Bool} {left right : Option α} :
    select first left right = none ↔ left = none ∧ right = none := by
  cases first <;> cases left <;> cases right <;> simp [select]

/-- The trait of the sockets. `first` is the branch that a `select!` polls first. -/
class BidirSocket (σ : Type) where
  recvFrom : σ → Bool → Bytes → Option (σ × Bytes × Except IoError (Nat × SocketAddr))
  setTtl : σ → Nat → σ × Except IoError Unit
  sendTo : σ → Bytes → SocketAddr → σ × Except IoError Nat

class MaybeDual (σ : Type) where
  v4 : σ → Option UdpSocket
  v6 : σ → Option UdpSocket

inductive VersionedSocket where
  | v4 (socket : UdpSocket)
  | v6 (socket : UdpSocket)

namespace VersionedSocket

/-- `bind`, with the result of parsing the address and the sockets that the
operating system opens. -/
def bind (parsed : Option SocketAddr) (opened : SocketAddr → Except IoError UdpSocket) : Except IoError VersionedSocket :=
  match parsed with
  | some (.v4 ip port) => (opened (.v4 ip port)).map .v4
  | some (.v6 ip port) => (opened (.v6 ip port)).map .v6
  | none => .error .invalidInput

def family : VersionedSocket → Family
  | .v4 _ => .v4
  | .v6 _ => .v6

def udp : VersionedSocket → UdpSocket
  | .v4 socket => socket
  | .v6 socket => socket

instance : BidirSocket VersionedSocket where
  recvFrom
    | .v4 socket, _, buf => (socket.recvFrom buf).map fun (socket, buf, result) => (.v4 socket, buf, result)
    | .v6 socket, _, buf => (socket.recvFrom buf).map fun (socket, buf, result) => (.v6 socket, buf, result)
  setTtl
    | .v4 socket, ttl => ((socket.setTtl ttl).1 |> .v4, (socket.setTtl ttl).2)
    | .v6 socket, ttl => ((socket.setTtl ttl).1 |> .v6, (socket.setTtl ttl).2)
  sendTo
    | .v4 socket, buf, addr => ((socket.sendTo buf addr).1 |> .v4, (socket.sendTo buf addr).2)
    | .v6 socket, buf, addr => ((socket.sendTo buf addr).1 |> .v6, (socket.sendTo buf addr).2)

instance : MaybeDual VersionedSocket where
  v4
    | .v4 socket => some socket
    | .v6 _ => none
  v6
    | .v4 _ => none
    | .v6 socket => some socket

end VersionedSocket

structure DualSocket (σ τ : Type) where
  v4Socket : σ
  v6Socket : τ

namespace DualSocket

variable {σ τ : Type} [BidirSocket σ] [BidirSocket τ]

/-- A branch of the `select!` in `recv_from`, which has a buffer of its own. -/
def readV4 (socket : DualSocket σ τ) (first : Bool) (size : Nat) :
    Option (DualSocket σ τ × Bytes × Except IoError (Nat × SocketAddr)) :=
  (BidirSocket.recvFrom socket.v4Socket first (List.replicate size 0)).map fun (v4Socket, v4Buf, result) =>
    ({ socket with v4Socket }, v4Buf.take size, result)

def readV6 (socket : DualSocket σ τ) (first : Bool) (size : Nat) :
    Option (DualSocket σ τ × Bytes × Except IoError (Nat × SocketAddr)) :=
  (BidirSocket.recvFrom socket.v6Socket first (List.replicate size 0)).map fun (v6Socket, v6Buf, result) =>
    ({ socket with v6Socket }, v6Buf.take size, result)

/-- The branch that is not taken has read nothing. -/
def recvFrom (socket : DualSocket σ τ) (first : Bool) (buf : Bytes) :
    Option (DualSocket σ τ × Bytes × Except IoError (Nat × SocketAddr)) :=
  select first (socket.readV4 first buf.length) (socket.readV6 first buf.length)

def setTtl (socket : DualSocket σ τ) (ttl : Nat) : DualSocket σ τ × Except IoError Unit :=
  match BidirSocket.setTtl socket.v4Socket ttl with
  | (v4Socket, .error error) => ({ socket with v4Socket }, .error error)
  | (v4Socket, .ok ()) =>
    match BidirSocket.setTtl socket.v6Socket ttl with
    | (v6Socket, result) => (⟨v4Socket, v6Socket⟩, result)

def sendTo (socket : DualSocket σ τ) (buf : Bytes) (addr : SocketAddr) : DualSocket σ τ × Except IoError Nat :=
  match addr with
  | .v4 _ _ =>
    let (v4Socket, result) := BidirSocket.sendTo socket.v4Socket buf addr
    ({ socket with v4Socket }, result)
  | .v6 _ _ =>
    let (v6Socket, result) := BidirSocket.sendTo socket.v6Socket buf addr
    ({ socket with v6Socket }, result)

instance : BidirSocket (DualSocket σ τ) where
  recvFrom := recvFrom
  setTtl := setTtl
  sendTo := sendTo

instance {σ : Type} [MaybeDual σ] : MaybeDual (DualSocket σ σ) where
  v4 socket := MaybeDual.v4 socket.v4Socket
  v6 socket := MaybeDual.v6 socket.v6Socket

/-- Both sockets are opened, and an error of the first is reported first. -/
def dualstack (v4Socket v6Socket : Except IoError UdpSocket) : Except IoError (DualSocket VersionedSocket VersionedSocket) := do
  let v4Socket ← v4Socket
  let v6Socket ← v6Socket
  return ⟨.v4 v4Socket, .v6 v6Socket⟩

end DualSocket
end Veq
