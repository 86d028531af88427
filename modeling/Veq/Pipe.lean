import Veq.Link
import Veq.Runs

/-! One direction of an established session over a network that keeps the order of
its datagrams and may lose some: from the `send` of one handle to the `recv` of the
other, through the chunker, the session and the transport on both ends. -/

namespace Veq
open Rust Bincode

variable {S : Type}

/-- `outbox` is what the current send has still to transmit. `wire` holds the
datagrams on their way, each with the message that it was made of; `sent`, `lost`
and `returned` record what was passed to `send`, what the network lost and what
`recv` returned. -/
structure Pipe (S : Type) where
  writer : Chunker (Session S)
  outbox : List Bytes
  sent : List Bytes
  wire : List (Bytes × Message)
  lost : List Message
  reader : Chunker (Session S)
  returned : List Bytes

namespace Pipe

inductive Label where
  | send (data : ByteVec)
  | transmit
  | keepalive
  | deliver
  | lose
  | recv (receiving : Uuid) (waker : Waker)
deriving DecidableEq

def start (id : SessionId) (writerAddr readerAddr : SocketAddr) (writer reader : S) : Pipe S where
  writer := .connected (.new id readerAddr (.fromStateless writer))
  outbox := []
  sent := []
  wire := []
  lost := []
  reader := .connected (.new id writerAddr (.fromStateless reader))
  returned := []

/-- The datagram that the socket makes of a packet enters the network. -/
def emit (pipe : Pipe S) (message : Message) (packet : SessionPacket) : Pipe S :=
  { pipe with wire := pipe.wire ++ [(SessionPacket.codec.encode packet, message)] }

/-- One iteration of the transmission loop of `send`. -/
def transmit (cipher : Cipher S) (pipe : Pipe S) (data : Bytes) (outbox : List Bytes) : Pipe S :=
  match pipe.writer.delegate.send cipher data with
  | (delegate, .ok (_, packet, _)) =>
    emit { pipe with writer := { pipe.writer with delegate }, outbox } (.payload data) packet
  | (delegate, .error _) => { pipe with writer := { pipe.writer with delegate }, outbox := [] }

def keepalive (cipher : Cipher S) (pipe : Pipe S) : Pipe S :=
  match pipe.writer.delegate.keepalive cipher with
  | (delegate, .ok (_, packet, _)) => emit { pipe with writer := { pipe.writer with delegate } } .keepalive packet
  | (delegate, .error _) => { pipe with writer := { pipe.writer with delegate } }

/-- What the handler does with a datagram for its established session. -/
def deliver (cipher : Cipher S) (reader : Chunker (Session S)) (datagram : Bytes) : Chunker (Session S) :=
  match SessionPacket.codec.deserialize datagram with
  | none => reader
  | some packet =>
    if packet.id = reader.delegate.id then
      { reader with delegate := (reader.delegate.handleIncoming cipher packet).1 }
    else reader

/-- A handle sends one message after the other. A run ends where the code panics. -/
def step (cipher : Cipher S) (pipe : Pipe S) : Label → Option (Pipe S)
  | .send data =>
    if pipe.outbox = [] then
      match pipe.writer.prepare data.val with
      | .ok (writer, outbox) => some { pipe with writer, outbox, sent := pipe.sent ++ [data.val] }
      | .error _ => none
    else none
  | .transmit =>
    match pipe.outbox with
    | [] => none
    | data :: outbox => some (pipe.transmit cipher data outbox)
  | .keepalive => some (pipe.keepalive cipher)
  | .deliver =>
    match pipe.wire with
    | [] => none
    | (datagram, _) :: wire => some { pipe with wire, reader := deliver cipher pipe.reader datagram }
  | .lose =>
    match pipe.wire with
    | [] => none
    | (_, message) :: wire => some { pipe with wire, lost := pipe.lost ++ [message] }
  | .recv receiving waker =>
    match pipe.reader.recvStep (bidirectionalSession cipher receiving waker) with
    | .ok (reader, some (.ready (.ok data))) => some { pipe with reader, returned := pipe.returned ++ [data] }
    | .ok (reader, _) => some { pipe with reader }
    | .error _ => none

end Pipe
end Veq
