import Veq.Driver
import Veq.Rendezvous

/-! bin.rs: the connection string that a user copies to the peer. The addresses and
the public key of a socket are serialized, compressed and encoded as text; the
peer undoes this, whatever blanks the text has picked up on the way, and reads
nothing behind the end of the line. -/

namespace Veq
open Rust Bincode

namespace SocketAddr

def portCodec : Codec UInt16 :=
  (Codec.uint 2).isomorphic UInt16.ofNat UInt16.toNat (fun _ => UInt16.ofNat_toNat)

def ipCodec (width : Nat) : Codec (BitVec (8 * width)) :=
  (Codec.octets width).isomorphic (BitVec.ofNat (8 * width)) BitVec.toNat
    (fun ip => (BitVec.ofNat_toNat _ ip).trans (BitVec.setWidth_eq ip))

def tag : SocketAddr → Nat
  | .v4 _ _ => 0
  | .v6 _ _ => 1

def variants : Nat → Option (Codec SocketAddr)
  | 0 => some (((ipCodec 4).pair portCodec).variant (fun fields => .v4 fields.1 fields.2)
      (fun addr => match addr with | .v4 ip port => some (ip, port) | .v6 _ _ => none) (by rintro (_ | _) <;> simp))
  | 1 => some (((ipCodec 16).pair portCodec).variant (fun fields => .v6 fields.1 fields.2)
      (fun addr => match addr with | .v4 _ _ => none | .v6 ip port => some (ip, port)) (by rintro (_ | _) <;> simp))
  | _ => none

def codec : Codec SocketAddr := Codec.tagged tag variants

end SocketAddr

def ConnectionInfo.codec : Codec ConnectionInfo :=
  (SocketAddr.codec.set.pair Codec.bytes).isomorphic (fun fields => ⟨fields.1, fields.2⟩)
    (fun info => (info.addresses, info.publicKey)) (fun _ => rfl)

structure ConnectionData where
  id : Uuid
  connInfo : ConnectionInfo
deriving DecidableEq, Repr

def ConnectionData.codec : Codec ConnectionData :=
  (Uuid.codec.pair ConnectionInfo.codec).isomorphic (fun fields => ⟨fields.1, fields.2⟩)
    (fun data => (data.id, data.connInfo)) (fun _ => rfl)

/-- zstd and base64: each can be undone, and the text has no blanks. -/
structure Armour where
  compress : Bytes → Bytes
  decompress : Bytes → Option Bytes
  decompress_compress : ∀ data, decompress (compress data) = some data
  encode : Bytes → List Char
  decode : List Char → Option Bytes
  decode_encode : ∀ data, decode (encode data) = some data
  solid : ∀ data, '\n' ∉ encode data ∧ ' ' ∉ encode data

/-- `BufRead::read_line`: the input to the first line end, which belongs to the line. -/
def readLine : List Char → List Char
  | [] => []
  | char :: rest => if char = '\n' then [char] else char :: readLine rest

namespace Armour

def isBlank (char : Char) : Bool := char == '\n' || char == ' '

/-- The connection string that a program prints. -/
def print (armour : Armour) (data : ConnectionData) : List Char :=
  armour.encode (armour.compress (ConnectionData.codec.encode data))

/-- What a program makes of what its user enters; it panics otherwise. -/
def read (armour : Armour) (input : List Char) : Option ConnectionData := do
  let compressed ← armour.decode ((readLine input).filter fun char => !isBlank char)
  let serialized ← armour.decompress compressed
  ConnectionData.codec.deserialize serialized

end Armour

namespace Console

/-- The data of a program: every program uses the same session id. -/
def ownData {σ H S : Type} (driver : Driver σ H S) : ConnectionData := ⟨0, driver.connectionInfo⟩

/-- What `main` does with the handler once the line of the peer is read. -/
def connect {σ H S : Type} (driver : Driver σ H S) (peer : ConnectionData) (ephemeral : Nat) (oneTimeId : OneTimeId) : Access :=
  driver.connectionInfo.connect peer.connInfo peer.id ephemeral oneTimeId

end Console
end Veq
