import Veq.Bincode

/-! transform.rs: a chunker splits each message into pieces that fit a datagram
and reassembles the pieces that arrive. Every part of `add_chunk` that runs under
one lock is a definition of its own. -/

namespace Veq
open Rust Bincode

inductive VeqError where
  | disconnected
deriving DecidableEq, Repr

inductive Poll (α : Type) where
  | ready (value : α)
  | pending
deriving DecidableEq, Repr

/-- The trait `Bidirectional`, as the operations of a type that implements it. -/
structure Bidirectional (T : Type) where
  send : T → Bytes → T × Except VeqError Unit
  recv : T → Except Panic (T × Poll (Except VeqError Bytes))

/-- The implementation for `Arc<Mutex<VecDeque<Vec<u8>>>>`. -/
def Bidirectional.queue : Bidirectional (List Bytes) where
  send items data := (items ++ [data], .ok ())
  recv
    | [] => .error .unwrap
    | data :: rest => .ok (rest, .ready (.ok data))

structure ChunkedData where
  group : Nat
  index : Nat
  groupLength : Nat
  data : Bytes
deriving DecidableEq, Repr

def ChunkedData.codec : Codec ChunkedData :=
  (Codec.u64.pair (Codec.u64.pair (Codec.u64.pair Codec.bytes))).isomorphic
    (fun fields => ⟨fields.1, fields.2.1, fields.2.2.1, fields.2.2.2⟩)
    (fun chunk => (chunk.group, chunk.index, chunk.groupLength, chunk.data)) (fun _ => rfl)

theorem ChunkedData.fits {chunk : ChunkedData} (group : chunk.group < 2 ^ 64) (index : chunk.index < 2 ^ 64)
    (groupLength : chunk.groupLength < 2 ^ 64) (data : chunk.data.length < 2 ^ 64) : codec.Fits chunk :=
  ⟨group, index, groupLength, data⟩

theorem ChunkedData.length_encode (chunk : ChunkedData) : (codec.encode chunk).length = chunk.data.length + 32 := by
  simp only [codec, Codec.isomorphic, Codec.refine, Codec.pair, Codec.bytes, Codec.uint, List.length_append,
    length_leBytes]
  omega

structure ChunkGroup where
  chunks : List (Option ChunkedData)
  size : Nat
  groupLength : Nat
deriving DecidableEq, Repr

namespace ChunkGroup

/-- A slot takes 48 bytes, and no vector is larger than `isize::MAX` bytes. -/
def maxSlots : Nat := (2 ^ 63 - 1) / 48

def empty (groupLength : Nat) : ChunkGroup :=
  ⟨List.replicate groupLength none, 0, groupLength⟩

/-- Collecting the slots panics when they exceed what a vector can hold. -/
def new (groupLength : Nat) : Except Panic ChunkGroup :=
  if groupLength ≤ maxSlots then .ok (.empty groupLength) else .error .capacity

/-- The slot is removed and inserted again; `Vec::remove` panics when the index
is out of range. -/
def addChunk (group : ChunkGroup) (chunk : ChunkedData) : Except Panic ChunkGroup :=
  if chunk.index < group.chunks.length then
    .ok { group with
      chunks := (group.chunks.eraseIdx chunk.index).insertIdx chunk.index (some chunk)
      size := group.size + 1 }
  else .error .index

def isComplete (group : ChunkGroup) : Bool :=
  group.size == group.groupLength

/-- The body of the loop of `collect`. -/
def extend (output : Bytes) : Option ChunkedData → Except Panic Bytes
  | some chunk => .ok (output ++ chunk.data)
  | none => .error .unwrap

def collect (group : ChunkGroup) : Except Panic Bytes :=
  group.chunks.foldlM extend []

end ChunkGroup

structure Chunker (T : Type) where
  delegate : T
  chunkSize : Nat
  currentGroup : Nat
  chunkGroups : Std.TreeMap Nat ChunkGroup
  completedChunks : List Bytes

namespace Chunker

variable {T : Type}

def new (delegate : T) (chunkSize : Nat) : Chunker T :=
  ⟨delegate, chunkSize, 0, ∅, []⟩

/-- `or_insert_with`, which makes a group only where there is none. -/
def groupFor (groups : Std.TreeMap Nat ChunkGroup) (chunk : ChunkedData) : Except Panic ChunkGroup :=
  match groups[chunk.group]? with
  | some group => .ok group
  | none => ChunkGroup.new chunk.groupLength

def insertChunk (chunker : Chunker T) (chunk : ChunkedData) : Except Panic (Chunker T × Bool) := do
  let group ← groupFor chunker.chunkGroups chunk
  let group ← group.addChunk chunk
  return ({ chunker with chunkGroups := chunker.chunkGroups.insert chunk.group group }, group.isComplete)

def removeGroup (chunker : Chunker T) (groupId : Nat) : Except Panic (Chunker T × ChunkGroup) :=
  match chunker.chunkGroups[groupId]? with
  | none => .error .unwrap
  | some group => .ok ({ chunker with chunkGroups := chunker.chunkGroups.erase groupId }, group)

def pushCompleted (chunker : Chunker T) (group : ChunkGroup) : Except Panic (Chunker T) := do
  let message ← group.collect
  return { chunker with completedChunks := chunker.completedChunks ++ [message] }

def cleanUp (chunker : Chunker T) : Chunker T :=
  if chunker.chunkGroups.size > 10 then { chunker with chunkGroups := popFirst chunker.chunkGroups } else chunker

def addChunk (chunker : Chunker T) (chunk : ChunkedData) : Except Panic (Chunker T) := do
  let (chunker, isComplete) ← chunker.insertChunk chunk
  if isComplete then
    let (chunker, group) ← chunker.removeGroup chunk.group
    let chunker ← chunker.pushCompleted group
    return chunker.cleanUp
  else
    return chunker.cleanUp

def nextReadyChunk (chunker : Chunker T) : Chunker T × Option Bytes :=
  match chunker.completedChunks with
  | [] => (chunker, none)
  | ready :: rest => ({ chunker with completedChunks := rest }, some ready)

/-- A message for `send`, which holds all its packets at once: with more pieces than
a group has slots they would take more than `isize::MAX` bytes, 57 or more for each. -/
abbrev Sendable (chunkSize : Nat) :=
  { data : Bytes // data.length < 2 ^ 63 ∧ (chunks chunkSize data).length ≤ ChunkGroup.maxSlots }

/-- The pieces of one message, stamped with their group and index. -/
def chunked (group chunkSize : Nat) (data : Bytes) : List ChunkedData :=
  let chunks := chunks chunkSize data
  chunks.mapIdx fun index piece => ⟨group, index, chunks.length, piece⟩

/-- `send` up to its first transmission. -/
def prepare (chunker : Chunker T) (data : Bytes) : Except Panic (Chunker T × List Bytes) :=
  if chunker.chunkSize = 0 then .error .chunkSize
  else do
    let currentGroup ← addU64 chunker.currentGroup 1
    return ({ chunker with currentGroup },
      (chunked chunker.currentGroup chunker.chunkSize data).map ChunkedData.codec.encode)

/-- The transmission loop of `send`, which stops at the first error. -/
def transmit (net : Bidirectional T) (delegate : T) : List Bytes → T × Except VeqError Unit
  | [] => (delegate, .ok ())
  | data :: rest =>
    match net.send delegate data with
    | (delegate, .ok ()) => transmit net delegate rest
    | (delegate, .error error) => (delegate, .error error)

def send (net : Bidirectional T) (chunker : Chunker T) (data : Bytes) :
    Except Panic (Chunker T × Except VeqError Unit) := do
  let (chunker, data) ← chunker.prepare data
  let (delegate, result) := transmit net chunker.delegate data
  return ({ chunker with delegate }, result)

/-- The bytes of one packet: decoded without recovering from an error, then added. -/
def receive (chunker : Chunker T) (bytes : Bytes) : Except Panic (Chunker T) :=
  match ChunkedData.codec.deserialize bytes with
  | none => .error .unwrap
  | some chunkedData => chunker.addChunk chunkedData

/-- One iteration of the loop of `recv`; without a result the loop goes on. -/
def recvStep (net : Bidirectional T) (chunker : Chunker T) :
    Except Panic (Chunker T × Option (Poll (Except VeqError Bytes))) :=
  match chunker.nextReadyChunk with
  | (chunker, some ready) => .ok (chunker, some (.ready (.ok ready)))
  | (chunker, none) => do
    let (delegate, received) ← net.recv chunker.delegate
    let chunker := { chunker with delegate }
    match received with
    | .pending => return (chunker, some .pending)
    | .ready (.error error) => return (chunker, some (.ready (.error error)))
    | .ready (.ok bytes) => return (← chunker.receive bytes, none)

/-- `recv`, for at most `fuel` iterations. -/
def recv (net : Bidirectional T) : Nat → Chunker T →
    Except Panic (Chunker T × Option (Poll (Except VeqError Bytes)))
  | 0, chunker => .ok (chunker, none)
  | fuel + 1, chunker => do
    match ← chunker.recvStep net with
    | (chunker, none) => recv net fuel chunker
    | finished => return finished

end Chunker
end Veq
