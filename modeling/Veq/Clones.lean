import Veq.Transform
import Veq.Runs

/-! Clones of one chunker. They share the group counter, the chunk groups and the
completed chunks, each behind a lock of its own, and calls on different clones
run concurrently: a call is taken apart at its lock acquisitions. -/

namespace Veq
open Rust Bincode

/-- Where a `send` call stands: before the acquisition that reads the counter,
before the one that writes it, or transmitting with the guard still held. -/
inductive Sending where
  | read (data : ByteVec)
  | write (group : Nat) (data : ByteVec)
  | transmit (rest : List Bytes)
  | returned (result : Except VeqError Unit)
  | panicked (panic : Panic)
  | cancelled
deriving DecidableEq

namespace Sending

def holdsGuard : Sending → Bool
  | .transmit _ => true
  | _ => false

/-- The value of the counter that the call is about to write back, plus one. -/
def hasRead : Sending → Option Nat
  | .write group _ => some group
  | _ => none

end Sending

/-- `stamped` and `emitted` record, for every call, the chunks that it made and
the packets that it handed to its delegate. -/
structure Senders where
  chunkSize : Nat
  currentGroup : Nat
  calls : List Sending
  stamped : List (Nat × Nat × List ChunkedData)
  emitted : List (Nat × Bytes)

namespace Senders

inductive Label where
  | send (data : ByteVec)
  | enter (call : Nat) (answer : Except VeqError Unit)
  | cancel (call : Nat)
deriving DecidableEq

def start (chunkSize : Nat) : Senders := ⟨chunkSize, 0, [], [], []⟩

def locked (senders : Senders) : Bool := senders.calls.any Sending.holdsGuard

def setCall (senders : Senders) (call : Nat) (sending : Sending) : Senders :=
  { senders with calls := senders.calls.set call sending }

/-- One step of a call; `answer` is the delegate's, where it is asked to send. -/
def enter (senders : Senders) (call : Nat) (answer : Except VeqError Unit) : Option Senders :=
  match senders.calls[call]? with
  | some (.read data) =>
    if senders.locked then none else some (senders.setCall call (.write senders.currentGroup data))
  | some (.write group data) =>
    if senders.locked then none
    else
      match addU64 group 1 with
      | .error panic => some (senders.setCall call (.panicked panic))
      | .ok next =>
        let chunks := Chunker.chunked group senders.chunkSize data.val
        some { senders with
          currentGroup := next
          calls := senders.calls.set call (.transmit (chunks.map ChunkedData.codec.encode))
          stamped := senders.stamped ++ [(call, group, chunks)] }
  | some (.transmit []) => some (senders.setCall call (.returned (.ok ())))
  | some (.transmit (data :: rest)) =>
    let senders := { senders with emitted := senders.emitted ++ [(call, data)] }
    match answer with
    | .ok () => some (senders.setCall call (.transmit rest))
    | .error error => some (senders.setCall call (.returned (.error error)))
  | _ => none

def step (senders : Senders) : Label → Option Senders
  | .send data =>
    let first := if senders.chunkSize = 0 then .panicked .chunkSize else .read data
    some { senders with calls := senders.calls ++ [first] }
  | .enter call answer => senders.enter call answer
  | .cancel call =>
    match senders.calls[call]? with
    | some (.read _) | some (.write _ _) | some (.transmit _) => some (senders.setCall call .cancelled)
    | _ => none

end Senders

/-- Where an `add_chunk` call stands: the lock-protected section that it enters
next. -/
inductive Adding where
  | insert (chunk : ChunkedData)
  | remove (groupId : Nat)
  | push (groupId : Nat) (group : ChunkGroup)
  | cleanUp
  | finished
  | panicked (panic : Panic)
deriving DecidableEq

namespace Adding

/-- The group that the call found complete and has not delivered yet. -/
def completing : Adding → Option Nat
  | .remove groupId => some groupId
  | .push groupId _ => some groupId
  | _ => none

end Adding

/-- `delivered` lists the chunks of all calls so far, `reported` the groups that
`is_complete` found complete, `pushed` those whose message was pushed to the
completed chunks and `taken` the messages that were popped from there. -/
structure Receivers (T : Type) where
  chunker : Chunker T
  calls : List Adding
  delivered : List ChunkedData
  reported : List Nat
  pushed : List Nat
  taken : List Bytes

namespace Receivers

variable {T : Type}

inductive Label where
  | addChunk (chunk : ChunkedData)
  | enter (call : Nat)
  | nextReadyChunk
deriving DecidableEq

/-- The chunk that a new call is given. -/
def Label.chunk : Label → Option ChunkedData
  | .addChunk chunk => some chunk
  | .enter _ => none
  | .nextReadyChunk => none

def start (delegate : T) (chunkSize : Nat) : Receivers T := ⟨.new delegate chunkSize, [], [], [], [], []⟩

/-- One section of a call. A panic releases the lock and leaves what was written
before it: a group that `or_insert_with` could make stays in the map. -/
def enter (receivers : Receivers T) (call : Nat) : Option (Receivers T) :=
  match receivers.calls[call]? with
  | some (.insert chunk) =>
    match receivers.chunker.insertChunk chunk with
    | .error panic =>
      let chunkGroups :=
        match Chunker.groupFor receivers.chunker.chunkGroups chunk with
        | .ok group => receivers.chunker.chunkGroups.insert chunk.group group
        | .error _ => receivers.chunker.chunkGroups
      some { receivers with
        chunker := { receivers.chunker with chunkGroups }
        calls := receivers.calls.set call (.panicked panic) }
    | .ok (chunker, true) =>
      some { receivers with
        chunker
        calls := receivers.calls.set call (.remove chunk.group)
        reported := receivers.reported ++ [chunk.group] }
    | .ok (chunker, false) => some { receivers with chunker, calls := receivers.calls.set call .cleanUp }
  | some (.remove groupId) =>
    match receivers.chunker.removeGroup groupId with
    | .error panic => some { receivers with calls := receivers.calls.set call (.panicked panic) }
    | .ok (chunker, group) => some { receivers with chunker, calls := receivers.calls.set call (.push groupId group) }
  | some (.push groupId group) =>
    match receivers.chunker.pushCompleted group with
    | .error panic => some { receivers with calls := receivers.calls.set call (.panicked panic) }
    | .ok chunker =>
      some { receivers with
        chunker
        calls := receivers.calls.set call .cleanUp
        pushed := receivers.pushed ++ [groupId] }
  | some .cleanUp =>
    some { receivers with chunker := receivers.chunker.cleanUp, calls := receivers.calls.set call .finished }
  | _ => none

def step (receivers : Receivers T) : Label → Option (Receivers T)
  | .addChunk chunk =>
    some { receivers with
      calls := receivers.calls ++ [.insert chunk]
      delivered := receivers.delivered ++ [chunk] }
  | .enter call => receivers.enter call
  | .nextReadyChunk =>
    let (chunker, ready) := receivers.chunker.nextReadyChunk
    some { receivers with chunker, taken := receivers.taken ++ ready.toList }

end Receivers
end Veq
