import Veq.Session
import Veq.Runs

/-! The end of a session and the futures that wait on it. A poll looks at the flag
`dead`, at the queue and at the wakers, one after the other; the task that finds no
heartbeat sets the flag and then wakes the wakers. Each of these is a step of its
own here, so that others can come between. -/

namespace Veq
open Rust

/-- Where the poll of a `Receiving` stands. In `opened` it has found the session
alive, in `checked` the queue empty; in `taken` it has a payload. -/
inductive Polling where
  | created
  | opened (waker : Waker)
  | checked (waker : Waker)
  | pending (waker : Waker)
  | taken (data : Bytes)
  | ready (result : Except VeqError Bytes)
  | dropped

namespace Polling

/-- The waker of a poll that has not returned a result. -/
def waker : Polling → Option Waker
  | .opened waker => some waker
  | .checked waker => some waker
  | .pending waker => some waker
  | _ => none

/-- The poll found the session alive and has not registered its waker. -/
def isOpen : Polling → Bool
  | .opened _ => true
  | .checked _ => true
  | _ => false

def isPending : Polling → Bool
  | .pending _ => true
  | _ => false

/-- The future can be polled or dropped. -/
def isResting : Polling → Bool
  | .created => true
  | .pending _ => true
  | _ => false

end Polling

/-- A `Receiving`. `called` records whether the waker of its last poll has been
woken since that poll began. -/
structure Waiting where
  id : Uuid
  polling : Polling
  called : Bool

def Waiting.wake (wakers : List Waker) (waiting : Waiting) : Waiting :=
  if ∃ waker ∈ wakers, waiting.polling.waker = some waker then { waiting with called := true } else waiting

/-- Where the task that watches the heartbeat stands. -/
inductive Watcher where
  | watching
  | stored
  | ended
deriving DecidableEq, Repr

structure Vigil where
  messages : List Bytes
  wakers : Std.TreeMap Uuid Waker
  delivering : Bool
  dead : Bool
  watcher : Watcher
  futures : List Waiting

namespace Vigil

inductive Label where
  | recv (id : Uuid)
  | loadDead (future : Nat) (waker : Waker)
  | tryRecv (future : Nat)
  | updateWakers (future : Nat)
  | drop (future : Nat)
  | push (data : Bytes)
  | wakeFirst
  | close
  | storeDead
  | wakeAll
deriving DecidableEq

def start : Vigil := ⟨[], ∅, false, false, .watching, []⟩

def set (vigil : Vigil) (future : Nat) (waiting : Waiting) : Vigil :=
  { vigil with futures := vigil.futures.set future waiting }

def wake (vigil : Vigil) (wakers : List Waker) : Vigil := { vigil with futures := vigil.futures.map (Waiting.wake wakers) }

/-- `recv` makes a future only while the session lives. The ids of the futures are
drawn at random and taken to be different. -/
def step (vigil : Vigil) : Label → Option Vigil
  | .recv id =>
    if vigil.dead || (vigil.futures.map Waiting.id).contains id then none
    else some { vigil with futures := vigil.futures ++ [⟨id, .created, false⟩] }
  | .loadDead future waker =>
    match vigil.futures[future]? with
    | none => none
    | some waiting =>
      if waiting.polling.isResting then
        if vigil.dead then some (vigil.set future ⟨waiting.id, .ready (.error .disconnected), false⟩)
        else some (vigil.set future ⟨waiting.id, .opened waker, false⟩)
      else none
  | .tryRecv future =>
    match vigil.futures[future]? with
    | some ⟨id, .opened waker, called⟩ =>
      match vigil.messages with
      | data :: rest => some ({ vigil with messages := rest }.set future ⟨id, .taken data, called⟩)
      | [] => some (vigil.set future ⟨id, .checked waker, called⟩)
    | _ => none
  | .updateWakers future =>
    match vigil.futures[future]? with
    | some ⟨id, .checked waker, called⟩ =>
      some ({ vigil with wakers := vigil.wakers.insert id waker }.set future ⟨id, .pending waker, called⟩)
    | some ⟨id, .taken data, called⟩ =>
      some ({ vigil with wakers := vigil.wakers.erase id }.set future ⟨id, .ready (.ok data), called⟩)
    | _ => none
  | .drop future =>
    match vigil.futures[future]? with
    | none => none
    | some waiting =>
      if waiting.polling.isResting then some (vigil.set future { waiting with polling := .dropped }) else none
  | .push data =>
    if vigil.delivering then none
    else some { vigil with messages := vigil.messages ++ [data], delivering := true }
  | .wakeFirst =>
    if vigil.delivering then
      some ({ vigil with wakers := popFirst vigil.wakers, delivering := false }.wake
        ((firstEntry vigil.wakers).map Prod.snd).toList)
    else none
  | .close => some { vigil with dead := true }
  | .storeDead =>
    match vigil.watcher with
    | .watching => some { vigil with dead := true, watcher := .stored }
    | _ => none
  | .wakeAll =>
    match vigil.watcher with
    | .stored => some ({ vigil with watcher := .ended }.wake vigil.wakers.values)
    | _ => none

end Vigil
end Veq
