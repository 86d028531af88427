import Veq.Handler
import Veq.Runs

/-! Polls and the calls that wake them. A poll asks its channel and updates the
wakers in two steps, and so do the calls that deliver: each is taken apart here,
so that other steps can come between. -/

namespace Veq
open Rust

/-- Where a future stands. In `checked` and `taken` a poll is in progress: it has
asked the channel and not reached the wakers yet. -/
inductive Progress (α : Type) where
  | created
  | checked (waker : Waker)
  | pending (waker : Waker)
  | taken (value : α)
  | ready (value : α)
  | dropped
deriving DecidableEq, Repr

namespace Progress

variable {α : Type}

/-- The waker of the last poll, if that poll found nothing. -/
def waker : Progress α → Option Waker
  | .checked waker => some waker
  | .pending waker => some waker
  | _ => none

def isPolling : Progress α → Bool
  | .checked _ => true
  | .taken _ => true
  | _ => false

def isPending : Progress α → Bool
  | .pending _ => true
  | _ => false

/-- The future can be polled or dropped. -/
def isResting : Progress α → Bool
  | .created => true
  | .pending _ => true
  | _ => false

end Progress

/-- A `Receiving` with the id it was given. `called` records whether the waker of
its last poll has been woken since that poll began. -/
structure Listener where
  id : Uuid
  progress : Progress Bytes
  called : Bool
deriving DecidableEq, Repr

namespace Listener

/-- The future waits and nothing will make it poll again. -/
def isUncalled (listener : Listener) : Bool := listener.progress.waker.isSome && !listener.called

/-- The future waits and is about to poll again. -/
def isCalled (listener : Listener) : Bool := listener.progress.waker.isSome && listener.called

def wake (waker : Waker) (listener : Listener) : Listener :=
  if listener.progress.waker = some waker then { listener with called := true } else listener

end Listener

/-- The queue and the wakers of a session that lives, with all its `Receiving`
futures. `delivering` says that `handle_incoming` has pushed a payload and not yet
woken anyone; it runs under the lock of the session. -/
structure Inbox where
  messages : List Bytes
  wakers : Std.TreeMap Uuid Waker
  delivering : Bool
  futures : List Listener

namespace Inbox

inductive Label where
  | recv (id : Uuid)
  | tryRecv (future : Nat) (waker : Waker)
  | updateWakers (future : Nat)
  | drop (future : Nat)
  | push (data : Bytes)
  | wakeFirst
deriving DecidableEq

def start : Inbox := ⟨[], ∅, false, []⟩

def setProgress (inbox : Inbox) (future : Nat) (listener : Listener) : Inbox :=
  { inbox with futures := inbox.futures.set future listener }

def tryRecv (inbox : Inbox) (future : Nat) (listener : Listener) (waker : Waker) : Inbox :=
  match inbox.messages with
  | data :: rest => { inbox with messages := rest }.setProgress future ⟨listener.id, .taken data, false⟩
  | [] => inbox.setProgress future ⟨listener.id, .checked waker, false⟩

/-- A dropped `Receiving` leaves its waker in the map. -/
def step (inbox : Inbox) : Label → Option Inbox
  | .recv id =>
    if id ∈ inbox.futures.map Listener.id then none
    else some { inbox with futures := inbox.futures ++ [⟨id, .created, false⟩] }
  | .tryRecv future waker =>
    match inbox.futures[future]? with
    | none => none
    | some listener => if listener.progress.isResting then some (inbox.tryRecv future listener waker) else none
  | .updateWakers future =>
    match inbox.futures[future]? with
    | some ⟨id, .checked waker, called⟩ =>
      some ({ inbox with wakers := inbox.wakers.insert id waker }.setProgress future ⟨id, .pending waker, called⟩)
    | some ⟨id, .taken data, called⟩ =>
      some ({ inbox with wakers := inbox.wakers.erase id }.setProgress future ⟨id, .ready data, called⟩)
    | _ => none
  | .drop future =>
    match inbox.futures[future]? with
    | none => none
    | some listener =>
      if listener.progress.isResting then some (inbox.setProgress future { listener with progress := .dropped }) else none
  | .push data =>
    if inbox.delivering then none
    else some { inbox with messages := inbox.messages ++ [data], delivering := true }
  | .wakeFirst =>
    if inbox.delivering then
      match firstEntry inbox.wakers with
      | none => some { inbox with delivering := false }
      | some (_, waker) =>
        some { inbox with
          wakers := popFirst inbox.wakers
          delivering := false
          futures := inbox.futures.map (Listener.wake waker) }
    else none

end Inbox

/-- Where `upgrade_session` stands with the notification of one connect. -/
inductive Upgrade where
  | inserted
  | sent
  | finished
deriving DecidableEq, Repr

/-- A `SessionReady` with the channel and the wakers that it shares with its entry. -/
structure Connecting where
  ready : SessionReady
  readiness : Readiness
  progress : Progress (SessionId × OneTimeId)
  upgrade : Upgrade
deriving DecidableEq

namespace Connecting

inductive Label where
  | tryRecv (waker : Waker)
  | pushWaker
  | drop
  | send
  | wakeAll
deriving DecidableEq

def start (id : SessionId) (oneTimeId : OneTimeId) : Connecting :=
  ⟨⟨id, oneTimeId, false, false⟩, ⟨0, true, [], []⟩, .created, .inserted⟩

def tryRecv (connecting : Connecting) (waker : Waker) : Connecting :=
  match connecting.readiness.tryRecv with
  | some readiness =>
    { connecting with
      ready := { connecting.ready with completed := true }
      readiness
      progress := .ready (connecting.ready.id, connecting.ready.oneTimeId) }
  | none => { connecting with progress := .checked waker }

def step (connecting : Connecting) : Label → Option Connecting
  | .tryRecv waker => if connecting.progress.isResting then some (connecting.tryRecv waker) else none
  | .pushWaker =>
    match connecting.progress with
    | .checked waker =>
      let (ready, readiness) := connecting.ready.register connecting.readiness waker
      some { connecting with ready, readiness, progress := .pending waker }
    | _ => none
  | .drop =>
    if connecting.progress.isResting then
      some { connecting with readiness := { connecting.readiness with listening := false }, progress := .dropped }
    else none
  | .send =>
    match connecting.upgrade with
    | .inserted =>
      if connecting.readiness.listening then
        some { connecting with
          readiness := { connecting.readiness with notifications := connecting.readiness.notifications + 1 }
          upgrade := .sent }
      else some { connecting with upgrade := .finished }
    | _ => none
  | .wakeAll =>
    match connecting.upgrade with
    | .sent =>
      some { connecting with
        readiness := { connecting.readiness with woken := connecting.readiness.woken ++ connecting.readiness.wakers }
        upgrade := .finished }
    | _ => none

end Connecting
end Veq
