import Veq.Tasks

/-! The generations of a session id. Each connect under the id begins a new one, and
the keepalive task of an established session outlives the entry: it finds out that
its session is dead only after it has sent one more packet. -/

namespace Veq
open Rust Bincode

variable {H S : Type}

/-- A session that has left the handler, with the tasks that it leaves behind. -/
structure Lingering (S : Type) where
  generation : Nat
  spawned : Spawned S

namespace Lingering

/-- What an established entry leaves behind when an access removes it: to drop a
session is to close it. -/
def left (generation : Nat) : Option (OneTimeId × Session S) → Option (OneTimeId × Session S) → List (Lingering S)
  | some (_, session), none => [⟨generation, ⟨session.close, false, true, true⟩⟩]
  | _, _ => []

end Lingering

/-- The output of an access or a tick, and the generation it belongs to. -/
structure Answer where
  generation : Nat
  output : Output

/-- A tick of the keepalive task of one of the sessions that have left. -/
def keepaliveLeft (cipher : Cipher S) (lingering : List (Lingering S)) (index : Nat) : List (Lingering S) × Answer :=
  match lingering[index]? with
  | none => (lingering, ⟨0, .nothing⟩)
  | some left =>
    let (spawned, effect) := left.spawned.keepaliveTick cipher
    (lingering.set index { left with spawned }, ⟨left.generation, .packets effect.outgoing⟩)

/-- The generation after an access to the id. -/
def Access.generation (access : Access) (generation : Nat) : Nat :=
  if access.info?.isSome then generation + 1 else generation

/-- A handler with the tasks that outlive its sessions. -/
structure Attended (H S : Type) where
  handler : Handler H S
  generations : SessionId → Nat
  lingering : SessionId → List (Lingering S)

namespace Attended

inductive Label where
  | access (access : Access)
  | keepalive (id : SessionId) (index : Nat)
deriving DecidableEq

namespace Label

def concerns (id : SessionId) : Label → Bool
  | .access called => called.concerns id
  | .keepalive other _ => other == id

def isDatagram : Label → Bool
  | .access called => called.isDatagram
  | .keepalive _ _ => false

end Label

def new (keypair : SnowKeypair) : Attended H S := ⟨.new keypair, fun _ => 0, fun _ => []⟩

def access (snow : Snow H S) (attended : Attended H S) (access : Access) : Attended H S × Answer :=
  let (handler, output) := attended.handler.access snow access
  match access.id? with
  | none => ({ attended with handler }, ⟨0, output⟩)
  | some id =>
    let generation := access.generation (attended.generations id)
    let left := Lingering.left (attended.generations id) (attended.handler.establishedSessions id)
      (handler.establishedSessions id)
    ({ handler
       generations := Function.update attended.generations id generation
       lingering := Function.update attended.lingering id (attended.lingering id ++ left) }, ⟨generation, output⟩)

def step (snow : Snow H S) (attended : Attended H S) : Label → Attended H S × Answer
  | .access access => attended.access snow access
  | .keepalive id index =>
    let (lingering, answer) := keepaliveLeft snow.toCipher (attended.lingering id) index
    ({ attended with lingering := Function.update attended.lingering id lingering }, answer)

end Attended

/-- A session id on its own: its slot, and the sessions that have left it. -/
structure Lineage (H S : Type) where
  slot : Slot H S
  generation : Nat
  lingering : List (Lingering S)

namespace Lineage

def new : Lineage H S := ⟨.vacant, 0, []⟩

def step (snow : Snow H S) (keypair : SnowKeypair) (id : SessionId) (lineage : Lineage H S) :
    Attended.Label → Lineage H S × Answer
  | .access access =>
    let (slot, output) := lineage.slot.access snow keypair id access
    let generation := access.generation lineage.generation
    ({ slot
       generation
       lingering := lineage.lingering ++ Lingering.left lineage.generation lineage.slot.session slot.session },
      ⟨generation, output⟩)
  | .keepalive _ index =>
    let (lingering, answer) := keepaliveLeft snow.toCipher lineage.lingering index
    ({ lineage with lingering }, answer)

end Lineage
end Veq
