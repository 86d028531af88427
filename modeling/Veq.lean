import Veq.Rust
import Veq.Runs
import Veq.Locks
import Veq.Lifecycle
import Veq.Machines
import Veq.Bincode
import Veq.Exact
import Veq.Window
import Veq.Transform
import Veq.Clones
import Veq.SnowTypes
import Veq.Wire
import Veq.Dualstack
import Veq.Session
import Veq.Handler
import Veq.Proofs.Assembly
import Veq.Proofs.Reassembly
import Veq.Proofs.InOrder
import Veq.Proofs.Reordering
import Veq.Proofs.PeerInput
import Veq.Proofs.Boundaries
import Veq.Proofs.SharedCounter
import Veq.Proofs.SharedGroups
import Veq.Proofs.Replay
import Veq.Proofs.Acceptance
import Veq.Proofs.Registry
import Veq.Proofs.Survival
import Veq.Link
import Veq.Network
import Veq.Pipe
import Veq.Proofs.EndToEnd
import Veq.Calls
import Veq.Locking
import Veq.Socket
import Veq.Slot
import Veq.Driver
import Veq.Rendezvous
import Veq.Console
import Veq.Watchdog
import Veq.Tasks
import Veq.Lineage
import Veq.Wakeups
import Veq.Vigil
import Veq.Ownership
import Veq.Proofs.Sections
import Veq.Proofs.Locking
import Veq.Proofs.Driver
import Veq.Proofs.Console
import Veq.Proofs.Independence
import Veq.Proofs.Traffic
import Veq.Proofs.Lineage
import Veq.Proofs.Rendezvous
import Veq.Proofs.Meeting
import Veq.Proofs.Roles
import Veq.Proofs.Tasks
import Veq.Proofs.Vigil
import Veq.Proofs.Grammar
import Veq.Proofs.Pipe
import Veq.Proofs.Lifetime
import Veq.Proofs.Waiters
import Veq.Proofs.Generations
import Veq.Proofs.Ownership
import Veq.Proofs.LostWakeups
import Veq.Proofs.Naming
import Veq.Proofs.RoundTrip
import Veq.Proofs.Framing
import Veq.Proofs.Handover
import Veq.Proofs.Interleaving
import Veq.Proofs.Promotion
import Veq.Proofs.Agreement
