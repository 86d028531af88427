import Veq.Driver
import Veq.Runs
import Veq.Proofs.Survival

/-! The two tasks of a socket lose nothing, repeat nothing and keep every order:
each datagram that waits in a UDP socket reaches the handler once, and each packet
of the handler and of its sessions' tasks reaches the UDP socket of its destination
once. -/

namespace Veq
open Rust Bincode Machines

namespace UdpSocket

variable {socket next : UdpSocket} {buf read : Bytes} {result : Except IoError (Nat × SocketAddr)}

theorem recvFrom_none : socket.recvFrom buf = none ↔ socket.inbox = [] := by
  unfold UdpSocket.recvFrom
  split <;> simp_all

theorem recvFrom_length (received : socket.recvFrom buf = some (next, read, result)) : read.length = buf.length := by
  unfold UdpSocket.recvFrom at received
  split at received
  next => cases received
  next => cases received; rfl
  next src payload inbox waiting =>
    cases received
    simp only [List.length_append, List.length_take, List.length_drop]
    omega

/-- A read takes one datagram, and leaves its bytes at the front of a buffer that
is large enough. -/
theorem recvFrom_some (large : 2 ^ 16 ≤ buf.length) (received : socket.recvFrom buf = some (next, read, result)) :
    ∃ arrival inbox, socket.inbox = arrival :: inbox ∧ next = { socket with inbox } ∧
      match (arrival : Except IoError (SocketAddr × Payload)) with
      | .error error => result = .error error
      | .ok (src, payload) => ∃ len, result = .ok (len, src) ∧ read.take len = payload.data := by
  unfold UdpSocket.recvFrom at received
  split at received
  next => cases received
  next error inbox waiting =>
    cases received
    exact ⟨_, inbox, waiting, rfl, rfl⟩
  next src payload inbox waiting =>
    cases received
    have whole : min payload.data.length buf.length = payload.data.length := by
      have fits := payload.fits
      omega
    refine ⟨_, inbox, waiting, rfl, _, rfl, ?_⟩
    rw [whole, List.take_length, List.take_left]

theorem setTtl_frame (socket : UdpSocket) (ttl : Nat) :
    ∃ hops refusesTtl, (socket.setTtl ttl).1 = { socket with ttl := hops, refusesTtl } := by
  unfold UdpSocket.setTtl
  split
  · exact ⟨_, _, rfl⟩
  · exact ⟨_, _, rfl⟩

theorem setTtl_never (never : socket.refusesTtl = fun _ => false) (ttl : Nat) :
    socket.setTtl ttl = ({ socket with ttl := some ttl }, .ok ()) := by
  obtain ⟨localAddr, inbox, hops, sent, refusesTtl, refuses⟩ := socket
  cases never
  rfl

theorem sendTo_eq (socket : UdpSocket) (data : Bytes) (dest : SocketAddr) :
    (socket.sendTo data dest).1 = { socket with
      sent := socket.sent ++ if socket.refuses 0 then [] else [⟨dest, data, socket.ttl⟩]
      refuses := fun call => socket.refuses (call + 1) } := by
  unfold UdpSocket.sendTo
  split <;> simp

end UdpSocket

namespace VersionedSocket

@[simp] theorem udp_setTtl (socket : VersionedSocket) (ttl : Nat) :
    (BidirSocket.setTtl socket ttl).1.udp = (socket.udp.setTtl ttl).1 := by
  cases socket <;> rfl

theorem setTtl_result (socket : VersionedSocket) (ttl : Nat) :
    (BidirSocket.setTtl socket ttl).2 = (socket.udp.setTtl ttl).2 := by
  cases socket <;> rfl

@[simp] theorem udp_sendTo (socket : VersionedSocket) (buf : Bytes) (addr : SocketAddr) :
    (BidirSocket.sendTo socket buf addr).1.udp = (socket.udp.sendTo buf addr).1 := by
  cases socket <;> rfl

theorem recvFrom_none {socket : VersionedSocket} {first : Bool} {buf : Bytes} :
    BidirSocket.recvFrom socket first buf = none ↔ socket.udp.inbox = [] := by
  cases socket with
  | v4 socket => simp [BidirSocket.recvFrom, udp, UdpSocket.recvFrom_none]
  | v6 socket => simp [BidirSocket.recvFrom, udp, UdpSocket.recvFrom_none]

theorem recvFrom_some {socket next : VersionedSocket} {first : Bool} {buf read : Bytes}
    {result : Except IoError (Nat × SocketAddr)} (received : BidirSocket.recvFrom socket first buf = some (next, read, result)) :
    socket.udp.recvFrom buf = some (next.udp, read, result) := by
  cases socket with
  | v4 socket =>
    obtain ⟨⟨taken, bytes, outcome⟩, inner, same⟩ := Option.map_eq_some_iff.mp received
    cases same
    exact inner
  | v6 socket =>
    obtain ⟨⟨taken, bytes, outcome⟩, inner, same⟩ := Option.map_eq_some_iff.mp received
    cases same
    exact inner

instance wired : Wired VersionedSocket Unit where
  udp socket _ := socket.udp
  route _ := ()
  recvFrom_none socket first buf := by simp [recvFrom_none]
  recvFrom_some socket first buf next read result received :=
    ⟨(), buf, next.udp, rfl, recvFrom_some received, by funext index; simp⟩
  setTtl_udp socket ttl _ := by
    rw [udp_setTtl]
    exact socket.udp.setTtl_frame ttl
  setTtl_ttl socket ttl never index := by
    rw [udp_setTtl, UdpSocket.setTtl_never (never index) ttl]
  sendTo_udp socket buf addr := by
    funext index
    simp

end VersionedSocket

namespace DualSocket

def udp (socket : DualSocket VersionedSocket VersionedSocket) : Family → UdpSocket
  | .v4 => socket.v4Socket.udp
  | .v6 => socket.v6Socket.udp

variable {socket next : DualSocket VersionedSocket VersionedSocket} {first : Bool} {buf read : Bytes}
  {result : Except IoError (Nat × SocketAddr)}

theorem udp_v4 (v4Socket v6Socket taken : VersionedSocket) :
    udp ⟨taken, v6Socket⟩ = Function.update (udp ⟨v4Socket, v6Socket⟩) .v4 taken.udp := by
  funext family
  cases family <;> rfl

theorem udp_v6 (v4Socket v6Socket taken : VersionedSocket) :
    udp ⟨v4Socket, taken⟩ = Function.update (udp ⟨v4Socket, v6Socket⟩) .v6 taken.udp := by
  funext family
  cases family <;> rfl

theorem scratch_whole {size : Nat} {one other : UdpSocket} {bytes : Bytes} {outcome : Except IoError (Nat × SocketAddr)}
    (inner : one.recvFrom (List.replicate size 0) = some (other, bytes, outcome)) : bytes.take size = bytes := by
  have length := UdpSocket.recvFrom_length inner
  rw [List.length_replicate] at length
  exact List.take_of_length_le (Nat.le_of_eq length)

theorem recvFrom_some (received : recvFrom socket first buf = some (next, read, result)) :
    ∃ family scratch taken, scratch.length = buf.length ∧
      (socket.udp family).recvFrom scratch = some (taken, read, result) ∧
      next.udp = Function.update socket.udp family taken := by
  obtain ⟨v4Socket, v6Socket⟩ := socket
  rcases select_some received with branch | branch
  · obtain ⟨⟨taken, bytes, outcome⟩, inner, same⟩ := Option.map_eq_some_iff.mp branch
    have inner := VersionedSocket.recvFrom_some inner
    simp only [scratch_whole inner] at same
    cases same
    exact ⟨.v4, _, taken.udp, List.length_replicate, inner, udp_v4 v4Socket v6Socket taken⟩
  · obtain ⟨⟨taken, bytes, outcome⟩, inner, same⟩ := Option.map_eq_some_iff.mp branch
    have inner := VersionedSocket.recvFrom_some inner
    simp only [scratch_whole inner] at same
    cases same
    exact ⟨.v6, _, taken.udp, List.length_replicate, inner, udp_v6 v4Socket v6Socket taken⟩

theorem recvFrom_none : recvFrom socket first buf = none ↔ ∀ family, (socket.udp family).inbox = [] := by
  have branches : recvFrom socket first buf = none ↔
      socket.v4Socket.udp.inbox = [] ∧ socket.v6Socket.udp.inbox = [] := by
    unfold recvFrom
    rw [select_none, readV4, readV6, Option.map_eq_none_iff, Option.map_eq_none_iff, VersionedSocket.recvFrom_none,
      VersionedSocket.recvFrom_none]
  rw [branches]
  constructor
  · intro empty family
    cases family with
    | v4 => exact empty.1
    | v6 => exact empty.2
  · intro empty
    exact ⟨empty .v4, empty .v6⟩

/-- The IPv6 socket is left alone when the IPv4 socket refuses. -/
theorem setTtl_eq (v4Socket v6Socket : VersionedSocket) (ttl : Nat) :
    (setTtl ⟨v4Socket, v6Socket⟩ ttl).1 = ⟨(BidirSocket.setTtl v4Socket ttl).1,
      if (v4Socket.udp.setTtl ttl).2 = .ok () then (BidirSocket.setTtl v6Socket ttl).1 else v6Socket⟩ := by
  rw [← VersionedSocket.setTtl_result]
  unfold setTtl
  rcases BidirSocket.setTtl v4Socket ttl with ⟨taken, error | ⟨⟩⟩
  · simp
  · simp

theorem setTtl_udp (socket : DualSocket VersionedSocket VersionedSocket) (ttl : Nat) (family : Family) :
    ∃ hops refusesTtl, (setTtl socket ttl).1.udp family = { socket.udp family with ttl := hops, refusesTtl } := by
  obtain ⟨v4Socket, v6Socket⟩ := socket
  rw [setTtl_eq]
  cases family with
  | v4 =>
    obtain ⟨hops, refusesTtl, same⟩ := v4Socket.udp.setTtl_frame ttl
    exact ⟨hops, refusesTtl, (VersionedSocket.udp_setTtl v4Socket ttl).trans same⟩
  | v6 =>
    obtain ⟨hops, refusesTtl, same⟩ := v6Socket.udp.setTtl_frame ttl
    simp only [udp]
    split
    · exact ⟨hops, refusesTtl, (VersionedSocket.udp_setTtl v6Socket ttl).trans same⟩
    · exact ⟨_, _, rfl⟩

theorem setTtl_ttl (ttl : Nat) (never : ∀ family, (socket.udp family).refusesTtl = fun _ => false) (family : Family) :
    (setTtl socket ttl).1.udp family = { socket.udp family with ttl := some ttl } := by
  obtain ⟨v4Socket, v6Socket⟩ := socket
  have four := UdpSocket.setTtl_never (never .v4) ttl
  have six := UdpSocket.setTtl_never (never .v6) ttl
  simp only [udp] at four six
  rw [setTtl_eq, four]
  cases family with
  | v4 => exact (VersionedSocket.udp_setTtl v4Socket ttl).trans (congrArg Prod.fst four)
  | v6 => exact (VersionedSocket.udp_setTtl v6Socket ttl).trans (congrArg Prod.fst six)

instance wired : Wired (DualSocket VersionedSocket VersionedSocket) Family where
  udp := udp
  route := SocketAddr.family
  recvFrom_none socket first buf := recvFrom_none
  recvFrom_some socket first buf next read result received := recvFrom_some received
  setTtl_udp := setTtl_udp
  setTtl_ttl socket ttl never family := setTtl_ttl ttl never family
  sendTo_udp socket buf addr := by
    obtain ⟨v4Socket, v6Socket⟩ := socket
    cases addr with
    | v4 ip port =>
      exact (udp_v4 v4Socket v6Socket _).trans
        (congrArg (Function.update _ Family.v4) (VersionedSocket.udp_sendTo v4Socket buf (.v4 ip port)))
    | v6 ip port =>
      exact (udp_v6 v4Socket v6Socket _).trans
        (congrArg (Function.update _ Family.v6) (VersionedSocket.udp_sendTo v6Socket buf (.v6 ip port)))

end DualSocket

def Access.datagram? : Access → Option (SocketAddr × Bytes)
  | .operate (.handleIncoming src data _) => some (src, data)
  | _ => none

def Attended.Label.datagram? : Attended.Label → Option (SocketAddr × Bytes)
  | .access called => called.datagram?
  | .keepalive _ _ => none

theorem Attended.Label.datagram?_none {label : Attended.Label} (other : label.isDatagram = false) :
    label.datagram? = none := by
  cases label with
  | keepalive id index => rfl
  | access called =>
    simp only [Attended.Label.datagram?, Access.datagram?]
    split
    · cases other
    · rfl

def Payload.arrived : Except IoError (SocketAddr × Payload) → Option (SocketAddr × Bytes)
  | .ok (src, payload) => some (src, payload.data)
  | .error _ => none

namespace Transmission

def datagram (transmission : Transmission) : SocketAddr × Bytes := (transmission.destination, transmission.data)

end Transmission

/-- What a UDP socket makes of the packets that are written to it in a row: one
datagram of each, those aside whose call the operating system refuses. -/
def UdpSocket.transmissions (refuses : Nat → Bool) : List Outgoing → List Transmission
  | [] => []
  | (dest, packet, ttl) :: rest =>
    let later := transmissions (fun call => refuses (call + 1)) rest
    if refuses 0 then later else ⟨dest, SessionPacket.codec.encode packet, some ttl⟩ :: later

theorem UdpSocket.transmissions_concat (refuses : Nat → Bool) (written : List Outgoing) (dest : SocketAddr)
    (packet : SessionPacket) (ttl : Nat) :
    transmissions refuses (written ++ [(dest, packet, ttl)]) = transmissions refuses written ++
      if refuses written.length then [] else [⟨dest, SessionPacket.codec.encode packet, some ttl⟩] := by
  induction written generalizing refuses with
  | nil => simp [transmissions]
  | cons first written ih =>
    simp only [List.cons_append, transmissions, ih, List.length_cons]
    split <;> rfl

variable {σ ι H S : Type} [BidirSocket σ] [DecidableEq ι] [Wired σ ι]

def routed (σ : Type) [BidirSocket σ] [Wired σ ι] (index : ι) (packets : List Outgoing) : List Outgoing :=
  packets.filter fun outgoing => Wired.route σ outgoing.1 == index

theorem routed_concat (index : ι) (packets : List Outgoing) (outgoing : Outgoing) :
    routed σ index (packets ++ [outgoing]) =
      routed σ index packets ++ if Wired.route σ outgoing.1 = index then [outgoing] else [] := by
  rw [routed, List.filter_append]
  by_cases here : Wired.route σ outgoing.1 = index <;> simp [routed, here]

/-- How a socket stands to what it was: `heard` lists what was read from its UDP
sockets since, and `taken` the packets that were written. The operating system may
refuse any of the writes. -/
structure Wiring (earlier later : σ) (heard : List (ι × Except IoError (SocketAddr × Payload))) (taken : List Outgoing) :
    Prop where
  reads : ∀ index, (Wired.udp earlier index).inbox =
    (heard.filter fun one => one.1 == index).map Prod.snd ++ (Wired.udp later index).inbox
  refuses : ∀ index, (Wired.udp later index).refuses =
    fun call => (Wired.udp earlier index).refuses (call + (routed σ index taken).length)
  writes : ∀ index, (Wired.udp later index).sent.map Transmission.datagram =
    ((Wired.udp earlier index).sent ++
      UdpSocket.transmissions (Wired.udp earlier index).refuses (routed σ index taken)).map Transmission.datagram
  hops : (∀ index, (Wired.udp earlier index).refusesTtl = fun _ => false) →
    ∀ index, ((Wired.udp later index).refusesTtl = fun _ => false) ∧
      (Wired.udp later index).sent = (Wired.udp earlier index).sent ++
        UdpSocket.transmissions (Wired.udp earlier index).refuses (routed σ index taken)

namespace Wiring

variable {earlier later next : σ} {heard : List (ι × Except IoError (SocketAddr × Payload))} {taken : List Outgoing}

theorem refl (socket : σ) : Wiring socket socket [] [] where
  reads _ := rfl
  refuses _ := rfl
  writes _ := by simp [routed, UdpSocket.transmissions]
  hops never index := ⟨never index, by simp [routed, UdpSocket.transmissions]⟩

theorem read (wiring : Wiring earlier later heard taken) {index : ι} {arrival : Except IoError (SocketAddr × Payload)}
    {inbox : List (Except IoError (SocketAddr × Payload))}
    (waiting : (Wired.udp later index).inbox = arrival :: inbox)
    (moved : Wired.udp next = Function.update (Wired.udp later) index { Wired.udp later index with inbox }) :
    Wiring earlier next (heard ++ [(index, arrival)]) taken := by
  have kept : ∀ other, ∃ inbox, Wired.udp next other = { Wired.udp later other with inbox } := by
    intro other
    rw [moved]
    by_cases same : other = index
    · subst same
      exact ⟨inbox, Function.update_self ..⟩
    · exact ⟨(Wired.udp later other).inbox, Function.update_of_ne same ..⟩
  refine ⟨?_, ?_, ?_, ?_⟩
  · intro other
    rw [wiring.reads other, moved, List.filter_append, List.map_append, List.append_assoc]
    by_cases same : other = index
    · subst same
      simp [waiting]
    · have different : (index == other) = false := by simpa using Ne.symm same
      simp [different, same]
  · intro other
    obtain ⟨inbox, same⟩ := kept other
    have refuses := wiring.refuses other
    rwa [same]
  · intro other
    obtain ⟨inbox, same⟩ := kept other
    have writes := wiring.writes other
    rwa [same]
  · intro never other
    obtain ⟨inbox, same⟩ := kept other
    have hops := wiring.hops never other
    rwa [same]

theorem udp_write (later : σ) (dest : SocketAddr) (data : Bytes) (ttl : Nat) (index : ι) :
    ∃ hops refusesTtl, Wired.udp (BidirSocket.sendTo (BidirSocket.setTtl later ttl).1 data dest).1 index =
        (if Wired.route σ dest = index then
          ({ Wired.udp later index with ttl := hops, refusesTtl }.sendTo data dest).1
        else { Wired.udp later index with ttl := hops, refusesTtl }) ∧
      ((∀ index, (Wired.udp later index).refusesTtl = fun _ => false) → hops = some ttl ∧ refusesTtl = fun _ => false) := by
  obtain ⟨hops, refusesTtl, set⟩ := Wired.setTtl_udp later ttl index
  refine ⟨hops, refusesTtl, ?_, ?_⟩
  · rw [Wired.sendTo_udp]
    by_cases here : Wired.route σ dest = index
    · subst here
      rw [Function.update_self, if_pos rfl, set]
    · rw [Function.update_of_ne (Ne.symm here), if_neg here, set]
  · intro never
    have whole := Wired.setTtl_ttl later ttl never index
    rw [set] at whole
    have unrefused := congrArg UdpSocket.refusesTtl whole
    exact ⟨congrArg UdpSocket.ttl whole, unrefused.trans (never index)⟩

theorem write (wiring : Wiring earlier later heard taken) (dest : SocketAddr) (packet : SessionPacket) (ttl : Nat) :
    Wiring earlier (BidirSocket.sendTo (BidirSocket.setTtl later ttl).1 (SessionPacket.codec.encode packet) dest).1 heard
      (taken ++ [(dest, packet, ttl)]) := by
  have written := fun index => udp_write later dest (SessionPacket.codec.encode packet) ttl index
  have next : ∀ index, (Wired.udp later index).refuses 0 =
      (Wired.udp earlier index).refuses (routed σ index taken).length := by
    intro index
    simp only [wiring.refuses index, Nat.zero_add]
  refine ⟨?_, ?_, ?_, ?_⟩
  · intro index
    obtain ⟨hops, refusesTtl, same, -⟩ := written index
    rw [same, UdpSocket.sendTo_eq]
    split <;> exact wiring.reads index
  · intro index
    obtain ⟨hops, refusesTtl, same, -⟩ := written index
    rw [same, UdpSocket.sendTo_eq, routed_concat]
    by_cases here : Wired.route σ dest = index
    · rw [if_pos here, if_pos here, List.length_append]
      simp only [wiring.refuses index, List.length_singleton]
      funext call
      rw [Nat.add_right_comm, Nat.add_assoc]
    · rw [if_neg here, if_neg here, List.append_nil]
      exact wiring.refuses index
  · intro index
    obtain ⟨hops, refusesTtl, same, -⟩ := written index
    rw [same, UdpSocket.sendTo_eq, routed_concat]
    by_cases here : Wired.route σ dest = index
    · rw [if_pos here, if_pos here, UdpSocket.transmissions_concat, ← List.append_assoc, List.map_append, List.map_append,
        wiring.writes index, next index]
      split <;> rfl
    · rw [if_neg here, if_neg here, List.append_nil]
      exact wiring.writes index
  · intro never index
    obtain ⟨hops, refusesTtl, same, set⟩ := written index
    obtain ⟨rfl, rfl⟩ := set fun index => (wiring.hops never index).1
    obtain ⟨-, sent⟩ := wiring.hops never index
    rw [same, UdpSocket.sendTo_eq, routed_concat]
    by_cases here : Wired.route σ dest = index
    · rw [if_pos here, if_pos here, UdpSocket.transmissions_concat, ← List.append_assoc, ← sent, next index]
      exact ⟨rfl, rfl⟩
    · rw [if_neg here, if_neg here, List.append_nil]
      exact ⟨rfl, sent⟩

end Wiring

namespace Driver

/-- How a driver stands to the socket that it was made from. What it sends comes from
the calls on its handler and from the tasks of the sessions that have left. -/
structure Faithful (snow : Snow H S) (keypair : SnowKeypair) (socket : σ)
    (heard : List (ι × Except IoError (SocketAddr × Payload))) (driver : Driver σ H S) : Prop where
  handler : driver.handler = after (Attended.step snow) (.new keypair) driver.accesses
  channel : emissions (fun answer => answer.output.outgoing) (trace (Attended.step snow) (.new keypair) driver.accesses) =
    driver.taken ++ driver.outgoing
  handled : driver.accesses.filterMap Attended.Label.datagram? = heard.filterMap fun one => Payload.arrived one.2
  wiring : Wiring socket driver.socket heard driver.taken

namespace Faithful

variable {snow : Snow H S} {keypair : SnowKeypair} {socket : σ}
  {heard : List (ι × Except IoError (SocketAddr × Payload))} {driver next : Driver σ H S}

theorem start (info : ConnectionInfo) :
    Faithful snow keypair socket [] (⟨info, socket, .new keypair, [], [], []⟩ : Driver σ H S) :=
  ⟨rfl, rfl, rfl, .refl socket⟩

theorem perform (faithful : Faithful snow keypair socket heard driver) {access : Attended.Label} {later : σ}
    {read : List (ι × Except IoError (SocketAddr × Payload))}
    (handled : (read.filterMap fun one => Payload.arrived one.2) = access.datagram?.toList)
    (wiring : Wiring socket later (heard ++ read) driver.taken) :
    Faithful snow keypair socket (heard ++ read) ({ driver with socket := later }.perform snow access) where
  handler := by
    rw [Driver.perform, after_concat, ← faithful.handler]
  channel := by
    rw [Driver.perform, emissions_concat, faithful.channel, ← faithful.handler, List.append_assoc]
  handled := by
    have last : [access].filterMap Attended.Label.datagram? = access.datagram?.toList := by
      cases found : access.datagram? <;> simp [found]
    rw [Driver.perform, List.filterMap_append, last, List.filterMap_append, handled, faithful.handled]
  wiring := wiring

theorem receive (faithful : Faithful snow keypair socket heard driver) {first : Bool} {ephemeral : Nat}
    (received : driver.receive snow first ephemeral = some next) :
    ∃ read, Faithful snow keypair socket (heard ++ read) next := by
  have spacious : ∀ scratch : Bytes, scratch.length = (List.replicate 65536 (0 : UInt8)).length →
      2 ^ 16 ≤ scratch.length := by
    intro scratch length
    rw [length, List.length_replicate]
    exact Nat.le_refl _
  unfold Driver.receive at received
  split at received
  next => cases received
  next later buf len src arrived =>
    cases received
    obtain ⟨index, scratch, taken, length, read, moved⟩ := Wired.recvFrom_some _ _ _ _ _ _ arrived
    obtain ⟨arrival, inbox, waiting, rfl, outcome⟩ := UdpSocket.recvFrom_some (spacious scratch length) read
    refine ⟨[(index, arrival)], faithful.perform ?_ (faithful.wiring.read waiting moved)⟩
    cases arrival with
    | error error => cases outcome
    | ok arrival =>
      obtain ⟨count, same, whole⟩ := outcome
      cases same
      simp [Payload.arrived, Attended.Label.datagram?, Access.datagram?, whole]
  next later buf error arrived =>
    cases received
    obtain ⟨index, scratch, taken, length, read, moved⟩ := Wired.recvFrom_some _ _ _ _ _ _ arrived
    obtain ⟨arrival, inbox, waiting, rfl, outcome⟩ := UdpSocket.recvFrom_some (spacious scratch length) read
    have wiring := faithful.wiring.read waiting moved
    refine ⟨[(index, arrival)], faithful.handler, faithful.channel, ?_, wiring⟩
    cases arrival with
    | error error => simp [Payload.arrived, faithful.handled]
    | ok arrival =>
      obtain ⟨count, same, whole⟩ := outcome
      cases same

theorem transmit (faithful : Faithful snow keypair socket heard driver) (sent : driver.transmit = some next) :
    Faithful snow keypair socket heard next := by
  unfold Driver.transmit at sent
  split at sent
  next => cases sent
  next dest packet ttl outgoing waiting =>
    cases sent
    refine ⟨faithful.handler, ?_, faithful.handled, faithful.wiring.write dest packet ttl⟩
    rw [faithful.channel, waiting, List.append_assoc]
    rfl

theorem step (faithful : Faithful snow keypair socket heard driver) {label : Driver.Label}
    (stepped : driver.step snow label = some next) : ∃ read, Faithful snow keypair socket (heard ++ read) next := by
  cases label with
  | receive first ephemeral => exact faithful.receive stepped
  | transmit => exact ⟨[], (List.append_nil heard).symm ▸ faithful.transmit stepped⟩
  | perform access =>
    simp only [Driver.step] at stepped
    split at stepped
    next => cases stepped
    next other =>
      cases stepped
      refine ⟨[], faithful.perform ?_ ((List.append_nil heard).symm ▸ faithful.wiring)⟩
      rw [Attended.Label.datagram?_none (by simpa using other)]
      rfl

theorem run (faithful : Faithful snow keypair socket heard driver) {labels : List Driver.Label}
    (reached : driver.run snow labels = some next) : ∃ heard, Faithful snow keypair socket heard next := by
  induction labels generalizing driver heard with
  | nil =>
    cases reached
    exact ⟨heard, faithful⟩
  | cons label labels ih =>
    obtain ⟨middle, stepped, rest⟩ := Runs.run_cons reached
    obtain ⟨read, kept⟩ := faithful.step stepped
    exact ih kept rest

end Faithful

theorem receive_none {driver : Driver σ H S} {snow : Snow H S} {first : Bool} {ephemeral : Nat} :
    driver.receive snow first ephemeral = none ↔ ∀ index, (Wired.udp driver.socket index).inbox = [] := by
  rw [← Wired.recvFrom_none driver.socket first (List.replicate 65536 0)]
  unfold Driver.receive
  generalize BidirSocket.recvFrom driver.socket first (List.replicate 65536 0) = received
  rcases received with _ | ⟨later, buf, error | ⟨len, src⟩⟩
  · exact ⟨fun _ => rfl, fun _ => rfl⟩
  · exact ⟨nofun, nofun⟩
  · exact ⟨nofun, nofun⟩

theorem transmit_none {driver : Driver σ H S} : driver.transmit = none ↔ driver.outgoing = [] := by
  unfold Driver.transmit
  split <;> simp_all

/-- A host with two interfaces, and a socket whose first read and first write fail. -/
def surroundings : Surroundings :=
  ⟨.ok [[.v4 0x7f000001, .v6 1], [.v4 0x0a000005]], none, fun _ => .error .system⟩

def dualSocket : DualSocket VersionedSocket VersionedSocket :=
  ⟨.v4 ⟨.ok (.v4 0 4000), [.error .system], none, [], fun _ => false, fun _ => false⟩,
    .v6 ⟨.ok (.v6 0 4001), [.ok (.v6 9 9, ⟨[1, 2, 3], by decide⟩)], none, [], fun _ => false, fun call => call == 0⟩⟩

def rounds : List Driver.Label :=
  [.receive true 0, .perform (.access (.operate (.respond 7 ⟨[.v4 3 3, .v6 3 3, .v6 4 4], [9]⟩ 40))),
    .perform (.access (.retransmit 7)), .transmit, .transmit, .transmit]

end Driver
end Veq
