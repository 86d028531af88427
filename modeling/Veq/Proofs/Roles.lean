import Veq.Proofs.Rendezvous

/-! Who initiates. The order of the public keys decides, so that of two sockets
with different keys exactly one initiates, and two sockets with the same key wait
for each other forever. -/

namespace Veq
open Rust Bincode Machines

variable {H S : Type}

namespace Rendezvous

variable {snow : Snow H S} {peers : Peers} {slot : Slot H S}

/-- A slot that pokes. -/
def Pokes (peers : Peers) : Slot H S → Prop
  | .vacant => True
  | .poking pending _ =>
    pending.workingRemoteAddr = none ∧ pending.handle.Sends peers.id (fun _ => True) .handshakePoke
  | _ => False

theorem Pokes.idle (pokes : Pokes peers slot) : slot.Idle := by
  cases slot with
  | poking pending oneTimeId => exact pokes.1
  | initiating => cases pokes
  | _ => trivial

theorem Pokes.retransmitted (pokes : Pokes peers slot) {outgoing : Outgoing} (member : outgoing ∈ slot.retransmissions) :
    outgoing.2.1.data = RawMessage.codec.encode .handshakePoke := by
  cases slot with
  | vacant | established => cases member
  | initiating | responding => cases pokes
  | poking pending oneTimeId => rw [(pokes.2 outgoing (JoinHandle.mem_tick member)).2]

/-- What a step makes of the slot of a host that pokes. -/
def turn (snow : Snow H S) (peers : Peers) (host : Host) (slot : Slot H S) : Label → Slot H S
  | .connect other _ oneTimeId =>
    if other = host then (Slot.respond snow (peers.keypairs host) peers.id (peers.info host.other) oneTimeId).1 else slot
  | .access other (.operate (.closeSession id oneTimeId)) =>
    if other = host ∧ id = peers.id then slot.close oneTimeId else slot
  | _ => slot

theorem turn_apart {host actor : Host} (other : host ≠ actor) (slot : Slot H S) :
    (∀ access, turn snow peers host slot (.access actor access) = slot) ∧
      ∀ ephemeral oneTimeId, turn snow peers host slot (.connect actor ephemeral oneTimeId) = slot := by
  have apart : ¬ actor = host := fun same => other same.symm
  refine ⟨?_, ?_⟩
  · intro access
    unfold turn
    split
    · simp_all
    · simp_all
    · rfl
  · intro ephemeral oneTimeId
    simp [turn, apart]

theorem turn_unconcerned (host actor : Host) (slot : Slot H S) {access : Access}
    (apart : access.concerns peers.id = false) : turn snow peers host slot (.access actor access) = slot := by
  unfold turn
  split
  · simp_all
  next other id oneTimeId same =>
    cases same
    have elsewhere : id ≠ peers.id := by simpa [Access.concerns, Access.id?] using apart
    rw [if_neg fun both => elsewhere both.2]
  · rfl

theorem Pokes.close (pokes : Pokes peers slot) (oneTimeId : OneTimeId) : Pokes peers (slot.close oneTimeId) := by
  unfold Slot.close
  split
  · trivial
  · exact pokes

theorem Pokes.respond (snow : Snow H S) (peers : Peers) (keypair : SnowKeypair) (info : ConnectionInfo) (oneTimeId : OneTimeId) :
    Pokes peers (Slot.respond (S := S) snow keypair peers.id info oneTimeId).1 := by
  unfold Slot.respond
  split
  · trivial
  · exact ⟨rfl, JoinHandle.spawn_sends (fun _ _ => trivial) _⟩

theorem Pokes.turn (pokes : Pokes peers slot) (host : Host) (label : Label) :
    Pokes peers (turn snow peers host slot label) := by
  unfold Rendezvous.turn
  split
  · split
    · exact .respond snow peers _ _ _
    · exact pokes
  · split
    · exact pokes.close _
    · exact pokes
  · exact pokes

theorem Pokes.call (pokes : Pokes peers slot) (host : Host) {access : Access} (about : access.concerns peers.id = true)
    (unnamed : access.info? = none) (call : access.isDatagram = false) :
    (slot.access snow (peers.keypairs host) peers.id access).1 = Rendezvous.turn snow peers host slot (.access host access) ∧
      ∀ outgoing ∈ (slot.access snow (peers.keypairs host) peers.id access).2.outgoing,
        outgoing.2.1.data = RawMessage.codec.encode .handshakePoke := by
  refine ⟨?_, ?_⟩
  · cases slot with
    | initiating | responding | established => cases pokes
    | vacant | poking =>
      cases access with
      | operate operation =>
        cases operation with
        | initiate | respond => cases unnamed
        | handleIncoming => cases call
        | send | recvFrom | keepalive | checkHeartbeat => rfl
        | closeSession id oneTimeId =>
          have same : id = peers.id := by simpa [Access.concerns, Access.id?] using about
          simp [Slot.access, Rendezvous.turn, same]
      | poll | retransmit | remoteAddr => rfl
  · rcases Slot.call_cases snow (peers.keypairs host) peers.id pokes.idle unnamed call with
      ⟨-, sends⟩ | ⟨-, silent⟩ | ⟨session, next, oneTimeId, rfl, -⟩
    · exact fun outgoing member => pokes.retransmitted (sends outgoing member)
    · rw [silent]
      simp
    · cases pokes

theorem Pokes.receive (pokes : Pokes peers slot) {packet : SessionPacket}
    (poke : packet.data = RawMessage.codec.encode .handshakePoke) (src : SocketAddr) (ephemeral : Nat) :
    slot.receive snow src packet ephemeral = slot := by
  cases slot with
  | vacant => rfl
  | initiating | responding | established => cases pokes
  | poking pending oneTimeId =>
    have other : packet.initiation = none := by
      simp [SessionPacket.initiation, poke, RawMessage.codec.deserialize_encode RawMessage.fits_poke]
    rw [Slot.receive, PendingSessionPoker.advance_other snow pokes.1 other]

/-- Neither host initiates, and nothing but pokes is under way. -/
structure Poking (snow : Snow H S) (peers : Peers) (slots : Host → Slot H S) (state : Rendezvous H S) : Prop where
  shows : Shows snow peers state slots
  pokes : ∀ host, Pokes peers (slots host)
  sent : ∀ datagram ∈ state.sent, datagram.packet.id = peers.id →
    datagram.packet.data = RawMessage.codec.encode .handshakePoke

variable {state next : Rendezvous H S} {slots : Host → Slot H S} {labels : List Label}

theorem Poking.concerned (poking : Poking snow peers slots state) (host : Host) (label : Label) {access : Access}
    (about : access.concerns peers.id = true)
    (turned : ((slots host).access snow (peers.keypairs host) peers.id access).1 = turn snow peers host (slots host) label)
    (others : ∀ other, other ≠ host → turn snow peers other (slots other) label = slots other)
    (emitted : ∀ outgoing ∈ ((slots host).access snow (peers.keypairs host) peers.id access).2.outgoing,
      outgoing.2.1.data = RawMessage.codec.encode .handshakePoke) :
    Poking snow peers (fun other => turn snow peers other (slots other) label) (state.perform snow host access) := by
  obtain ⟨shown, grown⟩ := poking.shows.concerned host about
  have same : (fun other => turn snow peers other (slots other) label) =
      Function.update slots host ((slots host).access snow (peers.keypairs host) peers.id access).1 := by
    funext other
    by_cases acting : other = host
    · rw [acting, Function.update_self, turned]
    · rw [Function.update_of_ne acting, others other acting]
  refine ⟨same ▸ shown, fun other => (poking.pokes other).turn other label, ?_⟩
  intro datagram member about
  rw [grown, List.mem_append] at member
  rcases member with earlier | now
  · exact poking.sent datagram earlier about
  · obtain ⟨outgoing, sending, rfl⟩ := List.mem_map.mp now
    exact emitted outgoing sending

theorem Poking.unconcerned (poking : Poking snow peers slots state) (host : Host) {access : Access}
    (apart : access.concerns peers.id = false) : Poking snow peers slots (state.perform snow host access) := by
  obtain ⟨shown, others, grown, different⟩ := poking.shows.unconcerned host apart
  refine ⟨shown, poking.pokes, ?_⟩
  intro datagram member same
  rw [grown, List.mem_append] at member
  rcases member with earlier | now
  · exact poking.sent datagram earlier same
  · exact absurd same (different datagram now)

theorem Poking.deliver (poking : Poking snow peers slots state) {datagram : Datagram} (member : datagram ∈ state.sent)
    (ephemeral : Nat) : Poking snow peers slots (state.deliver snow peers ephemeral datagram) := by
  unfold Rendezvous.deliver
  split
  · exact poking
  next src routed =>
    by_cases same : datagram.packet.id = peers.id
    · have poke := poking.sent datagram member same
      have decoded : SessionPacket.codec.deserialize (SessionPacket.codec.encode datagram.packet) = some datagram.packet :=
        SessionPacket.codec.deserialize_encode (SessionPacket.fits (by rw [poke]; decide))
      have about : Access.concerns peers.id (.operate (.handleIncoming src
          (SessionPacket.codec.encode datagram.packet) ephemeral)) = true := by
        simp [Access.concerns, Access.id?, decoded, same]
      obtain ⟨received, silent⟩ := Slot.access_datagram snow (peers.keypairs datagram.sender.other) peers.id
        (slots datagram.sender.other) decoded
      rw [(poking.pokes _).receive poke] at received
      exact poking.concerned datagram.sender.other (.deliver 0 ephemeral) about received (fun _ _ => rfl)
        (by simp [silent])
    · exact poking.unconcerned _ (Access.other_datagram same src ephemeral)

theorem Poking.connect (poking : Poking snow peers slots state) (host : Host)
    (responds : (peers.info host).isInitiator (peers.info host.other) = false) (ephemeral : Nat) (oneTimeId : OneTimeId) :
    Poking snow peers (fun other => turn snow peers other (slots other) (.connect host ephemeral oneTimeId))
      (state.perform snow host ((peers.info host).connect (peers.info host.other) peers.id ephemeral oneTimeId)) := by
  simp only [ConnectionInfo.connect, responds, Bool.false_eq_true, ↓reduceIte]
  refine poking.concerned host (.connect host ephemeral oneTimeId) (by simp [Access.concerns, Access.id?]) ?_ ?_ ?_
  · simp [Slot.access, turn]
  · exact fun other apart => (turn_apart apart _).2 ephemeral oneTimeId
  · simp only [Slot.access, Slot.respond]
    split <;> simp [Output.outgoing]

theorem step_poking (equal : (peers.keypairs .first).publicKey = (peers.keypairs .second).publicKey) {label : Label}
    (poking : Poking snow peers slots state) (stepped : step snow peers state label = some next) :
    Poking snow peers (fun host => turn snow peers host (slots host) label) next := by
  cases label with
  | connect host ephemeral oneTimeId =>
    simp only [step] at stepped
    split at stepped
    · cases stepped
    · cases stepped
      have same : (peers.info host).publicKey = (peers.info host.other).publicKey := by
        cases host with
        | first => exact equal
        | second => exact equal.symm
      have responds : (peers.info host).isInitiator (peers.info host.other) = false := by
        rw [ConnectionInfo.isInitiator, same]
        exact decide_eq_false (List.lt_irrefl _)
      obtain ⟨shows, pokes, sent⟩ := poking.connect host responds ephemeral oneTimeId
      exact ⟨⟨shows.holds, shows.reached⟩, pokes, sent⟩
  | access host access =>
    simp only [step] at stepped
    split at stepped
    next permitted =>
      cases stepped
      cases about : access.concerns peers.id with
      | false =>
        simp only [turn_unconcerned _ host _ about]
        exact poking.unconcerned host about
      | true =>
        obtain ⟨unnamed, call⟩ : access.info? = none ∧ access.isDatagram = false := by
          simpa [permits, about] using permitted
        obtain ⟨turned, emitted⟩ := (poking.pokes host).call host about unnamed call
        exact poking.concerned host (.access host access) about turned (fun other apart => (turn_apart apart _).1 access) emitted
    · cases stepped
  | deliver index ephemeral =>
    obtain ⟨datagram, found, rfl⟩ := Option.map_eq_some_iff.mp stepped
    exact poking.deliver (List.mem_of_getElem? found) ephemeral

/-- The slots of the two hosts follow from their own connects and closes. -/
theorem run_poking (equal : (peers.keypairs .first).publicKey = (peers.keypairs .second).publicKey)
    (poking : Poking snow peers slots state) (reached : Runs.run (step snow peers) state labels = some next) :
    Poking snow peers (fun host => labels.foldl (turn snow peers host) (slots host)) next := by
  induction labels generalizing state slots with
  | nil =>
    cases reached
    exact poking
  | cons label labels ih =>
    obtain ⟨middle, stepped, rest⟩ := Runs.run_cons reached
    exact ih (step_poking equal poking stepped) rest

theorem run_joined {host : Host} (joined : host ∈ state.joined)
    (reached : Runs.run (step snow peers) state labels = some next) (ephemeral : Nat) (oneTimeId : OneTimeId) :
    .connect host ephemeral oneTimeId ∉ labels := by
  induction labels generalizing state with
  | nil => simp
  | cons label labels ih =>
    obtain ⟨middle, stepped, rest⟩ := Runs.run_cons reached
    have still : host ∈ middle.joined ∧ label ≠ .connect host ephemeral oneTimeId := by
      cases label with
      | connect other ephemeral oneTimeId =>
        simp only [step] at stepped
        split at stepped
        · cases stepped
        next unborn =>
          cases stepped
          refine ⟨List.mem_cons_of_mem _ joined, ?_⟩
          rintro ⟨⟩
          exact unborn (List.contains_iff_mem.mpr joined)
      | access other access =>
        simp only [step] at stepped
        split at stepped
        · cases stepped
          exact ⟨joined, by simp⟩
        · cases stepped
      | deliver index ephemeral =>
        obtain ⟨datagram, -, rfl⟩ := Option.map_eq_some_iff.mp stepped
        rw [(state.deliver_sent snow peers ephemeral datagram).2]
        exact ⟨joined, by simp⟩
    rw [List.mem_cons, not_or]
    exact ⟨still.2.symm, ih still.1 rest⟩

/-- A poker stays as it is until its connect is closed. -/
theorem foldl_turn {host : Host} {pending : PendingSessionPoker H} {oneTimeId : OneTimeId}
    (unborn : ∀ ephemeral other, .connect host ephemeral other ∉ labels)
    (unclosed : .access host (.operate (.closeSession peers.id oneTimeId)) ∉ labels) :
    labels.foldl (turn snow peers host) (.poking pending oneTimeId : Slot H S) = .poking pending oneTimeId := by
  induction labels with
  | nil => rfl
  | cons label labels ih =>
    have same : turn snow peers host (.poking pending oneTimeId : Slot H S) label = .poking pending oneTimeId := by
      unfold turn
      split
      next other ephemeral another =>
        split
        next acting =>
          subst acting
          exact absurd List.mem_cons_self (unborn ephemeral another)
        · rfl
      next other id another =>
        split
        next acting =>
          obtain ⟨rfl, rfl⟩ := acting
          have different : ¬ oneTimeId = another := by
            rintro rfl
            exact unclosed List.mem_cons_self
          simp [Slot.close, Slot.oneTimeId, different]
        · rfl
      · rfl
    rw [List.foldl_cons, same]
    exact ih (fun ephemeral other member => unborn ephemeral other (List.mem_cons_of_mem _ member))
      fun member => unclosed (List.mem_cons_of_mem _ member)

theorem foldl_connected {host : Host} {ephemeral : Nat} {oneTimeId : OneTimeId}
    (reached : Runs.run (step snow peers) state labels = some next)
    (connected : .connect host ephemeral oneTimeId ∈ labels)
    (unclosed : .access host (.operate (.closeSession peers.id oneTimeId)) ∉ labels)
    {responder : SnowResponder H}
    (built : SnowResponder.new snow (peers.keypairs host) (peers.keypairs host.other).publicKey = some responder)
    (slot : Slot H S) : labels.foldl (turn snow peers host) slot =
      .poking (.new peers.id (peers.info host.other) responder) oneTimeId := by
  induction labels generalizing state slot with
  | nil => cases connected
  | cons label labels ih =>
    obtain ⟨middle, stepped, rest⟩ := Runs.run_cons reached
    have later : Label.access host (.operate (.closeSession peers.id oneTimeId)) ∉ labels := fun member =>
      unclosed (List.mem_cons_of_mem _ member)
    rw [List.foldl_cons]
    rcases List.mem_cons.mp connected with rfl | connected
    · have responds : turn snow peers host slot (.connect host ephemeral oneTimeId) =
          .poking (.new peers.id (peers.info host.other) responder) oneTimeId := by
        have named : (peers.info host.other).publicKey = (peers.keypairs host.other).publicKey := rfl
        simp [turn, Slot.respond, named, built]
      have joined : host ∈ middle.joined := by
        simp only [step] at stepped
        split at stepped
        · cases stepped
        · cases stepped
          exact List.mem_cons_self
      rw [responds]
      exact foldl_turn (run_joined joined rest) later
    · exact ih rest connected later _

theorem Poking.tick (poking : Poking snow peers slots state) {host : Host} {responder : SnowResponder H}
    {oneTimeId : OneTimeId} (waits : slots host = .poking (.new peers.id (peers.info host.other) responder) oneTimeId) :
    (state.tick snow peers host).sent = state.sent ++ (peers.addresses host.other).map fun address =>
      ⟨host, address, ⟨peers.id, RawMessage.codec.encode .handshakePoke⟩⟩ := by
  have holds := poking.shows.holds host
  rw [waits] at holds
  have pokes : (state.handlers host).retransmissions peers.id = (peers.addresses host.other).map fun address =>
      (address, ⟨peers.id, RawMessage.codec.encode .handshakePoke⟩, 64) := by
    rw [Handler.retransmissions_slot holds]
    simp [Slot.retransmissions, PendingSessionPoker.new, JoinHandle.tick, JoinHandle.spawn, Peers.info]
  have unestablished : (state.handlers host).establishedSessions peers.id = none := holds.established
  simp [Rendezvous.tick, Rendezvous.perform, Handler.access, unestablished, pokes, Output.outgoing, List.map_map]

/-- Two sockets with the same key both wait to be initiated to: under no schedule
does either of them get past poking, and one that has connected pokes at every tick
until the connect is closed. -/
theorem same_key_never_meets (equal : (peers.keypairs .first).publicKey = (peers.keypairs .second).publicKey)
    (reached : Runs.run (step snow peers) (start peers) labels = some state) (host : Host) :
    ((state.handlers host).pendingSessionsInitiator peers.id = none ∧
      (state.handlers host).pendingSessionsResponder peers.id = none ∧
      (state.handlers host).establishedSessions peers.id = none) ∧
    ∀ ephemeral oneTimeId, .connect host ephemeral oneTimeId ∈ labels →
      .access host (.operate (.closeSession peers.id oneTimeId)) ∉ labels →
      (SnowResponder.new snow (peers.keypairs host) (peers.keypairs host.other).publicKey).isSome →
      ((state.handlers host).pendingSessionsPoker peers.id).map Pending.oneTimeId = some oneTimeId ∧
        (state.tick snow peers host).sent = state.sent ++ (peers.addresses host.other).map fun address =>
          ⟨host, address, ⟨peers.id, RawMessage.codec.encode .handshakePoke⟩⟩ := by
  have initial : Poking snow peers (fun _ => .vacant) (start peers) :=
    ⟨.start snow peers, fun _ => trivial, by simp [start]⟩
  have poking := run_poking equal initial reached
  obtain ⟨-, poker, initiator, responder, established⟩ := poking.shows.holds host
  refine ⟨?_, ?_⟩
  · rw [initiator, responder, established]
    have pokes := poking.pokes host
    cases current : labels.foldl (turn snow peers host) .vacant with
    | vacant | poking => exact ⟨rfl, rfl, rfl⟩
    | initiating | responding | established =>
      rw [current] at pokes
      cases pokes
  · intro ephemeral oneTimeId connected unclosed builds
    obtain ⟨responder, built⟩ := Option.isSome_iff_exists.mp builds
    have waits := foldl_connected reached connected unclosed built .vacant
    refine ⟨?_, poking.tick waits⟩
    rw [poker, waits]
    rfl

/-- Two sockets of one owner, who bound both with the same keypair. -/
def twins : Peers where
  id := 7
  keypairs _ := ⟨[1], [2]⟩
  addresses _ := [.v4 2 2]
  route _ _ := some (.v4 2 2)

theorem twins_never_meet : ∃ state : Rendezvous Bool Unit,
    Runs.run (step Handler.fixedSnow twins) (start twins) [.connect .first 0 40, .connect .second 0 50,
        .access .first (.retransmit 7), .deliver 0 0, .access .second (.retransmit 7), .deliver 1 0] = some state ∧
      (state.handlers .first).establishedSessions 7 = none ∧
      (state.tick Handler.fixedSnow twins .first).sent =
        state.sent ++ [⟨.first, .v4 2 2, ⟨7, RawMessage.codec.encode .handshakePoke⟩⟩] := by
  have reached : Runs.run (step Handler.fixedSnow twins) (start twins) [.connect .first 0 40, .connect .second 0 50,
    .access .first (.retransmit 7), .deliver 0 0, .access .second (.retransmit 7), .deliver 1 0] = some _ := rfl
  obtain ⟨⟨-, -, unestablished⟩, pokes⟩ := same_key_never_meets rfl reached .first
  exact ⟨_, reached, unestablished, (pokes 0 40 (by decide) (by decide) rfl).2⟩

end Rendezvous
end Veq
