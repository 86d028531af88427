import Veq.Proofs.Rendezvous

/-! Two sockets that connect to each other meet: from every state that they can
get into, a few datagrams that arrive complete the handshake. -/

namespace Veq
open Rust Bincode Machines

variable {H S : Type}

/-- How far a session has come: not registered, poking or initiating, responding,
established. -/
def Handler.stage (handler : Handler H S) (id : SessionId) : Nat :=
  if (handler.establishedSessions id).isSome then 3
  else if (handler.pendingSessionsResponder id).isSome then 2
  else if (handler.pendingSessionsPoker id).isSome || (handler.pendingSessionsInitiator id).isSome then 1
  else 0

theorem Handler.stage_le (handler : Handler H S) (id : SessionId) : handler.stage id ≤ 3 := by
  unfold Handler.stage
  split
  · exact Nat.le_refl 3
  · split
    · omega
    · split <;> omega

namespace Slot

def stage : Slot H S → Nat
  | .vacant => 0
  | .poking _ _ => 1
  | .initiating _ _ => 1
  | .responding _ _ => 2
  | .established _ _ => 3

/-- An established session is alive and has nonces left. -/
def Fresh (bound : Nat) : Slot H S → Prop
  | .established session _ => session.dead = false ∧ session.transport.nextNonce < bound
  | _ => True

theorem Fresh.imp {bound : Nat} {slot : Slot H S} (fresh : slot.Fresh bound) : slot.Fresh (bound + 1) := by
  cases slot with
  | established session oneTimeId => exact ⟨fresh.1, Nat.lt_succ_of_lt fresh.2⟩
  | _ => trivial

end Slot

theorem Handler.Holds.stage {keypair : SnowKeypair} {id : SessionId} {handler : Handler H S} {slot : Slot H S}
    (holds : Holds keypair id handler slot) : handler.stage id = slot.stage := by
  rw [Handler.stage, holds.established, holds.responder, holds.poker, holds.initiator]
  cases slot <;> rfl

namespace Rendezvous

variable {snow : Snow H S} {peers : Peers} {cipher : Cipher S} {packet : SessionPacket} {slot next : Slot H S}

theorem Hears.stage (hears : Hears cipher packet slot next) :
    slot.stage ≤ next.stage ∧ (slot.stage ≠ 0 → packet.variant = some 2 → next.stage = 3) := by
  cases hears with
  | passes slot other =>
    refine ⟨Nat.le_refl _, ?_⟩
    intro present variant
    rcases other with rfl | other
    · exact absurd rfl present
    · exact absurd variant other
  | opens => exact ⟨by simp [Slot.stage], fun _ _ => rfl⟩
  | reads => exact ⟨Nat.le_refl _, fun _ _ => rfl⟩

theorem Heeds.stage (heeds : Heeds cipher packet slot next) :
    slot.stage ≤ next.stage ∧ (slot.stage ≠ 0 → packet.variant = some 1 → 2 ≤ next.stage) := by
  cases heeds with
  | passes slot other =>
    refine ⟨Nat.le_refl _, ?_⟩
    intro present variant
    rcases other with rfl | other
    · exact absurd rfl present
    · exact absurd variant other
  | _ => exact ⟨by simp [Slot.stage], fun _ _ => by simp [Slot.stage]⟩

theorem Hears.fresh {bound : Nat} (positive : 0 < bound) (hears : Hears cipher packet slot next) (fresh : slot.Fresh bound) :
    next.Fresh bound := by
  cases hears with
  | passes => exact fresh
  | opens => exact ⟨rfl, positive⟩
  | reads session oneTimeId =>
    refine ⟨(session.handleIncoming_dead cipher packet).trans fresh.1, ?_⟩
    rw [(session.handleIncoming_state cipher packet).1, afterPacket_nextNonce]
    exact fresh.2

section

variable {state : Rendezvous H S} {slots : Host → Slot H S} {opening : Option (SnowInitiator H)} {answer : Option (S × Bytes)}
  {bound : Nat}

/-- Nobody has given the session up, and the initiator's session, once established,
is alive. -/
structure Ready (snow : Snow H S) (peers : Peers) (bound : Nat) (state : Rendezvous H S) : Prop where
  valid : Valid snow peers state
  present : ∀ host, (state.handlers host).stage peers.id ≠ 0
  fresh : ∀ oneTimeId session, (state.handlers .first).establishedSessions peers.id = some (oneTimeId, session) →
    session.dead = false ∧ session.transport.nextNonce < bound

theorem Ready.of_slots (shows : Shows snow peers state slots)
    (sound : Sound snow peers slots state.sent state.joined opening answer) (present : ∀ host, (slots host).stage ≠ 0)
    (fresh : (slots .first).Fresh bound) : Ready snow peers bound state := by
  refine ⟨⟨slots, opening, answer, shows, sound⟩, ?_, ?_⟩
  · intro host
    rw [(shows.holds host).stage]
    exact present host
  · intro oneTimeId session found
    rw [(shows.holds .first).established] at found
    generalize slots .first = slot at found fresh
    cases slot with
    | established current other =>
      cases found
      exact fresh
    | _ => cases found

theorem Ready.shown (ready : Ready snow peers bound state) : ∃ slots opening answer, Shows snow peers state slots ∧
    Sound snow peers slots state.sent state.joined opening answer ∧ (∀ host, (slots host).stage ≠ 0) ∧
    (slots .first).Fresh bound := by
  obtain ⟨⟨slots, opening, answer, shows, sound⟩, present, fresh⟩ := ready
  refine ⟨slots, opening, answer, shows, sound, ?_, ?_⟩
  · intro host
    rw [← (shows.holds host).stage]
    exact present host
  · have found := (shows.holds .first).established
    generalize slots .first = slot at found ⊢
    cases slot with
    | established session oneTimeId => exact fresh oneTimeId session found
    | _ => trivial

/-- No host falls back. -/
def Advances (peers : Peers) (state next : Rendezvous H S) : Prop :=
  ∀ host, (state.handlers host).stage peers.id ≤ (next.handlers host).stage peers.id

/-- A datagram that arrives disturbs nothing, and a handshake message is accepted. -/
theorem Ready.deliver (ready : Ready snow peers bound state)
    (completes : snow.Completes (peers.keypairs .first) (peers.keypairs .second)) (positive : 0 < bound)
    {datagram : Datagram} (member : datagram ∈ state.sent) (ephemeral : Nat) :
    Ready snow peers bound (state.deliver snow peers ephemeral datagram) ∧
      Advances peers state (state.deliver snow peers ephemeral datagram) ∧
      (datagram.packet.id = peers.id → (peers.route datagram.sender datagram.destination).isSome →
        (datagram.sender = .first → datagram.packet.variant = some 1 →
          2 ≤ ((state.deliver snow peers ephemeral datagram).handlers .second).stage peers.id) ∧
        (datagram.sender = .second → datagram.packet.variant = some 2 →
          ((state.deliver snow peers ephemeral datagram).handlers .first).stage peers.id = 3)) := by
  obtain ⟨slots, opening, answer, shows, sound, present, fresh⟩ := ready.shown
  obtain ⟨sent, joined⟩ := state.deliver_sent snow peers ephemeral datagram
  rcases shows.deliver sound completes member ephemeral with ⟨shown, lost⟩ | ⟨src, same, routed, shown⟩
  · refine ⟨.of_slots shown (by rw [sent, joined]; exact sound) present fresh, ?_, ?_⟩
    · intro host
      rw [(shows.holds host).stage, (shown.holds host).stage]
    · intro same arrives
      rw [lost same] at arrives
      cases arrives
  · obtain ⟨next, moved⟩ := sound.arrives completes member same routed ephemeral
    cases sender : datagram.sender with
    | first =>
      rw [sender] at routed shown moved
      have heeds := (sound.second.receive completes sound.opened sound.answered
        (sound.fromFirst datagram member sender same) ⟨_, routed⟩ ephemeral).1
      obtain ⟨later, answers⟩ := heeds.stage
      refine ⟨.of_slots shown (by rw [sent, joined]; exact moved) ?_ (by simpa [Host.other] using fresh), ?_, ?_⟩
      · intro host
        cases host with
        | first => simpa [Host.other] using present .first
        | second => simpa [Host.other] using Nat.ne_of_gt (Nat.lt_of_lt_of_le (Nat.pos_of_ne_zero (present .second)) later)
      · intro host
        rw [(shows.holds host).stage, (shown.holds host).stage]
        cases host with
        | first => simp [Host.other]
        | second => simpa [Host.other] using later
      · intro _ _
        refine ⟨?_, by simp⟩
        intro _ variant
        rw [(shown.holds .second).stage]
        simpa [Host.other] using answers (present .second) variant
    | second =>
      rw [sender] at routed shown moved
      have hears := (sound.first.receive completes sound.opened sound.answered
        (sound.fromSecond datagram member sender same) ⟨_, routed⟩ ephemeral).2
      obtain ⟨later, answers⟩ := hears.stage
      refine ⟨.of_slots shown (by rw [sent, joined]; exact moved) ?_ ?_, ?_, ?_⟩
      · intro host
        cases host with
        | first => simpa [Host.other] using Nat.ne_of_gt (Nat.lt_of_lt_of_le (Nat.pos_of_ne_zero (present .first)) later)
        | second => simpa [Host.other] using present .second
      · simpa [Host.other] using hears.fresh positive fresh
      · intro host
        rw [(shows.holds host).stage, (shown.holds host).stage]
        cases host with
        | first => simpa [Host.other] using later
        | second => simp [Host.other]
      · intro _ _
        refine ⟨by simp, ?_⟩
        intro _ variant
        rw [(shown.holds .first).stage]
        simpa [Host.other] using answers (present .first) variant

theorem Ready.deliverAll (completes : snow.Completes (peers.keypairs .first) (peers.keypairs .second)) (positive : 0 < bound)
    (ephemeral : Nat) {batch : List Datagram} (ready : Ready snow peers bound state) (members : batch ⊆ state.sent) :
    let final := batch.foldl (Rendezvous.deliver snow peers · ephemeral ·) state
    Ready snow peers bound final ∧ Advances peers state final ∧
      ∀ datagram ∈ batch, datagram.packet.id = peers.id → (peers.route datagram.sender datagram.destination).isSome →
        (datagram.sender = .first → datagram.packet.variant = some 1 → 2 ≤ (final.handlers .second).stage peers.id) ∧
        (datagram.sender = .second → datagram.packet.variant = some 2 → (final.handlers .first).stage peers.id = 3) := by
  induction batch generalizing state with
  | nil => exact ⟨ready, fun _ => Nat.le_refl _, by simp⟩
  | cons head rest ih =>
    obtain ⟨next, advances, accepts⟩ := ready.deliver completes positive (members List.mem_cons_self) ephemeral
    have remaining : rest ⊆ (state.deliver snow peers ephemeral head).sent := by
      rw [(state.deliver_sent snow peers ephemeral head).1]
      exact fun _ member => members (List.mem_cons_of_mem head member)
    obtain ⟨final, onward, others⟩ := ih next remaining
    refine ⟨final, fun host => Nat.le_trans (advances host) (onward host), ?_⟩
    intro datagram member same arrives
    rcases List.mem_cons.mp member with rfl | later
    · obtain ⟨initiation, response⟩ := accepts same arrives
      refine ⟨?_, ?_⟩
      · intro sender variant
        exact Nat.le_trans (initiation sender variant) (onward .second)
      · intro sender variant
        have reached := response sender variant
        have bounded := Handler.stage_le ((rest.foldl (Rendezvous.deliver snow peers · ephemeral ·)
          (state.deliver snow peers ephemeral datagram)).handlers .first) peers.id
        have := onward .first
        simp only [List.foldl_cons]
        omega
    · exact others datagram later same arrives

theorem Shows.call (shows : Shows snow peers state slots)
    (sound : Sound snow peers slots state.sent state.joined opening answer) (host : Host) {access : Access}
    (about : access.concerns peers.id = true) (unnamed : access.info? = none) (call : access.isDatagram = false) :
    Shows snow peers (state.perform snow host access)
        (Function.update slots host ((slots host).access snow (peers.keypairs host) peers.id access).1) ∧
      Sound snow peers (Function.update slots host ((slots host).access snow (peers.keypairs host) peers.id access).1)
        (state.perform snow host access).sent (state.perform snow host access).joined opening answer ∧
      (state.perform snow host access).sent = state.sent ++
        ((slots host).access snow (peers.keypairs host) peers.id access).2.outgoing.map
          fun outgoing => ⟨host, outgoing.1, outgoing.2.1⟩ := by
  obtain ⟨shown, sent⟩ := shows.concerned host about
  refine ⟨shown, ?_, sent⟩
  rw [sent, perform_joined]
  cases host with
  | first => exact sound.callFirst unnamed call
  | second => exact sound.callSecond unnamed call

/-- A tick retransmits the handshake message of a pending session, or keeps an
established session alive. -/
theorem Shows.tick (shows : Shows snow peers state slots)
    (sound : Sound snow peers slots state.sent state.joined opening answer) (host : Host) :
    ∃ next outgoing, Shows snow peers (state.tick snow peers host) (Function.update slots host next) ∧
      Sound snow peers (Function.update slots host next) (state.tick snow peers host).sent
        (state.tick snow peers host).joined opening answer ∧
      (state.tick snow peers host).sent =
        state.sent ++ outgoing.map (fun outgoing => ⟨host, outgoing.1, outgoing.2.1⟩) ∧
      (next = slots host ∧ outgoing = (slots host).retransmissions ∧
          (∀ session oneTimeId, slots host = .established session oneTimeId → session.dead = true) ∨
        ∃ session oneTimeId, slots host = .established session oneTimeId ∧ session.dead = false ∧
          next = .established (session.keepalive snow.toCipher).1 oneTimeId ∧
          outgoing = (Output.sent (session.keepalive snow.toCipher).2).outgoing) := by
  have about : Access.concerns peers.id (.retransmit peers.id) = true := by simp [Access.concerns, Access.id?]
  obtain ⟨shown, kept, sent⟩ := shows.call sound host about rfl rfl
  have still : ((slots host).access snow (peers.keypairs host) peers.id (.retransmit peers.id)).1 = slots host := rfl
  rw [still, Function.update_eq_self] at shown kept
  have registered := (shown.holds host).established
  unfold Rendezvous.tick
  dsimp only
  cases current : slots host with
  | established session oneTimeId =>
    rw [current] at registered sent
    simp only [registered, Slot.session, Session.isDead]
    by_cases dead : session.dead = true
    · simp only [dead, ↓reduceIte]
      refine ⟨slots host, [], ?_, ?_, ?_, .inl ⟨current, rfl, ?_⟩⟩
      · rw [Function.update_eq_self]
        exact shown
      · rw [Function.update_eq_self]
        exact kept
      · exact sent
      · rintro other same ⟨⟩
        exact dead
    · simp only [dead, Bool.false_eq_true, ↓reduceIte]
      have named : Access.concerns peers.id (.operate (.keepalive peers.id)) = true := by simp [Access.concerns, Access.id?]
      obtain ⟨alive, stays, emitted⟩ := shown.call kept host named rfl rfl
      rw [current] at alive stays emitted
      refine ⟨_, _, alive, stays, ?_, .inr ⟨session, oneTimeId, rfl, by simpa using dead, rfl, rfl⟩⟩
      rw [emitted, sent]
      simp [Slot.access, Slot.retransmissions, Output.outgoing, Slot.keepalive]
  | vacant | poking | initiating | responding =>
    rw [current] at registered sent
    simp only [registered, Slot.session]
    refine ⟨slots host, (slots host).retransmissions, ?_, ?_, ?_, .inl ⟨current, by rw [current], by simp⟩⟩
    · rw [Function.update_eq_self]
      exact shown
    · rw [Function.update_eq_self]
      exact kept
    · rw [current]
      exact sent

theorem keepalive_fresh {session : Session S} {oneTimeId : OneTimeId}
    (fresh : (.established session oneTimeId : Slot H S).Fresh bound) :
    (.established (session.keepalive cipher).1 oneTimeId : Slot H S).Fresh (bound + 1) := by
  obtain ⟨alive, below⟩ := fresh
  simp only [Slot.Fresh, Session.keepalive, Session.encrypt_state]
  refine ⟨alive, ?_⟩
  unfold LossyTransportState.writeMessage
  split
  · exact Nat.lt_succ_of_lt below
  next nextNonce added =>
    have := (addU64_ok added).1
    split
    · simp only
      omega
    · simp only
      omega

theorem Ready.tick (shows : Shows snow peers state slots)
    (sound : Sound snow peers slots state.sent state.joined opening answer) (present : ∀ host, (slots host).stage ≠ 0)
    (fresh : (slots .first).Fresh bound) (host : Host) :
    Ready snow peers (bound + 1) (state.tick snow peers host) ∧ Advances peers state (state.tick snow peers host) ∧
      ∃ batch, (state.tick snow peers host).sent = state.sent ++ batch ∧
        ∀ outgoing ∈ (slots host).retransmissions, ⟨host, outgoing.1, outgoing.2.1⟩ ∈ batch := by
  obtain ⟨next, outgoing, shown, kept, sent, ticked⟩ := shows.tick sound host
  have same : next.stage = (slots host).stage := by
    rcases ticked with ⟨rfl, -⟩ | ⟨session, oneTimeId, current, -, rfl, -⟩
    · rfl
    · rw [current]
      rfl
  have stages : ∀ other, (Function.update slots host next other).stage = (slots other).stage := by
    intro other
    by_cases equal : other = host
    · subst equal
      simpa using same
    · simp [equal]
  refine ⟨.of_slots shown kept (fun other => by rw [stages]; exact present other) ?_, ?_, _, sent, ?_⟩
  · cases host with
    | second =>
      simp only [ne_eq, reduceCtorEq, not_false_eq_true, Function.update_of_ne]
      exact fresh.imp
    | first =>
      simp only [Function.update_self]
      rcases ticked with ⟨rfl, -⟩ | ⟨session, oneTimeId, current, -, rfl, -⟩
      · exact fresh.imp
      · rw [current] at fresh
        exact keepalive_fresh fresh
  · intro other
    rw [(shows.holds other).stage, (shown.holds other).stage, stages]
  · intro sending member
    rcases ticked with ⟨-, rfl, -⟩ | ⟨session, oneTimeId, current, -⟩
    · exact List.mem_map_of_mem member
    · rw [current] at member
      cases member

theorem Ready.exchange (ready : Ready snow peers bound state)
    (completes : snow.Completes (peers.keypairs .first) (peers.keypairs .second)) (ephemeral : Nat) (host : Host) :
    let final := state.exchange snow peers ephemeral host
    Ready snow peers (bound + 1) final ∧ Advances peers state final ∧
      ∀ outgoing ∈ (state.handlers host).retransmissions peers.id, outgoing.2.1.id = peers.id →
        (peers.route host outgoing.1).isSome →
        (host = .first → outgoing.2.1.variant = some 1 → 2 ≤ (final.handlers .second).stage peers.id) ∧
        (host = .second → outgoing.2.1.variant = some 2 → (final.handlers .first).stage peers.id = 3) := by
  obtain ⟨slots, opening, answer, shows, sound, present, fresh⟩ := ready.shown
  obtain ⟨ticked, still, batch, sent, retransmitted⟩ := Ready.tick shows sound present fresh host
  have new : (state.tick snow peers host).sent.drop state.sent.length = batch := by
    rw [sent, List.drop_left]
  have members : batch ⊆ (state.tick snow peers host).sent := by
    rw [sent]
    exact List.subset_append_right _ _
  obtain ⟨final, advances, accepts⟩ := ticked.deliverAll completes (Nat.succ_pos bound) ephemeral members
  simp only [Rendezvous.exchange, new]
  refine ⟨final, fun other => Nat.le_trans (still other) (advances other), ?_⟩
  intro outgoing member
  rw [Handler.retransmissions_slot (shows.holds host)] at member
  exact accepts ⟨host, outgoing.1, outgoing.2.1⟩ (retransmitted outgoing member)

theorem Ready.initiates (ready : Ready snow peers bound state)
    (completes : snow.Completes (peers.keypairs .first) (peers.keypairs .second))
    (reachable : ∃ address ∈ peers.addresses .second, (peers.route .first address).isSome) (ephemeral : Nat) :
    Ready snow peers (bound + 1) (state.exchange snow peers ephemeral .first) ∧
      2 ≤ ((state.exchange snow peers ephemeral .first).handlers .second).stage peers.id := by
  obtain ⟨final, advances, accepts⟩ := ready.exchange completes ephemeral .first
  refine ⟨final, ?_⟩
  obtain ⟨slots, opening, answer, shows, sound, present, -⟩ := ready.shown
  by_cases far : 2 ≤ (state.handlers .second).stage peers.id
  · exact Nat.le_trans far (advances .second)
  · have responds := sound.second
    have initiates := sound.first
    have here := present .first
    have there := present .second
    rw [(shows.holds .second).stage] at far
    rw [Handler.retransmissions_slot (shows.holds .first)] at accepts
    generalize slots .second = second at responds far there
    generalize slots .first = first at responds initiates here accepts
    cases second with
    | vacant => exact absurd rfl there
    | initiating => cases responds
    | responding | established => simp [Slot.stage] at far
    | poking pending oneTimeId =>
      obtain ⟨unanswered, -⟩ := responds
      cases first with
      | vacant => exact absurd rfl here
      | poking | responding => cases initiates
      | established session other =>
        obtain ⟨-, -, current, given, -, answered, -⟩ := initiates
        cases unanswered.symm.trans answered
      | initiating waiting other =>
        obtain ⟨current, -, rfl⟩ := initiates
        obtain ⟨address, named, arrives⟩ := reachable
        have sends : (address, ⟨peers.id, RawMessage.codec.encode (.handshakeInitiation current.initiation)⟩, 64) ∈
            (.initiating (.new peers.id (peers.info .second) current) other : Slot H S).retransmissions :=
          List.mem_map.mpr ⟨address, named, rfl⟩
        exact (accepts _ sends rfl arrives).1 rfl (SessionPacket.variant_encode _ _)

theorem Ready.responds (ready : Ready snow peers bound state)
    (completes : snow.Completes (peers.keypairs .first) (peers.keypairs .second))
    (replies : ∀ host destination src, peers.route host destination = some src → (peers.route host.other src).isSome)
    (far : 2 ≤ (state.handlers .second).stage peers.id) (ephemeral : Nat) :
    Ready snow peers (bound + 1) (state.exchange snow peers ephemeral .second) ∧
      2 ≤ ((state.exchange snow peers ephemeral .second).handlers .second).stage peers.id ∧
      ((state.exchange snow peers ephemeral .second).handlers .first).stage peers.id = 3 := by
  obtain ⟨final, advances, accepts⟩ := ready.exchange completes ephemeral .second
  refine ⟨final, Nat.le_trans far (advances .second), ?_⟩
  obtain ⟨slots, opening, answer, shows, sound, present, -⟩ := ready.shown
  by_cases done : (state.handlers .first).stage peers.id = 3
  · have := advances .first
    have := ((state.exchange snow peers ephemeral .second).handlers .first).stage_le peers.id
    omega
  · have responds := sound.second
    have initiates := sound.first
    have here := present .first
    rw [(shows.holds .second).stage] at far
    rw [(shows.holds .first).stage] at done
    rw [Handler.retransmissions_slot (shows.holds .second)] at accepts
    generalize slots .second = second at responds far accepts
    generalize slots .first = first at responds initiates here done
    cases first with
    | vacant => exact absurd rfl here
    | poking | responding => cases initiates
    | established => exact absurd rfl done
    | initiating waiting other =>
      cases second with
      | vacant | poking => simp [Slot.stage] at far
      | initiating => cases responds
      | established session oneTimeId =>
        obtain ⟨-, -, nonce, spent⟩ := responds
        cases spent
      | responding pending oneTimeId =>
        obtain ⟨⟨-, -, destination, routed⟩, ⟨given, -, -, handle⟩, -⟩ := responds
        have sends : (pending.remoteAddr, ⟨peers.id, RawMessage.codec.encode (.handshakeResponse given.2)⟩, 64) ∈
            (.responding pending oneTimeId : Slot H S).retransmissions := by
          simp [Slot.retransmissions, JoinHandle.tick, handle, JoinHandle.spawn]
        exact (accepts _ sends rfl (replies .first destination pending.remoteAddr routed)).2 rfl
          (SessionPacket.variant_encode _ _)

/-- What one end of the handshake seals, the other end opens. -/
theorem Initiates.seals (sound : Sound snow peers slots state.sent state.joined opening answer)
    (completes : snow.Completes (peers.keypairs .first) (peers.keypairs .second)) {session : Session S}
    {oneTimeId : OneTimeId} (initiates : Initiates snow peers opening answer (.established session oneTimeId)) :
    ∃ given, answer = some given ∧ snow.toCipher.Seals session.transport.stateless given.1 ∧
      snow.toCipher.Seals given.1 session.transport.stateless := by
  obtain ⟨-, -, current, given, begun, made, accepted⟩ := initiates
  obtain ⟨other, same, answered⟩ := sound.answered given made
  cases begun.symm.trans same
  obtain ⟨-, left, agreed, forth, back⟩ := answered.accepted (sound.opened current begun) completes
  rw [accepted] at agreed
  simp only [LossyTransportState.fromStateless, LossyTransportState.new, Except.ok.injEq, ReceiveResponseResult.ok.injEq,
    LossyTransportState.mk.injEq, and_true] at agreed
  subst agreed
  exact ⟨given, made, forth, back⟩

theorem keepalive_confirms {session : Session S} {pending : PendingSessionResponder S}
    (seals : snow.toCipher.Seals session.transport.stateless pending.transport.stateless)
    (room : session.transport.nextNonce < 2 ^ 64 - 1)
    (unseen : ∀ nonce ∈ pending.transport.receivedNonces, nonce < session.transport.nextNonce) :
    ∃ packet, (session.keepalive snow.toCipher).2 = .ok (session.remoteAddr, packet, 64) ∧ packet.id = session.id ∧
      packet.data.length < 2 ^ 64 ∧ ∀ src ephemeral oneTimeId,
        ((.responding pending oneTimeId : Slot H S).receive snow src packet ephemeral).stage = 3 := by
  have size : (Message.codec.encode .keepalive).length = 4 := by decide
  obtain ⟨ciphertext, written, tagged⟩ := seals.writes session.transport.nextNonce (Message.codec.encode .keepalive) 65535
    room (by rw [size]; decide)
  have framed := Nonced.length_encode ⟨session.transport.nextNonce, ciphertext⟩
  simp only [tagged, size] at framed
  have opened := seals.opens session.transport.nextNonce _ ciphertext 65535 65535 written (by rw [size]; decide)
  have admitted : ¬ Window.Refuses pending.transport.receivedNonces session.transport.nextNonce := by
    rw [Window.refuses_iff]
    rintro (member | ⟨⟨other, member⟩, below⟩)
    · exact Nat.lt_irrefl _ (unseen _ member)
    · exact Nat.lt_asymm (unseen other member) (below other member)
  have read := LossyTransportState.readMessage_admitted (by omega) (by omega) admitted opened
  refine ⟨_, session.encrypt_whole room written (by omega), rfl, ?_, ?_⟩
  · simp only [RawMessage.length_encode_encrypted]
    omega
  · intro src ephemeral oneTimeId
    have decoded : RawMessage.codec.deserialize (RawMessage.codec.encode (.encrypted (Nonced.codec.encode
        ⟨session.transport.nextNonce, ciphertext⟩))) = _ :=
      RawMessage.codec.deserialize_encode (RawMessage.fits_encrypted (by omega))
    simp only [Slot.receive, PendingSessionResponder.advance, PendingSessionResponder.handleIncoming, decoded, read,
      Message.codec.deserialize_encode Message.fits_keepalive]
    cases pending.waker with
    | none => rfl
    | some waker => rfl

theorem Ready.confirms (ready : Ready snow peers bound state)
    (completes : snow.Completes (peers.keypairs .first) (peers.keypairs .second))
    (replies : ∀ host destination src, peers.route host destination = some src → (peers.route host.other src).isSome)
    (done : (state.handlers .first).stage peers.id = 3) (far : 2 ≤ (state.handlers .second).stage peers.id)
    (room : bound ≤ 2 ^ 64 - 1) (ephemeral : Nat) : ∀ host,
      ((state.exchange snow peers ephemeral .first).handlers host).stage peers.id = 3 := by
  obtain ⟨-, advances, -⟩ := ready.exchange completes ephemeral .first
  have settled : ∀ host, (state.handlers host).stage peers.id = 3 →
      ((state.exchange snow peers ephemeral .first).handlers host).stage peers.id = 3 := by
    intro host reached
    have := advances host
    have := ((state.exchange snow peers ephemeral .first).handlers host).stage_le peers.id
    omega
  intro host
  cases host with
  | first => exact settled .first done
  | second =>
    by_cases finished : (state.handlers .second).stage peers.id = 3
    · exact settled .second finished
    · obtain ⟨slots, opening, answer, shows, sound, -, fresh⟩ := ready.shown
      have initiates := sound.first
      have responds := sound.second
      obtain ⟨next, outgoing, shown, kept, sent, ticked⟩ := shows.tick sound .first
      rw [(shows.holds .second).stage] at far finished
      rw [(shows.holds .first).stage] at done
      cases second : slots .second with
      | vacant | poking => simp [second, Slot.stage] at far
      | established => simp [second, Slot.stage] at finished
      | initiating => simp [second, Responds] at responds
      | responding pending oneTimeId =>
        cases first : slots .first with
        | vacant | poking | initiating | responding => simp [first, Slot.stage] at done
        | established session other =>
          rw [first] at initiates responds fresh ticked
          rw [second] at responds
          obtain ⟨given, made, seals, -⟩ := initiates.seals sound completes
          obtain ⟨-, ⟨other, same, stateless, -⟩, unseen⟩ := responds
          cases made.symm.trans same
          rw [← stateless] at seals
          obtain ⟨packet, emitted, named, short, receives⟩ := keepalive_confirms (H := H) seals (by have := fresh.2; omega) unseen
          rcases ticked with ⟨-, -, dead⟩ | ⟨current, oneTimeId, equal, -, -, rfl⟩
          · cases (dead session _ rfl).symm.trans fresh.1
          · cases equal
            obtain ⟨named', ⟨destination, routed⟩, -⟩ := initiates
            obtain ⟨src, arrives⟩ := Option.isSome_iff_exists.mp (replies .second destination _ routed)
            rw [emitted] at sent
            have new : (state.tick snow peers .first).sent.drop state.sent.length =
                [⟨.first, session.remoteAddr, packet⟩] := by
              rw [sent, List.drop_left]
              rfl
            have member : (⟨.first, session.remoteAddr, packet⟩ : Datagram) ∈ (state.tick snow peers .first).sent := by
              rw [sent]
              simp [Output.outgoing]
            rcases shown.deliver kept completes member ephemeral with ⟨-, lost⟩ | ⟨src, -, -, reached⟩
            · have gone := lost (named.trans named')
              simp only [Host.other] at arrives
              rw [arrives] at gone
              cases gone
            · simp only [Rendezvous.exchange, new, List.foldl_cons, List.foldl_nil]
              rw [(reached.holds .second).stage]
              simp only [Host.other, Function.update_self, ne_eq, reduceCtorEq, not_false_eq_true, Function.update_of_ne,
                second]
              exact receives _ _ _

theorem run_valid (completes : snow.Completes (peers.keypairs .first) (peers.keypairs .second))
    (order : (peers.keypairs .first).publicKey < (peers.keypairs .second).publicKey) {labels : List Label}
    (reached : Runs.run (step snow peers) (start peers) labels = some state) : Valid snow peers state :=
  Runs.persists (fun _ _ _ valid stepped => step_valid completes order valid stepped) (.start snow peers) reached

/-- Both hosts hold the two ends of one handshake. -/
theorem Ready.agrees (ready : Ready snow peers bound state)
    (completes : snow.Completes (peers.keypairs .first) (peers.keypairs .second))
    (established : ∀ host, (state.handlers host).stage peers.id = 3) : ∃ oneTimeId session otherId other,
      (state.handlers .first).establishedSessions peers.id = some (oneTimeId, session) ∧
      (state.handlers .second).establishedSessions peers.id = some (otherId, other) ∧
      snow.toCipher.Seals session.transport.stateless other.transport.stateless ∧
      snow.toCipher.Seals other.transport.stateless session.transport.stateless := by
  obtain ⟨slots, opening, answer, shows, sound, -, -⟩ := ready.shown
  have initiates := sound.first
  have responds := sound.second
  have here := (shows.holds .first).established
  have there := (shows.holds .second).established
  have stages := fun host => (shows.holds host).stage.symm.trans (established host)
  cases first : slots .first with
  | vacant | poking | initiating | responding =>
    have := stages .first
    simp [first, Slot.stage] at this
  | established session oneTimeId =>
    cases second : slots .second with
    | vacant | poking | initiating | responding =>
      have := stages .second
      simp [second, Slot.stage] at this
    | established other otherId =>
      rw [first] at initiates here
      rw [second] at responds there
      obtain ⟨given, made, forth, back⟩ := initiates.seals sound completes
      obtain ⟨-, ⟨same, answered, stateless⟩, -⟩ := responds
      cases made.symm.trans answered
      rw [← stateless] at forth back
      exact ⟨oneTimeId, session, otherId, other, here, there, forth, back⟩

/-- Whatever was lost, repeated, delayed or reordered before, three ticks whose
datagrams arrive establish the session at both ends, as long as neither end has
given it up and the initiator's session, if it is established, is alive. -/
theorem round_completes (completes : snow.Completes (peers.keypairs .first) (peers.keypairs .second))
    (order : (peers.keypairs .first).publicKey < (peers.keypairs .second).publicKey)
    (reachable : ∃ address ∈ peers.addresses .second, (peers.route .first address).isSome)
    (replies : ∀ host destination src, peers.route host destination = some src → (peers.route host.other src).isSome)
    {labels : List Label} (reached : Runs.run (step snow peers) (start peers) labels = some state)
    (present : ∀ host, (state.handlers host).stage peers.id ≠ 0)
    (alive : ∀ oneTimeId session, (state.handlers .first).establishedSessions peers.id = some (oneTimeId, session) →
      session.dead = false ∧ session.transport.nextNonce < 2 ^ 64 - 3) (ephemeral : Nat) :
    let final := [.first, .second, .first].foldl (exchange snow peers ephemeral) state
    ∃ oneTimeId session otherId other,
      (final.handlers .first).establishedSessions peers.id = some (oneTimeId, session) ∧
      (final.handlers .second).establishedSessions peers.id = some (otherId, other) ∧
      snow.toCipher.Seals session.transport.stateless other.transport.stateless ∧
      snow.toCipher.Seals other.transport.stateless session.transport.stateless := by
  have ready : Ready snow peers (2 ^ 64 - 3) state := ⟨run_valid completes order reached, present, alive⟩
  obtain ⟨answering, far⟩ := ready.initiates completes reachable ephemeral
  obtain ⟨confirming, still, done⟩ := answering.responds completes replies far ephemeral
  have last := (confirming.exchange completes ephemeral .first).1
  exact last.agrees completes (confirming.confirms completes replies done still (by decide) ephemeral)

end

theorem fixedSnow_completes (initiator responder : SnowKeypair) : Handler.fixedSnow.Completes initiator responder := by
  rintro - ephemeral - - ⟨⟩ ⟨⟩
  refine ⟨by decide, ?_⟩
  rintro - reply ⟨⟩
  exact ⟨false, false, [2], true, (), (), rfl, rfl, by decide, rfl, rfl, rfl, tagCipher_seals, tagCipher_seals⟩

/-- Each host has one address at which the other reaches it. -/
def neighbours : Peers where
  id := 7
  keypairs
    | .first => ⟨[1], [2]⟩
    | .second => ⟨[9], [8]⟩
  addresses
    | .first => [.v4 1 1]
    | .second => [.v4 2 2]
  route
    | .first, address => if address = .v4 2 2 then some (.v4 1 1) else none
    | .second, address => if address = .v4 1 1 then some (.v4 2 2) else none

/-- The first initiation is lost, the second one arrives twice, and the response
is still missing. -/
def interrupted : List Label :=
  [.connect .first 0 40, .access .first (.retransmit 7), .connect .second 0 50, .access .first (.retransmit 7),
    .deliver 1 0, .deliver 1 0, .access .second (.retransmit 7)]

theorem interrupted_completes : ∃ state : Rendezvous Bool Unit,
    Runs.run (step Handler.fixedSnow neighbours) (start neighbours) interrupted = some state ∧
      (state.handlers .first).stage 7 = 1 ∧ (state.handlers .second).stage 7 = 2 ∧
      let final := [.first, .second, .first].foldl (exchange Handler.fixedSnow neighbours 0) state
      ∃ oneTimeId session otherId other,
        (final.handlers .first).establishedSessions 7 = some (oneTimeId, session) ∧
        (final.handlers .second).establishedSessions 7 = some (otherId, other) ∧
        LossyTransportState.tagCipher.Seals session.transport.stateless other.transport.stateless ∧
        LossyTransportState.tagCipher.Seals other.transport.stateless session.transport.stateless := by
  have replies : ∀ host destination src, neighbours.route host destination = some src →
      (neighbours.route host.other src).isSome := by
    intro host destination src routed
    cases host with
    | first =>
      simp only [neighbours, Option.ite_none_right_eq_some, Option.some.injEq] at routed
      obtain ⟨-, rfl⟩ := routed
      rfl
    | second =>
      simp only [neighbours, Option.ite_none_right_eq_some, Option.some.injEq] at routed
      obtain ⟨-, rfl⟩ := routed
      rfl
  have reached : Runs.run (step Handler.fixedSnow neighbours) (start neighbours) interrupted = some _ := rfl
  refine ⟨_, reached, by decide, by decide, ?_⟩
  refine round_completes (fixedSnow_completes _ _) (by decide) ⟨.v4 2 2, by decide, by decide⟩ replies reached ?_ ?_ 0
  · intro host
    cases host with
    | first => decide
    | second => decide
  · intro oneTimeId session found
    cases found

end Rendezvous
end Veq
