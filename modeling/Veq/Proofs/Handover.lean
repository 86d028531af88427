import Veq.Proofs.EndToEnd
import Veq.Proofs.RoundTrip

/-! What becomes of the messages that a responder's transport accepts. While the
entry waits for a keepalive, every other message is refused after its nonce was
used up; from the first keepalive on, every payload is queued. -/

namespace Veq
open Rust Bincode LossyTransportState Link

variable {H S : Type} {cipher : Cipher S}

def Message.payloadOf : Message → Option Bytes
  | .keepalive => none
  | .payload data => some data

def packetTo (id : SessionId) (datagram : Bytes) : Option SessionPacket :=
  (SessionPacket.codec.deserialize datagram).filter fun packet => packet.id = id

/-- The messages that a transport accepts out of these packets, in the order of
their acceptance. -/
def acceptedMessages (cipher : Cipher S) (transport : LossyTransportState S) : List SessionPacket → List Message
  | [] => []
  | packet :: packets =>
    acceptedIn cipher transport packet ++ acceptedMessages cipher (afterPacket cipher transport packet) packets

theorem payloads_eq (transport : LossyTransportState S) (packet : SessionPacket) :
    payloads cipher transport packet = (acceptedIn cipher transport packet).filterMap Message.payloadOf := by
  have same : ∀ plaintext, payload? plaintext = (Message.codec.deserialize plaintext).bind Message.payloadOf := by
    intro plaintext
    unfold payload?
    cases Message.codec.deserialize plaintext with
    | none => rfl
    | some message => cases message <;> rfl
  simp only [payloads, acceptedIn, List.filterMap_filterMap, same]

namespace PendingSessionResponder

theorem advance_accepted (cipher : Cipher S) {pending : PendingSessionResponder S} (waiting : pending.ready = false)
    (packet : SessionPacket) :
    (acceptedIn cipher pending.transport packet = [.keepalive] ∧ pending.advance cipher packet =
      .promote (.new pending.id pending.remoteAddr (afterPacket cipher pending.transport packet))) ∨
    (.keepalive ∉ acceptedIn cipher pending.transport packet ∧ pending.advance cipher packet =
      .putBack { pending with transport := afterPacket cipher pending.transport packet }) := by
  rcases pending.handleIncoming_cases cipher packet with ⟨accepted, handled⟩ | ⟨silent, handled, -⟩
  · refine .inl ⟨accepted, ?_⟩
    simp [advance, handled, isReady, session]
  · refine .inr ⟨silent, ?_⟩
    simp [advance, handled, isReady, waiting]

/-- A payload that is accepted too early is reported, after its nonce was used up. -/
theorem handleIncoming_refuses {pending : PendingSessionResponder S} {packet : SessionPacket} {data : Bytes}
    (accepted : .payload data ∈ acceptedIn cipher pending.transport packet) :
    (pending.handleIncoming cipher packet).2 =
      .error (.other "Deserialized decrypted message not of type Keepalive.") := by
  rcases pending.handleIncoming_cases cipher packet with ⟨keepalive, -⟩ | ⟨-, -, refuses⟩
  · simp [keepalive] at accepted
  · exact refuses data accepted

theorem advance_unready (cipher : Cipher S) (pending : PendingSessionResponder S) (packet : SessionPacket) :
    (pending.advance cipher packet).Satisfies (fun _ => True) (·.ready = false) := by
  by_cases ready : (pending.handleIncoming cipher packet).1.ready = true
  · simp [advance, isReady, session, ready, Disposition.Satisfies]
  · simp [advance, isReady, ready, Disposition.Satisfies]

end PendingSessionResponder

theorem PendingSessionPoker.advance_unready (snow : Snow H S) (pending : PendingSessionPoker H) (src : SocketAddr)
    (packet : SessionPacket) (ephemeral : Nat) :
    (pending.advance snow src packet ephemeral).Satisfies (·.ready = false) (fun _ => True) := by
  simp only [advance, responder]
  split
  · cases (pending.handleIncoming src packet).workingRemoteAddr with
    | none => trivial
    | some working =>
      simp only [bind, Except.bind, pure, Except.pure]
      cases (pending.handleIncoming src packet).snowResponder.response snow working.2 ephemeral with
      | error failure => trivial
      | ok result => rfl
  · trivial

namespace Handler

/-- A responding entry between two calls has not seen its keepalive. -/
def Waiting (handler : Handler H S) : Prop :=
  ∀ id entry, handler.pendingSessionsResponder id = some entry → entry.session.ready = false

namespace Waiting

variable {snow : Snow H S} {handler next : Handler H S}

theorem fewer (waiting : handler.Waiting)
    (responders : ∀ id, next.pendingSessionsResponder id = none ∨
      next.pendingSessionsResponder id = handler.pendingSessionsResponder id) : next.Waiting := by
  intro id entry found
  rcases responders id with gone | same
  · simp [gone] at found
  · exact waiting id entry (same ▸ found)

theorem putResponder (waiting : handler.Waiting) (id : SessionId) {entry : Pending (PendingSessionResponder S)}
    (unready : entry.session.ready = false) : (handler.putResponder id entry).Waiting := by
  intro other current found
  rcases HashMap.insert_some found with ⟨-, rfl⟩ | ⟨-, present⟩
  · exact unready
  · exact waiting other current present

theorem upgradeSession (waiting : handler.Waiting) (id : SessionId) (oneTimeId : OneTimeId) (session : Session S) :
    (handler.upgradeSession id oneTimeId session).1.Waiting := by
  refine waiting.fewer fun other => .inr ?_
  rw [(handler.upgradeSession_maps id oneTimeId session).responder]
  rfl

theorem updateEstablished (waiting : handler.Waiting) (id : SessionId) (update : Session S → Session S) :
    (handler.updateEstablished id update).Waiting := by
  unfold Handler.updateEstablished
  split
  · exact waiting
  · exact waiting

theorem handlePacket (waiting : handler.Waiting) (snow : Snow H S) (src : SocketAddr) (packet : SessionPacket)
    (ephemeral : Nat) : (handler.handlePacket snow src packet ephemeral).Waiting := by
  have noPoker : (handler.takePoker packet.id).Waiting := waiting
  have noInitiator : (handler.takeInitiator packet.id).Waiting := waiting
  have noResponder : (handler.takeResponder packet.id).Waiting := waiting.fewer (remove_fewer _ packet.id)
  cases handler.handlePacket_reaction snow src packet ephemeral with
  | @pokerPromoted entry session found advanced result =>
    have unready := entry.session.advance_unready snow src packet ephemeral
    rw [advanced] at unready
    exact result ▸ noPoker.putResponder packet.id unready
  | pokerBack _ _ result => exact result ▸ noPoker
  | pokerDiscarded result => exact result ▸ noPoker
  | initiatorPromoted _ _ result =>
    exact result ▸ noInitiator.upgradeSession packet.id _ _
  | initiatorBack _ _ result => exact result ▸ noInitiator
  | initiatorDiscarded result => exact result ▸ noInitiator
  | responderPromoted _ _ result => exact result ▸ noResponder.upgradeSession packet.id _ _
  | @responderBack entry session found advanced result =>
    have unready := entry.session.advance_unready snow.toCipher packet
    rw [advanced] at unready
    exact result ▸ noResponder.putResponder packet.id unready
  | responderDiscarded result => exact result ▸ noResponder
  | established result => exact result ▸ waiting.updateEstablished packet.id _

theorem removeSession (waiting : handler.Waiting) (id : SessionId) (oneTimeId : Option OneTimeId) :
    (handler.removeSession id oneTimeId).Waiting :=
  waiting.fewer fun other => sweep_fewer _ _ id other oneTimeId

theorem insert (waiting : handler.Waiting) (snow : Snow H S) (id : SessionId) (oneTimeId : OneTimeId) (request : Request) :
    (request.insert snow handler id oneTimeId).1.Waiting := by
  cases request with
  | initiate info ephemeral =>
    simp only [Request.insert, insertInitiator]
    split
    · exact waiting
    · exact waiting
  | respond info =>
    simp only [Request.insert, insertPoker]
    split
    · exact waiting
    · exact waiting

theorem recvFrom (waiting : handler.Waiting) (id : SessionId) : (handler.recvFrom id).1.Waiting := by
  unfold Handler.recvFrom
  split
  · exact waiting
  · split
    · exact waiting
    · exact waiting

end Waiting
end Handler

namespace Socket

variable {snow : Snow H S} {keypair : SnowKeypair} {socket next : Socket H S} {label : Label} {labels : List Label}
  {id : SessionId}

theorem step_waiting (waiting : socket.handler.Waiting) (stepped : socket.step snow label = some next) :
    next.handler.Waiting := by
  cases step_transition stepped with
  | connect id oneTimeId request fresh connected =>
    rw [connected, connect_handler]
    exact (waiting.removeSession id none).insert snow id oneTimeId request
  | packet src data ephemeral packet decoded handled =>
    rw [handled]
    exact waiting.handlePacket snow src packet ephemeral
  | close id oneTimeId closed =>
    rw [closed]
    exact waiting.removeSession id (some oneTimeId)
  | recvFrom id receiving received =>
    rw [received]
    exact waiting.recvFrom id
  | update id change updated =>
    rw [updated]
    exact waiting.updateEstablished id change
  | idle same => exact same ▸ waiting
  | poll waiter waker polled =>
    obtain ⟨ready, readiness, -, -, -, handler, -⟩ := poll_cases polled
    rw [handler]
    exact waiting
  | drop waiter dropped =>
    obtain ⟨ready, -, rfl⟩ := drop_cases dropped
    exact waiting

theorem run_waiting (reached : Runs.run (step snow) (start keypair) labels = some socket) : socket.handler.Waiting := by
  refine Runs.persists (fun _ _ _ => step_waiting) ?_ reached
  intro id entry found
  simp [start, Handler.new] at found

theorem responding_alone (reached : Runs.run (step snow) (start keypair) labels = some socket)
    {entry : Pending (PendingSessionResponder S)} (found : socket.handler.pendingSessionsResponder id = some entry) :
    socket.handler.pendingSessionsPoker id = none ∧ socket.handler.pendingSessionsInitiator id = none := by
  have held : socket.handler.registered .responder id = some entry.oneTimeId := by simp [Handler.registered, found]
  refine ⟨?_, ?_⟩
  · exact Option.map_eq_none_iff.mp (registered_alone reached held .poker (by decide))
  · exact Option.map_eq_none_iff.mp (registered_alone reached held .initiator (by decide))

end Socket

namespace Link

variable {party : Party S}

theorem handlePacket_entry (cipher : Cipher S) (party : Party S) (packet : SessionPacket) :
    (party.handlePacket cipher packet).id = party.id ∧
      (party.handlePacket cipher packet).registered = party.registered := by
  cases stage : party.stage with
  | responding pending =>
    rcases pending.advance_cases cipher packet with ⟨id, address, promoted⟩ | ⟨other, back, -⟩
    · simp [handlePacket_promoted stage promoted]
    · simp [handlePacket_back stage back]
  | established handle => simp [handlePacket_handle stage]

theorem deliver_packetTo (registered : party.registered = true) (datagram : Bytes) :
    party.deliver cipher datagram = (packetTo party.id datagram).elim party (party.handlePacket cipher) := by
  unfold Party.deliver packetTo
  cases SessionPacket.codec.deserialize datagram with
  | none => rfl
  | some packet =>
    by_cases same : packet.id = party.id
    · simp [same, registered, Option.filter]
    · simp [same, Option.filter]

theorem deliver_packets (registered : party.registered = true) (datagrams : List Bytes) :
    datagrams.foldl (Party.deliver cipher) party =
      (datagrams.filterMap (packetTo party.id)).foldl (Party.handlePacket cipher) party := by
  induction datagrams generalizing party with
  | nil => rfl
  | cons datagram datagrams ih =>
    rw [List.foldl_cons, deliver_packetTo registered, List.filterMap_cons]
    cases packetTo party.id datagram with
    | none => exact ih registered
    | some packet =>
      obtain ⟨id, stays⟩ := handlePacket_entry cipher party packet
      rw [Option.elim_some, List.foldl_cons, ih (stays.trans registered), id]

theorem handlePackets_established (cipher : Cipher S) {handle : Chunker (Session S)} (stage : party.stage = .established handle)
    (packets : List SessionPacket) :
    ∃ later, (packets.foldl (Party.handlePacket cipher) party).stage = .established later ∧
      later.delegate.messages = handle.delegate.messages ++
        (acceptedMessages cipher handle.delegate.transport packets).filterMap Message.payloadOf := by
  induction packets generalizing party handle with
  | nil => exact ⟨handle, stage, by simp [acceptedMessages]⟩
  | cons packet packets ih =>
    obtain ⟨transport, messages⟩ := handle.delegate.handleIncoming_state cipher packet
    have next : (party.handlePacket cipher packet).stage =
        .established { handle with delegate := (handle.delegate.handleIncoming cipher packet).1 } := by
      rw [handlePacket_handle stage]
    obtain ⟨later, reached, queue⟩ := ih next
    refine ⟨later, reached, ?_⟩
    rw [queue, messages, transport, payloads_eq]
    simp [acceptedMessages]

/-- Without a keepalive the entry waits on. -/
theorem handlePackets_waiting {pending : PendingSessionResponder S} (stage : party.stage = .responding pending)
    (waiting : pending.ready = false) {packets : List SessionPacket}
    (silent : .keepalive ∉ acceptedMessages cipher pending.transport packets) :
    ∃ later, (packets.foldl (Party.handlePacket cipher) party).stage = .responding later ∧ later.ready = false := by
  induction packets generalizing party pending with
  | nil => exact ⟨pending, stage, waiting⟩
  | cons packet packets ih =>
    simp only [acceptedMessages, List.mem_append, not_or] at silent
    rcases PendingSessionResponder.advance_accepted cipher waiting packet with ⟨accepted, -⟩ | ⟨-, back⟩
    · simp [accepted] at silent
    · have next : (party.handlePacket cipher packet).stage =
          .responding { pending with transport := afterPacket cipher pending.transport packet } := by
        rw [handlePacket_back stage back]
      exact ih next waiting silent.2

/-- The first keepalive divides the messages: what comes before it is lost, what
comes after it is queued. -/
theorem handlePackets_promoted {pending : PendingSessionResponder S} (stage : party.stage = .responding pending)
    (waiting : pending.ready = false) {packets : List SessionPacket} {before after : List Message}
    (accepted : acceptedMessages cipher pending.transport packets = before ++ .keepalive :: after)
    (first : .keepalive ∉ before) :
    ∃ later, (packets.foldl (Party.handlePacket cipher) party).stage = .established later ∧
      later.delegate.messages = after.filterMap Message.payloadOf := by
  induction packets generalizing party pending before with
  | nil => simp [acceptedMessages] at accepted
  | cons packet packets ih =>
    simp only [acceptedMessages] at accepted
    rcases PendingSessionResponder.advance_accepted cipher waiting packet with ⟨keepalive, promoted⟩ | ⟨silent, back⟩
    · have next : (party.handlePacket cipher packet).stage = .established (.connected
          (.new pending.id pending.remoteAddr (afterPacket cipher pending.transport packet))) := by
        rw [handlePacket_promoted stage promoted]
      obtain ⟨later, reached, queue⟩ := handlePackets_established cipher next packets
      rw [keepalive] at accepted
      cases before with
      | nil =>
        cases accepted
        exact ⟨later, reached, queue⟩
      | cons message before =>
        obtain ⟨rfl, -⟩ := List.cons.inj accepted
        simp at first
    · have next : (party.handlePacket cipher packet).stage =
          .responding { pending with transport := afterPacket cipher pending.transport packet } := by
        rw [handlePacket_back stage back]
      rcases List.append_eq_append_iff.mp accepted with ⟨middle, split, rest⟩ | ⟨middle, split, rest⟩
      · exact ih next waiting rest fun member => first (split ▸ List.mem_append_right _ member)
      · cases middle with
        | nil =>
          have rest : acceptedMessages cipher (afterPacket cipher pending.transport packet) packets =
              [] ++ .keepalive :: after := rest.symm
          exact ih next waiting rest List.not_mem_nil
        | cons message middle =>
          cases rest
          exact absurd (split ▸ List.mem_append_right before (List.mem_cons_self ..)) silent

theorem handlePackets_id (cipher : Cipher S) (party : Party S) (packets : List SessionPacket) :
    (packets.foldl (Party.handlePacket cipher) party).id = party.id := by
  induction packets generalizing party with
  | nil => rfl
  | cons packet packets ih => exact (ih _).trans (handlePacket_entry cipher party packet).1

theorem receiveAll_registers (snow : Snow H S) {handler : Handler H S} {oneTimeId : OneTimeId}
    (registers : Registers handler oneTimeId party) (arrivals : List Arrival) :
    Registers (handler.receiveAll snow arrivals) oneTimeId
      (((arrivals.map Arrival.data).filterMap (packetTo party.id)).foldl (Party.handlePacket snow.toCipher) party) := by
  rw [← deliver_packets registers.registered]
  induction arrivals generalizing handler party with
  | nil => exact registers
  | cons arrival arrivals ih =>
    exact ih (handleIncoming_registers snow registers arrival.src arrival.data arrival.ephemeral)

theorem Registers.responding {handler : Handler H S} {oneTimeId : OneTimeId} (registers : Registers handler oneTimeId party)
    {id : SessionId} (named : party.id = id) {pending : PendingSessionResponder S} (stage : party.stage = .responding pending) :
    handler.pendingSessionsResponder id = some ⟨pending, oneTimeId⟩ := by
  have entry := registers.entry
  rwa [stage, named] at entry

theorem Registers.established {handler : Handler H S} {oneTimeId : OneTimeId} (registers : Registers handler oneTimeId party)
    {id : SessionId} (named : party.id = id) {handle : Chunker (Session S)} (stage : party.stage = .established handle) :
    handler.establishedSessions id = some (oneTimeId, handle.delegate) := by
  have entry := registers.entry
  rw [stage, named] at entry
  exact entry.2

end Link

def acceptedFrom (cipher : Cipher S) (id : SessionId) (transport : LossyTransportState S) (arrivals : List Arrival) :
    List Message :=
  acceptedMessages cipher transport ((arrivals.map Arrival.data).filterMap (packetTo id))

/-- Of what a responder's transport accepts, exactly the payloads after the first
keepalive reach the queue of its session, in order; a payload before it is
refused. -/
theorem handover_exact (snow : Snow H S) (keypair : SnowKeypair) (labels : List Socket.Label) (socket : Socket H S)
    (reached : Runs.run (Socket.step snow) (Socket.start keypair) labels = some socket) (id : SessionId)
    (oneTimeId : OneTimeId) (arrivals : List Arrival) :
    let final := socket.handler.receiveAll snow arrivals
    (∀ pending, socket.handler.pendingSessionsResponder id = some ⟨pending, oneTimeId⟩ →
      let accepted := acceptedFrom snow.toCipher id pending.transport arrivals
      (.keepalive ∉ accepted → ∃ later, final.pendingSessionsResponder id = some ⟨later, oneTimeId⟩) ∧
      (∀ before after, accepted = before ++ .keepalive :: after → .keepalive ∉ before →
        ∃ session, final.establishedSessions id = some (oneTimeId, session) ∧
          session.messages = after.filterMap Message.payloadOf) ∧
      ∀ packet data, .payload data ∈ acceptedIn snow.toCipher pending.transport packet →
        (pending.handleIncoming snow.toCipher packet).2 =
            .error (.other "Deserialized decrypted message not of type Keepalive.") ∧
          pending.advance snow.toCipher packet =
            .putBack { pending with transport := afterPacket snow.toCipher pending.transport packet }) ∧
    ∀ session, socket.handler.establishedSessions id = some (oneTimeId, session) →
      ∃ later, final.establishedSessions id = some (oneTimeId, later) ∧
        later.messages = session.messages ++
          (acceptedFrom snow.toCipher id session.transport arrivals).filterMap Message.payloadOf := by
  intro final
  refine ⟨?_, ?_⟩
  · intro pending found accepted
    have waiting : pending.ready = false := Socket.run_waiting reached id _ found
    obtain ⟨noPoker, noInitiator⟩ := Socket.responding_alone reached found
    have registers : Registers socket.handler oneTimeId (.start id (.responding pending)) :=
      ⟨rfl, noPoker, noInitiator, found⟩
    have start : (Party.start id (.responding pending)).stage = .responding pending := rfl
    have received := receiveAll_registers snow registers arrivals
    have named := handlePackets_id snow.toCipher (.start id (.responding pending))
      ((arrivals.map Arrival.data).filterMap (packetTo id))
    refine ⟨?_, ?_, ?_⟩
    · intro silent
      obtain ⟨later, stage, -⟩ := handlePackets_waiting start waiting silent
      exact ⟨later, received.responding named stage⟩
    · intro before after divided first
      obtain ⟨later, stage, queue⟩ := handlePackets_promoted start waiting divided first
      exact ⟨later.delegate, received.established named stage, queue⟩
    · intro packet data early
      refine ⟨PendingSessionResponder.handleIncoming_refuses early, ?_⟩
      rcases PendingSessionResponder.advance_accepted snow.toCipher waiting packet with ⟨keepalive, -⟩ | ⟨-, back⟩
      · simp [keepalive] at early
      · exact back
  · intro session found
    obtain ⟨noPoker, noInitiator, noResponder⟩ := Socket.established_alone reached found
    have registers : Registers socket.handler oneTimeId (.start id (.established (.connected session))) :=
      ⟨rfl, noPoker, noInitiator, noResponder, found⟩
    have start : (Party.start id (.established (.connected session))).stage = .established (.connected session) := rfl
    have received := receiveAll_registers snow registers arrivals
    have named := handlePackets_id snow.toCipher (.start id (.established (.connected session)))
      ((arrivals.map Arrival.data).filterMap (packetTo id))
    obtain ⟨later, stage, queue⟩ := handlePackets_established snow.toCipher start
      ((arrivals.map Arrival.data).filterMap (packetTo id))
    exact ⟨later.delegate, received.established named stage, queue⟩

def waitingCalls : List Socket.Label :=
  [.operate (.respond 7 ⟨[], [1]⟩ 50),
    .operate (.handleIncoming (.v4 2 2) (Handler.packetFor 7 (.handshakeInitiation [1])) 0)]

def encryptedArrival (nonce : Nat) (message : Message) : Arrival :=
  ⟨.v4 2 2, Handler.packetFor 7 (.encrypted (LossyTransportState.tagged nonce (Message.codec.encode message))), 0⟩

/-- The initiator's keepalive at nonce 0 is lost, so that the first payload meets an
entry that still waits. -/
theorem handover_divides :
    ∃ socket : Socket Bool Unit,
      Runs.run (Socket.step Handler.fixedSnow) (Socket.start ⟨[9], [8]⟩) waitingCalls = some socket ∧
      ∃ session, (socket.handler.receiveAll Handler.fixedSnow [encryptedArrival 1 (.payload [5]), encryptedArrival 2 .keepalive,
        encryptedArrival 3 (.payload [6])]).establishedSessions 7 = some (50, session) ∧ session.messages = [[6]] := by
  refine ⟨_, rfl, ?_⟩
  obtain ⟨pending, -⟩ := handover_exact Handler.fixedSnow ⟨[9], [8]⟩ waitingCalls _ rfl 7 50
    [encryptedArrival 1 (.payload [5]), encryptedArrival 2 .keepalive, encryptedArrival 3 (.payload [6])]
  exact (pending _ rfl).2.1 [.payload [5]] [.payload [6]] (by decide) (by decide)

/-- The payload is accepted, and the session that the keepalive establishes has an
empty queue. -/
theorem early_payload_swallowed :
    ∃ (socket : Socket Bool Unit) (pending : PendingSessionResponder Unit),
      Runs.run (Socket.step Handler.fixedSnow) (Socket.start ⟨[9], [8]⟩) waitingCalls = some socket ∧
      socket.handler.pendingSessionsResponder 7 = some ⟨pending, 50⟩ ∧
      acceptedFrom Handler.fixedSnow.toCipher 7 pending.transport
        [encryptedArrival 1 (.payload [5]), encryptedArrival 2 .keepalive] = [.payload [5], .keepalive] ∧
      ((socket.handler.receiveAll Handler.fixedSnow
        [encryptedArrival 1 (.payload [5]), encryptedArrival 2 .keepalive]).establishedSessions 7).map
          (fun entry => (entry.1, entry.2.messages)) = some (50, []) :=
  ⟨_, _, rfl, rfl, by decide, by decide⟩

end Veq
