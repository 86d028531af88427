import Veq.Link
import Veq.Proofs.Reassembly
import Veq.Proofs.Registry
import Mathlib.Data.List.Sort

/-! From one handle's `send` to the other handle's `recv`. The nonces that a
window of one item accepts rise, so the packets a session reads are a subsequence
of those the other end wrote; the chunks in them keep the order of their groups,
so messages are completed in the order in which they were sent. -/

namespace Veq
open Rust Bincode LossyTransportState Assembly

variable {S : Type} {cipher : Cipher S}

def payload? (plaintext : Bytes) : Option Bytes :=
  match Message.codec.deserialize plaintext with
  | some (.payload data) => some data
  | _ => none

theorem payload?_encode_payload {data : Bytes} (bounded : data.length < 2 ^ 64) :
    payload? (Message.codec.encode (.payload data)) = some data := by
  simp [payload?, Message.codec.deserialize_encode (Message.fits_payload bounded)]

theorem payload?_encode_keepalive : payload? (Message.codec.encode .keepalive) = none := by
  simp [payload?, Message.codec.deserialize_encode Message.fits_keepalive]

def Stage.handle : Stage S → Chunker (Session S)
  | .responding pending => .connected (.new pending.id pending.remoteAddr pending.transport)
  | .established handle => handle

namespace LossyTransportState

theorem read?_of_ok {state : LossyTransportState S} {packet plaintext : Bytes} {capacity : Nat}
    (accepted : (state.readMessage cipher packet capacity).2 = .ok plaintext) :
    ∃ nonce, state.read? cipher packet capacity = some (nonce, plaintext) := by
  cases decoded : Nonced.codec.deserialize packet with
  | none => simp [readMessage, decoded] at accepted
  | some nonced => exact ⟨nonced.nonce, by simp [read?, accepted, decoded]⟩

theorem read?_of_error {state : LossyTransportState S} {packet : Bytes} {capacity : Nat} {failure : Failure}
    (rejected : (state.readMessage cipher packet capacity).2 = .error failure) :
    state.read? cipher packet capacity = none := by
  simp [read?, rejected]

/-- Through a window of one item packets arrive in the order of their writing. -/
theorem Ends.Sound.received_sublist {ends : Ends S} (sound : ends.Sound) (single : ends.reader.size = 1) :
    ends.received.Sublist (ends.written.map fun record => (record.nonce, record.plaintext)) := by
  let Earlier (first second : Nat × Bytes) : Prop := first.1 < second.1
  have : Std.Antisymm Earlier := ⟨fun first second one two => absurd two (Nat.lt_asymm one)⟩
  have rising : ends.received.Pairwise Earlier := List.pairwise_map.mp (sound.ordered single)
  have writtenRising : (ends.written.map fun record => (record.nonce, record.plaintext)).Pairwise Earlier := by
    have nonces := sound.rising
    rw [List.pairwise_map] at nonces ⊢
    exact nonces
  refine List.sublist_of_subperm_of_pairwise (List.subperm_of_subset ?_ ?_) rising writtenRising
  · exact List.Nodup.of_map _ sound.once
  · intro packet member
    obtain ⟨record, present, nonce, plaintext⟩ := sound.genuine packet member
    exact List.mem_map.mpr ⟨record, present, by rw [nonce, plaintext]⟩

end LossyTransportState

namespace Session

theorem encrypt_state (session : Session S) (message : Message) :
    (session.encrypt cipher message).1 =
      { session with transport := (session.transport.writeMessage cipher (Message.codec.encode message) 65535).1 } := by
  unfold encrypt
  split
  next written => rw [written]
  next written =>
    rw [written]
    split <;> rfl

end Session

def afterPacket (cipher : Cipher S) (transport : LossyTransportState S) (packet : SessionPacket) :
    LossyTransportState S :=
  match packet.encrypted with
  | none => transport
  | some encrypted => (transport.readMessage cipher encrypted 65535).1

/-- The payloads that a transport finds in a packet: at most one. -/
def payloads (cipher : Cipher S) (transport : LossyTransportState S) (packet : SessionPacket) : List Bytes :=
  (Party.opening cipher transport packet).filterMap fun read => payload? read.2

/-- The message of a packet whose ciphertext the transport accepts: at most one. -/
def acceptedIn (cipher : Cipher S) (transport : LossyTransportState S) (packet : SessionPacket) : List Message :=
  (Party.opening cipher transport packet).filterMap fun read => Message.codec.deserialize read.2

theorem Session.handleIncoming_state (cipher : Cipher S) (session : Session S) (packet : SessionPacket) :
    (session.handleIncoming cipher packet).1.transport = afterPacket cipher session.transport packet ∧
    (session.handleIncoming cipher packet).1.messages = session.messages ++ payloads cipher session.transport packet := by
  unfold handleIncoming afterPacket payloads Party.opening SessionPacket.encrypted
  cases decoded : RawMessage.codec.deserialize packet.data with
  | none => simp
  | some raw =>
    cases raw with
    | handshakePoke => simp
    | handshakeInitiation initiation => simp
    | handshakeResponse response => simp
    | encrypted encrypted =>
      cases read : session.transport.readMessage cipher encrypted 65535 with
      | mk transport result =>
        cases result with
        | error failure => simp [read, read?_of_error (congrArg Prod.snd read)]
        | ok plaintext =>
          obtain ⟨nonce, opened⟩ := read?_of_ok (congrArg Prod.snd read)
          cases message : Message.codec.deserialize plaintext with
          | none => simp [read, opened, payload?, message]
          | some message' =>
            cases message' with
            | keepalive => simp [read, opened, payload?, message]
            | payload data => simp [read, opened, payload?, message]

theorem PendingSessionResponder.handleIncoming_cases (cipher : Cipher S) (pending : PendingSessionResponder S)
    (packet : SessionPacket) :
    (acceptedIn cipher pending.transport packet = [.keepalive] ∧ (pending.handleIncoming cipher packet).1 =
      { pending with transport := afterPacket cipher pending.transport packet, ready := true, waker := none }) ∨
    (.keepalive ∉ acceptedIn cipher pending.transport packet ∧ (pending.handleIncoming cipher packet).1 =
      { pending with transport := afterPacket cipher pending.transport packet } ∧
      ∀ data, .payload data ∈ acceptedIn cipher pending.transport packet → (pending.handleIncoming cipher packet).2 =
        .error (.other "Deserialized decrypted message not of type Keepalive.")) := by
  unfold handleIncoming afterPacket acceptedIn Party.opening SessionPacket.encrypted
  cases decoded : RawMessage.codec.deserialize packet.data with
  | none => simp
  | some raw =>
    cases raw with
    | handshakePoke => simp
    | handshakeInitiation initiation => simp
    | handshakeResponse response => simp
    | encrypted encrypted =>
      cases read : pending.transport.readMessage cipher encrypted 65535 with
      | mk transport result =>
        cases result with
        | error failure => simp [read, read?_of_error (congrArg Prod.snd read)]
        | ok plaintext =>
          obtain ⟨nonce, opened⟩ := read?_of_ok (congrArg Prod.snd read)
          cases message : Message.codec.deserialize plaintext with
          | none => simp [read, opened, message]
          | some message' =>
            cases message' with
            | keepalive => cases waker : pending.waker <;> simp [read, opened, message]
            | payload data => simp [read, opened, message]

theorem PendingSessionResponder.handleIncoming_state (cipher : Cipher S) (pending : PendingSessionResponder S)
    (packet : SessionPacket) : (pending.handleIncoming cipher packet).1.transport = afterPacket cipher pending.transport packet := by
  rcases pending.handleIncoming_cases cipher packet with ⟨-, handled⟩ | ⟨-, handled, -⟩
  · rw [handled]
  · rw [handled]

/-- A responding session is promoted with its transport or stays as it is; in
either case the payload of the packet is not kept. -/
theorem PendingSessionResponder.advance_cases (cipher : Cipher S) (pending : PendingSessionResponder S) (packet : SessionPacket) :
    (∃ id address, pending.advance cipher packet = .promote (.new id address (afterPacket cipher pending.transport packet))) ∨
    ∃ next, pending.advance cipher packet = .putBack next ∧ next.transport = afterPacket cipher pending.transport packet := by
  have transport := pending.handleIncoming_state cipher packet
  unfold advance isReady session
  cases ready : (pending.handleIncoming cipher packet).1.ready with
  | true => exact .inl ⟨_, _, by simp only [ready, transport, ↓reduceIte]; rfl⟩
  | false => exact .inr ⟨_, by simp [ready], transport⟩

namespace Link

/-- What an action leaves alone when it writes nothing. -/
structure SameSender (party next : Party S) : Prop where
  nextNonce : next.stage.transport.nextNonce = party.stage.transport.nextNonce
  chunkSize : next.stage.handle.chunkSize = party.stage.handle.chunkSize
  currentGroup : next.stage.handle.currentGroup = party.stage.handle.currentGroup
  outbox : next.outbox = party.outbox
  sent : next.sent = party.sent
  written : next.written = party.written

/-- What an action leaves alone when it reads nothing. -/
structure SameReceiver (party next : Party S) : Prop where
  receivedNonces : next.stage.transport.receivedNonces = party.stage.transport.receivedNonces
  size : next.stage.transport.size = party.stage.transport.size
  messages : next.stage.handle.delegate.messages = party.stage.handle.delegate.messages
  chunkGroups : next.stage.handle.chunkGroups = party.stage.handle.chunkGroups
  completedChunks : next.stage.handle.completedChunks = party.stage.handle.completedChunks
  returned : next.returned = party.returned
  received : next.received = party.received

theorem afterPacket_nextNonce (transport : LossyTransportState S) (packet : SessionPacket) :
    (afterPacket cipher transport packet).nextNonce = transport.nextNonce := by
  unfold afterPacket
  split
  · rfl
  · rw [readMessage_state]

section

variable {party : Party S} {packet : SessionPacket}

theorem handlePacket_promoted {pending : PendingSessionResponder S} {session : Session S}
    (stage : party.stage = .responding pending) (promoted : pending.advance cipher packet = .promote session) :
    party.handlePacket cipher packet = { party with
      stage := .established (.connected session)
      received := party.received ++ Party.opening cipher pending.transport packet } := by
  simp [Party.handlePacket, stage, promoted]

theorem handlePacket_back {pending other : PendingSessionResponder S} (stage : party.stage = .responding pending)
    (back : pending.advance cipher packet = .putBack other) :
    party.handlePacket cipher packet = { party with
      stage := .responding other
      received := party.received ++ Party.opening cipher pending.transport packet } := by
  simp [Party.handlePacket, stage, back]

theorem handlePacket_handle {handle : Chunker (Session S)} (stage : party.stage = .established handle) :
    party.handlePacket cipher packet = { party with
      stage := .established { handle with delegate := (handle.delegate.handleIncoming cipher packet).1 }
      received := party.received ++ Party.opening cipher handle.delegate.transport packet } := by
  simp [Party.handlePacket, stage]

end

/-- The handler holds the party's session, and no earlier stage under its id. -/
structure Registers {H : Type} (handler : Handler H S) (oneTimeId : OneTimeId) (party : Party S) : Prop where
  registered : party.registered = true
  noPoker : handler.pendingSessionsPoker party.id = none
  noInitiator : handler.pendingSessionsInitiator party.id = none
  entry : match party.stage with
    | .responding pending => handler.pendingSessionsResponder party.id = some ⟨pending, oneTimeId⟩
    | .established handle => handler.pendingSessionsResponder party.id = none ∧
        handler.establishedSessions party.id = some (oneTimeId, handle.delegate)

/-- Delivering a datagram to a party is what `handle_incoming` does to its entry. -/
theorem handleIncoming_registers {H : Type} (snow : Snow H S) {handler : Handler H S} {oneTimeId : OneTimeId}
    {party : Party S} (registers : Registers handler oneTimeId party) (src : SocketAddr) (data : Bytes) (ephemeral : Nat) :
    Registers (handler.handleIncoming snow src data ephemeral).1 oneTimeId (party.deliver snow.toCipher data) := by
  obtain ⟨registered, noPoker, noInitiator, entry⟩ := registers
  unfold Handler.handleIncoming Party.deliver
  cases decoded : SessionPacket.codec.deserialize data with
  | none => exact ⟨registered, noPoker, noInitiator, entry⟩
  | some packet =>
    by_cases same : packet.id = party.id
    · simp only [same, registered, and_self, ↓reduceIte]
      rw [← same] at noPoker noInitiator entry
      obtain ⟨poker, initiator⟩ := Handler.handlePacket_later snow src ephemeral noPoker noInitiator
      have stillNoPoker := (congrFun poker packet.id).trans noPoker
      have stillNoInitiator := (congrFun initiator packet.id).trans noInitiator
      cases stage : party.stage with
      | responding pending =>
        simp only [stage] at entry
        rcases pending.advance_cases snow.toCipher packet with ⟨id, address, promoted⟩ | ⟨other, back, -⟩
        · rw [handlePacket_promoted stage promoted]
          refine ⟨registered, same ▸ stillNoPoker, same ▸ stillNoInitiator, ?_⟩
          simp only [Handler.handlePacket, noPoker, noInitiator, entry, promoted, ← same]
          have maps := (handler.takeResponder packet.id).upgradeSession_maps packet.id oneTimeId
            (.new id address (afterPacket snow.toCipher pending.transport packet))
          rw [maps.responder, maps.established]
          simp [Handler.takeResponder, Handler.putEstablished, Chunker.connected, Chunker.new]
        · rw [handlePacket_back stage back]
          refine ⟨registered, same ▸ stillNoPoker, same ▸ stillNoInitiator, ?_⟩
          simp [Handler.handlePacket, noPoker, noInitiator, entry, back, ← same, Handler.putResponder]
      | established handle =>
        simp only [stage] at entry
        rw [handlePacket_handle stage]
        refine ⟨registered, same ▸ stillNoPoker, same ▸ stillNoInitiator, ?_⟩
        simp [Handler.handlePacket, noPoker, noInitiator, entry.1, entry.2, ← same, Handler.putEstablished]
    · simp only [same, false_and, ↓reduceIte]
      obtain ⟨poker, initiator, responder, established⟩ :=
        Handler.handlePacket_frame snow handler src ephemeral (Ne.symm same)
      refine ⟨registered, poker.trans noPoker, initiator.trans noInitiator, ?_⟩
      rw [responder, established]
      exact entry

theorem handlePacket_spec (cipher : Cipher S) (party : Party S) (packet : SessionPacket) :
    let next := party.handlePacket cipher packet
    SameSender party next ∧ next.stage.transport = afterPacket cipher party.stage.transport packet ∧
    next.received = party.received ++ Party.opening cipher party.stage.transport packet ∧
    next.returned = party.returned ∧ next.stage.handle.chunkGroups = party.stage.handle.chunkGroups ∧
    next.stage.handle.completedChunks = party.stage.handle.completedChunks ∧
    (next.stage.handle.delegate.messages = party.stage.handle.delegate.messages ∨
      next.stage.handle.delegate.messages =
        party.stage.handle.delegate.messages ++ payloads cipher party.stage.transport packet) := by
  intro next
  cases stage : party.stage with
  | responding pending =>
    rcases pending.advance_cases cipher packet with ⟨id, address, promoted⟩ | ⟨other, kept, transport⟩
    · have result : next = _ := handlePacket_promoted stage promoted
      refine ⟨?_, by rw [result]; rfl, by rw [result]; rfl, by rw [result], by rw [result]; rfl, by rw [result]; rfl, ?_⟩
      · rw [result]
        exact ⟨by rw [stage]; exact afterPacket_nextNonce _ _, by rw [stage]; rfl, by rw [stage]; rfl, rfl, rfl, rfl⟩
      · exact .inl (by rw [result]; rfl)
    · have result : next = _ := handlePacket_back stage kept
      refine ⟨?_, by rw [result]; exact transport, by rw [result]; rfl, by rw [result], by rw [result]; rfl,
        by rw [result]; rfl, ?_⟩
      · rw [result]
        refine ⟨?_, by rw [stage]; rfl, by rw [stage]; rfl, rfl, rfl, rfl⟩
        rw [stage]
        exact (congrArg nextNonce transport).trans (afterPacket_nextNonce _ _)
      · exact .inl (by rw [result]; rfl)
  | established handle =>
    obtain ⟨transport, messages⟩ := handle.delegate.handleIncoming_state cipher packet
    have result : next = _ := handlePacket_handle stage
    refine ⟨?_, by rw [result]; exact transport, by rw [result]; rfl, by rw [result], by rw [result]; rfl,
      by rw [result]; rfl, ?_⟩
    · rw [result]
      refine ⟨?_, by rw [stage]; rfl, by rw [stage]; rfl, rfl, rfl, rfl⟩
      rw [stage]
      exact (congrArg nextNonce transport).trans (afterPacket_nextNonce _ _)
    · exact .inr (by rw [result]; exact messages)

/-- Reassembly does not touch what sending uses. -/
structure Keeps {T : Type} (chunker next : Chunker T) : Prop where
  delegate : next.delegate = chunker.delegate
  chunkSize : next.chunkSize = chunker.chunkSize
  currentGroup : next.currentGroup = chunker.currentGroup

theorem Keeps.trans {T : Type} {first second third : Chunker T} (one : Keeps first second) (two : Keeps second third) :
    Keeps first third :=
  ⟨two.delegate.trans one.delegate, two.chunkSize.trans one.chunkSize, two.currentGroup.trans one.currentGroup⟩

theorem cleanUp_keeps {T : Type} (chunker : Chunker T) : Keeps chunker chunker.cleanUp := by
  unfold Chunker.cleanUp
  split
  · exact ⟨rfl, rfl, rfl⟩
  · exact ⟨rfl, rfl, rfl⟩

theorem addChunk_keeps {T : Type} {chunker next : Chunker T} {chunk : ChunkedData}
    (added : chunker.addChunk chunk = .ok next) : Keeps chunker next := by
  obtain ⟨⟨inserted, complete⟩, insertion, rest⟩ := bind_ok.mp added
  have kept : Keeps chunker inserted := by
    obtain ⟨group, -, insertion⟩ := bind_ok.mp insertion
    obtain ⟨group, -, result⟩ := bind_ok.mp insertion
    cases result
    exact ⟨rfl, rfl, rfl⟩
  cases complete with
  | false =>
    cases rest
    exact kept.trans (cleanUp_keeps inserted)
  | true =>
    obtain ⟨⟨removed, group⟩, removal, rest⟩ := bind_ok.mp rest
    obtain ⟨pushed, push, rest⟩ := bind_ok.mp rest
    cases rest
    have without : Keeps inserted removed := by
      unfold Chunker.removeGroup at removal
      split at removal
      · cases removal
      · cases removal
        exact ⟨rfl, rfl, rfl⟩
    have completed : Keeps removed pushed := by
      obtain ⟨message, -, result⟩ := bind_ok.mp push
      cases result
      exact ⟨rfl, rfl, rfl⟩
    exact ((kept.trans without).trans completed).trans (cleanUp_keeps pushed)

theorem receive_keeps {T : Type} {chunker next : Chunker T} {bytes : Bytes} (received : chunker.receive bytes = .ok next) :
    Keeps chunker next := by
  unfold Chunker.receive at received
  split at received
  · cases received
  · exact addChunk_keeps received

theorem recvStep_cases (cipher : Cipher S) (handle : Chunker (Session S)) (receiving : Uuid) (waker : Waker) :
    (∃ data rest, handle.completedChunks = data :: rest ∧
      handle.recvStep (bidirectionalSession cipher receiving waker) =
        .ok ({ handle with completedChunks := rest }, some (.ready (.ok data)))) ∨
    (∃ delegate result, delegate.messages = handle.delegate.messages ∧
      delegate.transport = handle.delegate.transport ∧ (∀ data, result ≠ .ready (.ok data)) ∧
      handle.recvStep (bidirectionalSession cipher receiving waker) = .ok ({ handle with delegate }, some result)) ∨
    (∃ bytes delegate, handle.delegate.messages = bytes :: delegate.messages ∧
      delegate.transport = handle.delegate.transport ∧
      handle.recvStep (bidirectionalSession cipher receiving waker) =
        (do return (← Chunker.receive { handle with delegate } bytes, none))) := by
  unfold Chunker.recvStep Chunker.nextReadyChunk
  cases completed : handle.completedChunks with
  | cons data rest => exact .inl ⟨data, rest, rfl, rfl⟩
  | nil =>
    refine .inr ?_
    simp only [bidirectionalSession]
    cases dead : handle.delegate.isDead with
    | true =>
      refine .inl ⟨handle.delegate, .ready (.error .disconnected), rfl, rfl, by simp, ?_⟩
      simp [completed, bind, Except.bind, pure, Except.pure]
    | false =>
      have alive : handle.delegate.dead = false := dead
      cases messages : handle.delegate.messages with
      | nil =>
        refine .inl ⟨{ handle.delegate with wakers := handle.delegate.wakers.insert receiving waker }, .pending, messages, rfl,
          by simp, ?_⟩
        simp [completed, Session.poll, alive, messages, bind, Except.bind, pure, Except.pure]
      | cons bytes rest =>
        refine .inr ⟨bytes, { handle.delegate with
          messages := rest
          wakers := handle.delegate.wakers.erase receiving }, rfl, rfl, ?_⟩
        simp [completed, Session.poll, alive, messages, bind, Except.bind]

theorem deliver_cases (cipher : Cipher S) (party : Party S) (datagram : Bytes) :
    party.deliver cipher datagram = party ∨
    ∃ packet, SessionPacket.codec.deserialize datagram = some packet ∧
      party.deliver cipher datagram = party.handlePacket cipher packet := by
  unfold Party.deliver
  split
  · exact .inl rfl
  next packet decoded =>
    split
    · exact .inr ⟨packet, decoded, rfl⟩
    · exact .inl rfl

theorem SameSender.refl (party : Party S) : SameSender party party := ⟨rfl, rfl, rfl, rfl, rfl, rfl⟩

theorem SameReceiver.refl (party : Party S) : SameReceiver party party := ⟨rfl, rfl, rfl, rfl, rfl, rfl, rfl⟩

theorem recv_sender {party next : Party S} {handle : Chunker (Session S)} (stage : party.stage = .established handle)
    {receiving : Uuid} {waker : Waker} (received : party.recv cipher handle receiving waker = .ok next) :
    SameSender party next := by
  obtain ⟨⟨after, result⟩, stepped, rest⟩ := bind_ok.mp received
  have kept : after.delegate.transport = handle.delegate.transport ∧ after.chunkSize = handle.chunkSize ∧
      after.currentGroup = handle.currentGroup := by
    rcases recvStep_cases cipher handle receiving waker with ⟨data, rest, -, step⟩ |
      ⟨delegate, result, -, transport, -, step⟩ | ⟨bytes, delegate, -, transport, step⟩
    · cases step.symm.trans stepped
      exact ⟨rfl, rfl, rfl⟩
    · cases step.symm.trans stepped
      exact ⟨transport, rfl, rfl⟩
    · obtain ⟨added, addition, result⟩ := bind_ok.mp (step.symm.trans stepped)
      cases result
      have keeps := receive_keeps addition
      exact ⟨(congrArg Session.transport keeps.delegate).trans transport, keeps.chunkSize, keeps.currentGroup⟩
  have same : next.stage = .established after ∧ next.outbox = party.outbox ∧ next.sent = party.sent ∧
      next.written = party.written := by
    split at rest
    next outcome =>
      cases outcome
      cases rest
      exact ⟨rfl, rfl, rfl, rfl⟩
    next outcome =>
      cases outcome
      cases rest
      exact ⟨rfl, rfl, rfl, rfl⟩
  obtain ⟨nextStage, outbox, sent, written⟩ := same
  refine ⟨?_, ?_, ?_, outbox, sent, written⟩
  · rw [nextStage, stage]
    exact congrArg nextNonce kept.1
  · rw [nextStage, stage]
    exact kept.2.1
  · rw [nextStage, stage]
    exact kept.2.2

theorem act_cases {party next : Party S} {action : Action} (acted : party.act cipher action = .ok next) :
    next = party ∨ (∃ datagram, action = .deliver datagram ∧ next = party.deliver cipher datagram) ∨
    next = party.close ∨ ∃ handle, party.stage = .established handle ∧ party.use cipher handle action = .ok next := by
  unfold Party.act at acted
  split at acted
  next handle stage => exact .inr (.inr (.inr ⟨handle, stage, acted⟩))
  next =>
    cases acted
    exact .inr (.inl ⟨_, rfl, rfl⟩)
  next =>
    cases acted
    exact .inr (.inr (.inl rfl))
  next =>
    cases acted
    exact .inl rfl

theorem deliver_sender (party : Party S) (datagram : Bytes) : SameSender party (party.deliver cipher datagram) := by
  rcases deliver_cases cipher party datagram with same | ⟨packet, -, handled⟩
  · rw [same]
    exact .refl party
  · rw [handled]
    exact (handlePacket_spec cipher party packet).1

theorem close_same (party : Party S) : SameSender party party.close ∧ SameReceiver party party.close := by
  obtain ⟨id, registered, stage, outbox, sent, returned, written, received⟩ := party
  cases stage with
  | responding pending => exact ⟨⟨rfl, rfl, rfl, rfl, rfl, rfl⟩, ⟨rfl, rfl, rfl, rfl, rfl, rfl, rfl⟩⟩
  | established handle => exact ⟨⟨rfl, rfl, rfl, rfl, rfl, rfl⟩, ⟨rfl, rfl, rfl, rfl, rfl, rfl, rfl⟩⟩

theorem checkHeartbeat_same {party : Party S} {handle : Chunker (Session S)} (stage : party.stage = .established handle) :
    let next := { party with stage := .established { handle with delegate := handle.delegate.checkHeartbeat.1 } }
    SameSender party next ∧ SameReceiver party next := by
  obtain ⟨id, registered, _, outbox, sent, returned, written, received⟩ := party
  cases stage
  have beat : handle.delegate.checkHeartbeat.1.transport = handle.delegate.transport ∧
      handle.delegate.checkHeartbeat.1.messages = handle.delegate.messages := by
    unfold Session.checkHeartbeat
    split
    · exact ⟨rfl, rfl⟩
    · exact ⟨rfl, rfl⟩
  exact ⟨⟨congrArg nextNonce beat.1, rfl, rfl, rfl, rfl, rfl⟩,
    ⟨congrArg receivedNonces beat.1, congrArg size beat.1, beat.2, rfl, rfl, rfl, rfl⟩⟩

theorem send_spec {party : Party S} {handle : Chunker (Session S)} (stage : party.stage = .established handle)
    (data : Bytes) :
    let next := party.send handle data
    SameReceiver party next ∧ next.stage.transport = party.stage.transport ∧ next.sent = party.sent ++ [data] ∧
      next.written = party.written := by
  obtain ⟨id, registered, _, outbox, sent, returned, written, received⟩ := party
  cases stage
  unfold Party.send
  split
  next after outbox prepared =>
    have kept : ∃ currentGroup, after = { handle with currentGroup } := by
      unfold Chunker.prepare at prepared
      split at prepared
      · cases prepared
      · obtain ⟨currentGroup, -, rest⟩ := bind_ok.mp prepared
        cases rest
        exact ⟨currentGroup, rfl⟩
    obtain ⟨currentGroup, rfl⟩ := kept
    exact ⟨⟨rfl, rfl, rfl, rfl, rfl, rfl, rfl⟩, rfl, rfl, rfl⟩
  next => exact ⟨⟨rfl, rfl, rfl, rfl, rfl, rfl, rfl⟩, rfl, rfl, rfl⟩

theorem encrypt_receiver {party next : Party S} {handle : Chunker (Session S)} (stage : party.stage = .established handle)
    (message : Message)
    (nextStage : next.stage = .established { handle with delegate := (handle.delegate.encrypt cipher message).1 })
    (returned : next.returned = party.returned) (received : next.received = party.received) : SameReceiver party next := by
  obtain ⟨nextNonce, -, moved⟩ :=
    handle.delegate.transport.writeMessage_state cipher (Message.codec.encode message) 65535
  refine ⟨?_, ?_, ?_, ?_, ?_, returned, received⟩
  all_goals simp only [stage, nextStage, Stage.transport, Stage.handle, Session.encrypt_state, moved]

theorem encrypt_sound {party next reader : Party S} {handle : Chunker (Session S)}
    (sound : (ends party reader).Sound) (stage : party.stage = .established handle) (message : Message)
    (nextStage : next.stage = .established { handle with delegate := (handle.delegate.encrypt cipher message).1 })
    (written : next.written = party.written ++ Party.sealing cipher handle.delegate message) :
    (ends next reader).Sound := by
  have step : ends next reader = (ends party reader).step cipher (.write (Message.codec.encode message) 65535) := by
    simp only [ends, Ends.step, stage, nextStage, written, Stage.transport, Session.encrypt_state, Party.sealing]
  rw [step]
  exact sound.write _ _

theorem act_sender {party next : Party S} {action : Action} (acted : party.act cipher action = .ok next) :
    SameSender party next ∨ ∃ handle, party.stage = .established handle ∧
      ((∃ data, action = .send data ∧ next = party.send handle data) ∨ next = party.transmit cipher handle ∨
        next = party.keepalive cipher handle) := by
  rcases act_cases acted with rfl | ⟨datagram, -, rfl⟩ | rfl | ⟨handle, stage, used⟩
  · exact .inl (.refl next)
  · exact .inl (deliver_sender party datagram)
  · exact .inl (close_same party).1
  · cases action with
    | deliver datagram =>
      cases used
      exact .inl (deliver_sender party datagram)
    | close =>
      cases used
      exact .inl (close_same party).1
    | recv receiving waker => exact .inl (recv_sender stage used)
    | checkHeartbeat =>
      cases used
      exact .inl (checkHeartbeat_same stage).1
    | send data =>
      cases used
      exact .inr ⟨handle, stage, .inl ⟨data, rfl, rfl⟩⟩
    | transmit =>
      cases used
      exact .inr ⟨handle, stage, .inr (.inl rfl)⟩
    | keepalive =>
      cases used
      exact .inr ⟨handle, stage, .inr (.inr rfl)⟩

theorem sealing_cases (cipher : Cipher S) (session : Session S) (message : Message) :
    Party.sealing cipher session message = [] ∨
    ∃ record, Party.sealing cipher session message = [record] ∧ record.plaintext = Message.codec.encode message := by
  unfold Party.sealing
  cases written : session.transport.written? cipher (Message.codec.encode message) 65535 with
  | none => exact .inl rfl
  | some record => exact .inr ⟨record, rfl, (session.transport.written?_some cipher written).2.2.1⟩

theorem transmit_spec (cipher : Cipher S) {party : Party S} (handle : Chunker (Session S)) {data : Bytes}
    {outbox : List Bytes} (pending : party.outbox = data :: outbox) :
    let next := party.transmit cipher handle
    ∃ delegate, next.stage = .established { handle with delegate } ∧ next.sent = party.sent ∧
      next.returned = party.returned ∧ next.received = party.received ∧
      (next.outbox = outbox ∨ next.outbox = []) ∧
      (delegate = handle.delegate ∧ next.written = party.written ∨
        delegate = (handle.delegate.encrypt cipher (.payload data)).1 ∧
          next.written = party.written ++ Party.sealing cipher handle.delegate (.payload data)) := by
  intro next
  simp only [next, Party.transmit, pending, bidirectionalSession, Session.send]
  cases dead : handle.delegate.isDead with
  | true => exact ⟨handle.delegate, rfl, rfl, rfl, rfl, .inr rfl, .inl ⟨rfl, by simp⟩⟩
  | false =>
    simp only [Bool.false_eq_true, ↓reduceIte]
    cases encrypted : handle.delegate.encrypt cipher (.payload data) with
    | mk delegate result =>
      cases result with
      | ok packet => exact ⟨delegate, rfl, rfl, rfl, rfl, .inl rfl, .inr ⟨rfl, rfl⟩⟩
      | error failure => exact ⟨delegate, rfl, rfl, rfl, rfl, .inr rfl, .inr ⟨rfl, rfl⟩⟩

/-- The chunks that a handle has encrypted and those that it has yet to, as cut
from `messages`. -/
structure Emitting (messages : List Bytes) (party : Party S) (emitted remaining : List ChunkedData) : Prop where
  sent : party.sent <+: messages
  chunkSize : party.stage.handle.chunkSize = 4096
  aligned : party.stage.handle.currentGroup = party.sent.length ∨ 2 ^ 64 ≤ party.stage.handle.currentGroup + 1
  log : (party.written.filterMap fun record => payload? record.plaintext) = emitted.map ChunkedData.codec.encode
  outbox : party.outbox = remaining.map ChunkedData.codec.encode
  valid : ∀ chunk ∈ emitted ++ remaining, Genuine (piecesOf 4096 messages) chunk ∧ ChunkedData.codec.Fits chunk ∧
    chunk.data.length ≤ 4096 ∧ chunk.group < party.stage.handle.currentGroup
  ordered : (emitted ++ remaining).Pairwise Before

namespace Emitting

variable {messages : List Bytes} {party next : Party S} {emitted remaining : List ChunkedData}

theorem advance (emitting : Emitting messages party emitted remaining) {later rest : List ChunkedData}
    (sent : next.sent = party.sent) (chunkSize : next.stage.handle.chunkSize = party.stage.handle.chunkSize)
    (currentGroup : next.stage.handle.currentGroup = party.stage.handle.currentGroup)
    (log : (next.written.filterMap fun record => payload? record.plaintext) = later.map ChunkedData.codec.encode)
    (outbox : next.outbox = rest.map ChunkedData.codec.encode) (fewer : (later ++ rest).Sublist (emitted ++ remaining)) :
    Emitting messages next later rest where
  sent := sent ▸ emitting.sent
  chunkSize := chunkSize.trans emitting.chunkSize
  aligned := by rw [currentGroup, sent]; exact emitting.aligned
  log := log
  outbox := outbox
  valid := by
    intro chunk member
    rw [currentGroup]
    exact emitting.valid chunk (fewer.subset member)
  ordered := emitting.ordered.sublist fewer

theorem same (emitting : Emitting messages party emitted remaining) (same : SameSender party next) :
    Emitting messages next emitted remaining :=
  emitting.advance same.sent same.chunkSize same.currentGroup (same.written ▸ emitting.log)
    (same.outbox ▸ emitting.outbox) (.refl _)

theorem send (emitting : Emitting messages party emitted remaining) {handle : Chunker (Session S)}
    (stage : party.stage = .established handle) {data : Bytes} (bounded : data.length < 2 ^ 63)
    (sent : party.sent ++ [data] <+: messages) :
    ∃ remaining, Emitting messages (party.send handle data) emitted remaining := by
  have size : handle.chunkSize = 4096 := by simpa [stage, Stage.handle] using emitting.chunkSize
  have aligned : handle.currentGroup = party.sent.length ∨ 2 ^ 64 ≤ handle.currentGroup + 1 := by
    simpa [stage, Stage.handle] using emitting.aligned
  have valid : ∀ chunk ∈ emitted ++ remaining, Genuine (piecesOf 4096 messages) chunk ∧ ChunkedData.codec.Fits chunk ∧
      chunk.data.length ≤ 4096 ∧ chunk.group < handle.currentGroup := by
    simpa [stage, Stage.handle] using emitting.valid
  have before : emitted.Pairwise Before := (List.pairwise_append.mp emitting.ordered).1
  rcases prepare_cases handle data (by omega) with ⟨failed, full⟩ | ⟨prepared, room⟩
  · refine ⟨[], ?_⟩
    simp only [Party.send, failed]
    refine ⟨sent, emitting.chunkSize, .inr ?_, emitting.log, rfl, ?_, by simpa using before⟩
    · rw [stage]
      exact full
    · intro chunk member
      rw [stage]
      exact valid chunk (List.mem_append_left _ (by simpa using member))
  · have position : handle.currentGroup = party.sent.length := aligned.resolve_right (by omega)
    have stored : messages[handle.currentGroup]? = some data := by
      obtain ⟨rest, rfl⟩ := sent
      simp [position]
    rw [size] at prepared
    refine ⟨Chunker.chunked handle.currentGroup 4096 data, ?_⟩
    simp only [Party.send, prepared]
    refine ⟨sent, rfl, .inl (by simp [Stage.handle, position]), emitting.log, rfl, ?_, ?_⟩
    · intro chunk member
      rcases List.mem_append.mp member with member | member
      · obtain ⟨genuine, fits, short, below⟩ := valid chunk (List.mem_append_left _ member)
        exact ⟨genuine, fits, short, Nat.lt_succ_of_lt below⟩
      · have fits := chunked_fits (by decide) bounded (by omega) member
        obtain ⟨group, -, piece⟩ := mem_chunked member
        exact ⟨chunked_genuine stored (few_pieces bounded) member, fits,
          length_le_of_mem_chunks (List.mem_of_getElem? piece), group ▸ Nat.lt_succ_self _⟩
    · refine List.pairwise_append.mpr ⟨before, chunked_ordered _ _ _, ?_⟩
      intro earlier member chunk later
      have below := (valid earlier (List.mem_append_left _ member)).2.2.2
      rw [← (mem_chunked later).1] at below
      exact .inl below

theorem keepalive (emitting : Emitting messages party emitted remaining) {handle : Chunker (Session S)}
    (stage : party.stage = .established handle) :
    Emitting messages (party.keepalive cipher handle) emitted remaining := by
  have log := emitting.log
  refine emitting.advance rfl (by rw [stage]; rfl) (by rw [stage]; rfl) ?_ emitting.outbox (.refl _)
  rcases sealing_cases cipher handle.delegate .keepalive with nothing | ⟨record, sealed, plaintext⟩
  · simp [Party.keepalive, nothing, log]
  · simp [Party.keepalive, sealed, plaintext, payload?_encode_keepalive, log]

theorem transmit (emitting : Emitting messages party emitted remaining) {handle : Chunker (Session S)}
    (stage : party.stage = .established handle) :
    ∃ later rest, Emitting messages (party.transmit cipher handle) later rest := by
  cases remaining with
  | nil =>
    have done : party.transmit cipher handle = party := by simp [Party.transmit, emitting.outbox]
    exact ⟨emitted, [], done.symm ▸ emitting⟩
  | cons chunk rest =>
    have short := (emitting.valid chunk (by simp)).2.2.1
    have bounded : (ChunkedData.codec.encode chunk).length < 2 ^ 64 := by rw [ChunkedData.length_encode]; omega
    obtain ⟨delegate, nextStage, sent, -, -, outbox, written⟩ := transmit_spec cipher handle emitting.outbox
    have log : ∃ later, ((party.transmit cipher handle).written.filterMap fun record => payload? record.plaintext) =
        later.map ChunkedData.codec.encode ∧ (later = emitted ∨ later = emitted ++ [chunk]) := by
      rcases written with ⟨-, written⟩ | ⟨-, written⟩
      · exact ⟨emitted, by rw [written, emitting.log], .inl rfl⟩
      · rcases sealing_cases cipher handle.delegate (.payload (ChunkedData.codec.encode chunk)) with
          nothing | ⟨record, sealed, plaintext⟩
        · exact ⟨emitted, by rw [written, nothing, List.append_nil, emitting.log], .inl rfl⟩
        · refine ⟨emitted ++ [chunk], ?_, .inr rfl⟩
          rw [written, sealed, List.filterMap_append, emitting.log, List.map_append]
          simp [plaintext, payload?_encode_payload bounded]
    obtain ⟨later, log, progress⟩ := log
    have shorter : ∀ tail : List ChunkedData, tail.Sublist rest → (later ++ tail).Sublist (emitted ++ chunk :: rest) := by
      intro tail fewer
      rcases progress with rfl | rfl
      · exact (List.Sublist.refl _).append (fewer.cons chunk)
      · rw [List.append_assoc]
        exact (List.Sublist.refl _).append (fewer.cons_cons chunk)
    have same : (party.transmit cipher handle).stage.handle.chunkSize = party.stage.handle.chunkSize ∧
        (party.transmit cipher handle).stage.handle.currentGroup = party.stage.handle.currentGroup := by
      rw [nextStage, stage]
      exact ⟨rfl, rfl⟩
    rcases outbox with outbox | outbox
    · exact ⟨later, rest, emitting.advance sent same.1 same.2 log outbox (shorter rest (.refl _))⟩
    · exact ⟨later, [], emitting.advance sent same.1 same.2 log outbox (shorter [] (List.nil_sublist _))⟩

end Emitting
theorem next_chunk {consumed emitted : List ChunkedData} {bytes : Bytes} {rest : List Bytes}
    (consumedFit : ∀ chunk ∈ consumed, ChunkedData.codec.Fits chunk)
    (emittedFit : ∀ chunk ∈ emitted, ChunkedData.codec.Fits chunk)
    (log : (consumed.map ChunkedData.codec.encode ++ bytes :: rest).Sublist (emitted.map ChunkedData.codec.encode)) :
    ∃ chunk, bytes = ChunkedData.codec.encode chunk ∧ (consumed ++ [chunk]).Sublist emitted := by
  have head : (consumed.map ChunkedData.codec.encode ++ [bytes]).Sublist
      (consumed.map ChunkedData.codec.encode ++ bytes :: rest) :=
    (List.Sublist.refl _).append (List.singleton_sublist.mpr (by simp))
  obtain ⟨chunks, sublist, encoded⟩ := List.sublist_map_iff.mp (head.trans log)
  obtain ⟨first, last, rfl, sameFirst, sameLast⟩ := List.map_eq_append_iff.mp encoded.symm
  obtain ⟨chunk, rfl, rfl⟩ := List.map_eq_singleton_iff.mp sameLast
  have decoded := congrArg (List.filterMap ChunkedData.codec.deserialize) sameFirst
  rw [filterMap_encoded _ consumedFit, filterMap_encoded] at decoded
  · exact ⟨chunk, rfl, decoded ▸ sublist⟩
  · exact fun other member => emittedFit other (sublist.subset (List.mem_append_left _ member))

/-- The chunks that a handle has taken from its session's queue, and the groups
that they completed. -/
structure Collecting (messages : List Bytes) (party : Party S) (consumed : List ChunkedData) (done : List Nat) :
    Prop where
  log : (consumed.map ChunkedData.codec.encode ++ party.stage.handle.delegate.messages).Sublist
    (party.received.filterMap fun read => payload? read.2)
  fits : ∀ chunk ∈ consumed, ChunkedData.codec.Fits chunk
  assembling : Assembling (piecesOf 4096 messages) consumed done party.stage.handle
  output : party.returned ++ party.stage.handle.completedChunks = done.map (message (piecesOf 4096 messages))
  rising : done.Pairwise (· < ·)

namespace Collecting

variable {messages : List Bytes} {party next : Party S} {consumed : List ChunkedData} {done : List Nat}

theorem assembling_of_groups {first second : Chunker (Session S)}
    (assembling : Assembling (piecesOf 4096 messages) consumed done first) (same : second.chunkGroups = first.chunkGroups) :
    Assembling (piecesOf 4096 messages) consumed done second :=
  ⟨assembling.genuine, same ▸ assembling.groups, assembling.nodup, assembling.whole, same ▸ assembling.few⟩

theorem same (collecting : Collecting messages party consumed done) (same : SameReceiver party next) :
    Collecting messages next consumed done where
  log := by rw [same.messages, same.received]; exact collecting.log
  fits := collecting.fits
  assembling := assembling_of_groups collecting.assembling same.chunkGroups
  output := by rw [same.returned, same.completedChunks]; exact collecting.output
  rising := collecting.rising

theorem deliver (collecting : Collecting messages party consumed done) (cipher : Cipher S) (datagram : Bytes) :
    Collecting messages (party.deliver cipher datagram) consumed done := by
  rcases deliver_cases cipher party datagram with same | ⟨packet, -, handled⟩
  · exact same.symm ▸ collecting
  · rw [handled]
    obtain ⟨-, -, received, returned, groups, completed, queue⟩ := handlePacket_spec cipher party packet
    refine ⟨?_, collecting.fits, assembling_of_groups collecting.assembling groups, ?_, collecting.rising⟩
    · rw [received, List.filterMap_append]
      rcases queue with queue | queue
      · rw [queue]
        exact collecting.log.trans (List.sublist_append_left _ _)
      · rw [queue, ← List.append_assoc]
        exact collecting.log.append (.refl _)
    · rw [returned, completed]
      exact collecting.output

theorem rises {chunk : ChunkedData} {pieces : Nat → List Bytes} {handle : Chunker (Session S)} {more : List Nat}
    (rising : done.Pairwise (· < ·)) (assembling : Assembling pieces consumed done handle)
    (genuine : Genuine pieces chunk) (ordered : (consumed ++ [chunk]).Pairwise Before)
    (completed : more = [] ∨ more = [chunk.group]) : (done ++ more).Pairwise (· < ·) := by
  have fresh : chunk ∉ consumed := by
    intro member
    exact (List.nodup_append.mp (Before.nodup ordered)).2.2 chunk member chunk (by simp) rfl
  rcases completed with rfl | rfl
  · simpa using rising
  · refine List.pairwise_append.mpr ⟨rising, by simp, ?_⟩
    intro id member group last
    rw [List.mem_singleton.mp last]
    obtain ⟨nonempty, whole⟩ := assembling.whole id member
    obtain ⟨other, present, rfl, -⟩ := whole 0 nonempty
    have before := (List.pairwise_append.mp ordered).2.2 other present chunk (by simp)
    rcases before with lower | ⟨equal, -⟩
    · exact lower
    · exact absurd (equal ▸ member) (assembling.not_done genuine fresh)

theorem recv (collecting : Collecting messages party consumed done) {handle : Chunker (Session S)}
    (stage : party.stage = .established handle) {emitted : List ChunkedData}
    (valid : ∀ chunk ∈ emitted, Genuine (piecesOf 4096 messages) chunk ∧ ChunkedData.codec.Fits chunk)
    (ordered : emitted.Pairwise Before)
    (arriving : (party.received.filterMap fun read => payload? read.2).Sublist (emitted.map ChunkedData.codec.encode))
    (receiving : Uuid) (waker : Waker) :
    ∃ next consumed done, party.recv cipher handle receiving waker = .ok next ∧
      next.received = party.received ∧ next.stage.transport = party.stage.transport ∧ Collecting messages next consumed done := by
  have log := collecting.log
  have assembling := collecting.assembling
  have output := collecting.output
  simp only [stage, Stage.handle] at log assembling output
  rcases recvStep_cases cipher handle receiving waker with ⟨data, rest, completed, step⟩ |
    ⟨delegate, result, queue, transport, unfinished, step⟩ | ⟨bytes, delegate, queue, transport, step⟩
  · refine ⟨{ party with
      stage := .established { handle with completedChunks := rest }
      returned := party.returned ++ [data] }, consumed, done, ?_, ?_, ?_, log, collecting.fits, ?_, ?_, collecting.rising⟩
    · simp [Party.recv, step, bind, Except.bind, pure, Except.pure]
    · rfl
    · rw [stage]
      rfl
    · exact assembling_of_groups assembling rfl
    · rw [completed] at output
      simpa [Stage.handle] using output
  · refine ⟨{ party with stage := .established { handle with delegate } }, consumed, done, ?_, ?_, ?_, ?_, collecting.fits, ?_,
      output, collecting.rising⟩
    · simp only [Party.recv, step, bind, Except.bind, pure, Except.pure]
      split
      next outcome =>
        cases outcome
        exact absurd rfl (unfinished _)
      next outcome =>
        cases outcome
        rfl
    · rfl
    · rw [stage]
      exact transport
    · rw [← queue] at log
      exact log
    · exact assembling_of_groups assembling rfl
  · rw [queue] at log
    obtain ⟨chunk, rfl, sublist⟩ := next_chunk collecting.fits (fun chunk member => (valid chunk member).2) (log.trans arriving)
    obtain ⟨genuine, fits⟩ := valid chunk (sublist.subset (by simp))
    have inOrder := ordered.sublist sublist
    have fresh : chunk ∉ consumed := by
      intro member
      exact (List.nodup_append.mp (Before.nodup inOrder)).2.2 chunk member chunk (by simp) rfl
    have current : Assembling (piecesOf 4096 messages) consumed done { handle with delegate } :=
      assembling_of_groups assembling rfl
    obtain ⟨after, more, added, completes, state, completed, delegateKept⟩ := current.addChunk genuine fresh
    have received : Chunker.receive { handle with delegate } (ChunkedData.codec.encode chunk) = .ok after := by
      simp [Chunker.receive, ChunkedData.codec.deserialize_encode fits, added]
    refine ⟨{ party with stage := .established after }, consumed ++ [chunk], done ++ more, ?_, rfl, ?_, ?_, ?_, state, ?_, ?_⟩
    · simp [Party.recv, step, received, bind, Except.bind, pure, Except.pure]
    · rw [stage]
      exact (congrArg Session.transport delegateKept).trans transport
    · simp only [Stage.handle, delegateKept, List.map_append, List.append_assoc]
      exact log
    · intro other member
      rcases List.mem_append.mp member with member | member
      · exact collecting.fits other member
      · exact List.mem_singleton.mp member ▸ fits
    · simp only [Stage.handle, completed, List.map_append, ← output, List.append_assoc]
    · exact rises collecting.rising assembling genuine inOrder completes

end Collecting
/-- One direction of a link. -/
structure Flow (messages : List Bytes) (writer reader : Party S) : Prop where
  sound : (ends writer reader).Sound
  single : reader.stage.transport.size = 1
  emitting : ∃ emitted remaining, Emitting messages writer emitted remaining
  collecting : ∃ consumed done, Collecting messages reader consumed done

namespace Flow

variable {messages : List Bytes} {writer reader next : Party S} {action : Action}

theorem sound_of_same_writer (sound : (ends writer reader).Sound)
    (nextNonce : next.stage.transport.nextNonce = writer.stage.transport.nextNonce)
    (written : next.written = writer.written) : (ends next reader).Sound where
  used := by simpa only [ends, nextNonce, written] using sound.used
  rising := by simpa only [ends, written] using sound.rising
  refused := sound.refused
  once := sound.once
  genuine := by simpa only [ends, written] using sound.genuine
  bounded := sound.bounded
  ordered := sound.ordered

theorem sound_of_same_reader (sound : (ends writer reader).Sound)
    (receivedNonces : next.stage.transport.receivedNonces = reader.stage.transport.receivedNonces)
    (size : next.stage.transport.size = reader.stage.transport.size) (received : next.received = reader.received) :
    (ends writer next).Sound where
  used := sound.used
  rising := sound.rising
  refused := by simpa only [ends, receivedNonces, received] using sound.refused
  once := by simpa only [ends, received] using sound.once
  genuine := by simpa only [ends, received] using sound.genuine
  bounded := by simpa only [ends, receivedNonces, size] using sound.bounded
  ordered := by simpa only [ends, size, received] using sound.ordered

theorem same_sender (flow : Flow messages writer reader) (same : SameSender writer next) : Flow messages next reader := by
  obtain ⟨emitted, remaining, emitting⟩ := flow.emitting
  exact ⟨sound_of_same_writer flow.sound same.nextNonce same.written, flow.single, ⟨emitted, remaining, emitting.same same⟩,
    flow.collecting⟩

theorem same_receiver (flow : Flow messages writer reader) (same : SameReceiver reader next) :
    Flow messages writer next := by
  obtain ⟨consumed, done, collecting⟩ := flow.collecting
  exact ⟨sound_of_same_reader flow.sound same.receivedNonces same.size same.received, same.size.trans flow.single,
    flow.emitting, ⟨consumed, done, collecting.same same⟩⟩

theorem arriving (flow : Flow messages writer reader) {emitted remaining : List ChunkedData}
    (emitting : Emitting messages writer emitted remaining) :
    (reader.received.filterMap fun read => payload? read.2).Sublist (emitted.map ChunkedData.codec.encode) := by
  have inOrder := (flow.sound.received_sublist flow.single).filterMap fun read => payload? read.2
  rw [List.filterMap_map] at inOrder
  exact emitting.log ▸ inOrder

theorem write (flow : Flow messages writer reader) (acted : writer.act cipher action = .ok next)
    (sent : next.sent <+: messages) : Flow messages next reader := by
  rcases act_sender acted with same | ⟨handle, stage, ⟨data, rfl, rfl⟩ | rfl | rfl⟩
  · exact flow.same_sender same
  · obtain ⟨emitted, remaining, emitting⟩ := flow.emitting
    obtain ⟨-, transport, passed, written⟩ := send_spec stage data.val
    obtain ⟨remaining, prepared⟩ := emitting.send stage data.property (passed ▸ sent)
    exact ⟨sound_of_same_writer flow.sound (congrArg nextNonce transport) written, flow.single,
      ⟨emitted, remaining, prepared⟩, flow.collecting⟩
  · obtain ⟨emitted, remaining, emitting⟩ := flow.emitting
    refine ⟨?_, flow.single, emitting.transmit stage, flow.collecting⟩
    cases outbox : writer.outbox with
    | nil =>
      have idle : writer.transmit cipher handle = writer := by simp [Party.transmit, outbox]
      exact idle.symm ▸ flow.sound
    | cons data rest =>
      obtain ⟨delegate, nextStage, -, -, -, -, written⟩ := transmit_spec cipher handle outbox
      rcases written with ⟨rfl, written⟩ | ⟨rfl, written⟩
      · exact sound_of_same_writer flow.sound (by rw [nextStage, stage]) written
      · exact encrypt_sound flow.sound stage _ nextStage written
  · obtain ⟨emitted, remaining, emitting⟩ := flow.emitting
    exact ⟨encrypt_sound flow.sound stage .keepalive rfl rfl, flow.single, ⟨emitted, remaining, emitting.keepalive stage⟩,
      flow.collecting⟩

theorem deliver (flow : Flow messages writer reader) (datagram : Bytes)
    (ideal : ∀ encrypted ∈ (SessionPacket.codec.deserialize datagram).bind SessionPacket.encrypted,
      (ends writer reader).Ideal cipher (.read encrypted 65535)) :
    Flow messages writer (reader.deliver cipher datagram) := by
  obtain ⟨consumed, done, collecting⟩ := flow.collecting
  have collected := collecting.deliver cipher datagram
  rcases deliver_cases cipher reader datagram with same | ⟨packet, decoded, handled⟩
  · exact same.symm ▸ flow
  · rw [handled] at collected ⊢
    obtain ⟨-, transport, received, -⟩ := handlePacket_spec cipher reader packet
    cases encrypted : packet.encrypted with
    | none =>
      rw [afterPacket, encrypted] at transport
      have nothing : (reader.handlePacket cipher packet).received = reader.received := by
        simp [received, Party.opening, encrypted]
      exact ⟨sound_of_same_reader flow.sound (congrArg receivedNonces transport) (congrArg size transport) nothing,
        (congrArg size transport).trans flow.single, flow.emitting, ⟨consumed, done, collected⟩⟩
    | some ciphertext =>
      rw [afterPacket, encrypted] at transport
      have step : ends writer (reader.handlePacket cipher packet) =
          (ends writer reader).step cipher (.read ciphertext 65535) := by
        simp only [ends, Ends.step, transport, received, Party.opening, encrypted, Option.bind_some]
      have size : ((ends writer reader).step cipher (.read ciphertext 65535)).reader.size = _ := Ends.step_size _
      have positive : 1 ≤ reader.stage.transport.size := Nat.le_of_eq flow.single.symm
      refine ⟨?_, ?_, flow.emitting, ⟨consumed, done, collected⟩⟩
      · rw [step]
        exact flow.sound.read positive ciphertext 65535 (ideal ciphertext (by simp [decoded, encrypted]))
      · rw [← step] at size
        exact size.trans flow.single

theorem read (flow : Flow messages writer reader) (action : Action)
    (ideal : ∀ datagram, action = .deliver datagram →
      ∀ encrypted ∈ (SessionPacket.codec.deserialize datagram).bind SessionPacket.encrypted,
        (ends writer reader).Ideal cipher (.read encrypted 65535)) :
    ∃ next, reader.act cipher action = .ok next ∧ Flow messages writer next := by
  cases stage : reader.stage with
  | responding pending =>
    cases action with
    | deliver datagram =>
      exact ⟨_, by simp only [Party.act, stage], flow.deliver datagram (ideal datagram rfl)⟩
    | close => exact ⟨_, by simp only [Party.act, stage], flow.same_receiver (close_same reader).2⟩
    | send data => exact ⟨reader, by simp only [Party.act, stage], flow⟩
    | transmit => exact ⟨reader, by simp only [Party.act, stage], flow⟩
    | keepalive => exact ⟨reader, by simp only [Party.act, stage], flow⟩
    | recv receiving waker => exact ⟨reader, by simp only [Party.act, stage], flow⟩
    | checkHeartbeat => exact ⟨reader, by simp only [Party.act, stage], flow⟩
  | established handle =>
    have used : reader.act cipher action = reader.use cipher handle action := by simp only [Party.act, stage]
    rw [used]
    cases action with
    | deliver datagram => exact ⟨_, rfl, flow.deliver datagram (ideal datagram rfl)⟩
    | close => exact ⟨_, rfl, flow.same_receiver (close_same reader).2⟩
    | send data => exact ⟨_, rfl, flow.same_receiver (send_spec stage data.val).1⟩
    | checkHeartbeat => exact ⟨_, rfl, flow.same_receiver (checkHeartbeat_same stage).2⟩
    | keepalive => exact ⟨_, rfl, flow.same_receiver (encrypt_receiver stage .keepalive rfl rfl rfl)⟩
    | transmit =>
      refine ⟨_, rfl, ?_⟩
      cases outbox : reader.outbox with
      | nil =>
        have idle : reader.transmit cipher handle = reader := by simp [Party.transmit, outbox]
        exact idle.symm ▸ flow
      | cons data rest =>
        obtain ⟨delegate, nextStage, -, returned, received, -, written⟩ := transmit_spec cipher handle outbox
        rcases written with ⟨rfl, -⟩ | ⟨rfl, -⟩
        · refine flow.same_receiver ⟨?_, ?_, ?_, ?_, ?_, returned, received⟩
          all_goals rw [nextStage, stage]
        · exact flow.same_receiver (encrypt_receiver stage _ nextStage returned received)
    | recv receiving waker =>
      obtain ⟨emitted, remaining, emitting⟩ := flow.emitting
      obtain ⟨consumed, done, collecting⟩ := flow.collecting
      have valid : ∀ chunk ∈ emitted, Genuine (piecesOf 4096 messages) chunk ∧ ChunkedData.codec.Fits chunk := by
        intro chunk member
        obtain ⟨genuine, fits, -⟩ := emitting.valid chunk (List.mem_append_left _ member)
        exact ⟨genuine, fits⟩
      obtain ⟨next, consumed, done, received, sameReceived, transport, after⟩ := collecting.recv stage valid
        (List.pairwise_append.mp emitting.ordered).1 (flow.arriving emitting) receiving waker
      exact ⟨next, received, sound_of_same_reader flow.sound (congrArg receivedNonces transport) (congrArg size transport)
        sameReceived, (congrArg size transport).trans flow.single, ⟨emitted, remaining, emitting⟩, ⟨consumed, done, after⟩⟩

/-- What `recv` has returned, in the order in which it was sent. -/
theorem returned_sublist (flow : Flow messages writer reader) : reader.returned.Sublist messages := by
  obtain ⟨consumed, done, collecting⟩ := flow.collecting
  have inside : ∀ id ∈ done, id < messages.length := fun id member =>
    position_inside (collecting.assembling.whole id member).1
  have first : reader.returned.Sublist (done.map (message (piecesOf 4096 messages))) :=
    collecting.output ▸ List.sublist_append_left _ _
  have positions : done.Sublist (List.range messages.length) := by
    apply List.sublist_of_subperm_of_pairwise _ collecting.rising List.pairwise_lt_range
    apply List.subperm_of_subset collecting.assembling.nodup
    intro id member
    exact List.mem_range.mpr (inside id member)
  have all : (List.range messages.length).map (message (piecesOf 4096 messages)) = messages := by
    apply List.ext_getElem
    · simp
    · intro id _ inside
      rw [List.getElem_map, List.getElem_range, message_piecesOf (by decide) messages inside]
  have mapped := positions.map (message (piecesOf 4096 messages))
  rw [all] at mapped
  exact first.trans mapped

end Flow
def last (cipher : Cipher S) (link : Link S) : List (Side × Action) → Link S
  | [] => link
  | event :: events =>
    match link.step cipher event with
    | .ok next => last cipher next events
    | .error _ => link

theorem act_sent {party next : Party S} {action : Action} (acted : party.act cipher action = .ok next) :
    party.sent <+: next.sent := by
  rcases act_sender acted with same | ⟨handle, stage, ⟨data, -, rfl⟩ | rfl | rfl⟩
  · exact same.sent ▸ List.prefix_refl _
  · rw [(send_spec stage data.val).2.2.1]
    exact List.prefix_append _ _
  · cases outbox : party.outbox with
    | nil =>
      have idle : party.transmit cipher handle = party := by simp [Party.transmit, outbox]
      exact idle.symm ▸ List.prefix_refl _
    | cons data rest =>
      obtain ⟨delegate, -, sent, -⟩ := transmit_spec cipher handle outbox
      exact sent ▸ List.prefix_refl _
  · exact List.prefix_refl _

theorem step_sent {link next : Link S} {event : Side × Action} (stepped : link.step cipher event = .ok next) :
    link.initiator.sent <+: next.initiator.sent ∧ link.responder.sent <+: next.responder.sent := by
  obtain ⟨side, action⟩ := event
  cases side with
  | initiator =>
    obtain ⟨party, acted, result⟩ := bind_ok.mp stepped
    cases result
    exact ⟨act_sent acted, List.prefix_refl _⟩
  | responder =>
    obtain ⟨party, acted, result⟩ := bind_ok.mp stepped
    cases result
    exact ⟨List.prefix_refl _, act_sent acted⟩

theorem last_sent (link : Link S) (events : List (Side × Action)) :
    link.initiator.sent <+: (link.last cipher events).initiator.sent ∧
      link.responder.sent <+: (link.last cipher events).responder.sent := by
  induction events generalizing link with
  | nil => exact ⟨List.prefix_refl _, List.prefix_refl _⟩
  | cons event events ih =>
    unfold last
    cases stepped : link.step cipher event with
    | error panic => exact ⟨List.prefix_refl _, List.prefix_refl _⟩
    | ok next =>
      obtain ⟨first, second⟩ := step_sent stepped
      exact ⟨first.trans (ih next).1, second.trans (ih next).2⟩

/-- Both directions of a link, relative to all messages that each end will send. -/
structure Sound (fromInitiator fromResponder : List Bytes) (link : Link S) : Prop where
  forth : Flow fromInitiator link.initiator link.responder
  back : Flow fromResponder link.responder link.initiator

variable {fromInitiator fromResponder : List Bytes} {link : Link S}

theorem Sound.step (sound : Sound fromInitiator fromResponder link) (event : Side × Action)
    (ideal : link.Ideal cipher event)
    (sent : ∀ next, link.step cipher event = .ok next →
      next.initiator.sent <+: fromInitiator ∧ next.responder.sent <+: fromResponder) :
    ∃ next, link.step cipher event = .ok next ∧ Sound fromInitiator fromResponder next := by
  obtain ⟨side, action⟩ := event
  cases side with
  | initiator =>
    obtain ⟨party, acted, back⟩ := sound.back.read action (by
      rintro datagram rfl
      exact ideal)
    have stepped : link.step cipher (.initiator, action) = .ok { link with initiator := party } := by
      simp [Link.step, acted, bind, Except.bind, pure, Except.pure]
    exact ⟨_, stepped, sound.forth.write acted (sent _ stepped).1, back⟩
  | responder =>
    obtain ⟨party, acted, forth⟩ := sound.forth.read action (by
      rintro datagram rfl
      exact ideal)
    have stepped : link.step cipher (.responder, action) = .ok { link with responder := party } := by
      simp [Link.step, acted, bind, Except.bind, pure, Except.pure]
    exact ⟨_, stepped, forth, sound.back.write acted (sent _ stepped).2⟩

theorem Sound.run (events : List (Side × Action)) (ideal : link.IdealRun cipher events)
    (sound : Sound (link.last cipher events).initiator.sent (link.last cipher events).responder.sent link) :
    link.run cipher events = .ok (link.last cipher events) ∧
      Sound (link.last cipher events).initiator.sent (link.last cipher events).responder.sent (link.last cipher events) := by
  induction events generalizing link with
  | nil => exact ⟨rfl, sound⟩
  | cons event events ih =>
    obtain ⟨first, rest⟩ := ideal
    obtain ⟨next, stepped, after⟩ := sound.step event first (by
      intro next stepped
      simpa only [last, stepped] using last_sent next events)
    simp only [stepped] at rest
    simp only [last, stepped, Link.run, List.foldlM_cons] at after ⊢
    exact ih rest after

theorem Sound.start (id : SessionId) (initiatorAddr responderAddr : SocketAddr) (response : Bytes)
    (initiator responder : S) (fromInitiator fromResponder : List Bytes) :
    Sound fromInitiator fromResponder (Link.start id initiatorAddr responderAddr response initiator responder) where
  forth := ⟨Ends.Sound.start initiator responder 1, rfl,
    ⟨[], [], List.nil_prefix, rfl, .inl rfl, rfl, rfl, by simp, .nil⟩,
    ⟨[], [], .refl _, by simp, Assembling.new _ _ _, rfl, .nil⟩⟩
  back := ⟨Ends.Sound.start responder initiator 1, rfl,
    ⟨[], [], List.nil_prefix, rfl, .inl rfl, rfl, rfl, by simp, .nil⟩,
    ⟨[], [], .refl _, by simp, Assembling.new _ _ _, rfl, .nil⟩⟩

/-- Whatever the network does to the datagrams of a session, as long as it cannot
forge a ciphertext, neither end's `recv` panics, and what it returns is a
subsequence of the messages that the other end has sent. -/
theorem end_to_end (cipher : Cipher S) (id : SessionId) (initiatorAddr responderAddr : SocketAddr) (response : Bytes)
    (initiator responder : S) (events : List (Side × Action))
    (ideal : (start id initiatorAddr responderAddr response initiator responder).IdealRun cipher events) :
    ∃ link, (start id initiatorAddr responderAddr response initiator responder).run cipher events = .ok link ∧
      link.responder.returned.Sublist link.initiator.sent ∧ link.initiator.returned.Sublist link.responder.sent := by
  obtain ⟨finished, sound⟩ := Sound.run events ideal (Sound.start _ _ _ _ _ _ _ _)
  exact ⟨_, finished, sound.forth.returned_sublist, sound.back.returned_sublist⟩

def datagram (id : SessionId) (nonce : Nat) (message : Message) : Bytes :=
  SessionPacket.codec.encode ⟨id, RawMessage.codec.encode (.encrypted (tagged nonce (Message.codec.encode message)))⟩

/-- Two messages are sent with keepalives in between; the first packet of the
second one overtakes that of the first, a forgery and a replay arrive as well. -/
theorem end_to_end_overtaken :
    let events : List (Side × Action) := [(.initiator, .keepalive), (.initiator, .send ⟨[1, 2], by decide⟩),
      (.initiator, .transmit), (.initiator, .keepalive), (.initiator, .send ⟨[3], by decide⟩), (.initiator, .transmit),
      (.responder, .deliver (datagram 5 0 .keepalive)),
      (.responder, .deliver (datagram 5 3 (.payload (ChunkedData.codec.encode ⟨1, 0, 1, [3]⟩)))),
      (.responder, .deliver (datagram 5 1 (.payload (ChunkedData.codec.encode ⟨0, 0, 1, [1, 2]⟩)))),
      (.responder, .deliver (datagram 5 3 (.payload (ChunkedData.codec.encode ⟨1, 0, 1, [3]⟩)))),
      (.responder, .deliver [1, 2, 3]), (.responder, .recv 0 0), (.responder, .recv 0 0)]
    let start : Link Unit := Link.start 5 (.v4 0 0) (.v4 0 0) [] () ()
    (start.run tagCipher events).map (fun link => (link.responder.returned, link.initiator.sent)) = .ok ([[3]], [[1, 2], [3]]) ∧
    ∃ link, start.run tagCipher events = .ok link ∧
      link.responder.returned.Sublist link.initiator.sent ∧ link.initiator.returned.Sublist link.responder.sent := by
  refine ⟨by decide +kernel, end_to_end tagCipher 5 (.v4 0 0) (.v4 0 0) [] () () _ (by decide +kernel)⟩

end Link
end Veq
