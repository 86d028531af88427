import Veq.Network
import Veq.Proofs.EndToEnd
import Veq.Proofs.Sections

/-! What a handler's operations do to its entries when Noise is symbolic. Most
leave every entry with the handshake it has; a packet may promote one of them. -/

namespace Veq
open Rust Bincode

section

variable {S : Type} {cipher : Cipher S} {packet : SessionPacket}

theorem afterPacket_stateless (transport : LossyTransportState S) (packet : SessionPacket) :
    (afterPacket cipher transport packet).stateless = transport.stateless := by
  unfold afterPacket
  split
  · rfl
  · exact LossyTransportState.readMessage_stateless _

theorem Session.handleIncoming_stateless (session : Session S) (packet : SessionPacket) :
    (session.handleIncoming cipher packet).1.transport.stateless = session.transport.stateless := by
  rw [(session.handleIncoming_state cipher packet).1, afterPacket_stateless]

theorem Session.encrypt_stateless (session : Session S) (message : Message) :
    (session.encrypt cipher message).1.transport.stateless = session.transport.stateless := by
  obtain ⟨nextNonce, -, written⟩ :=
    session.transport.writeMessage_state cipher (Message.codec.encode message) 65535
  rw [encrypt_state, written]

theorem Session.send_stateless (session : Session S) (data : Bytes) :
    (session.send cipher data).1.transport.stateless = session.transport.stateless := by
  unfold send
  split
  · rfl
  · exact session.encrypt_stateless (.payload data)

theorem Session.checkHeartbeat_stateless (session : Session S) :
    session.checkHeartbeat.1.transport.stateless = session.transport.stateless := by
  unfold checkHeartbeat
  split
  · rfl
  · rfl

theorem PendingSessionResponder.handleIncoming_ready {pending : PendingSessionResponder S} (waiting : pending.ready = false)
    (ready : (pending.handleIncoming cipher packet).1.ready = true) :
    ∃ encrypted ∈ packet.encrypted, ∃ nonced ∈ Nonced.codec.deserialize encrypted,
      ∃ plaintext, plaintext ∈ cipher.readMessage pending.transport.stateless nonced.nonce nonced.payload 65535 := by
  rcases pending.handleIncoming_cases cipher packet with ⟨accepted, -⟩ | ⟨-, handled, -⟩
  · have member : .keepalive ∈ acceptedIn cipher pending.transport packet := by simp [accepted]
    obtain ⟨⟨nonce, plaintext⟩, opened, -⟩ := List.mem_filterMap.mp member
    obtain ⟨encrypted, carried, read⟩ := Option.bind_eq_some_iff.mp (Option.mem_toList.mp opened)
    obtain ⟨nonced, form, rfl, -, decrypted⟩ := pending.transport.read?_some cipher read
    exact ⟨encrypted, carried, nonced, form, plaintext, decrypted⟩
  · rw [handled, waiting] at ready
    cases ready

theorem PendingSessionResponder.advance_waiting (cipher : Cipher S) {pending : PendingSessionResponder S}
    (packet : SessionPacket) (waiting : pending.ready = false) :
    (∃ session : Session S, pending.advance cipher packet = .promote session ∧
      session.transport.stateless = pending.transport.stateless ∧
      ∃ encrypted ∈ packet.encrypted, ∃ nonced ∈ Nonced.codec.deserialize encrypted,
        ∃ plaintext, plaintext ∈ cipher.readMessage pending.transport.stateless nonced.nonce nonced.payload 65535) ∨
    ∃ next : PendingSessionResponder S, pending.advance cipher packet = .putBack next ∧
      next.transport.stateless = pending.transport.stateless ∧ next.ready = false := by
  have transport : (pending.handleIncoming cipher packet).1.transport.stateless = pending.transport.stateless := by
    rw [pending.handleIncoming_state, afterPacket_stateless]
  unfold advance isReady session
  cases ready : (pending.handleIncoming cipher packet).1.ready with
  | true => exact .inl ⟨_, by simp only [ready, ↓reduceIte]; rfl, transport, handleIncoming_ready waiting ready⟩
  | false => exact .inr ⟨_, by simp [ready], transport, ready⟩

end

namespace Handler

variable {H S : Type}

/-- Every entry of `next` is one of `handler`, at the same point of its handshake. -/
structure Within (handler next : Handler H S) : Prop where
  keypair : next.keypair = handler.keypair
  pokers : ∀ id entry, next.pendingSessionsPoker id = some entry →
    ∃ old, handler.pendingSessionsPoker id = some old ∧ entry.session.snowResponder = old.session.snowResponder
  initiators : ∀ id entry, next.pendingSessionsInitiator id = some entry →
    ∃ old, handler.pendingSessionsInitiator id = some old ∧ entry.session.initiator = old.session.initiator
  responders : ∀ id entry, next.pendingSessionsResponder id = some entry →
    ∃ old, handler.pendingSessionsResponder id = some old ∧
      entry.session.transport.stateless = old.session.transport.stateless ∧
      (old.session.ready = false → entry.session.ready = false)
  established : ∀ id oneTimeId session, next.establishedSessions id = some (oneTimeId, session) →
    ∃ old, handler.establishedSessions id = some (oneTimeId, old) ∧
      session.transport.stateless = old.transport.stateless

namespace Within

variable {handler next : Handler H S}

theorem fewer (keypair : next.keypair = handler.keypair)
    (pokers : ∀ id, next.pendingSessionsPoker id = none ∨ next.pendingSessionsPoker id = handler.pendingSessionsPoker id)
    (initiators : ∀ id, next.pendingSessionsInitiator id = none ∨
      next.pendingSessionsInitiator id = handler.pendingSessionsInitiator id)
    (responders : ∀ id, next.pendingSessionsResponder id = none ∨
      next.pendingSessionsResponder id = handler.pendingSessionsResponder id)
    (established : ∀ id, next.establishedSessions id = none ∨
      next.establishedSessions id = handler.establishedSessions id) : handler.Within next := by
  refine ⟨keypair, ?_, ?_, ?_, ?_⟩
  · intro id entry found
    rcases pokers id with gone | same
    · simp [gone] at found
    · exact ⟨entry, same ▸ found, rfl⟩
  · intro id entry found
    rcases initiators id with gone | same
    · simp [gone] at found
    · exact ⟨entry, same ▸ found, rfl⟩
  · intro id entry found
    rcases responders id with gone | same
    · simp [gone] at found
    · exact ⟨entry, same ▸ found, rfl, fun waiting => waiting⟩
  · intro id oneTimeId session found
    rcases established id with gone | same
    · simp [gone] at found
    · exact ⟨session, same ▸ found, rfl⟩

theorem refl (handler : Handler H S) : handler.Within handler :=
  fewer rfl (fun _ => .inr rfl) (fun _ => .inr rfl) (fun _ => .inr rfl) (fun _ => .inr rfl)

theorem removeSession (handler : Handler H S) (id : SessionId) (oneTimeId : Option OneTimeId) :
    handler.Within (handler.removeSession id oneTimeId) :=
  fewer rfl (fun other => sweep_fewer _ _ id other oneTimeId) (fun other => sweep_fewer _ _ id other oneTimeId)
    (fun other => sweep_fewer _ _ id other oneTimeId) (fun other => sweep_fewer _ _ id other oneTimeId)

theorem takePoker (handler : Handler H S) (id : SessionId) : handler.Within (handler.takePoker id) :=
  fewer rfl (remove_fewer _ id) (fun _ => .inr rfl) (fun _ => .inr rfl) (fun _ => .inr rfl)

theorem takeInitiator (handler : Handler H S) (id : SessionId) : handler.Within (handler.takeInitiator id) :=
  fewer rfl (fun _ => .inr rfl) (remove_fewer _ id) (fun _ => .inr rfl) (fun _ => .inr rfl)

theorem takeResponder (handler : Handler H S) (id : SessionId) : handler.Within (handler.takeResponder id) :=
  fewer rfl (fun _ => .inr rfl) (fun _ => .inr rfl) (remove_fewer _ id) (fun _ => .inr rfl)

theorem recvFrom (handler : Handler H S) (id : SessionId) : handler.Within (handler.recvFrom id).1 := by
  unfold Handler.recvFrom
  split
  · exact refl handler
  · split
    · exact fewer rfl (fun _ => .inr rfl) (fun _ => .inr rfl) (fun _ => .inr rfl) (remove_fewer _ id)
    · exact refl handler

theorem putPoker {id : SessionId} {old entry : Pending (PendingSessionPoker H)}
    (found : handler.pendingSessionsPoker id = some old) (same : entry.session.snowResponder = old.session.snowResponder) :
    handler.Within ((handler.takePoker id).putPoker id entry) := by
  refine { refl handler with pokers := ?_ }
  intro other current registered
  rcases HashMap.insert_some registered with ⟨rfl, rfl⟩ | ⟨different, present⟩
  · exact ⟨old, found, same⟩
  · exact ⟨current, by simpa [Handler.takePoker, different] using present, rfl⟩

theorem putInitiator {id : SessionId} {old entry : Pending (PendingSessionInitiator H)}
    (found : handler.pendingSessionsInitiator id = some old) (same : entry.session.initiator = old.session.initiator) :
    handler.Within ((handler.takeInitiator id).putInitiator id entry) := by
  refine { refl handler with initiators := ?_ }
  intro other current registered
  rcases HashMap.insert_some registered with ⟨rfl, rfl⟩ | ⟨different, present⟩
  · exact ⟨old, found, same⟩
  · exact ⟨current, by simpa [Handler.takeInitiator, different] using present, rfl⟩

theorem putResponder {id : SessionId} {old entry : Pending (PendingSessionResponder S)}
    (found : handler.pendingSessionsResponder id = some old)
    (same : entry.session.transport.stateless = old.session.transport.stateless) (waiting : entry.session.ready = false) :
    handler.Within ((handler.takeResponder id).putResponder id entry) := by
  refine { refl handler with responders := ?_ }
  intro other current registered
  rcases HashMap.insert_some registered with ⟨rfl, rfl⟩ | ⟨different, present⟩
  · exact ⟨old, found, same, fun _ => waiting⟩
  · exact ⟨current, by simpa [Handler.takeResponder, different] using present, rfl, fun unready => unready⟩

theorem putEstablished {id : SessionId} {oneTimeId : OneTimeId} {old session : Session S}
    (found : handler.establishedSessions id = some (oneTimeId, old))
    (same : session.transport.stateless = old.transport.stateless) :
    handler.Within (handler.putEstablished id (oneTimeId, session)) := by
  refine { refl handler with established := ?_ }
  intro other otherOneTimeId current registered
  rcases HashMap.insert_some registered with ⟨rfl, put⟩ | ⟨-, present⟩
  · cases put
    exact ⟨old, found, same⟩
  · exact ⟨current, present, rfl⟩

theorem updateEstablished (handler : Handler H S) (id : SessionId) {update : Session S → Session S}
    (same : ∀ session, (update session).transport.stateless = session.transport.stateless) :
    handler.Within (handler.updateEstablished id update) := by
  unfold Handler.updateEstablished
  split
  · exact refl handler
  next oneTimeId session found => exact putEstablished found (same session)

end Within
end Handler

section

variable {oracle : Oracle}

theorem SnowInitiator.new_noise {keypair : SnowKeypair} {remotePublicKey : Bytes} {ephemeral : Nat}
    {initiator : SnowInitiator Handshake} (built : new (noise oracle) keypair remotePublicKey ephemeral = some initiator) :
    initiator.state = ⟨.initiator, keypair.publicKey, remotePublicKey, some initiator.initiation, none⟩ := by
  unfold new at built
  cases wrote : oracle.writes ⟨.initiator, keypair.publicKey, remotePublicKey, none, none⟩ ephemeral with
  | none => simp [noise, wrote] at built
  | some message =>
    simp only [noise, Option.bind_eq_bind, Option.bind_some, wrote, Option.map_some, Option.pure_def,
      Option.some.injEq] at built
    subst built
    rfl

theorem SnowResponder.response_noise {responder : SnowResponder Handshake} {initiation response : Bytes} {ephemeral : Nat}
    {transport : LossyTransportState Transport}
    (written : responder.response (noise oracle) initiation ephemeral = .ok (transport, response)) :
    (noise oracle).intoStatelessTransportMode ((responder.state.received initiation).sent response) =
      some transport.stateless := by
  unfold SnowResponder.response at written
  cases accepted : oracle.accepts responder.state initiation with
  | false => simp [noise, accepted] at written
  | true =>
    cases wrote : oracle.writes (responder.state.received initiation) ephemeral with
    | none => simp [noise, accepted, wrote] at written
    | some message =>
      simp only [noise, accepted, wrote, ↓reduceIte, Option.map_some] at written
      split at written
      · cases written
      next stateless finished =>
        cases written
        exact finished

/-- An initiator that rejects a response is what it was before. -/
theorem SnowInitiator.receiveResponse_noise {initiator : SnowInitiator Handshake} {response : Bytes}
    {result : ReceiveResponseResult Handshake Transport}
    (received : initiator.receiveResponse (noise oracle) response = .ok result) :
    (∃ transport, result = .ok transport ∧ oracle.accepts initiator.state response = true ∧
      (noise oracle).intoStatelessTransportMode (initiator.state.received response) = some transport.stateless) ∨
    result = .err initiator := by
  unfold SnowInitiator.receiveResponse at received
  cases accepted : oracle.accepts initiator.state response with
  | false =>
    simp only [noise, accepted, Bool.false_eq_true, ↓reduceIte, Except.ok.injEq] at received
    exact .inr received.symm
  | true =>
    simp only [noise, accepted, ↓reduceIte] at received
    split at received
    · cases received
    next stateless finished =>
      cases received
      exact .inl ⟨_, rfl, rfl, finished⟩

end

namespace Handler

theorem initiate_cases (oracle : Oracle) (handler : Handler Handshake Transport) (id : SessionId) (info : ConnectionInfo)
    (ephemeral : Nat) (oneTimeId : OneTimeId) :
    let next := (handler.initiate (noise oracle) id info ephemeral oneTimeId).1
    (SnowInitiator.new (noise oracle) handler.keypair info.publicKey ephemeral = none ∧ handler.Within next) ∨
    ∃ initiator, SnowInitiator.new (noise oracle) handler.keypair info.publicKey ephemeral = some initiator ∧
      SameMaps ((handler.removeSession id none).putInitiator id ⟨.new id info initiator, oneTimeId⟩) next := by
  intro next
  have same : (handler.removeSession id none).keypair = handler.keypair := rfl
  cases built : SnowInitiator.new (noise oracle) handler.keypair info.publicKey ephemeral with
  | none =>
    have result : next = handler.removeSession id none := by
      simp only [next, initiate, insertInitiator, same, built]
    exact .inl ⟨rfl, result ▸ .removeSession handler id none⟩
  | some initiator =>
    have result : next =
        ((handler.removeSession id none).putInitiator id ⟨.new id info initiator, oneTimeId⟩).openReadiness oneTimeId := by
      simp only [next, initiate, insertInitiator, same, built]
    exact .inr ⟨initiator, rfl, result ▸ ⟨rfl, rfl, rfl, rfl, rfl⟩⟩

theorem respond_maps (oracle : Oracle) (handler : Handler Handshake Transport) (id : SessionId) (info : ConnectionInfo)
    (oneTimeId : OneTimeId) :
    SameMaps ((handler.removeSession id none).putPoker id
        ⟨.new id info ⟨⟨.responder, handler.keypair.publicKey, info.publicKey, none, none⟩⟩, oneTimeId⟩)
      (handler.respond (noise oracle) id info oneTimeId).1 :=
  ⟨rfl, rfl, rfl, rfl, rfl⟩

/-- What a packet does to a handler, with the promotion that it causes. -/
inductive Outcome (oracle : Oracle) (handler : Handler Handshake Transport) (packet : SessionPacket) :
    Option (Promotion Transport) → Handler Handshake Transport → Prop where
  | kept {next : Handler Handshake Transport} (within : handler.Within next) : Outcome oracle handler packet none next
  | responding {entry : Pending (PendingSessionPoker Handshake)} {pending : PendingSessionResponder Transport}
      {initiation response : Bytes} (found : handler.pendingSessionsPoker packet.id = some entry)
      (carried : packet.initiation = some initiation) (waiting : pending.ready = false)
      (finished : (noise oracle).intoStatelessTransportMode
        ((entry.session.snowResponder.state.received initiation).sent response) = some pending.transport.stateless) :
      Outcome oracle handler packet (some (.responding pending))
        ((handler.takePoker packet.id).putResponder packet.id ⟨pending, entry.oneTimeId⟩)
  | initiator {entry : Pending (PendingSessionInitiator Handshake)} {session : Session Transport} {response : Bytes}
      {next : Handler Handshake Transport} (found : handler.pendingSessionsInitiator packet.id = some entry)
      (carried : packet.response = some response)
      (accepted : oracle.accepts entry.session.initiator.state response = true)
      (finished : (noise oracle).intoStatelessTransportMode (entry.session.initiator.state.received response) =
        some session.transport.stateless)
      (maps : SameMaps ((handler.takeInitiator packet.id).putEstablished packet.id (entry.oneTimeId, session)) next) :
      Outcome oracle handler packet (some (.established entry.oneTimeId session)) next
  | responder {entry : Pending (PendingSessionResponder Transport)} {session : Session Transport}
      {next : Handler Handshake Transport} (found : handler.pendingSessionsResponder packet.id = some entry)
      (transport : session.transport.stateless = entry.session.transport.stateless)
      (opened : ∃ encrypted ∈ packet.encrypted, ∃ nonced ∈ Nonced.codec.deserialize encrypted, ∃ plaintext, plaintext ∈
        oracle.decrypts entry.session.transport.stateless nonced.nonce nonced.payload 65535)
      (maps : SameMaps ((handler.takeResponder packet.id).putEstablished packet.id (entry.oneTimeId, session)) next) :
      Outcome oracle handler packet (some (.established entry.oneTimeId session)) next

variable {oracle : Oracle} {handler : Handler Handshake Transport} {packet : SessionPacket}

private theorem outcome_poker {entry : Pending (PendingSessionPoker Handshake)} (consistent : handler.Consistent)
    (found : handler.pendingSessionsPoker packet.id = some entry) (src : SocketAddr) (ephemeral : Nat) :
    Outcome oracle handler packet (handler.promotion (noise oracle) src packet ephemeral)
      (handler.handlePacket (noise oracle) src packet ephemeral) := by
  simp only [promotion, found, handlePacket_poker found]
  cases carried : packet.initiation with
  | none =>
    rw [PendingSessionPoker.advance_other _ (consistent.pokers _ _ found).1 carried]
    exact .kept (.putPoker found rfl)
  | some initiation =>
    rw [PendingSessionPoker.advance_initiation _ carried]
    cases written : entry.session.snowResponder.response (noise oracle) initiation ephemeral with
    | error failure => exact .kept (.takePoker handler packet.id)
    | ok result => exact .responding found carried rfl (SnowResponder.response_noise written)

private theorem outcome_initiator {entry : Pending (PendingSessionInitiator Handshake)} (consistent : handler.Consistent)
    (skipped : handler.pendingSessionsPoker packet.id = none)
    (found : handler.pendingSessionsInitiator packet.id = some entry) (src : SocketAddr) (ephemeral : Nat) :
    Outcome oracle handler packet (handler.promotion (noise oracle) src packet ephemeral)
      (handler.handlePacket (noise oracle) src packet ephemeral) := by
  simp only [promotion, skipped, found, handlePacket_initiator skipped found]
  cases carried : packet.response with
  | none =>
    rw [PendingSessionInitiator.advance_other _ (consistent.initiators _ _ found) carried]
    exact .kept (.putInitiator found rfl)
  | some response =>
    rw [PendingSessionInitiator.advance_response _ carried]
    cases received : entry.session.initiator.receiveResponse (noise oracle) response with
    | error failure => exact .kept (.takeInitiator handler packet.id)
    | ok result =>
      rcases SnowInitiator.receiveResponse_noise received with ⟨transport, rfl, accepted, finished⟩ | rfl
      · exact .initiator found carried accepted finished (upgradeSession_maps _ _ _ _)
      · exact .kept (.putInitiator found rfl)

private theorem outcome_responder {entry : Pending (PendingSessionResponder Transport)}
    (noPoker : handler.pendingSessionsPoker packet.id = none)
    (noInitiator : handler.pendingSessionsInitiator packet.id = none)
    (found : handler.pendingSessionsResponder packet.id = some entry) (waiting : entry.session.ready = false)
    (src : SocketAddr) (ephemeral : Nat) :
    Outcome oracle handler packet (handler.promotion (noise oracle) src packet ephemeral)
      (handler.handlePacket (noise oracle) src packet ephemeral) := by
  simp only [promotion, handlePacket, noPoker, noInitiator, found]
  rcases entry.session.advance_waiting (noise oracle).toCipher packet waiting with
    ⟨session, promoted, transport, opened⟩ | ⟨next, back, transport, still⟩
  · rw [promoted]
    exact .responder found transport opened (upgradeSession_maps _ _ _ _)
  · rw [back]
    exact .kept (.putResponder found transport still)

/-- The promotions told of a packet are those that the handler carries out. -/
theorem handlePacket_outcome (consistent : handler.Consistent)
    (waiting : ∀ id entry, handler.pendingSessionsResponder id = some entry → entry.session.ready = false)
    (src : SocketAddr) (ephemeral : Nat) :
    Outcome oracle handler packet (handler.promotion (noise oracle) src packet ephemeral)
      (handler.handlePacket (noise oracle) src packet ephemeral) := by
  cases poker : handler.pendingSessionsPoker packet.id with
  | some entry => exact outcome_poker consistent poker src ephemeral
  | none =>
    cases initiator : handler.pendingSessionsInitiator packet.id with
    | some entry => exact outcome_initiator consistent poker initiator src ephemeral
    | none =>
      cases responder : handler.pendingSessionsResponder packet.id with
      | some entry => exact outcome_responder poker initiator responder (waiting _ _ responder) src ephemeral
      | none =>
        simp only [promotion, handlePacket, poker, initiator, responder]
        cases established : handler.establishedSessions packet.id with
        | none => exact .kept (.refl handler)
        | some entry => exact .kept (.putEstablished established (entry.2.handleIncoming_stateless packet))

end Handler
end Veq
