import Veq.Machines
import Veq.Slot
import Veq.Proofs.Sections

/-! A handler is one slot for each session id, and the slots do not touch each
other: what a session does and answers is decided by the accesses about its own
id. -/

namespace Veq
open Rust Bincode Machines

variable {H S : Type}

namespace Slot

variable (slot : Slot H S) (oneTimeId : OneTimeId)

theorem close_poker : (slot.close oneTimeId).poker = slot.poker.filter fun entry => entry.oneTimeId ≠ oneTimeId := by
  cases slot with
  | poking pending current => by_cases same : current = oneTimeId <;> simp [close, Slot.oneTimeId, poker, Option.filter, same]
  | _ => simp only [close]; split <;> rfl

theorem close_initiator :
    (slot.close oneTimeId).initiator = slot.initiator.filter fun entry => entry.oneTimeId ≠ oneTimeId := by
  cases slot with
  | initiating pending current =>
    by_cases same : current = oneTimeId <;> simp [close, Slot.oneTimeId, initiator, Option.filter, same]
  | _ => simp only [close]; split <;> rfl

theorem close_responder :
    (slot.close oneTimeId).responder = slot.responder.filter fun entry => entry.oneTimeId ≠ oneTimeId := by
  cases slot with
  | responding pending current =>
    by_cases same : current = oneTimeId <;> simp [close, Slot.oneTimeId, responder, Option.filter, same]
  | _ => simp only [close]; split <;> rfl

theorem close_session : (slot.close oneTimeId).session = slot.session.filter fun entry => entry.1 ≠ oneTimeId := by
  cases slot with
  | established session current =>
    by_cases same : current = oneTimeId <;> simp [close, Slot.oneTimeId, Slot.session, Option.filter, same]
  | _ => simp only [close]; split <;> rfl

end Slot

namespace Handler

theorem sweep_same {α : Type} (current : α → OneTimeId) (map : HashMap SessionId α) (id : SessionId)
    (oneTimeId : OneTimeId) :
    (sweep current map id (some oneTimeId)).1 id = (map id).filter fun entry => current entry ≠ oneTimeId := by
  cases found : map id with
  | none => simp [sweep, found]
  | some entry => by_cases same : current entry = oneTimeId <;> simp [sweep, found, same, Option.filter]

theorem sweep_other {α : Type} (current : α → OneTimeId) (map : HashMap SessionId α) {key id : SessionId}
    (different : id ≠ key) (oneTimeId : Option OneTimeId) : (sweep current map key oneTimeId).1 id = map id := by
  cases oneTimeId with
  | none => simp [sweep, different]
  | some oneTimeId => by_cases matching : (map key).map current = some oneTimeId <;> simp [sweep, matching, different]

/-- The four maps at one id, as a slot. -/
structure Holds (keypair : SnowKeypair) (id : SessionId) (handler : Handler H S) (slot : Slot H S) : Prop where
  keypair : handler.keypair = keypair
  poker : handler.pendingSessionsPoker id = slot.poker
  initiator : handler.pendingSessionsInitiator id = slot.initiator
  responder : handler.pendingSessionsResponder id = slot.responder
  established : handler.establishedSessions id = slot.session

variable {snow : Snow H S} {keypair : SnowKeypair} {id : SessionId} {handler next : Handler H S} {slot : Slot H S}

namespace Holds

theorem new (keypair : SnowKeypair) (id : SessionId) : Holds keypair id (Handler.new keypair : Handler H S) .vacant :=
  ⟨rfl, rfl, rfl, rfl, rfl⟩

theorem same (holds : Holds keypair id handler slot) (keys : next.keypair = handler.keypair)
    (poker : next.pendingSessionsPoker id = handler.pendingSessionsPoker id)
    (initiator : next.pendingSessionsInitiator id = handler.pendingSessionsInitiator id)
    (responder : next.pendingSessionsResponder id = handler.pendingSessionsResponder id)
    (established : next.establishedSessions id = handler.establishedSessions id) : Holds keypair id next slot :=
  ⟨keys.trans holds.keypair, poker.trans holds.poker, initiator.trans holds.initiator, responder.trans holds.responder,
    established.trans holds.established⟩

theorem sameMaps (holds : Holds keypair id handler slot) (maps : SameMaps handler next) : Holds keypair id next slot :=
  holds.same maps.keypair (congrFun maps.poker id) (congrFun maps.initiator id) (congrFun maps.responder id)
    (congrFun maps.established id)

theorem removeSession (holds : Holds keypair id handler slot) (oneTimeId : OneTimeId) :
    Holds keypair id (handler.removeSession id (some oneTimeId)) (slot.close oneTimeId) := by
  obtain ⟨keys, poker, initiator, responder, established⟩ := holds
  refine ⟨keys, ?_, ?_, ?_, ?_⟩
  · rw [Slot.close_poker, ← poker]
    exact sweep_same _ _ id oneTimeId
  · rw [Slot.close_initiator, ← initiator]
    exact sweep_same _ _ id oneTimeId
  · rw [Slot.close_responder, ← responder]
    exact sweep_same _ _ id oneTimeId
  · rw [Slot.close_session, ← established]
    exact sweep_same _ _ id oneTimeId

theorem removeAll (holds : Holds keypair id handler slot) : Holds keypair id (handler.removeSession id none) .vacant := by
  refine ⟨holds.keypair, ?_, ?_, ?_, ?_⟩
  · simp [Handler.removeSession, removeEstablished, removeResponder, removePoker, removeInitiator, sweep, Slot.poker]
  · simp [Handler.removeSession, removeEstablished, removeResponder, removePoker, removeInitiator, sweep, Slot.initiator]
  · simp [Handler.removeSession, removeEstablished, removeResponder, removePoker, removeInitiator, sweep, Slot.responder]
  · simp [Handler.removeSession, removeEstablished, removeResponder, removePoker, removeInitiator, sweep, Slot.session]

section

variable {poker : PendingSessionPoker H} {initiator : PendingSessionInitiator H} {responder : PendingSessionResponder S}
  {session : Session S} {oneTimeId : OneTimeId}

theorem takePoker (holds : Holds keypair id handler (.poking poker oneTimeId)) :
    Holds keypair id (handler.takePoker id) .vacant :=
  ⟨holds.keypair, HashMap.remove_same _ id, holds.initiator, holds.responder, holds.established⟩

theorem takeInitiator (holds : Holds keypair id handler (.initiating initiator oneTimeId)) :
    Holds keypair id (handler.takeInitiator id) .vacant :=
  ⟨holds.keypair, holds.poker, HashMap.remove_same _ id, holds.responder, holds.established⟩

theorem takeResponder (holds : Holds keypair id handler (.responding responder oneTimeId)) :
    Holds keypair id (handler.takeResponder id) .vacant :=
  ⟨holds.keypair, holds.poker, holds.initiator, HashMap.remove_same _ id, holds.established⟩

theorem putPoker (holds : Holds keypair id handler .vacant) :
    Holds keypair id (handler.putPoker id ⟨poker, oneTimeId⟩) (.poking poker oneTimeId) :=
  ⟨holds.keypair, HashMap.insert_same _ id _, holds.initiator, holds.responder, holds.established⟩

theorem putInitiator (holds : Holds keypair id handler .vacant) :
    Holds keypair id (handler.putInitiator id ⟨initiator, oneTimeId⟩) (.initiating initiator oneTimeId) :=
  ⟨holds.keypair, holds.poker, HashMap.insert_same _ id _, holds.responder, holds.established⟩

theorem putResponder (holds : Holds keypair id handler .vacant) :
    Holds keypair id (handler.putResponder id ⟨responder, oneTimeId⟩) (.responding responder oneTimeId) :=
  ⟨holds.keypair, holds.poker, holds.initiator, HashMap.insert_same _ id _, holds.established⟩

theorem putEstablished (holds : Holds keypair id handler .vacant) :
    Holds keypair id (handler.putEstablished id (oneTimeId, session)) (.established session oneTimeId) :=
  ⟨holds.keypair, holds.poker, holds.initiator, holds.responder, HashMap.insert_same _ id _⟩

theorem replace (holds : Holds keypair id handler (.established session oneTimeId)) (other : Session S) :
    Holds keypair id (handler.putEstablished id (oneTimeId, other)) (.established other oneTimeId) :=
  ⟨holds.keypair, holds.poker, holds.initiator, holds.responder, HashMap.insert_same _ id _⟩

theorem upgradeSession (holds : Holds keypair id handler .vacant) :
    Holds keypair id (handler.upgradeSession id oneTimeId session).1 (.established session oneTimeId) :=
  holds.putEstablished.sameMaps (handler.upgradeSession_maps id oneTimeId session)

end

theorem handlePacket (holds : Holds keypair id handler slot) (snow : Snow H S) (src : SocketAddr) {packet : SessionPacket}
    (same : packet.id = id) (ephemeral : Nat) :
    Holds keypair id (handler.handlePacket snow src packet ephemeral) (slot.receive snow src packet ephemeral) := by
  subst same
  cases slot with
  | vacant =>
    have idle := handlePacket_established snow src ephemeral holds.poker holds.initiator holds.responder
    rw [idle, updateEstablished, holds.established]
    exact holds
  | poking pending oneTimeId =>
    have found : handler.handlePacket snow src packet ephemeral = _ := handlePacket_poker holds.poker
    rw [found, Slot.receive]
    cases pending.advance snow src packet ephemeral with
    | promote next => exact holds.takePoker.putResponder
    | putBack pending => exact holds.takePoker.putPoker
    | discard => exact holds.takePoker
  | initiating pending oneTimeId =>
    have found : handler.handlePacket snow src packet ephemeral = _ := handlePacket_initiator holds.poker holds.initiator
    rw [found, Slot.receive]
    cases pending.advance snow src packet with
    | promote session => exact holds.takeInitiator.upgradeSession
    | putBack pending => exact holds.takeInitiator.putInitiator
    | discard => exact holds.takeInitiator
  | responding pending oneTimeId =>
    have found : handler.handlePacket snow src packet ephemeral = _ :=
      handlePacket_responder holds.poker holds.initiator holds.responder
    rw [found, Slot.receive]
    cases pending.advance snow.toCipher packet with
    | promote session => exact holds.takeResponder.upgradeSession
    | putBack pending => exact holds.takeResponder.putResponder
    | discard => exact holds.takeResponder
  | established session oneTimeId =>
    have reached := handlePacket_established snow src ephemeral holds.poker holds.initiator holds.responder
    rw [reached, updateEstablished, holds.established]
    exact holds.replace _

end Holds

variable {access : Access}

theorem retransmissions_slot (holds : Holds keypair id handler slot) :
    handler.retransmissions id = slot.retransmissions := by
  rw [retransmissions, holds.poker, holds.initiator, holds.responder]
  cases slot <;> simp [Slot.poker, Slot.initiator, Slot.responder, Slot.retransmissions]

theorem access_concerned (snow : Snow H S) (concerned : access.concerns id = true) (holds : Holds keypair id handler slot) :
    Holds keypair id (handler.access snow access).1 (slot.access snow keypair id access).1 ∧
      (handler.access snow access).2 = (slot.access snow keypair id access).2 := by
  have about : access.id? = some id := by simpa [Access.concerns] using concerned
  cases access with
  | operate operation =>
    cases operation with
    | initiate other info ephemeral oneTimeId =>
      obtain rfl : other = id := by simpa [Access.id?] using about
      have keys : (handler.removeSession other none).keypair = keypair := holds.keypair
      simp only [Handler.access, initiate, insertInitiator, keys, Slot.access, Slot.initiate]
      cases SnowInitiator.new snow keypair info.publicKey ephemeral with
      | none => exact ⟨holds.removeAll, rfl⟩
      | some initiator => exact ⟨holds.removeAll.putInitiator.sameMaps ⟨rfl, rfl, rfl, rfl, rfl⟩, rfl⟩
    | respond other info oneTimeId =>
      obtain rfl : other = id := by simpa [Access.id?] using about
      have keys : (handler.removeSession other none).keypair = keypair := holds.keypair
      simp only [Handler.access, respond, insertPoker, keys, Slot.access, Slot.respond]
      cases SnowResponder.new snow keypair info.publicKey with
      | none => exact ⟨holds.removeAll, rfl⟩
      | some responder => exact ⟨holds.removeAll.putPoker.sameMaps ⟨rfl, rfl, rfl, rfl, rfl⟩, rfl⟩
    | handleIncoming src data ephemeral =>
      simp only [Access.id?, Option.map_eq_some_iff] at about
      obtain ⟨packet, decoded, same⟩ := about
      simp only [Handler.access, handleIncoming, Slot.access, decoded]
      exact ⟨holds.handlePacket snow src same ephemeral, trivial⟩
    | send other data =>
      obtain rfl : other = id := by simpa [Access.id?] using about
      simp only [Handler.access, send, Slot.access, holds.established]
      cases slot with
      | established session oneTimeId => exact ⟨holds.replace _, rfl⟩
      | _ => exact ⟨holds, rfl⟩
    | recvFrom other =>
      obtain rfl : other = id := by simpa [Access.id?] using about
      simp only [Handler.access, recvFrom, Slot.access, holds.established]
      cases slot with
      | established session oneTimeId =>
        simp only [Slot.session, Slot.recvFrom]
        split
        · exact ⟨⟨holds.keypair, holds.poker, holds.initiator, holds.responder, HashMap.remove_same _ other⟩, rfl⟩
        · exact ⟨holds, rfl⟩
      | _ => exact ⟨holds, rfl⟩
    | closeSession other oneTimeId =>
      obtain rfl : other = id := by simpa [Access.id?] using about
      exact ⟨holds.removeSession oneTimeId, rfl⟩
    | keepalive other =>
      obtain rfl : other = id := by simpa [Access.id?] using about
      simp only [Handler.access, keepalive, Slot.access, holds.established]
      cases slot with
      | established session oneTimeId => exact ⟨holds.replace _, rfl⟩
      | _ => exact ⟨holds, rfl⟩
    | checkHeartbeat other =>
      obtain rfl : other = id := by simpa [Access.id?] using about
      simp only [Handler.access, checkHeartbeat, Slot.access, holds.established]
      cases slot with
      | established session oneTimeId => exact ⟨holds.replace _, rfl⟩
      | _ => exact ⟨holds, rfl⟩
  | poll other receiving future waker =>
    obtain rfl : other = id := by simpa [Access.id?] using about
    simp only [Handler.access, pollReceiving, Slot.access, holds.established]
    cases slot with
    | established session oneTimeId =>
      simp only [Slot.session, Slot.poll]
      split
      · exact ⟨holds.replace _, rfl⟩
      · exact ⟨holds, rfl⟩
    | _ => exact ⟨holds, rfl⟩
  | retransmit other =>
    obtain rfl : other = id := by simpa [Access.id?] using about
    exact ⟨holds, by simp only [Handler.access, Slot.access, retransmissions_slot holds]⟩
  | remoteAddr other =>
    obtain rfl : other = id := by simpa [Access.id?] using about
    refine ⟨holds, ?_⟩
    simp only [Handler.access, Slot.access, remoteAddr, holds.established]
    cases slot <;> rfl

namespace Holds

variable {other : SessionId}

theorem removeOther (holds : Holds keypair id handler slot) (different : id ≠ other) (oneTimeId : Option OneTimeId) :
    Holds keypair id (handler.removeSession other oneTimeId) slot :=
  holds.same rfl (sweep_other _ _ different oneTimeId) (sweep_other _ _ different oneTimeId)
    (sweep_other _ _ different oneTimeId) (sweep_other _ _ different oneTimeId)

theorem putEstablishedOther (holds : Holds keypair id handler slot) (different : id ≠ other)
    (entry : OneTimeId × Session S) : Holds keypair id (handler.putEstablished other entry) slot :=
  holds.same rfl rfl rfl rfl (HashMap.insert_other _ _ different)

theorem handlePacketOther (holds : Holds keypair id handler slot) (snow : Snow H S) (src : SocketAddr)
    {packet : SessionPacket} (different : id ≠ packet.id) (ephemeral : Nat) :
    Holds keypair id (handler.handlePacket snow src packet ephemeral) slot := by
  obtain ⟨poker, initiator, responder, established⟩ := handlePacket_frame snow handler src ephemeral different
  refine holds.same ?_ poker initiator responder established
  cases handler.handlePacket_reaction snow src packet ephemeral with
  | pokerPromoted _ _ result | pokerBack _ _ result | initiatorBack _ _ result | responderBack _ _ result =>
    rw [result]
    rfl
  | pokerDiscarded result | initiatorDiscarded result | responderDiscarded result =>
    rw [result]
    rfl
  | initiatorPromoted _ _ result | responderPromoted _ _ result =>
    rw [result, (upgradeSession_maps _ _ _ _).keypair]
    rfl
  | established result =>
    rw [result, updateEstablished]
    split
    · rfl
    · rfl

end Holds

theorem access_unconcerned (snow : Snow H S) (unconcerned : access.concerns id = false)
    (holds : Holds keypair id handler slot) : Holds keypair id (handler.access snow access).1 slot := by
  have about : access.id? ≠ some id := by simpa [Access.concerns] using unconcerned
  have apart : ∀ other, access.id? = some other → id ≠ other := by
    rintro other named rfl
    exact about named
  cases access with
  | operate operation =>
    cases operation with
    | initiate other info ephemeral oneTimeId =>
      have removed := holds.removeOther (apart other rfl) none
      simp only [Handler.access, initiate, insertInitiator]
      split
      · exact removed
      · exact removed.same rfl rfl (HashMap.insert_other _ _ (apart other rfl)) rfl rfl
    | respond other info oneTimeId =>
      have removed := holds.removeOther (apart other rfl) none
      simp only [Handler.access, respond, insertPoker]
      split
      · exact removed
      · exact removed.same rfl (HashMap.insert_other _ _ (apart other rfl)) rfl rfl rfl
    | handleIncoming src data ephemeral =>
      simp only [Handler.access, handleIncoming]
      cases decoded : SessionPacket.codec.deserialize data with
      | none => exact holds
      | some packet =>
        exact holds.handlePacketOther snow src (apart packet.id (by simp [Access.id?, decoded])) ephemeral
    | send other data =>
      simp only [Handler.access, send]
      split
      · exact holds
      · exact holds.putEstablishedOther (apart other rfl) _
    | recvFrom other =>
      simp only [Handler.access, recvFrom]
      split
      · exact holds
      · split
        · exact holds.same rfl rfl rfl rfl (HashMap.remove_other _ (apart other rfl))
        · exact holds
    | closeSession other oneTimeId => exact holds.removeOther (apart other rfl) (some oneTimeId)
    | keepalive other =>
      simp only [Handler.access, keepalive]
      split
      · exact holds
      · exact holds.putEstablishedOther (apart other rfl) _
    | checkHeartbeat other =>
      simp only [Handler.access, checkHeartbeat]
      split
      · exact holds
      · exact holds.putEstablishedOther (apart other rfl) _
  | poll other receiving future waker =>
    simp only [Handler.access, pollReceiving]
    split
    · exact holds
    · split
      · exact holds.putEstablishedOther (apart other rfl) _
      · exact holds
  | retransmit other => exact holds
  | remoteAddr other => exact holds

/-- The handler shows the slot of every id. -/
theorem simulates_slot (snow : Snow H S) (keypair : SnowKeypair) (id : SessionId) :
    Simulates (Handler.access snow) (Slot.access snow keypair id) (Access.concerns id) (Holds keypair id) :=
  ⟨fun _ _ _ concerned holds => access_concerned snow concerned holds,
    fun _ _ _ unconcerned holds => access_unconcerned snow unconcerned holds⟩

end Handler
end Veq
