import Veq.Handler
import Veq.Proofs.Replay

/-! What becomes of a pending entry while datagrams arrive. A poker that is shown
an initiation it cannot accept is dropped; an initiator that is shown a response
it cannot accept stays registered, but no longer retransmits. -/

namespace Veq
open Rust Bincode

variable {H S : Type} (snow : Snow H S)

def initiationFor (id : SessionId) (datagram : Bytes) : Option Bytes :=
  (SessionPacket.codec.deserialize datagram).bind fun packet => if packet.id = id then packet.initiation else none

def responseFor (id : SessionId) (datagram : Bytes) : Option Bytes :=
  (SessionPacket.codec.deserialize datagram).bind fun packet => if packet.id = id then packet.response else none

theorem PendingSessionPoker.advance_other {pending : PendingSessionPoker H} {packet : SessionPacket}
    (idle : pending.workingRemoteAddr = none) (other : packet.initiation = none) (src : SocketAddr) (ephemeral : Nat) :
    pending.advance snow src packet ephemeral = .putBack pending := by
  have same : pending.handleIncoming src packet = pending := by
    unfold handleIncoming
    split
    next initiation decoded => simp [SessionPacket.initiation_some.mpr decoded] at other
    next => rfl
  simp [advance, same, isReady, idle]

theorem PendingSessionPoker.advance_initiation {pending : PendingSessionPoker H} {packet : SessionPacket}
    {initiation : Bytes} (carried : packet.initiation = some initiation) (src : SocketAddr) (ephemeral : Nat) :
    pending.advance snow src packet ephemeral =
      match pending.snowResponder.response snow initiation ephemeral with
      | .ok (transport, response) => .promote (.new pending.id src transport response)
      | .error _ => .discard := by
  have seen : pending.handleIncoming src packet =
      { pending with workingRemoteAddr := some (src, initiation), waker := none } := by
    simp only [handleIncoming, SessionPacket.initiation_some.mp carried]
  simp only [advance, seen, isReady, responder, Option.isSome_some, ↓reduceIte]
  cases pending.snowResponder.response snow initiation ephemeral with
  | ok result => rfl
  | error failure => rfl

theorem PendingSessionInitiator.advance_other {pending : PendingSessionInitiator H} {packet : SessionPacket}
    (idle : pending.workingRemoteAddr = none) (other : packet.response = none) (src : SocketAddr) :
    pending.advance snow src packet = .putBack pending := by
  have same : pending.handleIncoming src packet = pending := by
    unfold handleIncoming
    split
    next response decoded => simp [SessionPacket.response_some.mpr decoded] at other
    next => rfl
  simp [advance, same, isReady, idle]

theorem PendingSessionInitiator.advance_response {pending : PendingSessionInitiator H} {packet : SessionPacket}
    {response : Bytes} (carried : packet.response = some response) (src : SocketAddr) :
    pending.advance snow src packet =
      match pending.initiator.receiveResponse snow response with
      | .ok (.ok transport) => .promote (.new pending.id src transport)
      | .ok (.err initiator) => .putBack { pending with
          handle := pending.handle.abort, workingRemoteAddr := none, waker := none, initiator }
      | .error _ => .discard := by
  have seen : pending.handleIncoming src packet =
      { pending with workingRemoteAddr := some (src, response), waker := none } := by
    simp only [handleIncoming, SessionPacket.response_some.mp carried]
  simp only [advance, seen, isReady, session, Option.isSome_some, ↓reduceIte]
  cases pending.initiator.receiveResponse snow response with
  | error failure => rfl
  | ok result =>
    cases result with
    | ok transport => rfl
    | err initiator => rfl

namespace Handler

/-- Two handlers that may differ in what they have notified. -/
structure SameMaps (handler next : Handler H S) : Prop where
  poker : next.pendingSessionsPoker = handler.pendingSessionsPoker
  initiator : next.pendingSessionsInitiator = handler.pendingSessionsInitiator
  responder : next.pendingSessionsResponder = handler.pendingSessionsResponder
  established : next.establishedSessions = handler.establishedSessions
  keypair : next.keypair = handler.keypair

theorem notify_maps (handler : Handler H S) (oneTimeId : OneTimeId) : SameMaps handler (handler.notify oneTimeId).1 := by
  unfold notify
  split
  · split
    · exact ⟨rfl, rfl, rfl, rfl, rfl⟩
    · exact ⟨rfl, rfl, rfl, rfl, rfl⟩
  · exact ⟨rfl, rfl, rfl, rfl, rfl⟩

theorem wake_maps (handler : Handler H S) (oneTimeId : OneTimeId) : SameMaps handler (handler.wake oneTimeId) := by
  unfold wake
  split
  · exact ⟨rfl, rfl, rfl, rfl, rfl⟩
  · exact ⟨rfl, rfl, rfl, rfl, rfl⟩

theorem upgradeSession_maps (handler : Handler H S) (id : SessionId) (oneTimeId : OneTimeId) (session : Session S) :
    SameMaps (handler.putEstablished id (oneTimeId, session)) (handler.upgradeSession id oneTimeId session).1 := by
  have notified := (handler.putEstablished id (oneTimeId, session)).notify_maps oneTimeId
  unfold upgradeSession
  split
  next next sent =>
    rw [sent] at notified
    have woken := next.wake_maps oneTimeId
    exact ⟨woken.poker.trans notified.poker, woken.initiator.trans notified.initiator,
      woken.responder.trans notified.responder, woken.established.trans notified.established,
      woken.keypair.trans notified.keypair⟩
  next next failed =>
    rw [failed] at notified
    exact notified

variable {snow} {handler : Handler H S} {packet : SessionPacket} {src : SocketAddr} {ephemeral : Nat}

theorem handlePacket_poker {entry : Pending (PendingSessionPoker H)}
    (found : handler.pendingSessionsPoker packet.id = some entry) :
    handler.handlePacket snow src packet ephemeral =
      match entry.session.advance snow src packet ephemeral with
      | .promote session => (handler.takePoker packet.id).putResponder packet.id ⟨session, entry.oneTimeId⟩
      | .putBack session => (handler.takePoker packet.id).putPoker packet.id ⟨session, entry.oneTimeId⟩
      | .discard => handler.takePoker packet.id := by
  cases advanced : entry.session.advance snow src packet ephemeral with
  | promote session => simp only [handlePacket, found, advanced]
  | putBack session => simp only [handlePacket, found, advanced]
  | discard => simp only [handlePacket, found, advanced]

theorem handlePacket_initiator {entry : Pending (PendingSessionInitiator H)}
    (skipped : handler.pendingSessionsPoker packet.id = none)
    (found : handler.pendingSessionsInitiator packet.id = some entry) :
    handler.handlePacket snow src packet ephemeral =
      match entry.session.advance snow src packet with
      | .promote session =>
        ((handler.takeInitiator packet.id).upgradeSession packet.id entry.oneTimeId session).1
      | .putBack session => (handler.takeInitiator packet.id).putInitiator packet.id ⟨session, entry.oneTimeId⟩
      | .discard => handler.takeInitiator packet.id := by
  cases advanced : entry.session.advance snow src packet with
  | promote session => simp only [handlePacket, skipped, found, advanced]
  | putBack session => simp only [handlePacket, skipped, found, advanced]
  | discard => simp only [handlePacket, skipped, found, advanced]

theorem handlePacket_responder {entry : Pending (PendingSessionResponder S)}
    (noPoker : handler.pendingSessionsPoker packet.id = none)
    (noInitiator : handler.pendingSessionsInitiator packet.id = none)
    (found : handler.pendingSessionsResponder packet.id = some entry) :
    handler.handlePacket snow src packet ephemeral =
      match entry.session.advance snow.toCipher packet with
      | .promote session =>
        ((handler.takeResponder packet.id).upgradeSession packet.id entry.oneTimeId session).1
      | .putBack session => (handler.takeResponder packet.id).putResponder packet.id ⟨session, entry.oneTimeId⟩
      | .discard => handler.takeResponder packet.id := by
  cases advanced : entry.session.advance snow.toCipher packet with
  | promote session => simp only [handlePacket, noPoker, noInitiator, found, advanced]
  | putBack session => simp only [handlePacket, noPoker, noInitiator, found, advanced]
  | discard => simp only [handlePacket, noPoker, noInitiator, found, advanced]

theorem handlePacket_established (snow : Snow H S) {handler : Handler H S} (src : SocketAddr) {packet : SessionPacket}
    (ephemeral : Nat) (noPoker : handler.pendingSessionsPoker packet.id = none)
    (noInitiator : handler.pendingSessionsInitiator packet.id = none)
    (noResponder : handler.pendingSessionsResponder packet.id = none) :
    handler.handlePacket snow src packet ephemeral =
      handler.updateEstablished packet.id fun session => (session.handleIncoming snow.toCipher packet).1 := by
  simp only [handlePacket, noPoker, noInitiator, noResponder, Handler.updateEstablished]
  split
  next found => rw [found]
  next missing => rw [missing]

/-- What a packet does: the first stage with an entry under its id promotes the
entry, puts it back or discards it. -/
inductive Reaction (snow : Snow H S) (handler : Handler H S) (src : SocketAddr) (packet : SessionPacket) (ephemeral : Nat)
    (next : Handler H S) : Prop where
  | pokerPromoted {entry : Pending (PendingSessionPoker H)} {session : PendingSessionResponder S}
      (found : handler.pendingSessionsPoker packet.id = some entry)
      (advanced : entry.session.advance snow src packet ephemeral = .promote session)
      (result : next = (handler.takePoker packet.id).putResponder packet.id ⟨session, entry.oneTimeId⟩)
  | pokerBack {entry : Pending (PendingSessionPoker H)} {session : PendingSessionPoker H}
      (found : handler.pendingSessionsPoker packet.id = some entry)
      (advanced : entry.session.advance snow src packet ephemeral = .putBack session)
      (result : next = (handler.takePoker packet.id).putPoker packet.id ⟨session, entry.oneTimeId⟩)
  | pokerDiscarded (result : next = handler.takePoker packet.id)
  | initiatorPromoted {entry : Pending (PendingSessionInitiator H)} {session : Session S}
      (found : handler.pendingSessionsInitiator packet.id = some entry)
      (advanced : entry.session.advance snow src packet = .promote session)
      (result : next = ((handler.takeInitiator packet.id).upgradeSession packet.id entry.oneTimeId session).1)
  | initiatorBack {entry : Pending (PendingSessionInitiator H)} {session : PendingSessionInitiator H}
      (found : handler.pendingSessionsInitiator packet.id = some entry)
      (advanced : entry.session.advance snow src packet = .putBack session)
      (result : next = (handler.takeInitiator packet.id).putInitiator packet.id ⟨session, entry.oneTimeId⟩)
  | initiatorDiscarded (result : next = handler.takeInitiator packet.id)
  | responderPromoted {entry : Pending (PendingSessionResponder S)} {session : Session S}
      (found : handler.pendingSessionsResponder packet.id = some entry)
      (advanced : entry.session.advance snow.toCipher packet = .promote session)
      (result : next = ((handler.takeResponder packet.id).upgradeSession packet.id entry.oneTimeId session).1)
  | responderBack {entry : Pending (PendingSessionResponder S)} {session : PendingSessionResponder S}
      (found : handler.pendingSessionsResponder packet.id = some entry)
      (advanced : entry.session.advance snow.toCipher packet = .putBack session)
      (result : next = (handler.takeResponder packet.id).putResponder packet.id ⟨session, entry.oneTimeId⟩)
  | responderDiscarded (result : next = handler.takeResponder packet.id)
  | established (result : next =
      handler.updateEstablished packet.id fun session => (session.handleIncoming snow.toCipher packet).1)

theorem handlePacket_reaction (snow : Snow H S) (handler : Handler H S) (src : SocketAddr) (packet : SessionPacket)
    (ephemeral : Nat) : Reaction snow handler src packet ephemeral (handler.handlePacket snow src packet ephemeral) := by
  cases foundPoker : handler.pendingSessionsPoker packet.id with
  | some entry =>
    have result : handler.handlePacket snow src packet ephemeral = _ := handlePacket_poker foundPoker
    cases advanced : entry.session.advance snow src packet ephemeral with
    | promote session => exact .pokerPromoted foundPoker advanced (by rw [result, advanced])
    | putBack session => exact .pokerBack foundPoker advanced (by rw [result, advanced])
    | discard => exact .pokerDiscarded (by rw [result, advanced])
  | none =>
    cases foundInitiator : handler.pendingSessionsInitiator packet.id with
    | some entry =>
      have result : handler.handlePacket snow src packet ephemeral = _ := handlePacket_initiator foundPoker foundInitiator
      cases advanced : entry.session.advance snow src packet with
      | promote session => exact .initiatorPromoted foundInitiator advanced (by rw [result, advanced])
      | putBack session => exact .initiatorBack foundInitiator advanced (by rw [result, advanced])
      | discard => exact .initiatorDiscarded (by rw [result, advanced])
    | none =>
      cases foundResponder : handler.pendingSessionsResponder packet.id with
      | some entry =>
        have result : handler.handlePacket snow src packet ephemeral = _ :=
          handlePacket_responder foundPoker foundInitiator foundResponder
        cases advanced : entry.session.advance snow.toCipher packet with
        | promote session => exact .responderPromoted foundResponder advanced (by rw [result, advanced])
        | putBack session => exact .responderBack foundResponder advanced (by rw [result, advanced])
        | discard => exact .responderDiscarded (by rw [result, advanced])
      | none =>
        exact .established (handlePacket_established snow src ephemeral foundPoker foundInitiator foundResponder)

theorem handlePacket_later (snow : Snow H S) (src : SocketAddr) (ephemeral : Nat)
    (noPoker : handler.pendingSessionsPoker packet.id = none)
    (noInitiator : handler.pendingSessionsInitiator packet.id = none) :
    (handler.handlePacket snow src packet ephemeral).pendingSessionsPoker = handler.pendingSessionsPoker ∧
    (handler.handlePacket snow src packet ephemeral).pendingSessionsInitiator = handler.pendingSessionsInitiator := by
  simp only [handlePacket, noPoker, noInitiator]
  split
  next entry found =>
    split
    next session _ =>
      have maps := (handler.takeResponder packet.id).upgradeSession_maps packet.id entry.oneTimeId session
      exact ⟨maps.poker, maps.initiator⟩
    next => exact ⟨rfl, rfl⟩
    next => exact ⟨rfl, rfl⟩
  next =>
    split
    · exact ⟨rfl, rfl⟩
    · exact ⟨rfl, rfl⟩

theorem handlePacket_frame (snow : Snow H S) (handler : Handler H S) (src : SocketAddr) (ephemeral : Nat) {id : SessionId}
    (different : id ≠ packet.id) :
    let next := handler.handlePacket snow src packet ephemeral
    next.pendingSessionsPoker id = handler.pendingSessionsPoker id ∧
    next.pendingSessionsInitiator id = handler.pendingSessionsInitiator id ∧
    next.pendingSessionsResponder id = handler.pendingSessionsResponder id ∧
    next.establishedSessions id = handler.establishedSessions id := by
  intro next
  have upgraded : ∀ (taken : Handler H S) oneTimeId session,
      (taken.upgradeSession packet.id oneTimeId session).1.pendingSessionsPoker id = taken.pendingSessionsPoker id ∧
      (taken.upgradeSession packet.id oneTimeId session).1.pendingSessionsInitiator id = taken.pendingSessionsInitiator id ∧
      (taken.upgradeSession packet.id oneTimeId session).1.pendingSessionsResponder id = taken.pendingSessionsResponder id ∧
      (taken.upgradeSession packet.id oneTimeId session).1.establishedSessions id = taken.establishedSessions id := by
    intro taken oneTimeId session
    have maps := taken.upgradeSession_maps packet.id oneTimeId session
    rw [maps.poker, maps.initiator, maps.responder, maps.established]
    simp [putEstablished, different]
  cases handler.handlePacket_reaction snow src packet ephemeral with
  | pokerPromoted _ _ result => simp [next, result, putResponder, takePoker, different]
  | pokerBack _ _ result => simp [next, result, putPoker, takePoker, different]
  | pokerDiscarded result => simp [next, result, takePoker, different]
  | initiatorPromoted _ _ result => simp [next, result, upgraded, takeInitiator, different]
  | initiatorBack _ _ result => simp [next, result, putInitiator, takeInitiator, different]
  | initiatorDiscarded result => simp [next, result, takeInitiator, different]
  | responderPromoted _ _ result => simp [next, result, upgraded, takeResponder, different]
  | responderBack _ _ result => simp [next, result, putResponder, takeResponder, different]
  | responderDiscarded result => simp [next, result, takeResponder, different]
  | established result =>
    simp only [next, result, updateEstablished]
    split
    · exact ⟨rfl, rfl, rfl, rfl⟩
    · simp [putEstablished, different]

theorem remove_fewer {α : Type} (map : HashMap SessionId α) (key id : SessionId) :
    map.remove key id = none ∨ map.remove key id = map id := by
  by_cases same : id = key
  · exact .inl (by simp [same])
  · exact .inr (by simp [same])

theorem sweep_fewer {α : Type} (current : α → OneTimeId) (map : HashMap SessionId α) (key id : SessionId)
    (oneTimeId : Option OneTimeId) :
    (sweep current map key oneTimeId).1 id = none ∨ (sweep current map key oneTimeId).1 id = map id := by
  cases oneTimeId with
  | none => exact remove_fewer map key id
  | some oneTimeId =>
    by_cases matching : (map key).map current = some oneTimeId
    · simpa only [sweep, matching, ↓reduceIte] using remove_fewer map key id
    · simp [sweep, matching]

/-- What holds of the entries of every handler that is not in the middle of a
call. -/
structure Consistent (handler : Handler H S) : Prop where
  pokers : ∀ id entry, handler.pendingSessionsPoker id = some entry →
    entry.session.workingRemoteAddr = none ∧ entry.session.handle.aborted = false
  initiators : ∀ id entry, handler.pendingSessionsInitiator id = some entry → entry.session.workingRemoteAddr = none
  exclusive : ∀ id, handler.pendingSessionsPoker id = none ∨ handler.pendingSessionsInitiator id = none

namespace Consistent

variable {next : Handler H S}

theorem new (keypair : SnowKeypair) : Consistent (Handler.new keypair : Handler H S) :=
  ⟨by simp [Handler.new], by simp [Handler.new], by simp [Handler.new]⟩

theorem fewer (consistent : handler.Consistent)
    (pokers : ∀ id, next.pendingSessionsPoker id = none ∨
      next.pendingSessionsPoker id = handler.pendingSessionsPoker id)
    (initiators : ∀ id, next.pendingSessionsInitiator id = none ∨
      next.pendingSessionsInitiator id = handler.pendingSessionsInitiator id) : next.Consistent := by
  refine ⟨?_, ?_, ?_⟩
  · intro id entry found
    rcases pokers id with gone | same
    · simp [gone] at found
    · exact consistent.pokers id entry (same ▸ found)
  · intro id entry found
    rcases initiators id with gone | same
    · simp [gone] at found
    · exact consistent.initiators id entry (same ▸ found)
  · intro id
    rcases pokers id with gone | samePoker
    · exact .inl gone
    · rcases initiators id with gone | sameInitiator
      · exact .inr gone
      · rw [samePoker, sameInitiator]
        exact consistent.exclusive id

theorem putPoker (consistent : handler.Consistent) {id : SessionId} {entry : Pending (PendingSessionPoker H)}
    (idle : entry.session.workingRemoteAddr = none) (running : entry.session.handle.aborted = false)
    (free : handler.pendingSessionsInitiator id = none) : (handler.putPoker id entry).Consistent := by
  refine ⟨?_, consistent.initiators, ?_⟩
  · intro other found registered
    rcases HashMap.insert_some registered with ⟨rfl, rfl⟩ | ⟨-, present⟩
    · exact ⟨idle, running⟩
    · exact consistent.pokers other found present
  · intro other
    by_cases key : other = id
    · exact .inr (key ▸ free)
    · simpa only [Handler.putPoker, HashMap.insert_other _ _ key] using consistent.exclusive other

theorem putInitiator (consistent : handler.Consistent) {id : SessionId} {entry : Pending (PendingSessionInitiator H)}
    (idle : entry.session.workingRemoteAddr = none) (free : handler.pendingSessionsPoker id = none) :
    (handler.putInitiator id entry).Consistent := by
  refine ⟨consistent.pokers, ?_, ?_⟩
  · intro other found registered
    rcases HashMap.insert_some registered with ⟨rfl, rfl⟩ | ⟨-, present⟩
    · exact idle
    · exact consistent.initiators other found present
  · intro other
    by_cases key : other = id
    · exact .inl (key ▸ free)
    · simpa only [Handler.putInitiator, HashMap.insert_other _ _ key] using consistent.exclusive other

theorem sameMaps (consistent : handler.Consistent) (same : SameMaps handler next) : next.Consistent :=
  consistent.fewer (fun _ => .inr (by rw [same.poker])) (fun _ => .inr (by rw [same.initiator]))

theorem takePoker (consistent : handler.Consistent) (id : SessionId) : (handler.takePoker id).Consistent :=
  consistent.fewer (remove_fewer _ id) (fun _ => .inr rfl)

theorem takeInitiator (consistent : handler.Consistent) (id : SessionId) : (handler.takeInitiator id).Consistent :=
  consistent.fewer (fun _ => .inr rfl) (remove_fewer _ id)

/-- A poker goes back only as it was, an initiator only without a response. -/
theorem handlePacket (consistent : handler.Consistent) :
    (handler.handlePacket snow src packet ephemeral).Consistent := by
  cases foundPoker : handler.pendingSessionsPoker packet.id with
  | some entry =>
    obtain ⟨idle, running⟩ := consistent.pokers _ _ foundPoker
    have free : handler.pendingSessionsInitiator packet.id = none := by
      rcases consistent.exclusive packet.id with none | none
      · simp [foundPoker] at none
      · exact none
    have taken := consistent.takePoker packet.id
    rw [handlePacket_poker foundPoker]
    cases carried : packet.initiation with
    | none =>
      rw [PendingSessionPoker.advance_other snow idle carried]
      exact taken.putPoker idle running free
    | some initiation =>
      rw [PendingSessionPoker.advance_initiation snow carried]
      cases entry.session.snowResponder.response snow initiation ephemeral with
      | ok result => exact taken.fewer (fun _ => .inr rfl) (fun _ => .inr rfl)
      | error failure => exact taken
  | none =>
    cases foundInitiator : handler.pendingSessionsInitiator packet.id with
    | some entry =>
      have idle := consistent.initiators _ _ foundInitiator
      have taken := consistent.takeInitiator packet.id
      rw [handlePacket_initiator foundPoker foundInitiator]
      cases carried : packet.response with
      | none =>
        rw [PendingSessionInitiator.advance_other snow idle carried]
        exact taken.putInitiator idle foundPoker
      | some response =>
        rw [PendingSessionInitiator.advance_response snow carried]
        cases entry.session.initiator.receiveResponse snow response with
        | error failure => exact taken
        | ok result =>
          cases result with
          | ok transport =>
            have moved : ((handler.takeInitiator packet.id).putEstablished packet.id
                (entry.oneTimeId, .new entry.session.id src transport)).Consistent :=
              taken.fewer (fun _ => .inr rfl) (fun _ => .inr rfl)
            exact moved.sameMaps (upgradeSession_maps _ _ _ _)
          | err initiator => exact taken.putInitiator rfl foundPoker
    | none =>
      obtain ⟨pokers, initiators⟩ := handlePacket_later snow src ephemeral foundPoker foundInitiator
      exact consistent.fewer (fun _ => .inr (by rw [pokers])) (fun _ => .inr (by rw [initiators]))

theorem removeSession (consistent : handler.Consistent) (id : SessionId) (oneTimeId : Option OneTimeId) :
    (handler.removeSession id oneTimeId).Consistent :=
  consistent.fewer (fun other => sweep_fewer _ _ id other oneTimeId) (fun other => sweep_fewer _ _ id other oneTimeId)

private theorem removeSession_none (handler : Handler H S) (id : SessionId) :
    (handler.removeSession id none).pendingSessionsPoker id = none ∧
      (handler.removeSession id none).pendingSessionsInitiator id = none := by
  simp [Handler.removeSession, removeEstablished, removeResponder, removePoker, removeInitiator, sweep]

theorem initiate (consistent : handler.Consistent) (snow : Snow H S) (id : SessionId) (info : ConnectionInfo)
    (ephemeral : Nat) (oneTimeId : OneTimeId) : (handler.initiate snow id info ephemeral oneTimeId).1.Consistent := by
  have swept := consistent.removeSession id none
  unfold Handler.initiate insertInitiator
  split
  · exact swept
  next initiator built =>
    have put : ((handler.removeSession id none).putInitiator id ⟨.new id info initiator, oneTimeId⟩).Consistent :=
      swept.putInitiator rfl (removeSession_none handler id).1
    exact put.sameMaps ⟨rfl, rfl, rfl, rfl, rfl⟩

theorem respond (consistent : handler.Consistent) (snow : Snow H S) (id : SessionId) (info : ConnectionInfo)
    (oneTimeId : OneTimeId) : (handler.respond snow id info oneTimeId).1.Consistent := by
  have swept := consistent.removeSession id none
  unfold Handler.respond insertPoker
  split
  · exact swept
  next responder built =>
    have put : ((handler.removeSession id none).putPoker id ⟨.new id info responder, oneTimeId⟩).Consistent :=
      swept.putPoker rfl rfl (removeSession_none handler id).2
    exact put.sameMaps ⟨rfl, rfl, rfl, rfl, rfl⟩

theorem established (consistent : handler.Consistent)
    (establishedSessions : HashMap SessionId (OneTimeId × Session S)) :
    Consistent { handler with establishedSessions } :=
  consistent.fewer (fun _ => .inr rfl) (fun _ => .inr rfl)

theorem step (consistent : handler.Consistent) (snow : Snow H S) (operation : Operation) :
    (handler.step snow operation).Consistent := by
  cases operation with
  | initiate id info ephemeral oneTimeId => exact consistent.initiate snow id info ephemeral oneTimeId
  | respond id info oneTimeId => exact consistent.respond snow id info oneTimeId
  | handleIncoming src data ephemeral =>
    simp only [Handler.step, handleIncoming]
    split
    · exact consistent
    · exact consistent.handlePacket
  | send id data =>
    simp only [Handler.step, Handler.send]
    split
    · exact consistent
    · exact consistent.established _
  | recvFrom id =>
    simp only [Handler.step, recvFrom]
    split
    · exact consistent
    · split
      · exact consistent.established _
      · exact consistent
  | closeSession id oneTimeId => exact consistent.removeSession id (some oneTimeId)
  | keepalive id =>
    simp only [Handler.step, updateEstablished]
    split
    · exact consistent
    · exact consistent.established _
  | checkHeartbeat id =>
    simp only [Handler.step, updateEstablished]
    split
    · exact consistent
    · exact consistent.established _

theorem run (consistent : handler.Consistent) (snow : Snow H S) (operations : List Operation) :
    (handler.run snow operations).Consistent := by
  induction operations generalizing handler with
  | nil => exact consistent
  | cons operation operations ih => exact ih (consistent.step snow operation)

end Consistent
end Handler
end Veq
