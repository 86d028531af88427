import Veq.Proofs.EndToEnd
import Veq.Proofs.Lifetime

/-! The id that a session carries is the one under which it is registered, at
every stage, so that what it sends is addressed to the entry of its peer. Next to
an established session nothing is pending, so that what it is sent reaches it. -/

namespace Veq
open Rust Bincode

variable {H S : Type}

def Disposition.Satisfies {P Q : Type} (promoted : Q → Prop) (kept : P → Prop) : Disposition P Q → Prop
  | .promote next => promoted next
  | .putBack pending => kept pending
  | .discard => True

theorem PendingSessionPoker.advance_id (snow : Snow H S) (pending : PendingSessionPoker H) (src : SocketAddr)
    (packet : SessionPacket) (ephemeral : Nat) :
    (pending.advance snow src packet ephemeral).Satisfies (·.id = pending.id) (·.id = pending.id) := by
  have same : (pending.handleIncoming src packet).id = pending.id := by
    unfold handleIncoming
    split <;> rfl
  simp only [advance, responder]
  split
  · cases (pending.handleIncoming src packet).workingRemoteAddr with
    | none => trivial
    | some working =>
      simp only [bind, Except.bind, pure, Except.pure]
      cases (pending.handleIncoming src packet).snowResponder.response snow working.2 ephemeral with
      | error failure => trivial
      | ok result => exact same
  · exact same

theorem PendingSessionInitiator.advance_id (snow : Snow H S) (pending : PendingSessionInitiator H) (src : SocketAddr)
    (packet : SessionPacket) : (pending.advance snow src packet).Satisfies (·.id = pending.id) (·.id = pending.id) := by
  have same : (pending.handleIncoming src packet).id = pending.id := by
    unfold handleIncoming
    split <;> rfl
  simp only [advance, session]
  split
  · cases (pending.handleIncoming src packet).workingRemoteAddr with
    | none => exact same
    | some working =>
      simp only
      cases (pending.handleIncoming src packet).initiator.receiveResponse snow working.2 with
      | error failure => trivial
      | ok result =>
        cases result with
        | ok transport => exact same
        | err initiator => exact same
  · exact same

theorem PendingSessionResponder.handleIncoming_id (cipher : Cipher S) (pending : PendingSessionResponder S)
    (packet : SessionPacket) : (pending.handleIncoming cipher packet).1.id = pending.id := by
  rcases pending.handleIncoming_cases cipher packet with ⟨-, handled⟩ | ⟨-, handled, -⟩
  · rw [handled]
  · rw [handled]

theorem PendingSessionResponder.advance_id (cipher : Cipher S) (pending : PendingSessionResponder S)
    (packet : SessionPacket) : (pending.advance cipher packet).Satisfies (·.id = pending.id) (·.id = pending.id) := by
  have same := pending.handleIncoming_id cipher packet
  simp only [advance, session]
  split
  · split
    next session promoted =>
      split at promoted
      · cases promoted
        exact same
      · cases promoted
    · trivial
  · exact same

theorem Session.handleIncoming_id (cipher : Cipher S) (session : Session S) (packet : SessionPacket) :
    (session.handleIncoming cipher packet).1.id = session.id := by
  unfold handleIncoming
  split
  · rfl
  · rfl
  · rfl
  · rfl
  · split
    · rfl
    · split <;> rfl

theorem Session.encrypt_id (cipher : Cipher S) (session : Session S) (message : Message) :
    (session.encrypt cipher message).1.id = session.id := by
  rw [encrypt_state]

theorem Session.send_id (cipher : Cipher S) (session : Session S) (data : Bytes) :
    (session.send cipher data).1.id = session.id := by
  unfold Session.send
  split
  · rfl
  · exact session.encrypt_id cipher _

theorem Session.checkHeartbeat_id (session : Session S) : session.checkHeartbeat.1.id = session.id := by
  unfold checkHeartbeat
  split <;> rfl

theorem Session.poll_id (session : Session S) (receiving : Uuid) (waker : Waker) :
    (session.poll receiving waker).1.id = session.id := by
  unfold Session.poll
  split
  · rfl
  · split <;> rfl

namespace Handler

/-- The sessions carry the id under which they are registered. -/
structure Named (handler : Handler H S) : Prop where
  pokers : ∀ id entry, handler.pendingSessionsPoker id = some entry → entry.session.id = id
  initiators : ∀ id entry, handler.pendingSessionsInitiator id = some entry → entry.session.id = id
  responders : ∀ id entry, handler.pendingSessionsResponder id = some entry → entry.session.id = id
  established : ∀ id entry, handler.establishedSessions id = some entry → entry.2.id = id

namespace Named

variable {handler next : Handler H S} {id : SessionId}

theorem new (keypair : SnowKeypair) : (Handler.new keypair : Handler H S).Named := by
  constructor <;> simp [Handler.new]

theorem fewer (named : handler.Named)
    (pokers : ∀ id, next.pendingSessionsPoker id = none ∨ next.pendingSessionsPoker id = handler.pendingSessionsPoker id)
    (initiators : ∀ id, next.pendingSessionsInitiator id = none ∨
      next.pendingSessionsInitiator id = handler.pendingSessionsInitiator id)
    (responders : ∀ id, next.pendingSessionsResponder id = none ∨
      next.pendingSessionsResponder id = handler.pendingSessionsResponder id)
    (established : ∀ id, next.establishedSessions id = none ∨
      next.establishedSessions id = handler.establishedSessions id) : next.Named := by
  have left : ∀ {α : Type} {map kept : HashMap SessionId α}, (∀ id, kept id = none ∨ kept id = map id) →
      ∀ id entry, kept id = some entry → map id = some entry := by
    intro α map kept fewer id entry found
    rcases fewer id with gone | same
    · cases gone.symm.trans found
    · exact same ▸ found
  exact ⟨fun id entry found => named.pokers id entry (left pokers id entry found),
    fun id entry found => named.initiators id entry (left initiators id entry found),
    fun id entry found => named.responders id entry (left responders id entry found),
    fun id entry found => named.established id entry (left established id entry found)⟩

theorem sameMaps (named : handler.Named) (same : SameMaps handler next) : next.Named :=
  named.fewer (fun _ => .inr (by rw [same.poker])) (fun _ => .inr (by rw [same.initiator]))
    (fun _ => .inr (by rw [same.responder])) (fun _ => .inr (by rw [same.established]))

private theorem insert_named {α : Type} {map : HashMap SessionId α} {name : α → SessionId} {value : α}
    (named : ∀ id entry, map id = some entry → name entry = id) (same : name value = id) :
    ∀ key entry, map.insert id value key = some entry → name entry = key := by
  intro key entry found
  rcases HashMap.insert_some found with ⟨rfl, rfl⟩ | ⟨-, present⟩
  · exact same
  · exact named key entry present

theorem putPoker (named : handler.Named) {entry : Pending (PendingSessionPoker H)} (same : entry.session.id = id) :
    (handler.putPoker id entry).Named :=
  ⟨insert_named named.pokers same, named.initiators, named.responders, named.established⟩

theorem putInitiator (named : handler.Named) {entry : Pending (PendingSessionInitiator H)} (same : entry.session.id = id) :
    (handler.putInitiator id entry).Named :=
  ⟨named.pokers, insert_named named.initiators same, named.responders, named.established⟩

theorem putResponder (named : handler.Named) {entry : Pending (PendingSessionResponder S)} (same : entry.session.id = id) :
    (handler.putResponder id entry).Named :=
  ⟨named.pokers, named.initiators, insert_named named.responders same, named.established⟩

theorem putEstablished (named : handler.Named) {entry : OneTimeId × Session S} (same : entry.2.id = id) :
    (handler.putEstablished id entry).Named :=
  ⟨named.pokers, named.initiators, named.responders, insert_named named.established same⟩

theorem upgradeSession (named : handler.Named) {session : Session S} (same : session.id = id) (oneTimeId : OneTimeId) :
    (handler.upgradeSession id oneTimeId session).1.Named := by
  have put : (handler.putEstablished id (oneTimeId, session)).Named := named.putEstablished same
  exact put.sameMaps (upgradeSession_maps handler id oneTimeId session)

theorem updateEstablished (named : handler.Named) {update : Session S → Session S}
    (same : ∀ session, (update session).id = session.id) : (handler.updateEstablished id update).Named := by
  unfold Handler.updateEstablished
  split
  · exact named
  next oneTimeId session found => exact named.putEstablished ((same session).trans (named.established id _ found))

theorem removeSession (named : handler.Named) (id : SessionId) (oneTimeId : Option OneTimeId) :
    (handler.removeSession id oneTimeId).Named :=
  named.fewer (fun other => sweep_fewer _ _ id other oneTimeId) (fun other => sweep_fewer _ _ id other oneTimeId)
    (fun other => sweep_fewer _ _ id other oneTimeId) (fun other => sweep_fewer _ _ id other oneTimeId)

theorem initiate (named : handler.Named) (snow : Snow H S) (id : SessionId) (info : ConnectionInfo) (ephemeral : Nat)
    (oneTimeId : OneTimeId) : (handler.initiate snow id info ephemeral oneTimeId).1.Named := by
  have swept := named.removeSession id none
  unfold Handler.initiate insertInitiator
  split
  · exact swept
  next initiator built =>
    have put : ((handler.removeSession id none).putInitiator id ⟨.new id info initiator, oneTimeId⟩).Named :=
      swept.putInitiator rfl
    exact put.sameMaps ⟨rfl, rfl, rfl, rfl, rfl⟩

theorem respond (named : handler.Named) (snow : Snow H S) (id : SessionId) (info : ConnectionInfo)
    (oneTimeId : OneTimeId) : (handler.respond snow id info oneTimeId).1.Named := by
  have swept := named.removeSession id none
  unfold Handler.respond insertPoker
  split
  · exact swept
  next responder built =>
    have put : ((handler.removeSession id none).putPoker id ⟨.new id info responder, oneTimeId⟩).Named :=
      swept.putPoker rfl
    exact put.sameMaps ⟨rfl, rfl, rfl, rfl, rfl⟩

theorem recvFrom (named : handler.Named) (id : SessionId) : (handler.recvFrom id).1.Named := by
  unfold Handler.recvFrom
  split
  · exact named
  · split
    · exact named.fewer (fun _ => .inr rfl) (fun _ => .inr rfl) (fun _ => .inr rfl) (remove_fewer _ id)
    · exact named

/-- A session keeps its id from one stage to the next. -/
theorem handlePacket (named : handler.Named) (snow : Snow H S) (src : SocketAddr) (packet : SessionPacket)
    (ephemeral : Nat) : (handler.handlePacket snow src packet ephemeral).Named := by
  have noPoker : (handler.takePoker packet.id).Named :=
    named.fewer (remove_fewer _ packet.id) (fun _ => .inr rfl) (fun _ => .inr rfl) (fun _ => .inr rfl)
  have noInitiator : (handler.takeInitiator packet.id).Named :=
    named.fewer (fun _ => .inr rfl) (remove_fewer _ packet.id) (fun _ => .inr rfl) (fun _ => .inr rfl)
  have noResponder : (handler.takeResponder packet.id).Named :=
    named.fewer (fun _ => .inr rfl) (fun _ => .inr rfl) (remove_fewer _ packet.id) (fun _ => .inr rfl)
  cases handler.handlePacket_reaction snow src packet ephemeral with
  | @pokerPromoted entry session found advanced result =>
    have same := entry.session.advance_id snow src packet ephemeral
    rw [advanced] at same
    exact result ▸ noPoker.putResponder (Eq.trans same (named.pokers _ _ found))
  | @pokerBack entry session found advanced result =>
    have same := entry.session.advance_id snow src packet ephemeral
    rw [advanced] at same
    exact result ▸ noPoker.putPoker (Eq.trans same (named.pokers _ _ found))
  | pokerDiscarded result => exact result ▸ noPoker
  | @initiatorPromoted entry session found advanced result =>
    have same := entry.session.advance_id snow src packet
    rw [advanced] at same
    exact result ▸ noInitiator.upgradeSession (Eq.trans same (named.initiators _ _ found)) entry.oneTimeId
  | @initiatorBack entry session found advanced result =>
    have same := entry.session.advance_id snow src packet
    rw [advanced] at same
    exact result ▸ noInitiator.putInitiator (Eq.trans same (named.initiators _ _ found))
  | initiatorDiscarded result => exact result ▸ noInitiator
  | @responderPromoted entry session found advanced result =>
    have same := entry.session.advance_id snow.toCipher packet
    rw [advanced] at same
    exact result ▸ noResponder.upgradeSession (Eq.trans same (named.responders _ _ found)) entry.oneTimeId
  | @responderBack entry session found advanced result =>
    have same := entry.session.advance_id snow.toCipher packet
    rw [advanced] at same
    exact result ▸ noResponder.putResponder (Eq.trans same (named.responders _ _ found))
  | responderDiscarded result => exact result ▸ noResponder
  | established result =>
    exact result ▸ named.updateEstablished fun session => session.handleIncoming_id snow.toCipher packet

end Named
end Handler

namespace Socket

variable {snow : Snow H S} {socket next : Socket H S} {label : Label}

theorem connect_handler (result : Handler H S × Except Failure SessionReady) :
    (socket.connect result).handler = result.1 := by
  obtain ⟨handler, error | ready⟩ := result <;> rfl

theorem operate_named (named : socket.handler.Named) {operation : Handler.Operation}
    (operated : socket.operate snow operation = some next) : next.handler.Named := by
  cases operation with
  | initiate id info ephemeral oneTimeId =>
    simp only [Socket.operate] at operated
    split at operated
    · cases operated
    · cases operated
      rw [connect_handler]
      exact named.initiate snow id info ephemeral oneTimeId
  | respond id info oneTimeId =>
    simp only [Socket.operate] at operated
    split at operated
    · cases operated
    · cases operated
      rw [connect_handler]
      exact named.respond snow id info oneTimeId
  | handleIncoming src data ephemeral =>
    cases operated
    simp only [Handler.handleIncoming]
    split
    · exact named
    · exact named.handlePacket snow src _ ephemeral
  | send id data =>
    cases operated
    simp only [Handler.step, Handler.send_eq_update]
    exact named.updateEstablished fun session => session.send_id snow.toCipher data
  | recvFrom id =>
    cases operated
    exact named.recvFrom id
  | closeSession id oneTimeId =>
    cases operated
    exact named.removeSession id (some oneTimeId)
  | keepalive id =>
    cases operated
    exact named.updateEstablished fun session => session.encrypt_id snow.toCipher .keepalive
  | checkHeartbeat id =>
    cases operated
    exact named.updateEstablished Session.checkHeartbeat_id

theorem step_named (named : socket.handler.Named) (stepped : socket.step snow label = some next) : next.handler.Named := by
  cases label with
  | operate operation => exact operate_named named stepped
  | poll waiter waker =>
    obtain ⟨ready, readiness, -, -, -, handler, -⟩ := poll_cases stepped
    rw [handler]
    exact named.sameMaps ⟨rfl, rfl, rfl, rfl, rfl⟩
  | drop waiter =>
    obtain ⟨ready, -, rfl⟩ := drop_cases stepped
    exact named.sameMaps ⟨rfl, rfl, rfl, rfl, rfl⟩
  | send index data =>
    simp only [step] at stepped
    split at stepped
    · cases stepped
    next handle _ =>
      cases stepped
      rw [send_fst, Handler.send_eq_update]
      exact named.updateEstablished fun session => session.send_id snow.toCipher data
  | recv index =>
    simp only [step] at stepped
    split at stepped
    · cases stepped
    next handle _ =>
      have received := named.recvFrom handle.id
      rw [← recv_fst socket.handler handle] at received
      split at stepped
      next handler error result =>
        cases stepped
        rwa [result] at received
      next handler receiving result =>
        cases stepped
        rwa [result] at received
  | pollReceiving future id waker =>
    simp only [step] at stepped
    split at stepped
    · cases stepped
    next handle receiving _ =>
      cases stepped
      simp only [Handler.pollReceiving]
      split
      · exact named
      next oneTimeId session found =>
        split
        · exact named.putEstablished ((session.poll_id id waker).trans (named.established _ _ found))
        · exact named

variable {keypair : SnowKeypair} {labels : List Label} {id : SessionId}

theorem run_named (reached : Runs.run (step snow) (start keypair) labels = some socket) : socket.handler.Named :=
  Runs.persists (fun _ _ _ => step_named) (.new keypair) reached

theorem registered_alone (reached : Runs.run (step snow) (start keypair) labels = some socket) {place : Place}
    {oneTimeId : OneTimeId} (found : socket.handler.registered place id = some oneTimeId) (other : Place)
    (different : other ≠ place) :
    socket.handler.registered other id = none := by
  obtain ⟨ledger, kept, -⟩ := (Kept.start keypair).run labels ⟨.nil, by simp⟩ reached
  exact kept.represents.other ((kept.represents place id oneTimeId).mp found) different

theorem established_alone (reached : Runs.run (step snow) (start keypair) labels = some socket)
    {entry : OneTimeId × Session S} (found : socket.handler.establishedSessions id = some entry) :
    socket.handler.pendingSessionsPoker id = none ∧ socket.handler.pendingSessionsInitiator id = none ∧
      socket.handler.pendingSessionsResponder id = none := by
  have held : socket.handler.registered .established id = some entry.1 := by simp [Handler.registered, found]
  refine ⟨?_, ?_, ?_⟩
  · exact Option.map_eq_none_iff.mp (registered_alone reached held .poker (by decide))
  · exact Option.map_eq_none_iff.mp (registered_alone reached held .initiator (by decide))
  · exact Option.map_eq_none_iff.mp (registered_alone reached held .responder (by decide))

theorem handleIncoming_established (reached : Runs.run (step snow) (start keypair) labels = some socket)
    {oneTimeId : OneTimeId} {session : Session S}
    (found : socket.handler.establishedSessions id = some (oneTimeId, session)) {datagram : Bytes} {packet : SessionPacket}
    (decoded : SessionPacket.codec.deserialize datagram = some packet) (same : packet.id = id) (src : SocketAddr)
    (ephemeral : Nat) :
    socket.handler.handleIncoming snow src datagram ephemeral =
      (socket.handler.putEstablished id (oneTimeId, (session.handleIncoming snow.toCipher packet).1), .ok ()) := by
  subst same
  obtain ⟨noPoker, noInitiator, noResponder⟩ := established_alone reached found
  simp [Handler.handleIncoming, decoded, Handler.handlePacket_established snow src ephemeral noPoker noInitiator noResponder,
    Handler.updateEstablished, found]

end Socket

end Veq
