import Veq.Socket
import Veq.Lifecycle
import Veq.Proofs.Sections
import Veq.Proofs.Survival

/-! The four maps of the handler as one ledger: an id has at most one entry, and
the entry's one-time id goes through the maps in one direction. -/

namespace Veq
open Rust Bincode Lifecycle

variable {H S : Type}

namespace Place

/-- Where an entry can go from one map to another. -/
def Advances (before after : Place) : Prop :=
  (before, after) ∈ [(.poker, .responder), (.responder, .established), (.initiator, .established)]

theorem Advances.cases {before after : Place} (advances : Advances before after) :
    before = .poker ∧ after = .responder ∨ before = .responder ∧ after = .established ∨
      before = .initiator ∧ after = .established := by
  simpa [Advances] using advances

theorem established_last {after : Place} (advances : Relation.ReflTransGen Advances .established after) :
    after = .established := by
  induction advances with
  | refl => rfl
  | tail _ step ih =>
    subst ih
    rcases step.cases with ⟨source, -⟩ | ⟨source, -⟩ | ⟨source, -⟩
    all_goals cases source

end Place

namespace Fate

def source : Fate → Place
  | .keep place => place
  | .advance before _ => before
  | .discard place => place

def apply (registry : Registry) (id : SessionId) (oneTimeId : OneTimeId) : Fate → Registry
  | .keep _ => registry
  | .advance before after => (registry.clear before id).put after id oneTimeId
  | .discard place => registry.clear place id

theorem apply_other {registry : Registry} {id key : SessionId} {oneTimeId : OneTimeId} (different : key ≠ id) (fate : Fate)
    (place : Place) : fate.apply registry id oneTimeId place key = registry place key := by
  cases fate with
  | keep place => rfl
  | advance before after =>
    rw [apply, Registry.put_other fun same => different same.2, Registry.clear_other fun same => different same.2]
  | discard place => exact Registry.clear_other fun same => different same.2

theorem source_ofDisposition {P Q : Type} (before after : Place) (disposition : Disposition P Q) :
    (ofDisposition before after disposition).source = before := by
  cases disposition with
  | promote next => rfl
  | putBack pending => rfl
  | discard => rfl

theorem advance_ofDisposition {P Q : Type} {before after source target : Place} {disposition : Disposition P Q}
    (advance : ofDisposition before after disposition = .advance source target) : source = before ∧ target = after := by
  cases disposition with
  | promote next =>
    cases advance
    exact ⟨rfl, rfl⟩
  | putBack pending => cases advance
  | discard => cases advance

end Fate

namespace Handler

variable {snow : Snow H S} {handler : Handler H S} {src : SocketAddr} {packet : SessionPacket} {ephemeral : Nat}

private theorem pending_ofDisposition {P Q : Type} {source target : Place} {oneTimeId : OneTimeId}
    (disposition : Disposition P Q) (held : handler.registered source packet.id = some oneTimeId)
    (pending : source ≠ .established) (allowed : Place.Advances source target) :
    let fate := Fate.ofDisposition source target disposition
    handler.registered fate.source packet.id = some oneTimeId ∧ fate.source ≠ .established ∧
      ∀ before after, fate = .advance before after → Place.Advances before after := by
  intro fate
  rw [Fate.source_ofDisposition]
  refine ⟨held, pending, ?_⟩
  intro before after advance
  obtain ⟨rfl, rfl⟩ := Fate.advance_ofDisposition advance
  exact allowed

/-- The entry that a packet finds is pending, and goes on in one of three ways. -/
theorem fate_pending {oneTimeId : OneTimeId} {fate : Fate}
    (found : handler.fate snow src packet ephemeral = some (oneTimeId, fate)) :
    handler.registered fate.source packet.id = some oneTimeId ∧ fate.source ≠ .established ∧
      ∀ before after, fate = .advance before after → Place.Advances before after := by
  unfold Handler.fate at found
  split at found
  next entry held =>
    cases found
    exact pending_ofDisposition _ (by simp [registered, held]) (by simp) (by simp [Place.Advances])
  next =>
    split at found
    next entry held =>
      cases found
      exact pending_ofDisposition _ (by simp [registered, held]) (by simp) (by simp [Place.Advances])
    next =>
      split at found
      next entry held =>
        cases found
        exact pending_ofDisposition _ (by simp [registered, held]) (by simp) (by simp [Place.Advances])
      next => cases found

theorem handlePacket_idle (idle : handler.fate snow src packet ephemeral = none) :
    (handler.handlePacket snow src packet ephemeral).registered = handler.registered ∧
    (handler.handlePacket snow src packet ephemeral).readiness = handler.readiness := by
  unfold Handler.fate at idle
  split at idle
  · cases idle
  next noPoker =>
    split at idle
    · cases idle
    next noInitiator =>
      split at idle
      · cases idle
      next noResponder =>
        simp only [handlePacket, noPoker, noInitiator, noResponder]
        have same := handler.registered_updateEstablished packet.id
          fun session => (session.handleIncoming snow.toCipher packet).1
        cases found : handler.establishedSessions packet.id with
        | none => exact ⟨rfl, rfl⟩
        | some entry =>
          simp only [updateEstablished, found] at same
          exact ⟨same, rfl⟩

def announce (readiness : Readiness) : Readiness :=
  if readiness.listening then
    { readiness with notifications := readiness.notifications + 1, woken := readiness.woken ++ readiness.wakers }
  else readiness

theorem upgradeSession_readiness (handler : Handler H S) (id : SessionId) (oneTimeId : OneTimeId) (session : Session S)
    (other : OneTimeId) :
    (handler.upgradeSession id oneTimeId session).1.readiness other =
      if other = oneTimeId then (handler.readiness other).map announce else handler.readiness other := by
  by_cases same : other = oneTimeId
  · subst same
    rw [if_pos rfl]
    cases channel : handler.readiness other with
    | none => simp [upgradeSession, notify, putEstablished, channel]
    | some readiness =>
      cases listening : readiness.listening with
      | true => simp [upgradeSession, notify, wake, putEstablished, channel, listening, announce]
      | false => simp [upgradeSession, notify, putEstablished, channel, listening, announce]
  · rw [if_neg same]
    cases channel : handler.readiness oneTimeId with
    | none => simp [upgradeSession, notify, putEstablished, channel]
    | some readiness =>
      cases listening : readiness.listening with
      | true => simp [upgradeSession, notify, wake, putEstablished, channel, listening, same]
      | false => simp [upgradeSession, notify, putEstablished, channel, listening]

theorem registered_upgradeSession (handler : Handler H S) (id : SessionId) (oneTimeId : OneTimeId) (session : Session S) :
    (handler.upgradeSession id oneTimeId session).1.registered = Registry.put handler.registered .established id oneTimeId :=
  (upgradeSession_maps handler id oneTimeId session).registered.trans
    (handler.registered_putEstablished id (oneTimeId, session))

theorem handlePacket_fate {oneTimeId : OneTimeId} {fate : Fate}
    (found : handler.fate snow src packet ephemeral = some (oneTimeId, fate)) :
    (handler.handlePacket snow src packet ephemeral).registered = fate.apply handler.registered packet.id oneTimeId ∧
    ∀ other, (handler.handlePacket snow src packet ephemeral).readiness other =
      if fate = .advance fate.source .established ∧ other = oneTimeId then (handler.readiness other).map announce
      else handler.readiness other := by
  have pending := (fate_pending found).1
  unfold Handler.fate at found
  split at found
  next entry held =>
    cases found
    rw [Fate.source_ofDisposition] at pending
    rw [handlePacket_poker held]
    cases entry.session.advance snow src packet ephemeral with
    | promote session =>
      refine ⟨?_, fun other => by simp [Fate.ofDisposition]; rfl⟩
      rw [registered_putResponder, registered_takePoker]
      rfl
    | putBack session =>
      refine ⟨?_, fun other => by simp [Fate.ofDisposition]; rfl⟩
      rw [registered_putPoker, registered_takePoker]
      exact Registry.put_clear pending
    | discard => exact ⟨handler.registered_takePoker packet.id, fun other => by simp [Fate.ofDisposition]; rfl⟩
  next noPoker =>
    split at found
    next entry held =>
      cases found
      rw [Fate.source_ofDisposition] at pending
      rw [handlePacket_initiator noPoker held]
      cases entry.session.advance snow src packet with
      | promote session =>
        refine ⟨?_, fun other => by rw [upgradeSession_readiness]; simp [Fate.ofDisposition, Fate.source]; rfl⟩
        rw [registered_upgradeSession, registered_takeInitiator]
        rfl
      | putBack session =>
        refine ⟨?_, fun other => by simp [Fate.ofDisposition]; rfl⟩
        rw [registered_putInitiator, registered_takeInitiator]
        exact Registry.put_clear pending
      | discard => exact ⟨handler.registered_takeInitiator packet.id, fun other => by simp [Fate.ofDisposition]; rfl⟩
    next noInitiator =>
      split at found
      next entry held =>
        cases found
        rw [Fate.source_ofDisposition] at pending
        rw [handlePacket_responder noPoker noInitiator held]
        cases entry.session.advance snow.toCipher packet with
        | promote session =>
          refine ⟨?_, fun other => by rw [upgradeSession_readiness]; simp [Fate.ofDisposition, Fate.source]; rfl⟩
          rw [registered_upgradeSession, registered_takeResponder]
          rfl
        | putBack session =>
          refine ⟨?_, fun other => by simp [Fate.ofDisposition]; rfl⟩
          rw [registered_putResponder, registered_takeResponder]
          exact Registry.put_clear pending
        | discard => exact ⟨handler.registered_takeResponder packet.id, fun other => by simp [Fate.ofDisposition]; rfl⟩
      next => cases found

end Handler

/-- The maps hold what the ledger says, and nothing else. -/
def Represents (registry : Registry) (entries : SessionId → Option (Place × OneTimeId)) : Prop :=
  ∀ place id oneTimeId, registry place id = some oneTimeId ↔ entries id = some (place, oneTimeId)

namespace Represents

variable {registry : Registry} {entries : SessionId → Option (Place × OneTimeId)} {place : Place} {id : SessionId}
  {oneTimeId : OneTimeId}

theorem none (represents : Represents registry entries) (missing : entries id = .none) : registry place id = .none := by
  cases found : registry place id with
  | none => rfl
  | some held => exact absurd ((represents place id held).mp found) (by simp [missing])

theorem other (represents : Represents registry entries) {other : Place} (held : entries id = some (place, oneTimeId))
    (different : other ≠ place) : registry other id = .none := by
  cases found : registry other id with
  | none => rfl
  | some current =>
    have same := ((represents other id current).mp found).symm.trans held
    exact absurd (congrArg Prod.fst (Option.some.inj same)) different

theorem leave (represents : Represents registry entries) {next : Registry} (cleared : ∀ place, next place id = .none)
    (others : ∀ place key, key ≠ id → next place key = registry place key) :
    Represents next (Function.update entries id .none) := by
  intro place key current
  by_cases same : key = id
  · subst same
    simp [cleared]
  · rw [others place key same, Function.update_of_ne same]
    exact represents place key current

theorem enter (represents : Represents registry entries) {next : Registry} (held : next place id = some oneTimeId)
    (cleared : ∀ other, other ≠ place → next other id = .none)
    (others : ∀ place key, key ≠ id → next place key = registry place key) :
    Represents next (Function.update entries id (some (place, oneTimeId))) := by
  intro other key current
  by_cases same : key = id
  · subst same
    rw [Function.update_self]
    by_cases here : other = place
    · subst here
      simp [held]
    · simp [cleared other here, Ne.symm here]
  · rw [others other key same, Function.update_of_ne same]
    exact represents other key current

end Represents

namespace SessionReady

theorem register_id (ready : SessionReady) (readiness : Readiness) (waker : Waker) :
    (ready.register readiness waker).1.id = ready.id ∧ (ready.register readiness waker).1.oneTimeId = ready.oneTimeId ∧
      (ready.register readiness waker).1.completed = ready.completed := by
  unfold register
  split
  · exact ⟨rfl, rfl, rfl⟩
  · exact ⟨rfl, rfl, rfl⟩

theorem poll_id (ready : SessionReady) (readiness : Readiness) (waker : Waker) :
    (ready.poll readiness waker).1.id = ready.id ∧ (ready.poll readiness waker).1.oneTimeId = ready.oneTimeId := by
  unfold poll
  split
  · exact ⟨rfl, rfl⟩
  · exact ⟨(register_id ready readiness waker).1, (register_id ready readiness waker).2.1⟩

end SessionReady

namespace Handler

theorem pollReady_some {handler next : Handler H S} {ready again : SessionReady} {waker : Waker}
    {result : Poll (SessionId × OneTimeId)} (polled : handler.pollReady ready waker = some (next, again, result)) :
    ∃ readiness, handler.readiness ready.oneTimeId = some readiness ∧
      next = { handler with readiness := handler.readiness.insert ready.oneTimeId (ready.poll readiness waker).2.1 } ∧
      again = (ready.poll readiness waker).1 ∧ result = (ready.poll readiness waker).2.2 := by
  unfold pollReady at polled
  split at polled
  · cases polled
  next readiness channel =>
    cases polled
    exact ⟨readiness, channel, rfl, rfl, rfl⟩

theorem hangUp_eq (handler : Handler H S) (oneTimeId : OneTimeId) :
    handler.hangUp oneTimeId = { handler with
      readiness := fun other => if other = oneTimeId then
        (handler.readiness other).map fun channel => { channel with listening := false }
        else handler.readiness other } := by
  unfold hangUp
  cases channel : handler.readiness oneTimeId with
  | none =>
    have same : handler.readiness = fun other => if other = oneTimeId then
        (handler.readiness other).map fun channel => { channel with listening := false }
        else handler.readiness other := by
      funext other
      split
      next same => simp [same, channel]
      next => rfl
    rw [← same]
  | some readiness =>
    simp only [Handler.mk.injEq, true_and]
    funext other
    simp only [HashMap.insert]
    split
    next same => simp [same, channel]
    next => rfl

end Handler

namespace Socket

variable {snow : Snow H S} {socket next : Socket H S}

/-- A poll of a waiting connect touches its channel only. -/
theorem poll_cases {waiter : Nat} {waker : Waker} (polled : socket.poll waiter waker = some next) :
    ∃ ready readiness, socket.waiting[waiter]? = some ready ∧ ready.completed = false ∧
      socket.handler.readiness ready.oneTimeId = some readiness ∧
      next.handler = { socket.handler with
        readiness := socket.handler.readiness.insert ready.oneTimeId (ready.poll readiness waker).2.1 } ∧
      next.waiting = socket.waiting.set waiter (ready.poll readiness waker).1 ∧
      next.issued = socket.issued ∧ next.notified = socket.notified ∧ next.receiving = socket.receiving ∧
      ∃ more, next.handles = socket.handles ++ more := by
  unfold Socket.poll at polled
  split at polled
  · cases polled
  next ready found =>
    split at polled
    · cases polled
    next active =>
      split at polled
      · cases polled
      next handler again result pending =>
        obtain ⟨readiness, channel, rfl, rfl, -⟩ := Handler.pollReady_some pending
        refine ⟨ready, readiness, found, by simpa using active, channel, ?_⟩
        split at polled
        · cases polled
          exact ⟨rfl, rfl, rfl, rfl, rfl, [], by simp⟩
        · split at polled
          · cases polled
            exact ⟨rfl, rfl, rfl, rfl, rfl, [], by simp⟩
          · cases polled
            exact ⟨rfl, rfl, rfl, rfl, rfl, _, rfl⟩

theorem drop_cases {waiter : Nat} (dropped : socket.drop waiter = some next) :
    ∃ ready, socket.waiting[waiter]? = some ready ∧
      next = { socket with
        handler := { socket.handler with
          readiness := fun other => if other = ready.oneTimeId then
            (socket.handler.readiness other).map fun channel => { channel with listening := false }
            else socket.handler.readiness other }
        waiting := socket.waiting.eraseIdx waiter } := by
  unfold Socket.drop at dropped
  split at dropped
  · cases dropped
  next ready found =>
    cases dropped
    exact ⟨ready, found, by rw [Handler.hangUp_eq]⟩

/-- What one step can do. The fields that a case does not mention stay the same. -/
inductive Transition (snow : Snow H S) (socket next : Socket H S) : Label → Prop where
  | connect (id : SessionId) (oneTimeId : OneTimeId) (request : Request)
      (fresh : oneTimeId ∉ socket.issued.map Prod.snd)
      (connected : next = socket.connect (request.insert snow (socket.handler.removeSession id none) id oneTimeId)) :
      Transition snow socket next (.operate (request.operation id oneTimeId))
  | packet (src : SocketAddr) (data : Bytes) (ephemeral : Nat) (packet : SessionPacket)
      (decoded : SessionPacket.codec.deserialize data = some packet)
      (handled : next = { socket with
        handler := socket.handler.handlePacket snow src packet ephemeral
        notified := socket.notified ++ (socket.handler.notifies snow src data ephemeral).toList }) :
      Transition snow socket next (.operate (.handleIncoming src data ephemeral))
  | close (id : SessionId) (oneTimeId : OneTimeId)
      (closed : next = { socket with handler := socket.handler.removeSession id (some oneTimeId) }) :
      Transition snow socket next (.operate (.closeSession id oneTimeId))
  | recvFrom {label : Label} (id : SessionId) (receiving : List (BidirectionalSession × Receiving))
      (received : next = { socket with handler := (socket.handler.recvFrom id).1, receiving }) :
      Transition snow socket next label
  | update {label : Label} (id : SessionId) (change : Session S → Session S)
      (updated : next = { socket with handler := socket.handler.updateEstablished id change }) :
      Transition snow socket next label
  | idle {label : Label} (same : next = socket) : Transition snow socket next label
  | poll (waiter : Nat) (waker : Waker) (polled : socket.poll waiter waker = some next) :
      Transition snow socket next (.poll waiter waker)
  | drop (waiter : Nat) (dropped : socket.drop waiter = some next) : Transition snow socket next (.drop waiter)

theorem operate_transition {operation : Handler.Operation} (operated : socket.operate snow operation = some next) :
    Transition snow socket next (.operate operation) := by
  cases operation with
  | initiate id info ephemeral oneTimeId =>
    simp only [Socket.operate] at operated
    split at operated
    · cases operated
    next fresh =>
      cases operated
      exact .connect id oneTimeId (.initiate info ephemeral) (by simpa using fresh) rfl
  | respond id info oneTimeId =>
    simp only [Socket.operate] at operated
    split at operated
    · cases operated
    next fresh =>
      cases operated
      exact .connect id oneTimeId (.respond info) (by simpa using fresh) rfl
  | handleIncoming src data ephemeral =>
    cases decoded : SessionPacket.codec.deserialize data with
    | none =>
      simp only [Socket.operate, Handler.handleIncoming, Handler.notifies, decoded] at operated
      cases operated
      exact .idle (by simp)
    | some packet =>
      refine .packet src data ephemeral packet decoded ?_
      simp only [Socket.operate, Handler.handleIncoming, decoded] at operated
      cases operated
      rfl
  | send id data =>
    cases operated
    refine .update id (fun session => (session.send snow.toCipher data).1) ?_
    simp only [Handler.step, Handler.send_eq_update]
  | recvFrom id =>
    cases operated
    exact .recvFrom id socket.receiving rfl
  | closeSession id oneTimeId =>
    cases operated
    exact .close id oneTimeId rfl
  | keepalive id =>
    cases operated
    exact .update id _ rfl
  | checkHeartbeat id =>
    cases operated
    exact .update id _ rfl

theorem send_fst (cipher : Cipher S) (handler : Handler H S) (handle : BidirectionalSession) (data : Bytes) :
    (handle.send cipher handler data).1 = (handler.send cipher handle.id data).1 := by
  unfold BidirectionalSession.send
  split
  next sent => rw [sent]
  next sent => rw [sent]
  next sent => rw [sent]

theorem recv_fst (handler : Handler H S) (handle : BidirectionalSession) :
    (handle.recv handler).1 = (handler.recvFrom handle.id).1 := by
  unfold BidirectionalSession.recv
  split
  next received => rw [received]
  next received => rw [received]

theorem step_transition {label : Label} (stepped : socket.step snow label = some next) :
    Transition snow socket next label := by
  cases label with
  | operate operation => exact operate_transition stepped
  | poll waiter waker => exact .poll waiter waker stepped
  | drop waiter => exact .drop waiter stepped
  | send handle data =>
    simp only [step] at stepped
    split at stepped
    · cases stepped
    next handle _ =>
      cases stepped
      refine .update handle.id (fun session => (session.send snow.toCipher data).1) ?_
      rw [send_fst, Handler.send_eq_update]
  | recv handle =>
    simp only [step] at stepped
    split at stepped
    · cases stepped
    next handle _ =>
      have received := recv_fst socket.handler handle
      split at stepped
      next handler error failed =>
        rw [failed] at received
        cases stepped
        exact .recvFrom handle.id socket.receiving (by rw [← received])
      next handler receiving succeeded =>
        rw [succeeded] at received
        cases stepped
        exact .recvFrom handle.id (socket.receiving ++ [(handle, receiving)]) (by rw [← received])
  | pollReceiving future id waker =>
    simp only [step] at stepped
    split at stepped
    · cases stepped
    next handle receiving _ =>
      cases stepped
      simp only [Handler.pollReceiving]
      cases found : socket.handler.establishedSessions handle.id with
      | none => exact .idle rfl
      | some entry =>
        simp only
        split
        · exact .update handle.id (fun session => (session.poll id waker).1) (by simp [Handler.updateEstablished, found])
        · exact .idle rfl

end Socket

/-- The ledger of a socket. -/
structure Kept (socket : Socket H S) (ledger : Ledger SessionId OneTimeId Place) : Prop where
  represents : Represents socket.handler.registered ledger.entries
  issued : ledger.issued = socket.issued

namespace Kept

variable {snow : Snow H S} {socket next : Socket H S} {ledger : Ledger SessionId OneTimeId Place}

theorem start (keypair : SnowKeypair) : Kept (Socket.start keypair : Socket H S) ⟨fun _ => none, []⟩ := by
  refine ⟨?_, rfl⟩
  intro place id oneTimeId
  cases place <;> simp [Socket.start, Handler.new, Handler.registered]

theorem stay (kept : Kept socket ledger) (registered : next.handler.registered = socket.handler.registered)
    (issued : next.issued = socket.issued) : ∃ after, Move Place.Advances ledger after ∧ Kept next after :=
  ⟨ledger, .stay rfl, by rw [registered]; exact kept.represents, kept.issued.trans issued.symm⟩

theorem leave (kept : Kept socket ledger) (id : SessionId) (cleared : ∀ place, next.handler.registered place id = none)
    (others : ∀ place key, key ≠ id → next.handler.registered place key = socket.handler.registered place key)
    (issued : next.issued = socket.issued) : ∃ after, Move Place.Advances ledger after ∧ Kept next after :=
  ⟨⟨Function.update ledger.entries id none, ledger.issued⟩,
    .leave id (by simp) (fun other different => Function.update_of_ne different _ _) rfl,
    kept.represents.leave cleared others, kept.issued.trans issued.symm⟩

theorem clear (kept : Kept socket ledger) {place : Place} {id : SessionId}
    (cleared : next.handler.registered = Registry.clear socket.handler.registered place id)
    (issued : next.issued = socket.issued) : ∃ after, Move Place.Advances ledger after ∧ Kept next after := by
  cases found : socket.handler.registered place id with
  | none =>
    refine kept.stay ?_ issued
    rw [cleared]
    funext other key
    by_cases same : other = place ∧ key = id
    · rw [same.1, same.2, Registry.clear_same, found]
    · exact Registry.clear_other same
  | some oneTimeId =>
    have held := (kept.represents place id oneTimeId).mp found
    refine kept.leave id ?_ ?_ issued
    · intro other
      rw [cleared]
      by_cases same : other = place
      · rw [same, Registry.clear_same]
      · exact Registry.clear_of_none (kept.represents.other held same)
    · intro other key different
      rw [cleared]
      exact Registry.clear_other fun same => different same.2

theorem connect (kept : Kept socket ledger) (snow : Snow H S) (id : SessionId) (oneTimeId : OneTimeId) (request : Request)
    (fresh : oneTimeId ∉ socket.issued.map Prod.snd) :
    ∃ after, Move Place.Advances ledger after ∧
      Kept (socket.connect (request.insert snow (socket.handler.removeSession id none) id oneTimeId)) after := by
  have swept := socket.handler.registered_removeSession id none
  have others : ∀ place key, key ≠ id →
      (socket.handler.removeSession id none).registered place key = socket.handler.registered place key := by
    intro place key different
    simp [swept, different]
  rcases Request.insert_cases snow (socket.handler.removeSession id none) id oneTimeId request with
    failed | ⟨handler, ready, inserted, -, registered⟩
  · rw [failed]
    exact kept.leave id (fun place => by simp [Socket.connect, swept]) others rfl
  · obtain ⟨rfl, -⟩ := Request.insert_ready inserted
    rw [inserted]
    refine ⟨⟨Function.update ledger.entries id (some (request.place, oneTimeId)), ledger.issued ++ [(id, oneTimeId)]⟩,
      .enter id request.place oneTimeId (kept.issued ▸ fresh) (by simp)
        (fun other different => Function.update_of_ne different _ _) rfl,
      kept.represents.enter ?_ ?_ ?_, by simp [Socket.connect, kept.issued]⟩
    · simp only [Socket.connect, registered, Registry.put_same]
    · intro other different
      simp only [Socket.connect, registered]
      rw [Registry.put_other fun same => different same.1]
      simp [swept]
    · intro other key different
      simp only [Socket.connect, registered]
      rw [Registry.put_other fun same => different same.2]
      exact others other key different

theorem handlePacket (kept : Kept socket ledger) (src : SocketAddr) (packet : SessionPacket) (ephemeral : Nat)
    (handler : next.handler = socket.handler.handlePacket snow src packet ephemeral) (issued : next.issued = socket.issued) :
    ∃ after, Move Place.Advances ledger after ∧ Kept next after := by
  cases found : socket.handler.fate snow src packet ephemeral with
  | none => exact kept.stay (by rw [handler, (Handler.handlePacket_idle found).1]) issued
  | some decided =>
    obtain ⟨oneTimeId, fate⟩ := decided
    obtain ⟨pending, -, allowed⟩ := Handler.fate_pending found
    have registered := (Handler.handlePacket_fate found).1
    rw [← handler] at registered
    cases fate with
    | keep place => exact kept.stay registered issued
    | discard place => exact kept.clear registered issued
    | advance before after =>
      have held := (kept.represents before packet.id oneTimeId).mp pending
      have different : after ≠ before := by
        rintro rfl
        rcases (allowed after after rfl).cases with ⟨first, second⟩ | ⟨first, second⟩ | ⟨first, second⟩
        all_goals
          rw [first] at second
          cases second
      refine ⟨⟨Function.update ledger.entries packet.id (some (after, oneTimeId)), ledger.issued⟩,
        .advance packet.id before after oneTimeId held (allowed before after rfl) (by simp)
          (fun other different => Function.update_of_ne different _ _) rfl,
        kept.represents.enter ?_ ?_ ?_, kept.issued.trans issued.symm⟩
      · simp [registered, Fate.apply]
      · intro other elsewhere
        rw [registered, Fate.apply, Registry.put_other fun same => elsewhere same.1]
        by_cases source : other = before
        · rw [source, Registry.clear_same]
        · exact Registry.clear_of_none (kept.represents.other held source)
      · intro other key elsewhere
        rw [registered, Fate.apply, Registry.put_other fun same => elsewhere same.2]
        exact Registry.clear_other fun same => elsewhere same.2

theorem closeSession (kept : Kept socket ledger) (id : SessionId) (oneTimeId : OneTimeId)
    (handler : next.handler = socket.handler.removeSession id (some oneTimeId)) (issued : next.issued = socket.issued) :
    ∃ after, Move Place.Advances ledger after ∧ Kept next after := by
  have registered := socket.handler.registered_removeSession id (some oneTimeId)
  rw [← handler] at registered
  by_cases found : ∃ place, socket.handler.registered place id = some oneTimeId
  · obtain ⟨place, found⟩ := found
    have held := (kept.represents place id oneTimeId).mp found
    refine kept.leave id ?_ ?_ issued
    · intro other
      rw [registered]
      by_cases same : other = place
      · simp [same, found]
      · simp [kept.represents.other held same]
    · intro other key different
      simp [registered, different]
  · refine kept.stay ?_ issued
    funext place key
    rw [registered]
    simp only [reduceCtorEq, false_or]
    rw [if_neg]
    rintro ⟨rfl, held⟩
    exact found ⟨place, held⟩

theorem recvFrom (kept : Kept socket ledger) (id : SessionId) (handler : next.handler = (socket.handler.recvFrom id).1)
    (issued : next.issued = socket.issued) : ∃ after, Move Place.Advances ledger after ∧ Kept next after := by
  rcases socket.handler.registered_recvFrom id with same | cleared
  · exact kept.stay (by rw [handler, same]) issued
  · exact kept.clear (by rw [handler, cleared]) issued

theorem step (kept : Kept socket ledger) {label : Socket.Label} (transition : Socket.Transition snow socket next label) :
    ∃ after, Move Place.Advances ledger after ∧ Kept next after := by
  cases transition with
  | connect id oneTimeId request fresh connected => exact connected ▸ kept.connect snow id oneTimeId request fresh
  | packet src data ephemeral packet decoded handled =>
    exact kept.handlePacket src packet ephemeral (by rw [handled]) (by rw [handled])
  | close id oneTimeId closed => exact kept.closeSession id oneTimeId (by rw [closed]) (by rw [closed])
  | recvFrom id receiving received => exact kept.recvFrom id (by rw [received]) (by rw [received])
  | update id change updated =>
    exact kept.stay (by rw [updated]; exact socket.handler.registered_updateEstablished id change) (by rw [updated])
  | idle same => exact kept.stay (by rw [same]) (by rw [same])
  | poll waiter waker polled =>
    obtain ⟨ready, readiness, -, -, -, handler, -, issued, -⟩ := Socket.poll_cases polled
    exact kept.stay (by rw [handler]; rfl) issued
  | drop waiter dropped =>
    obtain ⟨ready, -, same⟩ := Socket.drop_cases dropped
    exact kept.stay (by rw [same]; rfl) (by rw [same])

theorem run (labels : List Socket.Label) (kept : Kept socket ledger) (valid : Valid ledger)
    (reached : Runs.run (Socket.step snow) socket labels = some next) :
    ∃ after, Kept next after ∧ Valid after ∧ Follows Place.Advances ledger after := by
  induction labels generalizing socket ledger with
  | nil =>
    cases reached
    exact ⟨ledger, kept, valid, .refl ledger⟩
  | cons label labels ih =>
    obtain ⟨middle, stepped, rest⟩ := Runs.run_cons reached
    obtain ⟨between, moved, held⟩ := kept.step (Socket.step_transition stepped)
    obtain ⟨after, final, sound, follows⟩ := ih held (valid.move moved) rest
    exact ⟨after, final, sound, (Follows.move moved).trans follows⟩

end Kept

namespace Handler

variable {snow : Snow H S} {handler : Handler H S} {src : SocketAddr} {data : Bytes} {ephemeral : Nat}

theorem notifies_some {oneTimeId : OneTimeId} (notified : handler.notifies snow src data ephemeral = some oneTimeId) :
    ∃ packet before, SessionPacket.codec.deserialize data = some packet ∧
      handler.fate snow src packet ephemeral = some (oneTimeId, .advance before .established) ∧
      handler.isListening oneTimeId = true := by
  unfold notifies at notified
  split at notified
  · cases notified
  next packet decoded =>
    split at notified
    next other before decided =>
      split at notified
      next listening =>
        cases notified
        exact ⟨packet, before, decoded, decided, listening⟩
      next => cases notified
    next => cases notified

theorem handleIncoming_notifications (snow : Snow H S) (handler : Handler H S) (src : SocketAddr) (data : Bytes)
    (ephemeral : Nat) (oneTimeId : OneTimeId) :
    ((handler.handleIncoming snow src data ephemeral).1.readiness oneTimeId).map Readiness.notifications =
      (handler.readiness oneTimeId).map fun channel =>
        channel.notifications + (handler.notifies snow src data ephemeral).toList.count oneTimeId := by
  unfold handleIncoming notifies
  cases SessionPacket.codec.deserialize data with
  | none => simp
  | some packet =>
    simp only
    cases decided : handler.fate snow src packet ephemeral with
    | none => simp [(handlePacket_idle decided).2]
    | some outcome =>
      obtain ⟨other, fate⟩ := outcome
      rw [(handlePacket_fate decided).2 oneTimeId]
      cases fate with
      | keep place => simp
      | discard place => simp
      | advance before after =>
        cases after with
        | established =>
          cases channel : handler.readiness oneTimeId with
          | none => simp
          | some readiness =>
            by_cases same : oneTimeId = other
            · subst same
              cases listening : readiness.listening with
              | true => simp [Fate.source, isListening, channel, listening, announce]
              | false => simp [Fate.source, isListening, channel, listening, announce]
            · have absent : (if handler.isListening other = true then some other else none).toList.count oneTimeId = 0 := by
                rw [List.count_eq_zero]
                split
                · simpa using same
                · simp
              simp [same, absent]
        | responder => simp [Fate.source]
        | poker => simp [Fate.source]
        | initiator => simp [Fate.source]

end Handler

namespace Socket

variable {snow : Snow H S} {socket next : Socket H S} {label : Label}

/-- A notification is sent for an entry that moves to the established sessions. -/
theorem Transition.notified (transition : Transition snow socket next label) :
    next.notified = socket.notified ∨ ∃ oneTimeId place id, next.notified = socket.notified ++ [oneTimeId] ∧
      place ≠ .established ∧ socket.handler.registered place id = some oneTimeId ∧
      next.handler.registered .established id = some oneTimeId := by
  cases transition with
  | packet src data ephemeral packet decoded handled =>
    subst handled
    cases notified : socket.handler.notifies snow src data ephemeral with
    | none => exact .inl (by simp)
    | some oneTimeId =>
      obtain ⟨packet, before, decodes, decided, -⟩ := Handler.notifies_some notified
      cases decoded.symm.trans decodes
      obtain ⟨pending, elsewhere, -⟩ := Handler.fate_pending decided
      refine .inr ⟨oneTimeId, before, packet.id, rfl, elsewhere, pending, ?_⟩
      simp only [(Handler.handlePacket_fate decided).1, Fate.apply, Registry.put_same]
  | connect id oneTimeId request fresh connected =>
    subst connected
    rcases Request.insert_cases snow (socket.handler.removeSession id none) id oneTimeId request with
      failed | ⟨handler, ready, inserted, -⟩
    · exact .inl (by rw [failed]; rfl)
    · exact .inl (by rw [inserted]; rfl)
  | close id oneTimeId closed => exact .inl (by rw [closed])
  | recvFrom id receiving received => exact .inl (by rw [received])
  | update id change updated => exact .inl (by rw [updated])
  | idle same => exact .inl (by rw [same])
  | poll waiter waker polled =>
    obtain ⟨_, _, -, -, -, -, -, -, notified, -⟩ := poll_cases polled
    exact .inl notified
  | drop waiter dropped =>
    obtain ⟨_, -, same⟩ := drop_cases dropped
    exact .inl (by rw [same])

/-- A one-time id that was notified is established or gone. -/
structure Announced (socket : Socket H S) : Prop where
  nodup : socket.notified.Nodup
  issued : ∀ oneTimeId ∈ socket.notified, oneTimeId ∈ socket.issued.map Prod.snd
  settled : ∀ oneTimeId ∈ socket.notified, ∀ place id, socket.handler.registered place id = some oneTimeId →
    place = .established

theorem Announced.step (announced : socket.Announced) {ledger after : Ledger SessionId OneTimeId Place}
    (kept : Kept socket ledger) (valid : Valid ledger) (moved : Move Place.Advances ledger after) (keeps : Kept next after)
    (transition : Transition snow socket next label) : next.Announced := by
  have follows := Follows.move moved
  have validNext := valid.move moved
  have issued : socket.issued.map Prod.snd ⊆ next.issued.map Prod.snd := by
    rw [← kept.issued, ← keeps.issued]
    exact List.map_subset _ follows.issued
  have settled : ∀ oneTimeId ∈ socket.notified, ∀ place id, next.handler.registered place id = some oneTimeId →
      place = .established := by
    intro oneTimeId member place id found
    have held := (keeps.represents place id oneTimeId).mp found
    obtain ⟨⟨key, token⟩, known, rfl⟩ := List.mem_map.mp (kept.issued ▸ announced.issued oneTimeId member)
    obtain rfl := validNext.same_key (validNext.tracked id place token held) (follows.issued known)
    obtain ⟨before, origin, advances⟩ := follows.stages id place token held known
    obtain rfl := announced.settled token member before id ((kept.represents before id token).mpr origin)
    exact Place.established_last advances
  rcases transition.notified with same | ⟨oneTimeId, place, id, grown, elsewhere, pending, established⟩
  · exact ⟨same ▸ announced.nodup, fun other member => issued (announced.issued other (same ▸ member)), same ▸ settled⟩
  · have new : oneTimeId ∉ socket.notified := fun member =>
      elsewhere (announced.settled oneTimeId member place id pending)
    have held := (keeps.represents .established id oneTimeId).mp established
    refine ⟨?_, ?_, ?_⟩
    · rw [grown]
      refine List.nodup_append.mpr ⟨announced.nodup, by simp, ?_⟩
      rintro other member another added rfl
      exact new (List.mem_singleton.mp added ▸ member)
    · intro other member
      rcases List.mem_append.mp (grown ▸ member) with old | added
      · exact issued (announced.issued other old)
      · rw [List.mem_singleton.mp added, ← keeps.issued]
        exact List.mem_map.mpr ⟨_, validNext.tracked id .established oneTimeId held, rfl⟩
    · intro other member current key found
      rcases List.mem_append.mp (grown ▸ member) with old | added
      · exact settled other old current key found
      · rw [List.mem_singleton.mp added] at found
        exact (validNext.single ((keeps.represents current key oneTimeId).mp found) held).2

theorem announced_run (labels : List Label) {ledger : Ledger SessionId OneTimeId Place} (kept : Kept socket ledger)
    (valid : Valid ledger) (announced : socket.Announced) (reached : Runs.run (step snow) socket labels = some next) :
    next.Announced := by
  induction labels generalizing socket ledger with
  | nil =>
    cases reached
    exact announced
  | cons label labels ih =>
    obtain ⟨middle, stepped, rest⟩ := Runs.run_cons reached
    have transition := step_transition stepped
    obtain ⟨between, moved, held⟩ := kept.step transition
    exact ih held (valid.move moved) (announced.step kept valid moved held transition) rest

/-- In every state that is reached an id has at most one entry and a one-time id
stands in at most one place, under the id it was issued for. From any point of a
run to a later one, entries only advance and those that left do not return. The
notification of a one-time id is sent once, by the packet that moves its entry to
the established sessions. -/
theorem registry_invariant (snow : Snow H S) (keypair : SnowKeypair) (labels later : List Label) (socket final : Socket H S)
    (reached : Runs.run (step snow) (start keypair) labels = some socket)
    (continued : Runs.run (step snow) socket later = some final) :
    (∀ id first second one two, socket.handler.registered first id = some one →
      socket.handler.registered second id = some two → first = second) ∧
    (∀ oneTimeId first second firstId secondId, socket.handler.registered first firstId = some oneTimeId →
      socket.handler.registered second secondId = some oneTimeId → first = second ∧ firstId = secondId) ∧
    (socket.issued.map Prod.snd).Nodup ∧
    (∀ oneTimeId place id, socket.handler.registered place id = some oneTimeId → (id, oneTimeId) ∈ socket.issued) ∧
    (∀ oneTimeId before after id key, socket.handler.registered before id = some oneTimeId →
      final.handler.registered after key = some oneTimeId → key = id ∧ Relation.ReflTransGen Place.Advances before after) ∧
    (∀ oneTimeId ∈ socket.issued.map Prod.snd, (∀ place id, socket.handler.registered place id ≠ some oneTimeId) →
      ∀ place id, final.handler.registered place id ≠ some oneTimeId) ∧
    socket.notified.Nodup ∧
    (∀ label next, socket.step snow label = some next → ∀ oneTimeId ∈ next.notified,
      oneTimeId ∈ socket.notified ∨ ∃ place id, place ≠ .established ∧
        socket.handler.registered place id = some oneTimeId ∧ next.handler.registered .established id = some oneTimeId) ∧
    (∀ src data ephemeral oneTimeId,
      ((socket.handler.handleIncoming snow src data ephemeral).1.readiness oneTimeId).map Readiness.notifications =
        (socket.handler.readiness oneTimeId).map fun channel =>
          channel.notifications + (socket.handler.notifies snow src data ephemeral).toList.count oneTimeId) := by
  have empty : Valid (⟨fun _ => none, []⟩ : Ledger SessionId OneTimeId Place) := ⟨.nil, by simp⟩
  obtain ⟨ledger, kept, valid, -⟩ := (Kept.start keypair).run labels empty reached
  obtain ⟨after, keeps, validLater, follows⟩ := kept.run later valid continued
  have announced := announced_run labels (Kept.start keypair) empty
    ⟨.nil, by simp [start], by simp [start]⟩ reached
  have issuedLater : ∀ {place id oneTimeId}, final.handler.registered place id = some oneTimeId →
      ∀ {key}, (key, oneTimeId) ∈ ledger.issued → key = id := by
    intro place id oneTimeId found key known
    exact validLater.same_key (follows.issued known)
      (validLater.tracked id place oneTimeId ((keeps.represents place id oneTimeId).mp found))
  refine ⟨?_, ?_, kept.issued ▸ valid.unique, ?_, ?_, ?_, announced.nodup, ?_, ?_⟩
  · intro id first second one two held other
    have same := ((kept.represents first id one).mp held).symm.trans ((kept.represents second id two).mp other)
    exact congrArg Prod.fst (Option.some.inj same)
  · intro oneTimeId first second firstId secondId held other
    obtain ⟨key, place⟩ := valid.single ((kept.represents first firstId oneTimeId).mp held)
      ((kept.represents second secondId oneTimeId).mp other)
    exact ⟨place, key⟩
  · intro oneTimeId place id held
    exact kept.issued ▸ valid.tracked id place oneTimeId ((kept.represents place id oneTimeId).mp held)
  · intro oneTimeId before stage id key held found
    have origin := (kept.represents before id oneTimeId).mp held
    have known := valid.tracked id before oneTimeId origin
    obtain rfl := issuedLater found known
    obtain ⟨first, start, advances⟩ := follows.stages id stage oneTimeId ((keeps.represents stage id oneTimeId).mp found) known
    cases origin.symm.trans start
    exact ⟨rfl, advances⟩
  · intro oneTimeId member gone place id found
    obtain ⟨⟨key, token⟩, known, rfl⟩ := List.mem_map.mp (kept.issued ▸ member)
    obtain rfl := issuedLater found known
    refine follows.absent known ?_ place ((keeps.represents place key token).mp found)
    intro stage held
    exact gone stage key ((kept.represents stage key token).mpr held)
  · intro label next stepped oneTimeId member
    rcases (step_transition stepped).notified with same | ⟨new, place, id, grown, elsewhere, pending, established⟩
    · exact .inl (same ▸ member)
    · rcases List.mem_append.mp (grown ▸ member) with old | added
      · exact .inl old
      · rw [List.mem_singleton.mp added]
        exact .inr ⟨place, id, elsewhere, pending, established⟩
  · exact fun src data ephemeral oneTimeId => socket.handler.handleIncoming_notifications snow src data ephemeral oneTimeId

/-- An initiator whose response arrives, and the close of its session. -/
theorem registry_invariant_established :
    ∃ socket final,
      Runs.run (step Handler.fixedSnow) (start ⟨[1], [2]⟩) [.operate (.initiate 7 ⟨[], [9]⟩ 0 40),
        .operate (.handleIncoming (.v4 1 1) (Handler.packetFor 7 (.handshakeResponse [2])) 0)] = some socket ∧
      Runs.run (step Handler.fixedSnow) socket [.operate (.closeSession 7 40)] = some final ∧
      socket.handler.registered .established 7 = some 40 ∧ socket.notified = [40] ∧ socket.notified.Nodup := by
  refine ⟨_, _, rfl, rfl, by decide, by decide, ?_⟩
  exact (registry_invariant Handler.fixedSnow ⟨[1], [2]⟩ [.operate (.initiate 7 ⟨[], [9]⟩ 0 40),
    .operate (.handleIncoming (.v4 1 1) (Handler.packetFor 7 (.handshakeResponse [2])) 0)] [.operate (.closeSession 7 40)]
    _ _ rfl rfl).2.2.2.2.2.2.1

end Socket
end Veq
