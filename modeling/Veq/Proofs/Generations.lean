import Veq.Proofs.Lifetime

/-! Handles across the generations of a session id. A close compares the one-time
id of its handle with that of the entry; `send` and `recv_from` look the entry up
by session id alone, so a handle that outlives its session reaches the next one. -/

namespace Veq
open Rust Bincode Lifecycle

variable {H S : Type} {snow : Snow H S}

namespace BidirectionalSession

variable {handler : Handler H S} {handle : BidirectionalSession} {cipher : Cipher S} {data : Bytes}

/-- What is established under the id of the handle is its own session, if it still lives. -/
def Current (handler : Handler H S) (handle : BidirectionalSession) : Prop :=
  ∀ entry ∈ handler.establishedSessions handle.id, entry.1 = handle.oneTimeId ∨ entry.2.isDead = true

instance decidableCurrent (handler : Handler H S) (handle : BidirectionalSession) : Decidable (Current handler handle) :=
  Option.decidableForallMem _

/-- A send uses the session of the handle, or fails and changes nothing. -/
def SendsOnOwn (cipher : Cipher S) (handler : Handler H S) (handle : BidirectionalSession) (data : Bytes) : Prop :=
  (∃ session, handler.establishedSessions handle.id = some (handle.oneTimeId, session) ∧
    (handle.send cipher handler data).1 =
      handler.putEstablished handle.id (handle.oneTimeId, (session.send cipher data).1) ∧
    ∀ outgoing, (handle.send cipher handler data).2 = .ok (.ok outgoing) ↔ (session.send cipher data).2 = .ok outgoing) ∨
  handle.send cipher handler data = (handler, .ok (.error .disconnected))

/-- A receive listens to the session of the handle, or fails and at most clears
away a dead entry. -/
def ReceivesFromOwn (handler : Handler H S) (handle : BidirectionalSession) : Prop :=
  (∃ session, handler.establishedSessions handle.id = some (handle.oneTimeId, session) ∧
    handle.recv handler = (handler, .ok ⟨handle.oneTimeId⟩)) ∨
  (handle.recv handler = (handler, .error .disconnected)) ∨
  ∃ oneTimeId session, handler.establishedSessions handle.id = some (oneTimeId, session) ∧ session.isDead = true ∧
    handle.recv handler =
      ({ handler with establishedSessions := handler.establishedSessions.remove handle.id }, .error .disconnected)

/-- A poll of a receive takes its message from the session of the handle, or fails. -/
def TakesFromOwn (handler : Handler H S) (handle : BidirectionalSession) (receiving : Receiving) (future : Uuid)
    (waker : Waker) : Prop :=
  (∃ session, handler.establishedSessions handle.id = some (handle.oneTimeId, session) ∧
    handler.pollReceiving handle.id receiving future waker =
      (handler.putEstablished handle.id (handle.oneTimeId, (session.poll future waker).1), (session.poll future waker).2)) ∨
  handler.pollReceiving handle.id receiving future waker = (handler, .ready (.error .disconnected))

theorem putEstablished_same {id : SessionId} {entry : OneTimeId × Session S}
    (found : handler.establishedSessions id = some entry) : handler.putEstablished id entry = handler := by
  have same : handler.establishedSessions.insert id entry = handler.establishedSessions := by
    funext key
    by_cases here : key = id
    · rw [here, HashMap.insert_same, found]
    · rw [HashMap.insert_other _ _ here]
  rw [Handler.putEstablished, same]

theorem send_absent (absent : handler.establishedSessions handle.id = none) :
    handle.send cipher handler data = (handler, .ok (.error .disconnected)) := by
  simp [BidirectionalSession.send, Handler.send, absent]

theorem send_dead {oneTimeId : OneTimeId} {session : Session S}
    (found : handler.establishedSessions handle.id = some (oneTimeId, session)) (dead : session.isDead = true) :
    handle.send cipher handler data = (handler, .ok (.error .disconnected)) := by
  simp [BidirectionalSession.send, Handler.send, Session.send, found, dead, putEstablished_same found]

theorem send_outgoing {oneTimeId : OneTimeId} {session : Session S}
    (found : handler.establishedSessions handle.id = some (oneTimeId, session)) (outgoing : Outgoing) :
    (handle.send cipher handler data).2 = .ok (.ok outgoing) ↔ (session.send cipher data).2 = .ok outgoing := by
  simp only [BidirectionalSession.send, Handler.send, found]
  cases (session.send cipher data).2 with
  | ok other => simp
  | error failure => cases failure <;> simp

theorem Current.sendsOnOwn (current : Current handler handle) : SendsOnOwn cipher handler handle data := by
  cases found : handler.establishedSessions handle.id with
  | none => exact .inr (send_absent found)
  | some entry =>
    obtain ⟨oneTimeId, session⟩ := entry
    rcases current _ found with rfl | dead
    · refine .inl ⟨session, found, ?_, send_outgoing found⟩
      rw [Socket.send_fst]
      simp [Handler.send, found]
    · exact .inr (send_dead found dead)

/-- Encryption that does not panic uses up a nonce. -/
theorem encrypt_same {session : Session S} {message : Message} (same : (session.encrypt cipher message).1 = session) :
    ∃ panic, (session.encrypt cipher message).2 = .error (.panic panic) := by
  cases added : addU64 session.transport.nextNonce 1 with
  | error panic => exact ⟨panic, by simp [Session.encrypt, LossyTransportState.writeMessage, added]⟩
  | ok nextNonce =>
    have advanced : (session.encrypt cipher message).1.transport.nextNonce = nextNonce := by
      simp only [Session.encrypt, LossyTransportState.writeMessage, added]
      split
      next written =>
        split at written
        · cases written
          rfl
        · cases written
      next written =>
        split at written
        · cases written
        · cases written
          split <;> rfl
    obtain ⟨sum, -⟩ := addU64_ok added
    rw [same] at advanced
    omega

theorem SendsOnOwn.current (own : SendsOnOwn cipher handler handle data) : Current handler handle := by
  rintro ⟨oneTimeId, session⟩ (found : _ = _)
  rcases own with ⟨mine, held, -⟩ | failed
  · cases held.symm.trans found
    exact .inl rfl
  · by_contra! another
    have living : session.isDead = false := by simpa using another.2
    have sent : handler.send cipher handle.id data =
        (handler.putEstablished handle.id (oneTimeId, (session.encrypt cipher (.payload data)).1),
          (session.encrypt cipher (.payload data)).2) := by
      simp [Handler.send, Session.send, found, living]
    have kept : handler.putEstablished handle.id (oneTimeId, (session.encrypt cipher (.payload data)).1) = handler := by
      have first := congrArg Prod.fst failed
      rwa [Socket.send_fst, sent] at first
    have same : (session.encrypt cipher (.payload data)).1 = session := by
      have entry := congrArg (fun handler => handler.establishedSessions handle.id) kept
      simpa [Handler.putEstablished, found] using entry
    obtain ⟨panic, panicked⟩ := encrypt_same same
    simp [BidirectionalSession.send, sent, panicked] at failed

theorem recv_absent (absent : handler.establishedSessions handle.id = none) :
    handle.recv handler = (handler, .error .disconnected) := by
  simp [BidirectionalSession.recv, Handler.recvFrom, absent]

theorem recv_live {oneTimeId : OneTimeId} {session : Session S}
    (found : handler.establishedSessions handle.id = some (oneTimeId, session)) (living : session.isDead = false) :
    handle.recv handler = (handler, .ok ⟨oneTimeId⟩) := by
  simp [BidirectionalSession.recv, Handler.recvFrom, found, living]

theorem recv_dead {oneTimeId : OneTimeId} {session : Session S}
    (found : handler.establishedSessions handle.id = some (oneTimeId, session)) (dead : session.isDead = true) :
    handle.recv handler =
      ({ handler with establishedSessions := handler.establishedSessions.remove handle.id }, .error .disconnected) := by
  simp [BidirectionalSession.recv, Handler.recvFrom, found, dead]

theorem Current.receivesFromOwn (current : Current handler handle) : ReceivesFromOwn handler handle := by
  cases found : handler.establishedSessions handle.id with
  | none => exact .inr (.inl (recv_absent found))
  | some entry =>
    obtain ⟨oneTimeId, session⟩ := entry
    cases living : session.isDead with
    | true => exact .inr (.inr ⟨oneTimeId, session, found, living, recv_dead found living⟩)
    | false =>
      rcases current _ found with rfl | dead
      · exact .inl ⟨session, found, recv_live found living⟩
      · cases living.symm.trans dead

theorem ReceivesFromOwn.current (own : ReceivesFromOwn handler handle) : Current handler handle := by
  rintro ⟨oneTimeId, session⟩ found
  by_contra! another
  have living : session.isDead = false := by simpa using another.2
  have received := recv_live found living
  rcases own with ⟨mine, held, -⟩ | failed | ⟨-, -, -, -, failed⟩
  · cases held.symm.trans found
    exact another.1 rfl
  · cases congrArg Prod.snd (received.symm.trans failed)
  · cases congrArg Prod.snd (received.symm.trans failed)

theorem takesFromOwn (handler : Handler H S) (handle : BidirectionalSession) (future : Uuid) (waker : Waker) :
    TakesFromOwn handler handle ⟨handle.oneTimeId⟩ future waker := by
  cases found : handler.establishedSessions handle.id with
  | none => exact .inr (by simp [Handler.pollReceiving, found])
  | some entry =>
    obtain ⟨oneTimeId, session⟩ := entry
    by_cases mine : oneTimeId = handle.oneTimeId
    · subst mine
      exact .inl ⟨session, found, by simp [Handler.pollReceiving, found]⟩
    · exact .inr (by simp [Handler.pollReceiving, found, mine])

end BidirectionalSession

namespace Socket
open BidirectionalSession (Current SendsOnOwn ReceivesFromOwn TakesFromOwn takesFromOwn)

variable {socket next : Socket H S} {label : Label}

/-- No call through a handle finds another live session under the id of the handle. -/
def Addressed (socket : Socket H S) : Label → Prop
  | .send index _ => ∀ handle ∈ socket.handles[index]?, Current socket.handler handle
  | .recv index => ∀ handle ∈ socket.handles[index]?, Current socket.handler handle
  | _ => True

instance decidableAddressed (socket : Socket H S) : (label : Label) → Decidable (socket.Addressed label)
  | .send _ _ => Option.decidableForallMem _
  | .recv _ => Option.decidableForallMem _
  | .operate _ => inferInstanceAs (Decidable True)
  | .poll _ _ => inferInstanceAs (Decidable True)
  | .drop _ => inferInstanceAs (Decidable True)
  | .pollReceiving _ _ _ => inferInstanceAs (Decidable True)

/-- Every call through a handle acts on the session with the one-time id of the handle. -/
def Isolated (snow : Snow H S) (socket : Socket H S) : Label → Prop
  | .send index data => ∀ handle ∈ socket.handles[index]?, SendsOnOwn snow.toCipher socket.handler handle data
  | .recv index => ∀ handle ∈ socket.handles[index]?, ReceivesFromOwn socket.handler handle
  | .pollReceiving future id waker => ∀ call ∈ socket.receiving[future]?, TakesFromOwn socket.handler call.1 call.2 id waker
  | _ => True

/-- The receives that wait listen to the session of their handle. -/
def Paired (socket : Socket H S) : Prop := ∀ call ∈ socket.receiving, call.2.session = call.1.oneTimeId

theorem connect_receiving (result : Handler H S × Except Failure SessionReady) :
    (socket.connect result).receiving = socket.receiving := by
  obtain ⟨handler, error | ready⟩ := result <;> rfl

theorem operate_receiving {operation : Handler.Operation} (operated : socket.operate snow operation = some next) :
    next.receiving = socket.receiving := by
  cases operation with
  | initiate id info ephemeral oneTimeId =>
    simp only [Socket.operate] at operated
    split at operated
    · cases operated
    · cases operated
      exact connect_receiving _
  | respond id info oneTimeId =>
    simp only [Socket.operate] at operated
    split at operated
    · cases operated
    · cases operated
      exact connect_receiving _
  | handleIncoming src data ephemeral =>
    cases operated
    rfl
  | send id data =>
    cases operated
    rfl
  | recvFrom id =>
    cases operated
    rfl
  | closeSession id oneTimeId =>
    cases operated
    rfl
  | keepalive id =>
    cases operated
    rfl
  | checkHeartbeat id =>
    cases operated
    rfl

theorem step_receiving (stepped : socket.step snow label = some next) :
    next.receiving = socket.receiving ∨
      ∃ index handle receiving, label = .recv index ∧ socket.handles[index]? = some handle ∧
        (handle.recv socket.handler).2 = .ok receiving ∧ next.receiving = socket.receiving ++ [(handle, receiving)] := by
  cases label with
  | operate operation => exact .inl (operate_receiving stepped)
  | poll waiter waker =>
    obtain ⟨ready, readiness, -, -, -, -, -, -, -, same, -⟩ := poll_cases stepped
    exact .inl same
  | drop waiter =>
    obtain ⟨ready, found, rfl⟩ := drop_cases stepped
    exact .inl rfl
  | send handle data =>
    simp only [step] at stepped
    split at stepped
    · cases stepped
    · cases stepped
      exact .inl rfl
  | recv index =>
    simp only [step] at stepped
    split at stepped
    · cases stepped
    next handle found =>
      split at stepped
      · cases stepped
        exact .inl rfl
      next handler receiving received =>
        cases stepped
        exact .inr ⟨index, handle, receiving, rfl, found, by rw [received], rfl⟩
  | pollReceiving future id waker =>
    simp only [step] at stepped
    split at stepped
    · cases stepped
    · cases stepped
      exact .inl rfl

theorem Paired.step (paired : socket.Paired) (addressed : socket.Addressed label)
    (stepped : socket.step snow label = some next) : next.Paired := by
  rcases step_receiving stepped with same | ⟨index, handle, receiving, rfl, found, received, added⟩
  · rw [Paired, same]
    exact paired
  · rw [Paired, added]
    intro call member
    rcases List.mem_append.mp member with old | new
    · exact paired call old
    · rw [List.mem_singleton.mp new]
      rcases (addressed handle found).receivesFromOwn with ⟨session, held, own⟩ | failed | ⟨-, -, -, -, failed⟩
      · rw [own] at received
        cases received
        rfl
      · rw [failed] at received
        cases received
      · rw [failed] at received
        cases received

theorem Paired.isolated (paired : socket.Paired) (addressed : socket.Addressed label) : socket.Isolated snow label := by
  cases label with
  | operate operation => trivial
  | poll waiter waker => trivial
  | drop waiter => trivial
  | send index data => exact fun handle found => (addressed handle found).sendsOnOwn
  | recv index => exact fun handle found => (addressed handle found).receivesFromOwn
  | pollReceiving future id waker =>
    rintro ⟨handle, receiving⟩ found
    obtain rfl : receiving = ⟨handle.oneTimeId⟩ := by
      have own := paired _ (List.mem_of_getElem? found)
      cases receiving
      exact congrArg Receiving.mk own
    exact takesFromOwn socket.handler handle id waker

theorem Isolated.addressed (isolated : socket.Isolated snow label) : socket.Addressed label := by
  cases label with
  | operate operation => trivial
  | poll waiter waker => trivial
  | drop waiter => trivial
  | send index data => exact fun handle found => (isolated handle found).current
  | recv index => exact fun handle found => (isolated handle found).current
  | pollReceiving future id waker => trivial

/-- In every run, the calls through handles act on no session but their own exactly
if none of them is made while another live session stands under its id. -/
theorem handle_isolation (snow : Snow H S) (keypair : SnowKeypair) (labels : List Label) :
    Runs.Meets (step snow) (Isolated snow) (start keypair) labels ↔
      Runs.Meets (step snow) Addressed (start keypair) labels := by
  constructor
  · intro isolated
    exact isolated.imp (fun _ _ _ (_ : True) _ _ => trivial) (fun _ _ _ here => here.addressed) trivial
  · intro addressed
    refine addressed.imp (fun _ _ _ => Paired.step) (fun _ _ => Paired.isolated) ?_
    simp [Paired, start]

/-- A handle of the first connect sends on, and listens to, the session of the second. -/
theorem handle_isolation_reused :
    ∃ socket, Runs.run (step Handler.fixedSnow) (start ⟨[1], [2]⟩) [.operate (.initiate 7 ⟨[], [9]⟩ 0 40),
        .operate (.handleIncoming (.v4 1 1) (Handler.packetFor 7 (.handshakeResponse [2])) 0), .poll 0 3,
        .operate (.initiate 7 ⟨[], [9]⟩ 0 41),
        .operate (.handleIncoming (.v4 1 1) (Handler.packetFor 7 (.handshakeResponse [2])) 0)] = some socket ∧
      socket.handles = [⟨7, 40⟩] ∧ socket.handler.registered .established 7 = some 41 ∧
      (∃ outgoing, (BidirectionalSession.send Handler.fixedSnow.toCipher socket.handler ⟨7, 40⟩ [5]).2 = .ok (.ok outgoing)) ∧
      (BidirectionalSession.recv socket.handler ⟨7, 40⟩).2 = .ok ⟨41⟩ ∧
      ¬ socket.Isolated Handler.fixedSnow (.send 0 [5]) ∧ ¬ socket.Isolated Handler.fixedSnow (.recv 0) := by
  refine ⟨_, rfl, by decide, by decide, ⟨_, rfl⟩, by decide, ?_, ?_⟩
  · intro isolated
    exact absurd isolated.addressed (by decide)
  · intro isolated
    exact absurd isolated.addressed (by decide)

end Socket
end Veq
