import Veq.Calls
import Veq.Proofs.Registry

/-! The effect of one critical section on the registry: which one-time id stands
under which id in which map. Everything that the interleaving of calls can go
wrong about is visible there. -/

namespace Veq
open Rust Bincode

variable {H S : Type}

abbrev Registry := Place → SessionId → Option OneTimeId

namespace Registry

def put (registry : Registry) (place : Place) (id : SessionId) (oneTimeId : OneTimeId) : Registry :=
  fun other key => if other = place ∧ key = id then some oneTimeId else registry other key

def clear (registry : Registry) (place : Place) (id : SessionId) : Registry :=
  fun other key => if other = place ∧ key = id then none else registry other key

variable {registry : Registry} {place other : Place} {id key : SessionId} {oneTimeId : OneTimeId}

@[simp] theorem put_same : registry.put place id oneTimeId place id = some oneTimeId := by
  simp [put]

@[simp] theorem clear_same : registry.clear place id place id = none := by
  simp [clear]

theorem put_other (different : ¬ (other = place ∧ key = id)) : registry.put place id oneTimeId other key = registry other key := by
  simp [put, different]

theorem clear_other (different : ¬ (other = place ∧ key = id)) : registry.clear place id other key = registry other key := by
  simp [clear, different]

theorem of_clear (found : registry.clear place id other key = some oneTimeId) : registry other key = some oneTimeId := by
  unfold clear at found
  split at found
  · cases found
  · exact found

theorem of_put {current : OneTimeId} (found : registry.put place id oneTimeId other key = some current) :
    (other = place ∧ key = id ∧ current = oneTimeId) ∨ registry other key = some current := by
  unfold put at found
  split at found
  next same =>
    cases found
    exact .inl ⟨same.1, same.2, rfl⟩
  next => exact .inr found

theorem put_clear (held : registry place id = some oneTimeId) :
    (registry.clear place id).put place id oneTimeId = registry := by
  funext other key
  by_cases same : other = place ∧ key = id
  · rw [same.1, same.2, put_same, held]
  · rw [put_other same, clear_other same]

theorem clear_of_none (missing : registry other key = none) : registry.clear place id other key = none := by
  unfold clear
  split
  · rfl
  · exact missing

end Registry

namespace Handler

variable (handler : Handler H S) (id : SessionId)

private theorem insert_map {α : Type} (map : HashMap SessionId α) (id key : SessionId) (value : α) (view : α → OneTimeId) :
    (map.insert id value key).map view = if key = id then some (view value) else (map key).map view := by
  unfold HashMap.insert
  split
  · rfl
  · rfl

private theorem remove_map {α : Type} (map : HashMap SessionId α) (id key : SessionId) (view : α → OneTimeId) :
    (map.remove id key).map view = if key = id then none else (map key).map view := by
  unfold HashMap.remove
  split
  · rfl
  · rfl

theorem registered_putPoker (entry : Pending (PendingSessionPoker H)) :
    (handler.putPoker id entry).registered = Registry.put handler.registered .poker id entry.oneTimeId := by
  funext place key
  cases place <;> simp [registered, putPoker, Registry.put, insert_map]

theorem registered_putInitiator (entry : Pending (PendingSessionInitiator H)) :
    (handler.putInitiator id entry).registered = Registry.put handler.registered .initiator id entry.oneTimeId := by
  funext place key
  cases place <;> simp [registered, putInitiator, Registry.put, insert_map]

theorem registered_putResponder (entry : Pending (PendingSessionResponder S)) :
    (handler.putResponder id entry).registered = Registry.put handler.registered .responder id entry.oneTimeId := by
  funext place key
  cases place <;> simp [registered, putResponder, Registry.put, insert_map]

theorem registered_putEstablished (entry : OneTimeId × Session S) :
    (handler.putEstablished id entry).registered = Registry.put handler.registered .established id entry.1 := by
  funext place key
  cases place <;> simp [registered, putEstablished, Registry.put, insert_map]

theorem registered_takePoker : (handler.takePoker id).registered = Registry.clear handler.registered .poker id := by
  funext place key
  cases place <;> simp [registered, takePoker, Registry.clear, remove_map]

theorem registered_takeInitiator :
    (handler.takeInitiator id).registered = Registry.clear handler.registered .initiator id := by
  funext place key
  cases place <;> simp [registered, takeInitiator, Registry.clear, remove_map]

theorem registered_takeResponder :
    (handler.takeResponder id).registered = Registry.clear handler.registered .responder id := by
  funext place key
  cases place <;> simp [registered, takeResponder, Registry.clear, remove_map]

theorem SameMaps.registered {handler next : Handler H S} (same : SameMaps handler next) :
    next.registered = handler.registered := by
  funext place key
  cases place with
  | established => simp only [Handler.registered, same.established]
  | responder => simp only [Handler.registered, same.responder]
  | poker => simp only [Handler.registered, same.poker]
  | initiator => simp only [Handler.registered, same.initiator]

private theorem sweep_map {α : Type} (view : α → OneTimeId) (map : HashMap SessionId α) (id key : SessionId)
    (oneTimeId : Option OneTimeId) :
    ((sweep view map id oneTimeId).1 key).map view =
      if key = id ∧ (oneTimeId = none ∨ (map id).map view = oneTimeId) then none else (map key).map view := by
  cases oneTimeId with
  | none => simp [sweep, remove_map]
  | some oneTimeId =>
    by_cases matching : (map id).map view = some oneTimeId
    · simp only [sweep, matching, ↓reduceIte, remove_map, or_true, and_true]
    · simp [sweep, matching]

theorem registered_removeFrom (oneTimeId : Option OneTimeId) (place : Place) :
    (handler.removeFrom id oneTimeId place).registered =
      if oneTimeId = none ∨ handler.registered place id = oneTimeId then Registry.clear handler.registered place id
      else handler.registered := by
  funext other key
  by_cases matching : oneTimeId = none ∨ handler.registered place id = oneTimeId
  · rw [if_pos matching]
    cases place <;> cases other <;>
      simp_all [registered, removeFrom, removeEstablished, removeResponder, removePoker, removeInitiator, Registry.clear,
        sweep_map]
  · rw [if_neg matching]
    cases place <;> cases other <;>
      simp_all [registered, removeFrom, removeEstablished, removeResponder, removePoker, removeInitiator, sweep_map]

theorem registered_removeSession (oneTimeId : Option OneTimeId) :
    (handler.removeSession id oneTimeId).registered = fun place key =>
      if key = id ∧ (oneTimeId = none ∨ handler.registered place id = oneTimeId) then none
      else handler.registered place key := by
  funext place key
  cases place with
  | established => exact sweep_map Prod.fst handler.establishedSessions id key oneTimeId
  | responder => exact sweep_map Pending.oneTimeId handler.pendingSessionsResponder id key oneTimeId
  | poker => exact sweep_map Pending.oneTimeId handler.pendingSessionsPoker id key oneTimeId
  | initiator => exact sweep_map Pending.oneTimeId handler.pendingSessionsInitiator id key oneTimeId

private theorem insert_same_id {map : HashMap SessionId (OneTimeId × Session S)} {id : SessionId} {oneTimeId : OneTimeId}
    {session : Session S} (found : map id = some (oneTimeId, session)) (other : Session S) (key : SessionId) :
    (map.insert id (oneTimeId, other) key).map Prod.fst = (map key).map Prod.fst := by
  rw [insert_map]
  split
  next same => rw [same, found]; rfl
  next => rfl

theorem registered_updateEstablished (handler : Handler H S) (id : SessionId) (update : Session S → Session S) :
    (handler.updateEstablished id update).registered = handler.registered := by
  unfold updateEstablished
  split
  · rfl
  next oneTimeId session found =>
    funext place key
    cases place with
    | established => exact insert_same_id found (update session) key
    | responder => rfl
    | poker => rfl
    | initiator => rfl

theorem send_eq_update (cipher : Cipher S) (handler : Handler H S) (id : SessionId) (data : Bytes) :
    (handler.send cipher id data).1 = handler.updateEstablished id fun session => (session.send cipher data).1 := by
  unfold send updateEstablished
  cases handler.establishedSessions id with
  | none => rfl
  | some entry => rfl

theorem registered_recvFrom (handler : Handler H S) (id : SessionId) :
    (handler.recvFrom id).1.registered = handler.registered ∨
      (handler.recvFrom id).1.registered = Registry.clear handler.registered .established id := by
  unfold recvFrom
  split
  · exact .inl rfl
  · split
    · refine .inr ?_
      funext place key
      cases place <;> simp [registered, Registry.clear, remove_map]
    · exact .inl rfl

end Handler

/-- One critical section of `handle_incoming` for `id`, seen on the registry. An
entry that is taken out of a map is dropped, put back later or promoted. -/
inductive Effect (registry next : Registry) (id : SessionId) (before after : Incoming H S) : Prop where
  | idle (same : next = registry) (nothing : before.puts = none) (nothingNext : after.puts = none)
  | take (place : Place) (oneTimeId : OneTimeId) (source : before.takes = some place) (nothing : before.puts = none)
      (found : registry place id = some oneTimeId) (taken : next = registry.clear place id)
      (outcome : after.puts = none ∨
        ∃ target, after.puts = some (target, oneTimeId) ∧ (target = place ∨ target.isFirst = false))
  | put (place : Place) (oneTimeId : OneTimeId) (held : before.puts = some (place, oneTimeId))
      (written : next = registry.put place id oneTimeId) (nothingNext : after.puts = none)

theorem Incoming.enter_effect (snow : Snow H S) (handler : Handler H S) (src : SocketAddr) (packet : SessionPacket)
    (ephemeral : Nat) (incoming : Incoming H S) :
    let result := incoming.enter snow handler src packet ephemeral
    Effect handler.registered result.1.registered packet.id incoming result.2 := by
  cases incoming with
  | takePoker =>
    simp only [enter]
    cases found : handler.pendingSessionsPoker packet.id with
    | none => exact .idle rfl rfl rfl
    | some entry =>
      have held : handler.registered .poker packet.id = some entry.oneTimeId := by simp [Handler.registered, found]
      have taken := handler.registered_takePoker packet.id
      simp only
      split
      · exact .take .poker _ rfl rfl held taken (.inr ⟨.responder, rfl, .inr rfl⟩)
      · exact .take .poker _ rfl rfl held taken (.inr ⟨.poker, rfl, .inl rfl⟩)
      · exact .take .poker _ rfl rfl held taken (.inl rfl)
  | takeInitiator =>
    simp only [enter]
    cases found : handler.pendingSessionsInitiator packet.id with
    | none => exact .idle rfl rfl rfl
    | some entry =>
      have held : handler.registered .initiator packet.id = some entry.oneTimeId := by simp [Handler.registered, found]
      have taken := handler.registered_takeInitiator packet.id
      simp only
      split
      · exact .take .initiator _ rfl rfl held taken (.inr ⟨.established, rfl, .inr rfl⟩)
      · exact .take .initiator _ rfl rfl held taken (.inr ⟨.initiator, rfl, .inl rfl⟩)
      · exact .take .initiator _ rfl rfl held taken (.inl rfl)
  | takeResponder =>
    simp only [enter]
    cases found : handler.pendingSessionsResponder packet.id with
    | none => exact .idle rfl rfl rfl
    | some entry =>
      have held : handler.registered .responder packet.id = some entry.oneTimeId := by simp [Handler.registered, found]
      have taken := handler.registered_takeResponder packet.id
      simp only
      split
      · exact .take .responder _ rfl rfl held taken (.inr ⟨.established, rfl, .inr rfl⟩)
      · exact .take .responder _ rfl rfl held taken (.inr ⟨.responder, rfl, .inl rfl⟩)
      · exact .take .responder _ rfl rfl held taken (.inl rfl)
  | readEstablished =>
    simp only [enter]
    cases found : handler.establishedSessions packet.id with
    | none => exact .idle rfl rfl rfl
    | some entry =>
      have same : handler.putEstablished packet.id (entry.1, (entry.2.handleIncoming snow.toCipher packet).1) =
          handler.updateEstablished packet.id fun session => (session.handleIncoming snow.toCipher packet).1 := by
        simp [Handler.updateEstablished, found]
      refine .idle ?_ rfl rfl
      simp only [same]
      exact handler.registered_updateEstablished packet.id _
  | putPoker entry => exact .put _ _ rfl (handler.registered_putPoker packet.id entry) rfl
  | putInitiator entry => exact .put _ _ rfl (handler.registered_putInitiator packet.id entry) rfl
  | putResponder entry => exact .put _ _ rfl (handler.registered_putResponder packet.id entry) rfl
  | putEstablished oneTimeId session =>
    exact .put _ _ rfl (handler.registered_putEstablished packet.id (oneTimeId, session)) rfl
  | notify oneTimeId =>
    have maps := (handler.notify_maps oneTimeId).registered
    simp only [enter]
    split
    next notified =>
      rw [notified] at maps
      exact .idle maps rfl rfl
    next notified =>
      rw [notified] at maps
      exact .idle maps rfl rfl
  | wake oneTimeId => exact .idle (handler.wake_maps oneTimeId).registered rfl rfl
  | finished => exact .idle rfl rfl rfl

theorem Request.insert_cases (snow : Snow H S) (handler : Handler H S) (id : SessionId) (oneTimeId : OneTimeId)
    (request : Request) :
    request.insert snow handler id oneTimeId = (handler, .error .snow) ∨
    ∃ next ready, request.insert snow handler id oneTimeId = (next, .ok ready) ∧ ready.oneTimeId = oneTimeId ∧
      next.registered = Registry.put handler.registered request.place id oneTimeId := by
  cases request with
  | initiate info ephemeral =>
    simp only [Request.insert, Handler.insertInitiator]
    split
    · exact .inl rfl
    next initiator _ => exact .inr ⟨_, _, rfl, rfl, handler.registered_putInitiator id ⟨.new id info initiator, oneTimeId⟩⟩
  | respond info =>
    simp only [Request.insert, Handler.insertPoker]
    split
    · exact .inl rfl
    next responder _ => exact .inr ⟨_, _, rfl, rfl, handler.registered_putPoker id ⟨.new id info responder, oneTimeId⟩⟩

theorem Request.insert_ready {snow : Snow H S} {handler next : Handler H S} {id : SessionId} {oneTimeId : OneTimeId}
    {request : Request} {ready : SessionReady} (inserted : request.insert snow handler id oneTimeId = (next, .ok ready)) :
    ready = ⟨id, oneTimeId, false, false⟩ ∧ next.readiness = handler.readiness.insert oneTimeId ⟨0, true, [], []⟩ := by
  cases request with
  | initiate info ephemeral =>
    simp only [Request.insert, Handler.insertInitiator] at inserted
    split at inserted
    · cases inserted
    · cases inserted
      exact ⟨rfl, rfl⟩
  | respond info =>
    simp only [Request.insert, Handler.insertPoker] at inserted
    split at inserted
    · cases inserted
    · cases inserted
      exact ⟨rfl, rfl⟩

/-- A call that is alone runs through its sections as the sequential handler does. -/
def Incoming.alone (snow : Snow H S) (src : SocketAddr) (packet : SessionPacket) (ephemeral : Nat) :
    Nat → Handler H S × Incoming H S → Handler H S × Incoming H S
  | 0, state => state
  | steps + 1, (handler, incoming) => alone snow src packet ephemeral steps (incoming.enter snow handler src packet ephemeral)

private theorem alone_finished (snow : Snow H S) (src : SocketAddr) (packet : SessionPacket) (ephemeral steps : Nat)
    (handler : Handler H S) :
    Incoming.alone snow src packet ephemeral steps (handler, .finished) = (handler, .finished) := by
  induction steps with
  | zero => rfl
  | succ steps ih => exact ih

private theorem alone_upgrade (snow : Snow H S) (src : SocketAddr) (packet : SessionPacket) (ephemeral steps : Nat)
    (handler : Handler H S) (oneTimeId : OneTimeId) (session : Session S) :
    Incoming.alone snow src packet ephemeral (steps + 3) (handler, .putEstablished oneTimeId session) =
      ((handler.upgradeSession packet.id oneTimeId session).1, .finished) := by
  simp only [Incoming.alone, Incoming.enter, Handler.upgradeSession]
  cases (handler.putEstablished packet.id (oneTimeId, session)).notify oneTimeId with
  | mk notified sent =>
    cases sent with
    | true => exact alone_finished snow src packet ephemeral steps _
    | false => exact alone_finished snow src packet ephemeral steps _

theorem Incoming.alone_handlePacket (snow : Snow H S) (handler : Handler H S) (src : SocketAddr) (packet : SessionPacket)
    (ephemeral : Nat) :
    alone snow src packet ephemeral 6 (handler, .takePoker) = (handler.handlePacket snow src packet ephemeral, .finished) := by
  rw [alone, enter, Handler.handlePacket]
  cases handler.pendingSessionsPoker packet.id with
  | some entry =>
    simp only
    cases entry.session.advance snow src packet ephemeral with
    | promote session => rfl
    | putBack session => rfl
    | discard => rfl
  | none =>
    simp only
    rw [alone, enter]
    cases handler.pendingSessionsInitiator packet.id with
    | some entry =>
      simp only
      cases entry.session.advance snow src packet with
      | promote session => exact alone_upgrade snow src packet ephemeral 1 _ _ _
      | putBack session => rfl
      | discard => rfl
    | none =>
      simp only
      rw [alone, enter]
      cases handler.pendingSessionsResponder packet.id with
      | some entry =>
        simp only
        cases entry.session.advance snow.toCipher packet with
        | promote session => exact alone_upgrade snow src packet ephemeral 0 _ _ _
        | putBack session => rfl
        | discard => rfl
      | none =>
        simp only
        rw [alone, enter]
        cases handler.establishedSessions packet.id with
        | some entry => rfl
        | none => rfl

end Veq
