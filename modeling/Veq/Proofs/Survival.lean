import Veq.Proofs.Registry

/-! Pending entries against arbitrary datagrams. Both stages take their entry out
of the map before they look at the datagram. The initiator's stage puts it back
after a response that it rejects, although with its task aborted; the poker's
stage loses it. -/

namespace Veq
open Rust Bincode

variable {H S : Type}

structure Arrival where
  src : SocketAddr
  data : Bytes
  ephemeral : Nat
deriving DecidableEq, Repr

namespace Handler

def receive (snow : Snow H S) (handler : Handler H S) (arrival : Arrival) : Handler H S :=
  (handler.handleIncoming snow arrival.src arrival.data arrival.ephemeral).1

def receiveAll (snow : Snow H S) (handler : Handler H S) (arrivals : List Arrival) : Handler H S :=
  arrivals.foldl (receive snow) handler

variable {snow : Snow H S} {handler : Handler H S} {id : SessionId} {arrival : Arrival}

theorem receive_cases (snow : Snow H S) (handler : Handler H S) (id : SessionId) (arrival : Arrival) :
    (∃ packet, packet.id = id ∧ initiationFor id arrival.data = packet.initiation ∧
      responseFor id arrival.data = packet.response ∧
      receive snow handler arrival = handler.handlePacket snow arrival.src packet arrival.ephemeral) ∨
    (initiationFor id arrival.data = none ∧ responseFor id arrival.data = none ∧
      (receive snow handler arrival).pendingSessionsPoker id = handler.pendingSessionsPoker id ∧
      (receive snow handler arrival).pendingSessionsInitiator id = handler.pendingSessionsInitiator id) := by
  unfold receive handleIncoming initiationFor responseFor
  cases decoded : SessionPacket.codec.deserialize arrival.data with
  | none => exact .inr ⟨rfl, rfl, rfl, rfl⟩
  | some packet =>
    by_cases same : packet.id = id
    · exact .inl ⟨packet, same, by simp [same], by simp [same], rfl⟩
    · obtain ⟨poker, initiator, -⟩ := handlePacket_frame snow handler arrival.src arrival.ephemeral (Ne.symm same)
      exact .inr ⟨by simp [same], by simp [same], poker, initiator⟩

section Poker

/-- The datagram brings the responder of a poker an initiation that it accepts. -/
def AcceptsInitiation (snow : Snow H S) (responder : SnowResponder H) (id : SessionId) (arrival : Arrival) : Prop :=
  ∃ initiation ∈ initiationFor id arrival.data, ∃ result,
    responder.response snow initiation arrival.ephemeral = .ok result

/-- The entry is still registered, it still pokes, and the next datagram with an
acceptable initiation promotes it. -/
structure PokerSurvives (snow : Snow H S) (handler : Handler H S) (id : SessionId)
    (entry : Pending (PendingSessionPoker H)) : Prop where
  registered : ∃ current, handler.pendingSessionsPoker id = some current ∧ current.oneTimeId = entry.oneTimeId ∧
    current.session.handle.aborted = false
  promotes : ∀ arrival, AcceptsInitiation snow entry.session.snowResponder id arrival →
    (receive snow handler arrival).pendingSessionsPoker id = none ∧
    ∃ pending, (receive snow handler arrival).pendingSessionsResponder id = some pending ∧
      pending.oneTimeId = entry.oneTimeId

variable {entry : Pending (PendingSessionPoker H)}

theorem receive_poker_other (snow : Snow H S) (idle : entry.session.workingRemoteAddr = none)
    (found : handler.pendingSessionsPoker id = some entry) (other : initiationFor id arrival.data = none) :
    (receive snow handler arrival).pendingSessionsPoker id = some entry := by
  rcases receive_cases snow handler id arrival with ⟨packet, rfl, carried, -, handled⟩ | ⟨-, -, kept, -⟩
  · rw [handled, handlePacket_poker found, PendingSessionPoker.advance_other snow idle (carried ▸ other)]
    simp [putPoker]
  · exact kept.trans found

theorem receive_poker_initiation (snow : Snow H S) {initiation : Bytes} (found : handler.pendingSessionsPoker id = some entry)
    (carried : initiationFor id arrival.data = some initiation) :
    (receive snow handler arrival).pendingSessionsPoker id = none ∧
    ∀ result, entry.session.snowResponder.response snow initiation arrival.ephemeral = .ok result →
      ∃ pending, (receive snow handler arrival).pendingSessionsResponder id = some pending ∧
        pending.oneTimeId = entry.oneTimeId := by
  rcases receive_cases snow handler id arrival with ⟨packet, rfl, same, -, handled⟩ | ⟨none, -⟩
  · rw [handled, handlePacket_poker found, PendingSessionPoker.advance_initiation snow (same ▸ carried)]
    cases response : entry.session.snowResponder.response snow initiation arrival.ephemeral with
    | ok result =>
      refine ⟨by simp [putResponder, takePoker], ?_⟩
      intro other accepted
      exact ⟨⟨.new entry.session.id arrival.src result.1 result.2, entry.oneTimeId⟩, by simp [putResponder], rfl⟩
    | error failure =>
      refine ⟨by simp [takePoker], ?_⟩
      intro other accepted
      cases accepted
  · simp [carried] at none

theorem receive_no_poker (snow : Snow H S) (missing : handler.pendingSessionsPoker id = none) (arrival : Arrival) :
    (receive snow handler arrival).pendingSessionsPoker id = none := by
  rcases receive_cases snow handler id arrival with ⟨packet, rfl, -, -, handled⟩ | ⟨-, -, kept, -⟩
  · rw [handled]
    cases found : handler.pendingSessionsInitiator packet.id with
    | none =>
      rw [(handlePacket_later snow arrival.src arrival.ephemeral missing found).1]
      exact missing
    | some entry =>
      rw [handlePacket_initiator missing found]
      split
      next session _ =>
        rw [(upgradeSession_maps _ _ _ _).poker]
        exact missing
      next => exact missing
      next => exact missing
  · exact kept.trans missing

theorem receiveAll_no_poker (snow : Snow H S) (missing : handler.pendingSessionsPoker id = none) (arrivals : List Arrival) :
    (receiveAll snow handler arrivals).pendingSessionsPoker id = none := by
  induction arrivals generalizing handler with
  | nil => exact missing
  | cons arrival arrivals ih => exact ih (receive_no_poker snow missing arrival)

theorem receiveAll_poker (snow : Snow H S) (idle : entry.session.workingRemoteAddr = none)
    (found : handler.pendingSessionsPoker id = some entry) (arrivals : List Arrival) :
    (receiveAll snow handler arrivals).pendingSessionsPoker id =
      if ∀ arrival ∈ arrivals, initiationFor id arrival.data = none then some entry else none := by
  induction arrivals generalizing handler with
  | nil => simpa [receiveAll] using found
  | cons arrival arrivals ih =>
    cases carried : initiationFor id arrival.data with
    | none =>
      have rest := ih (receive_poker_other snow idle found carried)
      simpa [receiveAll, carried] using rest
    | some initiation =>
      have rest := receiveAll_no_poker snow (receive_poker_initiation snow found carried).1 arrivals
      simpa [receiveAll, carried] using rest

/-- A poker outlives exactly those datagrams that carry no initiation for it: an
initiation that it cannot accept costs it its place. -/
theorem poker_survives_iff (snow : Snow H S) (keypair : SnowKeypair) (operations : List Operation) (id : SessionId)
    (entry : Pending (PendingSessionPoker H))
    (registered : ((Handler.new keypair).run snow operations).pendingSessionsPoker id = some entry)
    (arrivals : List Arrival) :
    PokerSurvives snow (receiveAll snow ((Handler.new keypair).run snow operations) arrivals) id entry ↔
      ∀ arrival ∈ arrivals, initiationFor id arrival.data = none := by
  obtain ⟨idle, running⟩ := ((Consistent.new keypair).run snow operations).pokers id entry registered
  have remaining := receiveAll_poker snow idle registered arrivals
  constructor
  · rintro ⟨⟨current, found, -⟩, -⟩
    by_contra some
    rw [if_neg some] at remaining
    simp [remaining] at found
  · intro none
    rw [if_pos none] at remaining
    refine ⟨⟨entry, remaining, rfl, running⟩, ?_⟩
    rintro arrival ⟨initiation, carried, result, accepted⟩
    obtain ⟨gone, promoted⟩ := receive_poker_initiation snow remaining carried
    exact ⟨gone, promoted result accepted⟩

/-- A snow whose handshake messages are fixed bytes. The state tells the initiator
from the responder. -/
def fixedSnow : Snow Bool Unit where
  toCipher := LossyTransportState.tagCipher
  buildInitiator _ _ := some true
  buildResponder _ _ := some false
  writeHandshake initiator _ := some (initiator, if initiator then [1] else [2])
  readHandshake initiator message := (initiator, message = if initiator then [2] else [1])
  intoStatelessTransportMode _ := some ()

def packetFor (id : SessionId) (message : RawMessage) : Bytes :=
  SessionPacket.codec.encode ⟨id, RawMessage.codec.encode message⟩

def fixedPoker : Pending (PendingSessionPoker Bool) :=
  ⟨.new 7 ⟨[], [9]⟩ ⟨false⟩, 40⟩

theorem poker_lost_to_initiation :
    let handler := (Handler.new ⟨[1], [2]⟩).run fixedSnow [.respond 7 ⟨[], [9]⟩ 40]
    let arrival : Arrival := ⟨.v4 1 1, packetFor 7 (.handshakeInitiation [0]), 0⟩
    handler.pendingSessionsPoker 7 = some fixedPoker ∧
      ¬ AcceptsInitiation fixedSnow fixedPoker.session.snowResponder 7 arrival ∧
      ¬ PokerSurvives fixedSnow (receiveAll fixedSnow handler [arrival]) 7 fixedPoker := by
  refine ⟨rfl, ?_, ?_⟩
  · rintro ⟨initiation, carried, result, accepted⟩
    have bytes : initiationFor 7 (packetFor 7 (.handshakeInitiation [0])) = some [0] := by decide
    cases bytes.symm.trans carried
    cases accepted
  · rintro ⟨⟨current, found, -⟩, -⟩
    have gone : ((receiveAll fixedSnow ((Handler.new ⟨[1], [2]⟩).run fixedSnow [.respond 7 ⟨[], [9]⟩ 40])
        [⟨.v4 1 1, packetFor 7 (.handshakeInitiation [0]), 0⟩]).pendingSessionsPoker 7).isNone = true := by decide
    rw [found] at gone
    cases gone

theorem poker_survives_poke :
    let handler := (Handler.new ⟨[1], [2]⟩).run fixedSnow [.respond 7 ⟨[], [9]⟩ 40]
    let arrivals : List Arrival := [⟨.v4 1 1, packetFor 7 .handshakePoke, 0⟩, ⟨.v4 1 1, [0, 1], 0⟩]
    PokerSurvives fixedSnow (receiveAll fixedSnow handler arrivals) 7 fixedPoker :=
  (poker_survives_iff fixedSnow ⟨[1], [2]⟩ [.respond 7 ⟨[], [9]⟩ 40] 7 fixedPoker rfl _).mpr (by decide)

end Poker
section Initiator

/-- The datagram brings an initiator a response that it accepts. -/
def AcceptsResponse (snow : Snow H S) (initiator : SnowInitiator H) (id : SessionId) (arrival : Arrival) : Prop :=
  ∃ response ∈ responseFor id arrival.data, ∃ transport,
    initiator.receiveResponse snow response = .ok (.ok transport)

/-- The entry is still registered, it still retransmits, and the next datagram
with an acceptable response establishes the session with its sender. -/
structure InitiatorSurvives (snow : Snow H S) (handler : Handler H S) (id : SessionId)
    (entry : Pending (PendingSessionInitiator H)) : Prop where
  registered : ∃ current, handler.pendingSessionsInitiator id = some current ∧ current.oneTimeId = entry.oneTimeId ∧
    current.session.handle.aborted = false
  promotes : ∀ arrival, AcceptsResponse snow entry.session.initiator id arrival →
    (receive snow handler arrival).pendingSessionsInitiator id = none ∧
    ∃ session, (receive snow handler arrival).establishedSessions id = some (entry.oneTimeId, session) ∧
      session.remoteAddr = arrival.src

variable {entry : Pending (PendingSessionInitiator H)}

theorem receive_initiator_other (snow : Snow H S) (idle : entry.session.workingRemoteAddr = none)
    (free : handler.pendingSessionsPoker id = none) (found : handler.pendingSessionsInitiator id = some entry)
    (other : responseFor id arrival.data = none) :
    (receive snow handler arrival).pendingSessionsInitiator id = some entry := by
  rcases receive_cases snow handler id arrival with ⟨packet, rfl, -, carried, handled⟩ | ⟨-, -, -, kept⟩
  · rw [handled, handlePacket_initiator free found, PendingSessionInitiator.advance_other snow idle (carried ▸ other)]
    simp [putInitiator]
  · exact kept.trans found

theorem receive_initiator_response (snow : Snow H S) {response : Bytes}
    (free : handler.pendingSessionsPoker id = none) (found : handler.pendingSessionsInitiator id = some entry)
    (carried : responseFor id arrival.data = some response) :
    match entry.session.initiator.receiveResponse snow response with
    | .ok (.ok transport) => (receive snow handler arrival).pendingSessionsInitiator id = none ∧
        (receive snow handler arrival).establishedSessions id =
          some (entry.oneTimeId, .new entry.session.id arrival.src transport)
    | .ok (.err initiator) => (receive snow handler arrival).pendingSessionsInitiator id =
        some ⟨{ entry.session with
          handle := entry.session.handle.abort, workingRemoteAddr := none, waker := none, initiator }, entry.oneTimeId⟩
    | .error _ => (receive snow handler arrival).pendingSessionsInitiator id = none := by
  rcases receive_cases snow handler id arrival with ⟨packet, rfl, -, same, handled⟩ | ⟨-, none, -⟩
  · rw [handled, handlePacket_initiator free found, PendingSessionInitiator.advance_response snow (same ▸ carried)]
    cases entry.session.initiator.receiveResponse snow response with
    | error failure => simp [takeInitiator]
    | ok result =>
      cases result with
      | ok transport =>
        have maps := (handler.takeInitiator packet.id).upgradeSession_maps packet.id entry.oneTimeId
          (.new entry.session.id arrival.src transport)
        simp only
        rw [maps.initiator, maps.established]
        simp [takeInitiator, putEstablished]
      | err initiator => simp [putInitiator]
  · simp [carried] at none

/-- An initiator that has stopped retransmitting, or that is gone. -/
def Silenced (handler : Handler H S) (id : SessionId) (initiator : SnowInitiator H) : Prop :=
  ∀ entry, handler.pendingSessionsInitiator id = some entry →
    entry.session.initiator = initiator ∧ entry.session.workingRemoteAddr = none ∧ entry.session.handle.aborted = true

theorem receive_no_initiator (snow : Snow H S) (missing : handler.pendingSessionsInitiator id = none) (arrival : Arrival) :
    (receive snow handler arrival).pendingSessionsInitiator id = none := by
  rcases receive_cases snow handler id arrival with ⟨packet, rfl, -, -, handled⟩ | ⟨-, -, -, kept⟩
  · rw [handled]
    cases found : handler.pendingSessionsPoker packet.id with
    | none =>
      rw [(handlePacket_later snow arrival.src arrival.ephemeral found missing).2]
      exact missing
    | some entry =>
      rw [handlePacket_poker found]
      split
      · exact missing
      · exact missing
      · exact missing
  · exact kept.trans missing

variable {snow : Snow H S} {initiator : SnowInitiator H}

/-- A response that is rejected does not change the handshake, so what is
acceptable stays the same. -/
theorem receiveResponse_err (restores : ∀ state message next, snow.readHandshake state message = (next, false) → next = state)
    {response : Bytes} {next : SnowInitiator H} (rejected : initiator.receiveResponse snow response = .ok (.err next)) :
    next = initiator := by
  unfold SnowInitiator.receiveResponse at rejected
  split at rejected
  next state refused =>
    cases rejected
    cases initiator
    simp [restores _ _ _ refused]
  next =>
    split at rejected
    · cases rejected
    · cases rejected

/-- The first response that is rejected silences the initiator. -/
theorem silenced_of_response (free : handler.pendingSessionsPoker id = none)
    (found : handler.pendingSessionsInitiator id = some entry)
    (restores : ∀ state message next, snow.readHandshake state message = (next, false) → next = state)
    (rejected : ¬ AcceptsResponse snow entry.session.initiator id arrival) {response : Bytes}
    (carried : responseFor id arrival.data = some response) :
    (receive snow handler arrival).Silenced id entry.session.initiator := by
  intro current present
  have outcome := receive_initiator_response snow free found carried
  cases answer : entry.session.initiator.receiveResponse snow response with
  | error failure =>
    rw [answer] at outcome
    cases outcome.symm.trans present
  | ok result =>
    rw [answer] at outcome
    cases result with
    | ok transport => exact absurd ⟨response, carried, transport, answer⟩ rejected
    | err next =>
      cases outcome.symm.trans present
      exact ⟨receiveResponse_err restores answer, rfl, rfl⟩

theorem Silenced.receive (silenced : handler.Silenced id initiator) (free : handler.pendingSessionsPoker id = none)
    (restores : ∀ state message next, snow.readHandshake state message = (next, false) → next = state)
    (rejected : ¬ AcceptsResponse snow initiator id arrival) : (receive snow handler arrival).Silenced id initiator := by
  cases found : handler.pendingSessionsInitiator id with
  | none =>
    intro entry present
    rw [receive_no_initiator snow found arrival] at present
    cases present
  | some entry =>
    obtain ⟨rfl, idle, aborted⟩ := silenced entry found
    intro current present
    cases carried : responseFor id arrival.data with
    | none =>
      rw [receive_initiator_other snow idle free found carried] at present
      cases present
      exact ⟨rfl, idle, aborted⟩
    | some response => exact silenced_of_response free found restores rejected carried current present

theorem Silenced.receiveAll (silenced : handler.Silenced id initiator) (free : handler.pendingSessionsPoker id = none)
    (restores : ∀ state message next, snow.readHandshake state message = (next, false) → next = state)
    (arrivals : List Arrival) (rejected : ∀ arrival ∈ arrivals, ¬ AcceptsResponse snow initiator id arrival) :
    (receiveAll snow handler arrivals).Silenced id initiator := by
  induction arrivals generalizing handler with
  | nil => exact silenced
  | cons arrival arrivals ih =>
    apply ih (silenced.receive free restores (rejected arrival (by simp))) (receive_no_poker snow free arrival)
    exact fun other member => rejected other (by simp [member])

theorem receiveAll_initiator (idle : entry.session.workingRemoteAddr = none)
    (free : handler.pendingSessionsPoker id = none) (found : handler.pendingSessionsInitiator id = some entry)
    (restores : ∀ state message next, snow.readHandshake state message = (next, false) → next = state)
    (arrivals : List Arrival)
    (rejected : ∀ arrival ∈ arrivals, ¬ AcceptsResponse snow entry.session.initiator id arrival) :
    (receiveAll snow handler arrivals).pendingSessionsPoker id = none ∧
    if ∀ arrival ∈ arrivals, responseFor id arrival.data = none then
      (receiveAll snow handler arrivals).pendingSessionsInitiator id = some entry
    else (receiveAll snow handler arrivals).Silenced id entry.session.initiator := by
  induction arrivals generalizing handler with
  | nil => exact ⟨free, by simpa [receiveAll] using found⟩
  | cons arrival arrivals ih =>
    have later : ∀ other ∈ arrivals, ¬ AcceptsResponse snow entry.session.initiator id other :=
      fun other member => rejected other (by simp [member])
    have stillFree := receive_no_poker snow free arrival
    cases carried : responseFor id arrival.data with
    | none =>
      have rest := ih stillFree (receive_initiator_other snow idle free found carried) later
      simpa [receiveAll, carried] using rest
    | some response =>
      have silenced := silenced_of_response free found restores (rejected arrival (by simp)) carried
      refine ⟨receiveAll_no_poker snow stillFree arrivals, ?_⟩
      simpa [receiveAll, carried] using silenced.receiveAll stillFree restores arrivals later

def fixedInitiator : Pending (PendingSessionInitiator Bool) :=
  ⟨.new 7 ⟨[], [9]⟩ ⟨true, [1]⟩, 40⟩

end Initiator
end Handler
end Veq
