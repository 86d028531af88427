import Veq.Proofs.Traffic
import Veq.Tasks
import Veq.Watchdog

/-! When a session dies and what its tasks do afterwards. The task that watches the
heartbeat is a watchdog that the peer's keepalives feed. -/

namespace Veq
open Rust Bincode Machines

variable {S : Type}

theorem Session.handleIncoming_heartbeat (cipher : Cipher S) (session : Session S) (packet : SessionPacket) :
    (session.handleIncoming cipher packet).1.heartbeat =
      (session.heartbeat || decide (.keepalive ∈ acceptedIn cipher session.transport packet)) := by
  unfold handleIncoming acceptedIn Party.opening SessionPacket.encrypted
  cases decoded : RawMessage.codec.deserialize packet.data with
  | none => simp
  | some raw =>
    cases raw with
    | handshakePoke => simp
    | handshakeInitiation initiation => simp
    | handshakeResponse response => simp
    | encrypted encrypted =>
      cases read : session.transport.readMessage cipher encrypted 65535 with
      | mk transport result =>
        cases result with
        | error failure => simp [read, LossyTransportState.read?_of_error (congrArg Prod.snd read)]
        | ok plaintext =>
          obtain ⟨nonce, opened⟩ := LossyTransportState.read?_of_ok (congrArg Prod.snd read)
          cases message : Message.codec.deserialize plaintext with
          | none => simp [read, opened, message]
          | some message' =>
            cases message' with
            | keepalive => simp [read, opened, message]
            | payload data => simp [read, opened, message]

namespace Spawned

/-- What an event is to the task that watches the heartbeat. Only a keepalive that
the transport accepts is a beat: a payload is none. -/
def mark (cipher : Cipher S) (spawned : Spawned S) : Event → Watchdog.Mark
  | .heartbeatTick => .tick
  | .receive packet =>
    if spawned.held = true ∧ .keepalive ∈ acceptedIn cipher spawned.session.transport packet then .beat else .other
  | _ => .other

def marks (cipher : Cipher S) (spawned : Spawned S) : List Event → List Watchdog.Mark
  | [] => []
  | event :: events => spawned.mark cipher event :: marks cipher (spawned.step cipher event).1 events

/-- The flags of the session follow the watchdog; a session that was dropped is
dead in any case. -/
structure Follows (spawned : Spawned S) (watchdog : Watchdog.State) (dropped : Bool) : Prop where
  heartbeat : spawned.session.heartbeat = watchdog.armed
  watching : spawned.watching = !watchdog.expired
  dead : spawned.session.dead = (dropped || watchdog.expired)
  held : spawned.held = !dropped

variable {cipher : Cipher S} {spawned : Spawned S} {watchdog : Watchdog.State} {dropped : Bool}

theorem Follows.unnoticed (follows : spawned.Follows watchdog dropped) {next : Spawned S}
    (heartbeat : next.session.heartbeat = spawned.session.heartbeat) (watching : next.watching = spawned.watching)
    (dead : next.session.dead = spawned.session.dead) (held : next.held = spawned.held) : next.Follows watchdog dropped :=
  ⟨heartbeat.trans follows.heartbeat, watching.trans follows.watching, dead.trans follows.dead, held.trans follows.held⟩

theorem encrypt_flags (cipher : Cipher S) (session : Session S) (message : Message) :
    (session.encrypt cipher message).1.heartbeat = session.heartbeat ∧
      (session.encrypt cipher message).1.dead = session.dead := by
  rw [session.encrypt_state]
  exact ⟨rfl, rfl⟩

theorem send_flags (cipher : Cipher S) (session : Session S) (data : Bytes) :
    (session.send cipher data).1.heartbeat = session.heartbeat ∧ (session.send cipher data).1.dead = session.dead := by
  unfold Session.send
  split
  · exact ⟨rfl, rfl⟩
  · exact encrypt_flags cipher session (.payload data)

theorem poll_flags (session : Session S) (future : Uuid) (waker : Waker) :
    (session.poll future waker).1.heartbeat = session.heartbeat ∧ (session.poll future waker).1.dead = session.dead := by
  unfold Session.poll
  split
  · exact ⟨rfl, rfl⟩
  · split
    · exact ⟨rfl, rfl⟩
    · exact ⟨rfl, rfl⟩

theorem keepaliveTick_cases (cipher : Cipher S) (spawned : Spawned S) :
    spawned.keepaliveTick cipher = (spawned, ⟨[], []⟩) ∧ spawned.sending = false ∨
      spawned.sending = true ∧ ∃ sending outgoing, spawned.keepaliveTick cipher =
        ({ spawned with session := (spawned.session.keepalive cipher).1, sending }, ⟨outgoing, []⟩) ∧
        (outgoing = [] ∨ ∃ sent, outgoing = [sent] ∧ (spawned.session.keepalive cipher).2 = .ok sent ∧
          sending = !spawned.session.dead) := by
  have flags := (encrypt_flags cipher spawned.session .keepalive).2
  unfold keepaliveTick
  cases running : spawned.sending with
  | false => exact .inl ⟨rfl, rfl⟩
  | true =>
    refine .inr ⟨rfl, ?_⟩
    cases result : spawned.session.keepalive cipher with
    | mk session outcome =>
      have same : session.dead = spawned.session.dead := by
        rw [← flags]
        exact congrArg (fun kept => kept.1.dead) result.symm
      cases outcome with
      | ok outgoing => exact ⟨!session.dead, [outgoing], rfl, .inr ⟨outgoing, rfl, rfl, by rw [same]⟩⟩
      | error failure =>
        cases failure with
        | panic panic => exact ⟨false, [], rfl, .inl rfl⟩
        | _ => exact ⟨true, [], by simp, .inl rfl⟩

theorem receive_eq (cipher : Cipher S) (spawned : Spawned S) (packet : SessionPacket) :
    ∃ woken, spawned.step cipher (.receive packet) = (if spawned.held then
      { spawned with session := (spawned.session.handleIncoming cipher packet).1 } else spawned, ⟨[], woken⟩) := by
  unfold step
  cases spawned.held with
  | false => exact ⟨[], rfl⟩
  | true =>
    cases handled : spawned.session.handleIncoming cipher packet with
    | mk session result =>
      cases result with
      | ok woken => exact ⟨woken.toList, by simp [handled]⟩
      | error failure => exact ⟨[], by simp [handled]⟩

theorem Follows.step (follows : spawned.Follows watchdog dropped) (cipher : Cipher S) (event : Event) :
    (spawned.step cipher event).1.Follows (Watchdog.step watchdog (spawned.mark cipher event))
      (dropped || decide (event = .drop)) := by
  cases event with
  | receive packet =>
    obtain ⟨woken, stepped⟩ := spawned.receive_eq cipher packet
    rw [stepped, mark]
    cases held : spawned.held with
    | false => simpa [Watchdog.step] using follows
    | true =>
      have heartbeat := spawned.session.handleIncoming_heartbeat cipher packet
      have dead := spawned.session.handleIncoming_dead cipher packet
      by_cases accepted : .keepalive ∈ acceptedIn cipher spawned.session.transport packet
      · simp only [accepted, decide_true, Bool.or_true] at heartbeat
        simp only [accepted, and_self, ↓reduceIte, Watchdog.step]
        exact ⟨heartbeat, follows.watching, by simpa using dead.trans follows.dead, by simpa [held] using follows.held⟩
      · simp only [accepted, decide_false, Bool.or_false] at heartbeat
        simp only [accepted, and_false, ↓reduceIte, Watchdog.step, reduceCtorEq, decide_false, Bool.or_false]
        exact follows.unnoticed heartbeat rfl dead held.symm
  | send data =>
    simp only [Spawned.step, mark, Watchdog.step, reduceCtorEq, decide_false, Bool.or_false]
    split
    · obtain ⟨heartbeat, dead⟩ := send_flags cipher spawned.session data
      exact follows.unnoticed heartbeat rfl dead rfl
    · exact follows
  | poll future waker =>
    obtain ⟨heartbeat, dead⟩ := poll_flags spawned.session future waker
    simp only [Spawned.step, mark, Watchdog.step, reduceCtorEq, decide_false, Bool.or_false]
    exact follows.unnoticed heartbeat rfl dead rfl
  | keepaliveTick =>
    simp only [Spawned.step, mark, Watchdog.step, reduceCtorEq, decide_false, Bool.or_false]
    obtain ⟨heartbeat, dead⟩ := encrypt_flags cipher spawned.session .keepalive
    rcases spawned.keepaliveTick_cases cipher with ⟨same, -⟩ | ⟨-, sending, outgoing, ticked, -⟩
    · rw [same]
      exact follows
    · rw [ticked]
      exact follows.unnoticed heartbeat rfl dead rfl
  | heartbeatTick =>
    obtain ⟨heartbeat, watching, dead, held⟩ := follows
    simp only [Spawned.step, heartbeatTick, mark, Watchdog.step, Session.checkHeartbeat]
    rw [watching]
    cases expired : watchdog.expired with
    | true => exact ⟨heartbeat, by simp [watching, expired], by simpa [expired] using dead, by simpa using held⟩
    | false =>
      rw [heartbeat]
      cases armed : watchdog.armed with
      | true => exact ⟨rfl, rfl, by simpa [expired] using dead, by simpa using held⟩
      | false => exact ⟨rfl, rfl, by simp, by simpa using held⟩
  | drop =>
    obtain ⟨heartbeat, watching, dead, held⟩ := follows
    exact ⟨heartbeat, watching, by simp [Spawned.step, Session.close], by simp [Spawned.step]⟩

theorem Follows.after (follows : spawned.Follows watchdog dropped) (cipher : Cipher S) (events : List Event) :
    (after (Spawned.step cipher) spawned events).Follows ((marks cipher spawned events).foldl Watchdog.step watchdog)
      (dropped || decide (.drop ∈ events)) := by
  induction events generalizing spawned watchdog dropped with
  | nil => simpa [marks, Machines.after] using follows
  | cons event events ih =>
    have rest := ih (follows.step cipher event)
    have either : (dropped || decide (.drop ∈ event :: events)) =
        (dropped || decide (event = .drop) || decide (.drop ∈ events)) := by
      simp [List.mem_cons, Bool.decide_or, Bool.or_assoc, eq_comm]
    rw [either]
    exact rest

theorem follows_new (cipher : Cipher S) (id : SessionId) (remoteAddr : SocketAddr) (transport : LossyTransportState S)
    (events : List Event) : (Machines.after (step cipher) (new id remoteAddr transport) events).Follows
      (Watchdog.run (marks cipher (new id remoteAddr transport) events)) (decide (.drop ∈ events)) := by
  have initial : (new id remoteAddr transport).Follows Watchdog.start false := ⟨rfl, rfl, rfl, rfl⟩
  have followed := initial.after cipher events
  rw [Bool.false_or] at followed
  exact followed

/-- A session is dead exactly when it was dropped or when two ticks of the task that
watches the heartbeat had no accepted keepalive between them. -/
theorem dead_iff (cipher : Cipher S) (id : SessionId) (remoteAddr : SocketAddr) (transport : LossyTransportState S)
    (events : List Event) : (Machines.after (step cipher) (new id remoteAddr transport) events).session.dead = true ↔
      .drop ∈ events ∨ Watchdog.Starved (marks cipher (new id remoteAddr transport) events) := by
  rw [(follows_new cipher id remoteAddr transport events).dead, Bool.or_eq_true, decide_eq_true_iff,
    Watchdog.expired_iff]

/-- A dead session stays dead, and its keepalive task sends at most once more. -/
theorem step_quiet (dead : spawned.session.dead = true) (event : Event) :
    (spawned.step cipher event).1.session.dead = true ∧
      (spawned.step cipher event).2.outgoing.length + (spawned.step cipher event).1.sending.toNat ≤
        spawned.sending.toNat := by
  cases event with
  | receive packet =>
    obtain ⟨woken, stepped⟩ := spawned.receive_eq cipher packet
    rw [stepped]
    split
    · exact ⟨(spawned.session.handleIncoming_dead cipher packet).trans dead, by simp⟩
    · exact ⟨dead, by simp⟩
  | send data =>
    simp only [step]
    split
    · simp [Session.send, Session.isDead, dead, Output.outgoing]
    · exact ⟨dead, by simp⟩
  | poll future waker => exact ⟨(poll_flags spawned.session future waker).2.trans dead, by simp [step]⟩
  | keepaliveTick =>
    have flags := (encrypt_flags cipher spawned.session .keepalive).2.trans dead
    rw [step]
    rcases spawned.keepaliveTick_cases cipher with ⟨same, -⟩ | ⟨running, sending, outgoing, ticked, sent⟩
    · rw [same]
      exact ⟨dead, by simp⟩
    · rw [ticked]
      refine ⟨flags, ?_⟩
      rcases sent with rfl | ⟨packet, rfl, -, rfl⟩
      · simp [running, Bool.toNat_le]
      · simp [running, dead]
  | heartbeatTick =>
    simp only [step, heartbeatTick, Session.checkHeartbeat]
    split
    · split
      · exact ⟨dead, by simp⟩
      · exact ⟨rfl, by simp⟩
    · exact ⟨dead, by simp⟩
  | drop => exact ⟨rfl, by simp [step]⟩

theorem count_tick (cipher : Cipher S) (spawned : Spawned S) (events : List Event) :
    (marks cipher spawned events).count .tick = events.count .heartbeatTick := by
  induction events generalizing spawned with
  | nil => rfl
  | cons event events ih =>
    rw [marks, List.count_cons, List.count_cons, ih]
    congr 1
    cases event with
    | receive packet =>
      rw [mark]
      split <;> rfl
    | _ => rfl

theorem count_beat_dropped (follows : spawned.Follows watchdog true) (cipher : Cipher S) (events : List Event) :
    (marks cipher spawned events).count .beat = 0 := by
  induction events generalizing spawned watchdog with
  | nil => rfl
  | cons event events ih =>
    have silent : spawned.mark cipher event ≠ .beat := by
      have gone := follows.held
      cases event <;> simp [mark, gone]
    rw [marks, List.count_cons_of_ne silent, ih (follows.step cipher event)]

/-- Once a session is dead, one more packet leaves it at the most, and then its
keepalive task has ended. The task that watches the heartbeat has ended already,
unless the session was dropped; then it ends at its second tick. -/
theorem tasks_end (cipher : Cipher S) (id : SessionId) (remoteAddr : SocketAddr) (transport : LossyTransportState S)
    (before later : List Event)
    (dead : (Machines.after (step cipher) (new id remoteAddr transport) before).session.dead = true) :
    let spawned := Machines.after (step cipher) (new id remoteAddr transport) before
    let final := Machines.after (step cipher) spawned later
    (emissions Effect.outgoing (trace (step cipher) spawned later)).length ≤ 1 ∧
      (emissions Effect.outgoing (trace (step cipher) spawned later) ≠ [] → final.sending = false) ∧
      (spawned.watching = true → .drop ∈ before) ∧
      (.drop ∈ before → 2 ≤ later.count .heartbeatTick → final.watching = false) := by
  intro spawned final
  have follows := follows_new cipher id remoteAddr transport before
  have keeps : ∀ (state : Spawned S) (event : Event), state.session.dead = true →
      (step cipher state event).1.session.dead = true := fun _ event dead => (step_quiet dead event).1
  have paid : (emissions Effect.outgoing (trace (step cipher) spawned later)).length + final.sending.toNat ≤
      spawned.sending.toNat :=
    length_emissions_le (fun state : Spawned S => state.sending.toNat) keeps (fun _ event dead => (step_quiet dead event).2)
      dead later
  have single := Bool.toNat_le spawned.sending
  refine ⟨by omega, ?_, ?_, ?_⟩
  · intro sent
    have some := List.length_pos_iff.mpr sent
    apply Bool.toNat_eq_zero.mp
    omega
  · intro watching
    have running : (Watchdog.run (marks cipher (new id remoteAddr transport) before)).expired = false := by
      have alive := follows.watching.symm.trans watching
      simpa using alive
    simpa [dead, running] using follows.dead
  · intro drop ticks
    rw [decide_eq_true drop] at follows
    have silent := count_beat_dropped follows cipher later
    have ended := Watchdog.expired_of_ticks (Watchdog.run (marks cipher (new id remoteAddr transport) before))
      (by rw [silent, count_tick]; exact ticks)
    rw [(follows.after cipher later).watching, ended]
    rfl

/-- A session that is dropped at once sends one keepalive more. -/
theorem tasks_end_dropped :
    let spawned := Machines.after (step LossyTransportState.tagCipher) (new 7 (.v4 1 1) (.fromStateless ())) [.drop]
    let later := [.keepaliveTick, .heartbeatTick, .keepaliveTick, .heartbeatTick]
    let final := Machines.after (step LossyTransportState.tagCipher) spawned later
    (emissions Effect.outgoing (trace (step LossyTransportState.tagCipher) spawned later)).length = 1 ∧
      final.sending = false ∧ final.watching = false := by
  have ends := tasks_end LossyTransportState.tagCipher 7 (.v4 1 1) (.fromStateless ()) [.drop]
    [.keepaliveTick, .heartbeatTick, .keepaliveTick, .heartbeatTick] rfl
  refine ⟨rfl, ends.2.1 (by decide), ends.2.2.2 (by decide) (by decide)⟩

end Spawned

namespace LossyTransportState

/-- The nonces below a bound that the window does not refuse. -/
def outstanding (transport : LossyTransportState S) (bound : Nat) : Nat :=
  ((Finset.range bound).filter fun nonce => ¬ Window.Refuses transport.receivedNonces nonce).card

/-- The same end of a transport at a later time. -/
structure Advances (transport next : LossyTransportState S) : Prop where
  stateless : next.stateless = transport.stateless
  size : next.size = transport.size
  refuses : ∀ nonce, Window.Refuses transport.receivedNonces nonce → Window.Refuses next.receivedNonces nonce

namespace Advances

variable {transport next : LossyTransportState S}

theorem refl (transport : LossyTransportState S) : transport.Advances transport := ⟨rfl, rfl, fun _ => id⟩

theorem outstanding_le (advances : transport.Advances next) (bound : Nat) :
    next.outstanding bound ≤ transport.outstanding bound := by
  apply Finset.card_le_card
  intro nonce member
  rw [Finset.mem_filter] at member ⊢
  exact ⟨member.1, fun refused => member.2 (advances.refuses nonce refused)⟩

theorem outstanding_lt (advances : transport.Advances next) {bound nonce : Nat} (below : nonce < bound)
    (admitted : ¬ Window.Refuses transport.receivedNonces nonce) (used : Window.Refuses next.receivedNonces nonce) :
    next.outstanding bound < transport.outstanding bound := by
  apply Finset.card_lt_card
  refine ⟨?_, ?_⟩
  · intro other member
    rw [Finset.mem_filter] at member ⊢
    exact ⟨member.1, fun refused => member.2 (advances.refuses other refused)⟩
  · intro all
    have member : nonce ∈ (Finset.range bound).filter fun nonce => ¬ Window.Refuses transport.receivedNonces nonce :=
      Finset.mem_filter.mpr ⟨Finset.mem_range.mpr below, admitted⟩
    exact (Finset.mem_filter.mp (all member)).2 used

theorem of_write (cipher : Cipher S) (transport : LossyTransportState S) (payload : Bytes) (capacity : Nat) :
    transport.Advances (transport.writeMessage cipher payload capacity).1 := by
  obtain ⟨nextNonce, -, moved⟩ := transport.writeMessage_state cipher payload capacity
  rw [moved]
  exact ⟨rfl, rfl, fun _ => id⟩

theorem of_packet (cipher : Cipher S) (transport : LossyTransportState S) (positive : 1 ≤ transport.size)
    (packet : SessionPacket) : transport.Advances (afterPacket cipher transport packet) := by
  unfold afterPacket
  split
  · exact .refl transport
  next encrypted carried =>
    rw [transport.readMessage_state]
    refine ⟨rfl, rfl, ?_⟩
    intro nonce refused
    cases Nonced.codec.deserialize encrypted with
    | none => exact refused
    | some nonced => exact Window.refuses_visit positive refused nonced.nonce

theorem of_accepted {cipher : Cipher S} {transport : LossyTransportState S} (positive : 1 ≤ transport.size)
    {packet : SessionPacket} {message : Message} (accepted : message ∈ acceptedIn cipher transport packet) :
    ∃ nonce ciphertext plaintext, cipher.readMessage transport.stateless nonce ciphertext 65535 = some plaintext ∧
      ¬ Window.Refuses transport.receivedNonces nonce ∧
      Window.Refuses (afterPacket cipher transport packet).receivedNonces nonce := by
  unfold acceptedIn Party.opening at accepted
  obtain ⟨read, opened, -⟩ := List.mem_filterMap.mp accepted
  obtain ⟨encrypted, carried, taken⟩ := Option.bind_eq_some_iff.mp (Option.mem_toList.mp opened)
  obtain ⟨nonced, decoded, same, admitted, plain⟩ := transport.read?_some cipher taken
  refine ⟨read.1, nonced.payload, read.2, plain, admitted, ?_⟩
  rw [afterPacket, carried]
  simp only [transport.readMessage_state, decoded]
  rw [← same]
  exact Window.refuses_visit_self positive _ _

end Advances
end LossyTransportState

namespace Spawned

variable {cipher : Cipher S} {spawned : Spawned S}

theorem step_advances (cipher : Cipher S) (spawned : Spawned S) (positive : 1 ≤ spawned.session.transport.size)
    (event : Event) : spawned.session.transport.Advances (spawned.step cipher event).1.session.transport := by
  cases event with
  | receive packet =>
    obtain ⟨woken, stepped⟩ := spawned.receive_eq cipher packet
    rw [stepped]
    split
    · dsimp only
      rw [(spawned.session.handleIncoming_state cipher packet).1]
      exact .of_packet cipher _ positive packet
    · exact .refl _
  | send data =>
    simp only [step]
    split
    · simp only [Session.send]
      split
      · exact .refl _
      · rw [spawned.session.encrypt_state]
        exact .of_write cipher _ _ _
    · exact .refl _
  | poll future waker =>
    simp only [step, Session.poll]
    split
    · exact .refl _
    · split
      · exact .refl _
      · exact .refl _
  | keepaliveTick =>
    rw [step]
    rcases spawned.keepaliveTick_cases cipher with ⟨same, -⟩ | ⟨-, sending, outgoing, ticked, -⟩
    · rw [same]
      exact .refl _
    · rw [ticked]
      simp only [Session.keepalive, spawned.session.encrypt_state]
      exact .of_write cipher _ _ _
  | heartbeatTick =>
    simp only [step, heartbeatTick, Session.checkHeartbeat]
    split
    · split
      · exact .refl _
      · exact .refl _
    · exact .refl _
  | drop => exact .refl _

/-- Every beat uses up a nonce. -/
theorem count_beat_le (positive : 1 ≤ spawned.session.transport.size) {bound : Nat}
    (authentic : ∀ nonce ciphertext plaintext,
      cipher.readMessage spawned.session.transport.stateless nonce ciphertext 65535 = some plaintext → nonce < bound)
    (events : List Event) :
    (marks cipher spawned events).count .beat ≤ spawned.session.transport.outstanding bound := by
  induction events generalizing spawned with
  | nil => exact Nat.zero_le _
  | cons event events ih =>
    have advances := spawned.step_advances cipher positive event
    have rest := ih (advances.size.symm ▸ positive) (advances.stateless.symm ▸ authentic)
    rw [marks, List.count_cons]
    by_cases beat : spawned.mark cipher event = .beat
    · cases event with
      | receive packet =>
        rw [mark] at beat
        split at beat
        next heard =>
          obtain ⟨held, accepted⟩ := heard
          obtain ⟨nonce, ciphertext, plaintext, opens, admitted, used⟩ :=
            LossyTransportState.Advances.of_accepted positive accepted
          obtain ⟨woken, stepped⟩ := spawned.receive_eq cipher packet
          have after : (spawned.step cipher (.receive packet)).1.session.transport =
              afterPacket cipher spawned.session.transport packet := by
            rw [stepped, if_pos held]
            exact (spawned.session.handleIncoming_state cipher packet).1
          have fewer := advances.outstanding_lt (authentic nonce ciphertext plaintext opens) admitted (after ▸ used)
          split <;> omega
        · cases beat
      | _ => cases beat
    · rw [if_neg (by simpa using beat)]
      exact rest.trans (advances.outstanding_le bound)

theorem after_advances (cipher : Cipher S) (spawned : Spawned S) (positive : 1 ≤ spawned.session.transport.size)
    (events : List Event) : (Machines.after (step cipher) spawned events).session.transport.size =
        spawned.session.transport.size ∧
      (Machines.after (step cipher) spawned events).session.transport.stateless = spawned.session.transport.stateless := by
  induction events generalizing spawned with
  | nil => exact ⟨rfl, rfl⟩
  | cons event events ih =>
    have advances := spawned.step_advances cipher positive event
    obtain ⟨size, stateless⟩ := ih (spawned.step cipher event).1 (advances.size.symm ▸ positive)
    exact ⟨size.trans advances.size, stateless.trans advances.stateless⟩

/-- A peer that has stopped writing is noticed: packets that it wrote before, however
often they are replayed, keep a session alive for one tick each at the most. -/
theorem stopped_peer_noticed (cipher : Cipher S) (id : SessionId) (remoteAddr : SocketAddr)
    (transport : LossyTransportState S) (positive : 1 ≤ transport.size) (written : Nat)
    (authentic : ∀ nonce ciphertext plaintext,
      cipher.readMessage transport.stateless nonce ciphertext 65535 = some plaintext → nonce < written)
    (before later : List Event)
    (ticks : (Machines.after (step cipher) (new id remoteAddr transport) before).session.transport.outstanding written + 2 ≤
      later.count .heartbeatTick) :
    (Machines.after (step cipher) (new id remoteAddr transport) (before ++ later)).session.dead = true := by
  obtain ⟨size, stateless⟩ := (new id remoteAddr transport).after_advances cipher positive before
  have follows := follows_new cipher id remoteAddr transport before
  have few : (marks cipher (Machines.after (step cipher) (new id remoteAddr transport) before) later).count .beat ≤ _ :=
    count_beat_le (size.symm ▸ positive) (stateless.symm ▸ authentic) later
  have expired := Watchdog.expired_of_ticks (Watchdog.run (marks cipher (new id remoteAddr transport) before))
    (by rw [count_tick]; exact (Nat.add_le_add_right few 2).trans ticks)
  rw [after_append, (follows.after cipher later).dead, expired, Bool.or_true]

/-- What a peer wrote at nonce 0, and nothing else, can be opened. -/
def onceCipher : Cipher Unit where
  writeMessage := LossyTransportState.tagCipher.writeMessage
  readMessage stateless nonce ciphertext capacity :=
    if nonce = 0 then LossyTransportState.tagCipher.readMessage stateless nonce ciphertext capacity else none

def onlyKeepalive : SessionPacket :=
  ⟨7, RawMessage.codec.encode (.encrypted (LossyTransportState.tagged 0 (Message.codec.encode .keepalive)))⟩

/-- The keepalive is accepted once; after that it is replayed in vain. -/
theorem stopped_peer_noticed_replayed :
    let opened := new 7 (.v4 1 1) (LossyTransportState.fromStateless ())
    let replayed := [.heartbeatTick, .receive onlyKeepalive, .heartbeatTick]
    marks onceCipher opened (.receive onlyKeepalive :: replayed) = [.beat, .tick, .other, .tick] ∧
      (Machines.after (step onceCipher) opened ([.receive onlyKeepalive] ++ replayed)).session.dead = true := by
  refine ⟨by decide, ?_⟩
  refine stopped_peer_noticed onceCipher 7 (.v4 1 1) (.fromStateless ()) (by decide) 1 ?_ [.receive onlyKeepalive]
    [.heartbeatTick, .receive onlyKeepalive, .heartbeatTick] (by decide)
  intro nonce ciphertext plaintext opens
  simp only [onceCipher, Option.ite_none_right_eq_some] at opens
  omega

end Spawned
end Veq
