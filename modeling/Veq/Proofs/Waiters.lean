import Veq.Proofs.Lifetime

/-! The connects that wait for their session. An entry that leaves the pending
maps drops the sender of its channel, which a poll does not look at: a connect
whose entry was discarded, replaced or closed waits forever. -/

namespace Veq.Socket
open Rust Bincode Lifecycle

variable {H S : Type} {snow : Snow H S} {socket next : Socket H S} {label : Label}

/-- The one-time id that is pending under an id in one of the three pending maps. -/
def PendingAt (socket : Socket H S) (id : SessionId) (oneTimeId : OneTimeId) : Prop :=
  ∃ place ∈ [Place.responder, .poker, .initiator], socket.handler.registered place id = some oneTimeId

instance decidablePendingAt (socket : Socket H S) (id : SessionId) (oneTimeId : OneTimeId) :
    Decidable (socket.PendingAt id oneTimeId) :=
  inferInstanceAs (Decidable (∃ place ∈ _, _))

/-- A connect with this one-time id still waits. -/
def Awaited (socket : Socket H S) (oneTimeId : OneTimeId) : Prop :=
  ∃ ready ∈ socket.waiting, ready.oneTimeId = oneTimeId ∧ ready.completed = false

instance decidableAwaited (socket : Socket H S) (oneTimeId : OneTimeId) : Decidable (socket.Awaited oneTimeId) :=
  inferInstanceAs (Decidable (∃ ready ∈ _, _))

/-- The one-time id whose entry a packet makes the handler discard. -/
def discards (snow : Snow H S) (handler : Handler H S) (src : SocketAddr) (data : Bytes) (ephemeral : Nat) :
    Option OneTimeId :=
  match SessionPacket.codec.deserialize data with
  | none => none
  | some packet =>
    match handler.fate snow src packet ephemeral with
    | some (oneTimeId, .discard _) => some oneTimeId
    | _ => none

/-- No connect still waits for an entry under this id. -/
def Vacant (socket : Socket H S) (id : SessionId) : Prop :=
  ∀ ready ∈ socket.waiting, ready.completed = false → ¬ socket.PendingAt id ready.oneTimeId

instance decidableVacant (socket : Socket H S) (id : SessionId) : Decidable (socket.Vacant id) :=
  inferInstanceAs (Decidable (∀ ready ∈ socket.waiting, _ → _))

/-- No call removes the pending entry of a connect that still waits. -/
def Settles (snow : Snow H S) (socket : Socket H S) : Label → Prop
  | .operate (.initiate id _ _ _) => socket.Vacant id
  | .operate (.respond id _ _) => socket.Vacant id
  | .operate (.handleIncoming src data ephemeral) =>
    ∀ oneTimeId ∈ discards snow socket.handler src data ephemeral, ¬ socket.Awaited oneTimeId
  | .operate (.closeSession id oneTimeId) => socket.PendingAt id oneTimeId → ¬ socket.Awaited oneTimeId
  | _ => True

instance decidableSettles (snow : Snow H S) (socket : Socket H S) : (label : Label) → Decidable (socket.Settles snow label)
  | .operate (.initiate id _ _ _) => inferInstanceAs (Decidable (socket.Vacant id))
  | .operate (.respond id _ _) => inferInstanceAs (Decidable (socket.Vacant id))
  | .operate (.handleIncoming _ _ _) => Option.decidableForallMem _
  | .operate (.closeSession id oneTimeId) =>
    inferInstanceAs (Decidable (socket.PendingAt id oneTimeId → ¬ socket.Awaited oneTimeId))
  | .operate (.send _ _) => inferInstanceAs (Decidable True)
  | .operate (.recvFrom _) => inferInstanceAs (Decidable True)
  | .operate (.keepalive _) => inferInstanceAs (Decidable True)
  | .operate (.checkHeartbeat _) => inferInstanceAs (Decidable True)
  | .poll _ _ => inferInstanceAs (Decidable True)
  | .drop _ => inferInstanceAs (Decidable True)
  | .send _ _ => inferInstanceAs (Decidable True)
  | .recv _ => inferInstanceAs (Decidable True)
  | .pollReceiving _ _ _ => inferInstanceAs (Decidable True)

/-- A notification waits in the channel of this one-time id. -/
def Notified (socket : Socket H S) (oneTimeId : OneTimeId) : Prop :=
  ∃ channel, socket.handler.readiness oneTimeId = some channel ∧ 0 < channel.notifications

structure Watched (socket : Socket H S) : Prop where
  distinct : (socket.waiting.map SessionReady.oneTimeId).Nodup
  issued : ∀ ready ∈ socket.waiting, (ready.id, ready.oneTimeId) ∈ socket.issued
  listening : ∀ ready ∈ socket.waiting, socket.handler.isListening ready.oneTimeId = true
  served : ∀ ready ∈ socket.waiting, ready.completed = false →
    socket.PendingAt ready.id ready.oneTimeId ∨ socket.Notified ready.oneTimeId

namespace PendingAt

variable {id : SessionId} {oneTimeId : OneTimeId}

theorem of_ne {place : Place} (elsewhere : place ≠ .established)
    (found : socket.handler.registered place id = some oneTimeId) : socket.PendingAt id oneTimeId := by
  refine ⟨place, ?_, found⟩
  cases place with
  | established => exact absurd rfl elsewhere
  | responder => simp
  | poker => simp
  | initiator => simp

theorem exists_ne (pending : socket.PendingAt id oneTimeId) :
    ∃ place, place ≠ .established ∧ socket.handler.registered place id = some oneTimeId := by
  obtain ⟨place, member, found⟩ := pending
  refine ⟨place, ?_, found⟩
  rintro rfl
  simp at member

theorem mono (pending : socket.PendingAt id oneTimeId)
    (kept : ∀ place, place ≠ .established → socket.handler.registered place id = some oneTimeId →
      next.handler.registered place id = some oneTimeId) : next.PendingAt id oneTimeId := by
  obtain ⟨place, elsewhere, found⟩ := pending.exists_ne
  exact .of_ne elsewhere (kept place elsewhere found)

end PendingAt

namespace Watched

theorem start (keypair : SnowKeypair) : (start keypair : Socket H S).Watched := by
  constructor <;> simp [Socket.start]

theorem keep (watched : socket.Watched) (waiting : next.waiting = socket.waiting) (issued : next.issued = socket.issued)
    (readiness : next.handler.readiness = socket.handler.readiness)
    (pending : ∀ ready ∈ socket.waiting, ready.completed = false → socket.PendingAt ready.id ready.oneTimeId →
      next.PendingAt ready.id ready.oneTimeId) : next.Watched := by
  refine ⟨waiting ▸ watched.distinct, by rw [waiting, issued]; exact watched.issued, ?_, ?_⟩
  · rw [waiting]
    intro ready member
    simpa only [Handler.isListening, readiness] using watched.listening ready member
  · rw [waiting]
    intro ready member active
    rcases watched.served ready member active with held | notified
    · exact .inl (pending ready member active held)
    · exact .inr (by simpa only [Notified, readiness] using notified)

theorem not_fresh (watched : socket.Watched) {oneTimeId : OneTimeId} (fresh : oneTimeId ∉ socket.issued.map Prod.snd)
    {ready : SessionReady} (member : ready ∈ socket.waiting) : ready.oneTimeId ≠ oneTimeId := by
  rintro rfl
  exact fresh (List.mem_map.mpr ⟨_, watched.issued ready member, rfl⟩)

theorem connect (watched : socket.Watched) (snow : Snow H S) (id : SessionId) (oneTimeId : OneTimeId) (request : Request)
    (fresh : oneTimeId ∉ socket.issued.map Prod.snd) (vacant : socket.Vacant id) :
    (socket.connect (request.insert snow (socket.handler.removeSession id none) id oneTimeId)).Watched := by
  have swept := socket.handler.registered_removeSession id none
  have elsewhere : ∀ ready ∈ socket.waiting, ready.completed = false → socket.PendingAt ready.id ready.oneTimeId →
      ready.id ≠ id := by
    rintro ready member active pending rfl
    exact vacant ready member active pending
  rcases Request.insert_cases snow (socket.handler.removeSession id none) id oneTimeId request with
    failed | ⟨handler, ready, inserted, -, registered⟩
  · rw [failed]
    refine watched.keep rfl rfl rfl ?_
    intro ready member active pending
    refine pending.mono fun place _ found => ?_
    simp [Socket.connect, swept, elsewhere ready member active pending, found]
  · obtain ⟨rfl, readiness⟩ := Request.insert_ready inserted
    rw [inserted]
    refine ⟨?_, ?_, ?_, ?_⟩
    · simp only [Socket.connect, List.map_append]
      refine List.nodup_append.mpr ⟨watched.distinct, by simp, ?_⟩
      intro other member another new same
      obtain ⟨ready, inside, rfl⟩ := List.mem_map.mp member
      exact watched.not_fresh fresh inside (same.trans (List.mem_singleton.mp new))
    · intro ready member
      rcases List.mem_append.mp member with old | new
      · exact List.mem_append_left _ (watched.issued ready old)
      · rw [List.mem_singleton.mp new]
        simp [Socket.connect]
    · intro ready member
      simp only [Socket.connect, Handler.isListening, readiness]
      rcases List.mem_append.mp member with old | new
      · rw [HashMap.insert_other _ _ (watched.not_fresh fresh old)]
        exact watched.listening ready old
      · rw [List.mem_singleton.mp new]
        simp
    · intro ready member active
      rcases List.mem_append.mp member with old | new
      · rcases watched.served ready old active with pending | ⟨channel, found, waits⟩
        · refine .inl (pending.mono fun place _ found => ?_)
          have different := elsewhere ready old active pending
          simp only [Socket.connect, registered]
          rw [Registry.put_other fun same => different same.2]
          simp [swept, different, found]
        · refine .inr ⟨channel, ?_, waits⟩
          simp only [Socket.connect, readiness]
          rw [HashMap.insert_other _ _ (watched.not_fresh fresh old)]
          exact found
      · rw [List.mem_singleton.mp new]
        have first : request.place ≠ .established := by cases request <;> simp [Request.place]
        refine .inl (.of_ne first ?_)
        simp only [Socket.connect, registered, Registry.put_same]

theorem channel (watched : socket.Watched) {ready : SessionReady} (member : ready ∈ socket.waiting) :
    ∃ channel, socket.handler.readiness ready.oneTimeId = some channel ∧ channel.listening = true := by
  have listening := watched.listening ready member
  unfold Handler.isListening at listening
  cases found : socket.handler.readiness ready.oneTimeId with
  | none => simp [found] at listening
  | some channel => exact ⟨channel, rfl, by simpa [found] using listening⟩

private theorem packet_pending {ledger : Ledger SessionId OneTimeId Place} (kept : Kept socket ledger)
    {src : SocketAddr} {data : Bytes} {ephemeral : Nat} {packet : SessionPacket}
    (decoded : SessionPacket.codec.deserialize data = some packet)
    (settles : ∀ oneTimeId ∈ discards snow socket.handler src data ephemeral, ¬ socket.Awaited oneTimeId)
    {oneTimeId : OneTimeId} {fate : Fate} (found : socket.handler.fate snow src packet ephemeral = some (oneTimeId, fate))
    {ready : SessionReady} (member : ready ∈ socket.waiting) (active : ready.completed = false)
    (pending : socket.PendingAt ready.id ready.oneTimeId)
    (registered : next.handler.registered = fate.apply socket.handler.registered packet.id oneTimeId) :
    next.PendingAt ready.id ready.oneTimeId ∨
      fate = .advance fate.source .established ∧ ready.oneTimeId = oneTimeId := by
  obtain ⟨place, elsewhere, held⟩ := pending.exists_ne
  by_cases same : ready.id = packet.id
  · have here : socket.handler.registered place packet.id = some ready.oneTimeId := same ▸ held
    have entry := ((kept.represents place packet.id ready.oneTimeId).mp here).symm.trans
      ((kept.represents fate.source packet.id oneTimeId).mp (Handler.fate_pending found).1)
    obtain ⟨-, token⟩ := Prod.mk.inj (Option.some.inj entry)
    cases fate with
    | keep _ => exact .inl (.of_ne elsewhere (by rw [registered]; exact held))
    | discard _ =>
      have discarded : oneTimeId ∈ discards snow socket.handler src data ephemeral := by
        simp [discards, decoded, found]
      exact absurd ⟨ready, member, token, active⟩ (settles oneTimeId discarded)
    | advance before after =>
      by_cases established : after = .established
      · exact .inr ⟨by rw [established]; rfl, token⟩
      · refine .inl (.of_ne established ?_)
        rw [registered, same, token]
        exact Registry.put_same
  · refine .inl (.of_ne elsewhere ?_)
    rw [registered, Fate.apply_other same, held]

theorem packet (watched : socket.Watched) {ledger : Ledger SessionId OneTimeId Place} (kept : Kept socket ledger)
    {src : SocketAddr} {data : Bytes} {ephemeral : Nat} {packet : SessionPacket}
    (decoded : SessionPacket.codec.deserialize data = some packet)
    (settles : ∀ oneTimeId ∈ discards snow socket.handler src data ephemeral, ¬ socket.Awaited oneTimeId)
    (handler : next.handler = socket.handler.handlePacket snow src packet ephemeral)
    (waiting : next.waiting = socket.waiting) (issued : next.issued = socket.issued) : next.Watched := by
  cases found : socket.handler.fate snow src packet ephemeral with
  | none =>
    obtain ⟨registered, readiness⟩ := Handler.handlePacket_idle found
    rw [← handler] at registered readiness
    refine watched.keep waiting issued readiness ?_
    intro ready member active pending
    exact pending.mono fun place _ held => by rw [registered]; exact held
  | some decided =>
    obtain ⟨oneTimeId, fate⟩ := decided
    obtain ⟨registered, readiness⟩ := Handler.handlePacket_fate found
    rw [← handler] at registered readiness
    have channels : ∀ ready ∈ socket.waiting, ∃ before after, socket.handler.readiness ready.oneTimeId = some before ∧
        next.handler.readiness ready.oneTimeId = some after ∧
        after.listening = true ∧ before.notifications ≤ after.notifications ∧
        (fate = .advance fate.source .established → ready.oneTimeId = oneTimeId → 0 < after.notifications) := by
      intro ready member
      obtain ⟨channel, held, listening⟩ := watched.channel member
      rw [readiness ready.oneTimeId, held]
      split
      · exact ⟨channel, _, rfl, rfl, by simp [Handler.announce, listening], by simp [Handler.announce, listening],
          fun _ _ => by simp [Handler.announce, listening]⟩
      next other =>
        exact ⟨channel, channel, rfl, rfl, listening, Nat.le_refl _, fun established same =>
          absurd ⟨established, same⟩ other⟩
    refine ⟨waiting ▸ watched.distinct, by rw [waiting, issued]; exact watched.issued, ?_, ?_⟩
    · rw [waiting]
      intro ready member
      obtain ⟨before, after, -, held, listening, -⟩ := channels ready member
      simp [Handler.isListening, held, listening]
    · rw [waiting]
      intro ready member active
      obtain ⟨before, after, channel, held, -, grows, notified⟩ := channels ready member
      rcases watched.served ready member active with pending | ⟨current, present, waits⟩
      · rcases packet_pending kept decoded settles found member active pending registered with stays | ⟨established, same⟩
        · exact .inl stays
        · exact .inr ⟨after, held, notified established same⟩
      · cases channel.symm.trans present
        exact .inr ⟨after, held, Nat.lt_of_lt_of_le waits grows⟩

theorem close (watched : socket.Watched) (id : SessionId) (oneTimeId : OneTimeId)
    (settles : socket.PendingAt id oneTimeId → ¬ socket.Awaited oneTimeId) :
    Watched { socket with handler := socket.handler.removeSession id (some oneTimeId) } := by
  have registered := socket.handler.registered_removeSession id (some oneTimeId)
  refine watched.keep rfl rfl rfl ?_
  intro ready member active pending
  refine pending.mono fun place elsewhere found => ?_
  simp only [registered, reduceCtorEq, false_or]
  rw [if_neg, found]
  rintro ⟨same, held⟩
  rw [← same, found] at held
  obtain rfl := Option.some.inj held
  exact settles (same ▸ .of_ne elsewhere found) ⟨ready, member, rfl, active⟩

theorem recvFrom (watched : socket.Watched) (id : SessionId) (receiving : List (BidirectionalSession × Receiving)) :
    Watched { socket with handler := (socket.handler.recvFrom id).1, receiving } := by
  have readiness : (socket.handler.recvFrom id).1.readiness = socket.handler.readiness := by
    unfold Handler.recvFrom
    split
    · rfl
    · split
      · rfl
      · rfl
  refine watched.keep rfl rfl readiness ?_
  intro ready member active pending
  refine pending.mono fun place elsewhere found => ?_
  rcases socket.handler.registered_recvFrom id with same | cleared
  · simpa only [same] using found
  · simp only [cleared]
    rw [Registry.clear_other fun same => elsewhere same.1, found]

theorem update (watched : socket.Watched) (id : SessionId) (change : Session S → Session S) :
    Watched { socket with handler := socket.handler.updateEstablished id change } := by
  have readiness : (socket.handler.updateEstablished id change).readiness = socket.handler.readiness := by
    unfold Handler.updateEstablished
    split
    · rfl
    · rfl
  refine watched.keep rfl rfl readiness ?_
  intro ready member active pending
  exact pending.mono fun place _ found => by rw [socket.handler.registered_updateEstablished id change]; exact found

theorem other_token (watched : socket.Watched) {waiter other : Nat} {ready another : SessionReady}
    (found : socket.waiting[waiter]? = some ready) (present : socket.waiting[other]? = some another)
    (different : other ≠ waiter) : another.oneTimeId ≠ ready.oneTimeId := by
  intro same
  apply different
  have inside : other < (socket.waiting.map SessionReady.oneTimeId).length := by
    simpa using (List.getElem?_eq_some_iff.mp present).1
  exact (List.getElem?_inj inside watched.distinct).mp (by simp [found, present, same])

private theorem register_listening (ready : SessionReady) (readiness : Readiness) (waker : Waker) :
    (ready.register readiness waker).2.listening = readiness.listening := by
  unfold SessionReady.register
  split
  · rfl
  · rfl

private theorem poll_listening (ready : SessionReady) (readiness : Readiness) (waker : Waker) :
    (ready.poll readiness waker).2.1.listening = readiness.listening := by
  unfold SessionReady.poll
  split
  next received =>
    unfold Readiness.tryRecv at received
    split at received
    · cases received
      rfl
    · cases received
  next => exact register_listening ready readiness waker

private theorem poll_silent {ready : SessionReady} {readiness : Readiness} {waker : Waker}
    (unfinished : (ready.poll readiness waker).1.completed = false) : readiness.notifications = 0 := by
  by_contra waits
  have received : readiness.tryRecv = some { readiness with notifications := readiness.notifications - 1 } := by
    simp [Readiness.tryRecv, Nat.pos_of_ne_zero waits]
  simp [SessionReady.poll, received] at unfinished

theorem poll (watched : socket.Watched) {waiter : Nat} {waker : Waker} (polled : socket.poll waiter waker = some next) :
    next.Watched := by
  obtain ⟨ready, readiness, found, active, channel, handler, waiting, issued, -⟩ := poll_cases polled
  obtain ⟨sameId, sameToken⟩ := ready.poll_id readiness waker
  have registered : next.handler.registered = socket.handler.registered := by
    rw [handler]
    rfl
  have channels : next.handler.readiness =
      socket.handler.readiness.insert ready.oneTimeId (ready.poll readiness waker).2.1 := by rw [handler]
  have split : ∀ another ∈ next.waiting, another = (ready.poll readiness waker).1 ∨
      another ∈ socket.waiting ∧ another.oneTimeId ≠ ready.oneTimeId := by
    intro another member
    obtain ⟨index, present⟩ := List.mem_iff_getElem?.mp (waiting ▸ member)
    rcases Runs.set_some present with ⟨-, same⟩ | ⟨different, old⟩
    · exact .inl same
    · exact .inr ⟨List.mem_of_getElem? old, watched.other_token found old different⟩
  refine ⟨?_, ?_, ?_, ?_⟩
  · have unchanged : next.waiting.map SessionReady.oneTimeId = socket.waiting.map SessionReady.oneTimeId := by
      rw [waiting, List.map_set, sameToken]
      apply List.ext_getElem?
      intro index
      rw [List.getElem?_set]
      split
      next same =>
        obtain ⟨inside, present⟩ := List.getElem?_eq_some_iff.mp found
        simp [← same, inside, present]
      next => rfl
    exact unchanged ▸ watched.distinct
  · intro another member
    rw [issued]
    rcases split another member with rfl | ⟨old, -⟩
    · rw [sameId, sameToken]
      exact watched.issued ready (List.mem_of_getElem? found)
    · exact watched.issued another old
  · intro another member
    rw [Handler.isListening, channels]
    rcases split another member with rfl | ⟨old, different⟩
    · obtain ⟨present, same, listening⟩ := watched.channel (List.mem_of_getElem? found)
      cases channel.symm.trans same
      simp [sameToken, poll_listening, listening]
    · rw [HashMap.insert_other _ _ different]
      exact watched.listening another old
  · intro another member unfinished
    rcases split another member with rfl | ⟨old, different⟩
    · have silent := poll_silent unfinished
      rcases watched.served ready (List.mem_of_getElem? found) active with pending | ⟨present, same, waits⟩
      · rw [sameId, sameToken]
        exact .inl (pending.mono fun place _ held => by rw [registered]; exact held)
      · cases channel.symm.trans same
        omega
    · rcases watched.served another old unfinished with pending | ⟨present, same, waits⟩
      · exact .inl (pending.mono fun place _ held => by rw [registered]; exact held)
      · refine .inr ⟨present, ?_, waits⟩
        rw [channels, HashMap.insert_other _ _ different]
        exact same

theorem drop (watched : socket.Watched) {waiter : Nat} (dropped : socket.drop waiter = some next) : next.Watched := by
  obtain ⟨ready, found, rfl⟩ := drop_cases dropped
  have others : ∀ another ∈ socket.waiting.eraseIdx waiter, another ∈ socket.waiting ∧
      another.oneTimeId ≠ ready.oneTimeId := by
    intro another member
    obtain ⟨index, different, present⟩ := List.mem_eraseIdx_iff_getElem?.mp member
    exact ⟨List.mem_of_getElem? present, watched.other_token found present different⟩
  refine ⟨?_, ?_, ?_, ?_⟩
  · exact watched.distinct.sublist ((List.eraseIdx_sublist _ _).map _)
  · intro another member
    exact watched.issued another (others another member).1
  · intro another member
    simpa only [Handler.isListening, if_neg (others another member).2] using watched.listening another (others another member).1
  · intro another member active
    rcases watched.served another (others another member).1 active with pending | ⟨channel, present, waits⟩
    · exact .inl pending
    · exact .inr ⟨channel, by simpa only [if_neg (others another member).2] using present, waits⟩

theorem step (watched : socket.Watched) {ledger : Ledger SessionId OneTimeId Place} (kept : Kept socket ledger)
    (settles : socket.Settles snow label) (transition : Transition snow socket next label) : next.Watched := by
  cases transition with
  | connect id oneTimeId request fresh connected =>
    subst connected
    cases request with
    | initiate info ephemeral => exact watched.connect snow id oneTimeId _ fresh settles
    | respond info => exact watched.connect snow id oneTimeId _ fresh settles
  | packet src data ephemeral packet decoded handled =>
    exact watched.packet kept decoded settles (by rw [handled]) (by rw [handled]) (by rw [handled])
  | close id oneTimeId closed => exact closed ▸ watched.close id oneTimeId settles
  | recvFrom id receiving received => exact received ▸ watched.recvFrom id receiving
  | update id change updated => exact updated ▸ watched.update id change
  | idle same => exact same ▸ watched
  | poll waiter waker polled => exact watched.poll polled
  | drop waiter dropped => exact watched.drop dropped

end Watched

/-- As long as no call removes the pending entry of a connect that still waits,
every connect that waits has its entry in a pending map, or its next poll
completes it. -/
theorem no_stranded_waiter (snow : Snow H S) (keypair : SnowKeypair) (labels : List Label) (final : Socket H S)
    (settles : Runs.Meets (step snow) (Settles snow) (start keypair) labels)
    (reached : Runs.run (step snow) (start keypair) labels = some final) :
    ∀ ready ∈ final.waiting, ready.completed = false →
      (∃ place, place ≠ .established ∧ final.handler.registered place ready.id = some ready.oneTimeId) ∨
      ∃ channel, final.handler.readiness ready.oneTimeId = some channel ∧ 0 < channel.notifications ∧
        ∀ waker, (ready.poll channel waker).2.2 = .ready (ready.id, ready.oneTimeId) := by
  have preserves : ∀ (socket : Socket H S) label next, (socket.Watched ∧ ∃ ledger, Kept socket ledger) →
      socket.Settles snow label → socket.step snow label = some next → next.Watched ∧ ∃ ledger, Kept next ledger := by
    rintro socket label next ⟨watched, ledger, kept⟩ settles stepped
    have transition := step_transition stepped
    obtain ⟨after, -, keeps⟩ := kept.step transition
    exact ⟨watched.step kept settles transition, after, keeps⟩
  obtain ⟨watched, -⟩ := settles.invariant preserves ⟨.start keypair, _, .start keypair⟩ reached
  intro ready member active
  rcases watched.served ready member active with pending | ⟨channel, found, waits⟩
  · exact .inl pending.exists_ne
  · exact .inr ⟨channel, found, waits, fun waker => by simp [SessionReady.poll, Readiness.tryRecv, waits]⟩

/-- The response arrives before the connect is polled. -/
theorem no_stranded_waiter_answered :
    ∃ final, Runs.run (step Handler.fixedSnow) (start ⟨[1], [2]⟩) [.operate (.initiate 7 ⟨[], [9]⟩ 0 40),
        .operate (.handleIncoming (.v4 1 1) (Handler.packetFor 7 (.handshakeResponse [2])) 0)] = some final ∧
      (⟨7, 40, false, false⟩ : SessionReady) ∈ final.waiting ∧
      ((∃ place, place ≠ .established ∧ final.handler.registered place 7 = some 40) ∨
        ∃ channel, final.handler.readiness 40 = some channel ∧ 0 < channel.notifications ∧
          ∀ waker, ((⟨7, 40, false, false⟩ : SessionReady).poll channel waker).2.2 = .ready (7, 40)) := by
  refine ⟨_, rfl, by decide, ?_⟩
  exact no_stranded_waiter Handler.fixedSnow ⟨[1], [2]⟩ [.operate (.initiate 7 ⟨[], [9]⟩ 0 40),
    .operate (.handleIncoming (.v4 1 1) (Handler.packetFor 7 (.handshakeResponse [2])) 0)] _ (by decide) rfl
    ⟨7, 40, false, false⟩ (by decide) rfl

/-- A responder whose first initiation is rejected waits for a discarded entry. -/
theorem no_stranded_waiter_discarded :
    ∃ final, Runs.run (step Handler.fixedSnow) (start ⟨[1], [2]⟩) [.operate (.respond 7 ⟨[], [9]⟩ 40),
        .operate (.handleIncoming (.v4 1 1) (Handler.packetFor 7 (.handshakeInitiation [0])) 0)] = some final ∧
      ∃ ready ∈ final.waiting, ready.completed = false ∧
        (∀ place, final.handler.registered place ready.id ≠ some ready.oneTimeId) ∧
        ∃ channel, final.handler.readiness ready.oneTimeId = some channel ∧ channel.notifications = 0 ∧
          ∀ waker, (ready.poll channel waker).2.2 = .pending := by
  refine ⟨_, rfl, ⟨7, 40, false, false⟩, by decide, rfl, ?_, _, rfl, rfl, fun waker => rfl⟩
  intro place
  cases place with
  | established => decide
  | responder => decide
  | poker => decide
  | initiator => decide

end Veq.Socket
