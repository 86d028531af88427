import Veq.Wakeups
import Veq.Proofs.Lifetime

/-! Wake-ups that get lost. A payload wakes one waker, which may belong to a future
that was dropped or is no longer waiting, and a poll that finds the queue empty
registers its waker only later. What must be kept is a count: as long as some
future waits without having been called, every queued payload has a caller. The
notification of a connect wakes all registered wakers, but only the waker of the
first poll is among them. -/

namespace Veq
open Rust

namespace Inbox

variable {inbox next : Inbox} {label : Label} {future : Nat} {listener : Listener}

/-- The inbox is that of a session. -/
def Of {S : Type} (session : Session S) (inbox : Inbox) : Prop :=
  session.dead = false ∧ inbox.messages = session.messages ∧ inbox.wakers = session.wakers

/-- The two steps of a poll, with nothing between them, are the poll of the session. -/
theorem Of.poll {S : Type} {session : Session S} (same : inbox.Of session)
    (found : inbox.futures[future]? = some listener) (resting : listener.progress.isResting = true) (waker : Waker) :
    ∃ next, Runs.run step inbox [.tryRecv future waker, .updateWakers future] = some next ∧
      next.Of (session.poll listener.id waker).1 := by
  obtain ⟨living, messages, wakers⟩ := same
  obtain ⟨inside, rfl⟩ := List.getElem?_eq_some_iff.mp found
  cases queue : session.messages with
  | nil =>
    rw [queue] at messages
    have polled : Runs.run step inbox [.tryRecv future waker, .updateWakers future] =
        some ({ inbox with wakers := inbox.wakers.insert inbox.futures[future].id waker }.setProgress future
          ⟨inbox.futures[future].id, .pending waker, false⟩) := by
      simp [Runs.run, step, resting, Inbox.tryRecv, messages, setProgress, inside]
    exact ⟨_, polled, by simp [Of, Session.poll, living, queue, wakers, messages, setProgress]⟩
  | cons data rest =>
    rw [queue] at messages
    have polled : Runs.run step inbox [.tryRecv future waker, .updateWakers future] =
        some ({ inbox with messages := rest, wakers := inbox.wakers.erase inbox.futures[future].id }.setProgress future
          ⟨inbox.futures[future].id, .ready data, false⟩) := by
      simp [Runs.run, step, resting, Inbox.tryRecv, messages, setProgress, inside]
    exact ⟨_, polled, by simp [Of, Session.poll, living, queue, wakers, setProgress]⟩

/-- The two steps of a delivery, with nothing between them, are what the session
does with a payload; the waker that it reports is the one that is woken. -/
theorem Of.deliver {S : Type} {session : Session S} (same : inbox.Of session) (settled : inbox.delivering = false)
    {cipher : Cipher S} {packet : SessionPacket} {encrypted plaintext data : Bytes} {transport : LossyTransportState S}
    (carried : RawMessage.codec.deserialize packet.data = some (.encrypted encrypted))
    (opened : session.transport.readMessage cipher encrypted 65535 = (transport, .ok plaintext))
    (payload : Message.codec.deserialize plaintext = some (.payload data)) :
    ∃ next, Runs.run step inbox [.push data, .wakeFirst] = some next ∧
      next.Of (session.handleIncoming cipher packet).1 ∧
      (session.handleIncoming cipher packet).2 = .ok ((firstEntry inbox.wakers).map Prod.snd) := by
  obtain ⟨living, messages, wakers⟩ := same
  cases first : firstEntry inbox.wakers with
  | none =>
    have delivered : Runs.run step inbox [.push data, .wakeFirst] =
        some { inbox with messages := inbox.messages ++ [data], delivering := false } := by
      simp [Runs.run, step, settled, first]
    refine ⟨_, delivered, ?_, ?_⟩
    · simp [Of, Session.handleIncoming, carried, opened, payload, living, messages, ← wakers, popFirst_none first]
    · simp [Session.handleIncoming, carried, opened, payload, ← wakers, minKey?_firstEntry, first]
  | some entry =>
    have delivered : Runs.run step inbox [.push data, .wakeFirst] =
        some { inbox with
          messages := inbox.messages ++ [data]
          wakers := popFirst inbox.wakers
          delivering := false
          futures := inbox.futures.map (Listener.wake entry.2) } := by
      simp [Runs.run, step, settled, first]
    refine ⟨_, delivered, ?_, ?_⟩
    · simp [Of, Session.handleIncoming, carried, opened, payload, living, messages, ← wakers]
    · simp [Session.handleIncoming, carried, opened, payload, ← wakers, minKey?_firstEntry, first,
        getElem?_firstEntry first]

/-- Nothing is in progress, a payload is queued, and no future that waits for one
has been called. -/
def Lost (inbox : Inbox) : Prop :=
  inbox.delivering = false ∧ (∀ listener ∈ inbox.futures, listener.progress.isPolling = false) ∧ inbox.messages ≠ [] ∧
    (∃ listener ∈ inbox.futures, listener.progress.isPending = true) ∧
    ∀ listener ∈ inbox.futures, listener.progress.isPending = true → listener.called = false

instance decidableLost (inbox : Inbox) : Decidable inbox.Lost := inferInstanceAs (Decidable (_ ∧ _ ∧ _ ∧ _ ∧ _))

def called (inbox : Inbox) : Nat := inbox.futures.countP Listener.isCalled

def uncalled (inbox : Inbox) : Nat := inbox.futures.countP Listener.isUncalled

/-- The waker that a delivery pops is that of a future which waits and was not
called, and a future that was called is not dropped, unless no future waits
uncalled or the called ones suffice for the queue without it. -/
def PassesOn (inbox : Inbox) : Label → Prop
  | .wakeFirst =>
    inbox.uncalled = 0 ∨ inbox.messages.length ≤ inbox.called ∨
      ∃ entry ∈ firstEntry inbox.wakers, ∃ listener ∈ inbox.futures,
        listener.isUncalled = true ∧ listener.progress.waker = some entry.2
  | .drop future =>
    ∀ listener ∈ inbox.futures[future]?, listener.isCalled = true →
      inbox.uncalled = 0 ∨ inbox.messages.length < inbox.called + inbox.delivering.toNat
  | _ => True

instance decidablePassesOn (inbox : Inbox) : (label : Label) → Decidable (inbox.PassesOn label)
  | .wakeFirst =>
    have : Decidable (∃ entry ∈ firstEntry inbox.wakers, ∃ listener ∈ inbox.futures,
        listener.isUncalled = true ∧ listener.progress.waker = some entry.2) := Option.decidableExistsMem _
    inferInstanceAs (Decidable (_ ∨ _ ∨ _))
  | .drop _ => Option.decidableForallMem _
  | .recv _ => inferInstanceAs (Decidable True)
  | .tryRecv _ _ => inferInstanceAs (Decidable True)
  | .updateWakers _ => inferInstanceAs (Decidable True)
  | .push _ => inferInstanceAs (Decidable True)

/-- While a future waits uncalled, every queued payload has a caller; a delivery
in progress stands for the one that it will call. -/
def Covered (inbox : Inbox) : Prop :=
  0 < inbox.uncalled → inbox.messages.length ≤ inbox.called + inbox.delivering.toNat

namespace Covered

theorem start : Inbox.start.Covered := by simp [Covered, Inbox.start]

theorem not_lost (covered : inbox.Covered) : ¬ inbox.Lost := by
  rintro ⟨settled, resting, queued, ⟨waiting, member, pending⟩, ignored⟩
  have uncalled : 0 < inbox.uncalled := by
    refine List.countP_pos_iff.mpr ⟨waiting, member, ?_⟩
    have silent := ignored waiting member pending
    unfold Progress.isPending at pending
    split at pending
    next waker stage => simp [Listener.isUncalled, Progress.waker, stage, silent]
    · cases pending
  have called : inbox.called = 0 := by
    refine List.countP_eq_zero.mpr ?_
    intro listener inside
    have quiet := resting listener inside
    have silent := ignored listener inside
    cases stage : listener.progress <;> simp_all [Listener.isCalled, Progress.waker, Progress.isPolling, Progress.isPending]
  have short := covered uncalled
  rw [called, settled] at short
  simp at short
  exact queued short

theorem balanced (covered : inbox.Covered) (taken : Nat) (delivering : next.delivering = inbox.delivering)
    (messages : next.messages.length + taken ≤ inbox.messages.length) (called : inbox.called ≤ next.called + taken)
    (uncalled : next.uncalled ≤ inbox.uncalled) : next.Covered := by
  intro waits
  have bound := covered (Nat.lt_of_lt_of_le waits uncalled)
  rw [delivering]
  omega

theorem counts (inbox : Inbox) (found : inbox.futures[future]? = some listener) (value : Listener) :
    (inbox.setProgress future value).called + listener.isCalled.toNat = inbox.called + value.isCalled.toNat ∧
    (inbox.setProgress future value).uncalled + listener.isUncalled.toNat = inbox.uncalled + value.isUncalled.toNat :=
  ⟨Runs.countP_set _ found value, Runs.countP_set _ found value⟩

theorem counts_of_not_waiting (inbox : Inbox) (found : inbox.futures[future]? = some listener) {value : Listener}
    (idle : value.progress.waker = none) :
    (inbox.setProgress future value).called + listener.isCalled.toNat = inbox.called ∧
    (inbox.setProgress future value).uncalled + listener.isUncalled.toNat = inbox.uncalled := by
  have neither : value.isCalled.toNat = 0 ∧ value.isUncalled.toNat = 0 := by
    simp [Listener.isCalled, Listener.isUncalled, idle]
  obtain ⟨called, uncalled⟩ := counts inbox found value
  exact ⟨called.trans (by rw [neither.1, Nat.add_zero]), uncalled.trans (by rw [neither.2, Nat.add_zero])⟩

theorem tryRecv (covered : inbox.Covered) (found : inbox.futures[future]? = some listener) (waker : Waker) :
    (inbox.tryRecv future listener waker).Covered := by
  unfold Inbox.tryRecv
  split
  next data rest queued =>
    have one : listener.isCalled.toNat ≤ 1 := Bool.toNat_le _
    obtain ⟨called, uncalled⟩ := counts_of_not_waiting { inbox with messages := rest } found
      (rfl : (⟨listener.id, .taken data, false⟩ : Listener).progress.waker = none)
    refine covered.balanced 1 rfl (by simp [setProgress, queued]) ?_ (Nat.le.intro uncalled)
    calc inbox.called = _ := called.symm
      _ ≤ _ := Nat.add_le_add_left one _
  next empty =>
    intro waits
    simp [setProgress, empty]

theorem updateWakers (covered : inbox.Covered) (updated : inbox.step (.updateWakers future) = some next) :
    next.Covered := by
  simp only [Inbox.step] at updated
  split at updated
  next id waker called found =>
    cases updated
    obtain ⟨same, still⟩ := counts { inbox with wakers := inbox.wakers.insert id waker } found ⟨id, .pending waker, called⟩
    exact covered.balanced 0 rfl (Nat.le_refl _) (Nat.add_right_cancel same).ge (Nat.add_right_cancel still).le
  next id data called found =>
    cases updated
    obtain ⟨same, still⟩ := counts_of_not_waiting { inbox with wakers := inbox.wakers.erase id } found
      (rfl : (⟨id, .ready data, called⟩ : Listener).progress.waker = none)
    exact covered.balanced 0 rfl (Nat.le_refl _) same.ge (Nat.le.intro still)
  · cases updated

theorem drop (covered : inbox.Covered) (found : inbox.futures[future]? = some listener)
    (passesOn : inbox.PassesOn (.drop future)) :
    (inbox.setProgress future { listener with progress := .dropped }).Covered := by
  obtain ⟨called, uncalled⟩ := counts_of_not_waiting inbox found
    (rfl : ({ listener with progress := .dropped } : Listener).progress.waker = none)
  cases answering : listener.isCalled with
  | false =>
    rw [answering] at called
    exact covered.balanced 0 rfl (Nat.le_refl _) called.ge (Nat.le.intro uncalled)
  | true =>
    rw [answering, Bool.toNat_true] at called
    intro waits
    change inbox.messages.length ≤ _ + inbox.delivering.toNat
    rcases passesOn listener found answering with none | enough
    · omega
    · omega

theorem push (covered : inbox.Covered) (settled : inbox.delivering = false) (data : Bytes) :
    ({ inbox with messages := inbox.messages ++ [data], delivering := true } : Inbox).Covered := by
  intro waits
  have bound := covered waits
  rw [settled] at bound
  simp only [List.length_append, List.length_singleton, Bool.toNat_true, Bool.toNat_false] at bound ⊢
  exact Nat.succ_le_succ bound

theorem isCalled_wake (waker : Waker) (listener : Listener) (called : listener.isCalled = true) :
    (listener.wake waker).isCalled = true := by
  unfold Listener.wake
  split
  · simp_all [Listener.isCalled]
  · exact called

theorem isUncalled_wake (waker : Waker) (listener : Listener) (uncalled : (listener.wake waker).isUncalled = true) :
    listener.isUncalled = true := by
  unfold Listener.wake at uncalled
  split at uncalled
  · simp [Listener.isUncalled] at uncalled
  · exact uncalled

theorem wakeFirst (covered : inbox.Covered) (passesOn : inbox.PassesOn .wakeFirst)
    (woken : inbox.step .wakeFirst = some next) : next.Covered := by
  simp only [Inbox.step] at woken
  split at woken
  next delivering =>
    have bound := covered
    rw [Covered, delivering] at bound
    split at woken
    next empty =>
      cases woken
      intro waits
      have waited : 0 < inbox.uncalled := waits
      rcases passesOn with none | enough | ⟨entry, first, -⟩
      · omega
      · exact enough
      · rw [empty] at first
        cases first
    next id waker first =>
      cases woken
      intro waits
      have waited : 0 < inbox.uncalled := by
        simp only [Inbox.uncalled, List.countP_map] at waits
        exact waits.trans_le (List.countP_mono_left fun listener _ => isUncalled_wake waker listener)
      simp only [Inbox.called, List.countP_map, Bool.toNat_false, Nat.add_zero]
      rcases passesOn with none | enough | ⟨entry, popped, listener, member, ignored, own⟩
      · omega
      · exact enough.trans (List.countP_mono_left fun listener _ => isCalled_wake waker listener)
      · cases first.symm.trans popped
        have more : inbox.called < inbox.futures.countP (Listener.isCalled ∘ Listener.wake waker) := by
          refine Runs.countP_lt (fun listener _ => isCalled_wake waker listener) ⟨listener, member, ?_, ?_⟩
          · simp [Listener.wake, Listener.isCalled, own]
          · simp_all [Listener.isCalled, Listener.isUncalled]
        have short := bound waited
        simp only [Bool.toNat_true] at short
        omega
  · cases woken

theorem step (covered : inbox.Covered) (passesOn : inbox.PassesOn label) (stepped : inbox.step label = some next) :
    next.Covered := by
  cases label with
  | recv id =>
    simp only [Inbox.step] at stepped
    split at stepped
    · cases stepped
    · cases stepped
      refine covered.balanced 0 rfl (Nat.le_refl _) ?_ ?_
      · simp [called]
      · simp [uncalled, Listener.isUncalled, Progress.waker]
  | tryRecv future waker =>
    simp only [Inbox.step] at stepped
    split at stepped
    · cases stepped
    next listener found =>
      split at stepped
      · cases stepped
        exact covered.tryRecv found waker
      · cases stepped
  | updateWakers future => exact covered.updateWakers stepped
  | drop future =>
    simp only [Inbox.step] at stepped
    split at stepped
    · cases stepped
    next listener found =>
      split at stepped
      · cases stepped
        exact covered.drop found passesOn
      · cases stepped
  | push data =>
    simp only [Inbox.step] at stepped
    split at stepped
    · cases stepped
    next settled =>
      cases stepped
      exact covered.push (by simpa using settled) data
  | wakeFirst => exact covered.wakeFirst passesOn stepped

end Covered

/-- As long as every waker that a delivery pops belongs to a future that waits and
was not called, and called futures are not dropped while they are needed, no
payload lies in the queue without a caller. -/
theorem no_lost_payload (labels : List Label) (final : Inbox) (passesOn : Runs.Meets step PassesOn start labels)
    (reached : Runs.run step start labels = some final) : ¬ final.Lost :=
  Covered.not_lost (passesOn.invariant (fun _ _ _ => Covered.step) .start reached)

/-- Two futures that wait, and one of them is woken. -/
theorem no_lost_payload_waiting :
    ∃ final, Runs.run step start [.recv 5, .recv 6, .tryRecv 0 50, .updateWakers 0, .tryRecv 1 60, .updateWakers 1,
        .push [1], .wakeFirst] = some final ∧
      final.messages = [[1]] ∧ final.futures.map Listener.called = [true, false] ∧ ¬ final.Lost :=
  ⟨_, rfl, rfl, by decide +kernel,
    no_lost_payload [.recv 5, .recv 6, .tryRecv 0 50, .updateWakers 0, .tryRecv 1 60, .updateWakers 1, .push [1], .wakeFirst]
      _ (by decide +kernel) rfl⟩

/-- A dropped future takes the wake-up of one that still waits, and a payload that
arrives within a poll wakes nobody. -/
theorem no_lost_payload_dropped :
    (∃ final, Runs.run step start [.recv 5, .recv 6, .tryRecv 0 50, .updateWakers 0, .tryRecv 1 60, .updateWakers 1,
        .drop 0, .push [1], .wakeFirst] = some final ∧ final.Lost) ∧
    ∃ final, Runs.run step start [.recv 5, .tryRecv 0 50, .push [1], .wakeFirst, .updateWakers 0] = some final ∧ final.Lost :=
  ⟨⟨_, rfl, by decide +kernel⟩, _, rfl, by decide +kernel⟩

end Inbox
namespace Connecting

variable {connecting next : Connecting} {label : Label}

theorem poll_uninterrupted (resting : connecting.progress.isResting = true) (waker : Waker) :
    let polled := connecting.ready.poll connecting.readiness waker
    ∃ labels next, labels.head? = some (.tryRecv waker) ∧ Runs.run step connecting labels = some next ∧
      next.ready = polled.1 ∧ next.readiness = polled.2.1 ∧ next.progress.isPolling = false ∧
      (next.progress.isPending = true ↔ polled.2.2 = .pending) := by
  cases received : connecting.readiness.tryRecv with
  | some readiness =>
    have run : Runs.run step connecting [.tryRecv waker] =
        some { connecting with
          ready := { connecting.ready with completed := true }
          readiness
          progress := .ready (connecting.ready.id, connecting.ready.oneTimeId) } := by
      simp [Runs.run, step, resting, tryRecv, received]
    refine ⟨_, _, rfl, run, ?_⟩
    simp [SessionReady.poll, received, Progress.isPolling, Progress.isPending]
  | none =>
    have run : Runs.run step connecting [.tryRecv waker, .pushWaker] =
        some { connecting with
          ready := (connecting.ready.register connecting.readiness waker).1
          readiness := (connecting.ready.register connecting.readiness waker).2
          progress := .pending waker } := by
      simp [Runs.run, step, resting, tryRecv, received]
    refine ⟨_, _, rfl, run, ?_⟩
    simp [SessionReady.poll, received, Progress.isPolling, Progress.isPending]

theorem upgrade_uninterrupted (inserted : connecting.upgrade = .inserted) (listening : connecting.readiness.listening = true) :
    ∃ next, Runs.run step connecting [.send, .wakeAll] = some next ∧ next.ready = connecting.ready ∧
      next.readiness = Handler.announce connecting.readiness ∧ next.upgrade = .finished := by
  have run : Runs.run step connecting [.send, .wakeAll] =
      some { connecting with readiness := Handler.announce connecting.readiness, upgrade := .finished } := by
    simp [Runs.run, step, inserted, listening, Handler.announce]
  exact ⟨_, run, rfl, rfl, rfl⟩

/-- The upgrade has finished, its notification is unread, and the last poll, which
found nothing, left a waker that was not woken. -/
def Lost (connecting : Connecting) : Prop :=
  connecting.upgrade = .finished ∧ 0 < connecting.readiness.notifications ∧
    ∃ waker ∈ connecting.progress.waker, connecting.progress.isPending = true ∧ waker ∉ connecting.readiness.woken

instance decidableLost (connecting : Connecting) : Decidable connecting.Lost :=
  have : Decidable (∃ waker ∈ connecting.progress.waker,
      connecting.progress.isPending = true ∧ waker ∉ connecting.readiness.woken) := Option.decidableExistsMem _
  inferInstanceAs (Decidable (_ ∧ _ ∧ _))

/-- When the upgrade wakes the registered wakers, that of the last poll which found
nothing is one of them. -/
def Registers (connecting : Connecting) : Label → Prop
  | .wakeAll => ∀ waker ∈ connecting.progress.waker, waker ∈ connecting.readiness.wakers
  | _ => True

instance decidableRegisters (connecting : Connecting) : (label : Label) → Decidable (connecting.Registers label)
  | .wakeAll => Option.decidableForallMem _
  | .tryRecv _ => inferInstanceAs (Decidable True)
  | .pushWaker => inferInstanceAs (Decidable True)
  | .drop => inferInstanceAs (Decidable True)
  | .send => inferInstanceAs (Decidable True)

/-- Nothing is announced before the upgrade, and a notification that is unread
after it has woken the future. -/
structure Announced (connecting : Connecting) : Prop where
  before : connecting.upgrade = .inserted → connecting.readiness.notifications = 0
  after : connecting.upgrade = .finished → 0 < connecting.readiness.notifications →
    ∀ waker ∈ connecting.progress.waker, waker ∈ connecting.readiness.woken

namespace Announced

theorem start (id : SessionId) (oneTimeId : OneTimeId) : (start id oneTimeId).Announced := by
  constructor <;> simp [Connecting.start]

theorem not_lost (announced : connecting.Announced) : ¬ connecting.Lost := by
  rintro ⟨finished, unread, waker, last, -, silent⟩
  exact silent (announced.after finished unread waker last)

theorem tryRecv (announced : connecting.Announced) (waker : Waker) : (connecting.tryRecv waker).Announced := by
  cases received : connecting.readiness.tryRecv with
  | some readiness =>
    have unread : 0 < connecting.readiness.notifications := by
      by_contra none
      simp [Readiness.tryRecv, none] at received
    constructor
    · intro inserted
      simp only [Connecting.tryRecv, received] at inserted
      have silent := announced.before inserted
      omega
    · simp [Connecting.tryRecv, received, Progress.waker]
  | none =>
    have read : connecting.readiness.notifications = 0 := by
      by_contra some
      simp [Readiness.tryRecv, Nat.pos_of_ne_zero some] at received
    constructor <;> simp [Connecting.tryRecv, received, read]

theorem register (ready : SessionReady) (readiness : Readiness) (waker : Waker) :
    (ready.register readiness waker).2.notifications = readiness.notifications ∧
      (ready.register readiness waker).2.woken = readiness.woken := by
  unfold SessionReady.register
  split
  · exact ⟨rfl, rfl⟩
  · exact ⟨rfl, rfl⟩

theorem step (announced : connecting.Announced) (registers : connecting.Registers label)
    (stepped : connecting.step label = some next) : next.Announced := by
  cases label with
  | tryRecv waker =>
    simp only [Connecting.step] at stepped
    split at stepped
    · cases stepped
      exact announced.tryRecv waker
    · cases stepped
  | pushWaker =>
    simp only [Connecting.step] at stepped
    split at stepped
    next waker checked =>
      cases stepped
      obtain ⟨notifications, woken⟩ := register connecting.ready connecting.readiness waker
      refine ⟨fun inserted => notifications.trans (announced.before inserted), ?_⟩
      intro finished unread other last
      have waked := announced.after finished (notifications ▸ unread) other (by rw [checked]; exact last)
      exact woken ▸ waked
    · cases stepped
  | drop =>
    simp only [Connecting.step] at stepped
    split at stepped
    · cases stepped
      exact ⟨announced.before, by simp [Progress.waker]⟩
    · cases stepped
  | send =>
    simp only [Connecting.step] at stepped
    split at stepped
    next inserted =>
      split at stepped
      · cases stepped
        constructor <;> simp
      · cases stepped
        constructor <;> simp [announced.before inserted]
    · cases stepped
  | wakeAll =>
    simp only [Connecting.step] at stepped
    split at stepped
    · cases stepped
      refine ⟨by simp, ?_⟩
      intro finished unread waker last
      exact List.mem_append_right _ (registers waker last)
    · cases stepped

end Announced

/-- As long as the waker of the last poll is registered when the upgrade wakes the
wakers, no notification stays unread without a wake-up. -/
theorem no_lost_notification (id : SessionId) (oneTimeId : OneTimeId) (labels : List Label) (final : Connecting)
    (registers : Runs.Meets step Registers (start id oneTimeId) labels)
    (reached : Runs.run step (start id oneTimeId) labels = some final) : ¬ final.Lost :=
  Announced.not_lost (registers.invariant (fun _ _ _ => Announced.step) (.start id oneTimeId) reached)

/-- A poll that returned before the upgrade began. -/
theorem no_lost_notification_registered :
    ∃ final, Runs.run step (start 7 40) [.tryRecv 5, .pushWaker, .send, .wakeAll] = some final ∧
      final.readiness.woken = [5] ∧ ¬ final.Lost :=
  ⟨_, rfl, rfl, no_lost_notification 7 40 [.tryRecv 5, .pushWaker, .send, .wakeAll] _ (by decide) rfl⟩

/-- An upgrade within a poll wakes nobody, and one after a second poll wakes the
waker of the first. -/
theorem no_lost_notification_unregistered :
    (∃ final, Runs.run step (start 7 40) [.tryRecv 5, .send, .wakeAll, .pushWaker] = some final ∧
      final.readiness.woken = [] ∧ final.Lost) ∧
    ∃ final, Runs.run step (start 7 40) [.tryRecv 5, .pushWaker, .tryRecv 6, .pushWaker, .send, .wakeAll] = some final ∧
      final.readiness.woken = [5] ∧ final.Lost :=
  ⟨⟨_, rfl, rfl, by decide⟩, _, rfl, rfl, by decide⟩

end Connecting
end Veq
