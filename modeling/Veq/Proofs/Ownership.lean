import Veq.Ownership
import Veq.Proofs.Lifetime

/-! Every entry of the handler has one owner that will close it, and a session that
some clone of a handle holds is not closed behind its back. -/

namespace Veq
open Rust Bincode Lifecycle

variable {H S : Type}

namespace Owner

def Holds (place : Place) : Owner → Prop
  | .waiting ready => ready.completed = false
  | .closing _ _ => True
  | .looking _ _ | .holding _ _ | .abandoned _ _ => place = .established
  | .released _ _ => False

/-- An owner only moves on. -/
def stage : Owner → Nat
  | .waiting _ => 0
  | .looking _ _ => 1
  | .holding _ _ => 2
  | .closing _ _ | .abandoned _ _ => 3
  | .released _ _ => 4

theorem Holds.pending {owner : Owner} {place : Place} (holds : owner.Holds place) (elsewhere : place ≠ .established)
    (other : Place) : owner.Holds other := by
  cases owner with
  | waiting ready => exact holds
  | looking id oneTimeId => exact absurd holds elsewhere
  | holding handle others => exact absurd holds elsewhere
  | closing id oneTimeId => trivial
  | abandoned id oneTimeId => exact absurd holds elsewhere
  | released id oneTimeId => exact holds.elim

end Owner

theorem Registry.clear_some {registry : Registry} {place other : Place} {id key : SessionId} {oneTimeId : OneTimeId}
    (found : registry.clear place id other key = some oneTimeId) : registry other key = some oneTimeId := by
  by_cases here : other = place ∧ key = id
  · rw [here.1, here.2, Registry.clear_same] at found
    cases found
  · rw [Registry.clear_other here] at found
    exact found

theorem Registry.put_some {registry : Registry} {place other : Place} {id key : SessionId} {oneTimeId token : OneTimeId}
    (found : registry.put place id token other key = some oneTimeId) :
    key = id ∧ oneTimeId = token ∨ registry other key = some oneTimeId := by
  by_cases here : other = place ∧ key = id
  · rw [here.1, here.2, Registry.put_same] at found
    exact .inl ⟨here.2, (Option.some.inj found).symm⟩
  · rw [Registry.put_other here] at found
    exact .inr found

theorem Fate.apply_some {registry : Registry} {id key : SessionId} {oneTimeId token : OneTimeId} {place : Place} (fate : Fate)
    (found : fate.apply registry id token place key = some oneTimeId) :
    key = id ∧ oneTimeId = token ∨ registry place key = some oneTimeId := by
  cases fate with
  | keep place => exact .inr found
  | advance before after =>
    rcases Registry.put_some found with new | old
    · exact .inl new
    · exact .inr (Registry.clear_some old)
  | discard place => exact .inr (Registry.clear_some found)

namespace Handler

theorem hangUp_registered (handler : Handler H S) (oneTimeId : OneTimeId) :
    (handler.hangUp oneTimeId).registered = handler.registered := by
  rw [hangUp_eq]
  rfl

theorem hangUp_notifications (handler : Handler H S) (oneTimeId other : OneTimeId) :
    ((handler.hangUp oneTimeId).readiness other).map Readiness.notifications =
      (handler.readiness other).map Readiness.notifications := by
  rw [hangUp_eq]
  by_cases same : other = oneTimeId
  · simp only [if_pos same, Option.map_map]
    rfl
  · simp only [if_neg same]

end Handler

theorem Handler.recvFrom_readiness (handler : Handler H S) (id : SessionId) :
    (handler.recvFrom id).1.readiness = handler.readiness := by
  unfold recvFrom
  split
  · rfl
  · split
    · rfl
    · rfl

theorem Handler.updateEstablished_readiness (handler : Handler H S) (id : SessionId) (change : Session S → Session S) :
    (handler.updateEstablished id change).readiness = handler.readiness := by
  unfold updateEstablished
  split
  · rfl
  · rfl

theorem SessionReady.poll_cases (ready : SessionReady) (readiness : Readiness) (waker : Waker) :
    (0 < readiness.notifications ∧ ∃ rest, rest ≤ readiness.notifications ∧ ready.poll readiness waker =
      ({ ready with completed := true }, { readiness with notifications := rest }, .ready (ready.id, ready.oneTimeId))) ∨
    ∃ again channel, ready.poll readiness waker = (again, channel, .pending) ∧ again.id = ready.id ∧
      again.oneTimeId = ready.oneTimeId ∧ again.completed = ready.completed ∧
      channel.notifications = readiness.notifications := by
  unfold poll Readiness.tryRecv
  by_cases notified : 0 < readiness.notifications
  · rw [if_pos notified]
    exact .inl ⟨notified, readiness.notifications - 1, Nat.sub_le _ _, rfl⟩
  · rw [if_neg notified]
    refine .inr ⟨(ready.register readiness waker).1, (ready.register readiness waker).2, rfl, ?_⟩
    unfold register
    split
    · exact ⟨rfl, rfl, rfl, rfl⟩
    · exact ⟨rfl, rfl, rfl, rfl⟩

namespace Custody

variable {snow : Snow H S} {custody next : Custody H S} {index : Nat} {old new : Owner} {label : Label}
  {labels : List Label} {id : SessionId} {oneTimeId : OneTimeId} {place : Place}

/-- The entries that were made so far, as the ledger of a socket has them. -/
def socket (custody : Custody H S) : Socket H S := ⟨custody.handler, [], [], [], custody.owners.map Owner.key, []⟩

/-- No notification waits for an entry that is still pending. -/
def Silent (handler : Handler H S) : Prop :=
  ∀ place id oneTimeId, place ≠ .established → handler.registered place id = some oneTimeId →
    ∀ channel, handler.readiness oneTimeId = some channel → channel.notifications = 0

def Owned (custody : Custody H S) : Prop :=
  ∀ place id oneTimeId, custody.handler.registered place id = some oneTimeId →
    ∃ (index : Nat) (owner : Owner), custody.owners[index]? = some owner ∧ owner.key = (id, oneTimeId) ∧ owner.Holds place

structure Sound (custody : Custody H S) : Prop where
  kept : ∃ ledger, Kept custody.socket ledger ∧ Valid ledger
  silent : Silent custody.handler
  owned : custody.Owned

theorem Sound.start (connectionInfo : ConnectionInfo) (keypair : SnowKeypair) :
    (start connectionInfo keypair : Custody H S).Sound := by
  have empty : ∀ place id oneTimeId, (Handler.new keypair : Handler H S).registered place id ≠ some oneTimeId := by
    intro place id oneTimeId
    cases place <;> simp [Handler.new, Handler.registered]
  refine ⟨⟨⟨fun _ => none, []⟩, ⟨?_, rfl⟩, ⟨List.nodup_nil, by simp⟩⟩, ?_, ?_⟩
  · exact (Kept.start keypair : Kept (Socket.start keypair : Socket H S) _).represents
  · intro place id oneTimeId elsewhere found
    exact absurd found (empty place id oneTimeId)
  · intro place id oneTimeId found
    exact absurd found (empty place id oneTimeId)

theorem Sound.distinct (sound : custody.Sound) : (custody.owners.map fun owner => owner.key.2).Nodup := by
  obtain ⟨ledger, kept, valid⟩ := sound.kept
  have unique := valid.unique
  rw [kept.issued, socket, List.map_map] at unique
  exact unique

theorem Sound.single (sound : custody.Sound) {first second : SessionId} {one two : Place}
    (here : custody.handler.registered one first = some oneTimeId)
    (there : custody.handler.registered two second = some oneTimeId) : first = second ∧ one = two := by
  obtain ⟨ledger, kept, valid⟩ := sound.kept
  exact valid.single ((kept.represents one first oneTimeId).mp here) ((kept.represents two second oneTimeId).mp there)

theorem Sound.alone (sound : custody.Sound) {other : OneTimeId} {one two : Place}
    (here : custody.handler.registered one id = some oneTimeId)
    (there : custody.handler.registered two id = some other) : one = two ∧ oneTimeId = other := by
  obtain ⟨ledger, kept, -⟩ := sound.kept
  have same := ((kept.represents one id oneTimeId).mp here).symm.trans ((kept.represents two id other).mp there)
  exact Prod.mk.inj (Option.some.inj same)

theorem Sound.unique (sound : custody.Sound) {first second : Nat} {one two : Owner}
    (here : custody.owners[first]? = some one) (there : custody.owners[second]? = some two)
    (same : one.key.2 = two.key.2) : first = second := by
  have tokens : (custody.owners.map fun owner => owner.key.2)[first]? =
      (custody.owners.map fun owner => owner.key.2)[second]? := by
    rw [List.getElem?_map, List.getElem?_map, here, there, Option.map_some, Option.map_some, same]
  have inside : first < (custody.owners.map fun owner => owner.key.2).length := by
    rw [List.length_map]
    exact (List.getElem?_eq_some_iff.mp here).1
  exact (List.getElem?_inj inside sound.distinct).mp tokens

theorem issued_set (found : custody.owners[index]? = some old) (key : new.key = old.key) :
    (custody.owners.set index new).map Owner.key = custody.owners.map Owner.key := by
  apply List.ext_getElem?
  intro position
  rw [List.getElem?_map, List.getElem?_map, List.getElem?_set]
  split
  next same =>
    rw [← same, if_pos (List.getElem?_eq_some_iff.mp found).1, found, Option.map_some, Option.map_some, key]
  next => rfl

/-- Nothing is entered and no notification is sent. -/
structure Calmer (handler next : Handler H S) : Prop where
  fewer : ∀ place id oneTimeId, next.registered place id = some oneTimeId → handler.registered place id = some oneTimeId
  quieter : ∀ oneTimeId channel, next.readiness oneTimeId = some channel →
    ∃ before, handler.readiness oneTimeId = some before ∧ channel.notifications ≤ before.notifications

theorem Calmer.of_same {handler next : Handler H S} (registered : next.registered = handler.registered)
    (readiness : next.readiness = handler.readiness) : Calmer handler next := by
  refine ⟨?_, ?_⟩
  · intro place id oneTimeId found
    rw [← registered]
    exact found
  · intro oneTimeId channel found
    exact ⟨channel, readiness ▸ found, Nat.le_refl _⟩

theorem Silent.calmer {handler next : Handler H S} (silent : Silent handler) (calmer : Calmer handler next) : Silent next := by
  intro place id oneTimeId elsewhere found channel current
  obtain ⟨before, earlier, fewer⟩ := calmer.quieter oneTimeId channel current
  have none := silent place id oneTimeId elsewhere (calmer.fewer place id oneTimeId found) before earlier
  omega

theorem Sound.operate (sound : custody.Sound) (handler : Handler H S)
    (kept : ∀ ledger, Kept custody.socket ledger →
      ∃ after, Move Place.Advances ledger after ∧ Kept (socket { custody with handler }) after)
    (calmer : Calmer custody.handler handler) : Sound { custody with handler } := by
  obtain ⟨ledger, held, valid⟩ := sound.kept
  obtain ⟨after, move, still⟩ := kept ledger held
  refine ⟨⟨after, still, valid.move move⟩, sound.silent.calmer calmer, ?_⟩
  intro place id oneTimeId found
  exact sound.owned place id oneTimeId (calmer.fewer place id oneTimeId found)

theorem Sound.change (sound : custody.Sound) (found : custody.owners[index]? = some old) (new : Owner) (key : new.key = old.key)
    (handler : Handler H S)
    (kept : ∀ ledger, Kept custody.socket ledger →
      ∃ after, Move Place.Advances ledger after ∧ Kept (socket { custody with handler }) after)
    (calmer : Calmer custody.handler handler)
    (holds : ∀ place, handler.registered place old.key.1 = some old.key.2 → old.Holds place → new.Holds place) :
    Sound ({ custody with handler }.setOwner index new) := by
  obtain ⟨⟨ledger, held, valid⟩, silent, owned⟩ := sound.operate handler kept calmer
  refine ⟨⟨ledger, ⟨held.represents, ?_⟩, valid⟩, silent, ?_⟩
  · rw [held.issued]
    exact (issued_set found key).symm
  · intro place id oneTimeId present
    obtain ⟨position, owner, here, same, holding⟩ := owned place id oneTimeId present
    by_cases changed : position = index
    · subst changed
      cases found.symm.trans here
      refine ⟨position, new, List.getElem?_set_self (List.getElem?_eq_some_iff.mp found).1, key.trans same, ?_⟩
      apply holds place _ holding
      rw [same]
      exact present
    · exact ⟨position, owner, (List.getElem?_set_ne (Ne.symm changed)).trans here, same, holding⟩

/-- One owner moves on, and at most its channel changes with it. -/
structure Passes (custody next : Custody H S) (index : Nat) (old new : Owner) (handler : Handler H S) : Prop where
  found : custody.owners[index]? = some old
  key : new.key = old.key
  later : old.stage ≤ new.stage
  calmer : Calmer custody.handler handler
  registered : handler.registered = custody.handler.registered
  holds : ∀ place, custody.handler.registered place old.key.1 = some old.key.2 → old.Holds place → new.Holds place
  result : next = { custody with handler }.setOwner index new

theorem Passes.of_owner (found : custody.owners[index]? = some old) (new : Owner) (key : new.key = old.key)
    (later : old.stage ≤ new.stage)
    (holds : ∀ place, custody.handler.registered place old.key.1 = some old.key.2 → old.Holds place → new.Holds place) :
    Passes custody (custody.setOwner index new) index old new custody.handler :=
  ⟨found, key, later, .of_same rfl rfl, rfl, holds, rfl⟩

theorem Sound.pass (sound : custody.Sound) {handler : Handler H S} (passes : Passes custody next index old new handler) :
    next.Sound := by
  rw [passes.result]
  refine sound.change passes.found new passes.key handler (fun ledger kept => kept.stay passes.registered rfl) passes.calmer ?_
  intro place present
  rw [passes.registered] at present
  exact passes.holds place present

theorem Sound.connect (sound : custody.Sound) (request : Request)
    (fresh : oneTimeId ∉ custody.owners.map fun owner => owner.key.2) {handler : Handler H S} {ready : SessionReady}
    (inserted : request.insert snow (custody.handler.removeSession id none) id oneTimeId = (handler, .ok ready)) :
    Sound { custody with handler, owners := custody.owners ++ [.waiting ready] } := by
  obtain ⟨ledger, kept, valid⟩ := sound.kept
  have unknown : oneTimeId ∉ custody.socket.issued.map Prod.snd := by
    rw [socket, List.map_map]
    exact fresh
  obtain ⟨after, move, still⟩ := kept.connect snow id oneTimeId request unknown
  have swept := custody.handler.registered_removeSession id none
  rcases Request.insert_cases snow (custody.handler.removeSession id none) id oneTimeId request with
    failed | ⟨next, other, succeeded, -, registered⟩
  · rw [failed] at inserted
    cases inserted
  · cases succeeded.symm.trans inserted
    obtain ⟨rfl, readiness⟩ := Request.insert_ready inserted
    have result : request.insert snow (custody.socket.handler.removeSession id none) id oneTimeId = _ := inserted
    rw [result] at still
    have entries : ∀ place key token, handler.registered place key = some token →
        token = oneTimeId ∧ key = id ∨ custody.handler.registered place key = some token ∧ token ≠ oneTimeId := by
      intro place key token found
      rw [registered] at found
      by_cases here : place = request.place ∧ key = id
      · rw [here.1, here.2, Registry.put_same] at found
        exact .inl ⟨(Option.some.inj found).symm, here.2⟩
      · rw [Registry.put_other here, swept] at found
        simp only [true_or, and_true] at found
        split at found
        · cases found
        · refine .inr ⟨found, ?_⟩
          intro same
          have issued := valid.tracked key place token ((kept.represents place key token).mp found)
          rw [kept.issued] at issued
          exact unknown (same ▸ List.mem_map_of_mem issued)
    refine ⟨⟨after, ⟨?_, ?_⟩, valid.move move⟩, ?_, ?_⟩
    · exact still.represents
    · rw [still.issued]
      simp [socket, Socket.connect, Owner.key]
    · intro place key token elsewhere found channel current
      rw [readiness] at current
      rcases entries place key token found with ⟨same, -⟩ | ⟨earlier, other⟩
      · rw [same, HashMap.insert_same] at current
        cases current
        rfl
      · rw [HashMap.insert_other _ _ other] at current
        exact sound.silent place key token elsewhere earlier channel current
    · intro place key token found
      rcases entries place key token found with ⟨sameToken, sameId⟩ | ⟨earlier, -⟩
      · refine ⟨custody.owners.length, _, List.getElem?_concat_length, ?_, rfl⟩
        rw [sameToken, sameId]
        rfl
      · obtain ⟨position, owner, here, same, holds⟩ := sound.owned place key token earlier
        exact ⟨position, owner, (List.getElem?_append_left (List.getElem?_eq_some_iff.mp here).1).trans here, same, holds⟩

theorem Calmer.insert {handler : Handler H S} {before after : Readiness}
    (found : handler.readiness oneTimeId = some before) (quieter : after.notifications ≤ before.notifications) :
    Calmer handler { handler with readiness := handler.readiness.insert oneTimeId after } := by
  refine ⟨fun place id token present => present, ?_⟩
  intro token channel current
  by_cases same : token = oneTimeId
  · subst same
    simp only [HashMap.insert_same] at current
    cases current
    exact ⟨before, found, quieter⟩
  · simp only [HashMap.insert_other _ _ same] at current
    exact ⟨channel, current, Nat.le_refl _⟩

theorem Calmer.hangUp {handler next : Handler H S} (calmer : Calmer handler next) (oneTimeId : OneTimeId) :
    Calmer handler (next.hangUp oneTimeId) := by
  refine ⟨?_, ?_⟩
  · rw [next.hangUp_registered]
    exact calmer.fewer
  · intro token channel current
    have same := next.hangUp_notifications oneTimeId token
    rw [current, Option.map_some] at same
    obtain ⟨before, present, equal⟩ := Option.map_eq_some_iff.mp same.symm
    obtain ⟨earlier, found, quieter⟩ := calmer.quieter token before present
    exact ⟨earlier, found, equal ▸ quieter⟩

/-- A waiting connect whose session is ready answers for an established entry only. -/
theorem Sound.poll (sound : custody.Sound) {ready : SessionReady} (found : custody.owners[index]? = some (.waiting ready))
    {waker : Waker} (polled : custody.poll index ready waker = some next) :
    ∃ new handler, Passes custody next index (.waiting ready) new handler := by
  unfold Custody.poll at polled
  split at polled
  · cases polled
  next handler again pending =>
    obtain ⟨readiness, channel, rfl, rfl, ended⟩ := Handler.pollReady_some pending
    cases polled
    rcases ready.poll_cases readiness waker with ⟨-, rest, -, result⟩ | ⟨again, after, result, sameId, same, active, equal⟩
    · rw [result] at ended
      cases ended
    · rw [result]
      refine ⟨.waiting again, _, found, ?_, Nat.zero_le _, .insert channel equal.le, rfl, ?_, rfl⟩
      · rw [Owner.key, Owner.key, sameId, same]
      · intro place present holds
        exact active.trans holds
  next handler again id oneTimeId completed =>
    obtain ⟨readiness, channel, rfl, rfl, ended⟩ := Handler.pollReady_some completed
    cases polled
    rcases ready.poll_cases readiness waker with ⟨notified, rest, fewer, result⟩ | ⟨again, after, result, -⟩
    · rw [result] at ended ⊢
      cases ended
      have calmer : Calmer custody.handler { custody.handler with
          readiness := custody.handler.readiness.insert ready.oneTimeId { readiness with notifications := rest } } :=
        .insert channel fewer
      refine ⟨.looking ready.id ready.oneTimeId, _, found, rfl, Nat.zero_le _, calmer.hangUp ready.oneTimeId,
        Handler.hangUp_registered _ _, ?_, rfl⟩
      intro place present holds
      by_contra elsewhere
      have none := sound.silent place ready.id ready.oneTimeId elsewhere present readiness channel
      omega
    · rw [result] at ended
      cases ended

theorem lookUp_passes (found : custody.owners[index]? = some (.looking id oneTimeId)) :
    ∃ new handler, Passes custody (custody.lookUp index id oneTimeId) index (.looking id oneTimeId) new handler := by
  unfold Custody.lookUp
  split
  next missing =>
    refine ⟨.released id oneTimeId, _, .of_owner found _ rfl (by simp [Owner.stage]) ?_⟩
    intro place registered established
    rw [show place = .established from established] at registered
    have none : custody.handler.establishedSessions id = none := Option.map_eq_none_iff.mp missing
    simp [Handler.registered, Owner.key, none] at registered
  next remoteAddr =>
    exact ⟨.holding ⟨id, oneTimeId⟩ 0, _, .of_owner found _ rfl (by simp [Owner.stage]) fun place registered established => established⟩

theorem cancel_passes (found : custody.owners[index]? = some old) (cancelled : custody.cancel index old = some next) :
    ∃ new handler, Passes custody next index old new handler := by
  cases old with
  | waiting ready =>
    have calmer : Calmer custody.handler (custody.handler.hangUp ready.oneTimeId) :=
      Calmer.hangUp (.of_same rfl rfl) ready.oneTimeId
    simp only [Custody.cancel] at cancelled
    split at cancelled
    next completed =>
      cases cancelled
      refine ⟨.released ready.id ready.oneTimeId, _, found, rfl, Nat.zero_le _, calmer, Handler.hangUp_registered _ _, ?_, rfl⟩
      intro place present active
      exact absurd (completed.symm.trans active) (by decide)
    next =>
      cases cancelled
      exact ⟨.closing ready.id ready.oneTimeId, _, found, rfl, Nat.zero_le _, calmer, Handler.hangUp_registered _ _,
        fun place present active => trivial, rfl⟩
  | looking id oneTimeId =>
    cases cancelled
    exact ⟨.abandoned id oneTimeId, _, .of_owner found _ rfl (by simp [Owner.stage]) fun place registered established => established⟩
  | holding handle others => cases cancelled
  | closing id oneTimeId => cases cancelled
  | abandoned id oneTimeId => cases cancelled
  | released id oneTimeId => cases cancelled

theorem drop_passes {handle : BidirectionalSession} {others : Nat}
    (found : custody.owners[index]? = some (.holding handle others)) :
    ∃ new handler, Passes custody (custody.drop index handle others) index (.holding handle others) new handler := by
  cases others with
  | zero =>
    exact ⟨.closing handle.id handle.oneTimeId, _, .of_owner found _ rfl (by simp [Owner.stage]) fun place registered established => trivial⟩
  | succ others =>
    exact ⟨.holding handle others, _, .of_owner found _ rfl (Nat.le_refl _) fun place registered established => established⟩

theorem Calmer.clear {handler next : Handler H S} {before : Place}
    (cleared : next.registered = Registry.clear handler.registered before id)
    (readiness : next.readiness = handler.readiness) : Calmer handler next := by
  refine ⟨?_, ?_⟩
  · intro place key token present
    rw [cleared] at present
    exact Registry.clear_some present
  · intro token channel current
    rw [readiness] at current
    exact ⟨channel, current, Nat.le_refl _⟩

theorem Calmer.removeSession (handler : Handler H S) (id : SessionId) (oneTimeId : Option OneTimeId) :
    Calmer handler (handler.removeSession id oneTimeId) := by
  refine ⟨?_, fun token channel current => ⟨channel, current, Nat.le_refl _⟩⟩
  intro place key token present
  simp only [handler.registered_removeSession id oneTimeId] at present
  split at present
  · cases present
  · exact present

theorem Calmer.recvFrom (handler : Handler H S) (id : SessionId) : Calmer handler (handler.recvFrom id).1 := by
  rcases handler.registered_recvFrom id with same | cleared
  · exact .of_same same (handler.recvFrom_readiness id)
  · exact .clear cleared (handler.recvFrom_readiness id)

theorem Sound.close (sound : custody.Sound) (found : custody.owners[index]? = some (.closing id oneTimeId)) :
    (custody.close index id oneTimeId).Sound := by
  have registered := custody.handler.registered_removeSession id (some oneTimeId)
  refine sound.change found (.released id oneTimeId) rfl (custody.handler.removeSession id (some oneTimeId))
    (fun ledger kept => kept.closeSession id oneTimeId rfl rfl) (.removeSession _ _ _) ?_
  intro place present holds
  simp only [registered, Owner.key, reduceCtorEq, false_or, true_and] at present
  split at present
  · cases present
  next absent => exact absurd present absent

theorem Sound.recv (sound : custody.Sound) (id : SessionId) : Sound { custody with handler := (custody.handler.recvFrom id).1 } :=
  sound.operate _ (fun _ kept => kept.recvFrom id rfl rfl) (.recvFrom _ id)

theorem Sound.update (sound : custody.Sound) (id : SessionId) (change : Session S → Session S) :
    Sound { custody with handler := custody.handler.updateEstablished id change } := by
  have registered := custody.handler.registered_updateEstablished id change
  exact sound.operate _ (fun ledger kept => kept.stay registered rfl)
    (.of_same registered (custody.handler.updateEstablished_readiness id change))

/-- The handshake could not be started, after what stood under the id was removed. -/
theorem Sound.sweep (sound : custody.Sound) (id : SessionId) :
    Sound { custody with handler := custody.handler.removeSession id none } := by
  have swept := custody.handler.registered_removeSession id none
  refine sound.operate _ (fun ledger kept => kept.leave id ?_ ?_ rfl) (.removeSession _ id none)
  · intro place
    simp [socket, swept]
  · intro place key different
    simp [socket, swept, different]

theorem Sound.advance (sound : custody.Sound) {handler : Handler H S} {before after : Place}
    (kept : ∃ ledger, Kept (socket { custody with handler }) ledger ∧ Valid ledger)
    (pending : custody.handler.registered before id = some oneTimeId) (elsewhere : before ≠ .established)
    (registered : handler.registered = (Registry.clear custody.handler.registered before id).put after id oneTimeId)
    (readiness : ∀ other, other ≠ oneTimeId ∨ after ≠ .established →
      handler.readiness other = custody.handler.readiness other) : Sound { custody with handler } := by
  have entries : ∀ place key token, handler.registered place key = some token →
      (place = after ∧ key = id ∧ token = oneTimeId) ∨
        custody.handler.registered place key = some token ∧ token ≠ oneTimeId := by
    intro place key token found
    rw [registered] at found
    by_cases here : place = after ∧ key = id
    · rw [here.1, here.2, Registry.put_same] at found
      exact .inl ⟨here.1, here.2, (Option.some.inj found).symm⟩
    · rw [Registry.put_other here] at found
      by_cases source : place = before ∧ key = id
      · rw [source.1, source.2, Registry.clear_same] at found
        cases found
      · rw [Registry.clear_other source] at found
        refine .inr ⟨found, ?_⟩
        intro same
        obtain ⟨sameId, samePlace⟩ := sound.single (same ▸ found) pending
        exact source ⟨samePlace, sameId⟩
  refine ⟨kept, ?_, ?_⟩
  · intro place key token unfinished found channel current
    rcases entries place key token found with ⟨rfl, rfl, rfl⟩ | ⟨earlier, other⟩
    · rw [readiness token (.inr unfinished)] at current
      exact sound.silent before key token elsewhere pending channel current
    · rw [readiness token (.inl other)] at current
      exact sound.silent place key token unfinished earlier channel current
  · intro place key token found
    rcases entries place key token found with ⟨rfl, rfl, rfl⟩ | ⟨earlier, -⟩
    · obtain ⟨position, owner, here, same, holds⟩ := sound.owned before key token pending
      exact ⟨position, owner, here, same, holds.pending elsewhere place⟩
    · exact sound.owned place key token earlier

theorem Sound.packet (sound : custody.Sound) (src : SocketAddr) (packet : SessionPacket) (ephemeral : Nat) :
    Sound { custody with handler := custody.handler.handlePacket snow src packet ephemeral } := by
  have kept : ∀ ledger, Kept custody.socket ledger → ∃ after, Move Place.Advances ledger after ∧
      Kept (socket { custody with handler := custody.handler.handlePacket snow src packet ephemeral }) after :=
    fun ledger held => held.handlePacket src packet ephemeral rfl rfl
  cases decided : custody.handler.fate snow src packet ephemeral with
  | none =>
    obtain ⟨registered, readiness⟩ := Handler.handlePacket_idle decided
    exact sound.operate _ kept (.of_same registered readiness)
  | some outcome =>
    obtain ⟨oneTimeId, fate⟩ := outcome
    obtain ⟨pending, elsewhere, -⟩ := Handler.fate_pending decided
    obtain ⟨registered, readiness⟩ := Handler.handlePacket_fate decided
    cases fate with
    | keep place => exact sound.operate _ kept (.of_same registered (funext fun other => by simp [readiness]))
    | discard place => exact sound.operate _ kept (.clear registered (funext fun other => by simp [readiness]))
    | advance before after =>
      obtain ⟨ledger, held, valid⟩ := sound.kept
      obtain ⟨later, move, still⟩ := kept ledger held
      refine sound.advance ⟨later, still, valid.move move⟩ pending elsewhere registered ?_
      intro other different
      rw [readiness, if_neg]
      rintro ⟨established, same⟩
      simp only [Fate.source, Fate.advance.injEq, true_and] at established
      exact different.elim (fun other => other same) fun other => other established

/-- What one step can do. -/
inductive Transition (snow : Snow H S) (custody next : Custody H S) : Label → Prop where
  | connect {info : ConnectionInfo} {ephemeral : Nat} (id : SessionId) (oneTimeId : OneTimeId) (request : Request)
      (handler : Handler H S) (ready : SessionReady) (fresh : oneTimeId ∉ custody.owners.map fun owner => owner.key.2)
      (inserted : request.insert snow (custody.handler.removeSession id none) id oneTimeId = (handler, .ok ready))
      (result : next = { custody with handler, owners := custody.owners ++ [.waiting ready] }) :
      Transition snow custody next (.connect id info ephemeral oneTimeId)
  | refused {info : ConnectionInfo} {ephemeral : Nat} {oneTimeId : OneTimeId} (id : SessionId)
      (result : next = { custody with handler := custody.handler.removeSession id none }) :
      Transition snow custody next (.connect id info ephemeral oneTimeId)
  | pass {label : Label} (index : Nat) (old new : Owner) (handler : Handler H S)
      (passes : Passes custody next index old new handler) : Transition snow custody next label
  | close (index : Nat) (id : SessionId) (oneTimeId : OneTimeId)
      (found : custody.owners[index]? = some (.closing id oneTimeId)) (result : next = custody.close index id oneTimeId) :
      Transition snow custody next (.close index)
  | recv (index : Nat) (handle : BidirectionalSession) (others : Nat)
      (found : custody.owners[index]? = some (.holding handle others))
      (result : next = { custody with handler := (custody.handler.recvFrom handle.id).1 }) :
      Transition snow custody next (.recv index)
  | packet (src : SocketAddr) (data : Bytes) (ephemeral : Nat) (packet : SessionPacket)
      (result : next = { custody with handler := custody.handler.handlePacket snow src packet ephemeral }) :
      Transition snow custody next (.packet src data ephemeral)
  | update {label : Label} (id : SessionId) (change : Session S → Session S)
      (result : next = { custody with handler := custody.handler.updateEstablished id change }) :
      Transition snow custody next label
  | idle {label : Label} (result : next = custody) : Transition snow custody next label

theorem Sound.transition (sound : custody.Sound) (stepped : custody.step snow label = some next) :
    Transition snow custody next label := by
  cases label with
  | connect id info ephemeral oneTimeId =>
    simp only [Custody.step, Custody.connect, List.contains_iff_mem] at stepped
    split at stepped
    · cases stepped
    next fresh =>
      split at stepped
      next handler failure failed =>
        cases stepped
        rcases Request.insert_cases snow (custody.handler.removeSession id none) id oneTimeId
          (custody.request info ephemeral) with refused | ⟨other, ready, inserted, -⟩
        · cases refused.symm.trans failed
          exact .refused id rfl
        · cases inserted.symm.trans failed
      next handler ready inserted =>
        cases stepped
        exact .connect id oneTimeId _ handler ready fresh inserted rfl
  | poll index waker =>
    simp only [Custody.step] at stepped
    split at stepped
    next ready found =>
      obtain ⟨new, handler, passes⟩ := sound.poll found stepped
      exact .pass index _ new handler passes
    next => cases stepped
  | lookUp index =>
    simp only [Custody.step] at stepped
    split at stepped
    next id oneTimeId found =>
      cases stepped
      obtain ⟨new, handler, passes⟩ := lookUp_passes found
      exact .pass index _ new handler passes
    next => cases stepped
  | cancel index =>
    simp only [Custody.step] at stepped
    split at stepped
    next owner found =>
      obtain ⟨new, handler, passes⟩ := cancel_passes found stepped
      exact .pass index _ new handler passes
    next => cases stepped
  | clone index =>
    simp only [Custody.step] at stepped
    split at stepped
    next handle others found =>
      cases stepped
      exact .pass index _ (.holding handle (others + 1)) _
        (.of_owner found _ rfl (Nat.le_refl _) fun place present established => established)
    next => cases stepped
  | drop index =>
    simp only [Custody.step] at stepped
    split at stepped
    next handle others found =>
      cases stepped
      obtain ⟨new, handler, passes⟩ := drop_passes found
      exact .pass index _ new handler passes
    next => cases stepped
  | close index =>
    simp only [Custody.step] at stepped
    split at stepped
    next id oneTimeId found =>
      cases stepped
      exact .close index id oneTimeId found rfl
    next => cases stepped
  | send index data =>
    simp only [Custody.step] at stepped
    split at stepped
    next handle others found =>
      cases stepped
      refine .update handle.id (fun session => (session.send snow.toCipher data).1) ?_
      rw [Socket.send_fst, Handler.send_eq_update]
    next => cases stepped
  | recv index =>
    simp only [Custody.step] at stepped
    split at stepped
    next handle others found =>
      cases stepped
      exact .recv index handle others found (by rw [Socket.recv_fst])
    next => cases stepped
  | packet src data ephemeral =>
    cases stepped
    simp only [Handler.step, Handler.handleIncoming]
    split
    · exact .idle rfl
    next packet decoded => exact .packet src data ephemeral packet rfl
  | keepalive id =>
    cases stepped
    exact .update id _ rfl
  | checkHeartbeat id =>
    cases stepped
    exact .update id _ rfl

theorem Sound.step (sound : custody.Sound) (transition : Transition snow custody next label) : next.Sound := by
  cases transition with
  | connect id oneTimeId request handler ready fresh inserted result => exact result ▸ sound.connect request fresh inserted
  | refused id result => exact result ▸ sound.sweep id
  | pass index old new handler passes => exact sound.pass passes
  | close index id oneTimeId found result => exact result ▸ sound.close found
  | recv index handle others found result => exact result ▸ sound.recv handle.id
  | packet src data ephemeral packet result => exact result ▸ sound.packet src packet ephemeral
  | update id change result => exact result ▸ sound.update id change
  | idle result => exact result ▸ sound

theorem Sound.run (sound : custody.Sound) (reached : Runs.run (Custody.step snow) custody labels = some next) : next.Sound :=
  Runs.persists (fun _ _ _ before stepped => before.step (before.transition stepped)) sound reached

/-- In every run, each entry of the handler has exactly one owner: a connect that
still waits or a close to come, and once the session is established also a handle. -/
theorem entries_owned (snow : Snow H S) (connectionInfo : ConnectionInfo) (keypair : SnowKeypair) (labels : List Label)
    (reached : Runs.run (step snow) (start connectionInfo keypair) labels = some custody)
    (registered : custody.handler.registered place id = some oneTimeId) :
    ∃ owner, owner.key = (id, oneTimeId) ∧ owner.Holds place ∧
      custody.owners.filter (fun other => other.key.2 = oneTimeId) = [owner] := by
  have sound := (Sound.start connectionInfo keypair).run reached
  obtain ⟨index, owner, found, key, holds⟩ := sound.owned place id oneTimeId registered
  obtain ⟨before, after, split⟩ := List.append_of_mem (List.mem_of_getElem? found)
  have distinct := sound.distinct
  rw [split, List.map_append, List.map_cons, List.nodup_middle, List.nodup_cons, ← List.map_append, List.mem_map] at distinct
  have others : ∀ other ∈ before ++ after, ¬ decide (other.key.2 = oneTimeId) = true := by
    intro other member same
    refine distinct.1 ⟨other, member, ?_⟩
    rw [of_decide_eq_true same, key]
  refine ⟨owner, key, holds, ?_⟩
  rw [split, List.filter_append, List.filter_cons_of_pos (by simp [key]),
    List.filter_eq_nil_iff.mpr fun other member => others other (List.mem_append_left _ member),
    List.filter_eq_nil_iff.mpr fun other member => others other (List.mem_append_right _ member)]
  rfl

private def cloned : List Label :=
  [.connect 7 ⟨[], [9]⟩ 0 40, .packet (.v4 1 1) (Handler.packetFor 7 (.handshakeResponse [2])) 0, .poll 0 3, .lookUp 0, .clone 0]

theorem entries_owned_closing :
    ∃ custody, Runs.run (step Handler.fixedSnow) (start ⟨[], [2]⟩ ⟨[1], [2]⟩) (cloned ++ [.drop 0, .drop 0]) = some custody ∧
      custody.owners = [.closing 7 40] ∧ custody.handler.registered .established 7 = some 40 ∧
      ∃ owner, owner.key = (7, 40) ∧ owner.Holds .established ∧
        custody.owners.filter (fun other => other.key.2 = 40) = [owner] :=
  ⟨_, rfl, rfl, rfl, entries_owned Handler.fixedSnow ⟨[], [2]⟩ ⟨[1], [2]⟩ (cloned ++ [.drop 0, .drop 0]) rfl rfl⟩

/-- An owner stays the owner of its entry and only moves on. -/
theorem Transition.owner {owner : Owner} (transition : Transition snow custody next label)
    (found : custody.owners[index]? = some owner) :
    ∃ later, next.owners[index]? = some later ∧ later.key = owner.key ∧ owner.stage ≤ later.stage := by
  have same : next.owners = custody.owners →
      ∃ later, next.owners[index]? = some later ∧ later.key = owner.key ∧ owner.stage ≤ later.stage := by
    intro owners
    exact ⟨owner, owners ▸ found, rfl, Nat.le_refl _⟩
  have changed : ∀ {position : Nat} {old : Owner} (new : Owner), custody.owners[position]? = some old → new.key = old.key →
      old.stage ≤ new.stage → next.owners = custody.owners.set position new →
      ∃ later, next.owners[index]? = some later ∧ later.key = owner.key ∧ owner.stage ≤ later.stage := by
    intro position old new held key later owners
    rw [owners]
    by_cases here : position = index
    · subst here
      cases held.symm.trans found
      exact ⟨new, List.getElem?_set_self (List.getElem?_eq_some_iff.mp found).1, key, later⟩
    · exact ⟨owner, (List.getElem?_set_ne here).trans found, rfl, Nat.le_refl _⟩
  cases transition with
  | connect id oneTimeId request handler ready fresh inserted result =>
    refine ⟨owner, ?_, rfl, Nat.le_refl _⟩
    rw [result]
    exact (List.getElem?_append_left (List.getElem?_eq_some_iff.mp found).1).trans found
  | refused id result => exact same (by rw [result])
  | pass position old new handler passes => exact changed new passes.found passes.key passes.later (by rw [passes.result]; rfl)
  | close position id oneTimeId held result =>
    exact changed (.released id oneTimeId) held rfl (by simp [Owner.stage]) (by rw [result]; rfl)
  | recv position handle others held result => exact same (by rw [result])
  | packet src data ephemeral packet result => exact same (by rw [result])
  | update id change result => exact same (by rw [result])
  | idle result => exact same (by rw [result])

theorem Transition.entry (transition : Transition snow custody next label)
    (registered : next.handler.registered place id = some oneTimeId) :
    (∃ before, custody.handler.registered before id = some oneTimeId) ∨
      oneTimeId ∉ custody.owners.map fun owner => owner.key.2 := by
  have earlier : Calmer custody.handler next.handler → (∃ before, custody.handler.registered before id = some oneTimeId) ∨
      oneTimeId ∉ custody.owners.map fun owner => owner.key.2 := fun calmer =>
    .inl ⟨place, calmer.fewer place id oneTimeId registered⟩
  cases transition with
  | connect key token request handler ready fresh inserted result =>
    rcases Request.insert_cases snow (custody.handler.removeSession key none) key token request with
      failed | ⟨other, future, succeeded, -, entered⟩
    · cases failed.symm.trans inserted
    · cases succeeded.symm.trans inserted
      simp only [result, entered] at registered
      rcases Registry.put_some registered with ⟨-, same⟩ | old
      · exact .inr (same ▸ fresh)
      · exact .inl ⟨place, (Calmer.removeSession _ key none).fewer place id oneTimeId old⟩
  | refused key result => exact earlier (result ▸ .removeSession _ key none)
  | pass position old new handler passes => exact earlier (by rw [passes.result]; exact passes.calmer)
  | close position key token held result => exact earlier (by rw [result]; exact .removeSession _ key (some token))
  | recv position handle others held result => exact earlier (result ▸ .recvFrom _ handle.id)
  | packet src data ephemeral packet result =>
    simp only [result] at registered
    cases decided : custody.handler.fate snow src packet ephemeral with
    | none =>
      rw [(Handler.handlePacket_idle decided).1] at registered
      exact .inl ⟨place, registered⟩
    | some outcome =>
      obtain ⟨token, fate⟩ := outcome
      obtain ⟨pending, -⟩ := Handler.fate_pending decided
      rw [(Handler.handlePacket_fate decided).1] at registered
      rcases fate.apply_some registered with ⟨sameId, sameToken⟩ | old
      · exact .inl ⟨fate.source, sameId ▸ sameToken ▸ pending⟩
      · exact .inl ⟨place, old⟩
  | update key change result =>
    rw [result, custody.handler.registered_updateEstablished] at registered
    exact .inl ⟨place, registered⟩
  | idle result => exact .inl ⟨place, result ▸ registered⟩

/-- The step neither connects under the id again nor finds its session dead in a
`recv`. -/
def Spares (id : SessionId) (custody : Custody H S) : Label → Prop
  | .connect other _ _ _ => other ≠ id
  | .recv index => ∀ handle others, custody.owners[index]? = some (.holding handle others) → handle.id = id →
    ∀ entry, custody.handler.establishedSessions id = some entry → entry.2.isDead = false
  | _ => True

theorem recvFrom_alive {handler : Handler H S}
    (alive : ∀ entry, handler.establishedSessions id = some entry → entry.2.isDead = false) :
    (handler.recvFrom id).1 = handler := by
  unfold Handler.recvFrom
  split
  · rfl
  next oneTimeId session found =>
    have life := alive (oneTimeId, session) found
    simp only at life
    rw [life]
    rfl

theorem recvFrom_other {handler : Handler H S} {other : SessionId} (different : id ≠ other) (place : Place) :
    (handler.recvFrom other).1.registered place id = handler.registered place id := by
  rcases handler.registered_recvFrom other with same | cleared
  · rw [same]
  · rw [cleared, Registry.clear_other fun here => different here.2]

theorem Sound.spared (sound : custody.Sound) (transition : Transition snow custody next label)
    (established : custody.handler.registered .established id = some oneTimeId) (spares : custody.Spares id label)
    (unclosed : ∀ index : Nat, custody.owners[index]? ≠ some (Owner.closing id oneTimeId)) :
    next.handler.registered .established id = some oneTimeId := by
  cases transition with
  | connect key token request handler ready fresh inserted result =>
    rcases Request.insert_cases snow (custody.handler.removeSession key none) key token request with
      failed | ⟨other, future, succeeded, -, entered⟩
    · cases failed.symm.trans inserted
    · cases succeeded.symm.trans inserted
      have different : id ≠ key := Ne.symm spares
      simp only [result, entered]
      rw [Registry.put_other fun here => different here.2, custody.handler.registered_removeSession key none]
      simp [different, established]
  | refused key result =>
    have different : id ≠ key := Ne.symm spares
    rw [result]
    simp [custody.handler.registered_removeSession key none, different, established]
  | pass position old new handler passes =>
    rw [passes.result]
    exact (congrFun (congrFun passes.registered _) _).trans established
  | close position key token held result =>
    have other : ¬ (id = key ∧ custody.handler.registered .established key = some token) := by
      rintro ⟨rfl, same⟩
      cases established.symm.trans same
      exact unclosed position held
    rw [result]
    simp only [Custody.close, Custody.setOwner, custody.handler.registered_removeSession key (some token), reduceCtorEq,
      false_or]
    rw [if_neg other]
    exact established
  | recv position handle others held result =>
    rw [result]
    by_cases same : id = handle.id
    · rw [← same, recvFrom_alive (spares handle others held same.symm)]
      exact established
    · rw [recvFrom_other same]
      exact established
  | packet src data ephemeral packet result =>
    rw [result]
    cases decided : custody.handler.fate snow src packet ephemeral with
    | none =>
      rw [(Handler.handlePacket_idle decided).1]
      exact established
    | some outcome =>
      obtain ⟨token, fate⟩ := outcome
      obtain ⟨pending, elsewhere, -⟩ := Handler.fate_pending decided
      rw [(Handler.handlePacket_fate decided).1, Fate.apply_other]
      · exact established
      · rintro rfl
        exact elsewhere (sound.alone pending established).1
  | update key change result =>
    rw [result, custody.handler.registered_updateEstablished]
    exact established
  | idle result => exact result ▸ established

/-- The session has left the maps, and its one-time id was used up. -/
structure Lost (id : SessionId) (oneTimeId : OneTimeId) (custody : Custody H S) : Prop where
  sound : custody.Sound
  used : ∃ (index : Nat) (owner : Owner), custody.owners[index]? = some owner ∧ owner.key = (id, oneTimeId)
  gone : ∀ place, custody.handler.registered place id ≠ some oneTimeId

theorem Lost.step (lost : Lost id oneTimeId custody) (stepped : custody.step snow label = some next) :
    Lost id oneTimeId next := by
  have transition := lost.sound.transition stepped
  obtain ⟨index, owner, found, key⟩ := lost.used
  obtain ⟨later, held, same, -⟩ := transition.owner found
  refine ⟨lost.sound.step transition, ⟨index, later, held, same.trans key⟩, ?_⟩
  intro place registered
  rcases transition.entry registered with ⟨before, earlier⟩ | fresh
  · exact lost.gone before earlier
  · refine fresh (List.mem_map.mpr ⟨owner, List.mem_of_getElem? found, ?_⟩)
    rw [key]

/-- A step that does not spare the session removes it for good. -/
theorem Sound.broken (sound : custody.Sound) (established : custody.handler.registered .established id = some oneTimeId)
    (broken : ¬ custody.Spares id label) (stepped : custody.step snow label = some next) : Lost id oneTimeId next := by
  have transition := sound.transition stepped
  obtain ⟨index, owner, found, key, -⟩ := sound.owned .established id oneTimeId established
  obtain ⟨later, held, same, -⟩ := transition.owner found
  refine ⟨sound.step transition, ⟨index, later, held, same.trans key⟩, ?_⟩
  cases label with
  | connect other info ephemeral token =>
    have same : other = id := Classical.not_not.mp broken
    subst same
    have swept : ∀ place, (custody.handler.removeSession other none).registered place other = none := fun place => by
      simp [custody.handler.registered_removeSession other none]
    simp only [Custody.step, Custody.connect, List.contains_iff_mem] at stepped
    split at stepped
    · cases stepped
    next fresh =>
      intro place registered
      rcases Request.insert_cases snow (custody.handler.removeSession other none) other token
        (custody.request info ephemeral) with failed | ⟨handler, ready, inserted, -, entered⟩
      · rw [failed] at stepped
        cases stepped
        rw [swept] at registered
        cases registered
      · rw [inserted] at stepped
        cases stepped
        simp only [entered] at registered
        rcases Registry.put_some registered with ⟨-, new⟩ | old
        · refine fresh (List.mem_map.mpr ⟨owner, List.mem_of_getElem? found, ?_⟩)
          rw [key, new]
        · rw [swept] at old
          cases old
  | recv position =>
    simp only [Spares, not_forall, Bool.not_eq_false] at broken
    obtain ⟨handle, others, holding, rfl, entry, present, dead⟩ := broken
    simp only [Custody.step, holding] at stepped
    cases stepped
    have cleared : (handle.recv custody.handler).1 = { custody.handler with
        establishedSessions := custody.handler.establishedSessions.remove handle.id } := by
      rw [Socket.recv_fst, Handler.recvFrom, present]
      simp only [dead, ↓reduceIte]
    intro place registered
    have earlier := (Calmer.recvFrom custody.handler handle.id).fewer place handle.id oneTimeId
      (by rw [← Socket.recv_fst]; exact registered)
    obtain ⟨rfl, -⟩ := sound.alone established earlier
    simp [cleared, Handler.registered] at registered
  | poll position waker => exact absurd trivial broken
  | lookUp position => exact absurd trivial broken
  | cancel position => exact absurd trivial broken
  | clone position => exact absurd trivial broken
  | drop position => exact absurd trivial broken
  | close position => exact absurd trivial broken
  | send position data => exact absurd trivial broken
  | packet src data ephemeral => exact absurd trivial broken
  | keepalive other => exact absurd trivial broken
  | checkHeartbeat other => exact absurd trivial broken

theorem Sound.owner {owner : Owner} (sound : custody.Sound) (found : custody.owners[index]? = some owner)
    (reached : Runs.run (Custody.step snow) custody labels = some next) :
    ∃ later, next.owners[index]? = some later ∧ later.key = owner.key ∧ owner.stage ≤ later.stage := by
  have keeps : ∀ (state : Custody H S) label after,
      (state.Sound ∧ ∃ later, state.owners[index]? = some later ∧ later.key = owner.key ∧ owner.stage ≤ later.stage) →
      state.step snow label = some after →
      after.Sound ∧ ∃ later, after.owners[index]? = some later ∧ later.key = owner.key ∧ owner.stage ≤ later.stage := by
    rintro state label after ⟨still, current, held, key, moved⟩ stepped
    have transition := still.transition stepped
    obtain ⟨later, holds, same, further⟩ := transition.owner held
    exact ⟨still.step transition, later, holds, same.trans key, moved.trans further⟩
  exact (Runs.persists keeps ⟨sound, owner, found, rfl, Nat.le_refl _⟩ reached).2

theorem Sound.holding {final : Custody H S} {handle : BidirectionalSession} {after : Nat} {owner : Owner}
    (sound : custody.Sound) (found : custody.owners[index]? = some owner) (later : 2 ≤ owner.stage)
    (reached : Runs.run (Custody.step snow) custody labels = some final)
    (still : final.owners[index]? = some (.holding handle after)) : ∃ others, owner = .holding handle others := by
  obtain ⟨last, held, key, moved⟩ := sound.owner found reached
  cases still.symm.trans held
  cases owner with
  | holding other others =>
    obtain ⟨sameId, sameToken⟩ := Prod.mk.inj key
    obtain rfl : handle = other := by
      cases handle
      cases other
      rw [BidirectionalSession.mk.injEq]
      exact ⟨sameId, sameToken⟩
    exact ⟨others, rfl⟩
  | waiting ready => simp [Owner.stage] at later
  | looking id oneTimeId => simp [Owner.stage] at later
  | closing id oneTimeId => simp [Owner.stage] at moved
  | abandoned id oneTimeId => simp [Owner.stage] at moved
  | released id oneTimeId => simp [Owner.stage] at moved

theorem Sound.registered_iff {more : List Label} {final : Custody H S} {handle : BidirectionalSession} {before after : Nat}
    (sound : custody.Sound) (held : custody.owners[index]? = some (.holding handle before))
    (established : custody.handler.registered .established handle.id = some handle.oneTimeId)
    (further : Runs.run (Custody.step snow) custody more = some final)
    (still : final.owners[index]? = some (.holding handle after)) :
    final.handler.registered .established handle.id = some handle.oneTimeId ↔
      Runs.Meets (Custody.step snow) (Spares handle.id) custody more := by
  induction more generalizing custody before with
  | nil =>
    cases further
    exact ⟨fun _ => trivial, fun _ => established⟩
  | cons label more ih =>
    obtain ⟨middle, stepped, rest⟩ := Runs.run_cons further
    have transition := sound.transition stepped
    by_cases spares : custody.Spares handle.id label
    · obtain ⟨owner, current, -, moved⟩ := transition.owner held
      obtain ⟨others, rfl⟩ := (sound.step transition).holding current moved rest still
      have unclosed : ∀ position : Nat, custody.owners[position]? ≠ some (.closing handle.id handle.oneTimeId) := by
        intro position closing
        cases sound.unique closing held rfl
        cases closing.symm.trans held
      have kept := sound.spared transition established spares unclosed
      rw [ih (sound.step transition) current kept rest]
      constructor
      · intro meets
        refine ⟨spares, ?_⟩
        intro other same
        cases stepped.symm.trans same
        exact meets
      · intro meets
        exact meets.2 middle stepped
    · have lost : Lost handle.id handle.oneTimeId final :=
        Runs.persists (fun _ _ _ now after => now.step after) (sound.broken established spares stepped) rest
      constructor
      · intro registered
        exact absurd registered (lost.gone .established)
      · intro meets
        exact absurd meets.1 spares

/-- While a clone of its handle lives, an established session leaves the handler only
when its id is connected again or a `recv` finds it dead. -/
theorem clones_keep_session (snow : Snow H S) (connectionInfo : ConnectionInfo) (keypair : SnowKeypair)
    (labels more : List Label) {final : Custody H S} (index : Nat) (handle : BidirectionalSession) {before after : Nat}
    (reached : Runs.run (step snow) (start connectionInfo keypair) labels = some custody)
    (held : custody.owners[index]? = some (.holding handle before))
    (established : custody.handler.registered .established handle.id = some handle.oneTimeId)
    (further : Runs.run (step snow) custody more = some final)
    (still : final.owners[index]? = some (.holding handle after)) :
    final.handler.registered .established handle.id = some handle.oneTimeId ↔
      Runs.Meets (step snow) (Spares handle.id) custody more := by
  have sound := (Sound.start connectionInfo keypair).run reached
  exact sound.registered_iff held established further still

theorem clones_keep_session_dropped :
    ∃ custody final, Runs.run (step Handler.fixedSnow) (start ⟨[], [2]⟩ ⟨[1], [2]⟩) cloned = some custody ∧
      custody.owners = [.holding ⟨7, 40⟩ 1] ∧
      Runs.run (step Handler.fixedSnow) custody [.drop 0, .send 0 [5]] = some final ∧
      final.owners = [.holding ⟨7, 40⟩ 0] ∧ final.handler.registered .established 7 = some 40 := by
  refine ⟨_, _, rfl, rfl, rfl, rfl, ?_⟩
  exact (clones_keep_session Handler.fixedSnow ⟨[], [2]⟩ ⟨[1], [2]⟩ cloned [.drop 0, .send 0 [5]] 0 ⟨7, 40⟩
    rfl rfl rfl rfl rfl).mpr ⟨trivial, fun _ _ => ⟨trivial, fun _ _ => trivial⟩⟩

end Custody
end Veq
