import Veq.Vigil

/-! Nobody is left waiting on a dead session, except for a poll that was between its
look at the session and the registration of its waker when the wakers were woken. -/

namespace Veq
open Rust

namespace Vigil

variable {S : Type} {vigil next : Vigil} {label : Label} {future : Nat} {waiting : Waiting}

/-- The vigil is kept at a session. -/
structure Of (session : Session S) (vigil : Vigil) : Prop where
  messages : vigil.messages = session.messages
  wakers : vigil.wakers = session.wakers
  dead : vigil.dead = session.dead

/-- The steps of a poll, with nothing between them, are the poll of the session. -/
theorem Of.poll {session : Session S} (same : vigil.Of session) (found : vigil.futures[future]? = some waiting)
    (resting : waiting.polling.isResting = true) (waker : Waker) :
    ∃ steps next, (steps = [.loadDead future waker] ∨
        steps = [.loadDead future waker, .tryRecv future, .updateWakers future]) ∧
      Runs.run step vigil steps = some next ∧ next.Of (session.poll waiting.id waker).1 := by
  obtain ⟨messages, wakers, dead⟩ := same
  obtain ⟨inside, rfl⟩ := List.getElem?_eq_some_iff.mp found
  cases alive : session.dead with
  | true =>
    refine ⟨_, _, .inl rfl, by simp [Runs.run, step, found, resting, dead, alive]; rfl, ?_⟩
    simp only [Session.poll, alive, ↓reduceIte]
    exact ⟨messages, wakers, dead⟩
  | false =>
    cases queue : session.messages with
    | nil =>
      refine ⟨_, _, .inr rfl, by simp [Runs.run, step, resting, dead, alive, messages, queue, set, inside]; rfl, ?_⟩
      simp only [Session.poll, alive, queue, Bool.false_eq_true, ↓reduceIte]
      exact ⟨rfl, by simp [wakers], rfl⟩
    | cons data rest =>
      refine ⟨_, _, .inr rfl, by simp [Runs.run, step, resting, dead, alive, messages, queue, set, inside]; rfl, ?_⟩
      simp only [Session.poll, alive, queue, Bool.false_eq_true, ↓reduceIte]
      exact ⟨rfl, by simp [wakers], rfl⟩

/-- The last tick of the task that watches the heartbeat, with nothing between its
two steps, is that of the session. -/
theorem Of.checkHeartbeat {session : Session S} (same : vigil.Of session) (watching : vigil.watcher = .watching)
    (silent : session.heartbeat = false) :
    ∃ next, Runs.run step vigil [.storeDead, .wakeAll] = some next ∧ next.Of session.checkHeartbeat.1 ∧
      next.futures = vigil.futures.map (Waiting.wake session.checkHeartbeat.2) := by
  obtain ⟨messages, wakers, dead⟩ := same
  refine ⟨{ vigil with dead := true, watcher := .ended }.wake vigil.wakers.values, ?_, ?_, ?_⟩
  · simp [Runs.run, step, watching, wake]
  · simp only [Session.checkHeartbeat, silent, Bool.false_eq_true, ↓reduceIte]
    exact ⟨messages, wakers, rfl⟩
  · simp [Session.checkHeartbeat, silent, wake, wakers]

theorem wake_id (wakers : List Waker) (waiting : Waiting) : (waiting.wake wakers).id = waiting.id := by
  unfold Waiting.wake
  split <;> rfl

theorem wake_polling (wakers : List Waker) (waiting : Waiting) : (waiting.wake wakers).polling = waiting.polling := by
  unfold Waiting.wake
  split <;> rfl

theorem wake_uncalled {wakers : List Waker} (uncalled : (waiting.wake wakers).called = false) :
    waiting.called = false ∧ ∀ waker ∈ wakers, waiting.polling.waker ≠ some waker := by
  unfold Waiting.wake at uncalled
  split at uncalled
  · cases uncalled
  next absent => exact ⟨uncalled, fun waker member same => absent ⟨waker, member, same⟩⟩

/-- The future waits, or is about to wait, without having been called. -/
def Unanswered (waiting : Waiting) : Prop :=
  waiting.polling.isOpen = true ∨ waiting.polling.isPending = true ∧ waiting.called = false

/-- Everything that a step can do to the futures and their wakers. -/
inductive Moves (vigil next : Vigil) : Prop
  | stays (futures : next.futures = vigil.futures) (wakers : next.wakers = vigil.wakers)
  | joins (id : Uuid) (alive : vigil.dead = false) (fresh : id ∉ vigil.futures.map Waiting.id)
      (futures : next.futures = vigil.futures ++ [⟨id, .created, false⟩]) (wakers : next.wakers = vigil.wakers)
  | polls (future : Nat) (waiting value : Waiting) (found : vigil.futures[future]? = some waiting)
      (futures : next.futures = vigil.futures.set future value) (same : value.id = waiting.id)
      (own : ∀ waker, value.polling = .pending waker → next.wakers[waiting.id]? = some waker)
      (others : ∀ id : Uuid, id ≠ waiting.id → next.wakers[id]? = vigil.wakers[id]?)
      (waits : vigil.dead = true → Unanswered value → Unanswered waiting)
  | wakes (wakers : List Waker) (futures : next.futures = vigil.futures.map (Waiting.wake wakers))
      (kept : ∀ (id : Uuid) (waker : Waker), vigil.wakers[id]? = some waker →
        next.wakers[id]? = some waker ∨ waker ∈ wakers)

theorem mem_values {wakers : Std.TreeMap Uuid Waker} {id : Uuid} {waker : Waker} (present : wakers[id]? = some waker) :
    waker ∈ wakers.values := by
  have values : wakers.values = wakers.toList.map Prod.snd := by
    change wakers.foldr (fun _ waker list => waker :: list) [] = _
    rw [Std.TreeMap.foldr_eq_foldr_toList, List.foldr_cons_eq_append, List.append_nil]
  rw [values]
  exact List.mem_map.mpr ⟨(id, waker), Std.TreeMap.mem_toList_iff_getElem?_eq_some.mpr present, rfl⟩

theorem popFirst_kept {wakers : Std.TreeMap Uuid Waker} {id : Uuid} {waker : Waker} (present : wakers[id]? = some waker) :
    (popFirst wakers)[id]? = some waker ∨ waker ∈ ((firstEntry wakers).map Prod.snd).toList := by
  cases first : firstEntry wakers with
  | none =>
    rw [popFirst_none first]
    exact .inl present
  | some entry =>
    by_cases same : id = entry.1
    · have found := getElem?_firstEntry first
      rw [← same, present] at found
      exact .inr (by simp [Option.some.inj found])
    · refine .inl ((popFirst_other ?_).trans present)
      simp [minKey?_firstEntry, first, Ne.symm same]

theorem step_moves (stepped : vigil.step label = some next) : vigil.Moves next := by
  cases label with
  | recv id =>
    simp only [step, Option.ite_none_left_eq_some, Bool.or_eq_true, List.contains_iff_mem, not_or, Bool.not_eq_true] at stepped
    obtain ⟨⟨alive, fresh⟩, same⟩ := stepped
    cases same
    exact .joins id alive fresh rfl rfl
  | loadDead future waker =>
    simp only [step] at stepped
    split at stepped
    · cases stepped
    next waiting found =>
      split at stepped
      · split at stepped
        · cases stepped
          exact .polls future waiting _ found rfl rfl (fun _ pending => by cases pending) (fun _ _ => rfl)
            (fun _ waits => by simp [Unanswered, Polling.isOpen, Polling.isPending] at waits)
        next alive =>
          cases stepped
          exact .polls future waiting _ found rfl rfl (fun _ pending => by cases pending) (fun _ _ => rfl)
            (fun dead _ => absurd dead alive)
      · cases stepped
  | tryRecv future =>
    simp only [step] at stepped
    split at stepped
    next id waker called found =>
      split at stepped
      · cases stepped
        exact .polls future _ _ found rfl rfl (fun _ pending => by cases pending) (fun _ _ => rfl)
          (fun _ _ => .inl rfl)
      · cases stepped
        exact .polls future _ _ found rfl rfl (fun _ pending => by cases pending) (fun _ _ => rfl)
          (fun _ _ => .inl rfl)
    · cases stepped
  | updateWakers future =>
    simp only [step] at stepped
    split at stepped
    next id waker called found =>
      cases stepped
      refine .polls future _ _ found rfl rfl ?_ ?_ (fun _ _ => .inl rfl)
      · intro other pending
        cases pending
        exact Std.TreeMap.getElem?_insert_self
      · intro other apart
        refine Std.TreeMap.getElem?_insert.trans (if_neg ?_)
        exact fun same => apart (Std.LawfulEqCmp.compare_eq_iff_eq.mp same).symm
    next id data called found =>
      cases stepped
      refine .polls future _ _ found rfl rfl (fun _ pending => by cases pending) ?_
        (fun _ waits => by simp [Unanswered, Polling.isOpen, Polling.isPending] at waits)
      intro other apart
      refine Std.TreeMap.getElem?_erase.trans (if_neg ?_)
      exact fun same => apart (Std.LawfulEqCmp.compare_eq_iff_eq.mp same).symm
    · cases stepped
  | drop future =>
    simp only [step] at stepped
    split at stepped
    · cases stepped
    next waiting found =>
      split at stepped
      · cases stepped
        exact .polls future waiting _ found rfl rfl (fun _ pending => by cases pending) (fun _ _ => rfl)
          (fun _ waits => by simp [Unanswered, Polling.isOpen, Polling.isPending] at waits)
      · cases stepped
  | push data =>
    simp only [step, Option.ite_none_left_eq_some] at stepped
    obtain ⟨-, same⟩ := stepped
    cases same
    exact .stays rfl rfl
  | wakeFirst =>
    simp only [step, Option.ite_none_right_eq_some] at stepped
    obtain ⟨-, same⟩ := stepped
    cases same
    exact .wakes _ rfl (fun _ _ => popFirst_kept)
  | close =>
    cases stepped
    exact .stays rfl rfl
  | storeDead =>
    simp only [step] at stepped
    split at stepped
    · cases stepped
      exact .stays rfl rfl
    · cases stepped
  | wakeAll =>
    simp only [step] at stepped
    split at stepped
    · cases stepped
      exact .wakes _ rfl (fun _ _ present => .inl present)
    · cases stepped

/-- The waker of a future that waits uncalled is registered. -/
structure Registered (vigil : Vigil) : Prop where
  distinct : (vigil.futures.map Waiting.id).Nodup
  registered : ∀ (future : Nat) (waiting : Waiting), vigil.futures[future]? = some waiting →
    ∀ waker, waiting.polling = .pending waker → waiting.called = false → vigil.wakers[waiting.id]? = some waker

namespace Registered

theorem start : Vigil.start.Registered := ⟨List.nodup_nil, by simp [Vigil.start]⟩

theorem different (registered : vigil.Registered) {other : Nat} {stranger : Waiting}
    (found : vigil.futures[future]? = some waiting) (present : vigil.futures[other]? = some stranger)
    (apart : other ≠ future) : stranger.id ≠ waiting.id := by
  intro same
  have left : (vigil.futures.map Waiting.id)[other]? = some waiting.id := by simp [present, same]
  have right : (vigil.futures.map Waiting.id)[future]? = some waiting.id := by simp [found]
  have inside : other < (vigil.futures.map Waiting.id).length := (List.getElem?_eq_some_iff.mp left).1
  exact apart ((List.getElem?_inj inside registered.distinct).mp (left.trans right.symm))

theorem moves (registered : vigil.Registered) (moves : vigil.Moves next) : next.Registered := by
  cases moves with
  | stays futures wakers => exact ⟨futures ▸ registered.distinct, futures ▸ wakers ▸ registered.registered⟩
  | joins id alive fresh futures wakers =>
    constructor
    · rw [futures, List.map_append, List.map_singleton]
      refine List.nodup_append.mpr ⟨registered.distinct, List.nodup_singleton id, ?_⟩
      intro first member second single same
      rw [same, List.mem_singleton.mp single] at member
      exact fresh member
    · intro future waiting found waker pending uncalled
      rw [futures] at found
      rw [wakers]
      rcases Runs.append_some found with ⟨-, rfl⟩ | present
      · cases pending
      · exact registered.registered future waiting present waker pending uncalled
  | polls future waiting value found futures same own others waits =>
    constructor
    · obtain ⟨inside, rfl⟩ := List.getElem?_eq_some_iff.mp found
      have ids : next.futures.map Waiting.id = vigil.futures.map Waiting.id := by
        have own : (vigil.futures.map Waiting.id)[future]? = some vigil.futures[future].id := by simp [inside]
        obtain ⟨within, equal⟩ := List.getElem?_eq_some_iff.mp own
        rw [futures, List.map_set, same, ← equal, List.set_getElem_self]
      rw [ids]
      exact registered.distinct
    · intro other stranger present waker pending uncalled
      rw [futures] at present
      rcases Runs.set_some present with ⟨-, rfl⟩ | ⟨apart, kept⟩
      · rw [same]
        exact own waker pending
      · rw [others stranger.id (registered.different found kept apart)]
        exact registered.registered other stranger kept waker pending uncalled
  | wakes wakers futures kept =>
    constructor
    · have ids : next.futures.map Waiting.id = vigil.futures.map Waiting.id := by
        rw [futures, List.map_map]
        exact List.map_congr_left fun waiting _ => wake_id wakers waiting
      rw [ids]
      exact registered.distinct
    · intro future waiting found waker pending uncalled
      rw [futures, List.getElem?_map] at found
      obtain ⟨before, present, rfl⟩ := Option.map_eq_some_iff.mp found
      obtain ⟨silent, absent⟩ := wake_uncalled uncalled
      rw [wake_polling] at pending
      rw [wake_id]
      rcases kept before.id waker (registered.registered future before present waker pending silent) with stays | woken
      · exact stays
      · exact absurd (by rw [pending]; rfl) (absent waker woken)

end Registered

theorem step_dead (stepped : vigil.step label = some next) :
    (vigil.dead = true → next.dead = true) ∧ (next.watcher ≠ .watching → vigil.watcher ≠ .watching ∨ next.dead = true) := by
  cases label <;> simp only [step] at stepped <;> grind [set, wake]

/-- After the death of the session nobody begins to wait. -/
theorem Moves.unanswered (moves : vigil.Moves next) (dead : vigil.dead = true) (found : next.futures[future]? = some waiting)
    (waits : Unanswered waiting) : ∃ earlier, vigil.futures[future]? = some earlier ∧ Unanswered earlier := by
  cases moves with
  | stays futures wakers => exact ⟨waiting, futures ▸ found, waits⟩
  | joins id alive => simp [alive] at dead
  | polls other earlier value present futures same own others before =>
    rw [futures] at found
    rcases Runs.set_some found with ⟨rfl, rfl⟩ | ⟨-, kept⟩
    · exact ⟨earlier, present, before dead waits⟩
    · exact ⟨waiting, kept, waits⟩
  | wakes wakers futures kept =>
    rw [futures, List.getElem?_map] at found
    obtain ⟨before, present, rfl⟩ := Option.map_eq_some_iff.mp found
    refine ⟨before, present, ?_⟩
    unfold Unanswered at waits ⊢
    rw [wake_polling] at waits
    rcases waits with opened | ⟨pending, uncalled⟩
    · exact .inl opened
    · exact .inr ⟨pending, (wake_uncalled uncalled).1⟩

theorem run_unanswered {final : Vigil} {labels : List Label} (dead : vigil.dead = true)
    (reached : Runs.run step vigil labels = some final) (found : final.futures[future]? = some waiting)
    (waits : Unanswered waiting) : ∃ earlier, vigil.futures[future]? = some earlier ∧ Unanswered earlier := by
  induction labels generalizing vigil with
  | nil =>
    cases reached
    exact ⟨waiting, found, waits⟩
  | cons label labels ih =>
    obtain ⟨next, stepped, rest⟩ := Runs.run_cons reached
    obtain ⟨later, present, unanswered⟩ := ih ((step_dead stepped).1 dead) rest
    exact (step_moves stepped).unanswered dead present unanswered

/-- A future that is left waiting uncalled when the session has died was in the
middle of a poll when the wakers were woken: it had found the session alive and not
registered its waker yet. -/
theorem waiters_woken (before later : List Label) (middle woken final : Vigil)
    (reached : Runs.run step start before = some middle) (wakes : middle.step .wakeAll = some woken)
    (ends : Runs.run step woken later = some final) (future : Nat) (waiting : Waiting)
    (found : final.futures[future]? = some waiting) (pending : waiting.polling.isPending = true)
    (uncalled : waiting.called = false) :
    ∃ earlier, middle.futures[future]? = some earlier ∧ earlier.polling.isOpen = true := by
  have registered : middle.Registered :=
    Runs.persists (fun _ _ _ registered stepped => Registered.moves registered (step_moves stepped)) .start reached
  have told : middle.watcher ≠ .watching → middle.dead = true := by
    have keeps : ∀ (vigil : Vigil) label (next : Vigil), (vigil.watcher ≠ .watching → vigil.dead = true) →
        vigil.step label = some next → next.watcher ≠ .watching → next.dead = true := by
      intro vigil label next told stepped past
      obtain ⟨stays, enters⟩ := step_dead stepped
      exact (enters past).elim (fun past => stays (told past)) id
    exact Runs.persists keeps (fun past => absurd rfl past) reached
  simp only [step] at wakes
  split at wakes
  next stored =>
    have dead : ({ middle with watcher := .ended }.wake middle.wakers.values).dead = true := told (by simp [stored])
    cases wakes
    obtain ⟨later, present, unanswered⟩ := run_unanswered dead ends found (.inr ⟨pending, uncalled⟩)
    simp only [wake, List.getElem?_map] at present
    obtain ⟨earlier, before, rfl⟩ := Option.map_eq_some_iff.mp present
    refine ⟨earlier, before, ?_⟩
    unfold Unanswered at unanswered
    rw [wake_polling] at unanswered
    rcases unanswered with opened | ⟨pending, silent⟩
    · exact opened
    · obtain ⟨uncalled, absent⟩ := wake_uncalled silent
      unfold Polling.isPending at pending
      split at pending
      next waker waits =>
        have member := mem_values (registered.registered future earlier before waker waits uncalled)
        exact absurd (by rw [waits]; rfl) (absent waker member)
      · cases pending
  · cases wakes

/-- A poll that registers after the wake-up is left alone; one that has registered
before it is called. -/
theorem waiters_woken_except : ∃ middle woken final : Vigil,
    Runs.run step start [.recv 5, .recv 6, .loadDead 1 8, .tryRecv 1, .updateWakers 1, .loadDead 0 9, .tryRecv 0, .storeDead] =
      some middle ∧
    middle.step .wakeAll = some woken ∧ Runs.run step woken [.updateWakers 0] = some final ∧
    (∃ registered, final.futures[1]? = some registered ∧ registered.called = true) ∧
    ∃ waiting, final.futures[0]? = some waiting ∧ waiting.polling.isPending = true ∧ waiting.called = false ∧
      ∃ earlier, middle.futures[0]? = some earlier ∧ earlier.polling.isOpen = true := by
  have reached : Runs.run step start
      [.recv 5, .recv 6, .loadDead 1 8, .tryRecv 1, .updateWakers 1, .loadDead 0 9, .tryRecv 0, .storeDead] = some _ := rfl
  refine ⟨_, _, _, reached, rfl, rfl, ⟨_, rfl, ?_⟩, _, rfl, rfl, ?_, ?_⟩
  · decide
  · decide
  · exact waiters_woken _ [.updateWakers 0] _ _ _ reached rfl rfl 0 _ rfl rfl (by decide)

end Vigil
end Veq
