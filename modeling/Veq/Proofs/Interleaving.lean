import Veq.Proofs.Sections
import Veq.Proofs.Survival
import Mathlib.Data.List.Nodup

/-! Closing a session and starting one, against concurrent `handle_incoming`
calls. A call that holds an entry outside the maps can bring it back after the
sweep that should have removed it, and over an entry that was inserted in the
meantime. Both are excluded by a condition on single steps. -/

namespace Veq.System
open Rust Bincode

variable {H S : Type} {snow : Snow H S} {system next : System H S} {label : Label}

/-- What one step can do. -/
inductive Transition (snow : Snow H S) (system next : System H S) : Label → Prop where
  | tick {label : Label} (calls : next.calls = system.calls) (issued : next.issued = system.issued)
      (dropped : next.handler.registered = system.handler.registered ∨
        ∃ id, next.handler.registered = Registry.clear system.handler.registered .established id) :
      Transition snow system next label
  | spawn {label : Label} (call : Call H S) (spawned : next = system.spawn call) (empty : call.puts = none)
      (closing : ∀ id oneTimeId remaining, call = .remove id oneTimeId remaining →
        (id, oneTimeId) ∈ system.issued ∧ remaining = Place.order) : Transition snow system next label
  | incoming {oneTimeId : OneTimeId} (task : Nat) (src : SocketAddr) (packet : SessionPacket) (ephemeral : Nat)
      (incoming : Incoming H S) (found : system.calls[task]? = some (.incoming src packet ephemeral incoming))
      (calls : next.calls = system.calls.set task
        (.incoming src packet ephemeral (incoming.enter snow system.handler src packet ephemeral).2))
      (issued : next.issued = system.issued)
      (effect : Effect system.handler.registered next.handler.registered packet.id incoming
        (incoming.enter snow system.handler src packet ephemeral).2) : Transition snow system next (.enter task oneTimeId)
  | remove {oneTimeId : OneTimeId} (task : Nat) (id : SessionId) (closing : OneTimeId) (place : Place)
      (remaining : List Place) (found : system.calls[task]? = some (.remove id closing (place :: remaining)))
      (calls : next.calls = system.calls.set task (.remove id closing remaining)) (issued : next.issued = system.issued)
      (swept : next.handler.registered = if system.handler.registered place id = some closing then
        Registry.clear system.handler.registered place id else system.handler.registered) :
      Transition snow system next (.enter task oneTimeId)
  | sweep {oneTimeId : OneTimeId} (task : Nat) (id : SessionId) (request : Request) (place : Place)
      (remaining : List Place) (found : system.calls[task]? = some (.connect id request (place :: remaining)))
      (calls : next.calls = system.calls.set task (.connect id request remaining)) (issued : next.issued = system.issued)
      (swept : next.handler.registered = Registry.clear system.handler.registered place id) :
      Transition snow system next (.enter task oneTimeId)
  | fail {oneTimeId : OneTimeId} (task : Nat) (id : SessionId) (request : Request)
      (found : system.calls[task]? = some (.connect id request []))
      (calls : next.calls = system.calls.set task (.connected id none)) (issued : next.issued = system.issued)
      (same : next.handler = system.handler) : Transition snow system next (.enter task oneTimeId)
  | insert {oneTimeId : OneTimeId} (task : Nat) (id : SessionId) (request : Request)
      (found : system.calls[task]? = some (.connect id request []))
      (fresh : oneTimeId ∉ system.issued.map Prod.snd)
      (calls : next.calls = system.calls.set task (.connected id (some oneTimeId)))
      (issued : next.issued = system.issued ++ [(id, oneTimeId)])
      (succeeded : (request.insert snow system.handler id oneTimeId).2.isOk = true)
      (inserted : next.handler.registered = Registry.put system.handler.registered request.place id oneTimeId) :
      Transition snow system next (.enter task oneTimeId)

theorem enter_transition {task : Nat} {oneTimeId : OneTimeId} (entered : system.enter snow task oneTimeId = some next) :
    Transition snow system next (.enter task oneTimeId) := by
  unfold System.enter at entered
  split at entered
  next => cases entered
  next src packet ephemeral incoming found =>
    cases entered
    exact .incoming task src packet ephemeral incoming found rfl rfl
      (Incoming.enter_effect snow system.handler src packet ephemeral incoming)
  next id closing place remaining found =>
    cases entered
    refine .remove task id closing place remaining found rfl rfl ?_
    simpa using Handler.registered_removeFrom system.handler id (some closing) place
  next id request place remaining found =>
    cases entered
    refine .sweep task id request place remaining found rfl rfl ?_
    simpa using Handler.registered_removeFrom system.handler id none place
  next id request found =>
    split at entered
    · cases entered
    next fresh =>
      rcases Request.insert_cases snow system.handler id oneTimeId request with
        failed | ⟨handler, ready, succeeded, sameId, registered⟩
      · rw [failed] at entered
        cases entered
        exact .fail task id request found rfl rfl rfl
      · rw [succeeded] at entered
        cases entered
        subst sameId
        exact .insert task id request found fresh rfl rfl (by rw [succeeded]; rfl) registered
  next => cases entered
  next => cases entered

theorem step_transition (stepped : system.step snow label = some next) : Transition snow system next label := by
  cases label with
  | receive src data ephemeral =>
    simp only [step] at stepped
    split at stepped
    · cases stepped
      exact .tick rfl rfl (.inl rfl)
    · cases stepped
      exact .spawn _ rfl rfl (by simp)
  | connect id request =>
    cases stepped
    exact .spawn _ rfl rfl (by simp)
  | close id oneTimeId =>
    simp only [step] at stepped
    split at stepped
    next issued =>
      cases stepped
      refine .spawn _ rfl rfl ?_
      rintro _ _ _ ⟨⟩
      exact ⟨issued, rfl⟩
    next => cases stepped
  | enter task oneTimeId => exact enter_transition stepped
  | send id data =>
    cases stepped
    refine .tick rfl rfl (.inl ?_)
    rw [Handler.send_eq_update]
    exact system.handler.registered_updateEstablished id _
  | recvFrom id =>
    cases stepped
    refine .tick rfl rfl ?_
    rcases system.handler.registered_recvFrom id with same | cleared
    · exact .inl same
    · exact .inr ⟨id, cleared⟩
  | keepalive id =>
    cases stepped
    exact .tick rfl rfl (.inl (system.handler.registered_updateEstablished id _))
  | checkHeartbeat id =>
    cases stepped
    exact .tick rfl rfl (.inl (system.handler.registered_updateEstablished id _))

abbrev Meets (condition : System H S → Label → Prop) (snow : Snow H S) (system : System H S) (labels : List Label) : Prop :=
  Runs.Meets (step snow) condition system labels

/-- What every transition preserves, every step preserves. -/
theorem of_transition {condition : System H S → Label → Prop} {valid : System H S → Prop}
    (preserves : ∀ system label next, valid system → condition system label → Transition snow system next label → valid next)
    (system : System H S) (label : Label) (next : System H S) (holds : valid system) (meets : condition system label)
    (stepped : system.step snow label = some next) : valid next :=
  preserves system label next holds meets (step_transition stepped)

private theorem of_tick {registry next : Registry} {place : Place} {key : SessionId} {oneTimeId : OneTimeId}
    (dropped : next = registry ∨ ∃ id, next = registry.clear .established id)
    (found : next place key = some oneTimeId) : registry place key = some oneTimeId := by
  rcases dropped with same | ⟨id, cleared⟩
  · exact same ▸ found
  · exact Registry.of_clear (cleared ▸ found)

private theorem of_sweep {registry next : Registry} {target place : Place} {id key : SessionId}
    {closing oneTimeId : OneTimeId}
    (swept : next = if registry target id = some closing then registry.clear target id else registry)
    (found : next place key = some oneTimeId) : registry place key = some oneTimeId := by
  rw [swept] at found
  split at found
  · exact Registry.of_clear found
  · exact found

/-- Every one-time id in the system was issued, for the id that it stands under. -/
structure Tracked (system : System H S) : Prop where
  unique : (system.issued.map Prod.snd).Nodup
  entries : ∀ place id oneTimeId, system.handler.registered place id = some oneTimeId → (id, oneTimeId) ∈ system.issued
  held : ∀ call ∈ system.calls, ∀ place id oneTimeId, call.puts = some (place, id, oneTimeId) →
    (id, oneTimeId) ∈ system.issued
  closing : ∀ id oneTimeId remaining, Call.remove id oneTimeId remaining ∈ system.calls → (id, oneTimeId) ∈ system.issued

namespace Tracked

theorem start (keypair : SnowKeypair) : (start keypair : System H S).Tracked := by
  refine ⟨.nil, ?_, by simp [System.start], by simp [System.start]⟩
  intro place id oneTimeId found
  cases place <;> simp [System.start, Handler.new, Handler.registered] at found

theorem same_id (tracked : system.Tracked) {first second : SessionId} {oneTimeId : OneTimeId}
    (one : (first, oneTimeId) ∈ system.issued) (two : (second, oneTimeId) ∈ system.issued) : first = second :=
  congrArg Prod.fst (List.inj_on_of_nodup_map tracked.unique one two rfl)

theorem grow (tracked : system.Tracked) (unique : (next.issued.map Prod.snd).Nodup) (issued : system.issued ⊆ next.issued)
    (entries : ∀ place id oneTimeId, next.handler.registered place id = some oneTimeId →
      system.handler.registered place id = some oneTimeId ∨ (id, oneTimeId) ∈ next.issued)
    (calls : ∀ call ∈ next.calls, call ∈ system.calls ∨
      (∀ place id oneTimeId, call.puts = some (place, id, oneTimeId) → (id, oneTimeId) ∈ next.issued) ∧
      ∀ id oneTimeId remaining, call = .remove id oneTimeId remaining → (id, oneTimeId) ∈ next.issued) : next.Tracked := by
  refine ⟨unique, ?_, ?_, ?_⟩
  · intro place id oneTimeId found
    rcases entries place id oneTimeId found with old | new
    · exact issued (tracked.entries place id oneTimeId old)
    · exact new
  · intro call member place id oneTimeId puts
    rcases calls call member with old | ⟨held, -⟩
    · exact issued (tracked.held call old place id oneTimeId puts)
    · exact held place id oneTimeId puts
  · intro id oneTimeId remaining member
    rcases calls _ member with old | ⟨-, closing⟩
    · exact issued (tracked.closing id oneTimeId remaining old)
    · exact closing id oneTimeId remaining rfl

theorem set (tracked : system.Tracked) (issued : next.issued = system.issued)
    (entries : ∀ place id oneTimeId, next.handler.registered place id = some oneTimeId →
      system.handler.registered place id = some oneTimeId ∨ (id, oneTimeId) ∈ system.issued)
    {task : Nat} {call : Call H S} (calls : next.calls = system.calls.set task call)
    (held : ∀ place id oneTimeId, call.puts = some (place, id, oneTimeId) → (id, oneTimeId) ∈ system.issued)
    (closing : ∀ id oneTimeId remaining, call = .remove id oneTimeId remaining → (id, oneTimeId) ∈ system.issued) :
    next.Tracked := by
  refine tracked.grow (issued ▸ tracked.unique) (issued ▸ List.Subset.refl _) (issued ▸ entries) ?_
  intro other member
  rw [calls] at member
  rcases List.mem_or_eq_of_mem_set member with old | rfl
  · exact .inl old
  · exact .inr (issued ▸ ⟨held, closing⟩)

theorem step (tracked : system.Tracked) (transition : Transition snow system next label) : next.Tracked := by
  cases transition with
  | tick calls issued dropped =>
    refine tracked.grow (issued ▸ tracked.unique) (issued ▸ List.Subset.refl _) ?_ ?_
    · intro place id oneTimeId found
      exact .inl (of_tick dropped found)
    · intro call member
      exact .inl (calls ▸ member)
  | spawn call spawned empty closing =>
    subst spawned
    refine tracked.grow tracked.unique (List.Subset.refl _) (fun _ _ _ found => .inl found) ?_
    intro other member
    rcases List.mem_append.mp member with old | new
    · exact .inl old
    · rw [List.mem_singleton.mp new]
      refine .inr ⟨?_, fun id oneTimeId remaining same => (closing id oneTimeId remaining same).1⟩
      intro place id oneTimeId puts
      simp [empty] at puts
  | incoming task src packet ephemeral incoming found calls issued effect =>
    have member := List.mem_of_getElem? found
    cases effect with
    | idle same nothing nothingNext =>
      refine tracked.set issued (fun _ _ _ found => .inl (same ▸ found)) calls ?_ (by simp)
      intro place id oneTimeId puts
      simp [Call.puts, nothingNext] at puts
    | take place oneTimeId source nothing present taken outcome =>
      refine tracked.set issued (fun _ _ _ found => .inl (Registry.of_clear (taken ▸ found))) calls ?_ (by simp)
      intro other id held puts
      rcases outcome with none | ⟨target, some, -⟩
      · simp [Call.puts, none] at puts
      · simp only [Call.puts, some, Option.map_some, Option.some.injEq, Prod.mk.injEq] at puts
        obtain ⟨-, rfl, rfl⟩ := puts
        exact tracked.entries place packet.id oneTimeId present
    | put place oneTimeId held written nothingNext =>
      have mine : (packet.id, oneTimeId) ∈ system.issued :=
        tracked.held _ member place packet.id oneTimeId (by simp [Call.puts, held])
      refine tracked.set issued ?_ calls ?_ (by simp)
      · intro other id current found
        rcases Registry.of_put (written ▸ found) with ⟨rfl, rfl, rfl⟩ | old
        · exact .inr mine
        · exact .inl old
      · intro other id current puts
        simp [Call.puts, nothingNext] at puts
  | remove task id closing place remaining found calls issued swept =>
    refine tracked.set issued ?_ calls (by simp [Call.puts]) ?_
    · intro other key oneTimeId present
      exact .inl (of_sweep swept present)
    · rintro _ _ _ ⟨⟩
      exact tracked.closing id closing _ (List.mem_of_getElem? found)
  | sweep task id request place remaining found calls issued swept =>
    exact tracked.set issued (fun _ _ _ found => .inl (Registry.of_clear (swept ▸ found))) calls (by simp [Call.puts])
      (by simp)
  | fail task id request found calls issued same =>
    exact tracked.set issued (fun _ _ _ found => .inl (same ▸ found)) calls (by simp [Call.puts]) (by simp)
  | @insert oneTimeId task id request found fresh calls issued succeeded inserted =>
    refine tracked.grow ?_ (issued ▸ List.subset_append_left _ _) ?_ ?_
    · rw [issued, List.map_append, List.nodup_append]
      refine ⟨tracked.unique, by simp, ?_⟩
      intro used member new last
      have same : new = oneTimeId := by simpa using last
      rintro rfl
      exact fresh (same ▸ member)
    · intro place key current present
      rcases Registry.of_put (inserted ▸ present) with ⟨rfl, rfl, rfl⟩ | old
      · exact .inr (by simp [issued])
      · exact .inl old
    · intro call member
      rw [calls] at member
      rcases List.mem_or_eq_of_mem_set member with old | rfl
      · exact .inl old
      · exact .inr ⟨by simp [Call.puts], by simp⟩

end Tracked

/-- A closing call that is past a map, and that will not look there again. -/
def Scanned (place : Place) (oneTimeId : OneTimeId) : Call H S → Prop
  | .remove _ closing remaining => closing = oneTimeId ∧ place ∉ remaining
  | _ => False

instance (place : Place) (oneTimeId : OneTimeId) : (call : Call H S) → Decidable (Scanned place oneTimeId call)
  | .remove _ _ _ => inferInstanceAs (Decidable (_ ∧ _))
  | .incoming _ _ _ _ | .connect _ _ _ | .connected _ _ => inferInstanceAs (Decidable False)

/-- When `handle_incoming` puts an entry into a map, no call that closes this
entry has the map behind it. -/
def Timely (system : System H S) : Label → Prop
  | .enter task _ => ∀ target ∈ system.calls[task]?.bind Call.puts, ∀ call ∈ system.calls, ¬ Scanned target.1 target.2.2 call
  | _ => True

instance : (label : Label) → Decidable (system.Timely label)
  | .enter _ _ => inferInstanceAs (Decidable (∀ target ∈ _, ∀ call ∈ _, _))
  | .receive _ _ _ | .connect _ _ | .close _ _ | .send _ _ | .recvFrom _ | .keepalive _ | .checkHeartbeat _ =>
    inferInstanceAs (Decidable True)

/-- The maps that a closing call has behind it hold nothing that it closes. -/
def Swept (system : System H S) : Prop :=
  ∀ id oneTimeId remaining, Call.remove id oneTimeId remaining ∈ system.calls → ∀ place, place ∉ remaining →
    ∀ key, system.handler.registered place key ≠ some oneTimeId

namespace Swept

theorem fewer (swept : system.Swept)
    (entries : ∀ place key oneTimeId, next.handler.registered place key = some oneTimeId →
      system.handler.registered place key = some oneTimeId)
    (calls : ∀ id oneTimeId remaining, Call.remove id oneTimeId remaining ∈ next.calls →
      Call.remove id oneTimeId remaining ∈ system.calls) : next.Swept := by
  intro id oneTimeId remaining member place behind key found
  exact swept id oneTimeId remaining (calls _ _ _ member) place behind key (entries _ _ _ found)

private theorem mem_of_set {task : Nat} {call : Call H S} {calls : List (Call H S)}
    (other : ∀ id oneTimeId remaining, call ≠ .remove id oneTimeId remaining) {id : SessionId} {oneTimeId : OneTimeId}
    {remaining : List Place} (member : Call.remove id oneTimeId remaining ∈ calls.set task call) :
    Call.remove id oneTimeId remaining ∈ calls := by
  rcases List.mem_or_eq_of_mem_set member with old | same
  · exact old
  · exact absurd same.symm (other _ _ _)

theorem step (swept : system.Swept) (tracked : system.Tracked) (timely : system.Timely label)
    (transition : Transition snow system next label) : next.Swept := by
  cases transition with
  | tick calls issued dropped =>
    exact swept.fewer (fun _ _ _ found => of_tick dropped found) (fun _ _ _ member => calls ▸ member)
  | spawn call spawned empty closing =>
    subst spawned
    intro id oneTimeId remaining member place behind key found
    rcases List.mem_append.mp member with old | new
    · exact swept id oneTimeId remaining old place behind key found
    · obtain ⟨-, rfl⟩ := closing id oneTimeId remaining (List.mem_singleton.mp new).symm
      cases place <;> simp [Place.order] at behind
  | incoming task src packet ephemeral incoming found calls issued effect =>
    have kept : ∀ id oneTimeId remaining, Call.remove id oneTimeId remaining ∈ next.calls →
        Call.remove id oneTimeId remaining ∈ system.calls := by
      intro id oneTimeId remaining member
      rw [calls] at member
      exact mem_of_set (by simp) member
    cases effect with
    | idle same nothing nothingNext => exact swept.fewer (fun _ _ _ found => same ▸ found) kept
    | take place oneTimeId source nothing present taken outcome =>
      exact swept.fewer (fun _ _ _ found => Registry.of_clear (taken ▸ found)) kept
    | put place oneTimeId held written nothingNext =>
      intro id closing remaining member other behind key present
      rcases Registry.of_put (written ▸ present) with ⟨rfl, rfl, rfl⟩ | old
      · refine timely (other, packet.id, closing) ?_ _ (kept _ _ _ member) ⟨rfl, behind⟩
        simp [found, Call.puts, held]
      · exact swept id closing remaining (kept _ _ _ member) other behind key old
  | remove task id closing place remaining found calls issued shrunk =>
    have current := List.mem_of_getElem? found
    intro other oneTimeId rest member target behind key present
    have before := of_sweep shrunk present
    rw [calls] at member
    rcases List.mem_or_eq_of_mem_set member with old | same
    · exact swept other oneTimeId rest old target behind key before
    · cases same
      by_cases here : target = place
      · subst here
        obtain rfl : key = id :=
          tracked.same_id (tracked.entries target key closing before) (tracked.closing id closing _ current)
        rw [shrunk, if_pos before, Registry.clear_same] at present
        cases present
      · exact swept id closing (place :: remaining) current target (by simp [here, behind]) key before
  | sweep task id request place remaining found calls issued shrunk =>
    refine swept.fewer (fun _ _ _ found => Registry.of_clear (shrunk ▸ found)) ?_
    intro id oneTimeId remaining member
    rw [calls] at member
    exact mem_of_set (by simp) member
  | fail task id request found calls issued same =>
    refine swept.fewer (fun _ _ _ found => same ▸ found) ?_
    intro id oneTimeId remaining member
    rw [calls] at member
    exact mem_of_set (by simp) member
  | @insert oneTimeId task id request found fresh calls issued succeeded inserted =>
    intro other closing remaining member target behind key present
    rw [calls] at member
    have before := mem_of_set (by simp) member
    rcases Registry.of_put (inserted ▸ present) with ⟨rfl, rfl, rfl⟩ | old
    · exact fresh (List.mem_map.mpr ⟨_, tracked.closing other closing remaining before, rfl⟩)
    · exact swept other closing remaining before target behind key old

end Swept

private theorem mem_set_of_ne {calls : List (Call H S)} {task : Nat} {call before after : Call H S}
    (found : calls[task]? = some before) (different : call ≠ before) (member : call ∈ calls) :
    call ∈ calls.set task after := by
  obtain ⟨index, inside, same⟩ := List.mem_iff_getElem.mp member
  have other : task ≠ index := by
    rintro rfl
    rw [List.getElem?_eq_getElem inside, same] at found
    exact different (Option.some.inj found)
  exact List.mem_iff_getElem.mpr ⟨index, by simpa using inside, by rw [List.getElem_set_ne other, same]⟩

theorem finished_stays {id : SessionId} {oneTimeId : OneTimeId} (finished : Call.remove id oneTimeId [] ∈ system.calls)
    (transition : Transition snow system next label) : Call.remove id oneTimeId [] ∈ next.calls := by
  cases transition with
  | tick calls issued dropped => exact calls ▸ finished
  | spawn call spawned empty closing => exact spawned ▸ List.mem_append_left _ finished
  | incoming task src packet ephemeral incoming found calls => exact calls ▸ mem_set_of_ne found (by simp) finished
  | remove task id closing place remaining found calls => exact calls ▸ mem_set_of_ne found (by simp) finished
  | sweep task id request place remaining found calls => exact calls ▸ mem_set_of_ne found (by simp) finished
  | fail task id request found calls => exact calls ▸ mem_set_of_ne found (by simp) finished
  | insert task id request found fresh calls => exact calls ▸ mem_set_of_ne found (by simp) finished

/-- In a run in which `handle_incoming` never puts an entry into a map that a call
closing it has behind it, a one-time id that was closed is in none of the maps
when the closing call has finished, and in none later on. -/
theorem close_complete (snow : Snow H S) (keypair : SnowKeypair) (labels later : List Label)
    (timely : (start keypair).Meets Timely snow (labels ++ later)) {system final : System H S}
    (reached : (start keypair).run snow labels = some system) (continued : system.run snow later = some final)
    {id : SessionId} {oneTimeId : OneTimeId} (finished : Call.remove id oneTimeId [] ∈ system.calls)
    (place : Place) (key : SessionId) : final.handler.registered place key ≠ some oneTimeId := by
  obtain ⟨before, after⟩ := timely.after reached
  have preserves : ∀ system label next, (Tracked system ∧ Swept system) → Timely system label →
      Transition snow system next label → Tracked next ∧ Swept next := by
    rintro system label next ⟨tracked, swept⟩ timely transition
    exact ⟨tracked.step transition, swept.step tracked timely transition⟩
  have initial : Tracked (start keypair : System H S) ∧ Swept (start keypair : System H S) :=
    ⟨.start keypair, by intro id oneTimeId remaining member; cases member⟩
  have sound := before.invariant (of_transition preserves) initial reached
  have swept := (after.invariant (of_transition preserves) sound continued).2
  have stays := after.invariant (of_transition fun _ _ _ finished _ transition => finished_stays finished transition) finished
    continued
  exact swept id oneTimeId [] stays place (by simp) key

/-- `respond` registers a poker under id 7 with one-time id 40, and a call takes it
out of its map to handle a poke. -/
def pokeHandled : List Label :=
  [.connect 7 (.respond ⟨[], [9]⟩), .enter 0 40, .enter 0 40, .enter 0 40, .enter 0 40, .enter 0 40,
    .receive (.v4 1 1) (Handler.packetFor 7 .handshakePoke) 0, .enter 1 0]

/-- The entry comes back after the closing call has looked everywhere. -/
theorem close_incomplete :
    ∃ system, (start ⟨[1], [2]⟩).run Handler.fixedSnow
        (pokeHandled ++ [.close 7 40, .enter 2 0, .enter 2 0, .enter 2 0, .enter 2 0, .enter 1 0]) = some system ∧
      (∀ call ∈ system.calls, call.isFinished = true) ∧ Call.remove 7 40 [] ∈ system.calls ∧
      system.handler.registered .poker 7 = some 40 := by
  refine ⟨_, rfl, ?_, ?_, ?_⟩
  · decide
  · exact List.mem_iff_getElem?.mpr ⟨2, rfl⟩
  · decide

/-- The entry comes back while the closing call has not reached its map. -/
theorem close_complete_after_poke :
    ∃ system, (start ⟨[1], [2]⟩).run Handler.fixedSnow
        (pokeHandled ++ [.close 7 40, .enter 2 0, .enter 1 0, .enter 2 0, .enter 2 0, .enter 2 0]) = some system ∧
      ∀ place key, system.handler.registered place key ≠ some 40 := by
  refine ⟨_, rfl, ?_⟩
  exact close_complete Handler.fixedSnow ⟨[1], [2]⟩
    (pokeHandled ++ [.close 7 40, .enter 2 0, .enter 1 0, .enter 2 0, .enter 2 0, .enter 2 0]) [] (by decide) rfl rfl
    (List.mem_iff_getElem?.mpr ⟨2, rfl⟩)

/-- What a call is about to put, and where. -/
def putting (system : System H S) (task : Nat) : Option (Place × SessionId × OneTimeId) :=
  system.calls[task]?.bind Call.puts

/-- The entry of a connection attempt: registered, or in the hands of a call that
will put it back. -/
def Waiting (system : System H S) (place : Place) (id : SessionId) (oneTimeId : OneTimeId) : Prop :=
  system.handler.registered place id = some oneTimeId ∨ ∃ call ∈ system.calls, call.puts = some (place, id, oneTimeId)

instance (place : Place) (id : SessionId) (oneTimeId : OneTimeId) : Decidable (system.Waiting place id oneTimeId) :=
  inferInstanceAs (Decidable (_ ∨ _))

/-- The sections that may end an attempt: a handshake step on the entry that
promotes or rejects it, one that closes it, and one of another attempt under the
same id, which may insert the one-time id `issued`. -/
def EndsAttempt (snow : Snow H S) (handler : Handler H S) (place : Place) (id : SessionId)
    (oneTimeId issued : OneTimeId) : Call H S → Prop
  | .incoming src packet ephemeral incoming =>
    packet.id = id ∧ incoming.takes = some place ∧ handler.registered place id = some oneTimeId ∧
      (incoming.enter snow handler src packet ephemeral).2.puts ≠ some (place, oneTimeId)
  | .remove other closing remaining => other = id ∧ closing = oneTimeId ∧ remaining.head? = some place
  | .connect other request remaining => other = id ∧ (remaining.head? = some place ∨
      remaining = [] ∧ request.place = place ∧ (request.insert snow handler other issued).2.isOk = true)
  | .connected _ _ => False

instance (handler : Handler H S) (place : Place) (id : SessionId) (oneTimeId issued : OneTimeId) :
    (call : Call H S) → Decidable (EndsAttempt snow handler place id oneTimeId issued call)
  | .incoming _ _ _ _ => inferInstanceAs (Decidable (_ ∧ _))
  | .remove _ _ _ => inferInstanceAs (Decidable (_ ∧ _))
  | .connect _ _ _ => inferInstanceAs (Decidable (_ ∧ _))
  | .connected _ _ => inferInstanceAs (Decidable False)

def Ends (snow : Snow H S) (place : Place) (id : SessionId) (oneTimeId : OneTimeId) (system : System H S) : Label → Prop
  | .enter task issued => ∃ call ∈ system.calls[task]?, EndsAttempt snow system.handler place id oneTimeId issued call
  | _ => False

instance (place : Place) (id : SessionId) (oneTimeId : OneTimeId) :
    (label : Label) → Decidable (Ends snow place id oneTimeId system label)
  | .enter _ _ => inferInstanceAs (Decidable (∃ call ∈ _, _))
  | .receive _ _ _ | .connect _ _ | .close _ _ | .send _ _ | .recvFrom _ | .keepalive _ | .checkHeartbeat _ =>
    inferInstanceAs (Decidable False)

def inserts : Call H S → Option (Place × SessionId)
  | .connect id request [] => some (request.place, id)
  | _ => none

/-- When an attempt inserts its entry, no call is about to put an entry back in
the same place. -/
def Clear (system : System H S) : Label → Prop
  | .enter task _ => ∀ target ∈ system.calls[task]?.bind inserts, ∀ call ∈ system.calls,
      call.puts.map (fun held => (held.1, held.2.1)) ≠ some target
  | _ => True

instance : (label : Label) → Decidable (system.Clear label)
  | .enter _ _ => inferInstanceAs (Decidable (∀ target ∈ _, ∀ call ∈ _, _))
  | .receive _ _ _ | .connect _ _ | .close _ _ | .send _ _ | .recvFrom _ | .keepalive _ | .checkHeartbeat _ =>
    inferInstanceAs (Decidable True)

/-- A call that is about to put an entry back finds its place vacant, and is the
only one to put something there. -/
structure Alone (system : System H S) : Prop where
  vacant : ∀ task place id oneTimeId, place.isFirst = true → system.putting task = some (place, id, oneTimeId) →
    system.handler.registered place id = none
  single : ∀ first second place id one two, place.isFirst = true → system.putting first = some (place, id, one) →
    system.putting second = some (place, id, two) → first = second

theorem putting_set {task other : Nat} {call : Call H S} (calls : next.calls = system.calls.set task call)
    (different : other ≠ task) : next.putting other = system.putting other := by
  simp [putting, calls, Ne.symm different]

theorem putting_set_self {task : Nat} {before call : Call H S} (found : system.calls[task]? = some before)
    (calls : next.calls = system.calls.set task call) : next.putting task = call.puts := by
  have inside := (List.getElem?_eq_some_iff.mp found).1
  simp [putting, calls, inside]

theorem putting_spawn (call : Call H S) (empty : call.puts = none) (task : Nat) :
    (system.spawn call).putting task = system.putting task := by
  simp only [putting, spawn]
  by_cases inside : task < system.calls.length
  · rw [List.getElem?_append_left inside]
  · rw [List.getElem?_append_right (Nat.not_lt.mp inside), List.getElem?_eq_none (Nat.not_lt.mp inside)]
    cases task - system.calls.length with
    | zero => simp [empty]
    | succ index => simp

theorem putting_of_set {task : Nat} {before call : Call H S} (found : system.calls[task]? = some before)
    (calls : next.calls = system.calls.set task call) (empty : call.puts = none) (other : Nat)
    (held : Place × SessionId × OneTimeId) (holds : next.putting other = some held) :
    other ≠ task ∧ system.putting other = some held := by
  have different : other ≠ task := by
    rintro rfl
    rw [putting_set_self found calls, empty] at holds
    cases holds
  exact ⟨different, putting_set calls different ▸ holds⟩

theorem putting_kept {task other : Nat} {before call : Call H S} {held : Place × SessionId × OneTimeId}
    (found : system.calls[task]? = some before) (empty : before.puts = none)
    (calls : next.calls = system.calls.set task call) (holds : system.putting other = some held) :
    next.putting other = some held := by
  have different : other ≠ task := by
    rintro rfl
    simp [putting, found, empty] at holds
  exact (putting_set calls different).trans holds

namespace Alone

theorem fewer (alone : system.Alone) (puttings : ∀ task held, next.putting task = some held → system.putting task = some held)
    (entries : ∀ place id, system.handler.registered place id = none → next.handler.registered place id = none) :
    next.Alone := by
  refine ⟨?_, ?_⟩
  · intro task place id oneTimeId first held
    exact entries place id (alone.vacant task place id oneTimeId first (puttings task _ held))
  · intro first second place id one two isFirst held other
    exact alone.single first second place id one two isFirst (puttings first _ held) (puttings second _ other)

/-- A call that takes an entry out and will put it back is the only one to do so:
the place was occupied until now. -/
theorem take (alone : system.Alone) {task : Nat} {src : SocketAddr} {packet : SessionPacket} {ephemeral : Nat}
    {incoming after : Incoming H S} (found : system.calls[task]? = some (.incoming src packet ephemeral incoming))
    (calls : next.calls = system.calls.set task (.incoming src packet ephemeral after)) {place : Place}
    {oneTimeId : OneTimeId} (present : system.handler.registered place packet.id = some oneTimeId)
    (taken : next.handler.registered = Registry.clear system.handler.registered place packet.id)
    (outcome : after.puts = none ∨
      ∃ target, after.puts = some (target, oneTimeId) ∧ (target = place ∨ target.isFirst = false)) : next.Alone := by
  have mine : ∀ target key current, target.isFirst = true → next.putting task = some (target, key, current) →
      target = place ∧ key = packet.id := by
    intro target key current first holds
    rw [putting_set_self found calls] at holds
    rcases outcome with none | ⟨other, some, kept⟩
    · simp [Call.puts, none] at holds
    · simp only [Call.puts, some, Option.map_some, Option.some.injEq, Prod.mk.injEq] at holds
      obtain ⟨rfl, rfl, -⟩ := holds
      exact ⟨kept.resolve_right (by simp [first]), rfl⟩
  have occupied : ∀ other current, other ≠ task → place.isFirst = true →
      next.putting other ≠ some (place, packet.id, current) := by
    intro other current different first holds
    rw [putting_set calls different] at holds
    rw [alone.vacant other place packet.id current first holds] at present
    cases present
  refine ⟨?_, ?_⟩
  · intro other target key current first holds
    by_cases same : other = task
    · obtain ⟨rfl, rfl⟩ := mine target key current first (same ▸ holds)
      rw [taken, Registry.clear_same]
    · rw [putting_set calls same] at holds
      exact taken ▸ Registry.clear_of_none (alone.vacant other target key current first holds)
  · intro one two target key first second isFirst holds alsoHolds
    by_cases sameOne : one = task
    · obtain ⟨rfl, rfl⟩ := mine target key first isFirst (sameOne ▸ holds)
      by_contra different
      exact occupied two second (fun same => different (sameOne.trans same.symm)) isFirst alsoHolds
    · by_cases sameTwo : two = task
      · obtain ⟨rfl, rfl⟩ := mine target key second isFirst (sameTwo ▸ alsoHolds)
        exact absurd holds (occupied one first sameOne isFirst)
      · rw [putting_set calls sameOne] at holds
        rw [putting_set calls sameTwo] at alsoHolds
        exact alone.single one two target key first second isFirst holds alsoHolds

theorem step (alone : system.Alone) (clear : system.Clear label) (transition : Transition snow system next label) :
    next.Alone := by
  cases transition with
  | tick calls issued dropped =>
    refine alone.fewer (fun task held same => by simpa only [putting, calls] using same) ?_
    intro place id none
    rcases dropped with same | ⟨other, cleared⟩
    · exact same ▸ none
    · exact cleared ▸ Registry.clear_of_none none
  | spawn call spawned empty closing =>
    subst spawned
    exact alone.fewer (fun task held same => putting_spawn call empty task ▸ same) (fun _ _ none => none)
  | incoming task src packet ephemeral incoming found calls issued effect =>
    cases effect with
    | idle same nothing nothingNext =>
      exact alone.fewer (fun other held holds => (putting_of_set found calls (by simp [Call.puts, nothingNext]) other held holds).2)
        (fun _ _ none => same ▸ none)
    | take place oneTimeId source nothing present taken outcome => exact alone.take found calls present taken outcome
    | put place oneTimeId held written nothingNext =>
      have others := putting_of_set found calls (by simp [Call.puts, nothingNext])
      have mine : system.putting task = some (place, packet.id, oneTimeId) := by simp [putting, found, Call.puts, held]
      refine ⟨?_, ?_⟩
      · intro other target id current first holds
        obtain ⟨different, before⟩ := others other _ holds
        have none := alone.vacant other target id current first before
        rw [written, Registry.put_other ?_]
        · exact none
        · rintro ⟨rfl, rfl⟩
          exact different (alone.single other task target packet.id current oneTimeId first before mine)
      · intro one two target id first second isFirst holds alsoHolds
        exact alone.single one two target id first second isFirst (others one _ holds).2 (others two _ alsoHolds).2
  | remove task id closing place remaining found calls issued shrunk =>
    refine alone.fewer (fun other held holds => (putting_of_set found calls rfl other held holds).2) ?_
    intro other key none
    rw [shrunk]
    split
    · exact Registry.clear_of_none none
    · exact none
  | sweep task id request place remaining found calls issued shrunk =>
    exact alone.fewer (fun other held holds => (putting_of_set found calls rfl other held holds).2)
      (fun _ _ none => shrunk ▸ Registry.clear_of_none none)
  | fail task id request found calls issued same =>
    exact alone.fewer (fun other held holds => (putting_of_set found calls rfl other held holds).2) (fun _ _ none => same ▸ none)
  | @insert oneTimeId task id request found fresh calls issued succeeded inserted =>
    have others := putting_of_set found calls rfl
    refine ⟨?_, ?_⟩
    · intro other place key current first holds
      obtain ⟨different, before⟩ := others other _ holds
      rw [inserted, Registry.put_other ?_]
      · exact alone.vacant other place key current first before
      · rintro ⟨rfl, rfl⟩
        obtain ⟨call, member, puts⟩ := Option.bind_eq_some_iff.mp before
        refine clear (request.place, key) (by simp [found, inserts]) call (List.mem_of_getElem? member) ?_
        simp [puts]
    · intro one two place key first second isFirst holds alsoHolds
      exact alone.single one two place key first second isFirst (others one _ holds).2 (others two _ alsoHolds).2

end Alone

theorem waiting_iff {place : Place} {id : SessionId} {oneTimeId : OneTimeId} :
    system.Waiting place id oneTimeId ↔ system.handler.registered place id = some oneTimeId ∨
      ∃ task, system.putting task = some (place, id, oneTimeId) := by
  unfold Waiting putting
  constructor
  · rintro (registered | ⟨call, member, puts⟩)
    · exact .inl registered
    · obtain ⟨task, found⟩ := List.mem_iff_getElem?.mp member
      exact .inr ⟨task, by simp [found, puts]⟩
  · rintro (registered | ⟨task, holds⟩)
    · exact .inl registered
    · obtain ⟨call, found, puts⟩ := Option.bind_eq_some_iff.mp holds
      exact .inr ⟨call, List.mem_of_getElem? found, puts⟩

/-- An entry stays with its attempt through every step that does not end it. -/
theorem Waiting.step {place : Place} {id : SessionId} {oneTimeId : OneTimeId}
    (waiting : system.Waiting place id oneTimeId) (first : place.isFirst = true) (alone : system.Alone)
    (goesOn : ¬ Ends snow place id oneTimeId system label) (transition : Transition snow system next label) :
    next.Waiting place id oneTimeId := by
  rw [waiting_iff] at waiting ⊢
  cases transition with
  | tick calls issued dropped =>
    refine waiting.imp ?_ (Exists.imp fun task holds => by simpa only [putting, calls] using holds)
    intro registered
    rcases dropped with same | ⟨other, cleared⟩
    · exact same ▸ registered
    · rw [cleared, Registry.clear_other]
      · exact registered
      · rintro ⟨rfl, -⟩
        cases first
  | spawn call spawned empty closing =>
    subst spawned
    exact waiting.imp_right (Exists.imp fun task holds => (putting_spawn call empty task).trans holds)
  | incoming task src packet ephemeral incoming found calls issued effect =>
    cases effect with
    | idle same nothing nothingNext =>
      exact waiting.imp (fun registered => same ▸ registered)
        (Exists.imp fun _ holds => putting_kept found (by simp [Call.puts, nothing]) calls holds)
    | take source held origin nothing present taken outcome =>
      rcases waiting with registered | ⟨other, holds⟩
      · by_cases here : place = source ∧ id = packet.id
        · obtain ⟨rfl, rfl⟩ := here
          cases registered.symm.trans present
          have back : (incoming.enter snow system.handler src packet ephemeral).2.puts = some (place, oneTimeId) := by
            by_contra lost
            exact goesOn ⟨_, found, rfl, origin, registered, lost⟩
          exact .inr ⟨task, by simp [putting_set_self found calls, Call.puts, back]⟩
        · exact .inl (taken ▸ (Registry.clear_other here).trans registered)
      · exact .inr ⟨other, putting_kept found (by simp [Call.puts, nothing]) calls holds⟩
    | put target held holding written nothingNext =>
      have mine : system.putting task = some (target, packet.id, held) := by simp [putting, found, Call.puts, holding]
      rcases waiting with registered | ⟨other, holds⟩
      · refine .inl ?_
        rw [written, Registry.put_other]
        · exact registered
        · rintro ⟨rfl, rfl⟩
          rw [alone.vacant task place packet.id held first mine] at registered
          cases registered
      · by_cases same : other = task
        · subst same
          cases mine.symm.trans holds
          exact .inl (written ▸ Registry.put_same)
        · exact .inr ⟨other, (putting_set calls same).trans holds⟩
  | remove task other closing current remaining found calls issued shrunk =>
    refine waiting.imp ?_ (Exists.imp fun _ holds => putting_kept found rfl calls holds)
    intro registered
    rw [shrunk]
    split
    next matching =>
      rw [Registry.clear_other]
      · exact registered
      · rintro ⟨rfl, rfl⟩
        cases registered.symm.trans matching
        exact goesOn ⟨_, found, rfl, rfl, rfl⟩
    next => exact registered
  | sweep task other request current remaining found calls issued shrunk =>
    refine waiting.imp ?_ (Exists.imp fun _ holds => putting_kept found rfl calls holds)
    intro registered
    rw [shrunk, Registry.clear_other]
    · exact registered
    · rintro ⟨rfl, rfl⟩
      exact goesOn ⟨_, found, rfl, .inl rfl⟩
  | fail task other request found calls issued same =>
    exact waiting.imp (fun registered => same ▸ registered)
      (Exists.imp fun _ holds => putting_kept found rfl calls holds)
  | @insert new task other request found fresh calls issued succeeded inserted =>
    refine waiting.imp ?_ (Exists.imp fun _ holds => putting_kept found rfl calls holds)
    intro registered
    rw [inserted, Registry.put_other]
    · exact registered
    · rintro ⟨rfl, rfl⟩
      exact goesOn ⟨_, found, rfl, .inr ⟨rfl, rfl, succeeded⟩⟩

theorem place_isFirst (request : Request) : request.place.isFirst = true := by
  cases request with
  | initiate info ephemeral => rfl
  | respond info => rfl

theorem Alone.start (keypair : SnowKeypair) : (start keypair : System H S).Alone :=
  ⟨by simp [putting, System.start], by simp [putting, System.start]⟩

/-- In a run in which no attempt inserts its entry while a call is about to put
another one back in the same place, the entry stays with its attempt until a step
ends it, and no call puts an entry over another. -/
theorem attempt_kept (snow : Snow H S) (keypair : SnowKeypair) (labels later : List Label) (task : Nat)
    (oneTimeId : OneTimeId) (id : SessionId) (request : Request)
    (clear : (start keypair).Meets Clear snow (labels ++ .enter task oneTimeId :: later)) {before after final : System H S}
    (reached : (start keypair).run snow labels = some before)
    (inserting : before.calls[task]? = some (.connect id request []))
    (entered : before.step snow (.enter task oneTimeId) = some after)
    (inserted : after.calls[task]? = some (.connected id (some oneTimeId)))
    (continued : after.run snow later = some final)
    (goesOn : after.Meets (fun system label => ¬ Ends snow request.place id oneTimeId system label) snow later) :
    final.Waiting request.place id oneTimeId ∧
      ∀ call ∈ final.calls, ∀ target ∈ call.puts, target.1.isFirst = true →
        final.handler.registered target.1 target.2.1 = none := by
  obtain ⟨clearBefore, clearHere, clearLater⟩ := clear.after reached
  have aloneBefore : before.Alone := clearBefore.invariant
    (of_transition fun _ _ _ alone clear transition => alone.step clear transition) (.start keypair) reached
  have transition := step_transition entered
  have waiting : after.Waiting request.place id oneTimeId := by
    have inside := (List.getElem?_eq_some_iff.mp inserting).1
    cases transition with
    | tick calls => simp [calls, inserting] at inserted
    | spawn call spawned => simp [spawned, spawn, List.getElem?_append_left inside, inserting] at inserted
    | incoming _ _ _ _ _ found => simp [inserting] at found
    | remove _ _ _ _ _ found => simp [inserting] at found
    | sweep _ _ _ _ _ found => simp [inserting] at found
    | fail _ _ _ found calls => simp [calls, inside] at inserted
    | insert _ _ _ found _ _ _ _ registered =>
      cases inserting.symm.trans found
      exact .inl (registered ▸ Registry.put_same)
  have preserves : ∀ system label next, (Alone system ∧ system.Waiting request.place id oneTimeId) →
      (Clear system label ∧ ¬ Ends snow request.place id oneTimeId system label) → Transition snow system next label →
      Alone next ∧ next.Waiting request.place id oneTimeId := by
    rintro system label next ⟨alone, waiting⟩ ⟨clear, goesOn⟩ transition
    exact ⟨alone.step clear transition, waiting.step (place_isFirst request) alone goesOn transition⟩
  obtain ⟨alone, waiting⟩ := ((clearLater after entered).and goesOn).invariant (of_transition preserves)
    ⟨aloneBefore.step clearHere transition, waiting⟩ continued
  refine ⟨waiting, ?_⟩
  intro call member target puts first
  obtain ⟨index, found⟩ := List.mem_iff_getElem?.mp member
  exact alone.vacant index target.1 target.2.1 target.2.2 first (by simpa [putting, found] using puts)

/-- While a call handles a poke for the entry with one-time id 40, `respond` is
called again: it sweeps the maps and inserts an entry with one-time id 41. -/
def respondedAgain : List Label :=
  pokeHandled ++ [.connect 7 (.respond ⟨[], [9]⟩), .enter 2 0, .enter 2 0, .enter 2 0, .enter 2 0, .enter 2 41]

/-- The old entry is put back over the new one. -/
theorem attempt_lost :
    ∃ system next, (start ⟨[1], [2]⟩).run Handler.fixedSnow respondedAgain = some system ∧
      system.calls[2]? = some (.connected 7 (some 41)) ∧ system.Waiting .poker 7 41 ∧
      system.step Handler.fixedSnow (.enter 1 0) = some next ∧ ¬ Ends Handler.fixedSnow .poker 7 41 system (.enter 1 0) ∧
      ¬ next.Waiting .poker 7 41 ∧ next.handler.registered .poker 7 = some 40 := by
  refine ⟨_, _, rfl, rfl, ?_, rfl, ?_, ?_, ?_⟩
  · decide
  · decide
  · decide
  · decide

theorem attempt_kept_through_poke :
    ∃ final, (start ⟨[1], [2]⟩).run Handler.fixedSnow pokeHandled = some final ∧ final.Waiting .poker 7 40 := by
  refine ⟨_, rfl, ?_⟩
  exact (attempt_kept Handler.fixedSnow ⟨[1], [2]⟩
    [.connect 7 (.respond ⟨[], [9]⟩), .enter 0 40, .enter 0 40, .enter 0 40, .enter 0 40]
    [.receive (.v4 1 1) (Handler.packetFor 7 .handshakePoke) 0, .enter 1 0] 0 40 7 (.respond ⟨[], [9]⟩)
    (by decide) rfl rfl rfl rfl rfl (by decide)).1

/-- Every entry with another one-time id than `closing` stays as it is: in its
map, with its task running and its session alive. -/
structure Spares (closing : OneTimeId) (handler next : Handler H S) : Prop where
  established : ∀ id entry, handler.establishedSessions id = some entry → entry.1 ≠ closing →
    next.establishedSessions id = some entry
  responder : ∀ id entry, handler.pendingSessionsResponder id = some entry → entry.oneTimeId ≠ closing →
    next.pendingSessionsResponder id = some entry
  poker : ∀ id entry, handler.pendingSessionsPoker id = some entry → entry.oneTimeId ≠ closing →
    next.pendingSessionsPoker id = some entry
  initiator : ∀ id entry, handler.pendingSessionsInitiator id = some entry → entry.oneTimeId ≠ closing →
    next.pendingSessionsInitiator id = some entry

/-- A step of a close spares the entries and calls of everybody else, and it
changes nothing where its one-time id is in no map. -/
def Harmless (snow : Snow H S) (system : System H S) (label : Label) : Prop :=
  ∀ task fresh id closing remaining next, label = .enter task fresh →
    system.calls[task]? = some (.remove id closing remaining) → system.step snow label = some next →
    Spares closing system.handler next.handler ∧ (∀ other, other ≠ task → next.calls[other]? = system.calls[other]?) ∧
    ((∀ place key, system.handler.registered place key ≠ some closing) → next.handler = system.handler)

private theorem sweep_spares {α : Type} {current : α → OneTimeId} {map : HashMap SessionId α} {id key : SessionId}
    {closing : OneTimeId} {entry : α} (found : map key = some entry) (different : current entry ≠ closing) :
    (Handler.sweep current map id (some closing)).1 key = some entry := by
  by_cases matching : (map id).map current = some closing
  · have other : key ≠ id := by
      rintro rfl
      rw [found] at matching
      exact different (Option.some.inj matching)
    simp [Handler.sweep, matching, other, found]
  · simp [Handler.sweep, matching, found]

private theorem removeFrom_spares (handler : Handler H S) (id : SessionId) (closing : OneTimeId) (place : Place) :
    Spares closing handler (handler.removeFrom id (some closing) place) := by
  cases place with
  | established => exact ⟨fun _ _ => sweep_spares, fun _ _ found _ => found, fun _ _ found _ => found, fun _ _ found _ => found⟩
  | responder => exact ⟨fun _ _ found _ => found, fun _ _ => sweep_spares, fun _ _ found _ => found, fun _ _ found _ => found⟩
  | poker => exact ⟨fun _ _ found _ => found, fun _ _ found _ => found, fun _ _ => sweep_spares, fun _ _ found _ => found⟩
  | initiator => exact ⟨fun _ _ found _ => found, fun _ _ found _ => found, fun _ _ found _ => found, fun _ _ => sweep_spares⟩

private theorem removeFrom_absent (handler : Handler H S) (id : SessionId) (closing : OneTimeId) (place : Place)
    (absent : handler.registered place id ≠ some closing) : handler.removeFrom id (some closing) place = handler := by
  cases place with
  | established =>
    simp only [Handler.registered] at absent
    simp [Handler.removeFrom, Handler.removeEstablished, Handler.sweep, absent]
  | responder =>
    simp only [Handler.registered] at absent
    simp [Handler.removeFrom, Handler.removeResponder, Handler.sweep, absent]
  | poker =>
    simp only [Handler.registered] at absent
    simp [Handler.removeFrom, Handler.removePoker, Handler.sweep, absent]
  | initiator =>
    simp only [Handler.registered] at absent
    simp [Handler.removeFrom, Handler.removeInitiator, Handler.sweep, absent]

theorem step_harmless (snow : Snow H S) (system : System H S) (label : Label) : Harmless snow system label := by
  rintro task fresh id closing remaining next rfl found stepped
  cases remaining with
  | nil => simp [step, enter, found] at stepped
  | cons place remaining =>
    simp only [step, enter, found] at stepped
    cases stepped
    refine ⟨removeFrom_spares system.handler id closing place, ?_, ?_⟩
    · intro other different
      exact List.getElem?_set_ne (Ne.symm different)
    · intro absent
      exact removeFrom_absent system.handler id closing place (absent place id)

/-- However late a close runs and whatever runs in between, each of its steps is
harmless. -/
theorem stale_closes_harmless (snow : Snow H S) (keypair : SnowKeypair) (labels : List Label) :
    (start keypair : System H S).Meets (Harmless snow) snow labels := by
  generalize start keypair = system
  induction labels generalizing system with
  | nil => trivial
  | cons label labels ih => exact ⟨step_harmless snow system label, fun next _ => ih next⟩

end Veq.System
