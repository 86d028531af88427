import Veq.Locking

/-! No order of steps leaves a lock of an endpoint held for good. Every call takes
its locks in the order of `Lock.rank` and waits for the network, for a timer or for
a waker only while it holds none. -/

namespace Veq
open Locks

namespace Locking

theorem visit_ascends {lock : Lock} {floor : Nat} (above : floor ≤ lock.rank) :
    (visit lock).Ascends Lock.rank floor :=
  ⟨above, trivial⟩

theorem visit_first (lock : Lock) : (visit lock).Ascends Lock.rank 0 := visit_ascends (Nat.zero_le _)

namespace Session

theorem handleIncoming_ascends (session : OneTimeId) : (handleIncoming session).Ascends Lock.rank 2 :=
  ⟨trivial, Nat.le_refl 2, ⟨trivial, visit_ascends (Nat.le_refl 3)⟩, trivial, visit_ascends (Nat.le_refl 3)⟩

theorem send_ascends (session : OneTimeId) : (send session).Ascends Lock.rank 2 :=
  ⟨trivial, Nat.le_refl 2, visit_ascends (Nat.le_refl 3)⟩

theorem keepalive_ascends (session : OneTimeId) : (keepalive session).Ascends Lock.rank 0 :=
  ⟨rfl, rfl, Nat.zero_le _, visit_ascends (Nat.le_refl 3)⟩

theorem checkHeartbeat_ascends (session : OneTimeId) : (checkHeartbeat session).Ascends Lock.rank 0 :=
  ⟨rfl, rfl, trivial, visit_first _⟩

end Session

namespace Receiving

theorem await_ascends (session : OneTimeId) : (await session).Ascends Lock.rank 0 := by
  have polls : (poll session).Ascends Lock.rank 0 := ⟨trivial, visit_first _⟩
  exact ⟨⟨rfl, polls, rfl⟩, polls⟩

end Receiving

namespace SessionReady

theorem await_ascends (attempt : OneTimeId) : (await attempt).Ascends Lock.rank 0 := by
  have polls : (poll attempt).Ascends Lock.rank 0 :=
    ⟨visit_first _, trivial, visit_first _⟩
  exact ⟨⟨rfl, polls, rfl⟩, polls, visit_first _⟩

end SessionReady

namespace Handler

theorem notify_ascends (attempt : OneTimeId) : (notify attempt).Ascends Lock.rank 0 :=
  ⟨trivial, visit_first _⟩

theorem upgradeSession_ascends (attempt : OneTimeId) : (upgradeSession attempt).Ascends Lock.rank 0 :=
  ⟨visit_first _, notify_ascends attempt⟩

theorem readEstablished_ascends : readEstablished.Ascends Lock.rank 0 :=
  ⟨Nat.zero_le _, trivial, fun session => ⟨Session.handleIncoming_ascends session, Nat.le_refl _⟩⟩

theorem takeResponder_ascends : takeResponder.Ascends Lock.rank 0 := by
  refine ⟨visit_first _, ?_, readEstablished_ascends⟩
  intro attempt
  refine ⟨⟨?_, upgradeSession_ascends attempt, trivial, visit_first _⟩, Nat.le_refl _⟩
  exact ⟨trivial, ⟨trivial, visit_first _⟩, trivial, visit_first _⟩

theorem takeInitiator_ascends : takeInitiator.Ascends Lock.rank 0 := by
  refine ⟨visit_first _, ?_, takeResponder_ascends⟩
  intro attempt
  refine ⟨⟨?_, upgradeSession_ascends attempt, trivial, visit_first _⟩, Nat.le_refl _⟩
  exact ⟨trivial, visit_first _⟩

theorem takePoker_ascends : takePoker.Ascends Lock.rank 0 := by
  refine ⟨visit_first _, ?_, takeInitiator_ascends⟩
  intro attempt
  refine ⟨⟨?_, ⟨trivial, visit_first _⟩, visit_first _⟩, Nat.le_refl _⟩
  exact ⟨trivial, visit_first _⟩

theorem send_ascends : send.Ascends Lock.rank 1 :=
  ⟨Nat.le_refl 1, trivial, fun session => ⟨Session.send_ascends session, Nat.le_refl _⟩⟩

theorem removeFrom_ascends (places : List Place) : (removeFrom places).Ascends Lock.rank 0 := by
  induction places with
  | nil => trivial
  | cons place places ih => exact ⟨visit_ascends (Nat.zero_le _), ih⟩

theorem insert_ascends (place : Place) : (insert place).Ascends Lock.rank 0 :=
  ⟨trivial, visit_first _⟩

end Handler

namespace Chunker

theorem addChunk_ascends (chunker : OneTimeId) : (addChunk chunker).Ascends Lock.rank 0 := by
  have groups : (visit (.chunkGroups chunker)).Ascends Lock.rank 0 := visit_first _
  exact ⟨groups, ⟨trivial, groups, visit_first _⟩, groups⟩

theorem send_ascends (chunker : OneTimeId) (chunks : Nat) : (send chunker chunks).Ascends Lock.rank 0 := by
  refine ⟨visit_first _, Nat.zero_le _, ?_⟩
  induction chunks with
  | zero => trivial
  | succ chunks ih => exact ⟨Handler.send_ascends, trivial, ih⟩

theorem recv_ascends (chunker : OneTimeId) : (recv chunker).Ascends Lock.rank 0 := by
  refine ⟨rfl, visit_first _, trivial, visit_first _, trivial, ?_⟩
  intro session
  exact ⟨⟨Receiving.await_ascends session, trivial, addChunk_ascends chunker⟩, Nat.le_refl _⟩

end Chunker

namespace VeqSocket

theorem connect_ascends (place : Place) : (connect place).Ascends Lock.rank 0 := by
  refine ⟨Handler.removeFrom_ascends Place.order, Handler.insert_ascends place, trivial, ?_⟩
  intro attempt
  exact ⟨⟨SessionReady.await_ascends attempt, visit_first _⟩, Nat.le_refl _⟩

theorem receive_ascends : receive.Ascends Lock.rank 0 :=
  ⟨rfl, rfl, trivial, trivial, Handler.takePoker_ascends⟩

end VeqSocket
end Locking

theorem Job.ascends (job : Job) : job.program.Ascends Lock.rank 0 := by
  cases job with
  | receive => exact Locking.VeqSocket.receive_ascends
  | handleIncoming => exact ⟨trivial, Locking.Handler.takePoker_ascends⟩
  | connect request => exact Locking.VeqSocket.connect_ascends request.place
  | dropReady attempt => exact Locking.visit_first _
  | removeSession => exact Locking.Handler.removeFrom_ascends Place.order
  | send chunker chunks => exact Locking.Chunker.send_ascends chunker chunks
  | recv chunker => exact Locking.Chunker.recv_ascends chunker
  | keepalive session => exact Locking.Session.keepalive_ascends session
  | checkHeartbeat session => exact Locking.Session.checkHeartbeat_ascends session

theorem Lock.rank_le_blocking {lock : Lock} (blocking : lock.isBlocking = true) (other : Lock) :
    other.rank ≤ lock.rank := by
  have top : lock.rank = 3 := by
    cases lock with
    | waker place attempt => rfl
    | readyWakers attempt => rfl
    | completed attempt => rfl
    | wakers session => rfl
    | _ => cases blocking
  rw [top]
  unfold Lock.rank
  split <;> decide

namespace Endpoint

variable {threads : Threads OneTimeId Lock} {events : List Event}

theorem run_valid (reached : Endpoint.run [] events = some threads) : Threads.Valid Lock.rank threads := by
  refine Threads.Valid.run ⟨fun _ member => absurd member List.not_mem_nil, List.nodup_nil⟩ ?_ reached
  intro label member
  obtain ⟨event, -, rfl⟩ := List.mem_map.mp member
  cases event with
  | spawn job => exact job.ascends
  | advance task choice => trivial
  | cancel task => trivial

/-- Whatever calls run on an endpoint, in whatever order of steps and with whatever
of them dropped on the way: no two of them hold one lock, a call that waits holds
none, and nothing stops a call inside a lock of `std::sync`. The calls that hold a
lock can go on, in any order, until all locks are free. -/
theorem no_deadlock (events : List Event) (threads : Threads OneTimeId Lock)
    (reached : Endpoint.run [] events = some threads) :
    (threads.flatMap Thread.held).Nodup ∧
      (∀ rest, .run .wait :: rest ∈ threads → Thread.held rest = []) ∧
      (∀ task thread, threads[task]? = some thread → ∀ lock ∈ thread.held, lock.isBlocking = true →
        ∀ choice, (threads.advance task choice).isSome) ∧
      ∀ moves later, threads.drains moves = some later →
        moves.length + later.pending ≤ threads.pending ∧
          ((∀ move, later.drain move = none) → ∀ lock, later.isFree lock = true) := by
  have valid := run_valid reached
  refine ⟨valid.exclusive, fun rest member => valid.waiting member, ?_, ?_⟩
  · intro task thread found lock holds blocking choice
    exact valid.highest found holds (Lock.rank_le_blocking blocking) choice
  · intro moves later drained
    obtain ⟨bound, settled⟩ := Threads.drains_settle valid drained
    refine ⟨bound, ?_⟩
    intro stuck lock
    have none := settled stuck
    rw [Threads.isFree_iff, List.mem_flatMap]
    rintro ⟨thread, member, holds⟩
    rw [none thread member] at holds
    cases holds

/-- A `send` that holds three locks, and the keepalive task of its session, which
waits for one of them. -/
def contended : List Event :=
  [.spawn (.send 1 2), .spawn (.keepalive 1)] ++ List.replicate 11 (.advance 0 ⟨false, 1⟩) ++
    List.replicate 3 (.advance 1 ⟨true, 1⟩)

theorem no_deadlock_contended :
    ∃ threads, Endpoint.run [] contended = some threads ∧
      threads.map Thread.held = [[.transport 1, .sessions .established, .currentGroup 1], []] ∧
      (threads.advance 1 ⟨true, 1⟩).isNone ∧
      ∀ moves later, threads.drains moves = some later →
        moves.length + later.pending ≤ threads.pending ∧
          ((∀ move, later.drain move = none) → ∀ lock, later.isFree lock = true) :=
  ⟨_, rfl, by decide, by decide, (no_deadlock contended _ rfl).2.2.2⟩

end Endpoint

section

variable {H S : Type} {snow : Snow H S}

namespace Locking

theorem visit_reaches {lock : Lock} {rest next : Thread OneTimeId Lock} (quiet : Thread.held rest = [])
    (later : Thread.Reaches rest next) : Thread.Reaches (.run (visit lock) :: rest) next :=
  .hold quiet (.skip (.release later))

end Locking

/-- A critical section of the model is a run of moves of the same call. -/
theorem Incoming.enter_reaches (handler : Handler H S) (src : SocketAddr) (packet : SessionPacket) (ephemeral : Nat)
    (next : Incoming H S) :
    next.thread.Reaches (next.enter snow handler src packet ephemeral).2.thread := by
  cases next with
  | takePoker =>
    refine .seq (Locking.visit_reaches rfl ?_)
    simp only [Incoming.enter]
    split
    · exact .right .done
    next entry _ =>
      refine .left (.pick entry.oneTimeId (.seq (.left (.skip ?_))))
      split
      · exact .left (.right .done)
      · exact .right .done
      · exact .left (.left (.skip .done))
  | takeInitiator =>
    refine .seq (Locking.visit_reaches rfl ?_)
    simp only [Incoming.enter]
    split
    · exact .right .done
    next entry _ =>
      refine .left (.pick entry.oneTimeId (.seq (.left (.skip ?_))))
      split
      · exact .left .done
      · exact .right (.right .done)
      · exact .right (.left (.skip .done))
  | takeResponder =>
    refine .seq (Locking.visit_reaches rfl ?_)
    simp only [Incoming.enter]
    split
    · exact .right .done
    next entry _ =>
      refine .left (.pick entry.oneTimeId (.seq (.left (.skip ?_))))
      split
      · exact .left .done
      · exact .right (.right .done)
      · exact .right (.left (.skip .done))
  | readEstablished =>
    have finished : (Incoming.readEstablished.enter snow handler src packet ephemeral).2 = .finished := by
      simp only [Incoming.enter]
      split <;> rfl
    rw [finished]
    exact .hold rfl (.left (.skip (.release .done)))
  | putPoker entry => exact Locking.visit_reaches rfl .done
  | putInitiator entry => exact Locking.visit_reaches rfl .done
  | putResponder entry => exact Locking.visit_reaches rfl .done
  | putEstablished oneTimeId session => exact .seq (Locking.visit_reaches rfl .done)
  | notify oneTimeId =>
    simp only [Incoming.enter]
    split
    · exact .right .done
    · exact .left (.skip .done)
  | wake oneTimeId => exact Locking.visit_reaches rfl .done
  | finished => exact .done

theorem Call.thread_held (call : Call H S) : call.thread.held = [] := by
  cases call with
  | incoming src packet ephemeral next => cases next <;> rfl
  | remove id oneTimeId remaining => rfl
  | connect id request remaining => rfl
  | connected id oneTimeId => rfl

namespace Endpoint

theorem run_append {threads middle : Threads OneTimeId Lock} {first second : List Event}
    (reached : Endpoint.run threads first = some middle) :
    Endpoint.run threads (first ++ second) = Endpoint.run middle second := by
  unfold Endpoint.run at reached ⊢
  rw [List.map_append]
  exact Runs.run_append reached

theorem run_moves {calls : List (Call H S)} {task : Nat} {call next : Call H S} (found : calls[task]? = some call)
    (reaches : call.thread.Reaches next.thread) :
    ∃ events, Endpoint.run (calls.map Call.thread) events = some ((calls.set task next).map Call.thread) := by
  obtain ⟨inside, same⟩ := List.getElem?_eq_some_iff.mp found
  obtain ⟨before, later, split, rfl, placed⟩ : ∃ before later, calls = before ++ calls[task] :: later ∧
      before.length = task ∧ calls.set task next = before ++ next :: later := List.exists_of_set inside
  rw [same] at split
  have quiet : ∀ other ∈ before.map Call.thread ++ later.map Call.thread, other.held = [] := by
    intro other member
    rw [← List.map_append] at member
    obtain ⟨call, -, rfl⟩ := List.mem_map.mp member
    exact call.thread_held
  obtain ⟨choices, reached⟩ := Threads.run_reaches quiet reaches
  refine ⟨choices.map (Event.advance before.length), ?_⟩
  rw [placed, split, List.map_append, List.map_append, List.map_cons, List.map_cons]
  unfold Endpoint.run
  rw [List.length_map] at reached
  rw [List.map_map]
  exact reached

theorem run_spawn {calls : List (Call H S)} (job : Job) {call : Call H S}
    (reaches : Thread.Reaches [.run job.program] call.thread) :
    ∃ events, Endpoint.run (calls.map Call.thread) events = some ((calls ++ [call]).map Call.thread) := by
  have quiet : ∀ other ∈ calls.map Call.thread ++ [], other.held = [] := by
    intro other member
    rw [List.append_nil] at member
    obtain ⟨call, -, rfl⟩ := List.mem_map.mp member
    exact call.thread_held
  obtain ⟨choices, reached⟩ := Threads.run_reaches quiet reaches
  have spawned : Endpoint.run (calls.map Call.thread) [.spawn job] = some (calls.map Call.thread ++ [[.run job.program]]) :=
    rfl
  refine ⟨[.spawn job] ++ choices.map (Event.advance (calls.map Call.thread).length), ?_⟩
  rw [run_append spawned, Endpoint.run, List.map_map, List.map_append]
  exact reached

end Endpoint

namespace System

variable {system next : System H S} {keypair : SnowKeypair}

theorem step_realised {label : Label} (stepped : system.step snow label = some next) :
    ∃ events, Endpoint.run (system.calls.map Call.thread) events = some (next.calls.map Call.thread) := by
  have still : next.calls = system.calls →
      ∃ events, Endpoint.run (system.calls.map Call.thread) events = some (next.calls.map Call.thread) := by
    intro same
    exact ⟨[], same ▸ rfl⟩
  cases label with
  | receive src data ephemeral =>
    simp only [step] at stepped
    split at stepped
    · cases stepped
      exact still rfl
    · cases stepped
      exact Endpoint.run_spawn .handleIncoming (.right .done)
  | connect id request =>
    cases stepped
    exact Endpoint.run_spawn (.connect request) (.seq .done)
  | close id oneTimeId =>
    simp only [step] at stepped
    split at stepped
    · cases stepped
      exact Endpoint.run_spawn .removeSession .done
    · cases stepped
  | enter task oneTimeId =>
    simp only [step, System.enter] at stepped
    split at stepped
    next => cases stepped
    next src packet ephemeral incoming found =>
      cases stepped
      exact Endpoint.run_moves found (incoming.enter_reaches system.handler src packet ephemeral)
    next id closing place remaining found =>
      cases stepped
      exact Endpoint.run_moves found (.seq (Locking.visit_reaches rfl .done))
    next id request place remaining found =>
      cases stepped
      exact Endpoint.run_moves found (.seq (Locking.visit_reaches rfl .done))
    next id request found =>
      split at stepped
      · cases stepped
      · split at stepped
        · cases stepped
          exact Endpoint.run_moves found (.skip (.seq (.left (.skip .done))))
        · cases stepped
          exact Endpoint.run_moves found (.skip (.seq (.right (Locking.visit_reaches rfl .done))))
    next => cases stepped
    next => cases stepped
  | send id data =>
    cases stepped
    exact still rfl
  | recvFrom id =>
    cases stepped
    exact still rfl
  | keepalive id =>
    cases stepped
    exact still rfl
  | checkHeartbeat id =>
    cases stepped
    exact still rfl

/-- Whatever the calls of the model come to, section by section, they can come to
lock by lock. -/
theorem run_realised {labels : List Label} (reached : System.run snow (.start keypair) labels = some system) :
    ∃ events, Endpoint.run [] events = some (system.calls.map Call.thread) := by
  suffices general : ∀ (labels : List Label) (first : System H S), System.run snow first labels = some system →
      ∃ events, Endpoint.run (first.calls.map Call.thread) events = some (system.calls.map Call.thread) from
    general labels _ reached
  intro labels
  induction labels with
  | nil =>
    intro first done
    cases done
    exact ⟨[], rfl⟩
  | cons label labels ih =>
    intro first ran
    obtain ⟨middle, stepped, rest⟩ := Runs.run_cons ran
    obtain ⟨early, one⟩ := step_realised stepped
    obtain ⟨late, two⟩ := ih middle rest
    exact ⟨early ++ late, (Endpoint.run_append one).trans two⟩

end System
end
end Veq
