import Veq.Proofs.Assembly
import Veq.Runs
import Mathlib.Data.Finset.Card
import Mathlib.Data.Finset.Dedup

/-! What a receiving chunker makes of chunks that nobody vouches for: indices may
repeat, exceed their group, or contradict the group length that came first. -/

namespace Veq.PeerInput
open Rust Bincode Assembly

/-- The chunk that was added last under an index. -/
def lastAdded (added : List ChunkedData) (index : Nat) : Option ChunkedData :=
  (added.filter fun chunk => chunk.index == index).getLast?

theorem lastAdded_append (added : List ChunkedData) (chunk : ChunkedData) (index : Nat) :
    lastAdded (added ++ [chunk]) index = if chunk.index = index then some chunk else lastAdded added index := by
  rw [lastAdded, List.filter_append]
  split
  next same => simp [same]
  next different => simp [lastAdded, different]

theorem lastAdded_isSome (added : List ChunkedData) (index : Nat) :
    (lastAdded added index).isSome = true ↔ index ∈ added.map ChunkedData.index := by
  rw [lastAdded, List.getLast?_isSome]
  simp [List.filter_eq_nil_iff]

def slotsAfter (groupLength : Nat) (added : List ChunkedData) : List (Option ChunkedData) :=
  (List.range groupLength).map (lastAdded added)

private theorem slotsAfter_append {groupLength : Nat} {added : List ChunkedData} {chunk : ChunkedData} :
    slotsAfter groupLength (added ++ [chunk]) = (slotsAfter groupLength added).set chunk.index (some chunk) := by
  apply List.ext_getElem
  · simp [slotsAfter]
  · intro index first second
    rw [List.getElem_set]
    simp only [slotsAfter, List.getElem_map, List.getElem_range, lastAdded_append]

/-- Every chunk that is added is counted, also where it replaces another. -/
theorem addChunks_eq (groupLength : Nat) (added : List ChunkedData)
    (inside : ∀ chunk ∈ added, chunk.index < groupLength) :
    added.foldlM ChunkGroup.addChunk (ChunkGroup.empty groupLength) =
      .ok ⟨slotsAfter groupLength added, added.length, groupLength⟩ := by
  induction added using List.reverseRecOn with
  | nil =>
    have empty : lastAdded [] = fun _ => none := rfl
    simp [ChunkGroup.empty, slotsAfter, empty, pure, Except.pure]
  | append_singleton added chunk ih =>
    have before := ih (fun other member => inside other (by simp [member]))
    have within : chunk.index < (slotsAfter groupLength added).length := by
      simpa [slotsAfter] using inside chunk (by simp)
    rw [List.foldlM_append, before]
    simp only [List.foldlM_cons, List.foldlM_nil, bind, Except.bind, pure, Except.pure]
    rw [addChunk_inside within]
    simp [slotsAfter_append]

/-- As many slots are filled as there are different indices. -/
theorem filled_slots {groupLength : Nat} {added : List ChunkedData}
    (inside : ∀ chunk ∈ added, chunk.index < groupLength) :
    (slotsAfter groupLength added).countP Option.isSome = (added.map ChunkedData.index).dedup.length := by
  let filled := (List.range groupLength).filter fun index => (lastAdded added index).isSome
  have indices : filled.toFinset = (added.map ChunkedData.index).toFinset := by
    ext index
    simp only [filled, List.mem_toFinset, List.mem_filter, List.mem_range, lastAdded_isSome, and_iff_right_iff_imp]
    intro member
    obtain ⟨chunk, present, rfl⟩ := List.mem_map.mp member
    exact inside chunk present
  have distinct : filled.Nodup := List.nodup_range.filter _
  rw [slotsAfter, List.countP_map, List.countP_eq_length_filter, ← List.card_toFinset, ← indices,
    List.toFinset_card_of_nodup distinct]
  rfl

/-- A new group after these chunks were added to it. -/
def groupOf (groupLength : Nat) (added : List ChunkedData) : Except Panic ChunkGroup := do
  let group ← ChunkGroup.new groupLength
  added.foldlM ChunkGroup.addChunk group

/-- What a group is meant to record of the chunks that were added to it. -/
structure Records (groupLength : Nat) (added : List ChunkedData) (group : ChunkGroup) : Prop where
  length : group.chunks.length = groupLength
  slots : ∀ index < groupLength, group.chunks[index]? = some (lastAdded added index)
  size : group.size = group.chunks.countP Option.isSome
  complete : group.isComplete = true ↔ ∀ slot ∈ group.chunks, slot.isSome = true
  collects : group.isComplete = true → group.collect =
    .ok ((List.range groupLength).flatMap fun index => ((lastAdded added index).map ChunkedData.data).getD [])

private theorem collect_filled (slots : List (Option ChunkedData)) (output : Bytes)
    (filled : ∀ slot ∈ slots, slot.isSome = true) :
    slots.foldlM ChunkGroup.extend output =
      .ok (output ++ slots.flatMap fun slot => (slot.map ChunkedData.data).getD []) := by
  induction slots generalizing output with
  | nil => simp [pure, Except.pure]
  | cons slot slots ih =>
    obtain ⟨chunk, rfl⟩ := Option.isSome_iff_exists.mp (filled slot (by simp))
    rw [List.foldlM_cons, ChunkGroup.extend]
    simpa [bind, Except.bind] using ih (output ++ chunk.data) (fun other member => filled other (by simp [member]))

theorem new_ok {groupLength : Nat} {group : ChunkGroup} :
    ChunkGroup.new groupLength = .ok group ↔ groupLength ≤ ChunkGroup.maxSlots ∧ group = .empty groupLength := by
  unfold ChunkGroup.new
  split
  next few => simp [few, eq_comm]
  next many => simp [many]

/-- A new group records the chunks that were added to it exactly when there is room
for its slots and no index was added twice. -/
theorem group_records_iff (groupLength : Nat) (added : List ChunkedData)
    (inside : ∀ chunk ∈ added, chunk.index < groupLength) :
    (∃ group, groupOf groupLength added = .ok group ∧
      Records groupLength added group) ↔
    groupLength ≤ ChunkGroup.maxSlots ∧ (added.map ChunkedData.index).Nodup := by
  have count := filled_slots inside
  constructor
  · rintro ⟨group, same, records⟩
    obtain ⟨empty, made, same⟩ := bind_ok.mp same
    obtain ⟨few, rfl⟩ := new_ok.mp made
    cases (addChunks_eq groupLength added inside).symm.trans same
    have counted : added.length = (added.map ChunkedData.index).dedup.length := records.size.trans count
    have whole := (List.dedup_sublist (added.map ChunkedData.index)).eq_of_length (by simp [← counted])
    exact ⟨few, List.dedup_eq_self.mp whole⟩
  · rintro ⟨few, distinct⟩
    have size : added.length = (slotsAfter groupLength added).countP Option.isSome := by
      rw [count, distinct.dedup, List.length_map]
    have length : (slotsAfter groupLength added).length = groupLength := by simp [slotsAfter]
    have complete : (ChunkGroup.mk (slotsAfter groupLength added) added.length groupLength).isComplete = true ↔
        ∀ slot ∈ slotsAfter groupLength added, slot.isSome = true := by
      rw [← List.countP_eq_length, ← size, length]
      simp [ChunkGroup.isComplete]
    refine ⟨_, bind_ok.mpr ⟨_, new_ok.mpr ⟨few, rfl⟩, addChunks_eq groupLength added inside⟩, length, ?_, size,
      complete, ?_⟩
    · intro index within
      simp [slotsAfter, within]
    · intro finished
      rw [ChunkGroup.collect, collect_filled _ _ (complete.mp finished), List.nil_append]
      simp [slotsAfter, List.flatMap_map]

theorem group_records_backwards :
    ∃ group, groupOf 2 [⟨7, 1, 2, [3, 4]⟩, ⟨7, 0, 2, [1, 2]⟩] = .ok group ∧
      Records 2 [⟨7, 1, 2, [3, 4]⟩, ⟨7, 0, 2, [1, 2]⟩] group :=
  (group_records_iff 2 _ (by decide)).mpr (by decide)

/-- A datagram that is delivered twice makes a group of two look complete, and a
group that is too long for a vector of slots is not made at all. -/
theorem delivered_twice :
    (∀ chunk ∈ [ChunkedData.mk 7 0 2 [1, 2], ⟨7, 0, 2, [1, 2]⟩], chunk.index < 2) ∧
    (∃ group, groupOf 2 [⟨7, 0, 2, [1, 2]⟩, ⟨7, 0, 2, [1, 2]⟩] = .ok group ∧
      ¬ Records 2 [⟨7, 0, 2, [1, 2]⟩, ⟨7, 0, 2, [1, 2]⟩] group ∧
      group.isComplete = true ∧ group.collect = .error .unwrap) ∧
    ChunkGroup.new (2 ^ 64 - 1) = .error .capacity := by
  refine ⟨by decide, ⟨⟨[some ⟨7, 0, 2, [1, 2]⟩, none], 2, 2⟩, rfl, ?_, rfl, rfl⟩, rfl⟩
  intro records
  exact absurd records.size (by decide)

section

variable {T : Type}

/-- An arrival decodes, finds a group or one that can be made, and in it a slot, and
does not bring the counter to the length of the group while another slot is empty. -/
def Harmless (groups : Std.TreeMap Nat ChunkGroup) (bytes : Bytes) : Prop :=
  ∃ chunk group, ChunkedData.codec.deserialize bytes = some chunk ∧ Chunker.groupFor groups chunk = .ok group ∧
    chunk.index < group.chunks.length ∧
    (group.size + 1 = group.groupLength → none ∉ group.chunks.eraseIdx chunk.index)

/-- What an arrival makes of the groups, unless it panics. -/
def arrival (groups : Std.TreeMap Nat ChunkGroup) (bytes : Bytes) : Option (Std.TreeMap Nat ChunkGroup) :=
  ((Chunker.mk () 0 0 groups []).receive bytes).toOption.map Chunker.chunkGroups

private theorem extend_iff (slots : List (Option ChunkedData)) (output : Bytes) :
    (∃ result, slots.foldlM ChunkGroup.extend output = .ok result) ↔ none ∉ slots := by
  induction slots generalizing output with
  | nil => simp [pure, Except.pure]
  | cons slot slots ih =>
    cases slot with
    | none => simp [List.foldlM_cons, ChunkGroup.extend, bind, Except.bind]
    | some chunk => simpa [List.foldlM_cons, ChunkGroup.extend, bind, Except.bind] using ih (output ++ chunk.data)

private theorem none_mem_set (slots : List (Option ChunkedData)) {index : Nat} (inside : index < slots.length)
    (chunk : ChunkedData) : none ∈ slots.set index (some chunk) ↔ none ∈ slots.eraseIdx index := by
  rw [List.set_eq_take_append_cons_drop, if_pos inside, List.eraseIdx_eq_take_drop_succ]
  simp

theorem receive_eq (chunker : Chunker T) {bytes : Bytes} {chunk : ChunkedData}
    (decoded : ChunkedData.codec.deserialize bytes = some chunk) {current group : ChunkGroup}
    (present : Chunker.groupFor chunker.chunkGroups chunk = .ok current) (added : current.addChunk chunk = .ok group) :
    chunker.receive bytes = if group.isComplete then do
        let message ← group.collect
        return { chunker with
          chunkGroups := (chunker.chunkGroups.insert chunk.group group).erase chunk.group
          completedChunks := chunker.completedChunks ++ [message] }.cleanUp
      else .ok { chunker with chunkGroups := chunker.chunkGroups.insert chunk.group group }.cleanUp := by
  simp only [Chunker.receive, decoded, Chunker.addChunk, Chunker.insertChunk, Chunker.removeGroup, Chunker.pushCompleted,
    present, added, bind, Except.bind, pure, Except.pure, Std.TreeMap.getElem?_insert_self]
  cases group.isComplete with
  | false => rfl
  | true =>
    cases group.collect with
    | error panic => rfl
    | ok message => rfl

/-- The groups that are left by the clean-up at the end of `add_chunk`. -/
def remaining (groups : Std.TreeMap Nat ChunkGroup) : Std.TreeMap Nat ChunkGroup :=
  if groups.size > 10 then popFirst groups else groups

private theorem cleanUp_eq (chunker : Chunker T) :
    chunker.cleanUp = { chunker with chunkGroups := remaining chunker.chunkGroups } := by
  unfold Chunker.cleanUp remaining
  split
  · rfl
  · rfl

theorem receive_harmless {groups : Std.TreeMap Nat ChunkGroup} {bytes : Bytes} (harmless : Harmless groups bytes) :
    ∃ after more, more.length ≤ 1 ∧ ∀ {T : Type} (chunker : Chunker T), chunker.chunkGroups = groups →
      chunker.receive bytes = .ok { chunker with
        chunkGroups := after
        completedChunks := chunker.completedChunks ++ more } := by
  obtain ⟨chunk, current, decoded, present, inside, others⟩ := harmless
  let group : ChunkGroup := ⟨current.chunks.set chunk.index (some chunk), current.size + 1, current.groupLength⟩
  have added : current.addChunk chunk = .ok group := addChunk_inside inside
  cases complete : group.isComplete with
  | false =>
    refine ⟨remaining (groups.insert chunk.group group), [], by simp, ?_⟩
    rintro T chunker rfl
    rw [receive_eq chunker decoded present added, complete, cleanUp_eq]
    simp only [Bool.false_eq_true, ↓reduceIte, List.append_nil]
  | true =>
    have reached : current.size + 1 = current.groupLength := by
      simpa [group, ChunkGroup.isComplete] using complete
    have filled : none ∉ group.chunks := fun empty => others reached ((none_mem_set _ inside chunk).mp empty)
    obtain ⟨message, collected⟩ := (extend_iff group.chunks []).mpr filled
    refine ⟨remaining ((groups.insert chunk.group group).erase chunk.group), [message], by simp, ?_⟩
    rintro T chunker rfl
    rw [receive_eq chunker decoded present added, complete, ChunkGroup.collect, collected]
    simp only [↓reduceIte, bind, Except.bind, pure, Except.pure, cleanUp_eq]

theorem receive_harmful {chunker : Chunker T} {bytes : Bytes} (harmful : ¬ Harmless chunker.chunkGroups bytes) :
    ∃ panic, chunker.receive bytes = .error panic := by
  cases decoded : ChunkedData.codec.deserialize bytes with
  | none => exact ⟨.unwrap, by simp [Chunker.receive, decoded]⟩
  | some chunk =>
    cases present : Chunker.groupFor chunker.chunkGroups chunk with
    | error panic =>
      exact ⟨panic, by simp [Chunker.receive, decoded, Chunker.addChunk, Chunker.insertChunk, present, bind, Except.bind]⟩
    | ok current =>
      by_cases inside : chunk.index < current.chunks.length
      · let group : ChunkGroup := ⟨current.chunks.set chunk.index (some chunk), current.size + 1, current.groupLength⟩
        have empty : current.size + 1 = current.groupLength ∧ none ∈ current.chunks.eraseIdx chunk.index := by
          by_contra fine
          exact harmful ⟨chunk, current, decoded, present, inside, fun reached member => fine ⟨reached, member⟩⟩
        have complete : group.isComplete = true := by simpa [group, ChunkGroup.isComplete] using empty.1
        cases collected : group.collect with
        | ok message =>
          exact absurd ((none_mem_set _ inside chunk).mpr empty.2) ((extend_iff group.chunks []).mp ⟨message, collected⟩)
        | error panic =>
          refine ⟨panic, ?_⟩
          rw [receive_eq chunker decoded present (addChunk_inside inside), if_pos complete, collected]
          rfl
      · refine ⟨.index, ?_⟩
        simp [Chunker.receive, decoded, Chunker.addChunk, Chunker.insertChunk, present, ChunkGroup.addChunk, inside, bind,
          Except.bind]

def script : Bidirectional (List Bytes) where
  send items _ := (items, .ok ())
  recv
    | [] => .ok ([], .pending)
    | bytes :: rest => .ok (rest, .ready (.ok bytes))

def recvCalls (net : Bidirectional T) (fuel : Nat) : Nat → Chunker T →
    Except Panic (Chunker T × List (Option (Poll (Except VeqError Bytes))))
  | 0, chunker => .ok (chunker, [])
  | calls + 1, chunker => do
    let (chunker, result) ← chunker.recv net fuel
    let (chunker, results) ← recvCalls net fuel calls chunker
    return (chunker, result :: results)

/-- What the delegate still has to hand over is going to do no harm. -/
def Calm (chunker : Chunker (List Bytes)) : Prop :=
  Runs.Meets arrival Harmless chunker.chunkGroups chunker.delegate

/-- The byte strings that a chunker has still to take in, and the messages that it
has still to return. -/
def backlog (chunker : Chunker (List Bytes)) : Nat := chunker.delegate.length + chunker.completedChunks.length

theorem recvStep_ready {net : Bidirectional T} {chunker : Chunker T} {ready : Bytes} {rest : List Bytes}
    (completed : chunker.completedChunks = ready :: rest) :
    chunker.recvStep net = .ok ({ chunker with completedChunks := rest }, some (.ready (.ok ready))) := by
  simp [Chunker.recvStep, Chunker.nextReadyChunk, completed]

theorem recvStep_pending {chunker : Chunker (List Bytes)} (completed : chunker.completedChunks = [])
    (delegate : chunker.delegate = []) : chunker.recvStep script = .ok (chunker, some .pending) := by
  cases chunker
  simp_all [Chunker.recvStep, Chunker.nextReadyChunk, script, bind, Except.bind, pure, Except.pure]

theorem recvStep_receive {net : Bidirectional T} {chunker : Chunker T} {delegate : T} {bytes : Bytes}
    (completed : chunker.completedChunks = []) (handed : net.recv chunker.delegate = .ok (delegate, .ready (.ok bytes))) :
    chunker.recvStep net = do
      let next ← { chunker with delegate }.receive bytes
      return (next, none) := by
  simp [Chunker.recvStep, Chunker.nextReadyChunk, completed, handed, bind, Except.bind, pure, Except.pure]

private theorem script_recv {chunker : Chunker (List Bytes)} {bytes : Bytes} {rest : List Bytes}
    (delegate : chunker.delegate = bytes :: rest) :
    script.recv chunker.delegate = .ok (rest, .ready (.ok bytes)) := by
  rw [delegate]
  rfl

theorem recvStep_harmless {chunker : Chunker (List Bytes)} {bytes : Bytes} {rest : List Bytes}
    (completed : chunker.completedChunks = []) (delegate : chunker.delegate = bytes :: rest)
    (harmless : Harmless chunker.chunkGroups bytes) :
    ∃ after more, more.length ≤ 1 ∧ arrival chunker.chunkGroups bytes = some after ∧
      chunker.recvStep script =
        .ok ({ chunker with delegate := rest, chunkGroups := after, completedChunks := more }, none) := by
  obtain ⟨after, more, few, received⟩ := receive_harmless harmless
  refine ⟨after, more, few, ?_, ?_⟩
  · rw [arrival, received (Chunker.mk () 0 0 chunker.chunkGroups []) rfl]
    rfl
  · rw [recvStep_receive completed (script_recv delegate), received { chunker with delegate := rest } rfl]
    simp [completed, bind, Except.bind, pure, Except.pure]

private theorem backlog_ready {chunker : Chunker (List Bytes)} {ready : Bytes} {rest : List Bytes}
    (completed : chunker.completedChunks = ready :: rest) :
    backlog { chunker with completedChunks := rest } + 1 = backlog chunker := by
  simp [backlog, completed, Nat.add_assoc]

theorem recvStep_calm {chunker : Chunker (List Bytes)} (calm : Calm chunker) :
    ∃ next result, chunker.recvStep script = .ok (next, result) ∧ Calm next ∧ backlog next ≤ backlog chunker ∧
      (result = none ∧ next.delegate.length + 1 = chunker.delegate.length ∨
        result.isSome = true ∧ next.delegate.length ≤ chunker.delegate.length ∧
          (next.delegate = [] ∨ backlog next + 1 ≤ backlog chunker)) := by
  cases completed : chunker.completedChunks with
  | cons ready rest =>
    have less := backlog_ready completed
    exact ⟨_, _, recvStep_ready completed, calm, by omega, .inr ⟨rfl, by simp, .inr (by omega)⟩⟩
  | nil =>
    cases delegate : chunker.delegate with
    | nil =>
      exact ⟨_, _, recvStep_pending completed delegate, calm, Nat.le_refl _,
        .inr ⟨rfl, by simp [delegate], .inl delegate⟩⟩
    | cons bytes rest =>
      rw [Calm, delegate] at calm
      obtain ⟨after, more, few, arrived, step⟩ := recvStep_harmless completed delegate calm.1
      refine ⟨_, _, step, calm.2 after arrived, ?_, .inl ⟨rfl, by simp⟩⟩
      simp only [backlog, completed, delegate, List.length_cons, List.length_nil]
      omega

theorem recv_continues {net : Bidirectional T} {chunker next : Chunker T} (step : chunker.recvStep net = .ok (next, none))
    (fuel : Nat) : chunker.recv net (fuel + 1) = next.recv net fuel := by
  simp [Chunker.recv, step, bind, Except.bind]

theorem recv_returns {net : Bidirectional T} {chunker next : Chunker T} {result : Poll (Except VeqError Bytes)}
    (step : chunker.recvStep net = .ok (next, some result)) (fuel : Nat) :
    chunker.recv net (fuel + 1) = .ok (next, some result) := by
  simp [Chunker.recv, step, bind, Except.bind, pure, Except.pure]

theorem recv_calm {chunker : Chunker (List Bytes)} (calm : Calm chunker) (fuel : Nat) :
    ∃ next result, chunker.recv script fuel = .ok (next, result) ∧ Calm next ∧
      next.delegate.length ≤ chunker.delegate.length ∧ backlog next ≤ backlog chunker ∧
      (chunker.delegate.length < fuel →
        result.isSome = true ∧ (next.delegate = [] ∨ backlog next + 1 ≤ backlog chunker)) := by
  induction fuel generalizing chunker with
  | zero => exact ⟨chunker, none, rfl, calm, Nat.le_refl _, Nat.le_refl _, by omega⟩
  | succ fuel ih =>
    obtain ⟨middle, result, step, after, less, outcome⟩ := recvStep_calm calm
    rcases outcome with ⟨rfl, shorter⟩ | ⟨returned, shorter, progress⟩
    · obtain ⟨next, result, run, later, length, fewer, ends⟩ := ih after
      rw [recv_continues step]
      refine ⟨next, result, run, later, by omega, by omega, ?_⟩
      intro enough
      obtain ⟨returned, empty | progress⟩ := ends (by omega)
      · exact ⟨returned, .inl empty⟩
      · exact ⟨returned, .inr (by omega)⟩
    · obtain ⟨result, rfl⟩ := Option.isSome_iff_exists.mp returned
      exact ⟨middle, some result, recv_returns step fuel, after, shorter, less, fun _ => ⟨rfl, progress⟩⟩

/-- Every call returns, and enough calls work off the script. -/
theorem recvCalls_calm {chunker : Chunker (List Bytes)} (calm : Calm chunker) (fuel calls : Nat) :
    ∃ final results, recvCalls script fuel calls chunker = .ok (final, results) ∧
      final.delegate.length ≤ chunker.delegate.length ∧
      (chunker.delegate.length < fuel → none ∉ results ∧ (backlog chunker < calls → final.delegate = [])) := by
  induction calls generalizing chunker with
  | zero => exact ⟨chunker, [], rfl, Nat.le_refl _, fun _ => ⟨by simp, by omega⟩⟩
  | succ calls ih =>
    obtain ⟨next, result, called, after, shorter, -, ends⟩ := recv_calm calm fuel
    obtain ⟨final, results, run, length, finishes⟩ := ih after
    refine ⟨final, result :: results, ?_, by omega, ?_⟩
    · simp [recvCalls, called, run, bind, Except.bind, pure, Except.pure]
    · intro enough
      obtain ⟨returned, progress⟩ := ends enough
      obtain ⟨all, empties⟩ := finishes (by omega)
      refine ⟨?_, ?_⟩
      · rw [List.mem_cons, not_or]
        exact ⟨fun missing => by simp [← missing] at returned, all⟩
      · intro many
        rcases progress with empty | progress
        · rw [empty] at length
          exact List.length_eq_zero_iff.mp (Nat.le_zero.mp length)
        · exact empties (by omega)

private theorem recvCalls_step {chunker next : Chunker (List Bytes)} {result : Option (Poll (Except VeqError Bytes))}
    (step : chunker.recvStep script = .ok (next, result))
    (returns : ∀ calls, ∃ outcome, recvCalls script 1 calls chunker = .ok outcome) (calls : Nat) :
    ∃ outcome, recvCalls script 1 calls next = .ok outcome := by
  have called : chunker.recv script 1 = .ok (next, result) := by
    cases result with
    | none => exact recv_continues step 0
    | some value => exact recv_returns step 0
  obtain ⟨outcome, run⟩ := returns (calls + 1)
  obtain ⟨first, same, run⟩ := bind_ok.mp run
  cases called.symm.trans same
  obtain ⟨rest, later, -⟩ := bind_ok.mp run
  exact ⟨rest, later⟩

/-- Whoever calls `recv` again and again without a panic met only harmless
arrivals. -/
theorem calm_of_calls (size : Nat) {chunker : Chunker (List Bytes)}
    (bounded : chunker.delegate.length + backlog chunker ≤ size)
    (returns : ∀ calls, ∃ outcome, recvCalls script 1 calls chunker = .ok outcome) : Calm chunker := by
  induction size generalizing chunker with
  | zero =>
    have empty : chunker.delegate = [] := List.length_eq_zero_iff.mp (by omega)
    simp [Calm, empty, Runs.Meets]
  | succ size ih =>
    cases completed : chunker.completedChunks with
    | cons ready rest =>
      have less := backlog_ready completed
      have calm : Calm { chunker with completedChunks := rest } :=
        ih (by simp only; omega) (recvCalls_step (recvStep_ready completed) returns)
      exact calm
    | nil =>
      cases delegate : chunker.delegate with
      | nil => simp [Calm, delegate, Runs.Meets]
      | cons bytes rest =>
        have harmless : Harmless chunker.chunkGroups bytes := by
          by_contra harmful
          obtain ⟨outcome, run⟩ := returns 1
          have failed := recvStep_receive completed (script_recv delegate)
          obtain ⟨panic, received⟩ := receive_harmful (show ¬ Harmless { chunker with delegate := rest }.chunkGroups bytes
            from harmful)
          rw [received] at failed
          simp [recvCalls, Chunker.recv, failed, bind, Except.bind] at run
        obtain ⟨after, more, few, arrived, step⟩ := recvStep_harmless completed delegate harmless
        have calm : Calm { chunker with delegate := rest, chunkGroups := after, completedChunks := more } := by
          refine ih ?_ (recvCalls_step step returns)
          simp only [backlog, completed, delegate, List.length_cons, List.length_nil] at bounded ⊢
          omega
        rw [Calm, delegate]
        refine ⟨harmless, ?_⟩
        intro next same
        cases arrived.symm.trans same
        exact calm

/-- Whatever the delegate hands over, `recv` can be called again and again, and
processes all of it, exactly when every arrival is harmless in the state that it
finds. -/
theorem recv_processes_iff (handed : List Bytes) (chunkSize : Nat) :
    (∀ fuel calls, ∃ chunker results,
      recvCalls script fuel calls (Chunker.new handed chunkSize) = .ok (chunker, results) ∧
      (handed.length < fuel → none ∉ results ∧ (handed.length < calls → chunker.delegate = []))) ↔
    Runs.Meets arrival Harmless ∅ handed := by
  constructor
  · intro processes
    have returns : ∀ calls, ∃ outcome, recvCalls script 1 calls (Chunker.new handed chunkSize) = .ok outcome := by
      intro calls
      obtain ⟨chunker, results, run, -⟩ := processes 1 calls
      exact ⟨_, run⟩
    exact calm_of_calls _ (Nat.le_refl _) returns
  · intro calm fuel calls
    obtain ⟨final, results, run, -, finishes⟩ := recvCalls_calm (show Calm (Chunker.new handed chunkSize) from calm) fuel calls
    exact ⟨final, results, run, finishes⟩

/-- One call of `recv` panics on bytes that do not decode, on a group that is too long
for a vector of slots, on an index outside its group, and on a chunk of two that is
handed over twice. -/
theorem recv_panics :
    recvCalls script 1 1 (Chunker.new [[]] 3) = .error .unwrap ∧
    recvCalls script 1 1 (Chunker.new [ChunkedData.codec.encode ⟨0, 0, 2 ^ 64 - 1, []⟩] 3) = .error .capacity ∧
    recvCalls script 1 1 (Chunker.new [ChunkedData.codec.encode ⟨0, 5, 2, [1]⟩] 3) = .error .index ∧
    recvCalls script 2 1 (Chunker.new
      [ChunkedData.codec.encode ⟨0, 0, 2, [1]⟩, ChunkedData.codec.encode ⟨0, 0, 2, [1]⟩] 3) = .error .unwrap :=
  ⟨rfl, rfl, rfl, rfl⟩

end

end Veq.PeerInput
