import Veq.Proofs.Reassembly
import Mathlib.Data.List.Sort

/-! A delegate that loses chunks but keeps their order. The groups of a receiving
chunker are then filled one after another, and the group in progress is always
the last one of the map: `pop_first` evicts only groups that can never become
complete. -/

namespace Veq.Assembly
open Rust Bincode

variable {T R : Type} {pieces : Nat → List Bytes} {arrived : List ChunkedData} {done : List Nat} {chunker : Chunker T}
  {chunk : ChunkedData}

/-- No chunk of the group that arrived was lost again. -/
def Holds (arrived : List ChunkedData) (id : Nat) (group : ChunkGroup) : Prop :=
  ∀ chunk ∈ arrived, chunk.group = id → group.chunks[chunk.index]? = some (some chunk)

theorem Holds.addChunk {group next : ChunkGroup} (holds : Holds arrived chunk.group group)
    (fresh : ∀ other ∈ arrived, other.group = chunk.group → other.index ≠ chunk.index)
    (inside : chunk.index < group.chunks.length) (slots : next.chunks = group.chunks.set chunk.index (some chunk)) :
    Holds (arrived ++ [chunk]) chunk.group next := by
  intro other member same
  rcases List.mem_append.mp member with member | member
  · rw [slots, List.getElem?_set_ne (fresh other member same).symm]
    exact holds other member same
  · obtain rfl := List.mem_singleton.mp member
    rw [slots, List.getElem?_set_self inside]

theorem Holds.complete {id : Nat} {group : ChunkGroup} (holds : Holds arrived id group)
    (held : Partial pieces arrived id group) (whole : Whole pieces arrived id) : group.isComplete = true := by
  have filled : ∀ slot ∈ group.chunks, slot.isSome := by
    intro slot member
    obtain ⟨index, inside, rfl⟩ := List.mem_iff_getElem.mp member
    obtain ⟨chunk, arrival, same, rfl⟩ := whole.2 index (held.length ▸ inside)
    have slot := holds chunk arrival same
    rw [List.getElem?_eq_getElem inside, Option.some.injEq] at slot
    rw [slot]
    rfl
  have count := List.countP_eq_length.mpr filled
  simp [ChunkGroup.isComplete, held.size, held.groupLength, count, held.length]

/-- The group of the last chunk is in progress or done; every group that arrived
whole is done, in the order of the groups. -/
structure InOrder (pieces : Nat → List Bytes) (arrived : List ChunkedData) (done : List Nat)
    (chunker : Chunker T) : Prop extends Assembling pieces arrived done chunker where
  keys : ∀ id ∈ chunker.chunkGroups, ∃ chunk ∈ arrived, chunk.group = id
  current : ∀ chunk ∈ arrived, (∀ other ∈ arrived, other.group ≤ chunk.group) → chunk.group ∈ done ∨
    ∃ group, chunker.chunkGroups[chunk.group]? = some group ∧ Holds arrived chunk.group group
  ascending : done.Pairwise (· < ·)
  all : ∀ id, Whole pieces arrived id → id ∈ done

namespace InOrder

theorem new (pieces : Nat → List Bytes) (delegate : T) (chunkSize : Nat) :
    InOrder pieces [] [] (Chunker.new delegate chunkSize) := by
  refine ⟨Assembling.new pieces delegate chunkSize, by simp [Chunker.new], by simp, .nil, ?_⟩
  intro id whole
  obtain ⟨chunk, member, -⟩ := whole.2 0 whole.1
  cases member

theorem mem_done_lt (state : InOrder pieces arrived done chunker) (genuine : Genuine pieces chunk)
    (later : ∀ other ∈ arrived, Before other chunk) (fresh : chunk ∉ arrived) {id : Nat} (member : id ∈ done) :
    id < chunk.group := by
  obtain ⟨other, arrival, rfl, -⟩ := (state.whole id member).2 0 (state.whole id member).1
  have different : other.group ≠ chunk.group := fun same =>
    state.toAssembling.not_done genuine fresh (same ▸ member)
  rcases later other arrival with earlier | same
  · exact earlier
  · exact absurd same.1 different

theorem key_le (state : InOrder pieces arrived done chunker) (later : ∀ other ∈ arrived, Before other chunk) {id : Nat}
    (member : id ∈ chunker.chunkGroups) : id ≤ chunk.group := by
  obtain ⟨other, arrival, rfl⟩ := state.keys id member
  rcases later other arrival with earlier | same
  · exact Nat.le_of_lt earlier
  · exact Nat.le_of_eq same.1

theorem holds_current (state : InOrder pieces arrived done chunker) (genuine : Genuine pieces chunk)
    (later : ∀ other ∈ arrived, Before other chunk) (fresh : chunk ∉ arrived) :
    Holds arrived chunk.group ((chunker.chunkGroups[chunk.group]?).getD (ChunkGroup.empty chunk.groupLength)) := by
  intro other member same
  have last : ∀ third ∈ arrived, third.group ≤ other.group := by
    intro third arrival
    rcases later third arrival with earlier | equal
    · exact same ▸ Nat.le_of_lt earlier
    · exact same ▸ Nat.le_of_eq equal.1
  rcases state.current other member last with completed | ⟨group, found, holds⟩
  · exact absurd (same ▸ completed) (state.toAssembling.not_done genuine fresh)
  · rw [← same, found]
    exact holds other member rfl

/-- Eviction spares the group of the chunk that was added last. -/
theorem cleanUp_current {map : Std.TreeMap Nat ChunkGroup} {id : Nat} (last : ∀ other ∈ map, other ≤ id)
    (chunker : Chunker T) (same : chunker.chunkGroups = map) : chunker.cleanUp.chunkGroups[id]? = map[id]? := by
  unfold Chunker.cleanUp
  rw [same]
  split
  next many =>
    apply popFirst_last
    · intro other member
      exact Nat.isLE_compare.mpr (last other member)
    · omega
  next => rw [same]

theorem cleanUp_key (chunker : Chunker T) {id : Nat} (member : id ∈ chunker.cleanUp.chunkGroups) :
    id ∈ chunker.chunkGroups := by
  unfold Chunker.cleanUp at member
  split at member
  · obtain ⟨group, found⟩ := Std.TreeMap.mem_iff_isSome_getElem?.mp member |> Option.isSome_iff_exists.mp
    exact Std.TreeMap.mem_iff_isSome_getElem?.mpr (by rw [popFirst_some found]; rfl)
  · exact member

theorem addChunk (state : InOrder pieces arrived done chunker) (genuine : Genuine pieces chunk)
    (later : ∀ other ∈ arrived, Before other chunk) :
    ∃ next more, chunker.addChunk chunk = .ok next ∧ InOrder pieces (arrived ++ [chunk]) (done ++ more) next ∧
      next.completedChunks = chunker.completedChunks ++ more.map (message pieces) := by
  have fresh : chunk ∉ arrived := fun member => (later chunk member).elim (Nat.lt_irrefl _) fun same => Nat.lt_irrefl _ same.2
  obtain ⟨group, next, more, added, after, held, slots, result⟩ := state.toAssembling.added genuine fresh
  have position : ∀ other ∈ arrived, other.group = chunk.group → other.index ≠ chunk.index := by
    intro other member same
    rcases later other member with earlier | earlier
    · exact absurd same (Nat.ne_of_lt earlier)
    · exact Nat.ne_of_lt earlier.2
  have inside : chunk.index < group.chunks.length := held.length ▸ genuine.index_lt
  have holds := (state.holds_current genuine later fresh).addChunk position (by simpa [slots] using inside) slots
  have last : ∀ id ∈ chunker.chunkGroups.insert chunk.group group, id ≤ chunk.group := by
    intro id member
    rcases Std.TreeMap.mem_insert.mp member with same | old
    · exact Nat.le_of_eq (Nat.compare_eq_eq.mp same).symm
    · exact state.key_le later old
  have arrives : ∀ id ∈ chunker.chunkGroups.insert chunk.group group, ∃ other ∈ arrived ++ [chunk], other.group = id := by
    intro id member
    rcases Std.TreeMap.mem_insert.mp member with same | old
    · exact ⟨chunk, by simp, Nat.compare_eq_eq.mp same⟩
    · obtain ⟨other, arrival, same⟩ := state.keys id old
      exact ⟨other, by simp [arrival], same⟩
  have newest : ∀ other ∈ arrived ++ [chunk], (∀ third ∈ arrived ++ [chunk], third.group ≤ other.group) →
      other.group = chunk.group := by
    intro other member greatest
    refine Nat.le_antisymm ?_ (greatest chunk (by simp))
    rcases List.mem_append.mp member with member | member
    · exact (later other member).elim Nat.le_of_lt fun same => Nat.le_of_eq same.1
    · exact Nat.le_of_eq (congrArg ChunkedData.group (List.mem_singleton.mp member))
  have old : ∀ id, Whole pieces (arrived ++ [chunk]) id → id = chunk.group ∨ id ∈ done := by
    intro id whole
    by_cases same : id = chunk.group
    · exact .inl same
    · exact .inr (state.all id (whole.of_other same))
  rcases result with ⟨incomplete, rfl, rfl⟩ | ⟨complete, rfl, rfl⟩
  · refine ⟨_, [], added, ⟨after, ?_, ?_, by simpa using state.ascending, ?_⟩, by simp⟩
    · exact fun id member => arrives id (cleanUp_key _ member)
    · intro other member greatest
      refine .inr ⟨group, ?_, newest other member greatest ▸ holds⟩
      rw [newest other member greatest, cleanUp_current last _ rfl]
      simp
    · intro id whole
      rcases old id whole with rfl | member
      · rw [holds.complete held whole] at incomplete
        cases incomplete
      · simpa using member
  · refine ⟨_, [chunk.group], added, ⟨after, ?_, ?_, ?_, ?_⟩, by simp⟩
    · intro id member
      exact arrives id (Std.TreeMap.mem_erase.mp (cleanUp_key _ member)).2
    · intro other member greatest
      exact .inl (by simp [newest other member greatest])
    · refine List.pairwise_append.mpr ⟨state.ascending, by simp, ?_⟩
      intro id member other same
      rw [List.mem_singleton.mp same]
      exact state.mem_done_lt genuine later fresh member
    · intro id whole
      rcases old id whole with rfl | member
      · simp
      · simp [member]

theorem addChunks (chunks : List ChunkedData) (state : InOrder pieces [] [] chunker)
    (genuine : ∀ chunk ∈ chunks, Genuine pieces chunk) (ordered : chunks.Pairwise Before) :
    ∃ next done, chunks.foldlM Chunker.addChunk chunker = .ok next ∧ InOrder pieces chunks done next ∧
      next.completedChunks = chunker.completedChunks ++ done.map (message pieces) := by
  refine addChunks_of_step ?_ state
  intro before chunk done current first now
  have later := (List.pairwise_append.mp (ordered.sublist first.sublist)).2.2
  exact now.addChunk (genuine chunk (first.subset (by simp))) fun other member => later other member chunk (by simp)

end InOrder

/-- A message, with its position, that is not empty and all of whose chunks are
among the arrivals. -/
def arrivesWhole (chunkSize : Nat) (arrivals : List Bytes) (message : Bytes × Nat) : Bool :=
  !message.1.isEmpty &&
    (Chunker.chunked message.2 chunkSize message.1).all (· ∈ arrivals.filterMap ChunkedData.codec.deserialize)

theorem chunks_positive {chunkSize : Nat} (positive : 1 ≤ chunkSize) (data : Bytes) :
    0 < (chunks chunkSize data).length ↔ data ≠ [] := by
  have whole := flatten_chunks positive data
  constructor
  · rintro nonempty rfl
    rw [length_chunks, List.length_nil, Nat.zero_add, Nat.div_eq_of_lt (by omega)] at nonempty
    exact Nat.lt_irrefl _ nonempty
  · intro nonempty
    by_contra none
    rw [List.length_eq_zero_iff.mp (Nat.eq_zero_of_not_pos none)] at whole
    exact nonempty whole.symm

theorem whole_iff_arrivesWhole {chunkSize : Nat} (positive : 1 ≤ chunkSize) {messages arrivals : List Bytes}
    (genuine : ∀ chunk ∈ arrivals.filterMap ChunkedData.codec.deserialize, Genuine (piecesOf chunkSize messages) chunk)
    {id : Nat} {data : Bytes} (sent : messages[id]? = some data) :
    Whole (piecesOf chunkSize messages) (arrivals.filterMap ChunkedData.codec.deserialize) id ↔
      arrivesWhole chunkSize arrivals (data, id) = true := by
  have pieces : piecesOf chunkSize messages id = chunks chunkSize data := by simp [piecesOf, sent]
  rw [Whole, pieces, chunks_positive positive]
  simp only [arrivesWhole, Bool.and_eq_true, Bool.not_eq_true', List.isEmpty_eq_false_iff, List.all_eq_true,
    decide_eq_true_eq]
  apply and_congr_right
  intro nonempty
  constructor
  · intro all chunk member
    obtain ⟨group, -, piece⟩ := mem_chunked member
    obtain ⟨other, arrival, sameGroup, sameIndex⟩ := all chunk.index (List.getElem?_eq_some_iff.mp piece).1
    have arrived := genuine other arrival
    have few : (chunks chunkSize data).length ≤ ChunkGroup.maxSlots := by
      rw [← pieces, ← sameGroup, ← arrived.groupLength]
      exact arrived.few
    exact arrived.unique (chunked_genuine sent few member) (sameGroup.trans group.symm) sameIndex ▸ arrival
  · intro all index inside
    exact ⟨_, all ⟨id, index, (chunks chunkSize data).length, (chunks chunkSize data)[index]⟩
      (List.mem_mapIdx.mpr ⟨index, inside, rfl⟩), rfl, rfl⟩

theorem InOrder.completed_eq {arrived : List ChunkedData} {done : List Nat} {receiver : Chunker R} {chunkSize : Nat}
    (positive : 1 ≤ chunkSize) {messages : List Bytes}
    (state : InOrder (piecesOf chunkSize messages) arrived done receiver) {complete : Bytes × Nat → Bool}
    (whole : ∀ id data, messages[id]? = some data →
      (Whole (piecesOf chunkSize messages) arrived id ↔ complete (data, id) = true)) :
    done.map (message (piecesOf chunkSize messages)) = (messages.zipIdx.filter complete).map Prod.fst := by
  have same : done = (messages.zipIdx.filter complete).map Prod.snd := by
    apply state.ascending.eq_of_mem_iff
    · have positions : (messages.zipIdx.map Prod.snd).Pairwise (· < ·) := by
        rw [List.zipIdx_map_snd]
        exact List.pairwise_lt_range'
      exact positions.sublist (List.filter_sublist.map Prod.snd)
    · intro id
      simp only [List.mem_map, List.mem_filter, List.mem_zipIdx_iff_getElem?, Prod.exists, exists_eq_right]
      constructor
      · intro member
        have inside := position_inside (state.whole id member).1
        exact ⟨_, List.getElem?_eq_getElem inside, (whole id _ (List.getElem?_eq_getElem inside)).mp (state.whole id member)⟩
      · rintro ⟨data, sent, arrives⟩
        exact state.all id ((whole id data sent).mpr arrives)
  rw [same, List.map_map]
  apply List.map_congr_left
  intro item member
  have sent := List.mem_zipIdx_iff_getElem?.mp (List.mem_filter.mp member).1
  obtain ⟨inside, same⟩ := List.getElem?_eq_some_iff.mp sent
  exact (message_piecesOf positive _ inside).trans same

/-- Over a delegate that only loses chunks, the messages that are completed are
those that arrive whole, in the order in which they were sent. -/
theorem exact_delivery (net : Bidirectional T) (delegate : T) {chunkSize : Nat} (positive : 1 ≤ chunkSize)
    (messages : List (Chunker.Sendable chunkSize)) (arrivals : List Bytes)
    (delivered : arrivals.Sublist (emitted net delegate chunkSize (messages.map Subtype.val))) (other : R) (size : Nat) :
    ∃ receiver : Chunker R, receiveAll (Chunker.new other size) arrivals = .ok receiver ∧
      receiver.completedChunks =
        ((messages.map Subtype.val).zipIdx.filter (arrivesWhole chunkSize arrivals)).map Prod.fst := by
  obtain ⟨chunks, log, genuine, ordered⟩ := emitted_chunks net delegate positive _ (property_of_mem messages)
  rw [log] at delivered
  obtain ⟨arrived, kept, encoded⟩ := List.sublist_map_iff.mp delivered
  have fits : ∀ chunk ∈ arrived, ChunkedData.codec.Fits chunk := fun chunk member => (genuine chunk (kept.subset member)).2
  have valid : ∀ chunk ∈ arrived, Genuine (piecesOf chunkSize (messages.map Subtype.val)) chunk := fun chunk member =>
    (genuine chunk (kept.subset member)).1
  have decoded : arrivals.filterMap ChunkedData.codec.deserialize = arrived := by rw [encoded, filterMap_encoded _ fits]
  obtain ⟨receiver, done, run, state, completed⟩ := (InOrder.new _ other size).addChunks arrived valid
    (ordered.sublist kept)
  refine ⟨receiver, ?_, ?_⟩
  · rw [encoded, receiveAll_encoded _ _ fits, run]
  · rw [completed, Chunker.new, List.nil_append]
    apply state.completed_eq positive
    intro id data sent
    rw [← decoded] at valid ⊢
    exact whole_iff_arrivesWhole positive valid sent

theorem exact_delivery_stolen :
    ∃ receiver : Chunker Unit,
      receiveAll (Chunker.new () 3)
        ((emitted .queue [] 3 [[1, 2, 3, 4, 5, 6, 7, 8], [9, 10, 11, 12, 13, 14, 15, 16]]).drop 1) = .ok receiver ∧
      receiver.completedChunks = [[9, 10, 11, 12, 13, 14, 15, 16]] := by
  obtain ⟨receiver, run, completed⟩ := exact_delivery .queue [] (by decide : 1 ≤ 3)
    [⟨[1, 2, 3, 4, 5, 6, 7, 8], by decide⟩, ⟨[9, 10, 11, 12, 13, 14, 15, 16], by decide⟩] _ (List.drop_sublist 1 _) () 3
  exact ⟨receiver, run, completed.trans (by decide)⟩

end Veq.Assembly
