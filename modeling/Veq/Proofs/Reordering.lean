import Veq.Proofs.InOrder
import Mathlib.Data.Finset.Card

/-! A delegate that reorders and loses chunks. As long as at most ten groups are in
progress nothing is evicted, the groups that a receiving chunker holds are those
in progress, and each group is completed by the last of its chunks. -/

namespace Veq.Assembly
open Rust Bincode

variable {T R : Type} {pieces : Nat → List Bytes} {arrived : List ChunkedData} {done : List Nat} {chunker : Chunker T}
  {chunk : ChunkedData}

/-- Some chunk of the group has arrived, and some chunk has not. -/
def InProgress (pieces : Nat → List Bytes) (arrived : List ChunkedData) (id : Nat) : Prop :=
  (∃ chunk ∈ arrived, chunk.group = id) ∧ ¬ Whole pieces arrived id

/-- At most ten groups are in progress. -/
def AtMostTen (pieces : Nat → List Bytes) (arrived : List ChunkedData) : Prop :=
  ∀ ids : List Nat, ids.Nodup → (∀ id ∈ ids, InProgress pieces arrived id) → ids.length ≤ 10

/-- The groups in the order in which their last chunks arrived. -/
def byLastChunk (arrived : List ChunkedData) : List Nat := (arrived.map ChunkedData.group).dedup

private theorem dedup_concat (items : List Nat) (item : Nat) :
    (items ++ [item]).dedup = items.dedup.filter (· ≠ item) ++ [item] := by
  induction items with
  | nil => simp
  | cons first items ih =>
    rw [List.cons_append, List.dedup_cons, List.dedup_cons, ih]
    by_cases present : first ∈ items
    · simp [present]
    · by_cases same : first = item
      · subst same
        simp [present]
      · simp [present, same]

theorem byLastChunk_append (arrived : List ChunkedData) (chunk : ChunkedData) :
    byLastChunk (arrived ++ [chunk]) = (byLastChunk arrived).filter (· ≠ chunk.group) ++ [chunk.group] := by
  rw [byLastChunk, List.map_append, List.map_singleton, dedup_concat, byLastChunk]

theorem inProgress_other (chunk : ChunkedData) {id : Nat} (other : id ≠ chunk.group) :
    InProgress pieces (arrived ++ [chunk]) id ↔ InProgress pieces arrived id := by
  have arrives : (∃ piece ∈ arrived ++ [chunk], piece.group = id) ↔ ∃ piece ∈ arrived, piece.group = id := by
    simp [or_and_right, exists_or, other.symm]
  have whole : Whole pieces (arrived ++ [chunk]) id ↔ Whole pieces arrived id :=
    ⟨fun whole => whole.of_other other, fun whole => whole.mono (List.subset_append_left _ _)⟩
  rw [InProgress, InProgress, arrives, whole]

/-- While at most ten groups are in progress, the clean-up finds nothing to do. -/
private theorem cleanUp_idle (few : AtMostTen pieces arrived) (chunker : Chunker T)
    (keys : ∀ id, id ∈ chunker.chunkGroups → InProgress pieces arrived id) : chunker.cleanUp = chunker := by
  have size : chunker.chunkGroups.size ≤ 10 := by
    rw [← Std.TreeMap.length_keys]
    apply few _ Std.TreeMap.nodup_keys
    intro id member
    exact keys id (Std.TreeMap.mem_keys.mp member)
  rw [Chunker.cleanUp, if_neg (by omega)]

/-- The groups that a chunker holds are those in progress, without a gap; those
that arrived whole are done. -/
structure Reordered (pieces : Nat → List Bytes) (arrived : List ChunkedData) (done : List Nat)
    (chunker : Chunker T) : Prop extends Assembling pieces arrived done chunker where
  holds : ∀ (id : Nat) (group : ChunkGroup), chunker.chunkGroups[id]? = some group → Holds arrived id group
  keys : ∀ id, id ∈ chunker.chunkGroups ↔ InProgress pieces arrived id
  all : ∀ id, Whole pieces arrived id → id ∈ done
  order : done.Sublist (byLastChunk arrived)

namespace Reordered

theorem new (pieces : Nat → List Bytes) (delegate : T) (chunkSize : Nat) :
    Reordered pieces [] [] (Chunker.new delegate chunkSize) := by
  refine ⟨Assembling.new pieces delegate chunkSize, by simp [Chunker.new], by simp [Chunker.new, InProgress], ?_, by simp⟩
  intro id whole
  obtain ⟨chunk, member, -⟩ := whole.2 0 whole.1
  cases member

theorem holds_current (state : Reordered pieces arrived done chunker) (genuine : Genuine pieces chunk)
    (fresh : chunk ∉ arrived) :
    Holds arrived chunk.group ((chunker.chunkGroups[chunk.group]?).getD (ChunkGroup.empty chunk.groupLength)) := by
  cases found : chunker.chunkGroups[chunk.group]? with
  | some group => exact state.holds chunk.group group found
  | none =>
    intro other member same
    have absent : chunk.group ∉ chunker.chunkGroups := by
      rw [Std.TreeMap.mem_iff_isSome_getElem?, found]
      simp
    have progress : InProgress pieces arrived chunk.group :=
      ⟨⟨other, member, same⟩, fun whole => fresh (whole.mem state.genuine genuine)⟩
    exact absurd ((state.keys chunk.group).mpr progress) absent

theorem holds_added (state : Reordered pieces arrived done chunker) (genuine : Genuine pieces chunk) (fresh : chunk ∉ arrived)
    {group : ChunkGroup} (held : Partial pieces (arrived ++ [chunk]) chunk.group group)
    (slots : group.chunks = ((chunker.chunkGroups[chunk.group]?).getD (ChunkGroup.empty chunk.groupLength)).chunks.set
      chunk.index (some chunk)) : Holds (arrived ++ [chunk]) chunk.group group := by
  have position : ∀ other ∈ arrived, other.group = chunk.group → other.index ≠ chunk.index := by
    intro other member sameGroup sameIndex
    exact fresh ((state.genuine other member).unique genuine sameGroup sameIndex ▸ member)
  have inside : chunk.index < group.chunks.length := held.length ▸ genuine.index_lt
  exact (state.holds_current genuine fresh).addChunk position (by simpa [slots] using inside) slots

theorem holds_other (state : Reordered pieces arrived done chunker) (chunk : ChunkedData) {id : Nat} {group : ChunkGroup}
    (other : id ≠ chunk.group) (found : chunker.chunkGroups[id]? = some group) :
    Holds (arrived ++ [chunk]) id group := by
  intro piece member same
  rcases List.mem_append.mp member with member | member
  · exact state.holds id group found piece member same
  · exact absurd (same.symm.trans (congrArg ChunkedData.group (List.mem_singleton.mp member))) other

theorem order_append (state : Reordered pieces arrived done chunker) (genuine : Genuine pieces chunk)
    (fresh : chunk ∉ arrived) {more : List Nat} (last : more.Sublist [chunk.group]) :
    (done ++ more).Sublist (byLastChunk (arrived ++ [chunk])) := by
  have apart : done.filter (· ≠ chunk.group) = done := by
    rw [List.filter_eq_self]
    intro id member
    have different : id ≠ chunk.group := fun same => state.toAssembling.not_done genuine fresh (same ▸ member)
    simpa using different
  rw [byLastChunk_append, ← apart]
  exact (state.order.filter _).append last

theorem addChunk (state : Reordered pieces arrived done chunker) (genuine : Genuine pieces chunk) (fresh : chunk ∉ arrived)
    (few : AtMostTen pieces (arrived ++ [chunk])) :
    ∃ next more, chunker.addChunk chunk = .ok next ∧ Reordered pieces (arrived ++ [chunk]) (done ++ more) next ∧
      next.completedChunks = chunker.completedChunks ++ more.map (message pieces) := by
  obtain ⟨group, next, more, added, after, held, slots, result⟩ := state.toAssembling.added genuine fresh
  have holds := state.holds_added genuine fresh held slots
  have inserted : ∀ (id : Nat) (old : ChunkGroup), (chunker.chunkGroups.insert chunk.group group)[id]? = some old →
      Holds (arrived ++ [chunk]) id old := by
    intro id old found
    rw [Std.TreeMap.getElem?_insert] at found
    split at found
    next same =>
      cases found
      exact Nat.compare_eq_eq.mp same ▸ holds
    next different =>
      exact state.holds_other chunk (fun same => different (Nat.compare_eq_eq.mpr same.symm)) found
  rcases result with ⟨incomplete, rfl, rfl⟩ | ⟨complete, rfl, rfl⟩
  · have unfinished : ¬ Whole pieces (arrived ++ [chunk]) chunk.group := by
      intro whole
      rw [holds.complete held whole] at incomplete
      cases incomplete
    have keys : ∀ id, id ∈ chunker.chunkGroups.insert chunk.group group ↔ InProgress pieces (arrived ++ [chunk]) id := by
      intro id
      rw [Std.TreeMap.mem_insert, Nat.compare_eq_eq]
      by_cases same : id = chunk.group
      · subst same
        exact iff_of_true (.inl rfl) ⟨⟨chunk, by simp, rfl⟩, unfinished⟩
      · rw [inProgress_other chunk same, state.keys id, or_iff_right (Ne.symm same)]
    have idle := cleanUp_idle few { chunker with chunkGroups := chunker.chunkGroups.insert chunk.group group }
      (fun id => (keys id).mp)
    rw [idle] at added after
    refine ⟨_, [], added, ⟨after, ?_, keys, ?_, state.order_append genuine fresh (List.nil_sublist _)⟩, by simp⟩
    · intro id old found
      exact inserted id old found
    · intro id whole
      by_cases same : id = chunk.group
      · exact absurd (same ▸ whole) unfinished
      · simpa using state.all id (whole.of_other same)
  · have finished := (held.collect (Nat.zero_lt_of_lt genuine.index_lt) complete).2
    have keys : ∀ id, id ∈ (chunker.chunkGroups.insert chunk.group group).erase chunk.group ↔
        InProgress pieces (arrived ++ [chunk]) id := by
      intro id
      rw [Std.TreeMap.mem_erase, Std.TreeMap.mem_insert, Nat.compare_eq_eq]
      by_cases same : id = chunk.group
      · subst same
        exact iff_of_false (fun member => member.1 (by simp)) (fun progress => progress.2 finished)
      · rw [inProgress_other chunk same, state.keys id, or_iff_right (Ne.symm same)]
        exact and_iff_right (fun equal => same (Nat.compare_eq_eq.mp equal).symm)
    have idle := cleanUp_idle few { chunker with
      chunkGroups := (chunker.chunkGroups.insert chunk.group group).erase chunk.group
      completedChunks := chunker.completedChunks ++ [message pieces chunk.group] } (fun id => (keys id).mp)
    rw [idle] at added after
    refine ⟨_, [chunk.group], added, ⟨after, ?_, keys, ?_, state.order_append genuine fresh (.refl _)⟩, by simp⟩
    · intro id old found
      rw [Std.TreeMap.getElem?_erase] at found
      split at found
      · cases found
      · exact inserted id old found
    · intro id whole
      by_cases same : id = chunk.group
      · simp [same]
      · simp [state.all id (whole.of_other same)]

theorem addChunks (chunks : List ChunkedData) (state : Reordered pieces [] [] chunker)
    (genuine : ∀ chunk ∈ chunks, Genuine pieces chunk) (fresh : chunks.Nodup)
    (few : ∀ before, before <+: chunks → AtMostTen pieces before) :
    ∃ next done, chunks.foldlM Chunker.addChunk chunker = .ok next ∧ Reordered pieces chunks done next ∧
      next.completedChunks = chunker.completedChunks ++ done.map (message pieces) := by
  refine addChunks_of_step ?_ state
  intro before chunk done current first now
  have new := List.nodup_append.mp (fresh.sublist first.sublist)
  exact now.addChunk (genuine chunk (first.subset (by simp))) (fun member => new.2.2 chunk member chunk (by simp) rfl)
    (few _ first)

end Reordered

def groupsOf (arrivals : List Bytes) : List Nat :=
  (arrivals.filterMap ChunkedData.codec.deserialize).map ChunkedData.group

/-- A message, with its position, of which some but not all chunks are among the
arrivals. -/
def arrivesPartly (chunkSize : Nat) (arrivals : List Bytes) (message : Bytes × Nat) : Bool :=
  (Chunker.chunked message.2 chunkSize message.1).any (· ∈ arrivals.filterMap ChunkedData.codec.deserialize) &&
    !arrivesWhole chunkSize arrivals message

/-- After every arrival, at most ten messages have arrived in part. -/
def FewInProgress (chunkSize : Nat) (messages arrivals : List Bytes) : Prop :=
  ∀ before, before <+: arrivals → messages.zipIdx.countP (arrivesPartly chunkSize before) ≤ 10

/-- The messages that arrive whole, in the order in which their last chunks arrive. -/
def delivered (chunkSize : Nat) (messages arrivals : List Bytes) : List Bytes :=
  (groupsOf arrivals).dedup.filterMap fun id =>
    (messages[id]?).filter fun data => arrivesWhole chunkSize arrivals (data, id)

private theorem sublist_eq_filter {items kept : List Nat} {keep : Nat → Bool} (sublist : kept.Sublist items)
    (distinct : items.Nodup) (members : ∀ item ∈ items, item ∈ kept ↔ keep item = true) : kept = items.filter keep := by
  have all : kept.filter keep = kept := by
    rw [List.filter_eq_self]
    intro item member
    exact (members item (sublist.subset member)).mp member
  have smaller : kept.Sublist (items.filter keep) := all ▸ sublist.filter keep
  apply smaller.eq_of_length_le
  apply ((distinct.filter keep).subperm _).length_le
  intro item member
  obtain ⟨inside, holds⟩ := List.mem_filter.mp member
  exact (members item inside).mpr holds

theorem Reordered.delivers {chunkSize : Nat} (positive : 1 ≤ chunkSize) {messages : List Bytes} {arrivals : List Bytes}
    (genuine : ∀ chunk ∈ arrivals.filterMap ChunkedData.codec.deserialize, Genuine (piecesOf chunkSize messages) chunk)
    {receiver : Chunker R} (state : Reordered (piecesOf chunkSize messages)
      (arrivals.filterMap ChunkedData.codec.deserialize) done receiver) :
    done.map (message (piecesOf chunkSize messages)) = delivered chunkSize messages arrivals := by
  have inside : ∀ id ∈ done, id < messages.length := fun id member => position_inside (state.whole id member).1
  let whole : Nat → Bool := fun id => (messages[id]?).any fun data => arrivesWhole chunkSize arrivals (data, id)
  have same : done = (groupsOf arrivals).dedup.filter whole := by
    apply sublist_eq_filter state.order (List.nodup_dedup _)
    intro id _
    simp only [whole, Option.any_eq_true]
    constructor
    · intro member
      refine ⟨_, List.getElem?_eq_getElem (inside id member), ?_⟩
      exact (whole_iff_arrivesWhole positive genuine (List.getElem?_eq_getElem (inside id member))).mp (state.whole id member)
    · rintro ⟨data, sent, arrives⟩
      exact state.all id ((whole_iff_arrivesWhole positive genuine sent).mpr arrives)
  rw [same, delivered, ← List.filterMap_eq_map, List.filterMap_filter]
  apply List.filterMap_congr
  intro id _
  cases sent : messages[id]? with
  | none => simp [whole, sent]
  | some data =>
    obtain ⟨within, rfl⟩ := List.getElem?_eq_some_iff.mp sent
    simp only [whole, sent, message_piecesOf positive messages within, Function.comp_apply, Option.any_some,
      Option.filter_some]

def indicesOf (arrived : List ChunkedData) (id : Nat) : List Nat :=
  (arrived.filter fun chunk => chunk.group == id).map ChunkedData.index

theorem mem_indicesOf {id index : Nat} :
    index ∈ indicesOf arrived id ↔ ∃ chunk ∈ arrived, chunk.group = id ∧ chunk.index = index := by
  simp [indicesOf, and_assoc]

theorem length_indicesOf (arrived : List ChunkedData) (id : Nat) :
    (indicesOf arrived id).length = (arrived.map ChunkedData.group).count id := by
  rw [indicesOf, List.length_map, List.count, List.countP_map, List.countP_eq_length_filter]
  rfl

theorem whole_iff_count (valid : ∀ chunk ∈ arrived, Genuine pieces chunk) (distinct : arrived.Nodup) (id : Nat) :
    Whole pieces arrived id ↔
      0 < (pieces id).length ∧ (arrived.map ChunkedData.group).count id = (pieces id).length := by
  have once : (indicesOf arrived id).Nodup := by
    apply (distinct.filter _).map_on
    intro first one second two same
    obtain ⟨firstArrived, firstGroup⟩ := List.mem_filter.mp one
    obtain ⟨secondArrived, secondGroup⟩ := List.mem_filter.mp two
    exact (valid first firstArrived).unique (valid second secondArrived)
      ((beq_iff_eq.mp firstGroup).trans (beq_iff_eq.mp secondGroup).symm) same
  have below : (indicesOf arrived id).toFinset ⊆ Finset.range (pieces id).length := by
    intro index member
    obtain ⟨chunk, present, rfl, rfl⟩ := mem_indicesOf.mp (List.mem_toFinset.mp member)
    exact Finset.mem_range.mpr (valid chunk present).index_lt
  rw [Whole, ← length_indicesOf, ← List.toFinset_card_of_nodup once]
  apply and_congr_right
  intro _
  constructor
  · intro all
    have above : Finset.range (pieces id).length ⊆ (indicesOf arrived id).toFinset := by
      intro index member
      exact List.mem_toFinset.mpr (mem_indicesOf.mpr (all index (Finset.mem_range.mp member)))
    rw [below.antisymm above, Finset.card_range]
  · intro many index inside
    have equal := Finset.eq_of_subset_of_card_le below (by rw [Finset.card_range, many])
    exact mem_indicesOf.mp (List.mem_toFinset.mp (equal ▸ Finset.mem_range.mpr inside))

/-- Which groups are in progress does not depend on the order of their own chunks. -/
theorem inProgress_congr {reordered : List ChunkedData} (valid : ∀ chunk ∈ arrived, Genuine pieces chunk)
    (distinct : arrived.Nodup) (validReordered : ∀ chunk ∈ reordered, Genuine pieces chunk)
    (distinctReordered : reordered.Nodup) (same : reordered.map ChunkedData.group = arrived.map ChunkedData.group)
    (id : Nat) : InProgress pieces reordered id ↔ InProgress pieces arrived id := by
  have arrives : ∀ chunks : List ChunkedData, (∃ chunk ∈ chunks, chunk.group = id) ↔ id ∈ chunks.map ChunkedData.group := by
    simp
  rw [InProgress, InProgress, arrives, arrives, same, whole_iff_count valid distinct,
    whole_iff_count validReordered distinctReordered, same]

theorem atMostTen_reordered {reordered : List ChunkedData} (valid : ∀ chunk ∈ arrived, Genuine pieces chunk)
    (distinct : arrived.Nodup) (validReordered : ∀ chunk ∈ reordered, Genuine pieces chunk)
    (distinctReordered : reordered.Nodup) (same : reordered.map ChunkedData.group = arrived.map ChunkedData.group)
    (few : ∀ before, before <+: arrived → AtMostTen pieces before) :
    ∀ before, before <+: reordered → AtMostTen pieces before := by
  intro before first ids nodup progress
  obtain ⟨rest, rfl⟩ := first
  have earlier := arrived.take_prefix before.length
  have sameGroups : before.map ChunkedData.group = (arrived.take before.length).map ChunkedData.group := by
    rw [List.map_take, ← same, List.map_append, List.take_left' (by simp)]
  refine few _ earlier ids nodup ?_
  intro id member
  rw [← inProgress_congr (fun chunk inside => valid chunk (earlier.subset inside)) (distinct.sublist earlier.sublist)
    (fun chunk inside => validReordered chunk (by simp [inside])) (List.nodup_append.mp distinctReordered).1 sameGroups]
  exact progress id member

/-- What is delivered depends on the chunks that arrive and on the order of their
groups. -/
theorem delivered_congr {chunkSize : Nat} {messages arrivals reordered : List Bytes} (permuted : reordered.Perm arrivals)
    (groups : groupsOf reordered = groupsOf arrivals) :
    delivered chunkSize messages reordered = delivered chunkSize messages arrivals := by
  have whole : ∀ message, arrivesWhole chunkSize reordered message = arrivesWhole chunkSize arrivals message := by
    intro message
    simp only [arrivesWhole, (permuted.filterMap ChunkedData.codec.deserialize).mem_iff]
  simp only [delivered, groups, whole]

theorem partly_iff_inProgress {chunkSize : Nat} (positive : 1 ≤ chunkSize) {messages arrivals : List Bytes}
    (genuine : ∀ chunk ∈ arrivals.filterMap ChunkedData.codec.deserialize, Genuine (piecesOf chunkSize messages) chunk)
    {id : Nat} {data : Bytes} (sent : messages[id]? = some data) :
    arrivesPartly chunkSize arrivals (data, id) = true ↔
      InProgress (piecesOf chunkSize messages) (arrivals.filterMap ChunkedData.codec.deserialize) id := by
  rw [arrivesPartly, Bool.and_eq_true, InProgress, whole_iff_arrivesWhole positive genuine sent, Bool.not_eq_true',
    Bool.not_eq_true, List.any_eq_true]
  apply and_congr_left
  intro _
  simp only [decide_eq_true_eq]
  constructor
  · rintro ⟨chunk, piece, arrival⟩
    exact ⟨chunk, arrival, (mem_chunked piece).1⟩
  · rintro ⟨chunk, arrival, rfl⟩
    exact ⟨chunk, (genuine chunk arrival).mem_chunked sent, arrival⟩

theorem atMostTen_of_partly {chunkSize : Nat} (positive : 1 ≤ chunkSize) {messages arrivals : List Bytes}
    (genuine : ∀ chunk ∈ arrivals.filterMap ChunkedData.codec.deserialize, Genuine (piecesOf chunkSize messages) chunk)
    (few : messages.zipIdx.countP (arrivesPartly chunkSize arrivals) ≤ 10) :
    AtMostTen (piecesOf chunkSize messages) (arrivals.filterMap ChunkedData.codec.deserialize) := by
  intro ids distinct progress
  have positions : ids ⊆ (messages.zipIdx.filter (arrivesPartly chunkSize arrivals)).map Prod.snd := by
    intro id member
    obtain ⟨chunk, arrival, rfl⟩ := (progress id member).1
    have inside := position_inside (Nat.zero_lt_of_lt (genuine chunk arrival).index_lt)
    have sent : messages[chunk.group]? = some messages[chunk.group] := List.getElem?_eq_getElem inside
    refine List.mem_map.mpr ⟨(messages[chunk.group], chunk.group), List.mem_filter.mpr ⟨?_, ?_⟩, rfl⟩
    · exact List.mem_zipIdx_iff_getElem?.mpr sent
    · exact (partly_iff_inProgress positive genuine sent).mpr (progress _ member)
  have bound := (distinct.subperm positions).length_le
  rw [List.length_map, ← List.countP_eq_length_filter] at bound
  exact bound.trans few

theorem delivers_encoded {chunkSize : Nat} (positive : 1 ≤ chunkSize) {messages : List Bytes} {arrived : List ChunkedData}
    (valid : ∀ chunk ∈ arrived, Genuine (piecesOf chunkSize messages) chunk ∧ ChunkedData.codec.Fits chunk)
    (distinct : arrived.Nodup)
    (few : ∀ before, before <+: arrived → AtMostTen (piecesOf chunkSize messages) before) (other : R) (size : Nat) :
    ∃ receiver : Chunker R,
      receiveAll (Chunker.new other size) (arrived.map ChunkedData.codec.encode) = .ok receiver ∧
      receiver.completedChunks = delivered chunkSize messages (arrived.map ChunkedData.codec.encode) := by
  have decoded : (arrived.map ChunkedData.codec.encode).filterMap ChunkedData.codec.deserialize = arrived :=
    filterMap_encoded arrived (fun chunk member => (valid chunk member).2)
  obtain ⟨receiver, done, run, state, completed⟩ := (Reordered.new _ other size).addChunks arrived
    (fun chunk member => (valid chunk member).1) distinct few
  rw [← decoded] at state
  refine ⟨receiver, by rw [receiveAll_encoded _ _ (fun chunk member => (valid chunk member).2), run], ?_⟩
  rw [completed, Chunker.new, List.nil_append]
  apply state.delivers positive
  rw [decoded]
  exact fun chunk member => (valid chunk member).1

/-- Over a delegate that reorders and loses chunks, with at most ten messages in
progress at any time, the messages that are completed are those that arrive whole,
in the order of their last chunks. The order among the chunks of one message makes
no difference. -/
theorem reordered_delivery (net : Bidirectional T) (delegate : T) {chunkSize : Nat} (positive : 1 ≤ chunkSize)
    (messages : List (Chunker.Sendable chunkSize)) (arrivals : List Bytes)
    (subset : arrivals.Subperm (emitted net delegate chunkSize (messages.map Subtype.val)))
    (few : FewInProgress chunkSize (messages.map Subtype.val) arrivals) (other : R) (size : Nat) :
    ∃ receiver : Chunker R, receiveAll (Chunker.new other size) arrivals = .ok receiver ∧
      receiver.completedChunks = delivered chunkSize (messages.map Subtype.val) arrivals ∧
      ∀ reordered : List Bytes, reordered.Perm arrivals → groupsOf reordered = groupsOf arrivals →
        ∃ again : Chunker R, receiveAll (Chunker.new other size) reordered = .ok again ∧
          again.completedChunks = receiver.completedChunks := by
  obtain ⟨chunks, log, genuine, ordered⟩ := emitted_chunks net delegate positive _ (property_of_mem messages)
  have decode : ∀ arrivals, arrivals.Subperm (chunks.map ChunkedData.codec.encode) → ∃ arrived : List ChunkedData,
      arrivals = arrived.map ChunkedData.codec.encode ∧ arrived.Nodup ∧ ∀ chunk ∈ arrived,
        Genuine (piecesOf chunkSize (messages.map Subtype.val)) chunk ∧ ChunkedData.codec.Fits chunk := by
    intro arrivals subset
    obtain ⟨arrived, encoded, fromChunks⟩ := decode_arrivals (fun chunk member => (genuine chunk member).2) subset
    exact ⟨arrived, encoded, nodup_of_subperm fromChunks (Before.nodup ordered),
      fun chunk member => genuine chunk (fromChunks.subset member)⟩
  rw [log] at subset
  obtain ⟨arrived, rfl, distinct, valid⟩ := decode arrivals subset
  have bound : ∀ before, before <+: arrived → AtMostTen (piecesOf chunkSize (messages.map Subtype.val)) before := by
    intro before first
    have fits : ∀ chunk ∈ before, ChunkedData.codec.Fits chunk := fun chunk member => (valid chunk (first.subset member)).2
    have decoded := filterMap_encoded before fits
    rw [← decoded]
    refine atMostTen_of_partly positive ?_ (few _ (first.map _))
    rw [decoded]
    exact fun chunk member => (valid chunk (first.subset member)).1
  obtain ⟨receiver, run, completed⟩ := delivers_encoded positive valid distinct bound other size
  refine ⟨receiver, run, completed, ?_⟩
  intro reordered permuted groups
  obtain ⟨others, rfl, distinctOthers, validOthers⟩ := decode reordered (permuted.subperm.trans subset)
  have same : others.map ChunkedData.group = arrived.map ChunkedData.group := by
    rwa [groupsOf, groupsOf, filterMap_encoded _ (fun chunk member => (validOthers chunk member).2),
      filterMap_encoded _ (fun chunk member => (valid chunk member).2)] at groups
  obtain ⟨again, rerun, recompleted⟩ := delivers_encoded positive validOthers distinctOthers
    (atMostTen_reordered (fun chunk member => (valid chunk member).1) distinct
      (fun chunk member => (validOthers chunk member).1) distinctOthers same bound) other size
  exact ⟨again, rerun, by rw [recompleted, completed, delivered_congr permuted groups]⟩

theorem reordered_delivery_backwards :
    ∃ receiver : Chunker Unit,
      receiveAll (Chunker.new () 3)
        (emitted .queue [] 3 [[1, 2, 3, 4, 5, 6, 7, 8], [9, 10, 11, 12, 13, 14, 15, 16]]).reverse = .ok receiver ∧
      receiver.completedChunks = [[9, 10, 11, 12, 13, 14, 15, 16], [1, 2, 3, 4, 5, 6, 7, 8]] := by
  obtain ⟨receiver, run, completed, -⟩ := reordered_delivery .queue [] (by decide : 1 ≤ 3)
    [⟨[1, 2, 3, 4, 5, 6, 7, 8], by decide⟩, ⟨[9, 10, 11, 12, 13, 14, 15, 16], by decide⟩] _ (List.reverse_perm _).subperm
    (fun before _ => List.countP_le_length.trans (by decide)) () 3
  exact ⟨receiver, run, completed.trans (by decide)⟩

end Veq.Assembly
