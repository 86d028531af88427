import Veq.Proofs.Assembly
import Mathlib.Data.List.Perm.Subperm
import Mathlib.Data.List.Pairwise

/-! A sending chunker emits genuine chunks, each one once, in the order of their
groups and indices. Whatever the network makes of them short of duplication, the
receiving chunker rebuilds only messages that were sent. -/

namespace Veq.Assembly
open Rust Bincode

variable {T R : Type}

def piecesOf (chunkSize : Nat) (messages : List Bytes) (id : Nat) : List Bytes :=
  ((messages[id]?).map (chunks chunkSize)).getD []

theorem message_piecesOf {chunkSize : Nat} (positive : 1 ≤ chunkSize) (messages : List Bytes) {id : Nat}
    (inside : id < messages.length) : message (piecesOf chunkSize messages) id = messages[id] := by
  simp [message, piecesOf, List.getElem?_eq_getElem inside, flatten_chunks positive]

theorem position_inside {chunkSize : Nat} {messages : List Bytes} {id : Nat}
    (nonempty : 0 < (piecesOf chunkSize messages id).length) : id < messages.length := by
  by_contra outside
  simp [piecesOf, List.getElem?_eq_none (Nat.not_lt.mp outside)] at nonempty

/-- The order in which chunks are emitted. -/
def Before (first second : ChunkedData) : Prop :=
  first.group < second.group ∨ first.group = second.group ∧ first.index < second.index

theorem Before.nodup {emitted : List ChunkedData} (ordered : emitted.Pairwise Before) : emitted.Nodup := by
  apply ordered.imp
  rintro first second (earlier | earlier) rfl
  · exact Nat.lt_irrefl _ earlier
  · exact Nat.lt_irrefl _ earlier.2

theorem mem_chunked {group chunkSize : Nat} {data : Bytes} {chunk : ChunkedData}
    (member : chunk ∈ Chunker.chunked group chunkSize data) :
    chunk.group = group ∧ chunk.groupLength = (chunks chunkSize data).length ∧
      (chunks chunkSize data)[chunk.index]? = some chunk.data := by
  obtain ⟨index, inside, rfl⟩ := List.mem_mapIdx.mp member
  exact ⟨rfl, rfl, List.getElem?_eq_getElem inside⟩

theorem chunked_ordered (group chunkSize : Nat) (data : Bytes) :
    (Chunker.chunked group chunkSize data).Pairwise Before := by
  rw [List.pairwise_iff_getElem]
  intro first second firstInside secondInside earlier
  simpa [Chunker.chunked, Before] using earlier

theorem chunked_fits {group chunkSize : Nat} (positive : 1 ≤ chunkSize) {data : Bytes} (bounded : data.length < 2 ^ 63)
    (small : group < 2 ^ 64) {chunk : ChunkedData} (member : chunk ∈ Chunker.chunked group chunkSize data) :
    ChunkedData.codec.Fits chunk := by
  obtain ⟨rfl, groupLength, piece⟩ := mem_chunked member
  have count := length_chunks_le positive data
  have index := (List.getElem?_eq_some_iff.mp piece).1
  have length : chunk.data.length ≤ data.length := by
    have sublist := List.sublist_flatten_of_mem (List.mem_of_getElem? piece)
    rw [flatten_chunks positive] at sublist
    exact sublist.length_le
  exact ChunkedData.fits small (by omega) (by omega) (by omega)

theorem few_pieces {data : Bytes} (bounded : data.length < 2 ^ 63) :
    (chunks 4096 data).length ≤ ChunkGroup.maxSlots := by
  rw [length_chunks, ChunkGroup.maxSlots]
  omega

theorem chunked_genuine {chunkSize : Nat} {messages : List Bytes} {id : Nat} {data : Bytes}
    (sent : messages[id]? = some data) (few : (chunks chunkSize data).length ≤ ChunkGroup.maxSlots) {chunk : ChunkedData}
    (member : chunk ∈ Chunker.chunked id chunkSize data) : Genuine (piecesOf chunkSize messages) chunk := by
  obtain ⟨rfl, groupLength, piece⟩ := mem_chunked member
  have pieces : piecesOf chunkSize messages chunk.group = chunks chunkSize data := by simp [piecesOf, sent]
  exact ⟨by rw [pieces, groupLength], by rw [pieces, piece], groupLength ▸ few⟩

theorem Genuine.mem_chunked {chunkSize : Nat} {messages : List Bytes} {chunk : ChunkedData} {data : Bytes}
    (genuine : Genuine (piecesOf chunkSize messages) chunk) (sent : messages[chunk.group]? = some data) :
    chunk ∈ Chunker.chunked chunk.group chunkSize data := by
  have pieces : piecesOf chunkSize messages chunk.group = chunks chunkSize data := by simp [piecesOf, sent]
  obtain ⟨groupLength, piece, -⟩ := genuine
  rw [pieces] at groupLength piece
  obtain ⟨inside, same⟩ := List.getElem?_eq_some_iff.mp piece
  refine List.mem_mapIdx.mpr ⟨chunk.index, inside, ?_⟩
  rw [same, ← groupLength]

theorem prepare_cases (chunker : Chunker T) (data : Bytes) (positive : 1 ≤ chunker.chunkSize) :
    (chunker.prepare data = .error .overflow ∧ 2 ^ 64 ≤ chunker.currentGroup + 1) ∨
    (chunker.prepare data = .ok ({ chunker with currentGroup := chunker.currentGroup + 1 },
        (Chunker.chunked chunker.currentGroup chunker.chunkSize data).map ChunkedData.codec.encode) ∧
      chunker.currentGroup + 1 < 2 ^ 64) := by
  have nonzero : chunker.chunkSize ≠ 0 := by omega
  by_cases room : chunker.currentGroup + 1 < 2 ^ 64
  · refine .inr ⟨?_, room⟩
    simp only [Chunker.prepare, nonzero, addU64, room, ↓reduceIte, bind, Except.bind, pure, Except.pure]
  · refine .inl ⟨?_, by omega⟩
    simp only [Chunker.prepare, nonzero, addU64, room, ↓reduceIte, bind, Except.bind]

/-- A delegate that also records what it is asked to send. -/
def tap (net : Bidirectional T) : Bidirectional (T × List Bytes) where
  send state data := (((net.send state.1 data).1, state.2 ++ [data]), (net.send state.1 data).2)
  recv state := do
    let (inner, received) ← net.recv state.1
    return ((inner, state.2), received)

def sendEach (net : Bidirectional T) : Chunker T → List Bytes → Chunker T
  | chunker, [] => chunker
  | chunker, data :: rest =>
    match chunker.send net data with
    | .ok (chunker, _) => sendEach net chunker rest
    | .error _ => sendEach net chunker rest

def emitted (net : Bidirectional T) (delegate : T) (chunkSize : Nat) (messages : List Bytes) : List Bytes :=
  (sendEach (tap net) (Chunker.new (delegate, []) chunkSize) messages).delegate.2

theorem transmit_tap (net : Bidirectional T) (state : T × List Bytes) (data : List Bytes) :
    ∃ count, (Chunker.transmit (tap net) state data).1.2 = state.2 ++ data.take count := by
  induction data generalizing state with
  | nil => exact ⟨0, by simp [Chunker.transmit]⟩
  | cons item data ih =>
    unfold Chunker.transmit
    cases sent : (net.send state.1 item).2 with
    | ok _ =>
      obtain ⟨count, logged⟩ := ih ((net.send state.1 item).1, state.2 ++ [item])
      exact ⟨count + 1, by simpa [tap, sent] using logged⟩
    | error _ => exact ⟨1, by simp [tap, sent]⟩

theorem send_tap (net : Bidirectional T) (chunker : Chunker (T × List Bytes)) (data : Bytes)
    (positive : 1 ≤ chunker.chunkSize) :
    (∃ panic, chunker.send (tap net) data = .error panic ∧ 2 ^ 64 ≤ chunker.currentGroup + 1) ∨
    ∃ next result count, chunker.send (tap net) data = .ok (next, result) ∧
      next.currentGroup = chunker.currentGroup + 1 ∧ next.currentGroup < 2 ^ 64 ∧
      next.chunkSize = chunker.chunkSize ∧
      next.delegate.2 = chunker.delegate.2 ++
        ((Chunker.chunked chunker.currentGroup chunker.chunkSize data).take count).map ChunkedData.codec.encode := by
  rcases prepare_cases chunker data positive with ⟨failed, full⟩ | ⟨prepared, room⟩
  · exact .inl ⟨.overflow, by simp only [Chunker.send, failed, bind, Except.bind], full⟩
  · obtain ⟨count, logged⟩ := transmit_tap net chunker.delegate
      ((Chunker.chunked chunker.currentGroup chunker.chunkSize data).map ChunkedData.codec.encode)
    let sent := Chunker.transmit (tap net) chunker.delegate
      ((Chunker.chunked chunker.currentGroup chunker.chunkSize data).map ChunkedData.codec.encode)
    refine .inr ⟨{ chunker with currentGroup := chunker.currentGroup + 1, delegate := sent.1 }, sent.2, count, ?_, rfl, room,
      rfl, by rw [List.map_take]; exact logged⟩
    simp only [Chunker.send, prepared, bind, Except.bind, pure, Except.pure, sent]

private theorem sendEach_emits (net : Bidirectional T) (rest sent : List Bytes) (chunker : Chunker (T × List Bytes))
    (positive : 1 ≤ chunker.chunkSize) (bounded : ∀ data ∈ rest, data.length < 2 ^ 63 ∧ (chunks chunker.chunkSize data).length ≤ ChunkGroup.maxSlots)
    (aligned : chunker.currentGroup = sent.length ∨ 2 ^ 64 ≤ chunker.currentGroup + 1) :
    ∃ chunks : List ChunkedData,
      (sendEach (tap net) chunker rest).delegate.2 = chunker.delegate.2 ++ chunks.map ChunkedData.codec.encode ∧
      (∀ chunk ∈ chunks, Genuine (piecesOf chunker.chunkSize (sent ++ rest)) chunk ∧
        ChunkedData.codec.Fits chunk ∧ chunker.currentGroup ≤ chunk.group) ∧
      chunks.Pairwise Before := by
  induction rest generalizing sent chunker with
  | nil => exact ⟨[], by simp [sendEach], by simp, .nil⟩
  | cons data rest ih =>
    have later : ∀ data ∈ rest, data.length < 2 ^ 63 ∧ (chunks chunker.chunkSize data).length ≤ ChunkGroup.maxSlots := fun other member =>
      bounded other (by simp [member])
    rcases send_tap net chunker data positive with
      ⟨panic, failed, full⟩ | ⟨next, result, count, succeeded, group, small, size, logged⟩
    · obtain ⟨chunks, log, genuine, ordered⟩ := ih (sent ++ [data]) chunker positive later (.inr full)
      exact ⟨chunks, by simpa [sendEach, failed] using log, by simpa using genuine, ordered⟩
    · have position : chunker.currentGroup = sent.length := aligned.resolve_right (by omega)
      obtain ⟨chunks, log, genuine, ordered⟩ := ih (sent ++ [data]) next (by omega) (size ▸ later)
        (.inl (by simp [group, position]))
      have first : ∀ chunk ∈ (Chunker.chunked chunker.currentGroup chunker.chunkSize data).take count,
          chunk ∈ Chunker.chunked chunker.currentGroup chunker.chunkSize data := fun chunk member =>
        List.mem_of_mem_take member
      refine ⟨(Chunker.chunked chunker.currentGroup chunker.chunkSize data).take count ++ chunks, ?_, ?_, ?_⟩
      · simp [sendEach, succeeded, log, logged]
      · intro chunk member
        rcases List.mem_append.mp member with member | member
        · have stored : (sent ++ data :: rest)[chunker.currentGroup]? = some data := by simp [position]
          exact ⟨chunked_genuine stored (bounded data (by simp)).2 (first chunk member),
            chunked_fits positive (bounded data (by simp)).1 (by omega) (first chunk member),
            Nat.le_of_eq (mem_chunked (first chunk member)).1.symm⟩
        · obtain ⟨valid, fits, above⟩ := genuine chunk member
          exact ⟨by simpa [size] using valid, fits, by omega⟩
      · refine List.pairwise_append.mpr ⟨(chunked_ordered _ _ _).sublist (List.take_sublist _ _), ordered, ?_⟩
        intro earlier member other following
        have := (mem_chunked (first earlier member)).1
        have := (genuine other following).2.2
        exact .inl (by omega)

/-- What the delegate was handed, decoded: genuine chunks in emission order. -/
theorem emitted_chunks (net : Bidirectional T) (delegate : T) {chunkSize : Nat} (positive : 1 ≤ chunkSize)
    (messages : List Bytes) (bounded : ∀ data ∈ messages, data.length < 2 ^ 63 ∧ (chunks chunkSize data).length ≤ ChunkGroup.maxSlots) :
    ∃ chunks : List ChunkedData, emitted net delegate chunkSize messages = chunks.map ChunkedData.codec.encode ∧
      (∀ chunk ∈ chunks, Genuine (piecesOf chunkSize messages) chunk ∧ ChunkedData.codec.Fits chunk) ∧
      chunks.Pairwise Before := by
  obtain ⟨chunks, log, genuine, ordered⟩ := sendEach_emits net messages [] (Chunker.new (delegate, []) chunkSize)
    positive bounded (.inl rfl)
  refine ⟨chunks, by simpa [emitted, Chunker.new] using log, ?_, ordered⟩
  exact fun chunk member => ⟨(genuine chunk member).1, (genuine chunk member).2.1⟩

def receiveAll (chunker : Chunker R) (arrivals : List Bytes) : Except Panic (Chunker R) :=
  arrivals.foldlM Chunker.receive chunker

theorem receiveAll_encoded (chunker : Chunker R) (chunks : List ChunkedData)
    (fits : ∀ chunk ∈ chunks, ChunkedData.codec.Fits chunk) :
    receiveAll chunker (chunks.map ChunkedData.codec.encode) = chunks.foldlM Chunker.addChunk chunker := by
  induction chunks generalizing chunker with
  | nil => rfl
  | cons chunk chunks ih =>
    have decoded := ChunkedData.codec.deserialize_encode (fits chunk (by simp))
    have rest := fun next => ih next (fun other member => fits other (by simp [member]))
    simp only [receiveAll, List.map_cons, List.foldlM_cons] at rest ⊢
    rw [show Chunker.receive chunker (ChunkedData.codec.encode chunk) = chunker.addChunk chunk by
      simp [Chunker.receive, decoded]]
    exact congrArg _ (funext rest)

theorem filterMap_encoded (chunks : List ChunkedData) (fits : ∀ chunk ∈ chunks, ChunkedData.codec.Fits chunk) :
    (chunks.map ChunkedData.codec.encode).filterMap ChunkedData.codec.deserialize = chunks := by
  induction chunks with
  | nil => rfl
  | cons chunk chunks ih =>
    rw [List.map_cons, List.filterMap_cons_some (ChunkedData.codec.deserialize_encode (fits chunk (by simp))),
      ih (fun other member => fits other (by simp [member]))]

theorem decode_arrivals {chunks : List ChunkedData} {arrivals : List Bytes}
    (fits : ∀ chunk ∈ chunks, ChunkedData.codec.Fits chunk)
    (delivered : arrivals.Subperm (chunks.map ChunkedData.codec.encode)) :
    ∃ arrived : List ChunkedData, arrivals = arrived.map ChunkedData.codec.encode ∧ arrived.Subperm chunks := by
  have each : ∀ bytes ∈ arrivals, ∃ chunk ∈ chunks, ChunkedData.codec.encode chunk = bytes := fun bytes member =>
    List.mem_map.mp (delivered.subset member)
  refine ⟨arrivals.filterMap ChunkedData.codec.deserialize, ?_, ?_⟩
  · clear delivered
    induction arrivals with
    | nil => rfl
    | cons bytes arrivals ih =>
      obtain ⟨chunk, member, rfl⟩ := each bytes (by simp)
      rw [List.filterMap_cons_some (ChunkedData.codec.deserialize_encode (fits chunk member)), List.map_cons,
        ← ih (fun bytes member => each bytes (by simp [member]))]
  · obtain ⟨reordered, permuted, sublist⟩ := delivered
    have kept := sublist.filterMap ChunkedData.codec.deserialize
    rw [filterMap_encoded chunks fits] at kept
    exact ⟨_, permuted.filterMap ChunkedData.codec.deserialize, kept⟩

theorem nodup_of_subperm {arrived chunks : List ChunkedData} (partArrived : arrived.Subperm chunks)
    (distinct : chunks.Nodup) : arrived.Nodup := by
  obtain ⟨reordered, permuted, sublist⟩ := partArrived
  exact permuted.nodup_iff.mp (distinct.sublist sublist)

/-- However the emitted packets are reordered and lost, as long as none arrives
twice the receiving chunker does not panic, completes only messages that were
sent, none of them twice, and never keeps more than ten groups. -/
theorem reassembly_safe (net : Bidirectional T) (delegate : T) {chunkSize : Nat} (positive : 1 ≤ chunkSize)
    (messages : List (Chunker.Sendable chunkSize)) (arrivals : List Bytes)
    (delivered : arrivals.Subperm (emitted net delegate chunkSize (messages.map Subtype.val)))
    (other : R) (size : Nat) (count : Nat) :
    ∃ (receiver : Chunker R) (done : List Nat),
      receiveAll (Chunker.new other size) (arrivals.take count) = .ok receiver ∧
      done.Nodup ∧ receiver.completedChunks.map some = done.map (fun position => (messages[position]?).map Subtype.val) ∧
      receiver.chunkGroups.size ≤ 10 := by
  obtain ⟨chunks, log, genuine, ordered⟩ := emitted_chunks net delegate positive _ (property_of_mem messages)
  have partArrived := (List.take_sublist count arrivals).subperm.trans delivered
  rw [log] at partArrived
  obtain ⟨arrived, encoded, fromChunks⟩ := decode_arrivals (fun chunk member => (genuine chunk member).2) partArrived
  have valid : ∀ chunk ∈ arrived, Genuine (piecesOf chunkSize (messages.map Subtype.val)) chunk :=
    fun chunk member => (genuine chunk (fromChunks.subset member)).1
  have distinct : arrived.Nodup := nodup_of_subperm fromChunks (Before.nodup ordered)
  obtain ⟨receiver, done, run, state, completed⟩ := (Assembling.new _ other size).addChunks arrived valid distinct
  refine ⟨receiver, done, ?_, state.nodup, ?_, state.few⟩
  · rw [encoded, receiveAll_encoded _ _ (fun chunk member => (genuine chunk (fromChunks.subset member)).2), run]
  · rw [completed]
    simp only [Chunker.new, List.nil_append, List.map_map]
    apply List.map_congr_left
    intro position member
    have inside := position_inside (state.whole position member).1
    have content := message_piecesOf positive _ inside
    simpa [List.getElem?_eq_getElem (by simpa using inside : position < messages.length)] using content

theorem reassembly_safe_reversed :
    ∃ (receiver : Chunker Unit) (done : List Nat),
      receiveAll (Chunker.new () 3) ((emitted .queue [] 3 [[1, 2, 3, 4, 5, 6, 7, 8], [9]]).reverse.take 4) = .ok receiver ∧
      done.Nodup ∧ receiver.completedChunks.map some =
        done.map (fun position => (([⟨[1, 2, 3, 4, 5, 6, 7, 8], by decide⟩, ⟨[9], by decide⟩] : List (Chunker.Sendable 3))[position]?).map
          Subtype.val) ∧
      receiver.chunkGroups.size ≤ 10 :=
  reassembly_safe .queue [] (by decide) [⟨[1, 2, 3, 4, 5, 6, 7, 8], by decide⟩, ⟨[9], by decide⟩] _
    (List.reverse_perm _).subperm () 3 4

end Veq.Assembly
