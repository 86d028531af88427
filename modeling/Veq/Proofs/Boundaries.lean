import Veq.Proofs.InOrder
import Veq.Proofs.PeerInput

/-! Messages that go through a queue which loses nothing and keeps the order. What
`recv` returns are the messages that the arrivals complete, one for each call, and
an empty message has no chunk that could complete it. -/

namespace Veq.Boundaries
open Rust Bincode Assembly PeerInput

variable {T : Type}

def sendAll (net : Bidirectional T) : Chunker T → List Bytes → Except Panic (Chunker T × List (Except VeqError Unit))
  | chunker, [] => .ok (chunker, [])
  | chunker, data :: rest => do
    let (chunker, result) ← chunker.send net data
    let (chunker, results) ← sendAll net chunker rest
    return (chunker, result :: results)

/-- The chunks of messages that are sent in turn, the first one as `group`. -/
def cut (chunkSize group : Nat) (messages : List Bytes) : List ChunkedData :=
  (messages.zipIdx group).flatMap fun message => Chunker.chunked message.2 chunkSize message.1

private theorem transmit_queue (delegate data : List Bytes) :
    Chunker.transmit .queue delegate data = (delegate ++ data, .ok ()) := by
  induction data generalizing delegate with
  | nil => simp [Chunker.transmit]
  | cons item data ih =>
    rw [Chunker.transmit]
    simpa [Bidirectional.queue] using ih (delegate ++ [item])

theorem sendAll_queue (messages : List Bytes) (chunker : Chunker (List Bytes)) (positive : 1 ≤ chunker.chunkSize)
    (room : chunker.currentGroup + messages.length < 2 ^ 64) :
    ∃ sender, sendAll .queue chunker messages = .ok (sender, messages.map fun _ => .ok ()) ∧
      sender.delegate = chunker.delegate ++
        (cut chunker.chunkSize chunker.currentGroup messages).map ChunkedData.codec.encode := by
  induction messages generalizing chunker with
  | nil => exact ⟨chunker, rfl, by simp [cut]⟩
  | cons data messages ih =>
    rw [List.length_cons] at room
    rcases prepare_cases chunker data positive with ⟨-, full⟩ | ⟨prepared, -⟩
    · omega
    · let next : Chunker (List Bytes) := { chunker with
        currentGroup := chunker.currentGroup + 1
        delegate := chunker.delegate ++
          (Chunker.chunked chunker.currentGroup chunker.chunkSize data).map ChunkedData.codec.encode }
      have sent : chunker.send .queue data = .ok (next, .ok ()) := by
        simp only [Chunker.send, prepared, transmit_queue, bind, Except.bind, pure, Except.pure, next]
      obtain ⟨sender, run, delegate⟩ := ih next positive (by simp only [next]; omega)
      refine ⟨sender, ?_, ?_⟩
      · simp [sendAll, sent, run, bind, Except.bind, pure, Except.pure]
      · simp [delegate, next, cut, List.zipIdx_cons]

/-- There are only so many group ids. -/
theorem sendAll_overflow (messages : List Bytes) (chunker : Chunker (List Bytes)) (positive : 1 ≤ chunker.chunkSize)
    (valid : chunker.currentGroup < 2 ^ 64) (many : 2 ^ 64 ≤ chunker.currentGroup + messages.length) :
    ∃ panic, sendAll .queue chunker messages = .error panic := by
  induction messages generalizing chunker with
  | nil => simp only [List.length_nil] at many; omega
  | cons data messages ih =>
    rw [List.length_cons] at many
    rcases prepare_cases chunker data positive with ⟨failed, -⟩ | ⟨prepared, room⟩
    · exact ⟨.overflow, by simp [sendAll, Chunker.send, failed, bind, Except.bind]⟩
    · let sent := Chunker.transmit .queue chunker.delegate
        ((Chunker.chunked chunker.currentGroup chunker.chunkSize data).map ChunkedData.codec.encode)
      obtain ⟨panic, failed⟩ := ih { chunker with currentGroup := chunker.currentGroup + 1, delegate := sent.1 } positive
        room (by simp only; omega)
      refine ⟨panic, ?_⟩
      simp only [sent] at failed
      simp [sendAll, Chunker.send, prepared, failed, bind, Except.bind, pure, Except.pure]

theorem mem_cut {chunkSize : Nat} {messages : List Bytes} {chunk : ChunkedData} :
    chunk ∈ cut chunkSize 0 messages ↔
      ∃ id data, messages[id]? = some data ∧ chunk ∈ Chunker.chunked id chunkSize data := by
  simp only [cut, List.mem_flatMap, List.mem_zipIdx_iff_getElem?, Prod.exists]
  exact exists_comm

theorem cut_ordered (chunkSize : Nat) (messages : List Bytes) : (cut chunkSize 0 messages).Pairwise Before := by
  refine List.pairwise_flatMap.mpr ⟨fun message _ => chunked_ordered _ _ _, ?_⟩
  have positions : (messages.zipIdx.map Prod.snd).Pairwise (· < ·) := by
    rw [List.zipIdx_map_snd]
    exact List.pairwise_lt_range'
  refine (List.pairwise_map.mp positions).imp ?_
  intro earlier later before first one second two
  exact .inl ((mem_chunked one).1 ▸ (mem_chunked two).1 ▸ before)

theorem whole_cut {chunkSize : Nat} (positive : 1 ≤ chunkSize) {messages : List Bytes} {id : Nat} {data : Bytes}
    (sent : messages[id]? = some data) :
    Whole (piecesOf chunkSize messages) (cut chunkSize 0 messages) id ↔ data ≠ [] := by
  have pieces : piecesOf chunkSize messages id = chunks chunkSize data := by simp [piecesOf, sent]
  rw [← chunks_positive positive, Whole, pieces, and_iff_left_iff_imp]
  intro nonempty index inside
  refine ⟨⟨id, index, (chunks chunkSize data).length, (chunks chunkSize data)[index]⟩, ?_, rfl, rfl⟩
  exact mem_cut.mpr ⟨id, data, sent, List.mem_mapIdx.mpr ⟨index, inside, rfl⟩⟩

theorem receive_cut {chunkSize : Nat} (positive : 1 ≤ chunkSize) {messages : List Bytes}
    (bounded : ∀ data ∈ messages, data.length < 2 ^ 63 ∧ (chunks chunkSize data).length ≤ ChunkGroup.maxSlots)
    (few : messages.length < 2 ^ 64) (delegate : T) (size : Nat) :
    ∃ receiver, receiveAll (Chunker.new delegate size) ((cut chunkSize 0 messages).map ChunkedData.codec.encode) =
        .ok receiver ∧
      receiver.completedChunks = messages.filter (· ≠ []) := by
  have fits : ∀ chunk ∈ cut chunkSize 0 messages, ChunkedData.codec.Fits chunk := by
    intro chunk member
    obtain ⟨id, data, sent, piece⟩ := mem_cut.mp member
    have inside := (List.getElem?_eq_some_iff.mp sent).1
    exact chunked_fits positive (bounded data (List.mem_of_getElem? sent)).1 (by omega) piece
  have genuine : ∀ chunk ∈ cut chunkSize 0 messages, Genuine (piecesOf chunkSize messages) chunk := by
    intro chunk member
    obtain ⟨id, data, sent, piece⟩ := mem_cut.mp member
    exact chunked_genuine sent (bounded data (List.mem_of_getElem? sent)).2 piece
  obtain ⟨receiver, done, run, state, completed⟩ := (InOrder.new _ delegate size).addChunks _ genuine
    (cut_ordered chunkSize messages)
  let complete : Bytes × Nat → Bool := fun message => decide (message.1 ≠ [])
  have whole : ∀ id data, messages[id]? = some data →
      (Whole (piecesOf chunkSize messages) (cut chunkSize 0 messages) id ↔ complete (data, id) = true) := by
    intro id data sent
    rw [whole_cut positive sent, decide_eq_true_eq]
  have kept : (messages.zipIdx.filter complete).map Prod.fst = messages.filter (· ≠ []) := by
    conv_rhs => rw [← List.zipIdx_map_fst 0 messages, List.filter_map]
    rfl
  refine ⟨receiver, by rw [receiveAll_encoded _ _ fits, run], ?_⟩
  rw [completed, Chunker.new, List.nil_append, state.completed_eq positive whole, kept]

/-- What a chunker with these groups completes on these arrivals. -/
def Yields (groups : Std.TreeMap Nat ChunkGroup) : List Bytes → List Bytes → Prop
  | [], outputs => outputs = []
  | bytes :: rest, outputs => ∃ after more others,
      (∀ {T : Type} (chunker : Chunker T), chunker.chunkGroups = groups → chunker.receive bytes = .ok { chunker with
        chunkGroups := after
        completedChunks := chunker.completedChunks ++ more }) ∧
      outputs = more ++ others ∧ Yields after rest others

theorem yields_of_receiveAll {handed : List Bytes} {chunker final : Chunker T}
    (received : receiveAll chunker handed = .ok final) :
    ∃ outputs, final.completedChunks = chunker.completedChunks ++ outputs ∧ Yields chunker.chunkGroups handed outputs := by
  induction handed generalizing chunker with
  | nil =>
    cases received
    exact ⟨[], by simp, rfl⟩
  | cons bytes rest ih =>
    obtain ⟨middle, first, run⟩ := bind_ok.mp received
    have harmless : Harmless chunker.chunkGroups bytes := by
      by_contra harmful
      obtain ⟨panic, failed⟩ := receive_harmful harmful
      cases failed.symm.trans first
    obtain ⟨after, more, -, receives⟩ := receive_harmless harmless
    cases (receives chunker rfl).symm.trans first
    obtain ⟨others, completed, yields⟩ := ih run
    exact ⟨more ++ others, by simpa using completed, after, more, others, receives, rfl, yields⟩

theorem recv_queue {chunker : Chunker (List Bytes)} {outputs : List Bytes}
    (yields : Yields chunker.chunkGroups chunker.delegate outputs) {fuel : Nat} (enough : chunker.delegate.length < fuel) :
    (chunker.completedChunks ++ outputs = [] ∧ chunker.recv .queue fuel = .error .unwrap) ∨
    ∃ next later after rest, chunker.completedChunks ++ outputs = next :: later ∧
      chunker.recv .queue fuel = .ok (after, some (.ready (.ok next))) ∧
      Yields after.chunkGroups after.delegate rest ∧ after.completedChunks ++ rest = later ∧
      after.delegate.length ≤ chunker.delegate.length := by
  induction fuel generalizing chunker outputs with
  | zero => omega
  | succ fuel ih =>
    cases completed : chunker.completedChunks with
    | cons ready waiting =>
      refine .inr ⟨ready, waiting ++ outputs, _, outputs, rfl, recv_returns (recvStep_ready completed) fuel, yields, rfl, ?_⟩
      exact Nat.le_refl _
    | nil =>
      cases delegate : chunker.delegate with
      | nil =>
        rw [delegate] at yields
        refine .inl ⟨yields, ?_⟩
        simp [Chunker.recv, Chunker.recvStep, Chunker.nextReadyChunk, completed, delegate, Bidirectional.queue, bind,
          Except.bind]
      | cons bytes rest =>
        rw [delegate] at yields enough
        obtain ⟨after, more, others, receives, rfl, later⟩ := yields
        have handed : Bidirectional.queue.recv chunker.delegate = .ok (rest, .ready (.ok bytes)) := by
          rw [delegate]
          rfl
        have step : chunker.recvStep .queue =
            .ok ({ chunker with delegate := rest, chunkGroups := after, completedChunks := more }, none) := by
          rw [recvStep_receive completed handed, receives { chunker with delegate := rest } rfl]
          simp [completed, bind, Except.bind, pure, Except.pure]
        rw [recv_continues step, List.nil_append]
        have shorter : rest.length < fuel := by simpa using enough
        rcases ih (show Yields { chunker with delegate := rest, chunkGroups := after, completedChunks := more }.chunkGroups
          rest others from later) shorter with none | ⟨next, following, final, last, some, run, remaining, tail, length⟩
        · exact .inl none
        · exact .inr ⟨next, following, final, last, some, run, remaining, tail, length.trans (by simp)⟩

theorem recvCalls_queue (calls : Nat) {chunker : Chunker (List Bytes)} {outputs messages : List Bytes}
    (yields : Yields chunker.chunkGroups chunker.delegate outputs) (all : chunker.completedChunks ++ outputs = messages)
    {fuel : Nat} (enough : chunker.delegate.length < fuel) :
    (messages.length < calls ∧ recvCalls .queue fuel calls chunker = .error .unwrap) ∨
    (calls ≤ messages.length ∧ ∃ receiver, recvCalls .queue fuel calls chunker =
      .ok (receiver, (messages.take calls).map fun data => some (.ready (.ok data)))) := by
  induction calls generalizing chunker outputs messages with
  | zero => exact .inr ⟨Nat.zero_le _, chunker, by simp [recvCalls]⟩
  | succ calls ih =>
    rcases recv_queue yields enough with ⟨none, starved⟩ | ⟨next, later, after, rest, some, called, remaining, tail, length⟩
    · refine .inl ⟨by simp [← all, none], ?_⟩
      simp [recvCalls, starved, bind, Except.bind]
    · obtain rfl : messages = next :: later := all.symm.trans some
      rcases ih remaining tail (by omega) with ⟨few, panics⟩ | ⟨many, receiver, run⟩
      · refine .inl ⟨by simpa using few, ?_⟩
        simp [recvCalls, called, panics, bind, Except.bind]
      · refine .inr ⟨by simpa using many, receiver, ?_⟩
        simp [recvCalls, called, run, bind, Except.bind, pure, Except.pure]

def Preserved (chunkSize size : Nat) (messages : List Bytes) : Prop :=
  ∃ sender, sendAll .queue (Chunker.new [] chunkSize) messages = .ok (sender, messages.map fun _ => .ok ()) ∧
    ∀ fuel, sender.delegate.length < fuel → ∃ receiver,
      recvCalls .queue fuel messages.length (Chunker.new sender.delegate size) =
        .ok (receiver, messages.map fun data => some (.ready (.ok data)))

/-- A queue preserves the boundaries of messages exactly when none of them is empty
and there is a group id for each. -/
theorem boundaries_iff {chunkSize : Nat} (positive : 1 ≤ chunkSize) (size : Nat) (messages : List (Chunker.Sendable chunkSize)) :
    Preserved chunkSize size (messages.map Subtype.val) ↔
      (∀ data ∈ messages, data.val ≠ []) ∧ messages.length < 2 ^ 64 := by
  by_cases few : messages.length < 2 ^ 64
  · obtain ⟨sender, sent, delegate⟩ := sendAll_queue (messages.map Subtype.val) (Chunker.new [] chunkSize) positive
      (by simpa [Chunker.new] using few)
    obtain ⟨final, received, completed⟩ := receive_cut positive (property_of_mem messages) (by simpa using few) sender.delegate size
    simp only [Chunker.new, List.nil_append] at delegate
    rw [← delegate] at received
    obtain ⟨outputs, total, yields⟩ := yields_of_receiveAll received
    have calls := fun fuel (enough : sender.delegate.length < fuel) =>
      recvCalls_queue (messages.map Subtype.val).length yields (total.symm.trans completed) enough
    constructor
    · rintro ⟨other, same, receives⟩
      cases sent.symm.trans same
      obtain ⟨receiver, run⟩ := receives _ (Nat.lt_succ_self _)
      rcases calls _ (Nat.lt_succ_self _) with ⟨-, panics⟩ | ⟨enough, -⟩
      · cases panics.symm.trans run
      · have whole := List.filter_sublist.eq_of_length_le enough
        refine ⟨?_, few⟩
        intro data member
        have nonempty := List.filter_eq_self.mp whole data.val (List.mem_map_of_mem member)
        simpa using nonempty
    · rintro ⟨nonempty, -⟩
      have whole : (messages.map Subtype.val).filter (· ≠ []) = messages.map Subtype.val := by
        rw [List.filter_eq_self]
        intro data member
        obtain ⟨vector, present, rfl⟩ := List.mem_map.mp member
        simpa using nonempty vector present
      refine ⟨sender, sent, ?_⟩
      intro fuel enough
      rcases calls fuel enough with ⟨missing, -⟩ | ⟨-, receiver, run⟩
      · rw [whole] at missing
        omega
      · rw [whole, List.take_length] at run
        exact ⟨receiver, run⟩
  · obtain ⟨panic, failed⟩ := sendAll_overflow (messages.map Subtype.val) (Chunker.new [] chunkSize) positive
      (by simp [Chunker.new]) (by simp only [Chunker.new, List.length_map]; omega)
    refine iff_of_false ?_ (fun promised => few promised.2)
    rintro ⟨sender, sent, -⟩
    cases failed.symm.trans sent

theorem boundaries_uneven : Preserved 3 3 [[1, 2, 3, 4, 5, 6, 7, 8], [9], [10, 11, 12]] :=
  (boundaries_iff (by decide) 3 [⟨[1, 2, 3, 4, 5, 6, 7, 8], by decide⟩, ⟨[9], by decide⟩, ⟨[10, 11, 12], by decide⟩]).mpr
    (by decide)

/-- After an empty message, the second call of `recv` asks an empty queue. -/
theorem empty_message_starves :
    (∃ sender, sendAll .queue (Chunker.new [] 3) [[1], []] = .ok (sender, [.ok (), .ok ()]) ∧
      recvCalls .queue 2 2 (Chunker.new sender.delegate 3) = .error .unwrap) ∧
    ¬ Preserved 3 3 [[1], []] := by
  have sent : sendAll .queue (Chunker.new [] 3) [[1], []] = .ok
      (⟨[ChunkedData.codec.encode ⟨0, 0, 1, [1]⟩], 3, 2, ∅, []⟩, [.ok (), .ok ()]) := rfl
  have starved : recvCalls .queue 2 2 (Chunker.new [ChunkedData.codec.encode ⟨0, 0, 1, [1]⟩] 3) = .error .unwrap := rfl
  refine ⟨⟨_, sent, starved⟩, ?_⟩
  rintro ⟨sender, same, receives⟩
  cases sent.symm.trans same
  obtain ⟨receiver, run⟩ := receives 2 (by decide)
  cases starved.symm.trans run

end Veq.Boundaries
