import Veq.Transform
import Mathlib.Data.List.Induction
import Mathlib.Data.List.InsertIdx
import Mathlib.Data.List.Nodup

/-! What a receiving chunker holds, relative to the pieces that the sender cut.
Every slot that is filled holds a piece that arrived, so a group that lost
pieces to an eviction can never fill up again. -/

namespace Veq.Assembly
open Rust Bincode

theorem addChunk_inside {group : ChunkGroup} {chunk : ChunkedData} (inside : chunk.index < group.chunks.length) :
    group.addChunk chunk =
      .ok ⟨group.chunks.set chunk.index (some chunk), group.size + 1, group.groupLength⟩ := by
  have replaced : (group.chunks.eraseIdx chunk.index).insertIdx chunk.index (some chunk) =
      group.chunks.set chunk.index (some chunk) := List.insertIdx_eraseIdx_self (Nat.ne_of_lt inside) _
  simp [ChunkGroup.addChunk, inside, replaced]

variable {T : Type} {pieces : Nat → List Bytes}

/-- A chunk as the sender cuts it, when `pieces` lists the pieces of each group: no
more of them than a sender can hold, as for `Chunker.Sendable`. -/
structure Genuine (pieces : Nat → List Bytes) (chunk : ChunkedData) : Prop where
  groupLength : chunk.groupLength = (pieces chunk.group).length
  piece : (pieces chunk.group)[chunk.index]? = some chunk.data
  few : chunk.groupLength ≤ ChunkGroup.maxSlots

instance decidableGenuine (pieces : Nat → List Bytes) (chunk : ChunkedData) : Decidable (Genuine pieces chunk) :=
  decidable_of_iff (chunk.groupLength = (pieces chunk.group).length ∧
      (pieces chunk.group)[chunk.index]? = some chunk.data ∧ chunk.groupLength ≤ ChunkGroup.maxSlots)
    ⟨fun ⟨groupLength, piece, few⟩ => ⟨groupLength, piece, few⟩,
      fun ⟨groupLength, piece, few⟩ => ⟨groupLength, piece, few⟩⟩

theorem groupFor_small {groups : Std.TreeMap Nat ChunkGroup} {chunk : ChunkedData}
    (few : chunk.groupLength ≤ ChunkGroup.maxSlots) :
    Chunker.groupFor groups chunk = .ok ((groups[chunk.group]?).getD (.empty chunk.groupLength)) := by
  unfold Chunker.groupFor
  cases groups[chunk.group]? with
  | none => simp [ChunkGroup.new, few]
  | some group => rfl

theorem Genuine.unique {first second : ChunkedData} (one : Genuine pieces first) (two : Genuine pieces second)
    (group : first.group = second.group) (index : first.index = second.index) : first = second := by
  have length := one.1.trans ((congrArg (fun id => (pieces id).length) group).trans two.1.symm)
  have data : some first.data = some second.data := by rw [← one.2, ← two.2, group, index]
  cases first
  cases second
  simp_all

theorem Genuine.index_lt {chunk : ChunkedData} (genuine : Genuine pieces chunk) :
    chunk.index < (pieces chunk.group).length :=
  (List.getElem?_eq_some_iff.mp genuine.2).1

def Whole (pieces : Nat → List Bytes) (arrived : List ChunkedData) (id : Nat) : Prop :=
  0 < (pieces id).length ∧
    ∀ index < (pieces id).length, ∃ chunk ∈ arrived, chunk.group = id ∧ chunk.index = index

theorem Whole.mono {arrived more : List ChunkedData} {id : Nat} (whole : Whole pieces arrived id)
    (kept : arrived ⊆ more) : Whole pieces more id := by
  refine ⟨whole.1, ?_⟩
  intro index inside
  obtain ⟨chunk, member, same⟩ := whole.2 index inside
  exact ⟨chunk, kept member, same⟩

theorem Whole.of_other {arrived : List ChunkedData} {chunk : ChunkedData} {id : Nat}
    (whole : Whole pieces (arrived ++ [chunk]) id) (other : id ≠ chunk.group) : Whole pieces arrived id := by
  refine ⟨whole.1, ?_⟩
  intro index within
  obtain ⟨piece, member, sameGroup, sameIndex⟩ := whole.2 index within
  rcases List.mem_append.mp member with member | member
  · exact ⟨piece, member, sameGroup, sameIndex⟩
  · exact absurd (sameGroup.symm.trans (congrArg ChunkedData.group (List.mem_singleton.mp member))) other

/-- No piece of a group that arrived whole is still to come. -/
theorem Whole.mem {arrived : List ChunkedData} {chunk : ChunkedData} (whole : Whole pieces arrived chunk.group)
    (valid : ∀ other ∈ arrived, Genuine pieces other) (genuine : Genuine pieces chunk) : chunk ∈ arrived := by
  obtain ⟨other, member, group, index⟩ := whole.2 chunk.index genuine.index_lt
  exact (valid other member).unique genuine group index ▸ member

def message (pieces : Nat → List Bytes) (id : Nat) : Bytes := (pieces id).flatten

/-- What every arrival preserves, while it completes the messages of certain groups,
a list of arrivals preserves. -/
theorem addChunks_of_step {chunker : Chunker T} {valid : List ChunkedData → List Nat → Chunker T → Prop}
    {chunks : List ChunkedData}
    (step : ∀ before chunk done current, before ++ [chunk] <+: chunks → valid before done current →
      ∃ next more, current.addChunk chunk = .ok next ∧ valid (before ++ [chunk]) (done ++ more) next ∧
        next.completedChunks = current.completedChunks ++ more.map (message pieces))
    (start : valid [] [] chunker) :
    ∃ next done, chunks.foldlM Chunker.addChunk chunker = .ok next ∧ valid chunks done next ∧
      next.completedChunks = chunker.completedChunks ++ done.map (message pieces) := by
  induction chunks using List.reverseRecOn with
  | nil => exact ⟨chunker, [], rfl, start, by simp⟩
  | append_singleton chunks chunk ih =>
    obtain ⟨middle, done, run, now, completed⟩ := ih fun before other done current first =>
      step before other done current (first.trans (List.prefix_append _ _))
    obtain ⟨next, more, added, after, further⟩ := step chunks chunk done middle List.prefix_rfl now
    refine ⟨next, done ++ more, ?_, after, by simp [further, completed]⟩
    rw [List.foldlM_append, run]
    simp [added, bind, Except.bind, pure, Except.pure]

structure Partial (pieces : Nat → List Bytes) (arrived : List ChunkedData) (id : Nat) (group : ChunkGroup) : Prop where
  length : group.chunks.length = (pieces id).length
  groupLength : group.groupLength = (pieces id).length
  slots : ∀ (index : Nat) (chunk : ChunkedData), group.chunks[index]? = some (some chunk) →
    chunk ∈ arrived ∧ Genuine pieces chunk ∧ chunk.group = id ∧ chunk.index = index
  size : group.size = group.chunks.countP Option.isSome

namespace Partial

theorem new (pieces : Nat → List Bytes) (arrived : List ChunkedData) (id : Nat) :
    Partial pieces arrived id (ChunkGroup.empty (pieces id).length) := by
  refine ⟨by simp [ChunkGroup.empty], rfl, ?_, by simp [ChunkGroup.empty, List.countP_replicate]⟩
  intro index chunk filled
  simp [ChunkGroup.empty, List.getElem?_replicate] at filled

theorem mono {arrived more : List ChunkedData} {id : Nat} {group : ChunkGroup}
    (held : Partial pieces arrived id group) (kept : arrived ⊆ more) : Partial pieces more id group := by
  refine ⟨held.length, held.groupLength, ?_, held.size⟩
  intro index chunk filled
  obtain ⟨member, rest⟩ := held.slots index chunk filled
  exact ⟨kept member, rest⟩

private theorem slot_empty {arrived : List ChunkedData} {group : ChunkGroup} {chunk : ChunkedData}
    (held : Partial pieces arrived chunk.group group) (genuine : Genuine pieces chunk) (fresh : chunk ∉ arrived) :
    group.chunks[chunk.index]? = some none := by
  have inside : chunk.index < group.chunks.length := held.length ▸ genuine.index_lt
  cases filled : group.chunks[chunk.index] with
  | none => rw [List.getElem?_eq_getElem inside, filled]
  | some other =>
    have slot : group.chunks[chunk.index]? = some (some other) := by rw [List.getElem?_eq_getElem inside, filled]
    obtain ⟨member, valid, sameGroup, sameIndex⟩ := held.slots _ _ slot
    exact absurd (valid.unique genuine sameGroup sameIndex ▸ member) fresh

/-- A piece that did not arrive before finds its slot empty, so that the counter
keeps counting the filled slots. -/
theorem addChunk {arrived : List ChunkedData} {group : ChunkGroup} {chunk : ChunkedData}
    (held : Partial pieces arrived chunk.group group) (genuine : Genuine pieces chunk) (fresh : chunk ∉ arrived) :
    ∃ next, group.addChunk chunk = .ok next ∧ Partial pieces (arrived ++ [chunk]) chunk.group next ∧
      next.chunks = group.chunks.set chunk.index (some chunk) := by
  have inside : chunk.index < group.chunks.length := held.length ▸ genuine.index_lt
  refine ⟨_, addChunk_inside inside, ⟨?_, held.groupLength, ?_, ?_⟩, rfl⟩
  · simpa using held.length
  · intro index other filled
    rw [List.getElem?_set] at filled
    split at filled
    next same =>
      subst same
      cases filled
      exact ⟨by simp, genuine, rfl, rfl⟩
    next =>
      obtain ⟨member, rest⟩ := held.slots index other filled
      exact ⟨by simp [member], rest⟩
  · have vacant : group.chunks[chunk.index] = none :=
      Option.some.inj ((List.getElem?_eq_getElem inside).symm.trans (slot_empty held genuine fresh))
    rw [List.countP_set inside, held.size]
    simp [vacant]

private theorem collect_slots (chunks : List (Option ChunkedData)) (parts : List Bytes) (output : Bytes)
    (length : chunks.length = parts.length)
    (slots : ∀ index < parts.length, ∃ chunk : ChunkedData,
      chunks[index]? = some (some chunk) ∧ parts[index]? = some chunk.data) :
    chunks.foldlM ChunkGroup.extend output = .ok (output ++ parts.flatten) := by
  induction chunks generalizing parts output with
  | nil =>
    have empty : parts = [] := List.eq_nil_of_length_eq_zero length.symm
    simp [empty, pure, Except.pure]
  | cons slot chunks ih =>
    obtain ⟨part, parts, rfl⟩ := List.exists_cons_of_length_eq_add_one length.symm
    obtain ⟨chunk, filled, data⟩ := slots 0 (by simp)
    simp only [List.getElem?_cons_zero, Option.some.injEq] at filled data
    subst filled
    have rest := ih parts (output ++ chunk.data) (by simpa using length) (fun index inside => by
      simpa using slots (index + 1) (by simpa using inside))
    rw [List.foldlM_cons, ChunkGroup.extend]
    simpa [bind, Except.bind, data] using rest

theorem collect {arrived : List ChunkedData} {id : Nat} {group : ChunkGroup} (held : Partial pieces arrived id group)
    (nonempty : 0 < (pieces id).length) (complete : group.isComplete = true) :
    group.collect = .ok (message pieces id) ∧ Whole pieces arrived id := by
  have all : ∀ slot ∈ group.chunks, slot.isSome := by
    rw [← List.countP_eq_length, ← held.size, held.length, ← held.groupLength]
    simpa [ChunkGroup.isComplete] using complete
  have filled : ∀ index < (pieces id).length, ∃ chunk, group.chunks[index]? = some (some chunk) := by
    intro index inside
    have within : index < group.chunks.length := held.length ▸ inside
    obtain ⟨chunk, same⟩ := Option.isSome_iff_exists.mp (all _ (List.getElem_mem within))
    exact ⟨chunk, by rw [List.getElem?_eq_getElem within, same]⟩
  refine ⟨?_, nonempty, ?_⟩
  · rw [ChunkGroup.collect, collect_slots group.chunks (pieces id) [] held.length, List.nil_append, message]
    intro index inside
    obtain ⟨chunk, slot⟩ := filled index inside
    obtain ⟨-, genuine, rfl, rfl⟩ := held.slots index chunk slot
    exact ⟨chunk, slot, genuine.2⟩
  · intro index inside
    obtain ⟨chunk, slot⟩ := filled index inside
    obtain ⟨member, -, group, position⟩ := held.slots index chunk slot
    exact ⟨chunk, member, group, position⟩

end Partial

/-- `arrived` lists the chunks added so far and `done` the groups that were
completed, in order. -/
structure Assembling (pieces : Nat → List Bytes) (arrived : List ChunkedData) (done : List Nat)
    (chunker : Chunker T) : Prop where
  genuine : ∀ chunk ∈ arrived, Genuine pieces chunk
  groups : ∀ (id : Nat) (group : ChunkGroup), chunker.chunkGroups[id]? = some group → Partial pieces arrived id group
  nodup : done.Nodup
  whole : ∀ id ∈ done, Whole pieces arrived id
  few : chunker.chunkGroups.size ≤ 10

namespace Assembling

variable {arrived : List ChunkedData} {done : List Nat} {chunker : Chunker T} {chunk : ChunkedData}

theorem new (pieces : Nat → List Bytes) (delegate : T) (chunkSize : Nat) :
    Assembling pieces [] [] (Chunker.new delegate chunkSize) :=
  ⟨by simp, by simp [Chunker.new], .nil, by simp, by simp [Chunker.new]⟩

theorem not_done (state : Assembling pieces arrived done chunker) (genuine : Genuine pieces chunk)
    (fresh : chunk ∉ arrived) : chunk.group ∉ done := by
  intro completed
  exact fresh ((state.whole chunk.group completed).mem state.genuine genuine)

@[simp] theorem cleanUp_completedChunks (chunker : Chunker T) :
    chunker.cleanUp.completedChunks = chunker.completedChunks := by
  unfold Chunker.cleanUp
  split
  · rfl
  · rfl

@[simp] theorem cleanUp_delegate (chunker : Chunker T) : chunker.cleanUp.delegate = chunker.delegate := by
  unfold Chunker.cleanUp
  split
  · rfl
  · rfl

private theorem cleanUp_preserves {groups : Std.TreeMap Nat ChunkGroup} (bounded : groups.size ≤ 11)
    (chunker : Chunker T) (holds : chunker.chunkGroups = groups) :
    chunker.cleanUp.chunkGroups.size ≤ 10 ∧
    ∀ (id : Nat) (group : ChunkGroup), chunker.cleanUp.chunkGroups[id]? = some group → groups[id]? = some group := by
  unfold Chunker.cleanUp
  rw [holds]
  split
  next many =>
    have popped := size_popFirst (show 0 < groups.size by omega)
    exact ⟨by simp only; omega, fun id group found => popFirst_some found⟩
  next few => exact ⟨by rw [holds]; omega, fun id group found => holds ▸ found⟩

theorem addChunk_incomplete {group : ChunkGroup}
    (inserted : chunker.insertChunk chunk =
      .ok ({ chunker with chunkGroups := chunker.chunkGroups.insert chunk.group group }, false)) :
    chunker.addChunk chunk =
      .ok { chunker with chunkGroups := chunker.chunkGroups.insert chunk.group group }.cleanUp := by
  simp [Chunker.addChunk, inserted, bind, Except.bind, pure, Except.pure]

theorem addChunk_complete {group : ChunkGroup} {collected : Bytes}
    (inserted : chunker.insertChunk chunk =
      .ok ({ chunker with chunkGroups := chunker.chunkGroups.insert chunk.group group }, true))
    (collects : group.collect = .ok collected) :
    chunker.addChunk chunk = .ok { chunker with
      chunkGroups := (chunker.chunkGroups.insert chunk.group group).erase chunk.group
      completedChunks := chunker.completedChunks ++ [collected] }.cleanUp := by
  simp [Chunker.addChunk, Chunker.removeGroup, Chunker.pushCompleted, inserted, collects, bind, Except.bind, pure,
    Except.pure]

theorem inserts (groups : ∀ (id : Nat) (group : ChunkGroup), chunker.chunkGroups[id]? = some group →
      Partial pieces arrived id group) (genuine : Genuine pieces chunk) (fresh : chunk ∉ arrived) :
    ∃ group, chunker.insertChunk chunk =
        .ok ({ chunker with chunkGroups := chunker.chunkGroups.insert chunk.group group }, group.isComplete) ∧
      Partial pieces (arrived ++ [chunk]) chunk.group group ∧
      group.chunks = ((chunker.chunkGroups[chunk.group]?).getD (ChunkGroup.empty chunk.groupLength)).chunks.set chunk.index
        (some chunk) ∧
      ∀ (id : Nat) (other : ChunkGroup), (chunker.chunkGroups.insert chunk.group group)[id]? = some other →
        Partial pieces (arrived ++ [chunk]) id other := by
  have current : Partial pieces arrived chunk.group
      ((chunker.chunkGroups[chunk.group]?).getD (ChunkGroup.empty chunk.groupLength)) := by
    cases found : chunker.chunkGroups[chunk.group]? with
    | none => simpa [genuine.1] using Partial.new pieces arrived chunk.group
    | some group => exact groups _ _ found
  obtain ⟨group, added, held, slots⟩ := current.addChunk genuine fresh
  refine ⟨group, ?_, held, slots, ?_⟩
  · simp [Chunker.insertChunk, groupFor_small genuine.few, added, bind, Except.bind, pure, Except.pure]
  · intro id other found
    rw [Std.TreeMap.getElem?_insert] at found
    split at found
    next same =>
      cases found
      exact Nat.compare_eq_eq.mp same ▸ held
    next => exact (groups id other found).mono (List.subset_append_left _ _)

theorem size_insert_le (state : Assembling pieces arrived done chunker) (id : Nat) (group : ChunkGroup) :
    (chunker.chunkGroups.insert id group).size ≤ 11 :=
  Nat.le_trans Std.TreeMap.size_insert_le (Nat.succ_le_succ state.few)

/-- One `add_chunk` of a piece that arrives for the first time: it cannot panic,
and it completes the piece's group or nothing. -/
theorem added (state : Assembling pieces arrived done chunker) (genuine : Genuine pieces chunk) (fresh : chunk ∉ arrived) :
    ∃ group next more, chunker.addChunk chunk = .ok next ∧ Assembling pieces (arrived ++ [chunk]) (done ++ more) next ∧
      Partial pieces (arrived ++ [chunk]) chunk.group group ∧
      group.chunks = ((chunker.chunkGroups[chunk.group]?).getD (ChunkGroup.empty chunk.groupLength)).chunks.set chunk.index
        (some chunk) ∧
      (group.isComplete = false ∧ more = [] ∧
        next = { chunker with chunkGroups := chunker.chunkGroups.insert chunk.group group }.cleanUp ∨
      group.isComplete = true ∧ more = [chunk.group] ∧ next = { chunker with
        chunkGroups := (chunker.chunkGroups.insert chunk.group group).erase chunk.group
        completedChunks := chunker.completedChunks ++ [message pieces chunk.group] }.cleanUp) := by
  have kept : arrived ⊆ arrived ++ [chunk] := List.subset_append_left _ _
  obtain ⟨group, added, held, slots, inserted⟩ := inserts state.groups genuine fresh
  have all : ∀ other ∈ arrived ++ [chunk], Genuine pieces other := by
    intro other member
    rcases List.mem_append.mp member with member | member
    · exact state.genuine other member
    · exact List.mem_singleton.mp member ▸ genuine
  have whole : ∀ id ∈ done, Whole pieces (arrived ++ [chunk]) id := fun id member => (state.whole id member).mono kept
  have grown := state.size_insert_le chunk.group group
  cases complete : group.isComplete with
  | false =>
    obtain ⟨few, groups⟩ := cleanUp_preserves grown
      { chunker with chunkGroups := chunker.chunkGroups.insert chunk.group group } rfl
    refine ⟨group, _, [], addChunk_incomplete (complete ▸ added), ⟨all, ?_, by simpa using state.nodup, by simpa using whole,
      few⟩, held, slots, .inl ⟨complete, rfl, rfl⟩⟩
    exact fun id other found => inserted id other (groups id other found)
  | true =>
    obtain ⟨collected, finished⟩ := held.collect (Nat.zero_lt_of_lt genuine.index_lt) complete
    have erased : ((chunker.chunkGroups.insert chunk.group group).erase chunk.group).size ≤ 11 :=
      Nat.le_trans Std.TreeMap.size_erase_le grown
    obtain ⟨few, groups⟩ := cleanUp_preserves erased
      { chunker with
        chunkGroups := (chunker.chunkGroups.insert chunk.group group).erase chunk.group
        completedChunks := chunker.completedChunks ++ [message pieces chunk.group] } rfl
    refine ⟨group, _, [chunk.group], addChunk_complete (complete ▸ added) collected, ⟨all, ?_, ?_, ?_, few⟩, held, slots,
      .inr ⟨complete, rfl, rfl⟩⟩
    · intro id other found
      have remaining := groups id other found
      rw [Std.TreeMap.getElem?_erase] at remaining
      split at remaining
      · cases remaining
      · exact inserted id other remaining
    · exact List.nodup_append.mpr ⟨state.nodup, by simp, by
        intro id member other same
        rw [List.mem_singleton] at same
        rintro rfl
        exact state.not_done genuine fresh (same ▸ member)⟩
    · intro id member
      rcases List.mem_append.mp member with member | member
      · exact whole id member
      · exact List.mem_singleton.mp member ▸ finished

theorem addChunk (state : Assembling pieces arrived done chunker) (genuine : Genuine pieces chunk)
    (fresh : chunk ∉ arrived) :
    ∃ next more, chunker.addChunk chunk = .ok next ∧ (more = [] ∨ more = [chunk.group]) ∧
      Assembling pieces (arrived ++ [chunk]) (done ++ more) next ∧
      next.completedChunks = chunker.completedChunks ++ more.map (message pieces) ∧
      next.delegate = chunker.delegate := by
  obtain ⟨group, next, more, added, after, -, -, result⟩ := state.added genuine fresh
  rcases result with ⟨-, rfl, rfl⟩ | ⟨-, rfl, rfl⟩
  · exact ⟨_, [], added, .inl rfl, after, by simp, by simp⟩
  · exact ⟨_, [chunk.group], added, .inr rfl, after, by simp, by simp⟩

theorem addChunks (chunks : List ChunkedData) (state : Assembling pieces [] [] chunker)
    (genuine : ∀ chunk ∈ chunks, Genuine pieces chunk) (fresh : chunks.Nodup) :
    ∃ next done, chunks.foldlM Chunker.addChunk chunker = .ok next ∧ Assembling pieces chunks done next ∧
      next.completedChunks = chunker.completedChunks ++ done.map (message pieces) := by
  refine addChunks_of_step ?_ state
  intro before chunk done current first now
  have new := List.nodup_append.mp (fresh.sublist first.sublist)
  obtain ⟨next, more, added, -, after, completed, -⟩ := now.addChunk (genuine chunk (first.subset (by simp)))
    (fun member => new.2.2 chunk member chunk (by simp) rfl)
  exact ⟨next, more, added, after, completed⟩

end Assembling
end Veq.Assembly
