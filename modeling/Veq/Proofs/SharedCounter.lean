import Veq.Clones
import Veq.Proofs.Reassembly

/-! The group counter that the clones of a chunker share. A `send` reads it under
one acquisition and writes it under another, so an update is lost when another
`send` writes in between, and two messages get one group id. -/

namespace Veq.Senders
open Rust Bincode Assembly

variable {senders next : Senders} {label : Label}

/-- What one step can do. -/
inductive Transition (senders next : Senders) : Label → Prop where
  | move {label : Label} (sending : Sending)
      (calls : next.calls = senders.calls ++ [sending] ∨ ∃ call, next.calls = senders.calls.set call sending)
      (counter : next.currentGroup = senders.currentGroup) (stamped : next.stamped = senders.stamped)
      (emitted : next.emitted = senders.emitted)
      (reads : ∀ group data, sending = .write group data → group = senders.currentGroup)
      (idle : ∀ rest, sending ≠ .transmit rest) : Transition senders next label
  | emit {label : Label} (call : Nat) (data : Bytes) (rest : List Bytes)
      (found : senders.calls[call]? = some (.transmit (data :: rest))) (sending : Sending)
      (continues : sending = .transmit rest ∨ ∃ result, sending = .returned result)
      (calls : next.calls = senders.calls.set call sending)
      (counter : next.currentGroup = senders.currentGroup) (stamped : next.stamped = senders.stamped)
      (emitted : next.emitted = senders.emitted ++ [(call, data)]) : Transition senders next label
  | stamp {answer : Except VeqError Unit} (call group : Nat) (data : ByteVec)
      (found : senders.calls[call]? = some (.write group data)) (room : group + 1 < 2 ^ 64)
      (calls : next.calls = senders.calls.set call
        (.transmit ((Chunker.chunked group senders.chunkSize data.val).map ChunkedData.codec.encode)))
      (counter : next.currentGroup = group + 1)
      (stamped : next.stamped = senders.stamped ++ [(call, group, Chunker.chunked group senders.chunkSize data.val)])
      (emitted : next.emitted = senders.emitted) : Transition senders next (.enter call answer)

theorem enter_transition {call : Nat} {answer : Except VeqError Unit} (entered : senders.enter call answer = some next) :
    Transition senders next (.enter call answer) := by
  unfold enter at entered
  split at entered
  next data found =>
    split at entered
    · cases entered
    · cases entered
      exact .move _ (.inr ⟨call, rfl⟩) rfl rfl rfl (by rintro _ _ ⟨⟩; rfl) (by simp)
  next group data found =>
    split at entered
    · cases entered
    · split at entered
      next panic overflow =>
        cases entered
        exact .move _ (.inr ⟨call, rfl⟩) rfl rfl rfl (by simp) (by simp)
      next sum added =>
        cases entered
        obtain ⟨rfl, room⟩ := addU64_ok added
        exact .stamp call group data found room rfl rfl rfl rfl
  next found =>
    cases entered
    exact .move _ (.inr ⟨call, rfl⟩) rfl rfl rfl (by simp) (by simp)
  next data rest found =>
    cases answer with
    | ok _ =>
      cases entered
      exact .emit call data rest found _ (.inl rfl) rfl rfl rfl rfl
    | error error =>
      cases entered
      exact .emit call data rest found _ (.inr ⟨_, rfl⟩) rfl rfl rfl rfl
  next => cases entered

theorem step_transition (stepped : senders.step label = some next) : Transition senders next label := by
  cases label with
  | send data =>
    cases stepped
    refine .move _ (.inl rfl) rfl rfl rfl ?_ ?_
    · intro group data
      split <;> simp
    · intro rest
      split <;> simp
  | enter call answer => exact enter_transition stepped
  | cancel call =>
    simp only [step] at stepped
    split at stepped
    all_goals cases stepped
    all_goals exact .move _ (.inr ⟨call, rfl⟩) rfl rfl rfl (by simp) (by simp)

/-- The counter still holds the value that a call read when the call writes it. -/
def Unchanged (senders : Senders) : Label → Prop
  | .enter call _ => ∀ group ∈ (senders.calls[call]?).bind Sending.hasRead, senders.currentGroup = group
  | .send _ => True
  | .cancel _ => True

instance decidableUnchanged (senders : Senders) : (label : Label) → Decidable (senders.Unchanged label)
  | .enter _ _ => inferInstanceAs (Decidable (∀ group ∈ _, _ = group))
  | .send _ => inferInstanceAs (Decidable True)
  | .cancel _ => inferInstanceAs (Decidable True)

/-- Every group id below the counter was taken, once. -/
structure Counted (senders : Senders) : Prop where
  groups : senders.stamped.map (fun stamp => stamp.2.1) = List.range senders.currentGroup
  bounded : senders.currentGroup < 2 ^ 64
  pending : ∀ group data, Sending.write group data ∈ senders.calls → group ≤ senders.currentGroup

namespace Counted

theorem start (chunkSize : Nat) : (start chunkSize).Counted := ⟨rfl, by simp [Senders.start], by simp [Senders.start]⟩

theorem nodup (counted : senders.Counted) : (senders.stamped.map fun stamp => stamp.2.1).Nodup :=
  counted.groups ▸ List.nodup_range

theorem step (counted : senders.Counted) (unchanged : senders.Unchanged label)
    (transition : Transition senders next label) : next.Counted := by
  cases transition with
  | move sending calls counter stamped emitted reads idle =>
    refine ⟨by rw [stamped, counter, counted.groups], counter ▸ counted.bounded, ?_⟩
    intro group data member
    rw [counter]
    have origin : Sending.write group data ∈ senders.calls ∨ Sending.write group data = sending := by
      rcases calls with spawned | ⟨call, changed⟩
      · simpa [spawned] using member
      · exact List.mem_or_eq_of_mem_set (changed ▸ member)
    rcases origin with old | same
    · exact counted.pending group data old
    · exact Nat.le_of_eq (reads group data same.symm)
  | emit call data rest found sending continues calls counter stamped emitted =>
    refine ⟨by rw [stamped, counter, counted.groups], counter ▸ counted.bounded, ?_⟩
    intro group other member
    rw [counter]
    rcases List.mem_or_eq_of_mem_set (calls ▸ member) with old | same
    · exact counted.pending group other old
    · rcases continues with rfl | ⟨result, rfl⟩
      · cases same
      · cases same
  | stamp call group data found room calls counter stamped emitted =>
    have current : senders.currentGroup = group := unchanged group (by simp [found, Sending.hasRead])
    refine ⟨?_, counter ▸ room, ?_⟩
    · rw [stamped, counter, List.map_append, counted.groups, current, List.range_succ]
      rfl
    · intro other content member
      rcases List.mem_or_eq_of_mem_set (calls ▸ member) with old | same
      · exact Nat.le_trans (counted.pending other content old) (by omega)
      · cases same

/-- A write that comes too late takes a group id that was taken before. -/
theorem collides (counted : senders.Counted) (changed : ¬ senders.Unchanged label)
    (stepped : senders.step label = some next) : ¬ (next.stamped.map fun stamp => stamp.2.1).Nodup := by
  cases label with
  | send data => exact absurd trivial changed
  | cancel call => exact absurd trivial changed
  | enter call answer =>
    simp only [Unchanged, not_forall] at changed
    obtain ⟨group, reads, different⟩ := changed
    obtain ⟨sending, found, reading⟩ := Option.bind_eq_some_iff.mp reads
    cases sending with
    | write read data =>
      obtain rfl : read = group := Option.some.inj reading
      have before := counted.pending read data (List.mem_of_getElem? found)
      have bounded := counted.bounded
      have room : read + 1 < 2 ^ 64 := by omega
      simp only [Senders.step, enter, found, addU64, room, ↓reduceIte] at stepped
      split at stepped
      · cases stepped
      · cases stepped
        have taken : read ∈ senders.stamped.map fun stamp => stamp.2.1 := by
          rw [counted.groups, List.mem_range]
          omega
        rw [List.map_append]
        intro nodup
        exact (List.nodup_append.mp nodup).2.2 read taken read (by simp) rfl
    | read data => cases reading
    | transmit rest => cases reading
    | returned result => cases reading
    | panicked panic => cases reading
    | cancelled => cases reading

end Counted

/-- Every packet is a chunk that was stamped by the call that sends it. -/
structure Owned (senders : Senders) : Prop where
  fits : ∀ call group chunks, (call, group, chunks) ∈ senders.stamped →
    ∀ chunk ∈ chunks, chunk.group = group ∧ ChunkedData.codec.Fits chunk
  remaining : ∀ (call : Nat) (rest : List Bytes), senders.calls[call]? = some (.transmit rest) → ∃ group chunks,
    (call, group, chunks) ∈ senders.stamped ∧ rest ⊆ chunks.map ChunkedData.codec.encode
  emitted : ∀ call data, (call, data) ∈ senders.emitted → ∃ group chunks,
    (call, group, chunks) ∈ senders.stamped ∧ data ∈ chunks.map ChunkedData.codec.encode

namespace Owned

theorem start (chunkSize : Nat) : (start chunkSize).Owned :=
  ⟨by simp [Senders.start], by simp [Senders.start], by simp [Senders.start]⟩

private theorem chunked_owned {group chunkSize : Nat} (small : group < 2 ^ 64) (data : ByteVec) :
    ∀ chunk ∈ Chunker.chunked group chunkSize data.val, chunk.group = group ∧ ChunkedData.codec.Fits chunk := by
  intro chunk member
  refine ⟨(mem_chunked member).1, ?_⟩
  cases chunkSize with
  | zero => simp [Chunker.chunked, chunks] at member
  | succ size => exact chunked_fits (by omega) data.property small member

private theorem keep {before after : List (Nat × Nat × List ChunkedData)} (kept : before ⊆ after) {call : Nat}
    {fine : Nat → List ChunkedData → Prop}
    (found : ∃ group chunks, (call, group, chunks) ∈ before ∧ fine group chunks) :
    ∃ group chunks, (call, group, chunks) ∈ after ∧ fine group chunks := by
  obtain ⟨group, chunks, member, holds⟩ := found
  exact ⟨group, chunks, kept member, holds⟩

theorem step (owned : senders.Owned) (transition : Transition senders next label) : next.Owned := by
  cases transition with
  | move sending calls counter stamped emitted reads idle =>
    refine ⟨stamped ▸ owned.fits, ?_, ?_⟩
    · intro call rest found
      rw [stamped]
      apply owned.remaining call rest
      rcases calls with spawned | ⟨changed, set⟩
      · rw [spawned] at found
        rcases Runs.append_some found with ⟨-, last⟩ | old
        · exact absurd last.symm (idle rest)
        · exact old
      · rw [set] at found
        rcases Runs.set_some found with ⟨-, same⟩ | ⟨-, old⟩
        · exact absurd same.symm (idle rest)
        · exact old
    · rw [stamped, emitted]
      exact owned.emitted
  | emit call data rest found sending continues calls counter stamped emitted =>
    obtain ⟨group, chunks, member, contained⟩ := owned.remaining call (data :: rest) found
    refine ⟨stamped ▸ owned.fits, ?_, ?_⟩
    · intro other remaining transmitting
      rw [stamped]
      rw [calls] at transmitting
      rcases Runs.set_some transmitting with ⟨rfl, same⟩ | ⟨-, old⟩
      · rcases continues with rfl | ⟨result, rfl⟩
        · cases same
          exact ⟨group, chunks, member, List.Subset.trans (List.subset_cons_self _ _) contained⟩
        · cases same
      · exact owned.remaining other remaining old
    · intro other bytes sent
      rw [stamped]
      rw [emitted] at sent
      rcases List.mem_append.mp sent with old | new
      · exact owned.emitted other bytes old
      · cases List.mem_singleton.mp new
        exact ⟨group, chunks, member, contained (by simp)⟩
  | stamp call group data found room calls counter stamped emitted =>
    have kept : senders.stamped ⊆ next.stamped := by simp [stamped]
    refine ⟨?_, ?_, ?_⟩
    · intro other taken chunks member
      rw [stamped] at member
      rcases List.mem_append.mp member with old | new
      · exact owned.fits other taken chunks old
      · cases List.mem_singleton.mp new
        exact chunked_owned (by omega) data
    · intro other remaining transmitting
      rw [calls] at transmitting
      rcases Runs.set_some transmitting with ⟨rfl, same⟩ | ⟨-, old⟩
      · cases same
        exact ⟨group, _, by simp [stamped], List.Subset.refl _⟩
      · exact keep kept (owned.remaining other remaining old)
    · rw [emitted]
      exact fun other bytes sent => keep kept (owned.emitted other bytes sent)

theorem taken (owned : senders.Owned) {call : Nat} {data : Bytes} {chunk : ChunkedData}
    (sent : (call, data) ∈ senders.emitted) (decoded : ChunkedData.codec.deserialize data = some chunk) :
    ∃ chunks, (call, chunk.group, chunks) ∈ senders.stamped := by
  obtain ⟨group, chunks, member, encoded⟩ := owned.emitted call data sent
  obtain ⟨original, inside, rfl⟩ := List.mem_map.mp encoded
  obtain ⟨rfl, fits⟩ := owned.fits call group chunks member original inside
  rw [ChunkedData.codec.deserialize_encode fits, Option.some.injEq] at decoded
  subst decoded
  exact ⟨chunks, member⟩

end Owned

private theorem stamped_grows (transition : Transition senders next label) : ∃ more, next.stamped = senders.stamped ++ more := by
  cases transition with
  | move sending calls counter stamped => exact ⟨[], by simp [stamped]⟩
  | emit call data rest found sending continues calls counter stamped => exact ⟨[], by simp [stamped]⟩
  | stamp call group data found room calls counter stamped => exact ⟨_, stamped⟩

/-- The group ids that the calls take are distinct exactly when every call finds
the counter as it read it, and packets of two calls then never have one group. -/
theorem groups_distinct (chunkSize : Nat) (labels : List Label) (final : Senders)
    (reached : Runs.run step (start chunkSize) labels = some final) :
    (Runs.Meets step Unchanged (start chunkSize) labels ↔ (final.stamped.map fun stamp => stamp.2.1).Nodup) ∧
    (Runs.Meets step Unchanged (start chunkSize) labels →
      ∀ first second firstData secondData firstChunk secondChunk,
        (first, firstData) ∈ final.emitted → (second, secondData) ∈ final.emitted →
        ChunkedData.codec.deserialize firstData = some firstChunk →
        ChunkedData.codec.deserialize secondData = some secondChunk →
        firstChunk.group = secondChunk.group → first = second) := by
  have distinct : Runs.Meets step Unchanged (start chunkSize) labels →
      (final.stamped.map fun stamp => stamp.2.1).Nodup := fun meets =>
    (meets.invariant (fun _ _ _ counted unchanged stepped => counted.step unchanged (step_transition stepped))
      (Counted.start chunkSize) reached).nodup
  refine ⟨⟨distinct, ?_⟩, ?_⟩
  · intro nodup
    refine Runs.Meets.of_final (fun senders => ¬ (senders.stamped.map fun stamp => stamp.2.1).Nodup)
      (fun _ _ _ counted unchanged stepped => counted.step unchanged (step_transition stepped))
      (fun _ _ _ counted changed stepped => counted.collides changed stepped) ?_ (Counted.start chunkSize) reached
      (not_not_intro nodup)
    intro senders label next shared stepped clear
    obtain ⟨more, grown⟩ := stamped_grows (step_transition stepped)
    rw [grown, List.map_append] at clear
    exact shared (List.nodup_append.mp clear).1
  · intro meets first second firstData secondData firstChunk secondChunk firstSent secondSent firstDecoded secondDecoded same
    have owned : final.Owned := Runs.persists (fun _ _ _ owned stepped => owned.step (step_transition stepped))
      (Owned.start chunkSize) reached
    obtain ⟨firstChunks, one⟩ := owned.taken firstSent firstDecoded
    obtain ⟨secondChunks, two⟩ := owned.taken secondSent secondDecoded
    exact congrArg Prod.fst (List.inj_on_of_nodup_map (distinct meets) one two same)

/-- Two calls, one after the other. -/
theorem groups_distinct_sequential :
    Runs.Meets step Unchanged (start 3) [.send ⟨[1, 2, 3, 4], by decide⟩, .enter 0 (.ok ()), .enter 0 (.ok ()),
      .enter 0 (.ok ()), .enter 0 (.ok ()), .enter 0 (.ok ()), .send ⟨[5], by decide⟩, .enter 1 (.ok ()), .enter 1 (.ok ())] ∧
    ∃ final, Runs.run step (start 3) [.send ⟨[1, 2, 3, 4], by decide⟩, .enter 0 (.ok ()), .enter 0 (.ok ()),
      .enter 0 (.ok ()), .enter 0 (.ok ()), .enter 0 (.ok ()), .send ⟨[5], by decide⟩, .enter 1 (.ok ()), .enter 1 (.ok ())] =
        some final ∧ (final.stamped.map fun stamp => stamp.2.1).Nodup := by
  have meets : Runs.Meets step Unchanged (start 3) [.send ⟨[1, 2, 3, 4], by decide⟩, .enter 0 (.ok ()), .enter 0 (.ok ()),
      .enter 0 (.ok ()), .enter 0 (.ok ()), .enter 0 (.ok ()), .send ⟨[5], by decide⟩, .enter 1 (.ok ()),
      .enter 1 (.ok ())] := by decide
  exact ⟨meets, _, rfl, (groups_distinct 3 _ _ rfl).1.mp meets⟩

/-- Both calls read the counter before either of them writes it. -/
theorem groups_distinct_lost_update :
    ∃ final, Runs.run step (start 3) [.send ⟨[1], by decide⟩, .send ⟨[2], by decide⟩, .enter 0 (.ok ()), .enter 1 (.ok ()),
      .enter 0 (.ok ()), .enter 0 (.ok ()), .enter 0 (.ok ()), .enter 1 (.ok ()), .enter 1 (.ok ())] = some final ∧
    final.emitted.map (fun sent => (sent.1, ChunkedData.codec.deserialize sent.2)) =
      [(0, some ⟨0, 0, 1, [1]⟩), (1, some ⟨0, 0, 1, [2]⟩)] ∧
    ¬ (final.stamped.map fun stamp => stamp.2.1).Nodup :=
  ⟨_, rfl, by decide, by decide⟩

end Veq.Senders
