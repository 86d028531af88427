import Veq.Clones
import Veq.Proofs.Assembly

/-! The chunk groups that the clones of a chunker share. The call that completes
a group removes it in a later section, and a cleanup that runs in between can
evict it first, when it is the lowest of more than ten groups. -/

namespace Veq.Receivers
open Rust Bincode Assembly

variable {T : Type} {pieces : Nat → List Bytes} {arrived : List ChunkedData} {receivers next : Receivers T} {label : Label}

/-- Chunks come from well-formed sends, and no chunk is delivered twice. -/
def Delivers (pieces : Nat → List Bytes) (receivers : Receivers T) : Label → Prop
  | .addChunk chunk => Genuine pieces chunk ∧ chunk ∉ receivers.delivered
  | .enter _ => True
  | .nextReadyChunk => True

/-- A cleanup does not evict a group that another call is about to remove. -/
def Spared (receivers : Receivers T) : Label → Prop
  | .enter call => receivers.calls[call]? = some .cleanUp → receivers.chunker.chunkGroups.size > 10 →
      ∀ id ∈ receivers.chunker.chunkGroups.minKey?, Adding.remove id ∉ receivers.calls
  | .addChunk _ => True
  | .nextReadyChunk => True

instance decidableSpared (receivers : Receivers T) : (label : Label) → Decidable (receivers.Spared label)
  | .enter _ => inferInstanceAs (Decidable (_ → _ → ∀ id ∈ _, Adding.remove id ∉ _))
  | .addChunk _ => inferInstanceAs (Decidable True)
  | .nextReadyChunk => inferInstanceAs (Decidable True)

theorem step_delivered (stepped : receivers.step label = some next) :
    next.delivered = receivers.delivered ++ label.chunk.toList := by
  cases label with
  | addChunk chunk =>
    cases stepped
    rfl
  | nextReadyChunk =>
    cases stepped
    simp [Label.chunk]
  | enter call =>
    have entered : receivers.enter call = some next := stepped
    simp only [Label.chunk, Option.toList_none, List.append_nil]
    unfold enter at entered
    split at entered
    · split at entered
      all_goals
        cases entered
        rfl
    · split at entered
      all_goals
        cases entered
        rfl
    · split at entered
      all_goals
        cases entered
        rfl
    · cases entered
      rfl
    · cases entered

theorem Delivers.of_chunks {labels : List Label}
    (genuine : ∀ chunk ∈ labels.filterMap Label.chunk, Genuine pieces chunk)
    (distinct : (receivers.delivered ++ labels.filterMap Label.chunk).Nodup) :
    Runs.Meets step (Delivers pieces) receivers labels := by
  induction labels generalizing receivers with
  | nil => trivial
  | cons label labels ih =>
    refine ⟨?_, ?_⟩
    · cases label with
      | addChunk chunk =>
        refine ⟨genuine chunk (by simp [Label.chunk]), ?_⟩
        intro member
        exact (List.nodup_append.mp distinct).2.2 chunk member chunk (by simp [Label.chunk]) rfl
      | enter call => trivial
      | nextReadyChunk => trivial
    · intro next stepped
      apply ih
      · intro chunk member
        refine genuine chunk ?_
        rw [Runs.filterMap_cons_toList]
        exact List.mem_append_right _ member
      · rw [step_delivered stepped, List.append_assoc, ← Runs.filterMap_cons_toList]
        exact distinct

/-- `arrived` lists the chunks that were inserted into their groups. -/
structure Sharing (pieces : Nat → List Bytes) (arrived : List ChunkedData) (receivers : Receivers T) : Prop where
  genuine : ∀ chunk ∈ receivers.delivered, Genuine pieces chunk
  distinct : receivers.delivered.Nodup
  length : receivers.calls.length = receivers.delivered.length
  inserting : ∀ (call : Nat) (chunk : ChunkedData), receivers.calls[call]? = some (.insert chunk) →
    receivers.delivered[call]? = some chunk
  landed : ∀ chunk ∈ arrived, ∃ call : Nat, receivers.delivered[call]? = some chunk ∧
    ∀ other, receivers.calls[call]? ≠ some (.insert other)
  groups : ∀ (id : Nat) (group : ChunkGroup), receivers.chunker.chunkGroups[id]? = some group →
    Partial pieces arrived id group
  complete : ∀ id, Adding.remove id ∈ receivers.calls →
    ∃ group, receivers.chunker.chunkGroups[id]? = some group ∧ group.isComplete = true
  removed : ∀ id group, Adding.push id group ∈ receivers.calls → Partial pieces arrived id group ∧ group.isComplete = true
  whole : ∀ id ∈ receivers.reported, Whole pieces arrived id
  nodup : receivers.reported.Nodup
  tally : receivers.reported.Perm (receivers.pushed ++ receivers.calls.filterMap Adding.completing)
  calm : ∀ panic, Adding.panicked panic ∉ receivers.calls
  completed : receivers.taken ++ receivers.chunker.completedChunks = receivers.pushed.map (message pieces)

namespace Sharing

theorem start (pieces : Nat → List Bytes) (delegate : T) (chunkSize : Nat) :
    Sharing pieces [] (start delegate chunkSize) := by
  constructor <;> simp [Receivers.start, Chunker.new]

theorem fresh (sharing : Sharing pieces arrived receivers) {call : Nat} {chunk : ChunkedData}
    (found : receivers.calls[call]? = some (.insert chunk)) : chunk ∉ arrived := by
  intro member
  obtain ⟨other, delivered, passed⟩ := sharing.landed chunk member
  obtain ⟨inside, first⟩ := List.getElem?_eq_some_iff.mp (sharing.inserting call chunk found)
  obtain ⟨within, second⟩ := List.getElem?_eq_some_iff.mp delivered
  have same := (sharing.distinct.getElem_inj_iff).mp (first.trans second.symm)
  exact passed chunk (same ▸ found)

theorem insert_genuine (sharing : Sharing pieces arrived receivers) {call : Nat} {chunk : ChunkedData}
    (found : receivers.calls[call]? = some (.insert chunk)) : Genuine pieces chunk :=
  sharing.genuine chunk (List.mem_of_getElem? (sharing.inserting call chunk found))

theorem arrived_genuine (sharing : Sharing pieces arrived receivers) : ∀ chunk ∈ arrived, Genuine pieces chunk := by
  intro chunk member
  obtain ⟨call, delivered, -⟩ := sharing.landed chunk member
  exact sharing.genuine chunk (List.mem_of_getElem? delivered)

/-- No piece of a group that was reported complete is still to be inserted. -/
theorem unreported (sharing : Sharing pieces arrived receivers) {call : Nat} {chunk : ChunkedData}
    (found : receivers.calls[call]? = some (.insert chunk)) : chunk.group ∉ receivers.reported := by
  intro reported
  have genuine := sharing.insert_genuine found
  obtain ⟨other, member, group, index⟩ := (sharing.whole chunk.group reported).2 chunk.index genuine.index_lt
  exact sharing.fresh found ((sharing.arrived_genuine other member).unique genuine group index ▸ member)

theorem completing_reported (sharing : Sharing pieces arrived receivers) {adding : Adding} {id : Nat}
    (member : adding ∈ receivers.calls) (completing : adding.completing = some id) : id ∈ receivers.reported :=
  sharing.tally.mem_iff.mpr (List.mem_append_right _ (List.mem_filterMap.mpr ⟨adding, member, completing⟩))

theorem addChunk (sharing : Sharing pieces arrived receivers) {chunk : ChunkedData} (genuine : Genuine pieces chunk)
    (fresh : chunk ∉ receivers.delivered) : Sharing pieces arrived { receivers with
      calls := receivers.calls ++ [.insert chunk]
      delivered := receivers.delivered ++ [chunk] } where
  genuine := by
    intro other member
    rcases List.mem_append.mp member with old | new
    · exact sharing.genuine other old
    · exact List.mem_singleton.mp new ▸ genuine
  distinct := List.nodup_append.mpr ⟨sharing.distinct, by simp, by
    intro other member new same
    rw [List.mem_singleton] at same
    rintro rfl
    exact fresh (same ▸ member)⟩
  length := by simp [sharing.length]
  inserting := by
    intro call other held
    rcases Runs.append_some held with ⟨rfl, same⟩ | old
    · cases same
      simp [sharing.length]
    · have delivered := sharing.inserting call other old
      rw [List.getElem?_append_left (List.getElem?_eq_some_iff.mp delivered).1]
      exact delivered
  landed := by
    intro other member
    obtain ⟨call, delivered, passed⟩ := sharing.landed other member
    have inside := (List.getElem?_eq_some_iff.mp delivered).1
    refine ⟨call, by rw [List.getElem?_append_left inside]; exact delivered, ?_⟩
    intro third held
    rcases Runs.append_some held with ⟨outside, -⟩ | old
    · exact absurd (outside.trans sharing.length) (Nat.ne_of_lt inside)
    · exact passed third old
  groups := sharing.groups
  complete := fun id member => sharing.complete id (by simpa using member)
  removed := fun id group member => sharing.removed id group (by simpa using member)
  whole := sharing.whole
  nodup := sharing.nodup
  tally := by simpa [List.filterMap_cons, Adding.completing] using sharing.tally
  calm := fun panic member => sharing.calm panic (by simpa using member)
  completed := sharing.completed

/-- A call goes on to `adding`; `more` are the groups that it newly found complete
and `done` those that it pushed. -/
structure Moves (pieces : Nat → List Bytes) (receivers next : Receivers T) (call : Nat) (adding : Adding)
    (more done : List Nat) : Prop where
  calls : next.calls = receivers.calls.set call adding
  delivered : next.delivered = receivers.delivered
  taken : next.taken = receivers.taken
  reported : next.reported = receivers.reported ++ more
  pushed : next.pushed = receivers.pushed ++ done
  completed : next.chunker.completedChunks = receivers.chunker.completedChunks ++ done.map (message pieces)
  passes : ∀ chunk, adding ≠ .insert chunk
  fine : ∀ panic, adding ≠ .panicked panic

theorem move (sharing : Sharing pieces arrived receivers) {call : Nat} {held adding : Adding} {more done : List Nat}
    (moves : Moves pieces receivers next call adding more done) (found : receivers.calls[call]? = some held)
    {after : List ChunkedData} (kept : arrived ⊆ after)
    (landed : ∀ chunk ∈ after, chunk ∈ arrived ∨ receivers.delivered[call]? = some chunk)
    (groups : ∀ (id : Nat) (group : ChunkGroup), next.chunker.chunkGroups[id]? = some group → Partial pieces after id group)
    (complete : ∀ id, Adding.remove id ∈ receivers.calls.set call adding →
      ∃ group, next.chunker.chunkGroups[id]? = some group ∧ group.isComplete = true)
    (removed : ∀ id group, adding = .push id group → Partial pieces after id group ∧ group.isComplete = true)
    (whole : ∀ id ∈ more, Whole pieces after id) (unreported : ∀ id ∈ more, id ∉ receivers.reported) (single : more.Nodup)
    (tally : (more ++ held.completing.toList).Perm (done ++ adding.completing.toList)) : Sharing pieces after next where
  genuine := moves.delivered ▸ sharing.genuine
  distinct := moves.delivered ▸ sharing.distinct
  length := by simp [moves.calls, moves.delivered, sharing.length]
  inserting := by
    intro other chunk present
    rw [moves.delivered]
    rcases Runs.set_some (moves.calls ▸ present) with ⟨-, same⟩ | ⟨-, old⟩
    · exact absurd same.symm (moves.passes chunk)
    · exact sharing.inserting other chunk old
  landed := by
    intro chunk member
    have passed : ∃ other : Nat, receivers.delivered[other]? = some chunk ∧
        ∀ third, other ≠ call → receivers.calls[other]? ≠ some (.insert third) := by
      rcases landed chunk member with old | new
      · obtain ⟨other, delivered, passed⟩ := sharing.landed chunk old
        exact ⟨other, delivered, fun third _ => passed third⟩
      · exact ⟨call, new, fun third different => absurd rfl different⟩
    obtain ⟨other, origin, passed⟩ := passed
    refine ⟨other, moves.delivered ▸ origin, ?_⟩
    intro third present
    rcases Runs.set_some (moves.calls ▸ present) with ⟨-, same⟩ | ⟨different, old⟩
    · exact moves.passes third same.symm
    · exact passed third different old
  groups := groups
  complete := moves.calls ▸ complete
  removed := by
    intro id group member
    rcases List.mem_or_eq_of_mem_set (moves.calls ▸ member) with old | same
    · exact ⟨(sharing.removed id group old).1.mono kept, (sharing.removed id group old).2⟩
    · exact removed id group same.symm
  whole := by
    intro id member
    rcases List.mem_append.mp (moves.reported ▸ member) with old | new
    · exact (sharing.whole id old).mono kept
    · exact whole id new
  nodup := by
    rw [moves.reported]
    refine List.nodup_append.mpr ⟨sharing.nodup, single, ?_⟩
    rintro id member other new rfl
    exact unreported id new member
  tally := by
    apply List.perm_iff_count.mpr
    intro id
    have before := sharing.tally.count_eq id
    have others := (Runs.filterMap_set Adding.completing found adding).count_eq id
    have change := tally.count_eq id
    rw [moves.reported, moves.pushed, moves.calls]
    simp only [List.count_append] at before others change ⊢
    omega
  calm := by
    intro panic member
    rcases List.mem_or_eq_of_mem_set (moves.calls ▸ member) with old | same
    · exact sharing.calm panic old
    · exact moves.fine panic same.symm
  completed := by
    rw [moves.taken, moves.completed, moves.pushed, ← List.append_assoc, sharing.completed, List.map_append]

theorem insert (sharing : Sharing pieces arrived receivers) {call : Nat} {chunk : ChunkedData}
    (found : receivers.calls[call]? = some (.insert chunk)) (entered : receivers.enter call = some next) :
    Sharing pieces (arrived ++ [chunk]) next := by
  have genuine := sharing.insert_genuine found
  have kept : arrived ⊆ arrived ++ [chunk] := List.subset_append_left _ _
  obtain ⟨group, added, held, -, inserted⟩ := Assembling.inserts sharing.groups genuine (sharing.fresh found)
  have landed : ∀ other ∈ arrived ++ [chunk], other ∈ arrived ∨ receivers.delivered[call]? = some other := by
    intro other member
    rcases List.mem_append.mp member with old | new
    · exact .inl old
    · exact .inr (List.mem_singleton.mp new ▸ sharing.inserting call chunk found)
  have complete : ∀ id, Adding.remove id ∈ receivers.calls →
      ∃ other, (receivers.chunker.chunkGroups.insert chunk.group group)[id]? = some other ∧ other.isComplete = true := by
    intro id member
    have different : chunk.group ≠ id := fun same =>
      sharing.unreported found (same ▸ sharing.completing_reported member rfl)
    rw [Std.TreeMap.getElem?_insert, if_neg (mt Nat.compare_eq_eq.mp different)]
    exact sharing.complete id member
  simp only [Receivers.enter, found, added] at entered
  cases full : group.isComplete with
  | true =>
    rw [full] at entered
    have moves : Moves pieces receivers next call (.remove chunk.group) [chunk.group] [] := by
      cases entered
      exact ⟨rfl, rfl, rfl, rfl, (List.append_nil _).symm, (List.append_nil _).symm, by simp, by simp⟩
    cases entered
    refine sharing.move moves found kept landed inserted ?_ (by simp) ?_ ?_ (List.nodup_singleton _) (.refl _)
    · intro id member
      rcases List.mem_or_eq_of_mem_set member with old | same
      · exact complete id old
      · cases same
        exact ⟨group, by simp, full⟩
    · intro id member
      rw [List.mem_singleton.mp member]
      exact (held.collect (Nat.zero_lt_of_lt genuine.index_lt) full).2
    · intro id member
      rw [List.mem_singleton.mp member]
      exact sharing.unreported found
  | false =>
    rw [full] at entered
    have moves : Moves pieces receivers next call .cleanUp [] [] := by
      cases entered
      exact ⟨rfl, rfl, rfl, (List.append_nil _).symm, (List.append_nil _).symm, (List.append_nil _).symm, by simp, by simp⟩
    cases entered
    refine sharing.move moves found kept landed inserted ?_ (by simp) (by simp) (by simp) .nil (.refl _)
    intro id member
    rcases List.mem_or_eq_of_mem_set member with old | same
    · exact complete id old
    · cases same

theorem remove_other (sharing : Sharing pieces arrived receivers) {call id other : Nat} {group : ChunkGroup}
    (found : receivers.calls[call]? = some (.remove id))
    (member : Adding.remove other ∈ receivers.calls.set call (.push id group)) : other ≠ id := by
  rintro rfl
  have rest := Runs.filterMap_set Adding.completing found .cleanUp
  have twice : (Adding.remove other) ∈ receivers.calls.set call .cleanUp := by
    obtain ⟨position, present⟩ := List.mem_iff_getElem?.mp member
    rcases Runs.set_some present with ⟨-, same⟩ | ⟨different, old⟩
    · cases same
    · exact List.mem_iff_getElem?.mpr ⟨position, by rw [List.getElem?_set_ne (Ne.symm different)]; exact old⟩
  have nodup := (List.nodup_append.mp (sharing.tally.nodup_iff.mp sharing.nodup)).2.1
  have split := rest.nodup_iff.mpr (by simpa [Adding.completing] using nodup)
  exact (List.nodup_append.mp split).2.2 other (List.mem_filterMap.mpr ⟨_, twice, rfl⟩) other
    (by simp [Adding.completing]) rfl

theorem remove (sharing : Sharing pieces arrived receivers) {call id : Nat}
    (found : receivers.calls[call]? = some (.remove id)) (entered : receivers.enter call = some next) :
    Sharing pieces arrived next := by
  obtain ⟨group, present, full⟩ := sharing.complete id (List.mem_of_getElem? found)
  simp only [Receivers.enter, found, Chunker.removeGroup, present] at entered
  have moves : Moves pieces receivers next call (.push id group) [] [] := by
    cases entered
    exact ⟨rfl, rfl, rfl, (List.append_nil _).symm, (List.append_nil _).symm, (List.append_nil _).symm, by simp, by simp⟩
  cases entered
  refine sharing.move moves found (List.Subset.refl _) (fun _ => .inl) ?_ ?_ ?_ (by simp) (by simp) .nil (.refl _)
  · intro other kept remaining
    rw [Std.TreeMap.getElem?_erase] at remaining
    split at remaining
    · cases remaining
    · exact sharing.groups other kept remaining
  · intro other member
    have different := sharing.remove_other found member
    rw [Std.TreeMap.getElem?_erase, if_neg (mt Nat.compare_eq_eq.mp different.symm)]
    rcases List.mem_or_eq_of_mem_set member with old | same
    · exact sharing.complete other old
    · cases same
  · rintro other kept ⟨⟩
    exact ⟨sharing.groups id group present, full⟩

theorem push (sharing : Sharing pieces arrived receivers) {call id : Nat} {group : ChunkGroup}
    (found : receivers.calls[call]? = some (.push id group)) (entered : receivers.enter call = some next) :
    Sharing pieces arrived next := by
  obtain ⟨held, full⟩ := sharing.removed id group (List.mem_of_getElem? found)
  have reported := sharing.completing_reported (List.mem_of_getElem? found) rfl
  have collected := (held.collect (sharing.whole id reported).1 full).1
  simp only [Receivers.enter, found, Chunker.pushCompleted, collected, bind, Except.bind, pure, Except.pure] at entered
  have moves : Moves pieces receivers next call .cleanUp [] [id] := by
    cases entered
    exact ⟨rfl, rfl, rfl, (List.append_nil _).symm, rfl, rfl, by simp, by simp⟩
  cases entered
  refine sharing.move moves found (List.Subset.refl _) (fun _ => .inl) sharing.groups ?_ (by simp) (by simp) (by simp) .nil
    (.refl _)
  intro other member
  rcases List.mem_or_eq_of_mem_set member with old | same
  · exact sharing.complete other old
  · cases same

theorem cleanUp (sharing : Sharing pieces arrived receivers) {call : Nat} (found : receivers.calls[call]? = some .cleanUp)
    (spared : receivers.Spared (.enter call)) (entered : receivers.enter call = some next) :
    Sharing pieces arrived next := by
  simp only [Receivers.enter, found] at entered
  have moves : Moves pieces receivers next call .finished [] [] := by
    cases entered
    exact ⟨rfl, rfl, rfl, (List.append_nil _).symm, (List.append_nil _).symm, by simp, by simp, by simp⟩
  cases entered
  refine sharing.move moves found (List.Subset.refl _) (fun _ => .inl) ?_ ?_ (by simp) (by simp) (by simp) .nil (.refl _)
  · intro id group present
    simp only [Chunker.cleanUp] at present
    split at present
    · exact sharing.groups id group (popFirst_some present)
    · exact sharing.groups id group present
  · intro id member
    rcases List.mem_or_eq_of_mem_set member with old | same
    · simp only [Chunker.cleanUp]
      split
      next many =>
        simp only
        rw [popFirst_other (fun least => spared found many id least old)]
        exact sharing.complete id old
      next => exact sharing.complete id old
    · cases same

theorem nextReadyChunk (sharing : Sharing pieces arrived receivers)
    (stepped : receivers.step .nextReadyChunk = some next) : Sharing pieces arrived next := by
  have completed := sharing.completed
  cases ready : receivers.chunker.completedChunks with
  | nil =>
    simp only [Receivers.step, Chunker.nextReadyChunk, ready] at stepped
    cases stepped
    exact { sharing with completed := by simpa using completed }
  | cons first rest =>
    simp only [Receivers.step, Chunker.nextReadyChunk, ready] at stepped
    cases stepped
    exact { sharing with completed := by simpa [ready] using completed }

theorem step (sharing : Sharing pieces arrived receivers) (delivers : receivers.Delivers pieces label)
    (spared : receivers.Spared label) (stepped : receivers.step label = some next) :
    ∃ arrived, Sharing pieces arrived next := by
  cases label with
  | addChunk chunk =>
    cases stepped
    exact ⟨arrived, sharing.addChunk delivers.1 delivers.2⟩
  | nextReadyChunk => exact ⟨arrived, sharing.nextReadyChunk stepped⟩
  | enter call =>
    have entered : receivers.enter call = some next := stepped
    cases found : receivers.calls[call]? with
    | none => simp [Receivers.enter, found] at entered
    | some adding =>
      cases adding with
      | insert chunk => exact ⟨_, sharing.insert found entered⟩
      | remove id => exact ⟨_, sharing.remove found entered⟩
      | push id group => exact ⟨_, sharing.push found entered⟩
      | cleanUp => exact ⟨_, sharing.cleanUp found spared entered⟩
      | finished => simp [Receivers.enter, found] at entered
      | panicked panic => simp [Receivers.enter, found] at entered

end Sharing

/-- As long as no cleanup evicts a group that another call is about to remove, no
call panics, and every group that is reported complete is pushed once: by a call
that is still at it, or already. -/
theorem receivers_safe (pieces : Nat → List Bytes) (delegate : T) (chunkSize : Nat) (labels : List Label)
    (final : Receivers T) (genuine : ∀ chunk ∈ labels.filterMap Label.chunk, Genuine pieces chunk)
    (distinct : (labels.filterMap Label.chunk).Nodup) (spared : Runs.Meets step Spared (start delegate chunkSize) labels)
    (reached : Runs.run step (start delegate chunkSize) labels = some final) :
    (∀ panic, Adding.panicked panic ∉ final.calls) ∧ final.reported.Nodup ∧
    final.reported.Perm (final.pushed ++ final.calls.filterMap Adding.completing) ∧
    ((∀ adding ∈ final.calls, adding = .finished) → final.reported.Perm final.pushed) ∧
    final.taken ++ final.chunker.completedChunks = final.pushed.map (message pieces) := by
  have preserves : ∀ (receivers : Receivers T) label next, (∃ arrived, Sharing pieces arrived receivers) →
      receivers.Delivers pieces label ∧ receivers.Spared label → receivers.step label = some next →
      ∃ arrived, Sharing pieces arrived next := by
    rintro receivers label next ⟨arrived, sharing⟩ ⟨delivers, spared⟩ stepped
    exact sharing.step delivers spared stepped
  have delivers : Runs.Meets step (Delivers pieces) (start delegate chunkSize) labels := Delivers.of_chunks genuine distinct
  obtain ⟨arrived, sharing⟩ := (delivers.and spared).invariant preserves
    ⟨[], Sharing.start pieces delegate chunkSize⟩ reached
  refine ⟨sharing.calm, sharing.nodup, sharing.tally, ?_, sharing.completed⟩
  intro returned
  have idle : final.calls.filterMap Adding.completing = [] := by
    rw [List.filterMap_eq_nil_iff]
    intro adding member
    rw [returned adding member]
    rfl
  simpa [idle] using sharing.tally

/-- Group 0 has one piece, every other group two. -/
def somePieces (id : Nat) : List Bytes := if id = 0 then [[7]] else [[1], [2]]

/-- The first pieces of groups 0 to 10 are inserted, by eleven calls. -/
def elevenGroups : List Label :=
  [.addChunk ⟨0, 0, 1, [7]⟩, .addChunk ⟨1, 0, 2, [1]⟩, .addChunk ⟨2, 0, 2, [1]⟩, .addChunk ⟨3, 0, 2, [1]⟩,
    .addChunk ⟨4, 0, 2, [1]⟩, .addChunk ⟨5, 0, 2, [1]⟩, .addChunk ⟨6, 0, 2, [1]⟩, .addChunk ⟨7, 0, 2, [1]⟩,
    .addChunk ⟨8, 0, 2, [1]⟩, .addChunk ⟨9, 0, 2, [1]⟩, .addChunk ⟨10, 0, 2, [1]⟩, .enter 0, .enter 1, .enter 2, .enter 3,
    .enter 4, .enter 5, .enter 6, .enter 7, .enter 8, .enter 9, .enter 10]

/-- The call that completed group 0 goes on before the others clean up. -/
theorem receivers_safe_prompt :
    Runs.Meets step Spared (start () 1) (elevenGroups ++ [.enter 0, .enter 0, .enter 10, .enter 0]) ∧
    ∃ final, Runs.run step (start () 1) (elevenGroups ++ [.enter 0, .enter 0, .enter 10, .enter 0]) = some final ∧
      final.taken ++ final.chunker.completedChunks = final.pushed.map (message somePieces) := by
  have spared : Runs.Meets step Spared (start () 1) (elevenGroups ++ [.enter 0, .enter 0, .enter 10, .enter 0]) := by
    decide +kernel
  exact ⟨spared, _, rfl, (receivers_safe somePieces () 1 _ _ (by decide) (by decide) spared rfl).2.2.2.2⟩

theorem cleanUp_evicts {chunker : Chunker T} {id : Nat} (many : chunker.chunkGroups.size > 10)
    (least : chunker.chunkGroups.minKey? = some id) : chunker.cleanUp.chunkGroups[id]? = none := by
  simp [Chunker.cleanUp, many, popFirst, least]

def crowded : Receivers Unit := (Runs.run step (start () 1) elevenGroups).getD (start () 1)

theorem crowded_least : crowded.chunker.chunkGroups.minKey? = some 0 := by
  rw [Std.TreeMap.minKey?_eq_some_iff_mem_and_forall]
  refine ⟨by decide +kernel, ?_⟩
  intro id member
  exact Nat.isLE_compare.mpr (Nat.zero_le id)

/-- The cleanup of the call that inserted the eleventh group evicts group 0, which
the first call has found complete. -/
theorem receivers_safe_evicted :
    (∀ chunk ∈ elevenGroups.filterMap Label.chunk, Genuine somePieces chunk) ∧
    (elevenGroups.filterMap Label.chunk).Nodup ∧
    ∃ final, Runs.run step (start () 1) (elevenGroups ++ [.enter 10, .enter 0]) = some final ∧
      Adding.panicked .unwrap ∈ final.calls ∧ final.reported = [0] ∧ final.pushed = [] := by
  have full : Runs.run step (start () 1) elevenGroups = some crowded := rfl
  have evicted := cleanUp_evicts (by decide +kernel) crowded_least
  let swept : Receivers Unit :=
    { crowded with chunker := crowded.chunker.cleanUp, calls := crowded.calls.set 10 .finished }
  have cleans : crowded.step (.enter 10) = some swept := rfl
  have panics : swept.step (.enter 0) = some { swept with calls := swept.calls.set 0 (.panicked .unwrap) } := by
    have removing : swept.calls[0]? = some (.remove 0) := rfl
    simp only [step, enter, removing, Chunker.removeGroup]
    rw [show swept.chunker.chunkGroups[0]? = none from evicted]
  refine ⟨by decide, by decide, { swept with calls := swept.calls.set 0 (.panicked .unwrap) }, ?_, by decide +kernel, rfl, rfl⟩
  rw [Runs.run_append full]
  simp only [Runs.run, List.foldlM_cons, cleans, Option.bind_eq_bind, Option.bind_some, panics, List.foldlM_nil, pure]

end Veq.Receivers
