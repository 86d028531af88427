import Veq.Runs
import Mathlib.Data.List.MinMax
import Mathlib.Data.List.Nodup
import Mathlib.Data.List.Flatten

/-! Threads that take locks. A program says which locks a piece of code holds, for
which part of it, and where it waits for something outside. Where every program
takes its locks in the order of one rank and waits only while it holds none, no
run can come to a state in which a lock stays held. -/

namespace Locks

/-- The locks of a piece of code. `hold` has its lock for the time of its body;
`either` is a branch on data; `pick` goes on with whichever object is found. -/
inductive Program (I L : Type) where
  | skip
  | wait
  | hold (lock : L) (body : Program I L)
  | seq (first second : Program I L)
  | either (left right : Program I L)
  | pick (branch : I → Program I L)
  | loop (body : Program I L)

variable {I L : Type}

namespace Program

/-- One piece after another, each of which may be the last. -/
def attempts : List (Program I L) → Program I L
  | [] => .skip
  | program :: programs => .seq program (.either .skip (attempts programs))

/-- One piece after another. -/
def sequence : List (Program I L) → Program I L
  | [] => .skip
  | program :: programs => .seq program (sequence programs)

/-- The number of moves to the end at most, where the program neither waits nor
loops. -/
def size [Inhabited I] : Program I L → Nat
  | .skip => 1
  | .wait => 1
  | .hold _ body => body.size + 2
  | .seq first second => first.size + second.size + 1
  | .either left right => max left.size right.size + 1
  | .pick branch => (branch default).size + 1
  | .loop _ => 1

/-- A program that may run while a lock of a rank below `floor` is held; none is
held where `floor` is 0. -/
def Ascends [Inhabited I] (rank : L → Nat) : Nat → Program I L → Prop
  | _, .skip => True
  | floor, .wait => floor = 0
  | floor, .hold lock body => floor ≤ rank lock ∧ body.Ascends rank (rank lock + 1)
  | floor, .seq first second => first.Ascends rank floor ∧ second.Ascends rank floor
  | floor, .either left right => left.Ascends rank floor ∧ right.Ascends rank floor
  | floor, .pick branch => ∀ index, (branch index).Ascends rank floor ∧ (branch index).size ≤ (branch default).size
  | floor, .loop body => floor = 0 ∧ body.Ascends rank 0

end Program

/-- What a thread has still to do: run a program, or give a lock back. -/
inductive Frame (I L : Type) where
  | run (program : Program I L)
  | release (lock : L)

/-- A branch taken, and the object found. -/
structure Choice (I : Type) where
  left : Bool
  index : I

abbrev Thread (I L : Type) := List (Frame I L)

namespace Thread

/-- The locks that are held are those still to be given back. -/
def held : Thread I L → List L
  | [] => []
  | .release lock :: rest => lock :: held rest
  | .run _ :: rest => held rest

def advance (free : L → Bool) (choice : Choice I) : Thread I L → Option (Thread I L)
  | [] => none
  | .release _ :: rest => some rest
  | .run .skip :: rest => some rest
  | .run .wait :: rest => some rest
  | .run (.hold lock body) :: rest => if free lock then some (.run body :: .release lock :: rest) else none
  | .run (.seq first second) :: rest => some (.run first :: .run second :: rest)
  | .run (.either left right) :: rest => some (.run (if choice.left then left else right) :: rest)
  | .run (.pick branch) :: rest => some (.run (branch choice.index) :: rest)
  | .run (.loop body) :: rest => some (if choice.left then .run body :: .run (.loop body) :: rest else rest)

/-- The moves to the point where the thread has given its last lock back. -/
def pending [Inhabited I] : Thread I L → Nat
  | [] => 0
  | .release _ :: rest => pending rest + 1
  | .run program :: rest => if (held rest).isEmpty then 0 else program.size + pending rest

end Thread

inductive Label (I L : Type) where
  | spawn (program : Program I L)
  | advance (task : Nat) (choice : Choice I)
  | cancel (task : Nat)

abbrev Threads (I L : Type) := List (Thread I L)

namespace Threads

variable [DecidableEq L]

def isFree (threads : Threads I L) (lock : L) : Bool := threads.all fun thread => !thread.held.contains lock

def advance (threads : Threads I L) (task : Nat) (choice : Choice I) : Option (Threads I L) :=
  match threads[task]? with
  | none => none
  | some thread => (thread.advance threads.isFree choice).map (threads.set task)

/-- A thread that is cancelled gives its locks back. -/
def step (threads : Threads I L) : Label I L → Option (Threads I L)
  | .spawn program => some (threads ++ [[.run program]])
  | .advance task choice => threads.advance task choice
  | .cancel task => some (threads.eraseIdx task)

def run (threads : Threads I L) (labels : List (Label I L)) : Option (Threads I L) := labels.foldlM step threads

/-- A move of a thread that holds a lock. -/
def drain (threads : Threads I L) (move : Nat × Choice I) : Option (Threads I L) :=
  match threads[move.1]? with
  | none => none
  | some thread => if thread.held.isEmpty then none else threads.advance move.1 move.2

def drains (threads : Threads I L) (moves : List (Nat × Choice I)) : Option (Threads I L) := moves.foldlM drain threads

/-- The moves to the point where no lock is held. -/
def pending [Inhabited I] : Threads I L → Nat
  | [] => 0
  | thread :: rest => thread.pending + pending rest

end Threads

namespace Thread

variable (rank : L → Nat)

/-- Above the ranks of the locks that are held, and 0 where none is. -/
def floor : Thread I L → Nat
  | [] => 0
  | .release lock :: _ => rank lock + 1
  | .run _ :: rest => floor rest

def Disciplined [Inhabited I] : Thread I L → Prop
  | [] => True
  | .release lock :: rest => floor rank rest ≤ rank lock ∧ Disciplined rest
  | .run program :: rest => program.Ascends rank (floor rank rest) ∧ Disciplined rest

variable {rank} {thread next : Thread I L}

theorem floor_eq_zero : floor rank thread = 0 ↔ thread.held = [] := by
  induction thread with
  | nil => simp [floor, held]
  | cons frame rest ih =>
    cases frame with
    | release lock => simp [floor, held]
    | run program => simpa only [floor, held] using ih

section

variable [Inhabited I]

theorem rank_lt_floor {lock : L} (disciplined : thread.Disciplined rank) (holds : lock ∈ thread.held) :
    rank lock < floor rank thread := by
  induction thread with
  | nil => cases holds
  | cons frame rest ih =>
    cases frame with
    | run program => exact ih disciplined.2 holds
    | release other =>
      rcases List.mem_cons.mp holds with rfl | below
      · exact Nat.lt_succ_self _
      · have lower := ih disciplined.2 below
        have ascending := disciplined.1
        simp only [floor]
        omega

theorem advance_disciplined {free : L → Bool} {choice : Choice I} (disciplined : thread.Disciplined rank)
    (advanced : thread.advance free choice = some next) : next.Disciplined rank := by
  cases thread with
  | nil => cases advanced
  | cons frame rest =>
    cases frame with
    | release lock =>
      cases advanced
      exact disciplined.2
    | run program =>
      obtain ⟨ascends, below⟩ := disciplined
      cases program with
      | skip =>
        cases advanced
        exact below
      | wait =>
        cases advanced
        exact below
      | hold lock body =>
        simp only [advance] at advanced
        split at advanced
        · cases advanced
          exact ⟨ascends.2, ascends.1, below⟩
        · cases advanced
      | seq first second =>
        cases advanced
        exact ⟨ascends.1, ascends.2, below⟩
      | either left right =>
        cases advanced
        refine ⟨?_, below⟩
        split
        · exact ascends.1
        · exact ascends.2
      | pick branch =>
        cases advanced
        exact ⟨(ascends choice.index).1, below⟩
      | loop body =>
        cases advanced
        split
        · refine ⟨?_, ascends, below⟩
          simpa only [floor, ascends.1] using ascends.2
        · exact below

/-- Every move of a thread that holds a lock brings it closer to giving it back. -/
theorem advance_pending {free : L → Bool} {choice : Choice I} (disciplined : thread.Disciplined rank)
    (holds : thread.held ≠ []) (advanced : thread.advance free choice = some next) :
    next.pending < thread.pending := by
  cases thread with
  | nil => cases advanced
  | cons frame rest =>
    cases frame with
    | release lock =>
      cases advanced
      exact Nat.lt_succ_self _
    | run program =>
      obtain ⟨ascends, below⟩ := disciplined
      have kept : held rest ≠ [] := holds
      have raised : floor rank rest ≠ 0 := fun zero => kept (floor_eq_zero.mp zero)
      have counted : Thread.pending (.run program :: rest) = program.size + pending rest := by
        simp [pending, kept]
      rw [counted]
      cases program with
      | skip =>
        cases advanced
        simp [Program.size]
      | wait => exact absurd ascends raised
      | hold lock body =>
        simp only [advance] at advanced
        split at advanced
        · cases advanced
          simp only [pending, held, Program.size, List.isEmpty_cons]
          simp only [Bool.false_eq_true, if_false]
          omega
        · cases advanced
      | seq first second =>
        cases advanced
        simp only [pending, held, Program.size, List.isEmpty_iff, kept, if_false]
        omega
      | either left right =>
        cases advanced
        simp only [pending, Program.size, List.isEmpty_iff, kept, if_false]
        split <;> omega
      | pick branch =>
        cases advanced
        have bounded := (ascends choice.index).2
        simp only [pending, Program.size, List.isEmpty_iff, kept, if_false]
        omega
      | loop body => exact absurd ascends.1 raised

end

/-- A thread with something to do can do it, or needs a lock that is not free. -/
theorem advance_or_blocked (free : L → Bool) (unfinished : thread ≠ []) :
    (∀ choice, (thread.advance free choice).isSome) ∨
      ∃ lock body rest, thread = .run (.hold lock body) :: rest ∧ free lock = false := by
  cases thread with
  | nil => exact absurd rfl unfinished
  | cons frame rest =>
    cases frame with
    | release lock => exact .inl fun _ => rfl
    | run program =>
      cases program with
      | hold lock body =>
        cases unlocked : free lock with
        | true => exact .inl fun _ => by simp [advance, unlocked]
        | false => exact .inr ⟨lock, body, rest, rfl, unlocked⟩
      | _ => exact .inl fun _ => rfl

/-- One move takes a free lock or none, and gives back one lock at most. -/
theorem advance_held {free : L → Bool} {choice : Choice I} (advanced : thread.advance free choice = some next) :
    next.held.Sublist thread.held ∨ ∃ lock, free lock = true ∧ next.held = lock :: thread.held := by
  cases thread with
  | nil => cases advanced
  | cons frame rest =>
    cases frame with
    | release lock =>
      cases advanced
      exact .inl (List.sublist_cons_self _ _)
    | run program =>
      cases program with
      | hold lock body =>
        simp only [advance] at advanced
        split at advanced
        next unlocked =>
          cases advanced
          exact .inr ⟨lock, unlocked, rfl⟩
        next => cases advanced
      | loop body =>
        cases advanced
        refine .inl ?_
        split <;> exact List.Sublist.refl _
      | _ =>
        cases advanced
        exact .inl (List.Sublist.refl _)

end Thread

namespace Threads

variable {rank : L → Nat} {threads next : Threads I L} {task : Nat} {choice : Choice I}

structure Valid [Inhabited I] (rank : L → Nat) (threads : Threads I L) : Prop where
  disciplined : ∀ thread ∈ threads, thread.Disciplined rank
  exclusive : (threads.flatMap Thread.held).Nodup

section

variable [Inhabited I]

theorem Valid.spawn (valid : Valid rank threads) {program : Program I L} (ascends : program.Ascends rank 0) :
    Valid rank (threads ++ [[.run program]]) := by
  refine ⟨?_, ?_⟩
  · intro thread member
    rcases List.mem_append.mp member with old | new
    · exact valid.disciplined thread old
    · obtain rfl := List.mem_singleton.mp new
      exact ⟨ascends, trivial⟩
  · simpa [List.flatMap_append, Thread.held] using valid.exclusive

theorem Valid.cancel (valid : Valid rank threads) (task : Nat) : Valid rank (threads.eraseIdx task) :=
  ⟨fun thread member => valid.disciplined thread (List.mem_of_mem_eraseIdx member),
    valid.exclusive.sublist ((List.eraseIdx_sublist threads task).flatMap _)⟩

theorem pending_append (first second : Threads I L) : pending (first ++ second) = first.pending + second.pending := by
  induction first with
  | nil => exact (Nat.zero_add _).symm
  | cons thread rest ih =>
    rw [List.cons_append, pending, pending, ih]
    omega

/-- A thread that waits holds no lock. -/
theorem Valid.waiting (valid : Valid rank threads) {rest : Thread I L} (member : .run .wait :: rest ∈ threads) :
    Thread.held rest = [] :=
  Thread.floor_eq_zero.mp (valid.disciplined _ member).1

end

variable [DecidableEq L]

theorem isFree_iff {lock : L} : threads.isFree lock = true ↔ lock ∉ threads.flatMap Thread.held := by
  simp [isFree]

theorem advance_some (advanced : threads.advance task choice = some next) :
    ∃ before thread later moved, threads = before ++ thread :: later ∧ next = before ++ moved :: later ∧
      thread.advance threads.isFree choice = some moved ∧ threads[task]? = some thread := by
  unfold advance at advanced
  split at advanced
  next => cases advanced
  next thread found =>
    obtain ⟨moved, step, rfl⟩ := Option.map_eq_some_iff.mp advanced
    obtain ⟨inside, same⟩ := List.getElem?_eq_some_iff.mp found
    obtain ⟨before, later, split, -, placed⟩ : ∃ before later, threads = before ++ threads[task] :: later ∧
        before.length = task ∧ threads.set task moved = before ++ moved :: later := List.exists_of_set inside
    exact ⟨before, thread, later, moved, same ▸ split, placed, step, found⟩

section

variable [Inhabited I]

theorem Valid.advance (valid : Valid rank threads) (advanced : threads.advance task choice = some next) : Valid rank next := by
  obtain ⟨before, thread, later, moved, rfl, rfl, step, -⟩ := advance_some advanced
  have inside : thread ∈ before ++ thread :: later := List.mem_append_right _ List.mem_cons_self
  refine ⟨?_, ?_⟩
  · intro other member
    rcases List.mem_append.mp member with early | late
    · exact valid.disciplined other (List.mem_append_left _ early)
    · rcases List.mem_cons.mp late with rfl | late
      · exact Thread.advance_disciplined (valid.disciplined thread inside) step
      · exact valid.disciplined other (List.mem_append_right _ (List.mem_cons_of_mem _ late))
  · have exclusive := valid.exclusive
    rw [List.flatMap_append, List.flatMap_cons] at exclusive ⊢
    rcases Thread.advance_held step with fewer | ⟨lock, unlocked, taken⟩
    · exact exclusive.sublist ((List.Sublist.refl _).append (fewer.append (List.Sublist.refl _)))
    · have absent := isFree_iff.mp unlocked
      rw [List.flatMap_append, List.flatMap_cons] at absent
      rw [taken, List.cons_append]
      exact List.nodup_middle.mpr (List.nodup_cons.mpr ⟨absent, exclusive⟩)

/-- A run that spawns ascending programs only. -/
def Ascending (rank : L → Nat) : Label I L → Prop
  | .spawn program => program.Ascends rank 0
  | .advance _ _ => True
  | .cancel _ => True

theorem Valid.step {label : Label I L} (valid : Valid rank threads) (ascending : Ascending rank label)
    (stepped : threads.step label = some next) : Valid rank next := by
  cases label with
  | spawn program =>
    cases stepped
    exact valid.spawn ascending
  | advance task choice => exact valid.advance stepped
  | cancel task =>
    cases stepped
    exact valid.cancel task

theorem Valid.run {labels : List (Label I L)} (valid : Valid rank threads)
    (ascending : ∀ label ∈ labels, Ascending rank label) (reached : threads.run labels = some next) :
    Valid rank next := by
  induction labels generalizing threads with
  | nil =>
    cases reached
    exact valid
  | cons label labels ih =>
    obtain ⟨middle, stepped, rest⟩ := Runs.run_cons reached
    have kept := valid.step (ascending label List.mem_cons_self) stepped
    exact ih kept (fun other member => ascending other (List.mem_cons_of_mem _ member)) rest

/-- Of the threads that hold a lock, the one that holds the highest can move. -/
theorem Valid.progress (valid : Valid rank threads) {holder : Thread I L} (member : holder ∈ threads)
    (holds : holder.held ≠ []) :
    ∃ task thread, threads[task]? = some thread ∧ thread.held ≠ [] ∧
      ∀ choice, (threads.advance task choice).isSome := by
  obtain ⟨highest, selected⟩ : ∃ highest, highest ∈ threads.argmax (Thread.floor rank) := by
    cases chosen : threads.argmax (Thread.floor rank) with
    | none =>
      rw [List.argmax_eq_none] at chosen
      exact absurd member (chosen ▸ List.not_mem_nil)
    | some highest => exact ⟨highest, rfl⟩
  have inside := List.argmax_mem selected
  have raised : Thread.floor rank highest ≠ 0 := by
    have above := List.le_of_mem_argmax member selected
    have positive : Thread.floor rank holder ≠ 0 := fun zero => holds (Thread.floor_eq_zero.mp zero)
    omega
  have holding : highest.held ≠ [] := fun none => raised (Thread.floor_eq_zero.mpr none)
  have unfinished : highest ≠ [] := by
    intro finished
    exact holding (finished ▸ rfl)
  obtain ⟨task, found⟩ := List.mem_iff_getElem?.mp inside
  refine ⟨task, highest, found, holding, ?_⟩
  rcases Thread.advance_or_blocked threads.isFree unfinished with able | ⟨lock, body, rest, rfl, taken⟩
  · intro choice
    simpa [Threads.advance, found] using able choice
  · obtain ⟨other, present, owns⟩ : ∃ other ∈ threads, lock ∈ other.held := by
      simpa [isFree] using taken
    have below := (valid.disciplined _ inside).1.1
    have above := Thread.rank_lt_floor (valid.disciplined other present) owns
    have bound := List.le_of_mem_argmax present selected
    simp only [Thread.floor] at bound
    omega

/-- Every move of a thread that holds a lock is paid for. -/
theorem drain_pending (valid : Valid rank threads) {move : Nat × Choice I} (drained : threads.drain move = some next) :
    Valid rank next ∧ next.pending < threads.pending := by
  unfold drain at drained
  split at drained
  next => cases drained
  next found present =>
    split at drained
    next => cases drained
    next holds =>
      refine ⟨valid.advance drained, ?_⟩
      obtain ⟨before, thread, later, moved, rfl, rfl, step, same⟩ := advance_some drained
      cases present.symm.trans same
      have inside : found ∈ before ++ found :: later := List.mem_append_right _ List.mem_cons_self
      have less := Thread.advance_pending (valid.disciplined found inside)
        (fun none => holds (List.isEmpty_iff.mpr none)) step
      rw [pending_append, pending_append, pending, pending]
      omega

/-- Nothing stops a thread that holds a lock of the highest rank. -/
theorem Valid.highest (valid : Valid rank threads) {thread : Thread I L} (found : threads[task]? = some thread) {lock : L}
    (holds : lock ∈ thread.held) (top : ∀ other, rank other ≤ rank lock) (choice : Choice I) :
    (threads.advance task choice).isSome := by
  have disciplined := valid.disciplined thread (List.mem_of_getElem? found)
  have unfinished : thread ≠ [] := by
    intro finished
    cases finished ▸ holds
  rcases Thread.advance_or_blocked threads.isFree unfinished with able | ⟨wanted, body, rest, rfl, -⟩
  · simpa [Threads.advance, found] using able choice
  · have below := disciplined.1.1
    have above := Thread.rank_lt_floor disciplined.2 holds
    have bound := top wanted
    omega

theorem drain_none (valid : Valid rank threads) (stuck : ∀ move, threads.drain move = none) :
    ∀ thread ∈ threads, thread.held = [] := by
  intro thread member
  apply Classical.byContradiction
  intro holds
  obtain ⟨task, holder, found, holding, able⟩ := valid.progress member holds
  have moves := able ⟨false, default⟩
  have none := stuck (task, ⟨false, default⟩)
  simp only [drain, found, List.isEmpty_iff, holding, if_false] at none
  rw [none] at moves
  cases moves

/-- Whatever the order in which the threads that hold a lock go on: they are done
after so many moves, and nothing stops them before. -/
theorem drains_settle (valid : Valid rank threads) {moves : List (Nat × Choice I)}
    (drained : threads.drains moves = some next) :
    moves.length + next.pending ≤ threads.pending ∧
      ((∀ move, next.drain move = none) → ∀ thread ∈ next, thread.held = []) := by
  induction moves generalizing threads with
  | nil =>
    cases drained
    exact ⟨by simp, drain_none valid⟩
  | cons move moves ih =>
    obtain ⟨middle, moved, rest⟩ := Runs.run_cons drained
    obtain ⟨kept, less⟩ := drain_pending valid moved
    obtain ⟨bound, settled⟩ := ih kept rest
    refine ⟨?_, settled⟩
    rw [List.length_cons]
    omega

end
end Threads

namespace Thread

variable [DecidableEq L]

/-- What a thread can do by itself while no other thread holds a lock. -/
def Reaches : Thread I L → Thread I L → Prop :=
  Relation.ReflTransGen fun thread next =>
    ∃ choice, thread.advance (fun lock => !thread.held.contains lock) choice = some next

namespace Reaches

variable {rest next : Thread I L} {lock : L}

theorem done : Reaches next next := .refl

theorem pick {branch : I → Program I L} (index : I) (later : Reaches (.run (branch index) :: rest) next) :
    Reaches (.run (.pick branch) :: rest) next :=
  .head ⟨⟨true, index⟩, rfl⟩ later

variable [Inhabited I] {first second : Program I L}

theorem skip (later : Reaches rest next) : Reaches (.run .skip :: rest) next :=
  .head ⟨⟨true, default⟩, rfl⟩ later

theorem seq (later : Reaches (.run first :: .run second :: rest) next) : Reaches (.run (.seq first second) :: rest) next :=
  .head ⟨⟨true, default⟩, rfl⟩ later

theorem left (later : Reaches (.run first :: rest) next) : Reaches (.run (.either first second) :: rest) next :=
  .head ⟨⟨true, default⟩, rfl⟩ later

theorem right (later : Reaches (.run second :: rest) next) : Reaches (.run (.either first second) :: rest) next :=
  .head ⟨⟨false, default⟩, rfl⟩ later

theorem release (later : Reaches rest next) : Reaches (.release lock :: rest) next :=
  .head ⟨⟨true, default⟩, rfl⟩ later

theorem hold (quiet : Thread.held rest = []) (later : Reaches (.run first :: .release lock :: rest) next) :
    Reaches (.run (.hold lock first) :: rest) next :=
  .head ⟨⟨true, default⟩, by simp [Thread.advance, Thread.held, quiet]⟩ later

end Reaches
end Thread

namespace Threads

variable [DecidableEq L] {before later : Threads I L} {thread next : Thread I L}

theorem isFree_middle (quiet : ∀ other ∈ before ++ later, other.held = []) (lock : L) :
    isFree (before ++ thread :: later) lock = !thread.held.contains lock := by
  have early : ∀ other ∈ before, other.held = [] := fun other member => quiet other (List.mem_append_left _ member)
  have late : ∀ other ∈ later, other.held = [] := fun other member => quiet other (List.mem_append_right _ member)
  have first : before.all (fun other => !other.held.contains lock) = true :=
    List.all_eq_true.mpr fun other member => by simp [early other member]
  have last : later.all (fun other => !other.held.contains lock) = true :=
    List.all_eq_true.mpr fun other member => by simp [late other member]
  rw [isFree, List.all_append, List.all_cons, first, last, Bool.true_and, Bool.and_true]

/-- What a thread can do by itself, it can do among others that hold no lock. -/
theorem run_reaches (quiet : ∀ other ∈ before ++ later, other.held = []) (reaches : thread.Reaches next) :
    ∃ choices : List (Choice I),
      run (before ++ thread :: later) (choices.map (Label.advance before.length)) = some (before ++ next :: later) := by
  induction reaches using Relation.ReflTransGen.head_induction_on with
  | refl => exact ⟨[], rfl⟩
  | @head current following moved _ ih =>
    obtain ⟨choice, step⟩ := moved
    obtain ⟨choices, rest⟩ := ih
    refine ⟨choice :: choices, ?_⟩
    have advanced : advance (before ++ current :: later) before.length choice =
        some (before ++ following :: later) := by
      have unlocked : isFree (before ++ current :: later) = fun lock => !current.held.contains lock :=
        funext (isFree_middle quiet)
      have found : (before ++ current :: later)[before.length]? = some current := by simp
      rw [advance, found, unlocked]
      simp only [step, Option.map_some]
      simp
    rw [List.map_cons, run, List.foldlM_cons]
    exact (congrArg (Option.bind · _) advanced).trans rest

end Threads
end Locks
