import Switchboard.Dispatcher

/-!
# A pool of blocking tasks

Dispatches in the background run on a thread pool that belongs to the runtime and
not to this project. What it offers is a parameter, `Pool`, and what is relied on is
said of that parameter by `Pool.Documented`: with one thread, tasks run in the order
in which they were spawned, whether or not somebody still holds their handle; a task
that is aborted before it starts never runs; and joining a task fails when it was
aborted or panics.

`Pool.queue` is a pool of which all this is true. The program runs on it.

* `Pool`: what a pool offers
* `Pool.Documented`: what is known of it
* `Pool.queue_documented`: it is known of the queue
-/

namespace Switchboard

/-- The work of a blocking task on what the handlers share. -/
abbrev PoolTask (σ : Type) := σ → Completion × σ

/-- Why a task cannot be joined. -/
inductive JoinError where
  | cancelled
  | panicked
deriving DecidableEq, Repr

/-- What joining a task gives: its result, unless it was cancelled or panicked. -/
abbrev Joined := Except JoinError (Except DispatchError Unit)

variable {σ : Type}

/-- What a pool of blocking tasks offers. -/
structure Pool (σ : Type) where
  State : Type
  Handle : Type
  empty : State
  spawn : State → PoolTask σ → State × Handle
  abort : State → Handle → State
  /-- Let a handle go without joining its task. -/
  release : State → Handle → State
  /-- The tasks that have not had their turn, the next one first. An aborted one has no work. -/
  waiting : State → List (Handle × Option (PoolTask σ))
  /-- Give the next task its turn. -/
  work : State → σ → State × σ
  /-- What joining a task gives, as soon as it gives something. -/
  joined : State → Handle → Option Joined

namespace Pool

/-- What is known of a pool with one thread. -/
structure Documented (pool : Pool σ) : Prop where
  /-- Tasks that wait can be told apart by their handles. -/
  nodup : ∀ s, ((pool.waiting s).map Prod.fst).Nodup
  waiting_empty : pool.waiting pool.empty = []
  /-- A task that is spawned waits for its turn behind all others. -/
  waiting_spawn : ∀ s task, pool.waiting (pool.spawn s task).1 =
    pool.waiting s ++ [((pool.spawn s task).2, some task)]
  /-- A task that waits can be aborted, which does nothing to others. -/
  waiting_abort : ∀ s before handle task after,
    pool.waiting s = before ++ (handle, some task) :: after →
      pool.waiting (pool.abort s handle) = before ++ (handle, none) :: after
  /-- A task waits for its turn also when nobody holds its handle. -/
  waiting_release : ∀ s handle, pool.waiting (pool.release s handle) = pool.waiting s
  /-- Tasks have one turn each. -/
  waiting_work : ∀ s shared first rest, pool.waiting s = first :: rest →
    pool.waiting (pool.work s shared).1 = rest
  /-- A task does its work when it has its turn. -/
  work_task : ∀ s shared handle task rest, pool.waiting s = (handle, some task) :: rest →
    (pool.work s shared).2 = (task shared).2
  /-- An aborted task does nothing. -/
  work_aborted : ∀ s shared handle rest, pool.waiting s = (handle, none) :: rest →
    (pool.work s shared).2 = shared
  /-- One who joins a task that ended is given its result. -/
  joined_finished : ∀ s shared handle task rest result,
    pool.waiting s = (handle, some task) :: rest → (task shared).1 = .finished result →
      pool.joined (pool.work s shared).1 handle = some (.ok result)
  /-- A panic stays in the pool: joining the task fails. -/
  joined_panicked : ∀ s shared handle task rest,
    pool.waiting s = (handle, some task) :: rest → (task shared).1 = .panicked →
      ∃ e, pool.joined (pool.work s shared).1 handle = some (.error e)
  /-- Joining an aborted task fails as well. -/
  joined_aborted : ∀ s shared handle rest, pool.waiting s = (handle, none) :: rest →
    ∃ e, pool.joined (pool.work s shared).1 handle = some (.error e)
  /-- The turn of a task is nothing to those who join others. -/
  joined_of_ne : ∀ s shared first rest other, pool.waiting s = first :: rest →
    other ≠ first.1 → pool.joined (pool.work s shared).1 other = pool.joined s other

/-- Give the next tasks their turns, one after another. -/
def workOff (pool : Pool σ) : Nat → pool.State → σ → pool.State × σ
  | 0, s, shared => (s, shared)
  | n + 1, s, shared => pool.workOff n (pool.work s shared).1 (pool.work s shared).2

/-- Give all tasks that wait their turns. -/
def drain (pool : Pool σ) (s : pool.State) (shared : σ) : pool.State × σ :=
  pool.workOff (pool.waiting s).length s shared

end Pool

/-- What joining a task gives that came to an end. -/
def Completion.joined : Completion → Joined
  | finished result => .ok result
  | panicked => .error .panicked

/-! ### A pool in which tasks queue up -/

/-- Tasks in the order in which they were spawned, with their numbers as handles. -/
structure TaskQueue (σ : Type) where
  spawned : Nat
  waiting : List (Nat × Option (PoolTask σ))
  joined : List (Nat × Joined)
  below : ∀ entry ∈ waiting, entry.1 < spawned
  nodup : (waiting.map Prod.fst).Nodup

namespace TaskQueue

def empty : TaskQueue σ where
  spawned := 0
  waiting := []
  joined := []
  below := fun _ h => nomatch h
  nodup := .nil

def spawn (q : TaskQueue σ) (task : PoolTask σ) : TaskQueue σ where
  spawned := q.spawned + 1
  waiting := q.waiting ++ [(q.spawned, some task)]
  joined := q.joined
  below := by
    intro entry hentry
    rcases List.mem_append.mp hentry with hold | hnew
    · exact Nat.lt_succ_of_lt (q.below entry hold)
    · obtain rfl := List.mem_singleton.mp hnew
      exact Nat.lt_succ_self _
  nodup := by
    rw [List.map_append, List.nodup_append]
    refine ⟨q.nodup, List.pairwise_singleton _ _, ?_⟩
    intro handle hold new hnew
    obtain ⟨entry, hentry, rfl⟩ := List.mem_map.mp hold
    obtain rfl := List.mem_singleton.mp hnew
    exact Nat.ne_of_lt (q.below entry hentry)

/-- Take the work from the task of a handle. -/
def cancel (handle : Nat) (entry : Nat × Option (PoolTask σ)) : Nat × Option (PoolTask σ) :=
  if entry.1 = handle then (entry.1, none) else entry

theorem fst_cancel (handle : Nat) (entry : Nat × Option (PoolTask σ)) :
    (cancel handle entry).1 = entry.1 := by
  rw [cancel]
  split
  next => rfl
  next => rfl

/-- Tasks are left as they are when the handle is not theirs. -/
theorem map_cancel_of_not_mem {handle : Nat} {entries : List (Nat × Option (PoolTask σ))}
    (h : handle ∉ entries.map Prod.fst) : entries.map (cancel handle) = entries := by
  have hkeep : ∀ entry ∈ entries, cancel handle entry = id entry := by
    intro entry hentry
    refine if_neg fun heq => h ?_
    rw [← heq]
    exact List.mem_map_of_mem hentry
  rw [List.map_congr_left hkeep, List.map_id]

def abort (q : TaskQueue σ) (handle : Nat) : TaskQueue σ where
  spawned := q.spawned
  waiting := q.waiting.map (cancel handle)
  joined := q.joined
  below := by
    intro entry hentry
    obtain ⟨old, hold, rfl⟩ := List.mem_map.mp hentry
    rw [fst_cancel]
    exact q.below old hold
  nodup := by
    have hsame : (q.waiting.map (cancel handle)).map Prod.fst = q.waiting.map Prod.fst := by
      rw [List.map_map]
      exact List.map_congr_left fun entry _ => fst_cancel handle entry
    rw [hsame]
    exact q.nodup

/-- The queue behind the first task, of which joining gives something. -/
def pop (q : TaskQueue σ) {first : Nat × Option (PoolTask σ)}
    {rest : List (Nat × Option (PoolTask σ))} (h : q.waiting = first :: rest) (joined : Joined) :
    TaskQueue σ where
  spawned := q.spawned
  waiting := rest
  joined := (first.1, joined) :: q.joined
  below := fun entry hentry => q.below entry (h ▸ List.mem_cons_of_mem first hentry)
  nodup := by
    have hnodup := q.nodup
    rw [h, List.map_cons, List.nodup_cons] at hnodup
    exact hnodup.2

def work (q : TaskQueue σ) (shared : σ) : TaskQueue σ × σ :=
  match h : q.waiting with
  | [] => (q, shared)
  | (_, none) :: _ => (q.pop h (.error .cancelled), shared)
  | (_, some task) :: _ => (q.pop h (task shared).1.joined, (task shared).2)

theorem work_task {q : TaskQueue σ} {handle : Nat} {task : PoolTask σ}
    {rest : List (Nat × Option (PoolTask σ))} (h : q.waiting = (handle, some task) :: rest)
    (shared : σ) : q.work shared = (q.pop h (task shared).1.joined, (task shared).2) := by
  unfold work
  split
  next hnil => cases hnil.symm.trans h
  next hcons => cases hcons.symm.trans h
  next hcons =>
    cases hcons.symm.trans h
    rfl

theorem work_aborted {q : TaskQueue σ} {handle : Nat} {rest : List (Nat × Option (PoolTask σ))}
    (h : q.waiting = (handle, none) :: rest) (shared : σ) :
    q.work shared = (q.pop h (.error .cancelled), shared) := by
  unfold work
  split
  next hnil => cases hnil.symm.trans h
  next hcons =>
    cases hcons.symm.trans h
    rfl
  next hcons => cases hcons.symm.trans h

/-- What joining a task gives, as soon as it has had its turn. -/
def join (q : TaskQueue σ) (handle : Nat) : Option Joined :=
  q.joined.lookup handle

theorem waiting_abort {q : TaskQueue σ} {before after : List (Nat × Option (PoolTask σ))}
    {handle : Nat} {task : Option (PoolTask σ)}
    (h : q.waiting = before ++ (handle, task) :: after) :
    (q.abort handle).waiting = before ++ (handle, none) :: after := by
  have hnodup := q.nodup
  rw [h, List.map_append, List.map_cons, List.nodup_append, List.nodup_cons] at hnodup
  obtain ⟨-, ⟨hafter, -⟩, hbefore⟩ := hnodup
  have hfront : handle ∉ before.map Prod.fst := fun hmem =>
    hbefore handle hmem handle List.mem_cons_self rfl
  show q.waiting.map (cancel handle) = before ++ (handle, none) :: after
  rw [h, List.map_append, List.map_cons, map_cancel_of_not_mem hfront,
    map_cancel_of_not_mem hafter, cancel, if_pos rfl]

theorem join_task {q : TaskQueue σ} {handle : Nat} {task : PoolTask σ}
    {rest : List (Nat × Option (PoolTask σ))} (h : q.waiting = (handle, some task) :: rest)
    (shared : σ) : (q.work shared).1.join handle = some (task shared).1.joined := by
  rw [work_task h]
  exact List.lookup_cons_self

theorem join_aborted {q : TaskQueue σ} {handle : Nat} {rest : List (Nat × Option (PoolTask σ))}
    (h : q.waiting = (handle, none) :: rest) (shared : σ) :
    (q.work shared).1.join handle = some (.error .cancelled) := by
  rw [work_aborted h]
  exact List.lookup_cons_self

theorem waiting_work {q : TaskQueue σ} {first : Nat × Option (PoolTask σ)}
    {rest : List (Nat × Option (PoolTask σ))} (h : q.waiting = first :: rest) (shared : σ) :
    (q.work shared).1.waiting = rest := by
  obtain ⟨handle, _ | task⟩ := first
  · rw [work_aborted h]
    rfl
  · rw [work_task h]
    rfl

theorem join_of_ne {q : TaskQueue σ} {first : Nat × Option (PoolTask σ)}
    {rest : List (Nat × Option (PoolTask σ))} (h : q.waiting = first :: rest) (shared : σ)
    {other : Nat} (hne : other ≠ first.1) : (q.work shared).1.join other = q.join other := by
  have hpop : ∀ joined, (q.pop h joined).join other = q.join other := by
    intro joined
    rw [join, pop, List.lookup_cons, beq_false_of_ne hne]
    rfl
  obtain ⟨handle, _ | task⟩ := first
  · rw [work_aborted h]
    exact hpop _
  · rw [work_task h]
    exact hpop _

end TaskQueue

namespace Pool

/-- A pool in which tasks queue up. -/
def queue (σ : Type) : Pool σ where
  State := TaskQueue σ
  Handle := Nat
  empty := .empty
  spawn q task := (q.spawn task, q.spawned)
  abort := TaskQueue.abort
  release q _ := q
  waiting := TaskQueue.waiting
  work := TaskQueue.work
  joined := TaskQueue.join

theorem queue_documented (σ : Type) : (queue σ).Documented where
  nodup q := q.nodup
  waiting_empty := rfl
  waiting_spawn _ _ := rfl
  waiting_abort _ _ _ _ _ := TaskQueue.waiting_abort
  waiting_release _ _ := rfl
  waiting_work _ shared _ _ h := TaskQueue.waiting_work h shared
  work_task _ shared _ _ _ h := congrArg Prod.snd (TaskQueue.work_task h shared)
  work_aborted _ shared _ _ h := congrArg Prod.snd (TaskQueue.work_aborted h shared)
  joined_finished _ shared _ _ _ _ h hend :=
    (TaskQueue.join_task h shared).trans (congrArg (some ∘ Completion.joined) hend)
  joined_panicked _ shared _ _ _ h hend :=
    ⟨.panicked,
      (TaskQueue.join_task h shared).trans (congrArg (some ∘ Completion.joined) hend)⟩
  joined_aborted _ shared _ _ h := ⟨.cancelled, TaskQueue.join_aborted h shared⟩
  joined_of_ne _ shared _ _ _ h hne := TaskQueue.join_of_ne h shared hne

end Pool

end Switchboard
