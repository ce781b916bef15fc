import Switchboard.Background

/-!
# Queued lines on a pool

All lines are spawned before the first of them has its turn, so a run on a pool goes
through three phases: lines are queued, their handles are treated, and the pool works
until nothing waits. What waits is followed through the first two; in the third the
lines have their turns, and what is joined afterwards is what the turns left. So a
run on any pool that is as documented comes to what dispatching the lines in turn,
without a pool, comes to.

* `Dispatcher.inTurn`: lines in turn
* `Pool.Documented.report_work`: the turn of one line
* `Pool.Documented.runOn_eq`: a run on a pool is a run in turn, and all reports come
-/

namespace Switchboard

variable {σ : Type}

namespace Dispatcher

/-- The turn of a queued line. -/
def turn (d : Dispatcher σ) (job : Job) (state : σ) : JobReport × σ :=
  match job.mode with
  | .await =>
    (.awaited (d.dispatch job.context job.line state).1.result,
      (d.dispatch job.context job.line state).2)
  | .abort => (.awaited (.error .aborted), state)
  | .detach => (.detached, (d.dispatch job.context job.line state).2)

/-- Queued lines in turn. -/
def inTurn (d : Dispatcher σ) : List Job → σ → List JobReport × σ
  | [], state => ([], state)
  | job :: jobs, state =>
    ((d.turn job state).1 :: (d.inTurn jobs (d.turn job state).2).1,
      (d.inTurn jobs (d.turn job state).2).2)

/-- The work that is left of a queued line when its handle has been treated. -/
def work? (d : Dispatcher σ) (job : Job) : Option (PoolTask σ) :=
  match job.mode with
  | .await => some (d.dispatch job.context job.line)
  | .abort => none
  | .detach => some (d.dispatch job.context job.line)

end Dispatcher

variable {pool : Pool σ}

/-- The report of a line is told from what joining its task gives. -/
theorem Job.report_congr (job : Job) {s other : pool.State} {handle : pool.Handle}
    (h : pool.joined s handle = pool.joined other handle) :
    job.report pool s handle = job.report pool other handle := by
  simp only [report, DispatchHandle.poll, h]

namespace Pool.Documented

variable (h : pool.Documented) (d : Dispatcher σ)

include h

/-! ### What waits -/

/-- Lines wait in the order in which they were queued, each with a handle. -/
theorem waiting_spawnAll (jobs : List Job) (s : pool.State) :
    (d.spawnAll pool s jobs).2.map Prod.fst = jobs ∧
      pool.waiting (d.spawnAll pool s jobs).1 =
        pool.waiting s ++ (d.spawnAll pool s jobs).2.map fun entry =>
          (entry.2, some (d.dispatch entry.1.context entry.1.line)) := by
  induction jobs generalizing s with
  | nil => exact ⟨rfl, (List.append_nil _).symm⟩
  | cons job jobs ih =>
    obtain ⟨hjobs, hwaiting⟩ := ih (d.spawn pool s job.context job.line).1
    refine ⟨congrArg (job :: ·) hjobs, hwaiting.trans ?_⟩
    rw [Dispatcher.spawn, h.waiting_spawn, List.append_assoc]
    rfl

/-- The handle of a line is treated, and the others stay as they are. -/
theorem waiting_prepare {job : Job} {s : pool.State} {handle : pool.Handle}
    {before after : List (pool.Handle × Option (PoolTask σ))}
    (hs : pool.waiting s =
      before ++ (handle, some (d.dispatch job.context job.line)) :: after) :
    pool.waiting (job.prepare pool s handle) = before ++ (handle, d.work? job) :: after := by
  obtain ⟨context, line, mode⟩ := job
  cases mode with
  | await => exact hs
  | abort => exact h.waiting_abort s before handle _ after hs
  | detach => exact (h.waiting_release s handle).trans hs

theorem waiting_prepareAll (queued : List (Job × pool.Handle)) {s : pool.State}
    {before : List (pool.Handle × Option (PoolTask σ))}
    (hs : pool.waiting s = before ++ queued.map fun entry =>
      (entry.2, some (d.dispatch entry.1.context entry.1.line))) :
    pool.waiting (queued.foldl (fun s entry => entry.1.prepare pool s entry.2) s) =
      before ++ queued.map fun entry => (entry.2, d.work? entry.1) := by
  induction queued generalizing s before with
  | nil => exact hs
  | cons entry queued ih =>
    have hfirst := h.waiting_prepare d hs
    rw [List.append_cons] at hfirst
    rw [List.foldl_cons, ih hfirst, List.map_cons, ← List.append_cons]

/-! ### Turns -/

/-- A line has its turn: it acts on what is shared, and its report is ready. -/
theorem report_work {job : Job} {s : pool.State} {handle : pool.Handle}
    {rest : List (pool.Handle × Option (PoolTask σ))}
    (hs : pool.waiting s = (handle, d.work? job) :: rest) (shared : σ) :
    job.report pool (pool.work s shared).1 handle = some (d.turn job shared).1 ∧
      (pool.work s shared).2 = (d.turn job shared).2 := by
  obtain ⟨context, line, mode⟩ := job
  cases mode with
  | await =>
    refine ⟨?_, h.work_task s shared handle _ rest hs⟩
    cases hend : (d.dispatch context line shared).1 with
    | finished result =>
      have hjoined := h.joined_finished s shared handle _ rest result hs hend
      simp only [Job.report, DispatchHandle.poll, hjoined, Dispatcher.turn, hend]
      rfl
    | panicked =>
      obtain ⟨e, hjoined⟩ := h.joined_panicked s shared handle _ rest hs hend
      simp only [Job.report, DispatchHandle.poll, hjoined, Dispatcher.turn, hend]
      rfl
  | abort =>
    obtain ⟨e, hjoined⟩ := h.joined_aborted s shared handle rest hs
    refine ⟨?_, h.work_aborted s shared handle rest hs⟩
    simp only [Job.report, DispatchHandle.poll, hjoined]
    rfl
  | detach => exact ⟨rfl, h.work_task s shared handle _ rest hs⟩

/-- The turns of others are nothing to a handle. -/
theorem joined_workOff {s : pool.State} {waiting : List (pool.Handle × Option (PoolTask σ))}
    (hs : pool.waiting s = waiting) {other : pool.Handle} (hother : other ∉ waiting.map Prod.fst)
    (shared : σ) :
    pool.joined (pool.workOff waiting.length s shared).1 other = pool.joined s other := by
  induction waiting generalizing s shared with
  | nil => rfl
  | cons first rest ih =>
    rw [List.map_cons, List.mem_cons, not_or] at hother
    show pool.joined (pool.workOff rest.length (pool.work s shared).1 _).1 other = _
    rw [ih (h.waiting_work s shared first rest hs) hother.2,
      h.joined_of_ne s shared first rest other hs hother.1]

/-- When all have had their turns, the reports are those of the turns. -/
theorem report_workOff (queued : List (Job × pool.Handle)) {s : pool.State}
    (hs : pool.waiting s = queued.map fun entry => (entry.2, d.work? entry.1)) (shared : σ) :
    (queued.map fun entry =>
        entry.1.report pool (pool.workOff queued.length s shared).1 entry.2) =
        (d.inTurn (queued.map Prod.fst) shared).1.map some ∧
      (pool.workOff queued.length s shared).2 = (d.inTurn (queued.map Prod.fst) shared).2 := by
  induction queued generalizing s shared with
  | nil => exact ⟨rfl, rfl⟩
  | cons entry queued ih =>
    obtain ⟨job, handle⟩ := entry
    obtain ⟨hreport, hshared⟩ := h.report_work d hs shared
    have hwaiting := h.waiting_work s shared _ _ hs
    obtain ⟨hreports, hlast⟩ := ih hwaiting (pool.work s shared).2
    rw [hshared] at hreports hlast
    -- the handle is not among those that still wait
    have hnodup := h.nodup s
    rw [hs, List.map_cons, List.map_cons, List.nodup_cons] at hnodup
    have hlater := h.joined_workOff hwaiting hnodup.1 (d.turn job shared).2
    rw [List.length_map] at hlater
    rw [List.length_cons, Pool.workOff, hshared]
    refine ⟨?_, hlast⟩
    rw [List.map_cons, hreports, job.report_congr hlater, hreport]
    rfl

/-- A run on a pool is a run in turn: there is a report for each line, and it is that of its
turn. -/
theorem runOn_eq (jobs : List Job) (state : σ) :
    d.runOn pool jobs state = ((d.inTurn jobs state).1.map some, (d.inTurn jobs state).2) := by
  obtain ⟨hjobs, hspawned⟩ := h.waiting_spawnAll d jobs pool.empty
  rw [h.waiting_empty] at hspawned
  have hready := h.waiting_prepareAll d _ hspawned
  rw [List.nil_append] at hready
  obtain ⟨hreports, hlast⟩ := h.report_workOff d _ hready state
  rw [hjobs] at hreports hlast
  simp only [Dispatcher.runOn, Pool.drain, hready, List.length_map]
  exact Prod.ext hreports hlast

end Pool.Documented

end Switchboard
