import Switchboard.Pool

/-!
# Dispatch in the background

A dispatch in the background is a task of a pool, and its result is had by polling the
handle of the task. Lines are queued before the first of them runs, and run one after
another in the order in which they were queued. A line may be awaited, aborted before it
starts, or detached, so that nobody sees its result.

* `Joined.result`: the result of a dispatch that was joined
* `Dispatcher.runOn`: queued lines on a pool
* `Dispatcher.runAll`: queued lines of the program
-/

namespace Switchboard

/-- What becomes of a queued line. -/
inductive JobMode where
  | await
  | abort
  | detach
deriving DecidableEq, Repr

/-- A queued line. -/
structure Job where
  context : Option Value
  line : String
  mode : JobMode

/-- What the one who queued a line sees in the end. -/
inductive JobReport where
  | awaited (result : Except DispatchError Unit)
  | detached

/-- The result of a dispatch that was joined. One that cannot be joined counts as aborted. -/
def Joined.result : Joined → Except DispatchError Unit
  | .ok result => result
  | .error _ => .error .aborted

/-- The result of a dispatch, as it is seen by the one who joins it. -/
def Completion.result (c : Completion) : Except DispatchError Unit :=
  c.joined.result

variable {σ : Type}

/-- Poll the handle of a dispatch. There is a result when its task can be joined. -/
def DispatchHandle.poll (pool : Pool σ) (s : pool.State) (handle : pool.Handle) :
    Option (Except DispatchError Unit) :=
  (pool.joined s handle).map Joined.result

namespace Job

/-- Treat the handle of a queued line before the line runs: a detached line is let go. -/
def prepare (pool : Pool σ) (s : pool.State) (job : Job) (handle : pool.Handle) : pool.State :=
  match job.mode with
  | .await => s
  | .abort => pool.abort s handle
  | .detach => pool.release s handle

/-- The report of a queued line, unless it is still to come. Nobody asks for a detached one. -/
def report (pool : Pool σ) (s : pool.State) (job : Job) (handle : pool.Handle) :
    Option JobReport :=
  match job.mode with
  | .await => (DispatchHandle.poll pool s handle).map .awaited
  | .abort => (DispatchHandle.poll pool s handle).map .awaited
  | .detach => some .detached

end Job

namespace Dispatcher

/-- Start to dispatch a line in the background. -/
def spawn (d : Dispatcher σ) (pool : Pool σ) (s : pool.State) (context : Option Value)
    (line : String) : pool.State × pool.Handle :=
  pool.spawn s (d.dispatch context line)

/-- Queue lines, and keep the handle of each. -/
def spawnAll (d : Dispatcher σ) (pool : Pool σ) :
    pool.State → List Job → pool.State × List (Job × pool.Handle)
  | s, [] => (s, [])
  | s, job :: jobs =>
    let (next, handle) := d.spawn pool s job.context job.line
    let (last, queued) := d.spawnAll pool next jobs
    (last, (job, handle) :: queued)

/-- Queue lines on a pool and let it run dry. -/
def runOn (d : Dispatcher σ) (pool : Pool σ) (jobs : List Job) (state : σ) :
    List (Option JobReport) × σ :=
  let (spawned, queued) := d.spawnAll pool pool.empty jobs
  let ready := queued.foldl (fun s entry => entry.1.prepare pool s entry.2) spawned
  let (done, last) := pool.drain ready state
  (queued.map fun entry => entry.1.report pool done entry.2, last)

/-- Run queued lines one after another. -/
def runAll (d : Dispatcher σ) (jobs : List Job) (state : σ) : List JobReport × σ :=
  let (reports, last) := d.runOn (.queue σ) jobs state
  (reports.filterMap id, last)

end Dispatcher

end Switchboard
