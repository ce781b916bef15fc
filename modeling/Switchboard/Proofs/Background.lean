import Switchboard.Proofs.Pools
import Switchboard.Proofs.Registration.Reachable
import Switchboard.Proofs.Resolution.Rehandled

/-!
# Queued lines one by one

What a queued line does can be told from that line: it calls the handler of the
command it resolves to, once and with its arguments, unless it does not resolve
or is aborted. To see the calls, every handler is made to keep a record. The
calls of a queue are those of its lines, one after another, and they lead from
the first state to the last; a line is reported as its dispatch ends in the
state that the calls before it left. All this is shown of lines in turn, and so
holds on every pool that is as documented.

Handlers may share that state. What a line is called with never depends on the
lines around it, but how the call ends can, if its handler looks at what others
have done.

* `Dispatcher.recorded`: a dispatcher that keeps a record of the calls
* `dispatch_recorded`, `inTurn_recorded`: the record of a dispatch, and of lines in turn
* `state_inTurn`: the state is what the calls make of it
* `getElem?_inTurn`: the report of a line at its place
* `runOn_line_by_line`: calls and reports on a pool, line by line
-/

namespace Switchboard

variable {σ : Type}

/-! ### The end of a call -/

/-- How a dispatch ends when the handler of a command has ended. -/
def Outcome.completion (name : String) : Outcome → Completion
  | done => .finished (.ok ())
  | failed source => .finished (.error (.handler name source))
  | panicked => .panicked

theorem Resolved.execute_eq (r : Resolved σ) (state : σ) :
    r.execute state =
      ((r.command.handler r.args state).1.completion r.command.name,
        (r.command.handler r.args state).2) := by
  rw [execute]
  rcases r.command.handler r.args state with ⟨outcome, after⟩
  cases outcome with
  | done => rfl
  | failed source => rfl
  | panicked => rfl

/-! ### A record of calls -/

/-- A call of a handler: whose it is, and the arguments it is given. -/
structure Invocation (σ : Type) where
  command : Command σ
  args : Args

/-- The state after a call. -/
def Invocation.after (call : Invocation σ) (state : σ) : σ :=
  (call.command.handler call.args state).2

/-- The handler of a command, made to keep a record of its calls beside the state. -/
def Command.recording (c : Command σ) : Handler (σ × List (Invocation σ)) :=
  fun args world =>
    ((c.handler args world.1).1, (c.handler args world.1).2, world.2 ++ [⟨c, args⟩])

namespace Dispatcher

variable (d : Dispatcher σ)

/-- A dispatcher whose handlers keep a record of their calls. -/
def recorded : Dispatcher (σ × List (Invocation σ)) :=
  d.rehandle Command.recording

/-- The calls for a line: one of the command it resolves to, with its arguments, or none. -/
def calls (context : Option Value) (line : String) : List (Invocation σ) :=
  match d.resolve context line with
  | .ok r => [⟨r.command, r.args⟩]
  | .error _ => []

/-- The calls for a queued line; an aborted one makes none. -/
def jobCalls (job : Job) : List (Invocation σ) :=
  match job.mode with
  | .abort => []
  | .await => d.calls job.context job.line
  | .detach => d.calls job.context job.line

/-- A dispatch ends the same with the record kept, which holds the calls for the line then. -/
theorem dispatch_recorded (context : Option Value) (line : String) (state : σ)
    (log : List (Invocation σ)) :
    d.recorded.dispatch context line (state, log) =
      ((d.dispatch context line state).1, (d.dispatch context line state).2,
        log ++ d.calls context line) := by
  rw [dispatch, recorded, resolve_rehandle, dispatch, calls]
  cases d.resolve context line with
  | error e => simp only [Except.map, List.append_nil]
  | ok r =>
    simp only [Except.map, Resolved.execute_eq]
    rfl

theorem turn_recorded (job : Job) (state : σ) (log : List (Invocation σ)) :
    d.recorded.turn job (state, log) =
      ((d.turn job state).1, (d.turn job state).2, log ++ d.jobCalls job) := by
  obtain ⟨context, line, mode⟩ := job
  cases mode with
  | await => simp only [turn, jobCalls, dispatch_recorded]
  | abort => simp only [turn, jobCalls, List.append_nil]
  | detach => simp only [turn, jobCalls, dispatch_recorded]

/-- The record of lines in turn holds the calls for them, one line after another. -/
theorem inTurn_recorded (jobs : List Job) (state : σ) (log : List (Invocation σ)) :
    d.recorded.inTurn jobs (state, log) =
      ((d.inTurn jobs state).1, (d.inTurn jobs state).2, log ++ jobs.flatMap d.jobCalls) := by
  induction jobs generalizing state log with
  | nil => simp [inTurn]
  | cons job jobs ih =>
    simp only [inTurn, turn_recorded, ih, List.flatMap_cons, List.append_assoc]

/-! ### The state -/

/-- A dispatch leaves what the calls for the line leave. -/
theorem state_dispatch (context : Option Value) (line : String) (state : σ) :
    (d.dispatch context line state).2 =
      (d.calls context line).foldl (fun state call => call.after state) state := by
  rw [dispatch, calls]
  cases d.resolve context line with
  | error e => rfl
  | ok r =>
    simp only [Resolved.execute_eq]
    rfl

theorem state_turn (job : Job) (state : σ) :
    (d.turn job state).2 = (d.jobCalls job).foldl (fun state call => call.after state) state := by
  obtain ⟨context, line, mode⟩ := job
  cases mode with
  | await => exact d.state_dispatch context line state
  | abort => rfl
  | detach => exact d.state_dispatch context line state

/-- Lines in turn leave what the calls for them leave. -/
theorem state_inTurn (jobs : List Job) (state : σ) :
    (d.inTurn jobs state).2 =
      (jobs.flatMap d.jobCalls).foldl (fun state call => call.after state) state := by
  induction jobs generalizing state with
  | nil => rfl
  | cons job jobs ih =>
    rw [List.flatMap_cons, List.foldl_append, ← state_turn]
    exact ih (d.turn job state).2

/-! ### Reports -/

theorem inTurn_append (jobs more : List Job) (state : σ) :
    d.inTurn (jobs ++ more) state =
      ((d.inTurn jobs state).1 ++ (d.inTurn more (d.inTurn jobs state).2).1,
        (d.inTurn more (d.inTurn jobs state).2).2) := by
  induction jobs generalizing state with
  | nil => rfl
  | cons job jobs ih => simp only [List.cons_append, inTurn, ih]

/-- There is one report for each line. -/
theorem length_inTurn (jobs : List Job) (state : σ) :
    (d.inTurn jobs state).1.length = jobs.length := by
  induction jobs generalizing state with
  | nil => rfl
  | cons job jobs ih =>
    show (d.inTurn jobs (d.turn job state).2).1.length + 1 = jobs.length + 1
    rw [ih]

/-- Lines behind do not matter to the report of a line, and those before it only by the state
they leave. -/
theorem getElem?_inTurn (before : List Job) (job : Job) (after : List Job) (state : σ) :
    (d.inTurn (before ++ job :: after) state).1[before.length]? =
      some (d.turn job (d.inTurn before state).2).1 := by
  have hlength : (d.inTurn before state).1.length ≤ before.length :=
    Nat.le_of_eq (d.length_inTurn before state)
  rw [inTurn_append, List.getElem?_append_right hlength, d.length_inTurn, Nat.sub_self]
  rfl

/-- A handler that is called for a line ends the same way in two states. -/
def AnswersAlike (context : Option Value) (line : String) (state other : σ) : Prop :=
  ∀ call ∈ d.calls context line,
    (call.command.handler call.args state).1 = (call.command.handler call.args other).1

/-- A dispatch ends the same way in two states in which its handler does. -/
theorem dispatch_congr {context : Option Value} {line : String} {state other : σ}
    (h : d.AnswersAlike context line state other) :
    (d.dispatch context line state).1 = (d.dispatch context line other).1 := by
  rw [AnswersAlike, calls] at h
  rw [dispatch, dispatch]
  cases hresolve : d.resolve context line with
  | error e => rfl
  | ok r =>
    rw [hresolve] at h
    have hsame := h ⟨r.command, r.args⟩ (List.mem_singleton_self _)
    simp only at hsame
    simp only [Resolved.execute_eq, hsame]

theorem turn_congr {job : Job} {state other : σ}
    (h : d.AnswersAlike job.context job.line state other) :
    (d.turn job state).1 = (d.turn job other).1 := by
  obtain ⟨context, line, mode⟩ := job
  cases mode with
  | await =>
    have hsame := d.dispatch_congr h
    simp only [turn, hsame]
  | abort => rfl
  | detach => rfl

/-- The report of a line that runs in some state: as its dispatch ends there when it is awaited, an
abortion when the handler panics or the line was aborted, and nothing when it was detached. -/
structure Reported (job : Job) (state : σ) (report : JobReport) : Prop where
  finished : job.mode = .await → ∀ result,
    (d.dispatch job.context job.line state).1 = .finished result → report = .awaited result
  panicked : job.mode = .await → ∀ call ∈ d.calls job.context job.line,
    (call.command.handler call.args state).1 = .panicked → report = .awaited (.error .aborted)
  aborted : job.mode = .abort → report = .awaited (.error .aborted)
  detached : job.mode = .detach → report = .detached

/-- A dispatch ends in a panic where a call for the line does. -/
theorem dispatch_of_panicked {context : Option Value} {line : String} {state : σ}
    {call : Invocation σ} (hcall : call ∈ d.calls context line)
    (h : (call.command.handler call.args state).1 = .panicked) :
    (d.dispatch context line state).1 = .panicked := by
  rw [calls] at hcall
  rw [dispatch]
  cases hresolve : d.resolve context line with
  | error e =>
    rw [hresolve] at hcall
    cases hcall
  | ok r =>
    rw [hresolve] at hcall
    obtain rfl := List.mem_singleton.mp hcall
    simp only at h
    simp only [Resolved.execute_eq, h]
    rfl

theorem reported_turn (job : Job) (state : σ) : d.Reported job state (d.turn job state).1 := by
  obtain ⟨context, line, mode⟩ := job
  constructor
  · rintro rfl result hresult
    simp only [turn, hresult]
    rfl
  · rintro rfl call hcall hpanicked
    simp only [turn, d.dispatch_of_panicked hcall hpanicked]
    rfl
  · rintro rfl
    rfl
  · rintro rfl
    rfl

/-! ### A counter -/

/-- A handler that is given a number. -/
def onNumber (f : Nat → Nat → Outcome × Nat) : Handler Nat :=
  fun args counter =>
    match args.require (.int .u32) 0 with
    | .ok n => f n.val.toNat counter
    | .error e => (.failed e.message, counter)

/-- A command that adds to a counter, and one that fails unless it has counted so far. -/
def counting : Dispatcher Nat :=
  (Registrar.perform .empty (.commands
    [(CommandSpec.ofName "add" (onNumber fun n counter => (.done, counter + n))).require
        (.builtin (.int .u32)),
      (CommandSpec.ofName "check" (onNumber fun n counter =>
        if counter = n then (.done, counter)
        else (.failed s!"counted {counter}, expected {n}", counter))).require
        (.builtin (.int .u32))])).finish

/-! ### On a pool -/

/-- The report of a line on a pool, at its place. -/
theorem getElem?_runOn {pool : Pool σ} (h : pool.Documented) (before : List Job) (job : Job)
    (after : List Job) (state : σ) :
    (d.runOn pool (before ++ job :: after) state).1[before.length]? =
      some (some (d.turn job (d.runOn pool before state).2).1) := by
  rw [h.runOn_eq, h.runOn_eq, List.getElem?_map, getElem?_inTurn]
  rfl

/-- The program runs lines on the queue, and all their reports come. -/
theorem runOn_queue (jobs : List Job) (state : σ) :
    d.runOn (.queue σ) jobs state =
      ((d.runAll jobs state).1.map some, (d.runAll jobs state).2) := by
  have hrun := (Pool.queue_documented σ).runOn_eq d jobs state
  simp only [runAll, hrun, List.filterMap_map, Function.comp_def, id_eq, List.filterMap_some]

/-- Queued lines are neither lost nor repeated, and none is taken for another, on every pool that
is as documented. The calls made are those that a dispatch of each line makes, one line after
another, without the aborted ones; the state is what these calls make of it, and each line has one
report, of its dispatch in the state that the calls before it left. Whatever other lines there are
around a line, it makes the same calls and has the same report, unless its handler ends another way
in the state it meets. What the program runs is a run on such a pool. -/
theorem runOn_line_by_line (pool : (τ : Type) → Pool τ) (h : ∀ τ, (pool τ).Documented)
    (d : Dispatcher σ) (state : σ) :
    (∀ context line other log, d.recorded.dispatch context line (other, log) =
      ((d.dispatch context line other).1, (d.dispatch context line other).2,
        log ++ d.calls context line)) ∧
    (∀ jobs log, d.recorded.runOn (pool _) jobs (state, log) =
      ((d.runOn (pool σ) jobs state).1, (d.runOn (pool σ) jobs state).2,
        log ++ jobs.flatMap d.jobCalls)) ∧
    (∀ jobs, (d.runOn (pool σ) jobs state).1.length = jobs.length ∧
      (d.runOn (pool σ) jobs state).2 =
        (jobs.flatMap d.jobCalls).foldl (fun state call => call.after state) state) ∧
    (∀ before job after, ∃ report,
      (d.runOn (pool σ) (before ++ job :: after) state).1[before.length]? = some (some report) ∧
        d.Reported job (d.runOn (pool σ) before state).2 report) ∧
    (∀ before before' job after after',
      d.AnswersAlike job.context job.line (d.runOn (pool σ) before state).2
        (d.runOn (pool σ) before' state).2 →
      (d.runOn (pool σ) (before ++ job :: after) state).1[before.length]? =
        (d.runOn (pool σ) (before' ++ job :: after') state).1[before'.length]?) ∧
    ∀ jobs, d.runOn (pool σ) jobs state =
      ((d.runAll jobs state).1.map some, (d.runAll jobs state).2) := by
  refine ⟨d.dispatch_recorded, ?_, ?_, ?_, ?_, ?_⟩
  · intro jobs log
    rw [(h _).runOn_eq, (h _).runOn_eq, inTurn_recorded]
  · intro jobs
    rw [(h _).runOn_eq, List.length_map]
    exact ⟨d.length_inTurn jobs state, d.state_inTurn jobs state⟩
  · intro before job after
    exact ⟨_, d.getElem?_runOn (h σ) before job after state, d.reported_turn job _⟩
  · intro before before' job after after' halike
    rw [d.getElem?_runOn (h σ), d.getElem?_runOn (h σ), d.turn_congr halike]
  · intro jobs
    rw [← runOn_queue, (h σ).runOn_eq, (Pool.queue_documented σ).runOn_eq]

/-- A line that is aborted, one that nobody waits for, and one that sees what the second did. -/
theorem runOn_line_by_line_counting :
    (∀ τ, (Pool.queue τ).Documented) ∧
      (counting.runOn (.queue Nat)
        [⟨none, "add 1", .abort⟩, ⟨none, "add 2", .detach⟩, ⟨none, "check 2", .await⟩] 0).1[2]? =
          some (some (.awaited (.ok ()))) := by
  refine ⟨Pool.queue_documented, ?_⟩
  obtain ⟨-, -, -, hreports, -, -⟩ :=
    runOn_line_by_line Pool.queue Pool.queue_documented counting 0
  obtain ⟨report, hreport, hreported⟩ :=
    hreports [⟨none, "add 1", .abort⟩, ⟨none, "add 2", .detach⟩] ⟨none, "check 2", .await⟩ []
  rw [hreported.finished rfl (.ok ()) rfl] at hreport
  exact hreport

/-- The second line is done when the first one was, and fails when the first one is aborted, as it
does alone: what is reported of a line is not settled by the line. -/
theorem not_alone_counting :
    (counting.runAll [⟨none, "add 1", .await⟩, ⟨none, "check 1", .await⟩] 0).1 =
        [.awaited (.ok ()), .awaited (.ok ())] ∧
      (counting.runAll [⟨none, "add 1", .abort⟩, ⟨none, "check 1", .await⟩] 0).1 =
        [.awaited (.error .aborted),
          .awaited (.error (.handler "check" "counted 0, expected 1"))] ∧
      ¬ ∀ before job after, job.mode = .await →
        (counting.runAll (before ++ job :: after) 0).1[before.length]? =
          some (.awaited (counting.dispatch job.context job.line 0).1.result) := by
  refine ⟨rfl, rfl, fun halone => ?_⟩
  have hbehind : (counting.runAll [⟨none, "add 1", .await⟩, ⟨none, "check 1", .await⟩] 0).1[1]? =
      some (.awaited (.ok ())) := rfl
  have hfails : (counting.dispatch none "check 1" 0).1.result =
      .error (.handler "check" "counted 0, expected 1") := rfl
  have hsame := halone [⟨none, "add 1", .await⟩] ⟨none, "check 1", .await⟩ [] rfl
  rw [hfails] at hsame
  cases hbehind.symm.trans hsame

end Dispatcher

end Switchboard
