import ShardRouting.Cluster.Task

/-!
# Schedules

The tasks of one statement under a virtual clock. A limited number of tasks runs at a time, the
others wait in order. A task runs until it has to wait; tasks whose waits end at one moment go on in
the order in which they began to wait. Nothing but waits takes time. Main content: `Execution`,
`Execution.step`, which lets any task go on in any order, and `Schedule.run`, which follows the clock
up to a deadline.
-/

namespace ShardRouting

/-- The tasks of a statement and the world that they run in. -/
structure Execution where
  /-- The world. -/
  world : World
  /-- The tasks, in the order of the plan. -/
  tasks : List Task
  /-- What the statement does. -/
  kind : StatementKind
  /-- How many more datasources a task tries after a failure. -/
  retry : Nat

namespace Execution

/-- Lets one task go on by one step. -/
def step (x : Execution) (i : Nat) : Execution :=
  match x.tasks[i]? with
  | none => x
  | some t =>
    let (t, world) := t.step x.world x.kind x.retry
    { x with world, tasks := x.tasks.set i t }

/-- The milliseconds that a task waits for. -/
def delay? (x : Execution) (i : Nat) : Option Nat :=
  (x.tasks[i]?).bind fun t => t.delay? x.world

/-- Whether every task has ended. -/
def isFinished (x : Execution) : Bool :=
  x.tasks.all Task.isFinished

/-- How many steps a task can take at most. -/
def stepBound (x : Execution) (t : Task) : Nat :=
  x.retry + 3 + (t.work.calls x.world.style).length

/-- How many steps all tasks together can take at most. -/
def totalBound (x : Execution) : Nat :=
  (x.tasks.map x.stepBound).foldr (· + ·) 0

end Execution

/-- An execution under a clock. -/
structure Schedule where
  /-- The execution. -/
  execution : Execution
  /-- The time in milliseconds since the statement began. -/
  clock : Nat := 0
  /-- The tasks that go on now, in order. -/
  ready : List Nat := []
  /-- The ends of waits with their tasks, in the order in which the waits began. -/
  waits : List (Nat × Nat) := []
  /-- The tasks that are not yet let in, in order. -/
  queue : List Nat := []

namespace Schedule

/-- The schedule at its beginning: as many tasks are let in as may run at a time. -/
def start (x : Execution) (limit : Nat) : Schedule :=
  let all := List.range x.tasks.length
  { execution := x, ready := all.take limit, queue := all.drop limit }

/-- Lets a task go on until it has to wait or ends. -/
def advance (x : Execution) (i : Nat) : Nat → Execution
  | 0 => x
  | fuel + 1 =>
    let x := x.step i
    match x.delay? i with
    | some 0 => advance x i fuel
    | _ => x

/-- Runs one ready task. When it ends, the next task in the queue is let in. -/
def turn (s : Schedule) (i : Nat) (ready : List Nat) : Schedule :=
  let x := advance s.execution i (s.execution.totalBound + 1)
  match x.delay? i with
  | some d => { s with execution := x, ready, waits := s.waits ++ [(s.clock + d, i)] }
  | none => { s with execution := x, ready := ready ++ s.queue.take 1, queue := s.queue.drop 1 }

/-- The time at which the next wait ends. -/
def nextTime? (s : Schedule) : Option Nat :=
  (s.waits.map Prod.fst).min?

/-- Moves the clock to a time; the tasks whose waits end then are ready. -/
def moveTo (s : Schedule) (time : Nat) : Schedule :=
  { s with
    clock := time
    ready := (s.waits.filter fun w => w.1 ≤ time).map Prod.snd
    waits := s.waits.filter fun w => ¬ w.1 ≤ time }

/-- A deadline, and whether what falls on it still happens. -/
structure Deadline where
  /-- The time in milliseconds. -/
  time : Nat
  /-- Whether what falls on the deadline still happens. -/
  inclusive : Bool

/-- Whether a time is within a deadline. -/
def Deadline.admits (d : Deadline) (time : Nat) : Bool :=
  if d.inclusive then time ≤ d.time else time < d.time

/-- Runs tasks until all have ended or the deadline has come. -/
def runFor (deadline : Option Deadline) : Nat → Schedule → Schedule
  | 0, s => s
  | fuel + 1, s =>
    if !(deadline.all fun d => d.admits s.clock) then s
    else
      match s.ready with
      | i :: ready => runFor deadline fuel (s.turn i ready)
      | [] =>
        match s.nextTime? with
        | none => s
        | some time =>
          if deadline.all fun d => d.admits time then runFor deadline fuel (s.moveTo time) else s

/-- The execution of tasks of which a limited number runs at a time, up to a deadline. -/
def run (x : Execution) (limit : Nat) (deadline : Option Deadline) : Execution :=
  (runFor deadline (3 * (x.totalBound + x.tasks.length) + 3) (start x limit)).execution

end Schedule

end ShardRouting
