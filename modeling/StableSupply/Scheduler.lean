import StableSupply.Manager

/-! # Scheduled updates

A started manager has a worker that asks the source for fresh data once an interval and then checks
for updates. Time is a number of milliseconds that moves only while something waits; the worker acts
during such waits. A wait that is not for the worker ends before the worker's business of the same
millisecond; that business is done as soon as anything waits again. -/

namespace StableSupply

/-- Time that has passed, and what the wall clock shows. -/
structure Clock where
  /-- In milliseconds. -/
  elapsed : Nat
  /-- What the wall clock showed when no time had passed. -/
  origin : Instant

namespace Clock

/-- The time that the clock shows. -/
def now (c : Clock) : Instant := c.origin.addMillis c.elapsed

/-- Sets the wall clock; the time that has passed stays the same. -/
def setWall (c : Clock) (wall : Instant) : Clock :=
  { c with origin := ⟨wall.nanos - c.elapsed * 1000000⟩ }

end Clock

/-- What wakes the manager, on the clock of the scheduler. -/
structure Worker where
  /-- Milliseconds from one tick to the next. -/
  period : Nat
  period_pos : 0 < period
  /-- The time of the next tick. -/
  due : Nat
  /-- When the wait for the running query is over, and whether the query is answered then. -/
  query : Option (Nat × Bool)

namespace Worker

/-- A worker whose first tick comes one interval from now. Without an interval there is none. -/
def start? (interval : Duration) (elapsed : Nat) : Option Worker :=
  if h : 0 < interval.ceilMillis then
    some ⟨interval.ceilMillis, h, elapsed + interval.ceilMillis, none⟩
  else none

/-- How late a tick may come before it puts off the ones after it. -/
def tolerance : Nat := 5

/-- The tick after one that was due at `due` and came at `time`: an interval after it was due, or,
if it came too late, after it came. -/
def nextDue (w : Worker) (time : Nat) : Nat :=
  if w.due + tolerance < time then time + w.period else w.due + w.period

/-- When the worker next has something to do. -/
def nextTime (w : Worker) : Nat :=
  match w.query with
  | some (time, _) => time
  | none => w.due

end Worker

/-- A manager with its worker and the time. -/
structure Schedule (σ τ : Type) where
  manager : Manager σ τ
  worker : Option Worker
  clock : Clock

namespace Schedule

variable {σ τ : Type} [Digest] [Gate σ] [DecisionSource τ]

/-- Ends the wait for a query: the answer, or its absence, is taken in and updates are checked for.
-/
def finishQuery (now : Instant) (answered : Bool) (m : Manager σ τ) : Manager σ τ :=
  let settled := (Manager.settleQuery now m.settings.oracleTimeout answered).apply m
  ((Manager.check (ε := Empty) now).apply settled.2).2

/-- Lets the worker do what it has to do up to time `limit`. -/
def runWorker (limit : Nat) (w : Worker) (m : Manager σ τ) (clock : Clock) :
    Worker × Manager σ τ :=
  if _due : w.nextTime ≤ limit then
    let clock := { clock with elapsed := max clock.elapsed w.nextTime }
    match _h : w.query with
    | some (_, answered) =>
      runWorker limit { w with query := none } (finishQuery clock.now answered m) clock
    | none =>
      let wait := m.queryWait m.settings.oracleTimeout
      let query := some (clock.elapsed + wait.millis, wait.answered)
      runWorker limit { w with due := w.nextDue clock.elapsed, query } m clock
  else (w, m)
termination_by 2 * (limit + 1 - w.due) + (if w.query.isSome then 1 else 0)
decreasing_by
  · simp [_h]
  · have := w.period_pos
    simp only [Worker.nextTime, _h] at _due
    simp only [Worker.nextDue, Option.isSome_some, if_true]
    split <;> omega

/-- Moves time to `limit` and lets the worker act up to time `acts`. -/
def moveTo (acts limit : Nat) (s : Schedule σ τ) : Schedule σ τ :=
  let clock := { s.clock with elapsed := limit }
  match s.worker with
  | none => { s with clock }
  | some w =>
    let (w, manager) := runWorker acts w s.manager s.clock
    { manager, worker := some w, clock }

/-- Lets time pass, and the worker do all it has to do by then. -/
def advance (ms : Nat) (s : Schedule σ τ) : Schedule σ τ :=
  s.moveTo (s.clock.elapsed + ms) (s.clock.elapsed + ms)

/-- Waits for something else than the worker. -/
def wait (ms : Nat) (s : Schedule σ τ) : Schedule σ τ :=
  if ms = 0 then s else s.moveTo (s.clock.elapsed + ms - 1) (s.clock.elapsed + ms)

/-! ## Operations that take time -/

/-- Something done at the time that the clock shows. -/
abbrev Program (σ τ α : Type) := Act (Schedule σ τ) UpdateError α

/-- Runs an action of the manager at the present time. -/
def onManager {ε α : Type} (act : Instant → Act (Manager σ τ) ε α) : Act (Schedule σ τ) ε α := do
  let now := (← get).clock.now
  (act now).on Schedule.manager fun manager s => { s with manager }

/-- Begins a query with a limit, waits for it, and takes in what comes of it. -/
def query (limit : Duration) : Program σ τ Unit := do
  let wait := (← get).manager.queryWait limit
  modify (·.wait wait.millis)
  onManager fun now => Manager.settleQuery now limit wait.answered

/-- Starts the manager and, unless it was started before, a worker that wakes it. -/
def start : Program σ τ Unit := do
  let before := (← get).manager.started
  onManager fun _ => Manager.start
  if !before then
    modify fun s =>
      { s with worker := Worker.start? s.manager.settings.interval s.clock.elapsed }

/-- Stops the manager. The worker finishes the query that it waits for. -/
def stop (s : Schedule σ τ) : Schedule σ τ :=
  let manager := s.manager.halt
  match s.worker.bind Worker.query with
  | none => { s with manager := manager.shutDown, worker := none }
  | some (time, answered) =>
    let clock := { s.clock with elapsed := max s.clock.elapsed time }
    { manager := (finishQuery clock.now answered manager).shutDown, worker := none, clock }

/-- Runs an operation of the manager, in the time that it takes. -/
def perform : Manager.Operation → Program σ τ Manager.Answer
  | .start => do start; return .done
  | .stop => do modify stop; return .done
  | .refresh => do query (← get).manager.settings.oracleTimeout; return .done
  | .force limit => do
    if (← get).manager.phase = .stopped then throw .stopped
    query limit
    return .report (← onManager Manager.process)
  | op => onManager fun now => Manager.perform now op

end Schedule

end StableSupply
