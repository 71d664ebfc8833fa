import OutcomeRelay.Simulation.Publish
import OutcomeRelay.Simulation.Worker

/-!
The scheduler of a simulation. Tasks that can go on run one after another; when none can, the clock
jumps to the next instant at which something is due.
-/

namespace OutcomeRelay.Simulation.World

def stepTask (w : World) : World :=
  match w.ready with
  | [] => w
  | id :: rest =>
    let w := match w.task? id with
      | some (.delivery t) => t.step w id
      | some (.worker t) => t.step w id
      | some (.publish t) => t.step w id
      | some (.opening t) => t.step w id
      | none => { w with ready := rest }
    w.wakeWaiting

/-- Run until no task can go on; the fuel bounds the number of steps. -/
def runReady : Nat → World → World
  | 0, w => w
  | fuel + 1, w => if w.ready.isEmpty then w else runReady fuel w.stepTask

def stepLimit : Nat :=
  10000000

def settle (w : World) : World :=
  (runReady stepLimit w.wakeWaiting).resolveConfirms

def nextInstant? (w : World) : Option Instant :=
  let confirms := w.publishers.flatMap fun p => p.2.pending.map (·.due)
  (w.timers.map (·.1) ++ confirms).min?

def jump (w : World) (i : Instant) : World :=
  let due := w.timers.filter fun t => t.1 ≤ i
  let w := { w with now := i, timers := w.timers.filter fun t => !(t.1 ≤ i) }
  (due.map (·.2)).foldl wake w

/-- Run on until a condition holds or nothing is left to come; the fuel bounds the jumps. -/
def runUntil (met : World → Bool) : Nat → World → World
  | 0, w => w
  | fuel + 1, w =>
    let w := w.settle
    if met w then w
    else
      match w.nextInstant? with
      | none => w
      | some i => runUntil met fuel (w.jump i)

def advanceUntil (w : World) (met : World → Bool) : World :=
  runUntil met stepLimit w

def result? (w : World) (id : Nat) : Option TaskResult :=
  w.results.lookup id

def awaitTask (w : World) (id : Nat) : World :=
  if (w.result? id).isSome then w else w.advanceUntil fun w => (w.result? id).isSome

def sleep (w : World) (d : Duration) : World :=
  let due := w.dueAfter d
  (w.setTimer due 0).advanceUntil fun w => due ≤ w.now

end OutcomeRelay.Simulation.World
