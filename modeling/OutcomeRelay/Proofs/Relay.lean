import OutcomeRelay.Proofs.Bus
import OutcomeRelay.Proofs.DeliveryTrail
import OutcomeRelay.Worker.Dispatcher

/-!
Queue workers on one broker, with clients of any other kind beside them. A station is a worker with
the consumers that it opened. The deliveries that stations took are kept, in the order in which they
were taken. A run is any list of moves, and a move that cannot be made now changes nothing.
-/

namespace OutcomeRelay

open Bus DeliveryRun

namespace Relay

structure Task where
  station : Nat
  consumer : Nat
  job : Job
  trail : Trail
  ending : Option DeliveryEnd := none

namespace Task

def queue (t : Task) : String :=
  t.job.delivery.queue

def tag (t : Task) : Nat :=
  t.job.delivery.tag

def begin (station consumer : Nat) (job : Job) : Task :=
  { station, consumer, job, trail := .begin job }

def op (t : Task) : AckerCall → Op
  | .ack => .ack t.queue t.tag
  | .reject requeue => .reject t.queue t.tag requeue

def settlement? (t : Task) : Option Op :=
  t.trail.phase.call?.map t.op

end Task

/-- A worker with its consumer, the one that is to replace it, and all that it ever opened. -/
structure Station where
  worker : Worker
  policy : RetryPolicy
  prefetch : Nat
  consumer : Nat
  fresh : Option Nat := none
  opened : List Nat
  shutdown : Bool := false

def Station.begin (p : Dispatcher.Prepared Unit) (grace : Duration) (consumer : Nat) : Station where
  worker := p.worker grace
  policy := p.policy
  prefetch := p.config.effectivePrefetch
  consumer := consumer
  opened := [consumer]

inductive Signal where
  | join
  | look
  | slotFree
  | shutdown
  | waited
  | drained
  | graceElapsed
  deriving DecidableEq, Repr

/-- The signal as the worker hears it; one to shut down comes only after a request. -/
def Signal.input? (shutdown : Bool) : Signal → Option Worker.Input
  | .join => some .join
  | .look => some (.look shutdown)
  | .slotFree => some .slotFree
  | .shutdown => if shutdown then some .shutdown else none
  | .waited => some (.waited shutdown)
  | .drained => some .drained
  | .graceElapsed => some .graceElapsed

inductive Act where
  | signal (s : Signal)
  | poll
  | reopen
  | replace
  | cancel
  | close
  | handled (task : Nat) (result : HandlerResult)
  | woken (task : Nat)
  | settle (task : Nat)
  | panic (task : Nat) (message : String)
  | cut (task : Nat)

inductive Move where
  | client (op : Op)
  | hire (p : Dispatcher.Prepared Unit) (grace : Duration)
  | stop (station : Nat)
  | act (station : Nat) (a : Act)

end Relay

/-- Stations on a broker. Only stations take deliveries from the reserved queues. -/
structure Relay where
  history : History := {}
  reserved : List String := []
  stations : List Relay.Station := []
  tasks : List Relay.Task := []

namespace Relay

/-- What clients may ask: they use their own consumers, and settle what was delivered to them. -/
def Allows (r : Relay) : Op → Prop
  | .poll id =>
    (∀ st ∈ r.stations, id ∉ st.opened) ∧ ∀ n ∈ r.history.bus.queueOf? id, n ∉ r.reserved
  | .cancel id | .close id => ∀ st ∈ r.stations, id ∉ st.opened
  | .ack n tag | .reject n tag _ =>
    tag ≤ r.history.broker.lastTag ∧ ∀ t ∈ r.tasks, ¬ (t.queue = n ∧ t.tag = tag)
  | _ => True

instance (r : Relay) (op : Op) : Decidable (r.Allows op) :=
  match op with
  | .poll id => inferInstanceAs (Decidable ((∀ st ∈ r.stations, id ∉ st.opened) ∧
      ∀ n ∈ r.history.bus.queueOf? id, n ∉ r.reserved))
  | .cancel id | .close id => inferInstanceAs (Decidable (∀ st ∈ r.stations, id ∉ st.opened))
  | .ack n tag | .reject n tag _ => inferInstanceAs (Decidable (tag ≤ r.history.broker.lastTag ∧
      ∀ t ∈ r.tasks, ¬ (t.queue = n ∧ t.tag = tag)))
  | .declare _ | .declareEntity _ | .send _ | .consume .. | .setReachable _ => isTrue trivial

def perform (r : Relay) (op : Op) : Relay × Reply :=
  ({ r with history := (r.history.perform op).1 }, (r.history.perform op).2)

def put (r : Relay) (k : Nat) (st : Station) : Relay :=
  { r with stations := r.stations.set k st }

def putTask (r : Relay) (i : Nat) (t : Task) : Relay :=
  { r with tasks := r.tasks.set i t }

def advance (r : Relay) (k : Nat) (st : Station) (input : Worker.Input) : Option Relay :=
  (st.worker.step input).map fun w => r.put k { st with worker := w.1 }

def poll (r : Relay) (k : Nat) (st : Station) : Option Relay :=
  if st.worker.phase = .receiving then
    let next := r.perform (.poll st.consumer)
    match next.2 with
    | .polled (.delivered d) =>
      let task := Task.begin k st.consumer ⟨d, st.policy⟩
      advance { next.1 with tasks := r.tasks ++ [task] } k st (.delivered r.tasks.length)
    | .polled (.failed e) => next.1.advance k st (.streamFailed e)
    | .polled .ended => next.1.advance k st (.streamEnded st.shutdown)
    | .polled (.pending _) => some next.1
    | _ => none
  else none

def reopen (r : Relay) (k : Nat) (st : Station) : Option Relay :=
  match st.worker.phase with
  | .reopening .. =>
    let next := r.perform (.consume st.worker.queue st.prefetch)
    match next.2 with
    | .opened id =>
      next.1.advance k { st with fresh := some id, opened := st.opened ++ [id] }
        (.consumed (.ok ()))
    | .failed e => next.1.advance k st (.consumed (.error e))
    | _ => none
  | _ => none

def replace (r : Relay) (k : Nat) (st : Station) : Option Relay :=
  match st.worker.phase, st.fresh with
  | .replacing, some id =>
    (r.perform (.close st.consumer)).1.advance k { st with consumer := id, fresh := none } .replaced
  | _, _ => none

def cancel (r : Relay) (k : Nat) (st : Station) : Option Relay :=
  if st.worker.phase = .cancelling then
    (r.perform (.cancel st.consumer)).1.advance k st (.cancelled (.ok ()))
  else none

def close (r : Relay) (k : Nat) (st : Station) : Option Relay :=
  if st.worker.phase = .closing then
    (r.perform (.close st.consumer)).1.advance k st (.closed (.ok ()))
  else none

def tell (r : Relay) (i : Nat) (t : Task) (a : Answer) : Option Relay :=
  (t.trail.step t.job a).map fun trail => r.putTask i { t with trail }

def finish (r : Relay) (k : Nat) (st : Station) (i : Nat) (t : Task) (e : DeliveryEnd) :
    Option Relay :=
  (r.putTask i { t with ending := some e }).advance k st (.taskEnded i e)

def settle (r : Relay) (k : Nat) (st : Station) (i : Nat) (t : Task) : Option Relay :=
  t.settlement?.bind fun op =>
    (t.trail.step t.job (.broker (r.perform op).2.answer)).bind fun trail =>
      match trail.phase with
      | .finished o => (r.perform op).1.finish k st i { t with trail } (.settled o)
      | _ => none

def openTask? (r : Relay) (k i : Nat) : Option Task :=
  r.tasks[i]?.filter fun t => t.station = k ∧ t.ending = none

def act (r : Relay) (k : Nat) (st : Station) : Act → Option Relay
  | .signal s => (s.input? st.shutdown).bind (r.advance k st)
  | .poll => r.poll k st
  | .reopen => r.reopen k st
  | .replace => r.replace k st
  | .cancel => r.cancel k st
  | .close => r.close k st
  | .handled i result => (r.openTask? k i).bind fun t => r.tell i t (.handler result)
  | .woken i => (r.openTask? k i).bind fun t => r.tell i t .elapsed
  | .settle i => (r.openTask? k i).bind fun t => r.settle k st i t
  | .panic i message => (r.openTask? k i).bind fun t => r.finish k st i t (.panicked message)
  | .cut i =>
    if st.worker.phase = .aborting then
      (r.openTask? k i).bind fun t => r.finish k st i t .cutOff
    else none

def hire (r : Relay) (p : Dispatcher.Prepared Unit) (grace : Duration) : Relay :=
  let next := r.perform (.consume p.queue p.config.effectivePrefetch)
  match next.2 with
  | .opened id => { next.1 with stations := r.stations ++ [.begin p grace id] }
  | _ => next.1

def next (r : Relay) : Move → Option Relay
  | .client op => if r.Allows op then some (r.perform op).1 else none
  | .hire p grace => some (r.hire p grace)
  | .stop k => r.stations[k]?.map fun st => r.put k { st with shutdown := true }
  | .act k a => r.stations[k]?.bind fun st => r.act k st a

def step (r : Relay) (m : Move) : Relay :=
  (r.next m).getD r

def run (r : Relay) (moves : List Move) : Relay :=
  moves.foldl step r

end Relay
end OutcomeRelay
