import OutcomeRelay.Simulation.Delivery

/-!
Steps of the task of a queue worker, and of the task that starts a dispatcher. The world answers
what the worker waits for: slots, deliveries, time, and the broker's answers.
-/

namespace OutcomeRelay.Simulation

def openMemory (w : World) (queue tag : String) (prefetch : Nat) :
    World × Except BusError Stream :=
  match w.broker.consume queue prefetch with
  | (b, .ok c) =>
    ({ w with broker := b }.say [Broker.consumeLog queue tag prefetch], .ok (.memory c))
  | (b, .error e) => ({ w with broker := b }, .error e)

def closeStream (w : World) : Stream → World × Except BusError Unit
  | .memory c =>
    let (b, _, n) := w.broker.close c
    ({ w with broker := b }.say (Broker.closeLog c.queue n), .ok ())
  | .scripted q s => ({ w with remote := w.remote.note q .close }, failureOf s.closeFails)

def callRemote (w : World) (queue tag : String) (prefetch : Nat) : World × StreamScript :=
  let (b, s) := (w.remote.note queue (.consume tag prefetch)).next queue
  ({ w with remote := b }, s)

def remoteAnswer (queue : String) (s : StreamScript) : Except BusError Stream :=
  match s.failure with
  | some e => .error e
  | none => .ok (.scripted queue s)

namespace WorkerTask

def queue (t : WorkerTask) : String :=
  t.worker.queue

def park (t : WorkerTask) (w : World) (id : Nat) : World :=
  w.park id (.worker t)

def apply (t : WorkerTask) (w : World) (id : Nat) (input : Worker.Input) : World :=
  match t.worker.step input with
  | some (worker, log) =>
    (w.say log).setTask id (.worker { t with worker, wait := none, seen := none })
  | none => t.park w id

def after (t : WorkerTask) (w : World) (id : Nat) (d : Duration) (next : World → World) : World :=
  match t.wait with
  | none =>
    if Duration.ceilMillis d = 0 then next w
    else
      let due := w.dueAfter d
      (({ t with wait := some due } : WorkerTask).park w id).setTimer due id
  | some due => if due ≤ w.now then next w else t.park w id

def receive (t : WorkerTask) (w : World) (id : Nat) (d : Delivery) (settler : Settler) : World :=
  let (w, child) := w.spawn (.delivery {
    owner := some id, job := ⟨d, t.policy⟩, handler := t.handler, settler })
  t.apply w id (.delivered child)

def cutOff (w : World) (ids : List Nat) : World :=
  ids.foldl (fun w i =>
    match w.task? i with
    | some (.delivery d) => (w.setTask i (.delivery { d with cut := true })).wake i
    | _ => w) w

def die (t : WorkerTask) (w : World) (id : Nat) (message : String) : World :=
  cutOff (w.finish id (.worked (.error message))) t.worker.running

def play (t : WorkerTask) (w : World) (id : Nat) : StreamAction → World
  | .deliver d s => t.receive w id d (.scripted s)
  | .fail e => t.apply w id (.streamFailed e)
  | .finish => t.apply w id (.streamEnded t.shutdown)
  | .panic m => t.die w id m

def receiveMemory (t : WorkerTask) (w : World) (id : Nat) (c : Consumer) : World :=
  let (b, c, polled) := w.broker.poll c
  let w := { w with broker := b }
  let t := { t with stream := .memory c }
  match polled with
  | .ended => t.apply w id (.streamEnded t.shutdown)
  | .failed e => t.apply w id (.streamFailed e)
  | .delivered d => t.receive w id d .memory
  | .pending e =>
    let w := ({ t with seen := some e } : WorkerTask).park w id
    { w with waiting := w.waiting ++ [id] }

def receiving (t : WorkerTask) (w : World) (id : Nat) : World :=
  if t.shutdown then t.apply w id .shutdown
  else match t.stream with
  | .memory c =>
    if t.seen.isSome && t.seen == (w.broker.queue? c.queue).map (·.epoch) then t.park w id
    else t.receiveMemory w id c
  | .scripted q s =>
    match s.events with
    | [] => t.park w id
    | e :: rest =>
      t.after w id e.delay fun w =>
        ({ t with stream := .scripted q { s with events := rest } } : WorkerTask).play w id e.action

def opened (t : WorkerTask) (w : World) (id : Nat) (r : Except BusError Stream) : World :=
  ({ t with spare := some r } : WorkerTask).apply w id (.consumed (r.map fun _ => ()))

def reopening (t : WorkerTask) (w : World) (id : Nat) : World :=
  match t.stream, t.spare with
  | .memory _, _ =>
    let (w, r) := openMemory w t.queue t.tag t.prefetch
    t.opened w id r
  | .scripted .., some (.ok (.scripted q s)) =>
    t.after w id s.delay fun w =>
      ({ t with spare := none } : WorkerTask).opened w id (remoteAnswer q s)
  | .scripted .., _ =>
    let (w, s) := callRemote w t.queue t.tag t.prefetch
    w.setTask id (.worker { t with spare := some (.ok (.scripted t.queue s)) })

def replacing (t : WorkerTask) (w : World) (id : Nat) : World :=
  let (w, _) := closeStream w t.stream
  let stream := match t.spare with
    | some (.ok s) => s
    | _ => t.stream
  ({ t with stream, spare := none } : WorkerTask).apply w id .replaced

def cancelling (t : WorkerTask) (w : World) (id : Nat) : World :=
  match t.stream with
  | .memory c =>
    ({ t with stream := .memory (Broker.cancel c) } : WorkerTask).apply w id (.cancelled (.ok ()))
  | .scripted q s =>
    t.apply { w with remote := w.remote.note q .cancel } id (.cancelled (failureOf s.cancelFails))

def draining (t : WorkerTask) (w : World) (id : Nat) : World :=
  if t.worker.ended ≠ [] then t.apply w id .join
  else if t.worker.running = [] then t.apply w id .drained
  else t.after w id t.worker.grace fun w =>
    cutOff (t.apply w id .graceElapsed) t.worker.running

def step (t : WorkerTask) (w : World) (id : Nat) : World :=
  match t.worker.phase with
  | .gathering =>
    if t.worker.ended ≠ [] then t.apply w id .join else t.apply w id (.look t.shutdown)
  | .seekingSlot =>
    if t.shutdown then t.apply w id .shutdown
    else if t.worker.running.length < t.worker.slots then t.apply w id .slotFree
    else t.park w id
  | .receiving => t.receiving w id
  | .backingOff _ d _ =>
    if t.shutdown then t.apply w id .shutdown
    else t.after w id d fun w => t.apply w id (.waited t.shutdown)
  | .reopening .. => t.reopening w id
  | .replacing => t.replacing w id
  | .cancelling => t.cancelling w id
  | .draining => t.draining w id
  | .aborting =>
    if t.worker.ended ≠ [] then t.apply w id .join
    else if t.worker.running = [] then t.apply w id .drained
    else t.park w id
  | .closing =>
    let (w, r) := closeStream w t.stream
    t.apply w id (.closed r)
  | .stopped => w.finish id (.worked (.ok t.worker.summary))

end WorkerTask

namespace OpeningTask

open Dispatcher

def proceed (t : OpeningTask) (w : World) (id : Nat)
    (o : Opening Handler (Stream × String)) : World :=
  w.setTask id (.opening { t with opening := o, wait := none, pending := none })

def tagOf (w : World) (p : Prepared Handler) : String :=
  consumerTag p.queue w.unique

def consumed (t : OpeningTask) (w : World) (id : Nat)
    (opened : List (Prepared Handler × (Stream × String))) (p : Prepared Handler)
    (rest : List (Prepared Handler)) (r : Except BusError Stream) : World :=
  t.proceed w id (.consumed opened p rest (r.map fun s => (s, tagOf w p)))

def startWorkers (grace : Duration) (w : World) :
    List (Prepared Handler × (Stream × String)) → World × List Nat
  | [] => (w, [])
  | (p, (stream, tag)) :: rest =>
    let (w, id) := (w.say [p.startLog]).spawn (.worker {
      worker := p.worker grace, handler := p.handler, policy := p.policy
      prefetch := p.config.effectivePrefetch, tag, stream })
    let (w, ids) := startWorkers grace w rest
    (w, id :: ids)

def step (t : OpeningTask) (w : World) (id : Nat) : World :=
  match t.opening with
  | .consuming opened p rest =>
    if t.scripted then
      match t.pending, t.wait with
      | none, _ =>
        let (w, s) := callRemote w p.queue (tagOf w p) p.config.effectivePrefetch
        if Duration.ceilMillis s.delay = 0 then
          t.consumed w id opened p rest (remoteAnswer p.queue s)
        else
          let due := w.dueAfter s.delay
          (w.park id (.opening { t with pending := some s, wait := some due })).setTimer due id
      | some s, some due =>
        if due ≤ w.now then t.consumed w id opened p rest (remoteAnswer p.queue s)
        else w.park id (.opening t)
      | some _, none => w.park id (.opening t)
    else
      let (w, r) := openMemory w p.queue (tagOf w p) p.config.effectivePrefetch
      t.consumed w id opened p rest r
  | .closing left e =>
    let w := match left with
      | (s, _) :: _ => (closeStream w s).1
      | [] => w
    t.proceed w id (.closed left e)
  | .started workers =>
    let (w, ids) := startWorkers t.grace w workers
    w.finish id (.opened (.ok ids))
  | .failed e => w.finish id (.opened (.error (.bus e)))

end OpeningTask
end OutcomeRelay.Simulation
