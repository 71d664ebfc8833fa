import OutcomeRelay.Simulation.World

/-!
Steps of the task of a delivery. Handlers and settlements are played from their scripts; with the
broker in memory a settlement is an operation of the broker.
-/

namespace OutcomeRelay.Simulation

open DeliveryRun

namespace DeliveryTask

def remoteCall (t : DeliveryTask) : AckerCall → RemoteCall
  | .ack => .ack t.job.delivery.tag
  | .reject false => .reject t.job.delivery.tag
  | .reject true => .requeue t.job.delivery.tag

def noteCall (t : DeliveryTask) (w : World) (c : AckerCall) : World :=
  match t.settler with
  | .memory => w
  | .scripted _ => { w with remote := w.remote.note t.job.delivery.queue (t.remoteCall c) }
  | .inline _ => { w with settled := w.settled ++ [t.remoteCall c] }

def settleDelay (t : DeliveryTask) : Duration :=
  match t.settler with
  | .scripted s => s.delay
  | _ => 0

def settle (t : DeliveryTask) (w : World) (c : AckerCall) :
    World × Except String (Except BusError Unit) :=
  let d := t.job.delivery
  match t.settler, c with
  | .memory, .ack =>
    let (b, r) := w.broker.ack d.queue d.tag
    ({ w with broker := b }, .ok r)
  | .memory, .reject requeue =>
    let (b, r) := w.broker.reject d.queue d.tag requeue
    let log := match r with
      | .ok (some dead) => [dead.log d.queue]
      | _ => []
    ({ w with broker := b }.say log, .ok (r.map fun _ => ()))
  | .scripted s, _ =>
    match s.panic with
    | some m => (w, .error m)
    | none => (w, .ok (failureOf s.failure))
  | .inline f, _ => (w, .ok (failureOf f))

def finish (t : DeliveryTask) (w : World) (id : Nat) (e : DeliveryEnd) : World :=
  match t.owner with
  | none =>
    match e with
    | .settled o => w.finish id (.processed o)
    | _ => w.finish id (.processed (.deadLettered 0))
  | some owner =>
    let w := { w with
      tasks := w.tasks.filter fun p => p.1 != id
      ready := w.ready.filter (· != id) }
    match w.task? owner with
    | some (.worker wt) =>
      let w := w.setTask owner (.worker { wt with worker := wt.worker.endTask id e })
      match wt.worker.phase with
      | .seekingSlot | .draining | .aborting => w.wake owner
      | _ => w
    | _ => w

def proceed (t : DeliveryTask) (w : World) (id : Nat) (next : DeliveryRun.Phase × List Log.Entry) :
    World :=
  (w.say next.2).setTask id (.delivery { t with phase := some next.1, wait := none })

def await (t : DeliveryTask) (w : World) (id : Nat) (d : Option Duration) : World :=
  let due := d.map w.dueAfter
  let w := w.park id (.delivery { t with wait := some due })
  match due with
  | some i => w.setTimer i id
  | none => w

def isOver (w : World) : Option Instant → Bool
  | some due => due ≤ w.now
  | none => false

def handled (t : DeliveryTask) (w : World) (id : Nat) (p : DeliveryRun.Progress)
    (r : HandlerResult) : World :=
  t.proceed w id (p.handled t.job r)

def invoke (t : DeliveryTask) (w : World) (id : Nat) (p : DeliveryRun.Progress) : World :=
  let m := p.message t.job
  match t.handler with
  | .logging h =>
    let (r, log) := h.handle m
    t.handled (w.say log) id p r
  | .scripted s =>
    let w := { w with
      invocations := w.invocations ++ [⟨m, if s.timed then some w.now else none⟩] }
    let o := s.outcome m
    match o.duration? s.immediate with
    | some d =>
      if Duration.ceilMillis d = 0 then t.handled w id p (o.result.getD .done)
      else t.await w id (some d)
    | none => t.await w id none

def resume (t : DeliveryTask) (w : World) (id : Nat) (p : DeliveryRun.Progress) : World :=
  match t.handler with
  | .logging _ => w
  | .scripted s => t.handled w id p (((s.outcome (p.message t.job)).result).getD .done)

def settled (t : DeliveryTask) (w : World) (id : Nat) (c : AckerCall)
    (next : World → Except BusError Unit → World) : World :=
  match t.settle w c with
  | (w, .error m) => t.finish w id (.panicked m)
  | (w, .ok r) => next w r

def settling (t : DeliveryTask) (w : World) (id : Nat) (c : AckerCall)
    (next : World → Except BusError Unit → World) : World :=
  match t.wait with
  | none =>
    let w := t.noteCall w c
    if Duration.ceilMillis t.settleDelay = 0 then t.settled w id c next
    else t.await w id (some t.settleDelay)
  | some due =>
    if isOver w due then t.settled w id c next else w.park id (.delivery t)

def keep (t : DeliveryTask) (w : World) (r : DeadLetterRecord) : World :=
  match t.owner with
  | some _ => { w with records := w.records ++ [r] }
  | none => { w with lastRecord := some r }

def answered (t : DeliveryTask) (w : World) (id : Nat) (r : Except BusError Unit) : Phase → World
  | .acking n => t.proceed w id (DeliveryRun.acked n r)
  | .rejecting rj =>
    let (next, record, log) := rj.rejected r
    t.proceed (t.keep w record) id (next, log)
  | _ => w

def step (t : DeliveryTask) (w : World) (id : Nat) : World :=
  if t.cut then t.finish w id .cutOff
  else match t.phase with
  | none => t.proceed w id (DeliveryRun.start t.job)
  | some (.handling p) =>
    match t.wait with
    | none => t.invoke w id p
    | some due => if isOver w due then t.resume w id p else w.park id (.delivery t)
  | some (.waiting d p) =>
    match t.wait with
    | none =>
      if Duration.ceilMillis d = 0 then t.proceed w id (p.handle t.job) else t.await w id (some d)
    | some due =>
      if isOver w due then t.proceed w id (p.handle t.job) else w.park id (.delivery t)
  | some (.finished o) => t.finish w id (.settled o)
  | some p =>
    match p.call? with
    | some c => t.settling w id c fun w r => t.answered w id r p
    | none => w

end DeliveryTask
end OutcomeRelay.Simulation
