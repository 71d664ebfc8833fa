import OutcomeRelay.Simulation.Scheduler

/-!
Sessions: commands to a simulated world by name, and their replies. Consumers, deliveries and
publishers are known by the names under which they were made; a waiting consumer is polled again
once after each command that gave its queue something new.
-/

namespace OutcomeRelay.Simulation

inductive Destination where
  | target (t : RoutingTarget)
  | byStatus (routes : OutcomeRoutes)

inductive Payload where
  | event (e : OutcomeEvent) (destination : Destination)
  | notice (n : FailureNotice) (messageId : String) (target : RoutingTarget)

inductive Subject where
  | received (name : String)
  | given (delivery : Delivery) (failure : Option BusError)

structure DispatcherSetup where
  handlers : List (String × Handler)
  config : DispatcherConfig
  remote : Option (List (String × List StreamScript))

inductive Command where
  | declare (t : Topology)
  | declareExchange (e : ExchangeSpec)
  | declareQueue (q : QueueSpec)
  | bind (b : Binding)
  | send (o : Outbound)
  | reachable (value : Bool)
  | closeBroker
  | sendAttempts
  | depth (queue : String)
  | ready (queue : String)
  | consume (queue tag : String) (prefetch : Nat) (name : String)
  | recv (consumer name : String)
  | recvStart (consumer : String)
  | recvCheck (consumer name : String)
  | ack (delivery : String)
  | reject (delivery : String) (requeue : Bool)
  | cancel (consumer : String)
  | close (consumer : String)
  | publisher (name : String) (config : PublisherConfig) (script : Option (List ScriptedSend))
      (listener : Listener)
  | publish (publisher : String) (payload : Payload) (background : Bool)
  | join (publisher : String)
  | sends (publisher : String)
  | signals (publisher : String)
  | dropPublisher (publisher : String)
  | calls
  | process (queue : String) (handler : Handler) (retry : RetryConfig) (subject : Subject)
  | dispatcher (setup : DispatcherSetup)
  | workerCount
  | records
  | brokerLog
  | shutdown
  | dropHandle
  | sleep (ms : Nat)

structure Processed where
  outcome : DeliveryOutcome
  settled : List RemoteCall
  maxAttempts : Nat
  worker : String
  record : Option DeadLetterRecord

inductive Reply where
  | done
  | started
  | refused (reason : String)
  | failed (error : BusError)
  | confirmed (confirm : Confirm)
  | count (n : Option Nat)
  | messages (ms : List StoredMessage)
  | delivered (d : Delivery)
  | pending
  | ended
  | publisherMade (maxAttempts : Nat)
  | published (result : Except PublishError Receipt)
  | joined (results : List (Except PublishError Receipt))
  | sent (messages : List SentMessage)
  | signals (confirms : List ConfirmSignal) (returns : List ReturnSignal)
  | monitored (summary : Publisher.MonitorSummary)
  | invoked (calls : List Invocation)
  | processed (p : Processed)
  | dispatchFailed (error : DispatchError)
  | workers (n : Nat)
  | records (rs : List DeadLetterRecord)
  | remoteCalls (calls : List (String × RemoteCall))
  | summaries (ss : List WorkerSummary)

structure Waiter where
  consumer : String
  polled : Polled
  deriving DecidableEq, Repr

structure Session where
  world : World := {}
  consumers : List (String × Consumer) := []
  waiters : List Waiter := []
  deliveries : List (String × Delivery) := []
  publishers : List (String × Nat) := []
  workers : Option (List Nat) := none

namespace Session

def put {α : Type} (name : String) (a : α) (xs : List (String × α)) : List (String × α) :=
  (name, a) :: xs.filter fun x => x.1 != name

def mapWorld (s : Session) (f : World → World) : Session :=
  { s with world := f s.world }

def setBroker (s : Session) (b : Broker) : Session :=
  s.mapWorld fun w => { w with broker := b }

def say (s : Session) (log : List Log.Entry) : Session :=
  s.mapWorld fun w => w.say log

def unit : Except BusError Unit → Reply
  | .ok _ => .done
  | .error e => .failed e

def operate (s : Session) (op : Broker → Broker × Except BusError Unit) : Session × Reply :=
  let (b, r) := op s.world.broker
  (s.setBroker b, unit r)

def withConsumer (s : Session) (name : String) (f : Consumer → Session × Reply) :
    Session × Reply :=
  match s.consumers.lookup name with
  | some c => f c
  | none => (s, .refused "no such consumer")

def withDelivery (s : Session) (name : String) (f : Delivery → Session × Reply) :
    Session × Reply :=
  match s.deliveries.lookup name with
  | some d => f d
  | none => (s, .refused "no such delivery")

def withPublisher (s : Session) (name : String) (f : Nat → PublisherState → Session × Reply) :
    Session × Reply :=
  match (s.publishers.lookup name).bind fun id => (s.world.publisher? id).map fun p => (id, p) with
  | some (id, p) => f id p
  | none => (s, .refused "no such publisher")

def setConsumer (s : Session) (name : String) (c : Consumer) : Session :=
  { s with consumers := put name c s.consumers }

def poll (s : Session) (name : String) (c : Consumer) : Session × Polled :=
  let (b, c, p) := s.world.broker.poll c
  ((s.setBroker b).setConsumer name c, p)

def report (s : Session) (name : String) : Polled → Session × Reply
  | .ended => (s, .ended)
  | .failed e => (s, .failed e)
  | .pending _ => (s, .pending)
  | .delivered d => ({ s with deliveries := put name d s.deliveries }, .delivered d)

def pollWaiter (s : Session) (w : Waiter) : Session × Waiter :=
  match w.polled, s.consumers.lookup w.consumer with
  | .pending e, some c =>
    if (s.world.broker.queue? c.queue).any fun q => q.epoch != e then
      let (s, p) := s.poll w.consumer c
      (s, { w with polled := p })
    else (s, w)
  | _, _ => (s, w)

def pollWaiters (s : Session) : Session :=
  let (s, ws) := s.waiters.foldl (fun acc w =>
    let (s, w) := acc.1.pollWaiter w
    (s, acc.2 ++ [w])) (s, ([] : List Waiter))
  { s with waiters := ws }

def message (p : PublisherState) : Payload → Except PublishError Outbound
  | .event e (.target t) => Publisher.ofEvent p.config t e
  | .event e (.byStatus routes) => Publisher.ofOutcome p.config routes e
  | .notice n id t => Publisher.ofNotice p.config t id n

def publishedReply : Option TaskResult → Reply
  | some (.published r) => .published r
  | _ => .pending

def refusal (w : World) (e : PublishError) : World × Nat :=
  let id := w.lastTask + 1
  ({ w with lastTask := id, results := w.results ++ [(id, .published (.error e))] }, id)

def publish (s : Session) (id : Nat) (p : PublisherState) (payload : Payload)
    (background : Bool) : Session × Reply :=
  if p.dropped then (s, .refused "publisher dropped")
  else
    let (w, task) := match message p payload with
      | .ok o => s.world.spawn
        (.publish { publisher := id, message := o, sending := .start p.config })
      | .error e => refusal s.world e
    if background then
      ({ s with world := w.setPublisher id { p with background := p.background ++ [task] } },
        .started)
    else
      let w := w.awaitTask task
      ({ s with world := w }, publishedReply (w.result? task))

def awaitBackground (w : World) (p : PublisherState) : World :=
  p.background.foldl World.awaitTask w

def joinBackground (w : World) (id : Nat) (p : PublisherState) :
    World × List (Except PublishError Receipt) :=
  let w := awaitBackground w p
  let results := p.background.filterMap fun t =>
    match w.result? t with
    | some (.published r) => some r
    | _ => none
  let w := match w.publisher? id with
    | some p => w.setPublisher id { p with background := [] }
    | none => w
  (w, results)

def dropPublisher (s : Session) (id : Nat) (p : PublisherState) : Session × Reply :=
  if p.dropped then (s, .refused "publisher dropped")
  else
    let w := s.world.setPublisher id { p with dropped := true }
    match p.listener with
    | .monitor _ =>
      let w := awaitBackground w p
      let w := w.advanceUntil fun w => (w.publisher? id).all fun p => p.pending.isEmpty
      match (w.publisher? id).map PublisherState.listener with
      | some (.monitor m) =>
        match (m.findClosed .confirms).findClosed .returns with
        | .stopped summary =>
          ({ s with world := { w with monitorLog := w.monitorLog ++ [summary.log] } },
            .monitored summary)
        | .listening .. => ({ s with world := w }, .done)
      | _ => ({ s with world := w }, .done)
    | _ => ({ s with world := w }, .done)

def process (s : Session) (queue : String) (handler : Handler) (policy : RetryPolicy)
    (d : Delivery) (settler : Settler) : Session × Reply :=
  let w := { s.world with settled := [], lastRecord := none }
  let (w, id) := w.spawn (.delivery {
    owner := none, job := ⟨d, policy⟩, handler, settler })
  let w := w.awaitTask id
  let s := { s with world := w }
  match w.result? id with
  | some (.processed o) =>
    (s, .processed ⟨o, w.settled, policy.maxAttempts, queue, w.lastRecord⟩)
  | _ => (s, .pending)

def registry (handlers : List (String × Handler)) :
    Except DispatchError (HandlerRegistry Handler) :=
  handlers.foldlM (fun r h => r.register h.1 h.2) {}

def startDispatcher (s : Session) (setup : DispatcherSetup) : Session × Reply :=
  let prepared := registry setup.handlers >>= Dispatcher.prepare setup.config
  let s := match setup.remote with
    | some scripts => s.mapWorld fun w => { w with remote := { scripts } }
    | none => s
  match prepared with
  | .error e => (s, .dispatchFailed e)
  | .ok prepared =>
    let (w, id) := s.world.spawn (.opening {
      grace := setup.config.grace, scripted := setup.remote.isSome
      opening := .proceed [] prepared })
    let w := w.awaitTask id
    match w.result? id with
    | some (.opened (.ok ids)) => ({ s with world := w, workers := some ids }, .workers ids.length)
    | some (.opened (.error e)) => ({ s with world := w }, .dispatchFailed e)
    | _ => ({ s with world := w }, .pending)

def requestShutdown (w : World) (id : Nat) : World :=
  match w.task? id with
  | some (.worker t) => (w.setTask id (.worker { t with shutdown := true })).wake id
  | _ => w

def awaitWorkers (w : World) : List Nat → World × List WorkerSummary
  | [] => (w, [])
  | id :: rest =>
    let w := w.awaitTask id
    match w.result? id with
    | some (.worked (.ok summary)) =>
      let (w, ss) := awaitWorkers w rest
      (w, summary :: ss)
    | some (.worked (.error m)) => awaitWorkers (w.say [Dispatcher.workerFailedLog m]) rest
    | _ => awaitWorkers w rest

def shutdown (s : Session) (ids : List Nat) : Session × Reply :=
  let w := ids.foldl requestShutdown (s.world.say [Dispatcher.shutdownLog])
  let (w, ss) := awaitWorkers w ids
  ({ s with world := w, workers := none }, .summaries ss)

def takeSignals (s : Session) (id : Nat) (p : PublisherState) : Session × Reply :=
  match p.listener with
  | .collector cs rs =>
    (s.mapWorld fun w => w.setPublisher id { p with listener := .collector [] [] }, .signals cs rs)
  | _ => (s, .signals [] [])

def perform (s : Session) : Command → Session × Reply
  | .declare t =>
    let (b, r, log) := s.world.broker.declare t
    ((s.setBroker b).say log, unit r)
  | .declareExchange e => s.operate fun b => b.declareExchange e
  | .declareQueue q => s.operate fun b => b.declareQueue q
  | .bind r => s.operate fun b => b.bind r
  | .send o =>
    match s.world.broker.send o with
    | (b, .ok c) => (s.setBroker b, .confirmed c)
    | (b, .error e) => (s.setBroker b, .failed e)
  | .reachable v => (s.setBroker (s.world.broker.setReachable v), .done)
  | .closeBroker =>
    ((s.setBroker (s.world.broker.setReachable false)).say [Broker.closedLog], .done)
  | .sendAttempts => (s, .count (some s.world.broker.sendAttempts))
  | .depth q => (s, .count (s.world.broker.depth? q))
  | .ready q => (s, .messages (s.world.broker.readyMessages q))
  | .consume queue tag prefetch name =>
    match s.world.broker.consume queue prefetch with
    | (b, .ok c) =>
      (((s.setBroker b).setConsumer name c).say [Broker.consumeLog queue tag prefetch], .done)
    | (b, .error e) => (s.setBroker b, .failed e)
  | .recv consumer name =>
    s.withConsumer consumer fun c =>
      let (s, p) := s.poll consumer c
      s.report name p
  | .recvStart consumer =>
    s.withConsumer consumer fun c =>
      let (s, p) := s.poll consumer c
      ({ s with waiters := s.waiters ++ [⟨consumer, p⟩] }, .started)
  | .recvCheck consumer name =>
    match s.waiters.find? fun w => w.consumer == consumer with
    | some w =>
      ({ s with waiters := s.waiters.filter fun w => w.consumer != consumer }).report name w.polled
    | none => (s, .refused "no recv in progress")
  | .ack d => s.withDelivery d fun d => s.operate fun b => b.ack d.queue d.tag
  | .reject d back =>
    s.withDelivery d fun d =>
      match s.world.broker.reject d.queue d.tag back with
      | (b, .ok dead) => ((s.setBroker b).say (dead.toList.map fun x => x.log d.queue), .done)
      | (b, .error e) => (s.setBroker b, .failed e)
  | .cancel c => s.withConsumer c fun x => (s.setConsumer c (Broker.cancel x), .done)
  | .close c =>
    s.withConsumer c fun x =>
      let (b, x, n) := s.world.broker.close x
      (((s.setBroker b).setConsumer c x).say (Broker.closeLog x.queue n), .done)
  | .publisher name config script listener =>
    let id := s.world.publishers.length + 1
    let s := s.mapWorld fun w =>
      { w with publishers := w.publishers ++ [(id, { config, script, listener })] }
    ({ s with publishers := put name id s.publishers }, .publisherMade config.maxAttempts)
  | .publish name payload background =>
    s.withPublisher name fun id p => s.publish id p payload background
  | .join name =>
    s.withPublisher name fun id p =>
      let (w, rs) := joinBackground s.world id p
      ({ s with world := w }, .joined rs)
  | .sends name =>
    s.withPublisher name fun id p =>
      (s.mapWorld fun w => w.setPublisher id { p with sent := [] }, .sent p.sent)
  | .signals name => s.withPublisher name fun id p => s.takeSignals id p
  | .dropPublisher name => s.withPublisher name fun id p => s.dropPublisher id p
  | .calls =>
    (s.mapWorld fun w => { w with invocations := [] }, .invoked s.world.invocations)
  | .process queue handler retry subject =>
    match retry.toPolicy? with
    | .error f => (s, .dispatchFailed (.invalidRetryPolicy queue f))
    | .ok policy =>
      match subject with
      | .received name => s.withDelivery name fun d => s.process queue handler policy d .memory
      | .given d failure => s.process queue handler policy d (.inline failure)
  | .dispatcher setup => s.startDispatcher setup
  | .workerCount => (s, .count (s.workers.map List.length))
  | .records => (s.mapWorld fun w => { w with records := [] }, .records s.world.records)
  | .brokerLog =>
    (s.mapWorld fun w => { w with remote := { w.remote with calls := [] } },
      .remoteCalls s.world.remote.calls)
  | .shutdown =>
    match s.workers with
    | some ids => s.shutdown ids
    | none => (s, .refused "no dispatcher")
  | .dropHandle =>
    match s.workers with
    | some _ => ({ s with workers := none }, .done)
    | none => (s, .refused "no dispatcher")
  | .sleep ms => (s.mapWorld fun w => w.sleep (.ofMillis ms), .done)

def run (s : Session) (c : Command) : Session × Reply :=
  let (s, reply) := s.perform c
  ((s.mapWorld World.settle).pollWaiters, reply)

end Session
end OutcomeRelay.Simulation
