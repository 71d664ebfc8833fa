import OutcomeRelay.Simulation.World

/-!
Steps of the task of a publish call, and the signals that follow it. A confirm that is due at the
instant of the timeout is in time.
-/

namespace OutcomeRelay.Simulation

namespace PublisherState

def hear (p : PublisherState) (o : Outbound) (r : Publisher.Resolution) :
    PublisherState × List Log.Entry :=
  let signals := Publisher.signals o r
  match p.listener with
  | .absent => (p, [])
  | .collector cs rs =>
    let cs := cs ++ signals.filterMap Publisher.Signal.confirm?
    let rs := rs ++ signals.filterMap Publisher.Signal.return?
    ({ p with listener := .collector cs rs }, [])
  | .monitor m =>
    ({ p with listener := .monitor (signals.foldl Publisher.Monitor.take m) },
      signals.map Publisher.Signal.log)

def resolve (p : PublisherState) (now : Instant) : PublisherState × List Log.Entry :=
  let due := p.pending.filter fun c => c.due ≤ now
  let p := { p with pending := p.pending.filter fun c => !(c.due ≤ now) }
  due.foldl (fun acc c =>
    let (p, log) := acc.1.hear c.message c.resolution
    (p, acc.2 ++ log)) (p, [])

/-- A confirm that takes `delay`, or none at all, cut short by the timeout. -/
def expect (p : PublisherState) (w : World) (o : Outbound)
    (confirm : Option (Duration × Publisher.Resolution)) : PublisherState :=
  let limit := w.dueAfter p.config.confirmTimeout
  let c : PendingConfirm := match confirm with
    | some (delay, r) =>
      if w.dueAfter delay ≤ limit then ⟨w.dueAfter delay, o, r⟩ else ⟨limit, o, .timedOut⟩
    | none => ⟨limit, o, .timedOut⟩
  { p with pending := p.pending ++ [c] }

end PublisherState

namespace World

def resolveConfirms (w : World) : World :=
  w.publishers.foldl (fun w p =>
    let (q, log) := p.2.resolve w.now
    { w.setPublisher p.1 q with monitorLog := w.monitorLog ++ log }) w

end World

namespace PublishTask

def send (t : PublishTask) (w : World) (p : PublisherState) :
    World × PublisherState × Except BusError Unit :=
  match p.script with
  | none =>
    match w.broker.send t.message with
    | (b, .ok c) =>
      ({ w with broker := b }, p.expect w t.message (some (0, .confirmed c)), .ok ())
    | (b, .error e) => ({ w with broker := b }, p, .error e)
  | some script =>
    let p := { p with script := some script.tail, sent := p.sent ++ [⟨w.now, t.message⟩] }
    match script.head? with
    | none => (w, p.expect w t.message (some (0, .confirmed .ack)), .ok ())
    | some (.unreachable e) => (w, p, .error e)
    | some .hang => (w, p.expect w t.message none, .ok ())
    | some (.confirm d r) => (w, p.expect w t.message (some (d, r)), .ok ())

def step (t : PublishTask) (w : World) (id : Nat) : World :=
  match w.publisher? t.publisher with
  | none => w.park id (.publish t)
  | some p =>
    match t.sending with
    | .attempt n waits =>
      let w := w.say [Publisher.Sending.attemptLog p.config t.message n]
      let (w, p, r) := t.send w p
      let next := Publisher.Sending.sent p.config t.message n waits r
      let w := (w.setPublisher t.publisher p).say
        (Publisher.Sending.sentLog p.config t.message n next r)
      match next with
      | .pause _ delay _ =>
        let due := w.dueAfter delay
        if due ≤ w.now then w.setTask id (.publish { t with sending := next })
        else (w.park id (.publish { t with sending := next, wait := some due })).setTimer due id
      | _ => w.setTask id (.publish { t with sending := next })
    | .pause .. =>
      if t.wait.all (· ≤ w.now) then
        w.setTask id (.publish { t with sending := t.sending.woken, wait := none })
      else w.park id (.publish t)
    | .accepted r => w.finish id (.published (.ok r))
    | .exhausted e => w.finish id (.published (.error e))

end PublishTask
end OutcomeRelay.Simulation
