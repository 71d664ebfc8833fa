import OutcomeRelay.Publisher.Signal

/-!
The monitor of a publisher: it counts and logs every signal, in whatever order the two kinds come,
and ends with its summary once it found both channels closed.
-/

namespace OutcomeRelay.Publisher

structure MonitorSummary where
  acked : Nat := 0
  nacked : Nat := 0
  timedOut : Nat := 0
  returned : Nat := 0
  deriving DecidableEq, Repr

namespace MonitorSummary

def addConfirm (s : MonitorSummary) (c : ConfirmSignal) : MonitorSummary :=
  match c.outcome with
  | .ack => { s with acked := s.acked + 1 }
  | .nack _ => { s with nacked := s.nacked + 1 }
  | .timedOut => { s with timedOut := s.timedOut + 1 }

def addReturn (s : MonitorSummary) (_ : ReturnSignal) : MonitorSummary :=
  { s with returned := s.returned + 1 }

def add (s : MonitorSummary) : Signal → MonitorSummary
  | .confirmed c => s.addConfirm c
  | .returned r => s.addReturn r

def log (s : MonitorSummary) : Log.Entry :=
  Log.info .monitor "Publisher signal monitor stopped"
    [("acked", Log.nat s.acked), ("nacked", Log.nat s.nacked),
      ("timed_out", Log.nat s.timedOut), ("returned", Log.nat s.returned)]

end MonitorSummary

def confirmLog (c : ConfirmSignal) : Log.Entry :=
  let about : List (String × Log.Field) :=
    [("message_id", .shown c.messageId), ("exchange", .shown c.target.exchange),
      ("routing_key", .shown c.target.routingKey)]
  let payload : String × Log.Field := ("payload", .shown (Text.decodeLossy c.body))
  match c.outcome with
  | .ack => Log.info .monitor "Broker confirmed message" about
  | .nack cause =>
    Log.error .monitor "Broker rejected message (nack)"
      (about ++ [("cause", .text (cause.getD "unspecified")), payload])
  | .timedOut => Log.warn .monitor "No broker confirm before timeout" (about ++ [payload])

def returnLog (r : ReturnSignal) : Log.Entry :=
  let fields : List (String × Log.Field) :=
    [("message_id", .shown r.messageId), ("reply_code", Log.nat r.code),
      ("reason", .shown r.reason.text), ("reply_text", .shown r.text),
      ("exchange", .shown r.exchange), ("routing_key", .shown r.routingKey),
      ("payload", .shown (Text.decodeLossy r.body))]
  if r.reason.isSoft then
    Log.warn .monitor "Message returned by broker, not routed to any queue" fields
  else Log.error .monitor "Message returned by broker" fields

def Signal.log : Signal → Log.Entry
  | .confirmed c => confirmLog c
  | .returned r => returnLog r

/-- The loop of a monitor. A channel that was found closed is not looked at again before the next
signal. -/
inductive Monitor where
  | listening (summary : MonitorSummary) (off : Option Signal.Channel)
  | stopped (summary : MonitorSummary)
  deriving DecidableEq, Repr

namespace Monitor

def start : Monitor :=
  .listening {} none

def looksAt (m : Monitor) (ch : Signal.Channel) : Bool :=
  match m with
  | .listening _ off => off != some ch
  | .stopped _ => false

def take (m : Monitor) (s : Signal) : Monitor :=
  match m with
  | .listening summary _ => .listening (summary.add s) none
  | .stopped _ => m

def findClosed (m : Monitor) (ch : Signal.Channel) : Monitor :=
  match m with
  | .listening summary none => .listening summary (some ch)
  | .listening summary (some other) => if other = ch then m else .stopped summary
  | .stopped _ => m

end Monitor

end OutcomeRelay.Publisher
