/-!
Failures of talking to a broker, by the operation that failed.
-/

namespace OutcomeRelay

inductive BusError where
  | connection (reason : String)
  | channel (reason : String)
  | publish (reason : String)
  | subscribe (reason : String)
  | topology (reason : String)
  | ack (reason : String)
  deriving DecidableEq, Repr

def BusError.message : BusError → String
  | .connection r => s!"Connection failed: {r}"
  | .channel r => s!"Channel error: {r}"
  | .publish r => s!"Publish failed: {r}"
  | .subscribe r => s!"Subscribe failed: {r}"
  | .topology r => s!"Topology declaration failed: {r}"
  | .ack r => s!"Acknowledgement failed: {r}"

end OutcomeRelay
