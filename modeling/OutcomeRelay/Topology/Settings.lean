import OutcomeRelay.Settings.Reader
import OutcomeRelay.Topology.Names

/-!
The names of a topology as settings.
-/

namespace OutcomeRelay.TopologyNames

open Settings

variable {σ ε : Type}

def fields (r : Reader σ ε) : List (Field σ ε TopologyNames) :=
  let text name store := Reader.field name r.text? store
  [text "exchange" fun v n => { n with exchange := v },
    text "success_queue" fun v n => { n with successQueue := v },
    text "success_routing_key" fun v n => { n with successRoutingKey := v },
    text "failed_queue" fun v n => { n with failedQueue := v },
    text "failed_routing_key" fun v n => { n with failedRoutingKey := v },
    text "dlx_exchange" fun v n => { n with dlxExchange := v },
    text "success_dlq" fun v n => { n with successDlq := v },
    text "success_dlq_routing_key" fun v n => { n with successDlqRoutingKey := v },
    text "failed_dlq" fun v n => { n with failedDlq := v },
    text "failed_dlq_routing_key" fun v n => { n with failedDlqRoutingKey := v }]

def read (r : Reader σ ε) (s : σ) : Except ε TopologyNames :=
  r.record? "TopologyConfig" (fields r) {} s

end OutcomeRelay.TopologyNames
