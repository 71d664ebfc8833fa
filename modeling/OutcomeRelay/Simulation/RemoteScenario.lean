import OutcomeRelay.Simulation.RemoteSession
import OutcomeRelay.Simulation.Scenario

/-!
Scenarios of sessions with an AMQP broker, in JSON. A field value of a message's headers is a list
of its type and its value.
-/

namespace OutcomeRelay.Simulation

open Json Amqp

namespace RemoteScenario

def int : Value → Int
  | .number (.natural n) => n
  | .number (.negative n) => -(n : Int)
  | _ => 0

def leaf (type : String) (v : Value) : FieldValue :=
  match type with
  | "i8" => .int8 (Int8.ofInt (int v))
  | "u8" => .uint8 (UInt8.ofNat (int v).toNat)
  | "i16" => .int16 (Int16.ofInt (int v))
  | "u16" => .uint16 (UInt16.ofNat (int v).toNat)
  | "i32" => .int32 (Int32.ofInt (int v))
  | "u32" => .uint32 (UInt32.ofNat (int v).toNat)
  | "i64" => .int64 (Int64.ofInt (int v))
  | "bool" => .flag (v == .bool true)
  | "string" => .text (v.string?.getD "")
  | "timestamp" => .timestamp (UInt64.ofNat (int v).toNat)
  | "double" => .real
  | _ => .void

mutual

def fieldValue : Value → FieldValue
  | .array [.string "array", .array vs] => .array (fieldValues vs)
  | .array [.string "table", .object ms] => .table (fieldTable ms)
  | .array [.string type, v] => leaf type v
  | _ => .void

def fieldValues : List Value → List FieldValue
  | [] => []
  | v :: vs => fieldValue v :: fieldValues vs

def fieldTable : List (String × Value) → FieldTable
  | [] => []
  | (name, v) :: ms => (name, fieldValue v) :: fieldTable ms

end

def headers? (v : Value) : Option FieldTable :=
  match v.given? "headers" with
  | some (.object ms) => some (fieldTable ms)
  | _ => none

def incoming (v : Value) : Incoming where
  exchange := v.textAt "exchange"
  routingKey := v.textAt "routing_key"
  tag := 0
  body := v.bodyOf
  messageId := v.textAt? "message_id"
  redelivered := v.flagAt "redelivered" false
  headers := headers? v

def returned (o : Outbound) (v : Value) : Returned where
  code := v.natAt "code" 0
  text := v.textAt "text"
  exchange := o.exchange
  routingKey := o.routingKey
  messageId := if v.flagAt "drop_id" false then none else some o.messageId
  body := o.body

def publishReply (o : Outbound) (v : Value) : PublishReply :=
  match v.textAt "do" with
  | "nack" => .confirm (.nack none)
  | "return" => .confirm (.ack (some (returned o v)))
  | "return_nack" => .confirm (.nack (some (returned o v)))
  | "refuse" => .closeChannel
  | _ => .confirm (.ack none)

def refusal? (v : Value) : Option Refusal :=
  match v.given? "refuse" with
  | some (.array (_ :: _ :: .string name :: _)) => some ⟨some name⟩
  | some (.array _) => some {}
  | _ => none

end RemoteScenario

def RemoteCommand.ofValue? (v : Value) : Except ScenarioError RemoteCommand :=
  let name := v.textAt "as"
  let consumer := v.textAt "consumer"
  let delivery := v.textAt "delivery"
  match v.textAt "do" with
  | "pool_size" => .ok .poolSize
  | "declare" => ((Topology.ofMember v).map .declare).mapError .value
  | "declare_exchange" => .ok (.declareExchange (.ofValue v))
  | "declare_queue" => .ok (.declareQueue (.ofValue v))
  | "bind" => .ok (.bind (.ofValue v))
  | "send" =>
    let o := Scenario.outbound v
    .ok (.send o (RemoteScenario.publishReply o (v.member "reply")))
  | "consume" =>
    .ok (.consume (v.textAt "queue") ((v.textAt? "tag").getD "test") (v.natAt "prefetch" 1) name)
  | "deliver" => .ok (.deliver (RemoteScenario.incoming v))
  | "recv" => .ok (.recv consumer name)
  | "ack" => .ok (.ack delivery)
  | "reject" => .ok (.reject delivery (v.flagAt "requeue" false))
  | "cancel" => .ok (.cancel consumer)
  | "close" => .ok (.close consumer)
  | "server_close" => .ok .serverClose
  | "close_broker" => .ok .closeBroker
  | _ => .error .unknownCommand

end OutcomeRelay.Simulation
