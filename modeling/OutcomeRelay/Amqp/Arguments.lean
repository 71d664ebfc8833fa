import OutcomeRelay.Amqp.Method

/-!
The arguments of methods, by name. Everything that a client leaves to the broker is off or empty.
-/

namespace OutcomeRelay.Amqp

def off (names : List String) : FieldTable :=
  names.map fun n => (n, .flag false)

namespace Method

def noArguments : String × FieldValue :=
  ("arguments", .table [])

def arguments : Method → FieldTable
  | connectionOpen | channelOpen | confirmSelect => []
  | channelClose => [("code", .uint16 (UInt16.ofNat closing.1)), ("text", .text closing.2)]
  | exchangeDeclare e =>
    [("exchange", .text e.name), ("type", .text e.kind.name), ("durable", .flag e.durable),
      noArguments] ++ off ["passive", "auto_delete", "internal", "nowait"]
  | queueDeclare q =>
    [("queue", .text q.name), ("durable", .flag q.durable),
      ("arguments", .table (queueArguments q))]
      ++ off ["passive", "exclusive", "auto_delete", "nowait"]
  | queueBind b =>
    [("queue", .text b.queue), ("exchange", .text b.exchange), ("routing_key", .text b.routingKey),
      noArguments] ++ off ["nowait"]
  | basicQos n => [("prefetch_count", .uint16 (UInt16.ofNat n))] ++ off ["global"]
  | basicConsume queue tag =>
    [("queue", .text queue), ("consumer_tag", .text tag), noArguments]
      ++ off ["no_local", "no_ack", "exclusive", "nowait"]
  | basicCancel tag => [("consumer_tag", .text tag)] ++ off ["nowait"]
  | basicAck tag => [("delivery_tag", .int64 (Int64.ofNat tag))] ++ off ["multiple"]
  | basicReject tag requeue =>
    [("delivery_tag", .int64 (Int64.ofNat tag)), ("requeue", .flag requeue)]
  | basicPublish o =>
    [("exchange", .text o.exchange), ("routing_key", .text o.routingKey),
      ("mandatory", .flag o.mandatory), ("content_type", .text o.contentType),
      ("message_id", .text o.messageId), ("delivery_mode", .uint8 (UInt8.ofNat persistent))]
      ++ off ["immediate"]

end Method
end OutcomeRelay.Amqp
