import OutcomeRelay.Amqp.Client

/-!
A scripted AMQP broker at the other end of a client's connection. It accepts every method, except
that it may be told to refuse one: then it closes the channel instead of answering. It keeps a trace
of the methods that reach it; a call on a channel that is closed does not.
-/

namespace OutcomeRelay.Simulation

open Amqp

/-- Which method to refuse: the next one of a name, or the next one that is about messages. -/
structure Refusal where
  method : Option String := none
  deriving DecidableEq, Repr

def Refusal.hits (r : Refusal) (m : Method) : Bool :=
  match r.method with
  | some name => m.name == name
  | none => !m.isFraming

structure Peer where
  connected : Bool := false
  channels : List Nat := []
  refusal : Option Refusal := none
  trace : List Method := []
  deriving Repr

namespace Peer

def receive (p : Peer) (m : Method) : Peer :=
  { p with trace := p.trace ++ [m] }

def drop (p : Peer) (channel : Nat) : Peer :=
  { p with channels := p.channels.filter (· != channel) }

def refuses (p : Peer) (m : Method) : Bool :=
  p.refusal.any fun r => r.hits m

def accept (p : Peer) (channel : Nat) : Method → Peer
  | .channelOpen => { p with channels := p.channels ++ [channel] }
  | .channelClose => p.drop channel
  | _ => p

/-- Take a method on a channel. A refused one fails at once if the client waits for its answer. -/
def call (p : Peer) (channel : Nat) (m : Method) : Peer × Bool :=
  let p := p.receive m
  if p.refuses m then ({ p.drop channel with refusal := none }, !m.isAnswered)
  else (p.accept channel m, true)

def answer (p : Peer) : Request → Peer × Bool
  | .connection =>
    if p.connected then (p, true)
    else ({ p.receive .connectionOpen with connected := true }, true)
  | .isOpen channel => (p, p.channels.contains channel)
  | .call channel .channelOpen => p.call channel .channelOpen
  | .call channel m => if p.channels.contains channel then p.call channel m else (p, false)

def disconnect (p : Peer) : Peer :=
  { p with connected := false, channels := [] }

end Peer
end OutcomeRelay.Simulation
