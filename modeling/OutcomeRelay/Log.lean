/-!
Log entries: a level, the part of the service that writes it, a message and named fields. A field is
a text of its own, or something shown as text; the two differ only where fields are printed on a
line.
-/

namespace OutcomeRelay.Log

inductive Level where
  | debug
  | info
  | warn
  | error
  deriving DecidableEq, Repr

def Level.name : Level → String
  | .debug => "DEBUG"
  | .info => "INFO"
  | .warn => "WARN"
  | .error => "ERROR"

inductive Field where
  | text (s : String)
  | shown (s : String)
  | number (n : Int)
  | flag (b : Bool)
  deriving DecidableEq, Repr

inductive Part where
  | program
  | broker
  | memoryBroker
  | remoteBroker
  | connection
  | topology
  | publisher
  | monitor
  | dispatcher
  | delivery
  | recovery
  | handler
  deriving DecidableEq, Repr

structure Entry where
  level : Level
  part : Part
  message : String
  fields : List (String × Field)
  deriving DecidableEq, Repr

def debug (part : Part) (message : String) (fields : List (String × Field)) : Entry :=
  ⟨.debug, part, message, fields⟩

def info (part : Part) (message : String) (fields : List (String × Field)) : Entry :=
  ⟨.info, part, message, fields⟩

def warn (part : Part) (message : String) (fields : List (String × Field)) : Entry :=
  ⟨.warn, part, message, fields⟩

def error (part : Part) (message : String) (fields : List (String × Field)) : Entry :=
  ⟨.error, part, message, fields⟩

def nat (n : Nat) : Field :=
  .number n

def optional (name : String) : Option String → List (String × Field)
  | some s => [(name, .text s)]
  | none => []

end OutcomeRelay.Log
