/-!
The arguments of the command line. Options may stand anywhere, the last configuration file counts,
and what is no option says what to do: to consume, which is what happens without a word, or to
publish the event of a file.
-/

namespace OutcomeRelay.CommandLine

inductive Action where
  | consume (simulateFailure : Bool)
  | publish (file : String)
  deriving DecidableEq, Repr

structure Invocation where
  configPath : Option String
  action : Action
  deriving DecidableEq, Repr

inductive ArgumentError where
  | noConfigPath
  | unknownOption (option : String)
  | noEventFile
  | unexpected (arguments : List String)
  deriving DecidableEq, Repr

def ArgumentError.message : ArgumentError → String
  | .noConfigPath => "--config requires a path"
  | .unknownOption o => s!"Unknown option '{o}'"
  | .noEventFile => "publish requires an event file"
  | .unexpected as => "Unexpected arguments: " ++ " ".intercalate as

structure Sorted where
  configPath : Option String := none
  simulateFailure : Bool := false
  words : List String := []
  deriving DecidableEq, Repr

namespace Sorted

def add (s : Sorted) : List String → Except ArgumentError Sorted
  | [] => .ok s
  | a :: rest =>
    if a = "--config" ∨ a = "-c" then
      match rest with
      | [] => .error .noConfigPath
      | path :: rest => add { s with configPath := some path } rest
    else if a = "--simulate-failure" then add { s with simulateFailure := true } rest
    else if a.toList.head? = some '-' then .error (.unknownOption a)
    else add { s with words := s.words ++ [a] } rest

def action? (s : Sorted) : Except ArgumentError Action :=
  match s.words with
  | [] | ["consume"] => .ok (.consume s.simulateFailure)
  | ["publish", file] => .ok (.publish file)
  | ["publish"] => .error .noEventFile
  | words => .error (.unexpected words)

end Sorted

def parse (arguments : List String) : Except ArgumentError Invocation := do
  let s ← Sorted.add {} arguments
  return { configPath := s.configPath, action := ← s.action? }

end OutcomeRelay.CommandLine
