import OutcomeRelay.Config.Basic
import OutcomeRelay.Config.Layers
import OutcomeRelay.Text.Quoted
import OutcomeRelay.Text.Utf8

/-!
Loading the configuration. Layers, each over the ones before it: the default file if it exists, the
file that is asked for, the file that the environment names, and the variables of the environment.
-/

namespace OutcomeRelay.LoadError

def message : LoadError → String
  | .noSuchFile name => s!"configuration file {Text.quoted name} not found"
  | .malformed name => s!"malformed configuration file {Text.quoted name}"
  | .noSuchItem key => s!"no such item in configuration: {Text.quoted key}"
  | .mismatch expected => s!"invalid type: expected {expected}"

end OutcomeRelay.LoadError

namespace OutcomeRelay.Config

structure Sources where
  file? : String → Option Bytes
  environment : List (String × String)

def defaultFile : String :=
  "config.yaml"

def fileVariable : String :=
  "PAYMENT_RELAY_CONFIG"

def variableMark : List Char :=
  "payment_relay__".toList

def trimmed : List Char → List Char
  | [] => []
  | c :: cs =>
    match trimmed cs with
    | [] => if c = '/' then [] else [c]
    | ['.'] => if c = '/' then [] else [c, '.']
    | rest => c :: rest

def candidates (name : String) : List String :=
  let stem := String.ofList (trimmed name.toList)
  let last := ((stem.splitOn "/").getLast?).getD ""
  name :: if last ∈ ["", ".", ".."] then [] else [stem ++ ".yaml", stem ++ ".yml"]

def Sources.content? (s : Sources) (name : String) : Option String :=
  ((candidates name).findSome? s.file?).bind Text.decode?

def tableOf? (text : String) : Option (List (String × Setting)) :=
  match Yaml.document? text with
  | none => none
  | some .absent => some []
  | some (.single root) =>
    match Setting.ofNode root with
    | some (.table ms) => some ms
    | _ => none

def Sources.layer (s : Sources) (name : String) : Except LoadError (List (String × Setting)) :=
  match s.content? name with
  | none => .error (.noSuchFile name)
  | some text =>
    match tableOf? text with
    | some ms => .ok ms
    | none => .error (.malformed name)

def Sources.defaultLayer (s : Sources) : Except LoadError (List (String × Setting)) :=
  if (s.content? defaultFile).isNone then .ok [] else s.layer defaultFile

def dotted : List Char → List Char
  | '_' :: '_' :: cs => '.' :: dotted cs
  | c :: cs => c :: dotted cs
  | [] => []

def marked? (v : String × String) : Option (String × Setting) :=
  let name := (Setting.lower v.1).toList
  if variableMark.isPrefixOf name then
    some (String.ofList (dotted (name.drop variableMark.length)), Setting.ofVariable v.2)
  else none

def under (name : String) (paths : List (List String)) : List (List String) :=
  paths.map (name :: ·)

def leaves {α : Type} (fields : List (Settings.Field Setting LoadError α)) : List (List String) :=
  fields.map fun f => [f.1]

def queuePaths : List (List String) :=
  [["concurrency"], ["prefetch"]] ++ under "retry" (leaves (RetryConfig.fields Setting.reader))

def paths : List (List String) :=
  under "messaging" (["type"] :: under "amqp" (leaves (AmqpSettings.fields Setting.reader)))
    ++ under "topology" (leaves (TopologyNames.fields Setting.reader))
    ++ under "publisher" (leaves (PublisherConfig.fields Setting.reader))
    ++ under "consumers" (["shutdown_grace_secs"] :: under "success" queuePaths
      ++ under "failed" queuePaths)

def variableNames : List String :=
  fileVariable :: paths.map fun path =>
    "PAYMENT_RELAY__" ++ ("__".intercalate path).map Char.toUpper

def Sources.names (s : Sources) (path : Option String) : List String :=
  path.toList ++ (s.environment.lookup fileVariable).toList

def Sources.settings (s : Sources) (path : Option String) : Except LoadError Setting := do
  let first ← s.defaultLayer
  let files ← (s.names path).mapM s.layer
  let layers := first :: files ++ [s.environment.filterMap marked?]
  layers.foldlM Setting.overlay (.table [])

def load (s : Sources) (path : Option String) : Except LoadError Config := do
  let settings ← s.settings path
  read Setting.reader settings

end OutcomeRelay.Config
