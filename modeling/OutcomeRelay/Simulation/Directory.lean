import OutcomeRelay.Text.Utf8

/-!
A directory of files that a scenario starts from. A path is followed name by name from the directory
itself; nothing outside of it is found.
-/

namespace OutcomeRelay.Simulation

structure Directory where
  files : List (List String × Bytes)

namespace Directory

def staysHere (name : String) : Bool :=
  name == "" || name == "."

def ofTexts (texts : List (String × String)) : Directory :=
  ⟨texts.map fun t => ((t.1.splitOn "/").filter (!staysHere ·), Text.encode t.2)⟩

def isDirectory (d : Directory) (way : List String) : Bool :=
  way.isEmpty || d.files.any fun f => f.1 != way && way.isPrefixOf f.1

def follow? (d : Directory) : List String → List String → Option (List String)
  | way, [] => some way
  | way, name :: names =>
    if !d.isDirectory way then none
    else if staysHere name then follow? d way names
    else if name == ".." then if way.isEmpty then none else follow? d way.dropLast names
    else follow? d (way ++ [name]) names

def file? (d : Directory) (path : String) : Option Bytes := do
  if "/".isPrefixOf path then none
  d.files.lookup (← d.follow? [] (path.splitOn "/"))

end Directory
end OutcomeRelay.Simulation
