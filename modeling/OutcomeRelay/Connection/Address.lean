/-!
Broker addresses as they may be logged: what stands between the scheme and the last at sign is
hidden.
-/

namespace OutcomeRelay.Address

def mark : List Char :=
  [':', '/', '/']

def cutScheme : List Char → Option (List Char × List Char)
  | [] => none
  | c :: cs =>
    if mark.isPrefixOf (c :: cs) then some ([], (c :: cs).drop mark.length)
    else (cutScheme cs).map fun p => (c :: p.1, p.2)

def fromLastAt : List Char → Option (List Char)
  | [] => none
  | c :: cs => (fromLastAt cs).or (if c = '@' then some (c :: cs) else none)

def redactChars (cs : List Char) : List Char :=
  match cutScheme cs with
  | none => cs
  | some (scheme, rest) =>
    match fromLastAt rest with
    | none => cs
    | some host => scheme ++ mark ++ ['*', '*', '*'] ++ host

def redact (url : String) : String :=
  String.ofList (redactChars url.toList)

end OutcomeRelay.Address
