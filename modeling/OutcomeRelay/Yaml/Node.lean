import OutcomeRelay.Yaml.Tokens

/-!
The nodes of a YAML text. A node that is left out is empty; an alias stands for the node that its
name was last given to, and for an empty one while that node is still being read.
-/

namespace OutcomeRelay.Yaml

inductive Node where
  | plain (text : String)
  | text (text : String)
  | typed (type text : String)
  | list (items : List Node)
  | map (members : List (Node × Node))
  deriving Inhabited, Repr

def Node.empty : Node :=
  .plain "~"

def scalarTypes : String :=
  "tag:yaml.org,2002:"

def Node.ofPlain (text : String) : Option Tag → Node
  | none => .plain text
  | some t => if t.handle = scalarTypes then .typed t.suffix text else .text text

structure Pending where
  tokens : List Token
  /-- What handles are short for. -/
  handles : List (String × String)
  /-- Names with the numbers of the nodes they were given to, the last one first. -/
  names : List (String × Nat)
  nodes : List (Nat × Node)

namespace Pending

def pass (p : Pending) : Pending :=
  { p with tokens := p.tokens.drop 1 }

def nextIs (ts : List Token) (p : Pending) : Bool :=
  p.tokens.head?.any ts.contains

/-- A tag in full. Only a handle with a name of its own has to be declared. -/
def resolve? (t : Tag) (p : Pending) : Option Tag :=
  if t.handle = "!!" then some ⟨(p.handles.lookup "!!").getD scalarTypes, t.suffix⟩
  else
    match p.handles.lookup t.handle with
    | some short => some ⟨short, t.suffix⟩
    | none => if isNamedHandle t.handle.toList then none else some t

def tag? (p : Pending) : Option (Option Tag × Pending) :=
  match p.tokens with
  | .tag t :: _ => (p.resolve? t).map fun t => (some t, p.pass)
  | _ => some (none, p)

def anchor (p : Pending) : Option Nat × Pending :=
  match p.tokens with
  | .anchor name :: _ =>
    let number := p.names.length
    (some number, { p.pass with names := (name, number) :: p.names })
  | _ => (none, p)

def properties? (p : Pending) : Option (Option Nat × Option Tag × Pending) :=
  match p.anchor with
  | (some number, p) => do
    let (tag, p) ← p.tag?
    return (some number, tag, p)
  | (none, p) => do
    let (tag, p) ← p.tag?
    let (number, p) := if tag.isSome then p.anchor else (none, p)
    return (number, tag, p)

def aliased? (name : String) (p : Pending) : Option Node :=
  (p.names.lookup name).map fun number => (p.nodes.lookup number).getD .empty

def keep (number : Option Nat) (n : Node) (p : Pending) : Pending :=
  match number with
  | some number => { p with nodes := (number, n) :: p.nodes }
  | none => p

end Pending

mutual

/-- A node. One that is not in brackets may be a block; as a key or its value it may be a list whose
dashes are not indented. -/
def node? : Nat → Bool → Bool → Pending → Option (Node × Pending)
  | 0, _, _, _ => none
  | fuel + 1, mayBlock, ofKey, p =>
    match p.tokens with
    | .alias name :: _ => (p.aliased? name).map fun n => (n, p.pass)
    | _ => do
      let (number, tag, p) ← p.properties?
      let (n, p) ←
        match p.tokens with
        | .plain text :: _ => some (Node.ofPlain text tag, p.pass)
        | .text text :: _ => some (.text text, p.pass)
        | .listOpen :: _ => (flowItems? fuel p.pass).map fun r => (.list r.1, r.2)
        | .mapOpen :: _ => (flowMembers? fuel p.pass).map fun r => (.map r.1, r.2)
        | t :: _ =>
          if ofKey && t == .item then (bareItems? fuel p).map fun r => (.list r.1, r.2)
          else if mayBlock && t == .listStart then
            (blockItems? fuel p.pass).map fun r => (.list r.1, r.2)
          else if mayBlock && t == .mapStart then
            (blockMembers? fuel p.pass).map fun r => (.map r.1, r.2)
          else if number.isSome || tag.isSome then some (Node.ofPlain "" tag, p)
          else none
        | [] => if number.isSome || tag.isSome then some (Node.ofPlain "" tag, p) else none
      return (n, p.keep number n)

def nodeBefore? : Nat → List Token → Bool → Bool → Pending → Option (Node × Pending)
  | 0, _, _, _, _ => none
  | fuel + 1, ends, mayBlock, ofKey, p =>
    if p.nextIs ends then some (.empty, p) else node? fuel mayBlock ofKey p

def valueBefore? : Nat → List Token → Bool → Pending → Option (Node × Pending)
  | 0, _, _, _ => none
  | fuel + 1, ends, inBlock, p =>
    if p.nextIs [.value] then nodeBefore? fuel ends inBlock inBlock p.pass else some (.empty, p)

def blockItems? : Nat → Pending → Option (List Node × Pending)
  | 0, _ => none
  | fuel + 1, p =>
    if p.nextIs [.blockEnd] then some ([], p.pass)
    else if p.nextIs [.item] then do
      let (n, p) ← nodeBefore? fuel [.item, .blockEnd] true false p.pass
      let (ns, p) ← blockItems? fuel p
      return (n :: ns, p)
    else none

def bareItems? : Nat → Pending → Option (List Node × Pending)
  | 0, _ => none
  | fuel + 1, p =>
    if p.nextIs [.item] then do
      let (n, p) ← nodeBefore? fuel [.item, .key, .value, .blockEnd] true false p.pass
      let (ns, p) ← bareItems? fuel p
      return (n :: ns, p)
    else some ([], p)

def blockMembers? : Nat → Pending → Option (List (Node × Node) × Pending)
  | 0, _ => none
  | fuel + 1, p =>
    let ends := [.key, .value, .blockEnd]
    if p.nextIs [.blockEnd] then some ([], p.pass)
    else if p.nextIs [.key, .value] then do
      let (k, p) ←
        if p.nextIs [.key] then nodeBefore? fuel ends true true p.pass else some (.empty, p)
      let (v, p) ← valueBefore? fuel ends true p
      let (ms, p) ← blockMembers? fuel p
      return ((k, v) :: ms, p)
    else none

def flowItems? : Nat → Pending → Option (List Node × Pending)
  | 0, _ => none
  | fuel + 1, p =>
    if p.nextIs [.listClose] then some ([], p.pass)
    else do
      let (n, p) ← if p.nextIs [.key] then flowPair? fuel p.pass else node? fuel false false p
      if p.nextIs [.listClose] then return ([n], p.pass)
      if !p.nextIs [.comma] then none
      let (ns, p) ← flowItems? fuel p.pass
      return (n :: ns, p)

/-- A member that stands in a list as a map of its own. A mark where the key should be is passed. -/
def flowPair? : Nat → Pending → Option (Node × Pending)
  | 0, _ => none
  | fuel + 1, p => do
    let (k, p) ←
      if p.nextIs [.value, .comma, .listClose] then some (.empty, p.pass)
      else node? fuel false false p
    let (v, p) ← valueBefore? fuel [.comma, .listClose] false p
    return (.map [(k, v)], p)

def flowMembers? : Nat → Pending → Option (List (Node × Node) × Pending)
  | 0, _ => none
  | fuel + 1, p =>
    let ends := [.comma, .mapClose]
    if p.nextIs [.mapClose] then some ([], p.pass)
    else do
      let (m, p) ←
        if p.nextIs [.key, .value] then do
          let (k, p) ←
            if p.nextIs [.key] then nodeBefore? fuel (.value :: ends) false false p.pass
            else some (.empty, p)
          let (v, p) ← valueBefore? fuel ends false p
          pure ((k, v), p)
        else (node? fuel false false p).map fun r => ((r.1, .empty), r.2)
      if p.nextIs [.mapClose] then return ([m], p.pass)
      if !p.nextIs [.comma] then none
      let (ms, p) ← flowMembers? fuel p.pass
      return (m :: ms, p)

end

inductive Document where
  | absent
  | single (root : Node)

/-- The directives before a document. The version is given once; a handle is short for what the last
directive of all says. -/
def directives? (versioned : Bool) (handles : List (String × String)) :
    List Token → Option (List (String × String) × List Token)
  | .directive .version :: ts => if versioned then none else directives? true [] ts
  | .directive (.handle name short) :: ts => directives? versioned [(name, short)] ts
  | ts => some (handles, ts)

def endsDocument : List Token → Bool
  | [] | .documentStart :: _ | .documentEnd :: _ | .directive _ :: _ => true
  | _ => false

def root? (ts : List Token) : Option (Node × List Token) := do
  let fuel := 4 * ts.length + 4
  let (handles, rest) ← directives? false [] ts
  match rest with
  | .documentStart :: rest =>
    if endsDocument rest then return (.empty, rest)
    let (n, p) ← node? fuel true false ⟨rest, handles, [], []⟩
    return (n, p.tokens)
  | rest =>
    if rest.length < ts.length then none
    let (n, p) ← node? fuel true false ⟨rest, [], [], []⟩
    return (n, p.tokens)

def document? (text : String) : Option Document := do
  let ts := (← tokens? text).dropWhile (· == .documentEnd)
  if ts.isEmpty then return .absent
  let (root, rest) ← root? ts
  if (rest.dropWhile (· == .documentEnd)).isEmpty then return .single root else none

end OutcomeRelay.Yaml
