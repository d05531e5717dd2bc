import Applicability.Yaml.Scalar

namespace Applicability.Yaml

namespace Reader

def isKeyHere (line : Nat) (after : Cursor) (inFlow : Bool) : Bool :=
  after.line == line && (if inFlow then after.rest.head? == some ':' else after.isAtColon)

mutual

def flow : Nat → Cursor → Except Fault (Node × Cursor)
  | 0, _ => .error .unexpectedEnd
  | bound + 1, c =>
    match c.rest with
    | [] => .error .unexpectedEnd
    | '[' :: _ => do
      let (items, after) ← flowItems bound (c.forward 1).skipInFlow
      return (.sequence items, after)
    | '\x7b' :: _ => do
      let (entries, after) ← flowEntries bound (c.forward 1).skipInFlow
      return (.mapping entries, after)
    | _ => do
      if c.isAtEnd then throw .unexpectedCharacter
      let s ← Scalar.scan true 0 c
      return (s.node, s.after)

def flowValue : Nat → Cursor → Except Fault (Node × Cursor)
  | 0, _ => .error .unexpectedEnd
  | bound + 1, c =>
    let d := (c.forward 1).skipInFlow
    match d.rest with
    | ',' :: _ | ']' :: _ | '\x7d' :: _ => .ok (.nothing, d)
    | _ => flow bound d

def flowItems : Nat → Cursor → Except Fault (List Node × Cursor)
  | 0, _ => .error .unexpectedEnd
  | bound + 1, c =>
    match c.rest with
    | ']' :: _ => .ok ([], c.forward 1)
    | _ => do
      let (node, after) ← flow bound c
      let d := after.skipInFlow
      let (item, after) ←
        if isKeyHere c.line d true then do
          let (value, after) ← flowValue bound d
          pure (Node.mapping [(node, value)], after)
        else pure (node, d)
      let d := after.skipInFlow
      match d.rest with
      | ',' :: _ =>
        let (items, after) ← flowItems bound (d.forward 1).skipInFlow
        return (item :: items, after)
      | ']' :: _ => return ([item], d.forward 1)
      | _ => throw .expectedCommaOrEnd

def flowEntries : Nat → Cursor → Except Fault (List (Node × Node) × Cursor)
  | 0, _ => .error .unexpectedEnd
  | bound + 1, c =>
    match c.rest with
    | '\x7d' :: _ => .ok ([], c.forward 1)
    | _ => do
      let (key, after) ← flow bound c
      let d := after.skipInFlow
      let (value, after) ← if isKeyHere c.line d true then flowValue bound d else pure (.nothing, d)
      let d := after.skipInFlow
      match d.rest with
      | ',' :: _ =>
        let (entries, after) ← flowEntries bound (d.forward 1).skipInFlow
        return ((key, value) :: entries, after)
      | '\x7d' :: _ => return ([(key, value)], d.forward 1)
      | _ => throw .expectedCommaOrEnd

end

def isFlow (c : Cursor) : Bool :=
  c.rest.head? == some '[' || c.rest.head? == some '\x7b'

def leaf (bound indent : Nat) (c : Cursor) : Except Fault (Node × Cursor) := do
  let (node, after) ←
    if isFlow c then flow bound c
    else do
      let s ← Scalar.scan false indent c
      pure (s.node, s.after)
  let d := after.skip true
  if d.line == after.line && d.isAtColon then throw .noKeyHere
  return (node, after)

def key? (column : Nat) (c : Cursor) : Option (Node × Cursor) :=
  match Scalar.scan false (column + 1) c with
  | .error _ => none
  | .ok s =>
    let d := s.after.skip true
    if s.lastLine == c.line && isKeyHere c.line d false then some (s.node, d) else none

def goesOn (column : Nat) (c : Cursor) : Except Fault Bool :=
  if c.isAtEnd || c.column < column then .ok false
  else if c.column == column then .ok true
  else .error .expectedKey

mutual

def block : Nat → Nat → Cursor → Except Fault (Node × Cursor)
  | 0, _, _ => .error .unexpectedEnd
  | bound + 1, indent, c =>
    if c.isAtDash then do
      let (items, after) ← blockItems bound c
      return (.sequence items, after)
    else if !isFlow c && (key? c.column c).isSome then do
      let (entries, after) ← blockEntries bound c
      return (.mapping entries, after)
    else leaf bound indent c

def blockItems : Nat → Cursor → Except Fault (List Node × Cursor)
  | 0, _ => .error .unexpectedEnd
  | bound + 1, c => do
    let d := (c.forward 1).skip false
    let (item, after) ←
      if d.isAtEnd || d.column ≤ c.column then pure (.nothing, d)
      else block bound (c.column + 1) d
    let next := after.skip true
    let more ← goesOn c.column next
    if more && next.isAtDash then
      let (items, after) ← blockItems bound next
      return (item :: items, after)
    else return ([item], next)

def blockEntries : Nat → Cursor → Except Fault (List (Node × Node) × Cursor)
  | 0, _ => .error .unexpectedEnd
  | bound + 1, c =>
    match key? c.column c with
    | none => .error .expectedColon
    | some (key, colon) => do
      let d := (colon.forward 1).skip true
      let (value, after) ←
        if d.isAtEnd then pure (.nothing, d)
        else if d.line == c.line then
          if d.isAtDash then throw .unexpectedCharacter else leaf bound (c.column + 1) d
        else if c.column < d.column then block bound (c.column + 1) d
        else if d.column == c.column && d.isAtDash then do
          let (items, after) ← blockItems bound d
          pure (.sequence items, after)
        else pure (.nothing, d)
      let next := after.skip true
      let more ← goesOn c.column next
      if more then
        let (entries, after) ← blockEntries bound next
        return ((key, value) :: entries, after)
      else return ([(key, value)], next)

end

def isAtStart (c : Cursor) : Bool :=
  c.column == 0 && c.rest.head? == some '-' && isMarker c.rest

def root (bound : Nat) (start : Cursor) : Except Fault (Node × Cursor) :=
  if isAtStart start then
    let c := (start.forward 3).skip true
    if c.isAtEnd then .ok (.nothing, c)
    else if c.line == start.line then
      if c.isAtDash then .error .unexpectedCharacter else leaf bound 0 c
    else block bound 0 c
  else if start.rest.isEmpty then .ok (.nothing, start)
  else if start.isAtEnd then .error .unexpectedCharacter
  else block bound 0 start

def isFollowed (after : Cursor) : Except Fault Bool :=
  let c := after.skip true
  if c.rest.isEmpty then .ok false
  else if isAtStart c then .ok true
  else if c.isAtEnd then
    let d := (c.forward 3).skip true
    if d.rest.isEmpty then .ok false
    else if isAtStart d then .ok true
    else .error .expectedDocument
  else .error .expectedDocument

end Reader

structure Document where
  root : Node
  isFollowed : Bool

def isPrintable (c : Char) : Bool :=
  let n := c.toNat
  c == '\t' || c == '\n' || (0x20 ≤ n && n ≤ 0x7E) || n == 0x85 ||
    (0xA0 ≤ n && n != 0xFEFF && n != 0xFFFE && n != 0xFFFF)

def normalLines : List Char → List Char
  | [] => []
  | '\r' :: '\n' :: rest => '\n' :: normalLines rest
  | '\r' :: rest => '\n' :: normalLines rest
  | c :: rest => c :: normalLines rest

def withoutMark : List Char → List Char
  | '\ufeff' :: rest => rest
  | s => s

def Document.ofText (text : String) : Except Fault Document := do
  let s := normalLines (withoutMark text.toList)
  if !s.all isPrintable then throw .controlCharacter
  let start := Cursor.skip false ⟨0, 0, s⟩
  let (root, after) ← Reader.root (3 * s.length + 3) start
  return ⟨root, ← Reader.isFollowed after⟩

end Applicability.Yaml
