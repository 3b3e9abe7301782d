import Courier.Yaml.Tag

namespace Courier.Yaml

inductive Collection where
  | mapping (entries : List (String × Scalar))
  | sequence (items : List Scalar)

def holdsNode (r : Reading) : Bool :=
  if r.flow then !(r.rest.isEmpty || r.next?.any ",]\x7d".toList.contains)
  else !r.rest.isEmpty && r.indent < r.column

/-- Texts in blocks may stand as far left as the keys. -/
def holdsBlock (r : Reading) : Bool :=
  !r.flow && (r.starts '|' || r.starts '>') && r.indent ≤ r.column

def properties (holds : Reading → Bool) : Nat → Properties → Reader Properties
  | 0, p => return p
  | n + 1, p => do
      skip
      let r ← get
      if holds r && (r.starts '&' || r.starts '!') then properties holds n (← p.extend)
      else return p

def define (p : Properties) (part : Option Scalar) : Reader Unit :=
  match p.anchor with
  | some name => modify fun r => { r with anchors := r.anchors.define name part }
  | none => return ()

def scalar (p : Properties) (style : Style) (text : List Char) : Reader Node := do
  let s : Scalar := ⟨style, p.tag, String.ofList text⟩
  define p s
  return .scalar s

def aliased : Reader Node := do
  let name ← anchorName
  return .reference (← (← get).anchors.number? name)

def inlineNode (p : Properties) : Reader Node := do
  if (← get).starts '*' then
    guard (p.anchor.isNone && p.tag.isNone)
    aliased
  else
    let (style, text) ← inlineText
    scalar p style text

def node : Reader Node := do
  let p ← properties holdsNode 3 {}
  let r ← get
  if holdsBlock r then
    let (style, text) ← block
    scalar p style text
  else if holdsNode r then inlineNode p
  else scalar p .plain []

abbrev Entries := List (Node × Node)

def blank : Node := .scalar ⟨.plain, none, ""⟩

def longEntry : Reader (Node × Node) := do
  let open_ := fun (r : Reading) => { r.step with fresh := !r.flow }
  modify open_
  let key ← node
  skip
  let r ← get
  if r.atColon && (r.flow || r.column = r.indent) then
    set (open_ r)
    return (key, ← node)
  else return (key, blank)

/-- A key with its colon on one line, at most 1024 characters on. Between braces a key may also
stand without a value. -/
def shortEntry : Reader (Node × Node) := do
  let start ← get
  let key ← inlineNode (← properties (·.line = start.line) 3 {})
  skip
  let r ← get
  if r.atColon && r.line = start.line && r.index ≤ start.index + 1024 then
    set { r.step with fresh := false }
    return (key, ← node)
  else
    guard r.flow
    return (key, blank)

def entry : Reader (Node × Node) := do
  if (← get).atQuestion then longEntry else shortEntry

def blockEntries : Nat → Reader Entries
  | 0 => failure
  | n + 1 => do
      let e ← entry
      skip
      let r ← get
      if r.atEnd then return [e]
      guard (r.column = r.indent)
      return e :: (← blockEntries n)

def flowEntries : Nat → Reader Entries
  | 0 => failure
  | n + 1 => do
      skip
      if (← get).starts '\x7d' then return []
      let e ← entry
      skip
      if (← get).starts ',' then
        pass
        return e :: (← flowEntries n)
      else return [e]

def blockItems : Nat → Reader (List Node)
  | 0 => failure
  | n + 1 => do
      let r ← get
      guard (r.atDash && r.column = r.indent)
      set { r.step with fresh := true }
      let item ← node
      skip
      if (← get).atEnd then return [item]
      return item :: (← blockItems n)

def flowItems : Nat → Reader (List Node)
  | 0 => failure
  | n + 1 => do
      skip
      let r ← get
      if r.starts ']' then return []
      guard (holdsNode r)
      let item ← node
      skip
      if (← get).starts ',' then
        pass
        return item :: (← flowItems n)
      else return [item]

def inBlock {α : Type} (nodes : Nat → Reader α) : Reader α := do
  let r ← get
  guard (r.fresh && !r.atEnd)
  set { r with indent := r.column }
  nodes (r.rest.length + 1)

def between {α : Type} (left right : Char) (nodes : Nat → Reader α) : Reader α := do
  let r ← get
  guard (r.starts left)
  set { r.step with flow := true }
  let l ← nodes r.rest.length
  let r ← get
  guard (r.starts right)
  set { r.step with flow := false, fresh := false }
  return l

inductive Nodes where
  | mapping (entries : Entries)
  | sequence (items : List Node)

def nodes : Reader Nodes :=
  .mapping <$> inBlock blockEntries <|> .mapping <$> between '\x7b' '\x7d' flowEntries <|>
    .sequence <$> inBlock blockItems <|> .sequence <$> between '[' ']' flowItems

def Nodes.resolve? (anchors : Anchors) : Nodes → Option Collection
  | .mapping entries => do
      return .mapping (← entries.mapM fun (key, value) => do
        return ((← anchors.resolve? key).text, ← anchors.resolve? value))
  | .sequence items => do return .sequence (← items.mapM anchors.resolve?)

/-- What stands at the root, after properties of its own. Nothing at all is the empty mapping. -/
def root : Nat → Properties → Reader Nodes
  | 0, _ => failure
  | n + 1, p => do
      skip
      (do define p none; nodes) <|> (do root n (← p.extend)) <|>
        (do guard (← get).atEnd; return .mapping [])

def finish : Nat → Reader Unit
  | 0 => failure
  | n + 1 => do
      skip
      let r ← get
      if r.rest.isEmpty then return ()
      guard (r.atMarker '.')
      set { r.steps 3 with fresh := false }
      finish n

def document : Reader Nodes := do
  let fuel := (← get).rest.length + 1
  let opened ← directives fuel false false
  guard (opened || !(← get).atMarker '.')
  let nodes ← root 3 {}
  finish fuel
  return nodes

/-- Reads a whole text: one flat collection of scalars. Whatever is nested is refused, and so is a
second document. -/
def read (l : List Char) : Option Collection := do
  guard (l.all isAllowed)
  let (nodes, r) ← document.run { rest := l }
  nodes.resolve? r.anchors

end Courier.Yaml
