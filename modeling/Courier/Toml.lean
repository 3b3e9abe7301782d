import Courier.Document
import Courier.Text.Code

namespace Courier.Toml

def isSpace (c : Char) : Bool := c = ' ' || c = '\t'

def isPlain (c : Char) : Bool := c = '\t' || (0x20 ≤ c.toNat && c.toNat ≠ 0x7F)

def isBareKey (c : Char) : Bool :=
  ('a' ≤ c && c ≤ 'z') || ('A' ≤ c && c ≤ 'Z') || ('0' ≤ c && c ≤ '9') || c = '_' || c = '-'

def skipSpace (l : List Char) : List Char := l.dropWhile isSpace

def newline? : List Char → Option (List Char)
  | '\n' :: rest => some rest
  | '\r' :: '\n' :: rest => some rest
  | _ => none

def skipComment : List Char → List Char
  | '#' :: rest => rest.dropWhile isPlain
  | l => l

def endLine (l : List Char) : Option (List Char) :=
  match skipComment (skipSpace l) with
  | [] => some []
  | l => newline? l

def skipLines : Nat → List Char → List Char
  | 0, l => l
  | n + 1, l =>
      let l := skipComment (skipSpace l)
      match newline? l with
      | some rest => skipLines n rest
      | none => l

def escaped : List Char → Option (Char × List Char)
  | 'b' :: rest => some ('\x08', rest)
  | 't' :: rest => some ('\t', rest)
  | 'n' :: rest => some ('\n', rest)
  | 'f' :: rest => some ('\x0c', rest)
  | 'r' :: rest => some ('\r', rest)
  | 'e' :: rest => some ('\x1b', rest)
  | '"' :: rest => some ('"', rest)
  | '\\' :: rest => some ('\\', rest)
  | 'x' :: rest => Text.coded 2 rest
  | 'u' :: rest => Text.coded 4 rest
  | 'U' :: rest => Text.coded 8 rest
  | _ => none

def basicText : Nat → List Char → Option (List Char × List Char)
  | 0, _ => none
  | _ + 1, '"' :: rest => some ([], rest)
  | n + 1, '\\' :: rest => do
      let (c, rest) ← escaped rest
      let (text, rest) ← basicText n rest
      return (c :: text, rest)
  | n + 1, c :: rest => do
      guard (isPlain c)
      let (text, rest) ← basicText n rest
      return (c :: text, rest)
  | _ + 1, [] => none

def literalText : List Char → Option (List Char × List Char)
  | [] => none
  | '\'' :: rest => some ([], rest)
  | c :: rest => do
      guard (isPlain c)
      let (text, rest) ← literalText rest
      return (c :: text, rest)

def skipFirstLineEnd (l : List Char) : List Char := (newline? l).getD l

/-- A run of quotes inside a text of several lines: three or more of them close it, and all but
the last three belong to it. -/
def closing (quote : Char) (l : List Char) : Option (List Char × List Char) :=
  let quotes := l.takeWhile (· == quote)
  if quotes.length < 3 then none
  else
    let extra := min (quotes.length - 3) 2
    some (quotes.take extra, l.drop (extra + 3))

def joinedLine? (l : List Char) : Option (List Char) :=
  (newline? (skipSpace l)).map fun rest => skipSpace (skipAll rest.length rest)
where
  skipAll : Nat → List Char → List Char
    | 0, l => l
    | n + 1, l =>
        match newline? (skipSpace l) with
        | some rest => skipAll n rest
        | none => l

def longText (quote : Char) : Nat → List Char → Option (List Char × List Char)
  | 0, _ => none
  | _ + 1, [] => none
  | n + 1, c :: rest =>
      match closing quote (c :: rest) with
      | some closed => some closed
      | none =>
          if c = '\\' ∧ quote = '"' then
            match joinedLine? rest with
            | some rest => longText quote n rest
            | none => do
                let (c, rest) ← escaped rest
                let (text, rest) ← longText quote n rest
                return (c :: text, rest)
          else
            match newline? (c :: rest) with
            | some rest => do
                let (text, rest) ← longText quote n rest
                return ('\n' :: text, rest)
            | none => do
                guard (isPlain c)
                let (text, rest) ← longText quote n rest
                return (c :: text, rest)

def text? : List Char → Option (Option (List Char × List Char))
  | '"' :: '"' :: '"' :: rest =>
      some (longText '"' (rest.length + 1) (skipFirstLineEnd rest))
  | '\'' :: '\'' :: '\'' :: rest =>
      some (longText '\'' (rest.length + 1) (skipFirstLineEnd rest))
  | '"' :: rest => some (basicText (rest.length + 1) rest)
  | '\'' :: rest => some (literalText rest)
  | _ => none

def keyPart : List Char → Option (String × List Char)
  | '"' :: rest => (basicText (rest.length + 1) rest).map fun (t, rest) => (String.ofList t, rest)
  | '\'' :: rest => (literalText rest).map fun (t, rest) => (String.ofList t, rest)
  | l =>
      match l.takeWhile isBareKey with
      | [] => none
      | name => some (String.ofList name, l.drop name.length)

def key : Nat → List Char → Option (List String × List Char)
  | 0, _ => none
  | n + 1, l => do
      let (part, rest) ← keyPart (skipSpace l)
      match skipSpace rest with
      | '.' :: rest =>
          let (parts, rest) ← key n rest
          return (part :: parts, rest)
      | rest => return ([part], rest)

def withoutUnderscores : List Char → Option (List Char)
  | [] => some []
  | ['_'] => none
  | '_' :: '_' :: _ => none
  | '_' :: rest => withoutUnderscores rest
  | c :: rest => (withoutUnderscores rest).map (c :: ·)

def separated? (base : Nat) : List Char → Option Nat
  | '_' :: _ => none
  | l => do Text.natural? base (← withoutUnderscores l)

def decimal? : List Char → Option Nat
  | ['0'] => some 0
  | '0' :: _ => none
  | l => separated? 10 l

def integer? : List Char → Option Int
  | '0' :: 'x' :: rest => (separated? 16 rest).map Int.ofNat
  | '0' :: 'o' :: rest => (separated? 8 rest).map Int.ofNat
  | '0' :: 'b' :: rest => (separated? 2 rest).map Int.ofNat
  | '+' :: rest => (decimal? rest).map Int.ofNat
  | '-' :: rest => (decimal? rest).map fun n => -Int.ofNat n
  | l => (decimal? l).map Int.ofNat

def isScalar (c : Char) : Bool := isBareKey c || c = '+' || c = '.' || c = ':'

def scalar (l : List Char) : Option (Document × List Char) :=
  let word := l.takeWhile isScalar
  let rest := l.drop word.length
  if word.isEmpty then none
  else if word = "true".toList then some (.bool true, rest)
  else if word = "false".toList then some (.bool false, rest)
  else
    match integer? word with
    | some n => some (.integer n, rest)
    | none => some (.other, rest)

abbrev Entries := List (String × Document)

def replace (name : String) (d : Document) : Entries → Entries
  | [] => [(name, d)]
  | e :: l => if e.1 = name then (name, d) :: l else e :: replace name d l

/-- Changes the table at a path. A list on the way stands for its last table. -/
def updateAt (f : Entries → Option Entries) : List String → Entries → Option Entries
  | [], e => f e
  | name :: path, e =>
      match Document.entry? e name with
      | none => do return replace name (.table (← updateAt f path [])) e
      | some (.table inner) => do return replace name (.table (← updateAt f path inner)) e
      | some (.list items) =>
          match items.getLast? with
          | some (.table inner) => do
              return replace name (.list (items.dropLast ++ [.table (← updateAt f path inner)])) e
          | _ => none
      | some _ => none

def addEntry (name : String) (d : Document) (e : Entries) : Option Entries :=
  if (Document.entry? e name).isSome then none else some (e ++ [(name, d)])

/-- The tables read so far, and how their paths came to be. -/
structure Tables where
  entries : Entries
  /-- Opened by a header of their own. -/
  opened : List (List String)
  /-- Made by the dots in a key. -/
  dotted : List (List String)
  /-- Given a value: nothing is ever added to it. -/
  closed : List (List String)

namespace Tables

def empty : Tables := ⟨[], [], [], []⟩

def isClosed (t : Tables) (path : List String) : Bool := t.closed.any (·.isPrefixOf path)

/-- Sets a key of the table at `current`. A key's dots do not lead into a table with a header. -/
def assign (t : Tables) (current path : List String) (d : Document) : Option Tables := do
  let full := current ++ path
  let way := (List.range' (current.length + 1) (path.length - 1)).map full.take
  guard (!t.isClosed full ∧ ∀ p ∈ way, p ∉ t.opened)
  return { t with
    entries := ← updateAt (addEntry (← path.getLast?) d) full.dropLast t.entries
    dotted := t.dotted ++ way
    closed := full :: t.closed }

def openTable (t : Tables) (path : List String) : Option Tables := do
  guard (!t.isClosed path ∧ path ∉ t.opened ∧ path ∉ t.dotted)
  return { t with entries := ← updateAt some path t.entries, opened := path :: t.opened }

/-- A double header adds a table to a list, and its paths start afresh. -/
def openItem (t : Tables) (path : List String) : Option Tables := do
  guard (!t.isClosed path)
  let name ← path.getLast?
  let entries ← updateAt (fun inner =>
    match Document.entry? inner name with
    | none => some (inner ++ [(name, .list [.table []])])
    | some (.list items) => some (replace name (.list (items ++ [.table []])) inner)
    | some _ => none) path.dropLast t.entries
  let others := List.filter fun p : List String => !path.isPrefixOf p
  return ⟨entries, others t.opened, others t.dotted, others t.closed⟩

end Tables

mutual

def value : Nat → List Char → Option (Document × List Char)
  | 0, _ => none
  | n + 1, l =>
      match text? l with
      | some reading => reading.map fun (t, rest) => (.text (String.ofList t), rest)
      | none =>
          match l with
          | '[' :: rest => (items n rest).map fun (d, rest) => (.list d, rest)
          | '\x7b' :: rest =>
              (fields n .empty rest).map fun (t, rest) => (.table t.entries, rest)
          | l => scalar l

def items : Nat → List Char → Option (List Document × List Char)
  | 0, _ => none
  | n + 1, l =>
      match skipLines l.length l with
      | ']' :: rest => some ([], rest)
      | l => do
          let (d, rest) ← value n l
          match skipLines rest.length rest with
          | ',' :: rest =>
              let (more, rest) ← items n rest
              return (d :: more, rest)
          | ']' :: rest => return ([d], rest)
          | _ => none

def fields : Nat → Tables → List Char → Option (Tables × List Char)
  | 0, _, _ => none
  | n + 1, t, l =>
      match skipLines l.length l with
      | '\x7d' :: rest => some (t, rest)
      | l => do
          let (path, rest) ← key l.length l
          match skipLines rest.length rest with
          | '=' :: rest =>
              let (d, rest) ← value n (skipLines rest.length rest)
              let t ← t.assign [] path d
              match skipLines rest.length rest with
              | ',' :: rest => fields n t rest
              | '\x7d' :: rest => return (t, rest)
              | _ => none
          | _ => none

end

structure Progress where
  tables : Tables
  current : List String

def statement (p : Progress) (l : List Char) : Option (Progress × List Char) :=
  match l with
  | '[' :: '[' :: rest => do
      let (path, rest) ← key rest.length rest
      match rest with
      | ']' :: ']' :: rest => return (⟨← p.tables.openItem path, path⟩, rest)
      | _ => none
  | '[' :: rest => do
      let (path, rest) ← key rest.length rest
      match rest with
      | ']' :: rest => return (⟨← p.tables.openTable path, path⟩, rest)
      | _ => none
  | l => do
      let (path, rest) ← key l.length l
      match rest with
      | '=' :: rest =>
          let (d, rest) ← value (rest.length + 1) (skipSpace rest)
          return ({ p with tables := ← p.tables.assign p.current path d }, rest)
      | _ => none

def statements : Nat → Progress → List Char → Option Progress
  | 0, _, _ => none
  | n + 1, p, l =>
      match skipLines l.length l with
      | [] => some p
      | l => do
          let (p, rest) ← statement p l
          statements n p (← endLine rest)

/-- Reads a whole text. A byte order mark in front is passed over. -/
def read (l : List Char) : Option Entries :=
  let l := match l with
    | '\uFEFF' :: rest => rest
    | l => l
  (statements (l.length + 1) ⟨.empty, []⟩ l).map fun p => p.tables.entries

end Courier.Toml
