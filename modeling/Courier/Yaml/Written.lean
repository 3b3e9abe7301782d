import Courier.Text.Code
import Courier.Yaml.Reading

namespace Courier.Yaml

/-- The blanks on a line before its end, and the line ends. Where the line has ended, tabs may not
stand before the indent. -/
def gap (indent : Nat) : Nat → Bool → Reader (List Char × List Char)
  | 0, _ => failure
  | n + 1, ended => do
      let r ← get
      match r.next? with
      | none => return ([], [])
      | some c =>
          if isSpace c then
            guard !(ended && c = '\t' && r.column < indent)
            pass
            let (blanks, ends) ← gap indent n ended
            return (c :: blanks, ends)
          else if isLineEnd c then
            set r.stepLine
            let (_, ends) ← gap indent n true
            return ([], lineEnd c :: ends)
          else return ([], [])

/-- One line feed joins two lines by a space, and of several the first is left out. -/
def folded : List Char → List Char
  | ['\n'] => [' ']
  | '\n' :: more => more
  | ends => ends

def gapText (blanks ends : List Char) : List Char := if ends.isEmpty then blanks else folded ends

def word : Nat → Reader (List Char)
  | 0 => failure
  | n + 1 => do
      let r ← get
      match r.next? with
      | none => return []
      | some c =>
          let closes := fun (c : Char) => r.flow && ",[]\x7b\x7d".toList.contains c
          let second := r.rest.tail.head?
          if c = ':' && second.any fun c => closes c || (r.flow && c = '?') then failure
          else if r.gapAhead 0 || (c = ':' && r.gapAhead 1) || closes c then return []
          else
            pass
            return c :: (← word n)

/-- A plain text from after a gap on. It ends before a comment and where a line is not indented
enough; the gap before its end is no part of it. -/
def plain (indent : Nat) : Nat → List Char → Reader (List Char)
  | 0, _ => failure
  | n + 1, before => do
      let r ← get
      if r.atBoundary || r.starts '#' then return []
      let text ← word (r.rest.length + 1)
      if text.isEmpty then return []
      let (blanks, ends) ← gap indent (r.rest.length + 1) false
      modify fun r => { r with fresh := !ends.isEmpty }
      let r ← get
      if blanks.isEmpty && ends.isEmpty || (!r.flow && r.column < indent) then return before ++ text
      return before ++ text ++ (← plain indent n (gapText blanks ends))

def escapes : List (Char × Nat) :=
  [('0', 0), ('a', 7), ('b', 8), ('t', 9), ('\t', 9), ('n', 0xA), ('v', 0xB), ('f', 0xC),
    ('r', 0xD), ('e', 0x1B), (' ', 0x20), ('"', 0x22), ('/', 0x2F), ('\\', 0x5C), ('N', 0x85),
    ('_', 0xA0), ('L', 0x2028), ('P', 0x2029)]

def codeWidths : List (Char × Nat) := [('x', 2), ('u', 4), ('U', 8)]

def escaped : Reader Char := do
  let r ← get
  let c ← r.rest[1]?
  set (r.steps 2)
  match escapes.lookup c with
  | some code => return Char.ofNat code
  | none =>
      let width ← codeWidths.lookup c
      let (c, _) ← Text.coded width (r.rest.drop 2)
      modify fun r => r.steps width
      return c

def quoted (quote : Char) : Nat → Reader (List Char)
  | 0 => failure
  | n + 1 => do
      let r ← get
      guard !r.atBoundary
      let c ← r.next?
      if c = quote then
        if quote = '\'' && r.step.starts '\'' then
          set (r.steps 2)
          return '\'' :: (← quoted quote n)
        else
          set { r.step with fresh := false }
          return []
      else if c = '\\' && quote = '"' then
        if r.step.next?.any isLineEnd then
          set r.step.stepLine
          let (_, ends) ← gap 0 (r.rest.length + 1) true
          return ends ++ (← quoted quote n)
        else return (← escaped) :: (← quoted quote n)
      else if r.gapAhead 0 then
        let (blanks, ends) ← gap 0 (r.rest.length + 1) false
        return gapText blanks ends ++ (← quoted quote n)
      else
        pass
        return c :: (← quoted quote n)

/-- Line ends at the end of a block: none are kept, the last line's, or all. -/
inductive Chomping where
  | strip
  | clip
  | keep

def chomping? : Reader (Option Chomping) := do
  let r ← get
  match r.next? with
  | some '+' => pass; return some .keep
  | some '-' => pass; return some .strip
  | _ => return none

def indentation? : Reader (Option Nat) := do
  let r ← get
  match r.next?.bind (Text.digit? 10) with
  | some d => guard (d ≠ 0); pass; return some d
  | none => return none

def blockHeader : Reader (Chomping × Option Nat) := do
  match ← chomping? with
  | some chomping => return (chomping, ← indentation?)
  | none =>
      let increment ← indentation?
      return ((← chomping?).getD .clip, increment)

def endLine : Reader Unit := do
  let r ← get
  let r := r.stepWhile isSpace
  let r := if r.starts '#' then r.stepWhile fun c => !isLineEnd c else r
  guard (r.next?.all isLineEnd)
  set (if r.rest.isEmpty then r else r.stepLine)

/-- Passes the spaces before the indent, or all of them if it is not known, and the lines that hold
no more. Tells the line ends and the greatest column. -/
def emptyLines (indent : Option Nat) : Nat → Nat → Reader (List Char × Nat)
  | 0, _ => failure
  | n + 1, widest => do
      let r ← get
      let spaces := (r.rest.takeWhile (· = ' ')).length
      let r := r.steps (indent.elim spaces fun i => min spaces (i - r.column))
      guard !(r.starts '\t' && indent.all (r.column < ·))
      let widest := max widest r.column
      match r.next?.filter isLineEnd with
      | some c =>
          set r.stepLine
          let (ends, widest) ← emptyLines indent n widest
          return (lineEnd c :: ends, widest)
      | none =>
          set r
          return ([], widest)

def blockStart (increment : Option Nat) : Reader (List Char × Nat) := do
  let r ← get
  let least := r.indent + 1
  match increment with
  | some n =>
      let (ends, _) ← emptyLines (some (r.indent + n)) (r.rest.length + 1) 0
      return (ends, r.indent + n)
  | none =>
      let (ends, widest) ← emptyLines none (r.rest.length + 1) 0
      return (ends, max widest least)

/-- The lines of a block. `last` holds the end of the line before and `ends` those of the empty
lines since; lines that start with a blank are not folded. -/
def blockLines (style : Style) (indent : Nat) :
    Nat → List Char → List Char → Bool → Reader (List Char × List Char × List Char)
  | 0, _, _, _ => failure
  | n + 1, last, ends, blankBefore => do
      let r ← get
      if r.column ≠ indent ∨ r.rest.isEmpty then return ([], last, ends)
      let blank := r.next?.any isSpace
      let joint :=
        if style = .folded && last = ['\n'] && !blankBefore && !blank then
          if ends.isEmpty then [' '] else []
        else last
      let line ← takeWhile fun c => !isLineEnd c
      let r ← get
      let nextLast := r.next?.toList.map lineEnd
      set (if r.rest.isEmpty then r else r.stepLine)
      let (nextEnds, _) ← emptyLines (some indent) (r.rest.length + 1) 0
      let (text, tail) ← blockLines style indent n nextLast nextEnds blank
      return (joint ++ ends ++ line ++ text, tail)

def block : Reader (Style × List Char) := do
  let style : Style := if (← get).starts '|' then .literal else .folded
  pass
  let (chomping, increment) ← blockHeader
  endLine
  let (ends, indent) ← blockStart increment
  let (text, last, ends) ← blockLines style indent ((← get).rest.length + 1) [] ends false
  modify fun r => { r with fresh := true }
  match chomping with
  | .strip => return (style, text)
  | .clip => return (style, text ++ last)
  | .keep => return (style, text ++ last ++ ends)

def inlineText : Reader (Style × List Char) := do
  let r ← get
  let fuel := r.rest.length + 1
  if r.starts '\'' || r.starts '"' then
    let quote ← r.next?
    pass
    return (.quoted, ← quoted quote fuel)
  guard r.startsPlain
  return (.plain, ← plain (if r.flow then 0 else r.indent + 1) fuel [])

end Courier.Yaml
