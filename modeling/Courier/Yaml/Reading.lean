import Courier.Yaml.Anchor

namespace Courier.Yaml

def isSpace (c : Char) : Bool := c = ' ' || c = '\t'

def isLineEnd (c : Char) : Bool :=
  c = '\n' || c = '\r' || c.toNat = 0x85 || c.toNat = 0x2028 || c.toNat = 0x2029

/-- The line and paragraph separators stay as they are; any other line end reads as a line feed. -/
def lineEnd (c : Char) : Char := if c.toNat = 0x2028 ∨ c.toNat = 0x2029 then c else '\n'

def isNameChar (c : Char) : Bool :=
  ('a' ≤ c && c ≤ 'z') || ('A' ≤ c && c ≤ 'Z') || ('0' ≤ c && c ≤ '9') || c = '_' || c = '-'

def isAllowed (c : Char) : Bool :=
  let n := c.toNat
  isSpace c || isLineEnd c || (0x20 ≤ n && n ≤ 0x7E) || (0xA0 ≤ n && n ≤ 0xFFFD) || 0x10000 ≤ n

structure Reading where
  rest : List Char
  line : Nat := 0
  column : Nat := 0
  index : Nat := 0
  /-- A key of a block may start here: the line holds nothing else before it. -/
  fresh : Bool := true
  flow : Bool := false
  /-- The column of the keys of the block. -/
  indent : Nat := 0
  anchors : Anchors := .empty
  handles : List (String × List UInt8) := []

namespace Reading

def next? (r : Reading) : Option Char := r.rest.head?

def starts (r : Reading) (c : Char) : Bool := r.next? = some c

def gapAhead (r : Reading) (n : Nat) : Bool := (r.rest[n]?).all fun c => isSpace c || isLineEnd c

def step (r : Reading) : Reading :=
  { r with rest := r.rest.tail, column := r.column + 1, index := r.index + 1 }

def steps (r : Reading) (n : Nat) : Reading :=
  { r with rest := r.rest.drop n, column := r.column + n, index := r.index + n }

def stepLine (r : Reading) : Reading :=
  let n := if r.rest.take 2 = ['\r', '\n'] then 2 else 1
  { r with rest := r.rest.drop n, line := r.line + 1, column := 0, index := r.index + n }

def stepWhile (p : Char → Bool) (r : Reading) : Reading := r.steps (r.rest.takeWhile p).length

def atMarker (sign : Char) (r : Reading) : Bool :=
  r.column = 0 && r.rest.take 3 = [sign, sign, sign] && r.gapAhead 3

def atBoundary (r : Reading) : Bool := r.atMarker '-' || r.atMarker '.'

def atEnd (r : Reading) : Bool := r.rest.isEmpty || r.atBoundary

/-- Passes blanks, comments and line ends. In a block, no tab stands before a key. A byte order
mark may start a line. -/
def skip (r : Reading) : Reading := go r.rest.length r
where
  go : Nat → Reading → Reading
    | 0, r => r
    | n + 1, r =>
        match r.next? with
        | none => r
        | some c =>
            if c = ' ' || (c = '\t' && (r.flow || !r.fresh)) then go n r.step
            else if c = '\uFEFF' && r.column = 0 then go n r.step
            else if c = '#' then go n (r.stepWhile fun c => !isLineEnd c)
            else if isLineEnd c then go n { r.stepLine with fresh := r.fresh || !r.flow }
            else r

/-- A colon before a gap, or any colon between braces, stands before a value. -/
def atColon (r : Reading) : Bool := r.starts ':' && (r.flow || r.gapAhead 1)

def atQuestion (r : Reading) : Bool := r.starts '?' && (r.flow || r.gapAhead 1)

def atDash (r : Reading) : Bool := r.starts '-' && r.gapAhead 1

def indicators : List Char := "-?:,[]\x7b\x7d#&*!|>'\"%@`".toList

def startsPlain (r : Reading) : Bool :=
  !r.atBoundary && !r.gapAhead 0 &&
    (r.next?.all (!indicators.contains ·) || (r.starts '-' && !r.gapAhead 1) ||
      (!r.flow && (r.starts '?' || r.starts ':') && !r.gapAhead 1))

end Reading

abbrev Reader := StateT Reading Option

def skip : Reader Unit := modify Reading.skip

def pass : Reader Unit := modify Reading.step

def takeWhile (p : Char → Bool) : Reader (List Char) := do
  let r ← get
  set (r.stepWhile p)
  return r.rest.takeWhile p

end Courier.Yaml
