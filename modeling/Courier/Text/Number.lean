namespace Courier.Text

def digit? (base : Nat) (c : Char) : Option Nat :=
  let value :=
    if '0' ≤ c ∧ c ≤ '9' then c.toNat - '0'.toNat
    else if 'a' ≤ c ∧ c ≤ 'z' then c.toNat - 'a'.toNat + 10
    else if 'A' ≤ c ∧ c ≤ 'Z' then c.toNat - 'A'.toNat + 10
    else base
  if value < base then some value else none

def digits? (base : Nat) : Nat → List Char → Option Nat
  | value, [] => some value
  | value, c :: rest => do digits? base (value * base + (← digit? base c)) rest

def natural? (base : Nat) : List Char → Option Nat
  | [] => none
  | l => digits? base 0 l

def word? (n : Nat) : Option UInt64 := if n < UInt64.size then some (.ofNat n) else none

inductive NumberError where
  | empty
  | invalidDigit
  | tooLarge
  deriving DecidableEq

def NumberError.message : NumberError → String
  | empty => "cannot parse integer from empty string"
  | invalidDigit => "invalid digit found in string"
  | tooLarge => "number too large to fit in target type"

/-- Reads from the left, so the first fault is the one reported: a number that has grown too large
is, whatever follows. -/
def readDigits : Nat → List Char → Except NumberError Nat
  | value, [] => .ok value
  | value, c :: rest =>
      match digit? 10 c with
      | none => .error .invalidDigit
      | some d =>
          let value := value * 10 + d
          if value < UInt64.size then readDigits value rest else .error .tooLarge

def readWord : List Char → Except NumberError UInt64
  | [] => .error .empty
  | ['+'] => .error .invalidDigit
  | '+' :: rest => .ofNat <$> readDigits 0 rest
  | l => .ofNat <$> readDigits 0 l

end Courier.Text
