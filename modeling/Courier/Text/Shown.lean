namespace Courier.Text

def listed (parts : List String) : String := "[" ++ ", ".intercalate parts ++ "]"

def pairs (parts : List (String × String)) : String :=
  ", ".intercalate (parts.map fun p => p.1 ++ ": " ++ p.2)

def record (name : String) (fields : List (String × String)) : String :=
  name ++ " \x7b " ++ pairs fields ++ " \x7d"

def mapped (entries : List (String × String)) : String := "\x7b" ++ pairs entries ++ "\x7d"

def wrapped (name part : String) : String := name ++ "(" ++ part ++ ")"

def truth (b : Bool) : String := if b then "true" else "false"

def optional : Option String → String
  | some part => wrapped "Some" part
  | none => "None"

def shownChar (c : Char) : List Char :=
  if c = '"' then "\\\"".toList
  else if c = '\\' then "\\\\".toList
  else if c = '\n' then "\\n".toList
  else if c = '\r' then "\\r".toList
  else if c = '\t' then "\\t".toList
  else if c.toNat = 0 then "\\0".toList
  else if c.toNat < 0x20 ∨ c.toNat = 0x7F then
    "\\u\x7b".toList ++ Nat.toDigits 16 c.toNat ++ "\x7d".toList
  else [c]

def shown (s : String) : String := "\"" ++ String.ofList (s.toList.flatMap shownChar) ++ "\""

def shownOctet (n : UInt8) : List Char :=
  let c := Char.ofNat n.toNat
  if c.toNat < 0x7F ∧ (0x20 ≤ c.toNat ∨ c ∈ ['\n', '\r', '\t', Char.ofNat 0]) then shownChar c
  else "\\x".toList ++ (if n < 16 then ['0'] else []) ++ Nat.toDigits 16 n.toNat

def shownOctets (s : String) : String :=
  "b\"" ++ String.ofList (s.toUTF8.toList.flatMap shownOctet) ++ "\""

end Courier.Text
