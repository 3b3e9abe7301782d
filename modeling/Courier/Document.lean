namespace Courier

inductive Document where
  | null
  | bool (value : Bool)
  | integer (value : Int)
  | text (value : String)
  | list (items : List Document)
  | table (entries : List (String × Document))
  /-- A scalar of which no setting or record is made: a fraction, a date. -/
  | other

namespace Document

instance : Inhabited Document := ⟨null⟩

def bool? : Document → Option Bool
  | bool value => some value
  | _ => none

def text? : Document → Option String
  | text value => some value
  | _ => none

/-- The name of a choice: a text, or a table whose only key is the name and holds nothing. -/
def choice? : Document → Option String
  | text name => some name
  | table [(name, null)] => some name
  | _ => none

def entry? (entries : List (String × Document)) (name : String) : Option Document :=
  (entries.find? fun e => e.1 = name).map Prod.snd

end Document

end Courier
