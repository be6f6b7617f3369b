/-!
# Documents in block notation

The tree of a YAML document. A scalar keeps its text and whether it was written without quotes,
since only such a text can stand for the absent value. Keys are documents themselves.
-/

namespace GuardedFlow

/-- A YAML document. -/
inductive Yaml where
  | scalar (text : String) (isPlain : Bool)
  | sequence (items : List Yaml)
  | mapping (entries : List (Yaml × Yaml))
deriving Repr

namespace Yaml

/-- What stands where nothing is written. -/
def empty : Yaml := scalar "" true

instance : Inhabited Yaml := ⟨empty⟩

def isEmpty : Yaml → Bool
  | scalar text isPlain => isPlain && text.isEmpty
  | _ => false

/-- Whether a document stands for the absent value. -/
def isNull : Yaml → Bool
  | scalar text isPlain => isPlain && ["", "~", "null", "Null", "NULL"].contains text
  | _ => false

def text? : Yaml → Option String
  | scalar text _ => some text
  | _ => none

end Yaml

end GuardedFlow
