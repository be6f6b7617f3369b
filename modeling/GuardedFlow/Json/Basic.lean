import GuardedFlow.Keyed
import GuardedFlow.Number.Basic

/-!
# Documents

The tree of a JSON document. Whole numbers within 64 bits are kept apart from other numbers, since
only they can be counts. Members keep their order and their repetitions, which each reader of a tree
judges by itself.
-/

namespace GuardedFlow

/-- A JSON document. -/
inductive Json where
  | null
  | bool (b : Bool)
  /-- A whole number that was written as one. -/
  | integer (i : Int)
  | number (x : Number)
  | string (s : String)
  | array (items : List Json)
  | object (members : List (String × Json))
  /-- Something well formed that stands for no value: a number out of range, a text with an unpaired
  surrogate, or a container nested too deeply. It can be skipped but not read. -/
  | unreadable
deriving Repr

namespace Json

instance : Inhabited Json := ⟨null⟩

/-- The optional value, `null` without one. -/
def ofOption : Option Json → Json
  | some j => j
  | none => null

def ofNat (n : Nat) : Json := integer n

mutual

/-- The document with the members of every object in ascending order of their keys, of members with
one key the last one. -/
def sorted : Json → Json
  | array items => array (sortedItems items)
  | object members => object (sortedMembers members)
  | j => j
termination_by structural j => j

/-- The items, each sorted. -/
def sortedItems : List Json → List Json
  | [] => []
  | j :: rest => j.sorted :: sortedItems rest
termination_by structural l => l

/-- The members in ascending order, each sorted. -/
def sortedMembers : List (String × Json) → List (String × Json)
  | [] => []
  | (key, j) :: rest =>
    let others := sortedMembers rest
    if Keyed.contains others key then others else Keyed.insert others key j.sorted
termination_by structural l => l

end

end Json

end GuardedFlow
