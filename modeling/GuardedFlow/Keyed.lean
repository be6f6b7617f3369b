/-!
# Tables keyed by text

A table is a list of entries in ascending order of their keys, each key once. `Keyed.insert` keeps
that order, so tables with the same entries are the same list and the keys come out sorted.
-/

namespace GuardedFlow

/-- Entries in ascending order of their keys. -/
abbrev Keyed (α : Type) := List (String × α)

namespace Keyed

variable {α : Type}

/-- A table with one more entry, which replaces an entry of the same key. -/
def insert : Keyed α → String → α → Keyed α
  | [], key, value => [(key, value)]
  | (k, v) :: rest, key, value =>
    if key < k then (key, value) :: (k, v) :: rest
    else if key = k then (key, value) :: rest
    else (k, v) :: insert rest key value

/-- The table of the given entries; of entries with one key the last one counts. -/
def ofList (entries : List (String × α)) : Keyed α :=
  entries.foldl (fun table (key, value) => insert table key value) []

def find? : Keyed α → String → Option α
  | [], _ => none
  | (k, v) :: rest, key => if k = key then some v else find? rest key

def contains (table : Keyed α) (key : String) : Bool := (table.find? key).isSome

def keys (table : Keyed α) : List String := table.map Prod.fst

/-- Whether keys are strictly ascending. -/
def ascending : Keyed α → Bool
  | (k, _) :: (l, v) :: rest => decide (k < l) && ascending ((l, v) :: rest)
  | _ => true

end Keyed

end GuardedFlow
