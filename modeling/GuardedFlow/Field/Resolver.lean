import GuardedFlow.Value.Basic

/-!
# Resolving field paths

A condition never looks into a record by itself: each path it mentions is resolved once to an
accessor, which reads the field as a value. The empty path is the record itself.
-/

namespace GuardedFlow

/-- Reads one field of a record. -/
abbrev Accessor (α : Type) := α → Value

/-- The fields of one kind of record. -/
structure Resolver (α : Type) where
  /-- What the kind of record is called in messages. -/
  entity : String
  /-- The accessor of a path, if there is such a field. -/
  resolve : String → Option (Accessor α)

/-- The parts of a text between the occurrences of a character. -/
def Text.splitAt (separator : Char) : List Char → List (List Char)
  | [] => [[]]
  | c :: rest =>
    match splitAt separator rest with
    | [] => [[c]]
    | first :: others => if c = separator then [] :: first :: others else (c :: first) :: others

/-- The keys of a dotted path. -/
def Text.dotted (path : String) : List String := (Text.splitAt '.' path.toList).map String.ofList

namespace Resolver

variable {α : Type}

/-- A kind of record that has no fields and is read as one value. -/
def scalar (entity : String) (read : α → Value) : Resolver α where
  entity := entity
  resolve path := if path.isEmpty then some read else none

/-- Values as records: every path resolves, and a missing member reads as absent. -/
def dynamic (entity : String) : Resolver Value where
  entity := entity
  resolve path := some fun v => if path.isEmpty then v else v.follow (Text.dotted path)

end Resolver

end GuardedFlow
