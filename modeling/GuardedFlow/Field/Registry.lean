import GuardedFlow.Field.Resolver
import GuardedFlow.Text.Quoted

/-!
# Registries of fields

A registry is a table of paths and accessors for one kind of record, together with what the record
itself reads as. The registry of an inner record can be nested under a name: its paths are prefixed
with the name and a dot, and what the inner record reads as becomes the field of that name.
-/

namespace GuardedFlow

/-- The fields of one kind of record. -/
structure Registry (α : Type) where
  /-- The accessors by path. -/
  fields : Keyed (Accessor α)
  /-- What the record itself reads as. -/
  self? : Option (Accessor α)

namespace Registry

variable {α β : Type}

def empty : Registry α := ⟨[], none⟩

/-- A registry with one more field; the empty name stands for the record itself. -/
def field (r : Registry α) (name : String) (read : Accessor α) : Registry α :=
  if name.isEmpty then { r with self? := some read }
  else { r with fields := r.fields.insert name read }

def this (r : Registry α) (read : Accessor α) : Registry α := r.field "" read

/-- A registry with the fields of an inner record under a name. -/
def nested (r : Registry α) (name : String) (get : α → β) (inner : Registry β) : Registry α :=
  let own :=
    match inner.self? with
    | some read => r.fields.insert name (fun item => read (get item))
    | none => r.fields
  let all := inner.fields.foldl
    (fun fields (path, read) =>
      fields.insert (name ++ "." ++ path) (fun item => read (get item))) own
  { r with fields := all }

def lookup (r : Registry α) (path : String) : Option (Accessor α) :=
  if path.isEmpty then r.self? else r.fields.find? path

def names (r : Registry α) : List String := r.fields.keys

/-- The number of fields, the record itself not counted. -/
def size (r : Registry α) : Nat := r.fields.length

def isEmpty (r : Registry α) : Bool := r.fields.isEmpty && r.self?.isNone

/-- The registry as a resolver for records of the given name. -/
def toResolver (r : Registry α) (entity : String) : Resolver α := ⟨entity, r.lookup⟩

/-- Names between quotes and brackets, as diagnostics show a list of names. -/
def nameList (names : List String) : String :=
  "[" ++ ", ".intercalate (names.map Text.quote) ++ "]"

def display (r : Registry α) : String :=
  "FieldRegistry \x7b fields: " ++ nameList r.names ++ ", has_self: " ++
    (if r.self?.isSome then "true" else "false") ++ " \x7d"

end Registry

end GuardedFlow
