import GuardedFlow.Field.Registry
import GuardedFlow.Flow.Pipeline

/-!
# Catalogs of processors

The processors that definitions can name. A processor can be entered under a name other than its
own, and takes on that name; of two processors entered under one name the later one counts.
-/

namespace GuardedFlow

/-- Processors by the names under which definitions refer to them. -/
structure Catalog (α : Type) where
  processors : Keyed (Processor α)

namespace Catalog

variable {α : Type}

def empty : Catalog α := ⟨[]⟩

/-- A catalog with one more processor under a given name. -/
def registerAs (c : Catalog α) (name : String) (p : Processor α) : Catalog α :=
  ⟨c.processors.insert name (p.renamed name)⟩

def register (c : Catalog α) (p : Processor α) : Catalog α := c.registerAs p.name p

def find? (c : Catalog α) (name : String) : Option (Processor α) := c.processors.find? name

def names (c : Catalog α) : List String := c.processors.keys

def display (c : Catalog α) : String :=
  "ProcessorCatalog \x7b processors: " ++ Registry.nameList c.names ++ " \x7d"

end Catalog

end GuardedFlow
