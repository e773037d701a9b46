import RelQuery.Error
import RelQuery.Value.Basic

/-!
# Rows and records

A row holds values by position, as the storage returned them. A record holds them by the names of a
projection, in the order of the select list; a name that occurs twice stands for its first place. A
type that rows can be turned into is an instance of `Inflate`.
-/

namespace RelQuery

set_option autoImplicit false

structure Projection where
  names : List String := []
deriving DecidableEq, Repr

namespace Projection

def size (p : Projection) : Nat := p.names.length

def indexOf? (p : Projection) (name : String) : Option Nat := p.names.idxOf? name

def contains (p : Projection) (name : String) : Bool := p.names.contains name

def missing (p : Projection) (name : String) : Error := .missingColumn ⟨name, p.names⟩

/-- The first place of a name; fails when it is not projected. -/
def require (p : Projection) (name : String) : Except Error Nat :=
  match p.indexOf? name with
  | some i => .ok i
  | none => .error (p.missing name)

end Projection

structure Row where
  values : List Value
  labels : Option Projection := none

namespace Row

def size (r : Row) : Nat := r.values.length

def get? (r : Row) (i : Nat) : Option Value := r.values[i]?

def getLabel? (r : Row) (label : String) : Option Value := do
  let labels ← r.labels
  let i ← labels.indexOf? label
  r.get? i

end Row

/-- The values of a row under the names of a projection. -/
structure Record where
  entries : List (String × Value)

namespace Record

def projection (r : Record) : Projection := ⟨r.entries.map (·.1)⟩

def getColumn (r : Record) (name : String) : Except Error Value :=
  match r.entries.lookup name with
  | some v => .ok v
  | none => .error (r.projection.missing name)

def getAs {α : Type} (c : Value.Conversion α) (r : Record) (name : String) : Except Error α := do
  let v ← r.getColumn name
  (c.convert v).mapError fun e => .type { e with column := some name }

end Record

/-- A type that rows can be turned into. -/
class Inflate (α : Type) where
  inflate : Projection → Row → Except Error α

def Row.widthMismatch (r : Row) (p : Projection) : TypeError :=
  ⟨"row matching the selected columns",
    toString r.size ++ " values for " ++ toString p.size ++ " selected columns", none⟩

instance : Inflate Record where
  inflate p r :=
    if r.size = p.size then .ok ⟨p.names.zip r.values⟩ else .error (.type (r.widthMismatch p))

instance : Inflate Row where
  inflate _ r := .ok r

end RelQuery
