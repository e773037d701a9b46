import RelQuery.Json.Basic
import RelQuery.Error

/-!
# Values

Bound parameters and the values of columns. Doubles are carried as their bits and never computed
with.
-/

namespace RelQuery

set_option autoImplicit false

inductive Value where
  | null
  | bool (b : Bool)
  | int (n : Int32)
  | bigInt (n : Int64)
  | double (bits : UInt64)
  | text (s : String)
  | bytes (content : List UInt8)
  | json (j : Json)

namespace Value

def isNull : Value → Bool
  | .null => true
  | _ => false

def typeName : Value → String
  | .null => "null"
  | .bool _ => "bool"
  | .int _ | .bigInt _ => "integer"
  | .double _ => "double"
  | .text _ => "text"
  | .bytes _ => "bytes"
  | .json _ => "json"

/-- The integer of a value; a truth value counts as 0 or 1. -/
def asInt64? : Value → Option Int64
  | .int n => some n.toInt64
  | .bigInt n => some n
  | .bool b => some (if b then 1 else 0)
  | _ => none

def asText? : Value → Option String
  | .text s => some s
  | _ => none

def mismatch (v : Value) (expected : String) : TypeError := ⟨expected, v.typeName, none⟩

structure Conversion (α : Type) where
  read? : Value → Option α
  name : String

def toInt64 : Conversion Int64 := ⟨asInt64?, "i64"⟩

def toText : Conversion String := ⟨asText?, "text"⟩

def Conversion.convert {α : Type} (c : Conversion α) (v : Value) : Except TypeError α :=
  match c.read? v with
  | some a => .ok a
  | none => .error (v.mismatch c.name)

end Value

end RelQuery
