import RelQuery.Value.Basic

/-!
# Values as JSON texts

A value is written as an object with one field, named for the type and holding the content. NULL
is written as the bare name, and is read in both forms.
-/

namespace RelQuery

set_option autoImplicit false

/-- The greatest number of arrays and objects inside one another that is read. -/
def maxDepth : Nat := 127

namespace Document

def intIn? (low high : Int) : Document → Option Int
  | .number n =>
    match n.read? with
    | some (.int n) => if low ≤ n ∧ n ≤ high then some n else none
    | _ => none
  | _ => none

def int32? (d : Document) : Option Int32 :=
  (d.intIn? Int32.minValue.toInt Int32.maxValue.toInt).map Int32.ofInt

def int64? (d : Document) : Option Int64 :=
  (d.intIn? Int64.minValue.toInt Int64.maxValue.toInt).map Int64.ofInt

/-- The bits of a double; an integer is read as the nearest one. -/
def double? : Document → Option UInt64
  | .number n =>
    match n.read? with
    | some (.double bits) => some bits
    | some (.int n) => some (doubleBitsOfInt n)
    | none => none
  | _ => none

def bytes? : List Document → Option (List UInt8)
  | [] => some []
  | item :: rest =>
    match item.intIn? 0 255, bytes? rest with
    | some n, some rest => some (n.toNat.toUInt8 :: rest)
    | _, _ => none

end Document

namespace Value

def ofTag? (tag : String) (content : Document) : Option Value :=
  match tag, content with
  | "Null", .null => some .null
  | "Bool", .bool b => some (.bool b)
  | "Int", n => n.int32?.map .int
  | "BigInt", n => n.int64?.map .bigInt
  | "Double", n => n.double?.map .double
  | "Text", .string (some s) => some (.text s)
  | "Bytes", .array items => (Document.bytes? items).map .bytes
  | "Json", content => (Json.ofDocument? content).map .json
  | _, _ => none

def ofText? (text : String) : Option Value :=
  match Document.parse? text with
  | some (.string (some "Null")) => some .null
  | some (.object [(some tag, content)]) =>
    if content.depth < maxDepth then ofTag? tag content else none
  | _ => none

def tagged : Value → String × Json
  | .null => ("Null", .null)
  | .bool b => ("Bool", .bool b)
  | .int n => ("Int", .number (.int n.toInt))
  | .bigInt n => ("BigInt", .number (.int n.toInt))
  | .double bits => ("Double", .number (.double bits))
  | .text s => ("Text", .string s)
  | .bytes content => ("Bytes", .array (content.map fun b => .number (.int b.toNat)))
  | .json j => ("Json", j)

def toJson (v : Value) : Json :=
  match v with
  | .null => .string v.tagged.1
  | _ => .object [v.tagged]

def toJsonText (v : Value) : String := v.toJson.text

end Value

end RelQuery
