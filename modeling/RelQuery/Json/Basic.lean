import RelQuery.Json.Document
import RelQuery.Decimal.Shortest

/-!
# JSON values

JSON values as data: objects list their fields in the order of the names, each name once. Writing
is compact.
-/

namespace RelQuery

set_option autoImplicit false

inductive Json where
  | null
  | bool (b : Bool)
  | number (n : Number)
  | string (s : String)
  | array (items : List Json)
  | object (fields : List (String × Json))

namespace Json

def setField (name : String) (item : Json) : List (String × Json) → List (String × Json)
  | [] => [(name, item)]
  | (other, old) :: rest =>
    if name = other then (name, item) :: rest
    else if name < other then (name, item) :: (other, old) :: rest
    else (other, old) :: setField name item rest

/-- The object of some fields; of two fields with one name the later stands. -/
def ofFields (fields : List (String × Json)) : Json :=
  .object (fields.foldl (fun sorted field => setField field.1 field.2 sorted) [])

mutual

/-- The value of a syntax tree; none when a string or a number cannot be read. -/
def ofDocument? : Document → Option Json
  | .null => some .null
  | .bool b => some (.bool b)
  | .number n => n.read?.map .number
  | .string text => text.map .string
  | .array items => (ofItems? items).map .array
  | .object fields => (ofMembers? fields).map ofFields

def ofItems? : List Document → Option (List Json)
  | [] => some []
  | item :: rest =>
    match ofDocument? item, ofItems? rest with
    | some item, some rest => some (item :: rest)
    | _, _ => none

def ofMembers? : List (Option String × Document) → Option (List (String × Json))
  | [] => some []
  | (name, item) :: rest =>
    match name, ofDocument? item, ofMembers? rest with
    | some name, some item, some rest => some ((name, item) :: rest)
    | _, _, _ => none

end

def hexChar (n : Nat) : Char := Nat.digitChar (n % 16)

def escapeChar (c : Char) : List Char :=
  if c = '"' then ['\\', '"']
  else if c = '\\' then ['\\', '\\']
  else if c = '\x08' then ['\\', 'b']
  else if c = '\x0c' then ['\\', 'f']
  else if c = '\n' then ['\\', 'n']
  else if c = '\r' then ['\\', 'r']
  else if c = '\t' then ['\\', 't']
  else if c.toNat < 0x20 then ['\\', 'u', '0', '0', hexChar (c.toNat / 16), hexChar c.toNat]
  else [c]

def quoted (s : String) : String := String.ofList ('"' :: s.toList.flatMap escapeChar ++ ['"'])

/-- A written number; a double that is no finite number is written as null. -/
def numberText : Number → String
  | .int n => toString n
  | .double bits => (doubleText? bits).getD "null"

mutual

def text : Json → String
  | .null => "null"
  | .bool b => if b then "true" else "false"
  | .number n => numberText n
  | .string s => quoted s
  | .array items => "[" ++ String.intercalate "," (itemTexts items) ++ "]"
  | .object fields => "\x7b" ++ String.intercalate "," (fieldTexts fields) ++ "\x7d"

def itemTexts : List Json → List String
  | [] => []
  | item :: rest => item.text :: itemTexts rest

def fieldTexts : List (String × Json) → List String
  | [] => []
  | (name, item) :: rest => (quoted name ++ ":" ++ item.text) :: fieldTexts rest

end

end Json

end RelQuery
