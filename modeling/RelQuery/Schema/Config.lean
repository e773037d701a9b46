import RelQuery.Hook
import RelQuery.Dialect
import RelQuery.Json.Document

/-!
# Configuration

The settings of a schema, and their JSON form: an object with known and other fields, or an array
of the settings in order.
-/

namespace RelQuery

set_option autoImplicit false

structure SchemaConfig where
  style : Style := {}
  hook : Option Hook := none

structure Settings where
  dialect : Option Dialect := none
  quote : Option Bool := none

namespace Settings

/-- A dialect, by its name or as an object with an empty field of that name. -/
def dialectOf? : Document → Option Dialect
  | .string (some name) => Dialect.ofName? name
  | .object [(some name, .null)] => Dialect.ofName? name
  | _ => none

def boolOf? : Document → Option Bool
  | .bool b => some b
  | _ => none

/-- Takes in a field. A setting is given once, and other fields are passed over. -/
def field? (s : Settings) : Option String × Document → Option Settings
  | (none, _) => none
  | (some name, content) =>
    if name = "dialect" then
      match s.dialect, dialectOf? content with
      | none, some d => some { s with dialect := some d }
      | _, _ => none
    else if name = "quote_identifiers" then
      match s.quote, boolOf? content with
      | none, some b => some { s with quote := some b }
      | _, _ => none
    else some s

def ofDocument? : Document → Option Settings
  | .object fields => fields.foldlM field? {}
  | .array [] => some {}
  | .array [dialect] => (dialectOf? dialect).map fun d => ⟨some d, none⟩
  | .array [dialect, quote] =>
    match dialectOf? dialect, boolOf? quote with
    | some d, some b => some ⟨some d, some b⟩
    | _, _ => none
  | _ => none

def style (s : Settings) : Style := ⟨s.dialect.getD .postgres, s.quote.getD false⟩

end Settings

namespace SchemaConfig

def ofJson (text : String) : Except ConfigurationError SchemaConfig :=
  match (Document.parse? text).bind Settings.ofDocument? with
  | some settings => .ok ⟨settings.style, none⟩
  | none => .error ⟨.invalid, "invalid schema configuration", none, none⟩

def dialectLabel : Dialect → String
  | .postgres => "Postgres"
  | .sqlite => "Sqlite"
  | .mysql => "Mysql"

def describe (c : SchemaConfig) : String :=
  "SchemaConfig \x7b dialect: " ++ dialectLabel c.style.dialect ++ ", quote_identifiers: " ++
    (if c.style.quote then "true" else "false") ++ ", error_hook: " ++
    (if c.hook.isSome then "Some(\"<hook>\")" else "None") ++ " \x7d"

end SchemaConfig

end RelQuery
