/-!
# Errors

What can go wrong, by cause, with the texts a caller sees.
-/

namespace RelQuery

set_option autoImplicit false

inductive ConfigurationKind where
  | ambiguousPrimaryKey
  | unknownColumn
  | unknownSource
  | duplicateRelationship
  | duplicateSource
  /-- A column map is empty or not uniformly qualified. -/
  | malformedCondition
  | selectAsMismatch
  | invalidIdentifier
  | invalid
deriving DecidableEq, Repr

inductive CompilationKind where
  | unknownRelationship
  | proceduralCondition
  /-- The statement has no form, such as a delete without a key. -/
  | unsupported
  | invalidWindow
deriving DecidableEq, Repr

structure ConfigurationError where
  kind : ConfigurationKind
  message : String
  source : Option String := none
  relationship : Option String := none
deriving DecidableEq, Repr

structure CompilationError where
  kind : CompilationKind
  message : String
deriving DecidableEq, Repr

structure MissingColumnError where
  column : String
  available : List String
deriving DecidableEq, Repr

structure StorageError where
  message : String
  sql : Option String := none
deriving DecidableEq, Repr

structure TypeError where
  expected : String
  actual : String
  column : Option String := none
deriving DecidableEq, Repr

inductive Payload where
  | int (n : Int64)
  | text (s : String)
deriving DecidableEq

inductive Error where
  | configuration (e : ConfigurationError)
  | compilation (e : CompilationError)
  | missingColumn (e : MissingColumnError)
  | storage (e : StorageError)
  | type (e : TypeError)
  | payload (p : Payload)
  | custom (message : String)
deriving DecidableEq

namespace ConfigurationError

def onSource (source : String) (e : ConfigurationError) : ConfigurationError :=
  { e with source := some source }

def onRelationship (relationship : String) (e : ConfigurationError) : ConfigurationError :=
  { e with relationship := some relationship }

/-- The message, followed by the place of the declaration as far as it is known. -/
def text (e : ConfigurationError) : String :=
  match e.source, e.relationship with
  | some source, some relationship =>
    e.message ++ " (relationship '" ++ relationship ++ "' on '" ++ source ++ "')"
  | some source, none => e.message ++ " (source '" ++ source ++ "')"
  | none, _ => e.message

def unknownSource (name : String) : ConfigurationError :=
  ⟨.unknownSource, "no source registered as '" ++ name ++ "'", none, none⟩

def invalidIdentifier (what name : String) : ConfigurationError :=
  ⟨.invalidIdentifier, "invalid " ++ what ++ " name '" ++ name ++ "'", none, none⟩

end ConfigurationError

def MissingColumnError.text (e : MissingColumnError) : String :=
  "column '" ++ e.column ++ "' is not part of the selected columns (" ++
    String.intercalate ", " e.available ++ ")"

/-- The expected type, the column if there is one, and the type found. -/
def TypeError.text (e : TypeError) : String :=
  match e.column with
  | some column => "expected " ++ e.expected ++ " for column '" ++ column ++ "', found " ++ e.actual
  | none => "expected " ++ e.expected ++ ", found " ++ e.actual

namespace Error

def detail : Error → String
  | .configuration e => e.text
  | .compilation e => e.message
  | .missingColumn e => e.text
  | .storage e => e.message
  | .type e => e.text
  | .payload _ => "Structured error payload"
  | .custom message => message

def label : Error → String
  | .configuration _ => "Configuration error: "
  | .compilation _ => "Compilation error: "
  | .missingColumn _ => "Missing column: "
  | .storage _ => "Storage error: "
  | .type _ => "Type error: "
  | .payload _ => ""
  | .custom _ => ""

def text (e : Error) : String := e.label ++ e.detail

def isConfiguration : Error → Bool
  | .configuration _ => true
  | _ => false

def isCompilation : Error → Bool
  | .compilation _ => true
  | _ => false

def isMissingColumn : Error → Bool
  | .missingColumn _ => true
  | _ => false

def sql? : Error → Option String
  | .storage e => e.sql
  | _ => none

def unknownRelationship (name source : String) : Error :=
  .compilation ⟨.unknownRelationship,
    "no relationship '" ++ name ++ "' on source '" ++ source ++ "'"⟩

end Error

end RelQuery
