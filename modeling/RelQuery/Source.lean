import RelQuery.Relationship.Basic
import RelQuery.Error

/-!
# Sources

Named tables with their columns, primary keys and relationships.
-/

namespace RelQuery

set_option autoImplicit false

def checkIdentifier (what name : String) : Except ConfigurationError Unit :=
  if isIdentifier name then .ok () else .error (.invalidIdentifier what name)

structure Source where
  name : String
  table : String
  className : Option String
  columns : List String
  primaryKey : List String
  relationships : List Relationship

namespace Source

def named (name : String) : Source := ⟨name, name, none, [], [], []⟩

def appendNew (names : List String) (name : String) : List String :=
  if names.contains name then names else names ++ [name]

/-- Appends columns; one that is there already is left where it is. -/
def addColumns (columns : List String) (s : Source) : Source :=
  { s with columns := columns.foldl appendNew s.columns }

/-- The name that naming conventions go by: that of the class, or else that of the source. -/
def declaringName (s : Source) : String := s.className.getD s.name

def hasColumn (s : Source) (column : String) : Bool := s.columns.contains column

def relationship? (s : Source) (name : String) : Option Relationship :=
  s.relationships.find? (·.name = name)

def cascadingDeletes (s : Source) : List Relationship := s.relationships.filter (·.cascadeDelete)

def cascadingCopies (s : Source) : List Relationship := s.relationships.filter (·.cascadeCopy)

def soleKey? (s : Source) : Option String :=
  match s.primaryKey with
  | [key] => some key
  | _ => none

def ambiguousKey (s : Source) : ConfigurationError :=
  .onSource s.name
    ⟨.ambiguousPrimaryKey,
      "ambiguous primary key, explicit condition required ('" ++ s.name ++ "' has " ++
        toString s.primaryKey.length ++ " primary key columns)", none, none⟩

def soleKey (s : Source) : Except ConfigurationError String :=
  match s.soleKey? with
  | some key => .ok key
  | none => .error s.ambiguousKey

def validate (s : Source) : Except ConfigurationError Unit := do
  checkIdentifier "source" s.name
  s.columns.forM (checkIdentifier "column")
  match s.primaryKey.find? (!s.hasColumn ·) with
  | none => .ok ()
  | some key =>
    .error (.onSource s.name
      ⟨.unknownColumn, "primary key column '" ++ key ++ "' is not a declared column", none, none⟩)

def addRelationship (r : Relationship) (s : Source) : Except ConfigurationError Source :=
  match s.relationship? r.name with
  | none => .ok { s with relationships := s.relationships ++ [r] }
  | some _ =>
    .error (.onRelationship r.name (.onSource s.name
      ⟨.duplicateRelationship, "relationship already declared", none, none⟩))

end Source

end RelQuery
