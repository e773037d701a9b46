import RelQuery.Source
import RelQuery.Text.Lowercase

/-!
# Relationship declarations

A relationship is declared with a condition in one of several short forms, and resolved against
the declaring source and the related one.
-/

namespace RelQuery

set_option autoImplicit false

inductive ConditionForm where
  /-- Found from primary keys and naming conventions. -/
  | inferred
  | column (name : String)
  | mapping (entries : List (String × String))
  | procedural (procedure : Procedure)

/-- What a declaration says about a relationship beyond the defaults of its kind. -/
structure Overrides where
  joinType : Option JoinType := none
  accessor : Option Accessor := none
  cascadeDelete : Option Bool := none
  cascadeCopy : Option Bool := none
  isForeignKey : Option Bool := none
  noneOnNull : Option Bool := none

structure Declaration where
  kind : RelationshipKind
  name : String
  target : String
  condition : ConditionForm := .inferred
  overrides : Overrides := {}

def beforeDoubleColon : List Char → List Char
  | ':' :: ':' :: _ => []
  | c :: cs => c :: beforeDoubleColon cs
  | [] => []

def lastSegment (name : String) : String :=
  String.ofList (beforeDoubleColon name.toList.reverse).reverse

/-- The conventional foreign key to a source: its declaring name behind the last `::`, in lower
case. -/
def conventionalKey (declaringName : String) : String := lowercase (lastSegment declaringName)

def malformedCondition (message : String) : ConfigurationError :=
  ⟨.malformedCondition, message, none, none⟩

def qualifiedEntry (entry : String × String) : Except ConfigurationError ColumnPair :=
  match splitKey? entry.1, splitKey? entry.2 with
  | some (.foreign, foreign), some (.self, own) => .ok ⟨foreign, own⟩
  | _, _ =>
    .error (malformedCondition ("condition entry '" ++ entry.1 ++ " => " ++ entry.2 ++
      "' must map 'foreign.<col>' to 'self.<col>'"))

def plainEntry (entry : String × String) : Except ConfigurationError ColumnPair :=
  if isIdentifier entry.1 && isIdentifier entry.2 then .ok ⟨entry.1, entry.2⟩
  else
    .error (malformedCondition ("condition entry '" ++ entry.1 ++ " => " ++ entry.2 ++
      "' mixes qualified and unqualified names"))

/-- The pairs of a column map, all of whose entries are qualified or none. -/
def pairsOfMap (entries : List (String × String)) : Except ConfigurationError (List ColumnPair) :=
  if entries.isEmpty then .error (malformedCondition "empty join condition")
  else if entries.any (·.1.toList.contains '.') then entries.mapM qualifiedEntry
  else entries.mapM plainEntry

def Source.require (s : Source) (column : String) : Except ConfigurationError Unit :=
  if s.hasColumn column then .ok ()
  else .error
    ⟨.unknownColumn, "No such column '" ++ column ++ "' on source '" ++ s.name ++ "'", none, none⟩

def Source.requireGuess (s : Source) (column guessedFrom : String) :
    Except ConfigurationError Unit :=
  if s.hasColumn column then .ok ()
  else .error
    ⟨.unknownColumn,
      "No such column '" ++ column ++ "' on foreign source '" ++ s.name ++ "' (guessed '" ++
        column ++ "' from '" ++ guessedFrom ++ "')", none, none⟩

namespace Declaration

/-- The condition that a declaration stands for. A foreign key column, named or conventional, is
paired with the primary key of the other side. -/
def resolveCondition (d : Declaration) (declaring target : Source) :
    Except ConfigurationError JoinCondition :=
  match d.condition, d.kind with
  | .procedural procedure, _ => .ok (.procedural procedure)
  | .mapping entries, _ => do
    return .pairs (← pairsOfMap entries)
  | .inferred, .belongsTo => do
    let key ← target.soleKey
    declaring.require d.name
    return .pairs [⟨key, d.name⟩]
  | .column column, .belongsTo => do
    let key ← target.soleKey
    declaring.require column
    return .pairs [⟨key, column⟩]
  | .inferred, .hasMany => do
    let key ← declaring.soleKey
    let guess := conventionalKey declaring.declaringName
    target.requireGuess guess declaring.declaringName
    return .pairs [⟨guess, key⟩]
  | .inferred, _ => do
    let key ← declaring.soleKey
    target.requireGuess key declaring.declaringName
    return .pairs [⟨key, key⟩]
  | .column column, _ => do
    let key ← declaring.soleKey
    target.require column
    return .pairs [⟨column, key⟩]

def defaultAccessor (d : Declaration) (declaring : Source) (condition : JoinCondition) :
    Accessor :=
  match d.kind with
  | .belongsTo =>
    match condition with
    | .pairs [_] => if declaring.hasColumn d.name then .filter else .single
    | _ => .single
  | .hasMany => .multi
  | .hasOne | .mightHave => .single

def resolve (d : Declaration) (declaring target : Source) :
    Except ConfigurationError Relationship := do
  checkIdentifier "relationship" d.name
  let condition ← (d.resolveCondition declaring target).mapError fun e =>
    (e.onSource declaring.name).onRelationship d.name
  let belongs := decide (d.kind = .belongsTo)
  let cascades := !belongs && condition.isDeclarative
  return {
    name := d.name
    kind := d.kind
    target := d.target
    condition
    accessor := d.overrides.accessor.getD (d.defaultAccessor declaring condition)
    joinType := d.overrides.joinType.getD d.kind.joinType
    cascadeDelete := d.overrides.cascadeDelete.getD cascades
    cascadeCopy := d.overrides.cascadeCopy.getD cascades
    isForeignKey := d.overrides.isForeignKey.getD belongs
    noneOnNull := d.overrides.noneOnNull.getD belongs }

end Declaration

end RelQuery
