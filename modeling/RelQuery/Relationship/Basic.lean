import RelQuery.Relationship.Condition

/-!
# Relationships

The kinds of relationships with their defaults, and relationships as a source holds them.
-/

namespace RelQuery

set_option autoImplicit false

inductive JoinType where
  | inner
  | left
  | right
  | full
deriving DecidableEq, Repr

namespace JoinType

def keyword : JoinType → String
  | .inner => "JOIN"
  | .left => "LEFT JOIN"
  | .right => "RIGHT JOIN"
  | .full => "FULL JOIN"

def isOuter : JoinType → Bool
  | .left | .full => true
  | .inner | .right => false

/-- The type of a join below another one: below an outer join every join is outer. -/
def below (declared : JoinType) (outer : Bool) : JoinType :=
  if outer && !declared.isOuter then .left else declared

@[simp] theorem below_false (t : JoinType) : t.below false = t := rfl

theorem below_true_isOuter (t : JoinType) : (t.below true).isOuter = true := by cases t <;> rfl

end JoinType

inductive RelationshipKind where
  /-- Columns of the declaring source name one related row. -/
  | belongsTo
  /-- Columns of the related rows name a row of the declaring source. -/
  | hasMany
  | hasOne
  | mightHave
deriving DecidableEq, Repr

namespace RelationshipKind

def name : RelationshipKind → String
  | .belongsTo => "belongs_to"
  | .hasMany => "has_many"
  | .hasOne => "has_one"
  | .mightHave => "might_have"

def joinType : RelationshipKind → JoinType
  | .hasMany | .mightHave => .left
  | .belongsTo | .hasOne => .inner

end RelationshipKind

inductive Accessor where
  | single
  | multi
  /-- One related row, in place of the column of the same name. -/
  | filter
deriving DecidableEq, Repr

def Accessor.name : Accessor → String
  | .single => "single"
  | .multi => "multi"
  | .filter => "filter"

structure Relationship where
  name : String
  kind : RelationshipKind
  target : String
  condition : JoinCondition
  accessor : Accessor
  joinType : JoinType
  cascadeDelete : Bool
  cascadeCopy : Bool
  isForeignKey : Bool
  /-- Whether a NULL in a key column means that there is no related row. -/
  noneOnNull : Bool

end RelQuery
