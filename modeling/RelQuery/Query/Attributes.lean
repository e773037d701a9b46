import RelQuery.JoinTree
import RelQuery.OrderTerm

/-!
# Attributes

What a query asks for beyond its conditions, and how later attributes are merged over earlier ones:
a new selection replaces the old one, `plus` lists are appended, joins are united, and anything
else is replaced where it is given.
-/

namespace RelQuery

set_option autoImplicit false

inductive Origin (σ : Type) where
  | raw (sql : String) (values : List Value)
  | subselect (inner : σ)

/-- The attributes of a query; `σ` is the type of sub-selects. -/
structure Attributes (σ : Type) where
  columns : Option (List String) := none
  plusColumns : List String := []
  select : Option (List Expr) := none
  selectAs : Option (List String) := none
  plusSelect : List Expr := []
  plusAs : List String := []
  join : JoinTree := .none
  orderBy : Option (List OrderTerm) := none
  groupBy : Option (List Expr) := none
  having : Option Expr := none
  limit : Option UInt64 := none
  offset : Option UInt64 := none
  rows : Option UInt64 := none
  /-- The number of the page, counted from 1. -/
  page : Option UInt64 := none
  distinct : Option Bool := none
  origin : Option (Origin σ) := none

structure Window where
  limit : Option UInt64
  offset : Option UInt64
deriving DecidableEq

def Origin.map {σ τ : Type} (f : σ → τ) : Origin σ → Origin τ
  | .raw sql values => .raw sql values
  | .subselect inner => .subselect (f inner)

def Origin.subselect? {σ : Type} : Origin σ → Option σ
  | .raw _ _ => none
  | .subselect inner => some inner

def word? (n : Nat) : Option UInt64 := if n < UInt64.size then some n.toUInt64 else none

theorem word?_of_lt {n : Nat} (h : n < UInt64.size) : word? n = some n.toUInt64 := if_pos h

theorem word?_of_le {n : Nat} (h : UInt64.size ≤ n) : word? n = none := if_neg (Nat.not_lt.mpr h)

def checkedMul (m n : UInt64) : Option UInt64 := word? (m.toNat * n.toNat)

def checkedAdd (m n : UInt64) : Option UInt64 := word? (m.toNat + n.toNat)

namespace Attributes

variable {σ τ : Type}

def map (f : σ → τ) (a : Attributes σ) : Attributes τ :=
  { a with origin := a.origin.map (Origin.map f) }

def selects (a : Attributes σ) : Bool := a.columns.isSome || a.select.isSome

/-- The selection of `new` in place of that of `old`, without inherited `plus` lists. -/
def reselect (old new : Attributes σ) : Attributes σ :=
  { old with
    columns := new.columns
    select := new.select
    selectAs := new.selectAs
    plusColumns := []
    plusSelect := []
    plusAs := [] }

def merge (old new : Attributes σ) : Attributes σ :=
  let base := if new.selects then old.reselect new else old
  { base with
    plusColumns := base.plusColumns ++ new.plusColumns
    plusSelect := base.plusSelect ++ new.plusSelect
    plusAs := base.plusAs ++ new.plusAs
    join := old.join.merge new.join
    orderBy := new.orderBy.or old.orderBy
    groupBy := new.groupBy.or old.groupBy
    having := new.having.or old.having
    limit := new.limit.or old.limit
    offset := new.offset.or old.offset
    rows := new.rows.or old.rows
    page := new.page.or old.page
    distinct := new.distinct.or old.distinct
    origin := new.origin.or old.origin }

def isDistinct (a : Attributes σ) : Bool := a.distinct = some true

/-- Whether the attributes narrow or regroup the rows, so that a join on them needs a derived
table. -/
def restrictsRows (a : Attributes σ) : Bool :=
  a.rows.isSome || a.limit.isSome || a.offset.isSome || a.groupBy.isSome || a.having.isSome ||
    a.isDistinct || a.origin.isSome

/-- The number of the page that is asked for. Pages are counted from 1, and 0 stands for 1. -/
def pageNumber (a : Attributes σ) : UInt64 := max (a.page.getD 1) 1

def skipped (a : Attributes σ) (rows : UInt64) : Nat :=
  ((max (a.page.getD 1) 1).toNat - 1) * rows.toNat + (a.offset.getD 0).toNat

def skip? (a : Attributes σ) (rows : UInt64) : Option UInt64 :=
  (checkedMul (a.pageNumber - 1) rows).bind fun n => checkedAdd n (a.offset.getD 0)

def pageOverflow (a : Attributes σ) (rows : UInt64) : Error :=
  .compilation ⟨.invalidWindow,
    "page " ++ toString a.pageNumber.toNat ++ " of " ++ toString rows.toNat ++
      " rows overflows the offset"⟩

/-- The bounds on the rows. A page stands for the rows behind those in front of it, whose number
must fit in 64 bits; the page counts only together with `rows`. -/
def window (a : Attributes σ) : Except Error Window :=
  match a.rows with
  | none => .ok ⟨a.limit, a.offset⟩
  | some rows =>
    match a.skip? rows with
    | some n => .ok ⟨some rows, if 0 < n then some n else none⟩
    | none => .error (a.pageOverflow rows)

theorem one_le_pageNumber (a : Attributes σ) : 1 ≤ a.pageNumber := by
  change 1 ≤ if a.page.getD 1 ≤ 1 then 1 else a.page.getD 1
  split
  · exact UInt64.le_refl 1
  · rename_i h
    exact UInt64.le_of_lt (UInt64.not_le.mp h)

theorem skip?_eq (a : Attributes σ) (rows : UInt64) : a.skip? rows = word? (a.skipped rows) := by
  have hpage : (a.pageNumber - 1).toNat = (max (a.page.getD 1) 1).toNat - 1 :=
    UInt64.toNat_sub_of_le _ _ a.one_le_pageNumber
  unfold skip? skipped checkedMul checkedAdd
  rw [hpage]
  generalize ((max (a.page.getD 1) 1).toNat - 1) * rows.toNat = before
  by_cases h : before < UInt64.size
  · rw [word?_of_lt h, Option.bind_some, UInt64.toNat_ofNat_of_lt' h]
  · have hsum : UInt64.size ≤ before + (a.offset.getD 0).toNat := by omega
    rw [word?_of_le (Nat.le_of_not_lt h), word?_of_le hsum, Option.bind_none]

end Attributes

end RelQuery
