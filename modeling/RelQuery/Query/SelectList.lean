import RelQuery.Query.Basic
import RelQuery.Row
import RelQuery.Text.Identifier

/-!
# Select lists

The entries of a statement's select list with their result names. An entry has a short form: a text
that is a column name where it looks like one, and SQL otherwise.
-/

namespace RelQuery

set_option autoImplicit false

def looksLikeColumn (s : String) : Bool :=
  let parts := s.toList.splitOn '.'
  parts.length ≤ 2 && parts.all isIdentifierChars

def Expr.ofItem (s : String) : Expr := if looksLikeColumn s then .col s else .raw s []

structure SelectEntry where
  expr : Expr
  name : String

/-- The result name of a column: its own name where it belongs to the root, and otherwise its name
behind the qualifier. -/
def Expr.resultName? : Expr → Option String
  | .column none name => some name
  | .column (some table) name =>
    some (if table = rootAlias then name else table ++ "." ++ name)
  | _ => none

namespace SelectEntry

def ofColumn (name : String) : SelectEntry :=
  let expr := Expr.col name
  ⟨expr, expr.resultName?.getD name⟩

def mismatch (message : String) : Error :=
  .configuration ⟨.selectAsMismatch, message, none, none⟩

/-- Pairs expressions with names; `mark` stands in front of both attributes in the error text. -/
def paired (mark : String) (exprs : List Expr) (names : List String) :
    Except Error (List SelectEntry) :=
  if exprs.length = names.length then .ok (exprs.zipWith SelectEntry.mk names)
  else
    .error (mismatch (mark ++ "select has " ++ toString exprs.length ++ " entries but " ++ mark ++
      "as has " ++ toString names.length))

/-- Entries without names of their own, the first of them at position `i` counted from 1. Each must
be a column. -/
def unnamed (i : Nat) : List Expr → Except Error (List SelectEntry)
  | [] => .ok []
  | e :: rest =>
    match e.resultName? with
    | some name => (unnamed (i + 1) rest).map (⟨e, name⟩ :: ·)
    | none =>
      .error (mismatch ("select entry " ++ toString i ++ " is not a column and has no as name"))

end SelectEntry

namespace Attributes

variable {σ : Type}

/-- The entries of `columns`, or those of the source when nothing else is selected. -/
def columnEntries (a : Attributes σ) (declared : List String) : List SelectEntry :=
  match a.columns, a.select with
  | some columns, _ => columns.map SelectEntry.ofColumn
  | none, some _ => []
  | none, none => declared.map SelectEntry.ofColumn

def selectEntries (a : Attributes σ) : Except Error (List SelectEntry) :=
  match a.select, a.selectAs with
  | none, _ => .ok []
  | some exprs, some names => SelectEntry.paired "" exprs names
  | some exprs, none => SelectEntry.unnamed 1 exprs

/-- All entries: the columns, the selected expressions, and then the appended ones. -/
def selectList (a : Attributes σ) (declared : List String) : Except Error (List SelectEntry) := do
  let selected ← a.selectEntries
  let appended ← SelectEntry.paired "+" a.plusSelect a.plusAs
  return a.columnEntries declared ++ selected ++ a.plusColumns.map SelectEntry.ofColumn ++ appended

end Attributes

def Query.selectList {σ : Type} (q : Query σ) : Except Error (List SelectEntry) :=
  q.attrs.selectList q.source.columns

def Projection.ofEntries (entries : List SelectEntry) : Projection := ⟨entries.map (·.name)⟩

end RelQuery
