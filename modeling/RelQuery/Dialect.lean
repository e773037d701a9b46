import RelQuery.Text.Quoted

/-!
# Dialects and styles

The SQL dialects: how a placeholder is written, how an identifier is quoted, and whether there is a
case-insensitive match. A style is a dialect with the choice whether identifiers are quoted.
-/

namespace RelQuery

set_option autoImplicit false

inductive Dialect where
  | postgres
  | sqlite
  | mysql
deriving DecidableEq, Repr, Inhabited

namespace Dialect

/-- The placeholder of the bind at a position counted from 1. -/
def placeholder : Dialect → Nat → String
  | .postgres, n => "$" ++ toString n
  | .sqlite, n => "?" ++ toString n
  | .mysql, _ => "?"

def quoteChar : Dialect → Char
  | .mysql => '\x60'
  | .postgres | .sqlite => '"'

def quoteIdentifier (d : Dialect) (name : String) : String := quoteWith d.quoteChar name

def supportsIlike : Dialect → Bool
  | .postgres => true
  | .sqlite | .mysql => false

def name : Dialect → String
  | .postgres => "postgres"
  | .sqlite => "sqlite"
  | .mysql => "mysql"

def ofName? (name : String) : Option Dialect :=
  [Dialect.postgres, .sqlite, .mysql].find? (·.name = name)

end Dialect

structure Style where
  dialect : Dialect := .postgres
  quote : Bool := false
deriving DecidableEq, Repr

namespace Style

def ident (s : Style) (name : String) : String :=
  if s.quote then s.dialect.quoteIdentifier name else name

def qualified (s : Style) (owner column : String) : String :=
  s.ident owner ++ "." ++ s.ident column

end Style

end RelQuery
