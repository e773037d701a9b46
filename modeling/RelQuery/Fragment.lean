import RelQuery.Dialect
import RelQuery.Value.Basic

/-!
# Fragments

A piece of SQL text with the values bound in it, in textual order. A fragment does not know how
many values are bound before it: placeholders get their numbers when the whole statement is
written, so that a fragment means the same wherever it is placed.

In raw text, which the caller supplies, a `?` outside of single quotes stands for the next value. A
`?` without a value is kept, and values without a `?` travel behind the text.
-/

namespace RelQuery

set_option autoImplicit false

inductive Piece where
  | text (s : String)
  | bind (dialect : Dialect) (v : Value)
  /-- A value that no placeholder stands for. -/
  | silent (v : Value)

abbrev Fragment := List Piece

def Piece.value? : Piece → Option Value
  | .text _ => none
  | .bind _ v => some v
  | .silent v => some v

namespace Fragment

def ofText (s : String) : Fragment := [.text s]

def binds (f : Fragment) : List Value := f.filterMap Piece.value?

/-- The text, with placeholders numbered behind `before` values. -/
def sql (before : Nat) : Fragment → String
  | [] => ""
  | .text s :: rest => s ++ sql before rest
  | .bind d _ :: rest => d.placeholder (before + 1) ++ sql (before + 1) rest
  | .silent _ :: rest => sql (before + 1) rest

/-- Writes a fragment behind the values already bound: its text, and all values with its own
appended. -/
def write (params : List Value) (f : Fragment) : String × List Value :=
  (f.sql params.length, params ++ f.binds)

def paren (f : Fragment) : Fragment := ofText "(" ++ f ++ ofText ")"

def join (separator : String) : List Fragment → Fragment
  | [] => []
  | [f] => f
  | f :: rest => f ++ ofText separator ++ join separator rest

@[simp] theorem binds_nil : binds [] = [] := rfl

@[simp] theorem binds_text_cons (s : String) (f : Fragment) :
    binds (.text s :: f) = binds f := by
  simp [binds, List.filterMap_cons, Piece.value?]

@[simp] theorem binds_bind_cons (d : Dialect) (v : Value) (f : Fragment) :
    binds (.bind d v :: f) = v :: binds f := by
  simp [binds, Piece.value?]

@[simp] theorem binds_silent_cons (v : Value) (f : Fragment) :
    binds (.silent v :: f) = v :: binds f := by
  simp [binds, Piece.value?]

@[simp] theorem binds_ofText (s : String) : (ofText s).binds = [] := rfl

@[simp] theorem binds_append (f g : Fragment) : binds (f ++ g) = f.binds ++ g.binds := by
  simp [binds]

@[simp] theorem binds_paren (f : Fragment) : f.paren.binds = f.binds := by
  simp [paren]

theorem sql_append (n : Nat) (f g : Fragment) :
    sql n (f ++ g) = f.sql n ++ g.sql (n + f.binds.length) := by
  induction f generalizing n with
  | nil => simp [sql]
  | cons p f ih =>
    cases p with
    | text s => simp [sql, ih, String.append_assoc]
    | bind d v => simp [sql, ih, String.append_assoc, Nat.add_assoc, Nat.add_comm 1]
    | silent v => simp [sql, ih, Nat.add_assoc, Nat.add_comm 1]

@[simp] theorem sql_ofText (n : Nat) (s : String) : (ofText s).sql n = s := by
  simp [ofText, sql]

theorem sql_paren (n : Nat) (f : Fragment) : f.paren.sql n = "(" ++ f.sql n ++ ")" := by
  simp [paren, sql_append, String.append_assoc]

/-- The pieces of raw text; `quoted` tells whether it starts inside a string literal. -/
def rawFrom (dialect : Dialect) (quoted : Bool) : List Char → List Value → Fragment
  | [], values => values.map .silent
  | c :: cs, values =>
    if c = '\'' then .text "'" :: rawFrom dialect (!quoted) cs values
    else match quoted, c, values with
      | false, '?', v :: values => .bind dialect v :: rawFrom dialect quoted cs values
      | _, _, values => .text (String.singleton c) :: rawFrom dialect quoted cs values

def raw (dialect : Dialect) (sql : String) (values : List Value) : Fragment :=
  rawFrom dialect false sql.toList values

theorem binds_rawFrom (dialect : Dialect) (quoted : Bool) (cs : List Char) (values : List Value) :
    (rawFrom dialect quoted cs values).binds = values := by
  induction cs generalizing quoted values with
  | nil =>
    simp only [rawFrom]
    induction values with
    | nil => rfl
    | cons v values ih => simp [ih]
  | cons c cs ih =>
    simp only [rawFrom]
    split
    · simp [ih]
    · split <;> simp [ih]

@[simp] theorem binds_raw (dialect : Dialect) (sql : String) (values : List Value) :
    (raw dialect sql values).binds = values := binds_rawFrom dialect false sql.toList values

end Fragment

end RelQuery
