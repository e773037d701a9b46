import RelQuery.Expr.Render

/-!
# Order terms

The terms of an ORDER BY clause, and their short form as a text such as `year DESC`. The text is
trimmed by the Unicode property `White_Space`.
-/

namespace RelQuery

set_option autoImplicit false

/-- The code points with the `White_Space` property. -/
def isBlank (c : Char) : Bool :=
  let n := c.toNat
  (0x9 ≤ n && n ≤ 0xD) || n == 0x20 || n == 0x85 || n == 0xA0 || n == 0x1680 ||
    (0x2000 ≤ n && n ≤ 0x200A) || n == 0x2028 || n == 0x2029 || n == 0x202F || n == 0x205F ||
    n == 0x3000

def trimStart (cs : List Char) : List Char := cs.dropWhile isBlank

def trimEnd (cs : List Char) : List Char := (cs.reverse.dropWhile isBlank).reverse

def trimBlank (cs : List Char) : List Char := trimEnd (trimStart cs)

/-- Splits at the last blank, which belongs to neither part. -/
def splitLastBlank? (cs : List Char) : Option (List Char × List Char) :=
  let reversed := cs.reverse
  let word := reversed.takeWhile (!isBlank ·)
  match reversed.dropWhile (!isBlank ·) with
  | [] => none
  | _ :: before => some (before.reverse, word.reverse)

inductive Direction where
  | ascending
  | descending
deriving DecidableEq, Repr

inductive NullsPlace where
  | first
  | last
deriving DecidableEq, Repr

structure OrderTerm where
  expr : Expr
  direction : Direction := .ascending
  nulls : Option NullsPlace := none

def Direction.keyword : Direction → String
  | .ascending => "ASC"
  | .descending => "DESC"

def NullsPlace.keyword : NullsPlace → String
  | .first => "NULLS FIRST"
  | .last => "NULLS LAST"

def Direction.ofWord? (word : List Char) : Option Direction :=
  if word.map Char.toLower = ['d', 'e', 's', 'c'] then some .descending
  else if word.map Char.toLower = ['a', 's', 'c'] then some .ascending
  else none

namespace OrderTerm

def byColumn (name : String) (direction : Direction) : OrderTerm := ⟨Expr.col name, direction, none⟩

def ofText (text : String) : OrderTerm :=
  let trimmed := trimBlank text.toList
  let whole := byColumn (String.ofList trimmed) .ascending
  match splitLastBlank? trimmed with
  | none => whole
  | some (column, word) =>
    match Direction.ofWord? word with
    | some direction => byColumn (String.ofList (trimEnd column)) direction
    | none => whole

def fragment (style : Style) (scope : Scope) (t : OrderTerm) : Fragment :=
  let nulls := match t.nulls with
    | some place => " " ++ place.keyword
    | none => ""
  t.expr.fragment style scope ++ Fragment.ofText (" " ++ t.direction.keyword ++ nulls)

end OrderTerm

end RelQuery
