/-!
# Identifiers

A plain identifier is an ASCII letter or an underscore followed by ASCII letters, digits and
underscores. The keys of a join condition are identifiers qualified by the side they belong to.
-/

namespace RelQuery

set_option autoImplicit false

def isIdentStart (c : Char) : Bool := c.isAlpha || c == '_'

def isIdentRest (c : Char) : Bool := c.isAlphanum || c == '_'

def isIdentifierChars : List Char → Bool
  | [] => false
  | c :: rest => isIdentStart c && rest.all isIdentRest

/-- Whether a text is an identifier, from its first character to its last. -/
def isIdentifier (name : String) : Bool := isIdentifierChars name.toList

/-- The two sides of a join condition: the related source and the declaring one. -/
inductive Side where
  | foreign
  | self
deriving DecidableEq, Repr

def Side.label : Side → String
  | .foreign => "foreign"
  | .self => "self"

def Side.qualify (side : Side) (column : String) : String := side.label ++ "." ++ column

/-- What follows `head` in `cs`, when `cs` starts with it. -/
def afterHead? : List Char → List Char → Option (List Char)
  | [], cs => some cs
  | _ :: _, [] => none
  | h :: head, c :: cs => if h = c then afterHead? head cs else none

def Side.column? (side : Side) (key : String) : Option String :=
  match afterHead? (side.label.toList ++ ['.']) key.toList with
  | some column => if isIdentifierChars column then some (String.ofList column) else none
  | none => none

def splitKey? (key : String) : Option (Side × String) :=
  match Side.foreign.column? key with
  | some column => some (.foreign, column)
  | none => (Side.self.column? key).map (Side.self, ·)

theorem isIdentStart_isIdentRest {c : Char} (h : isIdentStart c = true) : isIdentRest c = true := by
  simp only [isIdentStart, isIdentRest, Char.isAlphanum, Bool.or_eq_true] at *
  rcases h with h | h
  · exact .inl (.inl h)
  · exact .inr h

@[simp] theorem afterHead?_append (head cs : List Char) :
    afterHead? head (head ++ cs) = some cs := by
  induction head with
  | nil => simp [afterHead?]
  | cons h head ih => simp [afterHead?, ih]

theorem afterHead?_eq_some {head cs rest : List Char} (h : afterHead? head cs = some rest) :
    cs = head ++ rest := by
  induction head generalizing cs with
  | nil => simpa [afterHead?] using h
  | cons a head ih =>
    cases cs with
    | nil => simp [afterHead?] at h
    | cons c cs =>
      by_cases hc : a = c
      · simp only [afterHead?, if_pos hc] at h
        simp [hc, ih h]
      · simp [afterHead?, hc] at h

end RelQuery
