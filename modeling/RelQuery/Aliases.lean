/-!
# Scopes and aliases

What the qualifiers of column references stand for at one level of a statement, and the table
aliases of the whole statement. A wanted name that is taken gets the least free number from 2 on,
and a relationship joined twice from one parent keeps its alias.
-/

namespace RelQuery

set_option autoImplicit false

def rootAlias : String := "me"

/-- The root alias of a level, and the aliases of its joined relationships by name. -/
structure Scope where
  root : String
  renames : List (String × String) := []
deriving DecidableEq, Repr

namespace Scope

def ofRoot (root : String) : Scope := ⟨root, []⟩

def top : Scope := ofRoot rootAlias

def rename (s : Scope) (qualifier name : String) : Scope :=
  match s.renames.lookup qualifier with
  | some _ => s
  | none => { s with renames := s.renames ++ [(qualifier, name)] }

/-- The alias of a qualifier. No qualifier, and that of the root, stand for the root of the level;
a qualifier that is not mapped stands for itself. -/
def resolve (s : Scope) : Option String → String
  | none => s.root
  | some q => if q = rootAlias then s.root else (s.renames.lookup q).getD q

@[simp] theorem resolve_none (s : Scope) : s.resolve none = s.root := rfl

@[simp] theorem resolve_rootAlias (s : Scope) : s.resolve (some rootAlias) = s.root := by
  simp [resolve]

end Scope

structure Aliases where
  used : List String
  joined : List ((String × String) × String)
deriving DecidableEq, Repr

namespace Aliases

def start : Aliases := ⟨[rootAlias], []⟩

def candidate (base : String) : Nat → String
  | 0 => base
  | n + 1 => base ++ "_" ++ toString (n + 2)

/-- The first candidate that is not in use. One candidate more than there are names in use is
enough. -/
def firstFree (used : List String) (base : String) : String :=
  (((List.range (used.length + 1)).map (candidate base)).find? (!used.contains ·)).getD base

def reserve (t : Aliases) (base : String) : String × Aliases :=
  let name := firstFree t.used base
  (name, { t with used := t.used ++ [name] })

def get? (t : Aliases) (parent relationship : String) : Option String :=
  t.joined.lookup (parent, relationship)

/-- The alias of a relationship joined from a parent alias, whether it is new, and the aliases
afterwards. -/
def join (t : Aliases) (parent relationship : String) : String × Bool × Aliases :=
  match t.get? parent relationship with
  | some name => (name, false, t)
  | none =>
    let (name, t) := t.reserve relationship
    (name, true, { t with joined := t.joined ++ [((parent, relationship), name)] })

def size (t : Aliases) : Nat := t.used.length

end Aliases

end RelQuery
