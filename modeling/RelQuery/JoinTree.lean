/-!
# Join trees

The relationships to join, as an ordered forest of names. The union of two forests keeps the order
of the first and appends what is new in the second.
-/

namespace RelQuery

set_option autoImplicit false

/-- An ordered forest of relationship names: no relationship, or one with the joins below it and
its later siblings. -/
inductive JoinTree where
  | none
  | join (name : String) (below rest : JoinTree)
deriving DecidableEq, Repr

namespace JoinTree

def isEmpty : JoinTree → Bool
  | .none => true
  | .join .. => false

def children : JoinTree → List (String × JoinTree)
  | .none => []
  | .join name below rest => (name, below) :: children rest

/-- Changes the joins below a relationship by `f`; a relationship that is not there is appended
with `fresh` below it. -/
def update (t : JoinTree) (name : String) (f : JoinTree → JoinTree) (fresh : JoinTree) :
    JoinTree :=
  match t with
  | .none => .join name fresh .none
  | .join other below rest =>
    if other = name then .join other (f below) rest
    else .join other below (rest.update name f fresh)

def merge (a : JoinTree) : JoinTree → JoinTree
  | .none => a
  | .join name below rest => merge (a.update name (fun old => merge old below) below) rest

def addNames : List String → JoinTree → JoinTree
  | [], t => t
  | name :: names, t => t.update name (addNames names) (addNames names .none)

def namesOf (path : String) : List String :=
  ((path.toList.splitOn '.').filter (!·.isEmpty)).map String.ofList

def addPath (t : JoinTree) (path : String) : JoinTree := addNames (namesOf path) t

def ofPaths (paths : List String) : JoinTree := paths.foldl addPath .none

def nest (t : JoinTree) (name : String) (below : JoinTree) : JoinTree :=
  t.merge (.join name below .none)

def pathsFrom (above : List String) : JoinTree → List (List String)
  | .none => []
  | .join name below rest =>
    (above ++ [name]) :: (pathsFrom (above ++ [name]) below ++ pathsFrom above rest)

def names (t : JoinTree) : List (List String) := t.pathsFrom []

/-- The dotted form of a path. Empty names in front of it leave no dot. -/
def dotted (path : List String) : String :=
  String.intercalate "." (path.dropWhile String.isEmpty)

def paths (t : JoinTree) : List String := t.names.map dotted

@[simp] theorem merge_none (a : JoinTree) : a.merge .none = a := rfl

end JoinTree

end RelQuery
