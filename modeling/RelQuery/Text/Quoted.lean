/-!
# Quoted names

A quoted name stands between two quote characters, and a quote character inside it is written
twice. Reading a quoted name back stops at the first quote that is not doubled.
-/

namespace RelQuery

set_option autoImplicit false

/-- The body of a quoted name: each quote character is written twice. -/
def doubleQuotes (quote : Char) (cs : List Char) : List Char :=
  cs.flatMap fun c => if c = quote then [c, c] else [c]

def quoteWith (quote : Char) (name : String) : String :=
  String.ofList (quote :: doubleQuotes quote name.toList ++ [quote])

/-- Reads the body of a quoted name up to its closing quote: the name and the text behind it. -/
def readBody (quote : Char) : List Char → Option (List Char × List Char)
  | [] => none
  | [c] => if c = quote then some ([], []) else none
  | c :: d :: cs =>
    if c ≠ quote then (readBody quote (d :: cs)).map fun (name, rest) => (c :: name, rest)
    else if d = quote then (readBody quote cs).map fun (name, rest) => (quote :: name, rest)
    else some ([], d :: cs)

def readQuoted (quote : Char) : List Char → Option (String × List Char)
  | [] => none
  | c :: cs =>
    if c = quote then (readBody quote cs).map fun (name, rest) => (String.ofList name, rest)
    else none

theorem doubleQuotes_cons (quote c : Char) (cs : List Char) :
    doubleQuotes quote (c :: cs) =
      (if c = quote then [c, c] else [c]) ++ doubleQuotes quote cs := rfl

@[simp] theorem quoteWith_toList (quote : Char) (name : String) :
    (quoteWith quote name).toList = quote :: doubleQuotes quote name.toList ++ [quote] := by
  simp [quoteWith]

theorem readBody_of_ne {quote c : Char} (h : c ≠ quote) (cs : List Char) :
    readBody quote (c :: cs) = (readBody quote cs).map fun (name, rest) => (c :: name, rest) := by
  cases cs with
  | nil => simp [readBody, h]
  | cons d cs => rw [readBody, if_pos h]

theorem readBody_doubled (quote : Char) (cs : List Char) :
    readBody quote (quote :: quote :: cs) =
      (readBody quote cs).map fun (name, rest) => (quote :: name, rest) := by
  simp [readBody]

theorem readBody_closing {quote : Char} {rest : List Char} (h : rest.head? ≠ some quote) :
    readBody quote (quote :: rest) = some ([], rest) := by
  cases rest with
  | nil => simp [readBody]
  | cons d rest =>
    have hd : d ≠ quote := by simpa using h
    simp [readBody, hd]

end RelQuery
