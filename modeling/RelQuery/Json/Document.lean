import RelQuery.Json.Number

/-!
# JSON texts

The syntax tree of a JSON text. Numbers keep their written form, and a string that escapes half of
a surrogate pair has no characters, so that a reader may skip what it could not read.
-/

namespace RelQuery

set_option autoImplicit false

inductive Document where
  | null
  | bool (b : Bool)
  | number (n : NumberText)
  | string (text : Option String)
  | array (items : List Document)
  | object (fields : List (Option String × Document))

namespace Document

def isSpace (c : Char) : Bool := c == ' ' || c == '\n' || c == '\t' || c == '\r'

def skip (cs : List Char) : List Char := cs.dropWhile isSpace

/-- One unit of a string: a character, or a 16-bit unit written as an escape. -/
inductive TextUnit where
  | char (c : Char)
  | code (n : Nat)

def hexDigit? (c : Char) : Option Nat :=
  if c.isDigit then some (c.toNat - '0'.toNat)
  else if 'a' ≤ c ∧ c ≤ 'f' then some (c.toNat - 'a'.toNat + 10)
  else if 'A' ≤ c ∧ c ≤ 'F' then some (c.toNat - 'A'.toNat + 10)
  else none

def hexUnit? (a b c d : Char) : Option Nat := do
  let a ← hexDigit? a
  let b ← hexDigit? b
  let c ← hexDigit? c
  let d ← hexDigit? d
  return ((a * 16 + b) * 16 + c) * 16 + d

def escaped? : Char → Option Char
  | '"' => some '"'
  | '\\' => some '\\'
  | '/' => some '/'
  | 'b' => some '\x08'
  | 'f' => some '\x0c'
  | 'n' => some '\n'
  | 'r' => some '\r'
  | 't' => some '\t'
  | _ => none

def stringUnits : List Char → Option (List TextUnit × List Char)
  | [] => none
  | '"' :: cs => some ([], cs)
  | '\\' :: 'u' :: a :: b :: c :: d :: cs =>
    match hexUnit? a b c d, stringUnits cs with
    | some n, some (units, rest) => some (.code n :: units, rest)
    | _, _ => none
  | '\\' :: c :: cs =>
    match escaped? c, stringUnits cs with
    | some e, some (units, rest) => some (.char e :: units, rest)
    | _, _ => none
  | c :: cs =>
    if c.toNat < 0x20 ∨ c = '\\' then none
    else (stringUnits cs).map fun (units, rest) => (.char c :: units, rest)

/-- The characters of a string; none when half of a surrogate pair stands alone. -/
def characters? : List TextUnit → Option (List Char)
  | [] => some []
  | .char c :: units => (characters? units).map (c :: ·)
  | .code n :: units =>
    if 0xD800 ≤ n ∧ n < 0xDC00 then
      match units with
      | .code m :: rest =>
        if 0xDC00 ≤ m ∧ m < 0xE000 then
          (characters? rest).map
            (Char.ofNat (0x10000 + (n - 0xD800) * 0x400 + (m - 0xDC00)) :: ·)
        else none
      | _ => none
    else if 0xDC00 ≤ n ∧ n < 0xE000 then none
    else (characters? units).map (Char.ofNat n :: ·)

def stringText (cs : List Char) : Option (Option String × List Char) :=
  (stringUnits cs).map fun (units, rest) => ((characters? units).map String.ofList, rest)

def digitRun (cs : List Char) : List Nat × List Char :=
  ((cs.takeWhile Char.isDigit).map fun c => c.toNat - '0'.toNat, cs.dropWhile Char.isDigit)

def digitRun? (cs : List Char) : Option (List Nat × List Char) :=
  match digitRun cs with
  | ([], _) => none
  | run => some run

def exponentPart (cs : List Char) : Option (Option (Bool × List Nat) × List Char) :=
  match cs with
  | c :: rest =>
    if c = 'e' ∨ c = 'E' then
      let (negative, rest) := match rest with
        | '+' :: rest => (false, rest)
        | '-' :: rest => (true, rest)
        | _ => (false, rest)
      (digitRun? rest).map fun (digits, rest) => (some (negative, digits), rest)
    else some (none, cs)
  | [] => some (none, cs)

def fractionPart (cs : List Char) : Option (Option (List Nat) × List Char) :=
  match cs with
  | '.' :: rest => (digitRun? rest).map fun (digits, rest) => (some digits, rest)
  | _ => some (none, cs)

def numberText (negative : Bool) (cs : List Char) : Option (NumberText × List Char) := do
  let (whole, rest) ← digitRun? cs
  if 1 < whole.length ∧ whole.head? = some 0 then none
  else
    let (fraction, rest) ← fractionPart rest
    let (exponent, rest) ← exponentPart rest
    return (⟨negative, whole, fraction, exponent⟩, rest)

mutual

/-- One value at the start of `cs`. Each nested value takes from the fuel. -/
def value : Nat → List Char → Option (Document × List Char)
  | 0, _ => none
  | fuel + 1, cs =>
    match skip cs with
    | 'n' :: 'u' :: 'l' :: 'l' :: rest => some (.null, rest)
    | 't' :: 'r' :: 'u' :: 'e' :: rest => some (.bool true, rest)
    | 'f' :: 'a' :: 'l' :: 's' :: 'e' :: rest => some (.bool false, rest)
    | '"' :: rest => (stringText rest).map fun (text, rest) => (.string text, rest)
    | '[' :: rest =>
      match skip rest with
      | ']' :: rest => some (.array [], rest)
      | rest => (items fuel rest).map fun (values, rest) => (.array values, rest)
    | '\x7b' :: rest =>
      match skip rest with
      | '\x7d' :: rest => some (.object [], rest)
      | rest => (members fuel rest).map fun (fields, rest) => (.object fields, rest)
    | '-' :: rest => (numberText true rest).map fun (n, rest) => (.number n, rest)
    | rest => (numberText false rest).map fun (n, rest) => (.number n, rest)

def items : Nat → List Char → Option (List Document × List Char)
  | 0, _ => none
  | fuel + 1, cs =>
    match value fuel cs with
    | none => none
    | some (item, rest) =>
      match skip rest with
      | ']' :: rest => some ([item], rest)
      | ',' :: rest => (items fuel rest).map fun (more, rest) => (item :: more, rest)
      | _ => none

def members : Nat → List Char → Option (List (Option String × Document) × List Char)
  | 0, _ => none
  | fuel + 1, cs =>
    match skip cs with
    | '"' :: rest =>
      match stringText rest with
      | none => none
      | some (name, rest) =>
        match skip rest with
        | ':' :: rest =>
          match value fuel rest with
          | none => none
          | some (item, rest) =>
            match skip rest with
            | '\x7d' :: rest => some ([(name, item)], rest)
            | ',' :: rest =>
              (members fuel rest).map fun (more, rest) => ((name, item) :: more, rest)
            | _ => none
        | _ => none
    | _ => none

end

/-- Parses a whole text. Between two nested values at least one character is read, so twice the
length bounds their number. -/
def parse? (text : String) : Option Document :=
  let cs := text.toList
  match value (2 * cs.length + 2) cs with
  | some (document, rest) => if skip rest = [] then some document else none
  | none => none

mutual

def depth : Document → Nat
  | .array items => depthItems items + 1
  | .object fields => depthFields fields + 1
  | _ => 0

def depthItems : List Document → Nat
  | [] => 0
  | item :: rest => max item.depth (depthItems rest)

def depthFields : List (Option String × Document) → Nat
  | [] => 0
  | (_, item) :: rest => max item.depth (depthFields rest)

end

end Document

end RelQuery
