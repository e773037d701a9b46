import RelQuery.Text.Lowercase.Table

/-!
# Lower case

Full lower-casing of a text. Every letter has a lower-case form of its own but two: `İ` becomes
`i` with a combining dot, and `Σ` becomes the final `ς` at the end of a word. A word ends at a `Σ`
that a letter precedes and none follows, looking past case-ignorable characters on both sides.
-/

namespace RelQuery

set_option autoImplicit false

/-- Whether the first character that is not case-ignorable is cased. -/
def startsCased : List Char → Bool
  | [] => false
  | c :: cs =>
    if inRanges caseIgnorableRanges c.toNat then startsCased cs
    else inRanges casedRanges c.toNat

def lowerChar (c : Char) : Char :=
  if c.toNat < 0x80 then c.toLower
  else match caseRuns.findSome? (CaseRun.lower? · c.toNat) with
    | some n => Char.ofNat n
    | none => c

/-- Lower-cases `cs`, where `before` holds the characters in front of it, nearest first. -/
def lowerAfter (before : List Char) : List Char → List Char
  | [] => []
  | c :: cs =>
    let lowered :=
      if c.toNat = 0x3A3 then
        if startsCased before && !startsCased cs then [Char.ofNat 0x3C2] else [Char.ofNat 0x3C3]
      else if c.toNat = 0x130 then ['i', Char.ofNat 0x307]
      else [lowerChar c]
    lowered ++ lowerAfter (c :: before) cs

def lowercase (s : String) : String := String.ofList (lowerAfter [] s.toList)

end RelQuery
