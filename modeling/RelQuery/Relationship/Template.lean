import RelQuery.Relationship.Condition

/-!
# Condition templates

Procedural conditions given as a text with marks for the aliases and the relationship.
-/

namespace RelQuery

set_option autoImplicit false

def replaceFrom (mark replacement : List Char) : Nat → List Char → List Char
  | _, [] => []
  | skipped + 1, _ :: cs => replaceFrom mark replacement skipped cs
  | 0, c :: cs =>
    if mark.isPrefixOf (c :: cs) then
      replacement ++ replaceFrom mark replacement (mark.length - 1) cs
    else c :: replaceFrom mark replacement 0 cs

def replaceMark (mark replacement text : String) : String :=
  String.ofList (replaceFrom mark.toList replacement.toList 0 text.toList)

/-- The procedure that fills in a template: first the alias of the foreign side, then that of the
own side, then the relationship. The values are the same for all aliases. -/
def Procedure.ofTemplate (template : String) (values : List Value) : Procedure := fun names =>
  let sql := replaceMark "\x7bforeign\x7d" names.foreign template
  let sql := replaceMark "\x7bself\x7d" names.own sql
  (replaceMark "\x7brel\x7d" names.relationship sql, values)

end RelQuery
