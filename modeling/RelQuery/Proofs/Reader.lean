import RelQuery.Proofs.Climbing
import RelQuery.Proofs.ExprValues
import RelQuery.Proofs.Tokens

/-!
# Reading expressions

A reader of expressions: precedence climbing over the tokens of a text, in which every operator
associates to the left and a numbered placeholder stands for a value. What can be read on its own
can be read as an operand, between parentheses and as an argument.
-/

namespace RelQuery

set_option autoImplicit false

def nextOp? (ts : List Token) : Option BinaryOp := ts.head?.bind Token.op?

namespace Reader

def number? (word : String) : Option Nat :=
  if word.toList.all Char.isDigit then some (Nat.ofDigitChars 10 word.toList 0) else none

def placeholder (binds : List Value) (number : String) : Option Expr :=
  match number? number with
  | some (n + 1) => binds[n]?.map .literal
  | _ => none

mutual

/-- Reads an expression of operators that bind at least as strongly as `level`, and leaves the
tokens behind it. Every step takes from the first argument, which bounds the depth. -/
def climb (binds : List Value) : Nat → Nat → List Token → Option (Expr × List Token)
  | 0, _, _ => none
  | n + 1, level, ts => do
    let (left, ts) ← operand binds n ts
    extend binds n level left ts

def extend (binds : List Value) : Nat → Nat → Expr → List Token → Option (Expr × List Token)
  | 0, _, _, _ => none
  | n + 1, level, left, ts =>
    match nextOp? ts with
    | none => some (left, ts)
    | some op =>
      if op.precedence < level then some (left, ts)
      else do
        let (right, ts) ← climb binds n (op.precedence + 1) ts.tail
        extend binds n level (.binary op left right) ts

def operand (binds : List Value) : Nat → List Token → Option (Expr × List Token)
  | 0, _ => none
  | n + 1, .mark '(' :: ts => do
    match ← climb binds n 0 ts with
    | (e, .mark ')' :: ts) => some (e, ts)
    | _ => none
  | _ + 1, .mark '$' :: .word number :: ts
  | _ + 1, .mark '?' :: .word number :: ts => (placeholder binds number).map (·, ts)
  | _ + 1, .word owner :: .mark '.' :: .word name :: ts =>
    some (.column (if owner = rootAlias then none else some owner) name, ts)
  | n + 1, .word function :: .mark '(' :: ts =>
    match ts with
    | .mark ')' :: ts => some (.call function [], ts)
    | .operator "*" :: .mark ')' :: ts => if function = "COUNT" then some (.countStar, ts) else none
    | ts => (arguments binds n ts).map fun out => (.call function out.1, out.2)
  | _ + 1, _ => none

def arguments (binds : List Value) : Nat → List Token → Option (List Expr × List Token)
  | 0, _ => none
  | n + 1, ts => do
    match ← climb binds n 0 ts with
    | (e, .mark ')' :: ts) => some ([e], ts)
    | (e, .mark ',' :: ts) => (arguments binds n ts).map fun out => (e :: out.1, out.2)
    | _ => none

end

def read (text : String) (binds : List Value) : Option Expr :=
  let ts := tokens text
  match climb binds (2 * ts.length + 1) 0 ts with
  | some (e, []) => some e
  | _ => none

def climber (binds : List Value) : Climber Token BinaryOp where
  joint? ts := (nextOp? ts).map (·, ts.tail)
  level := BinaryOp.precedence
  climb := climb binds
  extend := extend binds
  complete n left ts op :=
    (climb binds n (op.precedence + 1) ts).map fun out => (.binary op left out.1, out.2)
  operand := operand binds
  items := arguments binds
  opening := .mark '('
  closing := .mark ')'
  comma := [.mark ',']
  Closes _ := True
  climb_succ _ _ _ := rfl
  extend_succ n least left ts := by
    rw [extend]
    cases nextOp? ts with
    | none => rfl
    | some op =>
      simp only [Option.map_some, Option.bind_eq_bind]
      cases climb binds n (op.precedence + 1) ts.tail <;> rfl
  operand_opening h := by
    simp only [operand, h]
    rfl
  items_closing h := by
    rw [arguments, h]
    rfl
  items_comma h := by
    rw [arguments, h]
    rfl
  comma_ne_nil := List.cons_ne_nil _ _
  closes_closing _ := trivial
  closes_comma _ := trivial
  joint?_closing _ := rfl
  joint?_comma _ := rfl

abbrev ReadsAs (binds : List Value) := (climber binds).ReadsAs

abbrev ListReadsAs (binds : List Value) := (climber binds).ItemsReadAs

variable {binds : List Value} {ts : List Token} {e left right : Expr} {es : List Expr}
  {ls rs : List Token} {level other : Nat}

theorem readsAs_of_leaf (hne : ts ≠ [])
    (h : ∀ rest n, operand binds (n + 1) (ts ++ rest) = some (e, rest)) :
    ReadsAs binds ts level e := by
  have hlength := List.length_pos_of_ne_nil hne
  exact Climber.readsAs_of_operand (k := 0) (by omega) fun rest _ _ n _ => h rest n

theorem ReadsAs.binary {op : BinaryOp} {t : Token} (ht : t.op? = some op)
    (hleft : ReadsAs binds ls level left) (hlevel : op.precedence ≤ level)
    (hright : ReadsAs binds rs other right) (hother : op.precedence < other) :
    ReadsAs binds (ls ++ t :: rs) op.precedence (.binary op left right) := by
  have hjoint (rest : List Token) : (climber binds).joint? ([t] ++ rest) = some (op, rest) :=
    congrArg (Option.map (·, rest)) ht
  refine Climber.ReadsAs.joint (List.cons_ne_nil t []) hjoint (fun _ => trivial) hleft hlevel ?_
  intro rest closes hrest n hn
  have hclimb := hright.climb_eq rest hother closes (fun i hi => Nat.lt_succ_of_le (hrest i hi)) n
    (by omega)
  exact congrArg (Option.map _) hclimb

theorem arguments_eq_none {t : Token} (h : ∀ n, operand binds n (t :: ts) = none) (n : Nat) :
    arguments binds n (t :: ts) = none := by
  cases n with
  | zero => rfl
  | succ n =>
    have hclimb : climb binds n 0 (t :: ts) = none := by
      cases n with
      | zero => rfl
      | succ n => rw [climb, h n]; rfl
    rw [arguments, hclimb]
    rfl

theorem operand_of_arguments {n : Nat} {out : List Expr × List Token} (function : String)
    (h : arguments binds n ts = some out) :
    operand binds (n + 1) (.word function :: .mark '(' :: ts) =
      some (.call function out.1, out.2) := by
  have hts {t : Token} {ts' : List Token} (hnone : ∀ n, operand binds n (t :: ts') = none) :
      ts ≠ t :: ts' := by
    rintro rfl
    cases (arguments_eq_none hnone n).symm.trans h
  rw [operand, h]
  · rfl
  · exact fun ts' => hts fun n => by cases n <;> rfl
  · exact fun ts' => hts fun n => by cases n <;> rfl

theorem ListReadsAs.call (h : ListReadsAs binds ts es) (function : String) :
    ReadsAs binds (.word function :: .mark '(' :: (ts ++ [.mark ')'])) level
      (.call function es) := by
  refine Climber.readsAs_of_operand (k := 2 * ts.length + 2) (by simp; omega) fun rest _ _ n hn => ?_
  simp only [List.cons_append, List.append_assoc, List.nil_append]
  exact operand_of_arguments function (h rest n hn)

theorem number?_toString (n : Nat) : number? (toString n) = some n := by
  have hdigits : (Nat.toDigits 10 n).all Char.isDigit = true :=
    List.all_eq_true.mpr fun _ hc => Nat.isDigit_of_mem_toDigits (by decide) (by decide) hc
  rw [number?, Nat.toString_eq_ofList_toDigits, String.toList_ofList, if_pos hdigits,
    Nat.ofDigitChars_ten_toDigits]

theorem placeholder_toString {v : Value} {n : Nat} (h : [v] <+: binds.drop n) :
    placeholder binds (toString (n + 1)) = some (.literal v) := by
  rw [placeholder, number?_toString]
  simp [getElem?_of_prefix_drop h]

theorem read_eq_some {text : String} (h : ReadsAs binds (tokens text) level e) :
    read text binds = some e := by
  have hclimb : climb binds (2 * (tokens text).length + 1) 0 (tokens text ++ []) = some (e, []) :=
    h.climb_eq [] (Nat.zero_le _) trivial (fun _ hj => nomatch hj) _ (Nat.le_refl _)
  rw [List.append_nil] at hclimb
  simp only [read, hclimb]

end Reader

end RelQuery
