import RelQuery.Proofs.Climbing
import RelQuery.Proofs.ExprValues
import RelQuery.Text.Identifier

/-!
# Reading expressions from characters

A reader that goes by every character, blanks included: NOT in front of a blank is an operator, and
in front of a parenthesis it is a function. NOT binds less than comparisons and more than AND, and
predicates bind like comparisons; everything is read to the left. A column is a dot with its name.
-/

namespace RelQuery

set_option autoImplicit false

/-- How strongly a binary operator binds. Between AND and the comparisons there is place for NOT. -/
def BinaryOp.level (op : BinaryOp) : Nat :=
  if op.precedence < 3 then op.precedence else op.precedence + 1

def likeText (negated caseless : Bool) : String :=
  " " ++ Expr.notWord negated ++ (if caseless then "ILIKE " else "LIKE ")

inductive Joint where
  | binary (op : BinaryOp)
  | isNull (negated : Bool)
  | isIn (negated : Bool)
  | between (negated : Bool)
  | like (negated caseless : Bool)

namespace Joint

def text : Joint → String
  | .binary op => " " ++ op.symbol ++ " "
  | .isNull negated => " IS " ++ Expr.notWord negated ++ "NULL"
  | .isIn negated => " " ++ Expr.notWord negated ++ "IN ("
  | .between negated => " " ++ Expr.notWord negated ++ "BETWEEN "
  | .like negated caseless => likeText negated caseless

def level : Joint → Nat
  | .binary op => op.level
  | _ => 4

def all : List Joint :=
  BinaryOp.all.map .binary ++ [.isNull false, .isNull true, .isIn false, .isIn true,
    .between false, .between true, .like false false, .like false true, .like true false,
    .like true true]

end Joint

/-- The joint that a text starts with, and the text behind it. No joint starts with another one. -/
def joint? (cs : List Char) : Option (Joint × List Char) :=
  Joint.all.findSome? fun j => (afterHead? j.text.toList cs).map (j, ·)

theorem joint?_text (j : Joint) (rest : List Char) :
    joint? (j.text.toList ++ rest) = some (j, rest) := by
  cases j with
  | binary op => cases op <;> rfl
  | isNull negated => cases negated <;> rfl
  | isIn negated => cases negated <;> rfl
  | between negated => cases negated <;> rfl
  | like negated caseless => cases negated <;> cases caseless <;> rfl

theorem Joint.exists_text (j : Joint) : ∃ a b cs, j.text.toList = ' ' :: a :: b :: cs := by
  cases j with
  | binary op => cases op <;> exact ⟨_, _, _, rfl⟩
  | isNull negated => cases negated <;> exact ⟨_, _, _, rfl⟩
  | isIn negated => cases negated <;> exact ⟨_, _, _, rfl⟩
  | between negated => cases negated <;> exact ⟨_, _, _, rfl⟩
  | like negated caseless => cases negated <;> cases caseless <;> exact ⟨_, _, _, rfl⟩

theorem Joint.level_bounds (j : Joint) : j.level ≤ 6 ∧ j.level ≠ 3 := by
  have hpredicate : 4 ≤ 6 ∧ 4 ≠ 3 := by decide
  cases j with
  | binary op => cases op <;> decide
  | _ => exact hpredicate

namespace TextReader

def placeholder (binds : List Value) (cs : List Char) : Option (Value × List Char) :=
  match Nat.ofDigitChars 10 (cs.takeWhile Char.isDigit) 0 with
  | 0 => none
  | n + 1 => binds[n]?.map (·, cs.dropWhile Char.isDigit)

def pattern (binds : List Value) (negated caseless : Bool) (left : Expr) (cs : List Char) :
    Option (Expr × List Char) :=
  match left, afterHead? "LOWER(".toList cs with
  | .call _ [inner], some cs => do
    match ← placeholder binds cs.tail with
    | (.text p, cs) => some (.like inner p negated true, cs.tail)
    | _ => none
  | _, _ => do
    match ← placeholder binds cs.tail with
    | (.text p, cs) => some (.like left p negated caseless, cs)
    | _ => none

mutual

/-- Reads an expression whose joints bind at least as strongly as `level`, and leaves the text
behind it. Every step takes from the first number, which bounds the depth. -/
def climb (binds : List Value) : Nat → Nat → List Char → Option (Expr × List Char)
  | 0, _, _ => none
  | n + 1, level, cs => do
    let (left, cs) ← operand binds n cs
    extend binds n level left cs

def extend (binds : List Value) : Nat → Nat → Expr → List Char → Option (Expr × List Char)
  | 0, _, _, _ => none
  | n + 1, level, left, cs =>
    match joint? cs with
    | none => some (left, cs)
    | some (j, rest) =>
      if j.level < level then some (left, cs)
      else do
        let (e, cs) ← complete binds n left rest j
        extend binds n level e cs

def complete (binds : List Value) : Nat → Expr → List Char → Joint → Option (Expr × List Char)
  | 0, _, _, _ => none
  | n + 1, left, cs, .binary op => do
    let (right, cs) ← climb binds n (op.level + 1) cs
    return (.binary op left right, cs)
  | _ + 1, left, cs, .isNull negated => some (.isNull left negated, cs)
  | n + 1, left, cs, .isIn negated => do
    let (values, cs) ← items binds n cs
    return (.isIn left values negated, cs)
  | n + 1, left, cs, .between negated => do
    let (low, cs) ← climb binds n 3 cs
    let cs ← afterHead? " AND ".toList cs
    let (high, cs) ← climb binds n 5 cs
    return (.between left low high negated, cs)
  | _ + 1, left, cs, .like negated caseless => pattern binds negated caseless left cs

def operand (binds : List Value) : Nat → List Char → Option (Expr × List Char)
  | 0, _ => none
  | n + 1, cs =>
    match cs.takeWhile isIdentRest, cs.dropWhile isIdentRest with
    | [], '-' :: cs => do
      let (e, cs) ← climb binds n 7 cs
      return (.unary .neg e, cs)
    | [], '(' :: cs => do
      match ← climb binds n 0 cs with
      | (e, ')' :: cs) => some (e, cs)
      | _ => none
    | [], '.' :: cs =>
      some (.column none (String.ofList (cs.takeWhile isIdentRest)), cs.dropWhile isIdentRest)
    | [], '$' :: cs | [], '?' :: cs => do
      let (v, cs) ← placeholder binds cs
      return (.literal v, cs)
    | _ :: _, ' ' :: cs => do
      let (e, cs) ← climb binds n 3 cs
      return (.unary .not e, cs)
    | c :: word, '(' :: cs =>
      match afterHead? "*)".toList cs with
      | some cs => some (.countStar, cs)
      | none => do
        let (args, cs) ← items binds n cs
        return (.call (String.ofList (c :: word)) args, cs)
    | _, _ => none

def items (binds : List Value) : Nat → List Char → Option (List Expr × List Char)
  | 0, _ => none
  | n + 1, cs =>
    match climb binds n 0 cs with
    | some (e, ')' :: cs) => some ([e], cs)
    | some (e, ',' :: ' ' :: cs) => do
      let (es, cs) ← items binds n cs
      return (e :: es, cs)
    | some _ => none
    | none => (afterHead? [')'] cs).map ([], ·)

end

def read (binds : List Value) (cs : List Char) : Option Expr :=
  match climb binds (3 * cs.length + 1) 0 cs with
  | some (e, []) => some e
  | _ => none

/-- What can stand behind an expression: a joint, a comma, a parenthesis or nothing. -/
def Closes (rest : List Char) : Prop := ∀ c ∈ rest.head?, c = ' ' ∨ c = ',' ∨ c = ')'

variable {binds : List Value} {cs ls rs rest : List Char} {e left right : Expr} {level other : Nat}

theorem Closes.not_identRest (h : Closes rest) : ∀ c ∈ rest.head?, isIdentRest c = false := by
  intro c hc
  rcases h c hc with rfl | rfl | rfl <;> rfl

theorem closes_cons {c : Char} (hc : c = ' ' ∨ c = ',' ∨ c = ')') : Closes (c :: rest) := by
  intro a ha
  cases ha
  exact hc

theorem closes_joint (j : Joint) (rest : List Char) : Closes (j.text.toList ++ rest) := by
  obtain ⟨a, b, cs, htext⟩ := j.exists_text
  rw [htext]
  exact closes_cons (.inl rfl)

theorem isIdentRest_of_isIdentifier {name : String} (h : isIdentifier name = true) :
    ∀ c ∈ name.toList, isIdentRest c = true := by
  unfold isIdentifier at h
  cases hname : name.toList with
  | nil => exact fun _ hc => absurd hc List.not_mem_nil
  | cons c cs =>
    rw [hname] at h
    obtain ⟨hc, hcs⟩ := Bool.and_eq_true_iff.mp h
    exact List.forall_mem_cons.mpr ⟨isIdentStart_isIdentRest hc, List.all_eq_true.mp hcs⟩

theorem takeWhile_append_of_head {p : Char → Bool} (hall : ∀ c ∈ cs, p c = true)
    (hrest : ∀ c ∈ rest.head?, p c = false) :
    (cs ++ rest).takeWhile p = cs ∧ (cs ++ rest).dropWhile p = rest := by
  rw [List.takeWhile_append_of_pos hall, List.dropWhile_append_of_pos hall]
  cases rest with
  | nil => simp
  | cons c rest =>
    have hc := hrest c rfl
    simp [hc]

theorem operand_paren (binds : List Value) (n : Nat) (cs : List Char) :
    operand binds (n + 1) ('(' :: cs) = (do
      match ← climb binds n 0 cs with
      | (e, ')' :: cs) => some (e, cs)
      | _ => none) := rfl

def climber (binds : List Value) : Climber Char Joint where
  joint? := joint?
  level := Joint.level
  climb := climb binds
  extend := extend binds
  complete := complete binds
  operand := operand binds
  items := items binds
  opening := '('
  closing := ')'
  comma := [',', ' ']
  Closes := Closes
  climb_succ _ _ _ := rfl
  extend_succ n least left cs := by
    rw [extend]
    cases joint? cs with
    | none => rfl
    | some j => simp only [Option.bind_eq_bind]
  operand_opening h := by
    rw [operand_paren, h]
    rfl
  items_closing h := by
    rw [items, h]
    rfl
  items_comma {n _ rest _} h := by
    rw [items, h]
    cases hrest : items binds n rest with
    | none => simp [hrest]
    | some out => simp [hrest]
  comma_ne_nil := List.cons_ne_nil _ _
  closes_closing _ := closes_cons (.inr (.inr rfl))
  closes_comma _ := closes_cons (.inr (.inl rfl))
  joint?_closing _ := rfl
  joint?_comma _ := rfl

abbrev ReadsAs (binds : List Value) := (climber binds).ReadsAs

abbrev ItemsReadAs (binds : List Value) := (climber binds).ItemsReadAs

theorem ReadsAs.climb_eq {least : Nat} (h : ReadsAs binds cs level e) (rest : List Char)
    (hleast : least ≤ level) (closes : Closes rest) (hrest : ∀ j ∈ joint? rest, j.1.level < least) :
    ∀ n ≥ 2 * cs.length + 1, climb binds n least (cs ++ rest) = some (e, rest) :=
  Climber.ReadsAs.climb_eq h rest hleast closes hrest

theorem readsAs_of_operand {k : Nat} (hk : k < 2 * cs.length)
    (h : ∀ rest, Closes rest → (∀ j ∈ joint? rest, j.1.level ≤ level) →
      ∀ n ≥ k, operand binds (n + 1) (cs ++ rest) = some (e, rest)) : ReadsAs binds cs level e :=
  Climber.readsAs_of_operand hk h

theorem ReadsAs.joint {j : Joint} {word : String} (hword : j.text = word)
    (hleft : ReadsAs binds ls level left) (hlevel : j.level ≤ level)
    (h : ∀ rest, Closes rest → (∀ i ∈ joint? rest, i.1.level ≤ j.level) →
      ∀ n ≥ 2 * rs.length + 1, complete binds (n + 1) left (rs ++ rest) j = some (e, rest)) :
    ReadsAs binds (ls ++ (word.toList ++ rs)) j.level e := by
  subst hword
  have hne : j.text.toList ≠ [] := by
    obtain ⟨a, b, cs, htext⟩ := j.exists_text
    rw [htext]
    exact List.cons_ne_nil _ _
  refine Climber.ReadsAs.joint hne (joint?_text j) (closes_joint j) hleft hlevel ?_
  intro rest closes hrest n hn
  obtain ⟨n, rfl⟩ := Nat.exists_eq_add_of_le' (show 1 ≤ n by omega)
  exact h rest closes hrest n (by omega)

theorem ReadsAs.binary {op : BinaryOp} (hleft : ReadsAs binds ls level left)
    (hlevel : op.level ≤ level) (hright : ReadsAs binds rs other right)
    (hother : op.level + 1 ≤ other) :
    ReadsAs binds (ls ++ ((" " ++ op.symbol ++ " ").toList ++ rs)) op.level
      (.binary op left right) := by
  refine ReadsAs.joint (j := .binary op) rfl hleft hlevel fun rest closes hrest n hn => ?_
  have hclimb := hright.climb_eq rest hother closes fun i hi => Nat.lt_succ_of_le (hrest i hi)
  rw [complete, hclimb n (by omega)]
  rfl

theorem ReadsAs.isNull (hleft : ReadsAs binds ls level left) (hlevel : 4 ≤ level)
    (negated : Bool) :
    ReadsAs binds (ls ++ (" IS " ++ Expr.notWord negated ++ "NULL").toList) 4
      (.isNull left negated) := by
  rw [← List.append_nil (" IS " ++ Expr.notWord negated ++ "NULL").toList]
  refine ReadsAs.joint (j := .isNull negated) rfl hleft hlevel fun rest _ _ n hn => ?_
  rfl

theorem ReadsAs.between {low high : Expr} {lows highs : List Char} {lowLevel highLevel : Nat}
    (hleft : ReadsAs binds ls level left) (hlevel : 4 ≤ level)
    (hlow : ReadsAs binds lows lowLevel low) (hlowLevel : 3 ≤ lowLevel)
    (hhigh : ReadsAs binds highs highLevel high) (hhighLevel : 5 ≤ highLevel) (negated : Bool) :
    ReadsAs binds (ls ++ ((" " ++ Expr.notWord negated ++ "BETWEEN ").toList ++
      (lows ++ (" AND ".toList ++ highs)))) 4 (.between left low high negated) := by
  refine ReadsAs.joint (j := .between negated) rfl hleft hlevel fun rest closes hrest n hn => ?_
  simp only [List.length_append] at hn
  have hand := joint?_text (.binary .and) (highs ++ rest)
  have hlows := hlow.climb_eq (" AND ".toList ++ (highs ++ rest)) hlowLevel
    (closes_joint (.binary .and) _) fun i hi => by
      cases hand.symm.trans hi
      exact Nat.lt_succ_self 2
  have hhighs := hhigh.climb_eq rest hhighLevel closes fun i hi => Nat.lt_succ_of_le (hrest i hi)
  simp only [List.append_assoc, complete]
  rw [hlows n (by omega)]
  simp only [Option.bind_eq_bind, Option.bind_some, afterHead?_append]
  rw [hhighs n (by omega)]
  rfl

theorem operand_neg (binds : List Value) (n : Nat) (cs : List Char) :
    operand binds (n + 1) ('-' :: cs) = (do
      let (e, cs) ← climb binds n 7 cs
      return (.unary .neg e, cs)) := rfl

theorem operand_not (binds : List Value) (n : Nat) (cs : List Char) :
    operand binds (n + 1) ("NOT ".toList ++ cs) = (do
      let (e, cs) ← climb binds n 3 cs
      return (.unary .not e, cs)) := rfl

theorem operand_column (binds : List Value) (n : Nat) (cs : List Char) :
    operand binds (n + 1) ('.' :: cs) =
      some (.column none (String.ofList (cs.takeWhile isIdentRest)), cs.dropWhile isIdentRest) :=
  rfl

theorem operand_call {c : Char} {word : List Char} (hword : ∀ a ∈ c :: word, isIdentRest a = true)
    (binds : List Value) (n : Nat) (cs : List Char) :
    operand binds (n + 1) (c :: word ++ '(' :: cs) =
      match afterHead? "*)".toList cs with
      | some cs => some (.countStar, cs)
      | none => do
        let (args, cs) ← items binds n cs
        return (.call (String.ofList (c :: word)) args, cs) := by
  have hparen : ∀ a ∈ ('(' :: cs).head?, isIdentRest a = false := by
    rintro _ ⟨⟩
    rfl
  obtain ⟨htake, hdrop⟩ := takeWhile_append_of_head hword hparen
  rw [operand, htake, hdrop]
  rfl

theorem ReadsAs.neg (h : ReadsAs binds cs level e) (hlevel : 7 ≤ level) :
    ReadsAs binds ('-' :: cs) other (.unary .neg e) := by
  refine readsAs_of_operand (k := 2 * cs.length + 1) (by simp; omega) fun rest closes _ n hn => ?_
  have hclimb := h.climb_eq rest hlevel closes fun j _ => Nat.lt_succ_of_le j.1.level_bounds.1
  rw [List.cons_append, operand_neg, hclimb n (by omega)]
  rfl

theorem ReadsAs.not (h : ReadsAs binds cs level e) (hlevel : 3 ≤ level) :
    ReadsAs binds ("NOT ".toList ++ cs) 3 (.unary .not e) := by
  refine readsAs_of_operand (k := 2 * cs.length + 1) (by simp; omega) ?_
  intro rest closes hrest n hn
  have hclimb := h.climb_eq rest hlevel closes fun j hj =>
    Nat.lt_of_le_of_ne (hrest j hj) j.1.level_bounds.2
  rw [List.append_assoc, operand_not, hclimb n (by omega)]
  rfl

theorem readsAs_column {name : String} (h : isIdentifier name = true) :
    ReadsAs binds ('.' :: name.toList) level (.column none name) := by
  refine readsAs_of_operand (k := 0) (by simp) fun rest closes _ n hn => ?_
  obtain ⟨htake, hdrop⟩ :=
    takeWhile_append_of_head (isIdentRest_of_isIdentifier h) closes.not_identRest
  rw [List.cons_append, operand_column, htake, hdrop, String.ofList_toList]

theorem placeholder_toString {v : Value} {n : Nat} (h : [v] <+: binds.drop n)
    (closes : Closes rest) :
    placeholder binds ((toString (n + 1)).toList ++ rest) = some (v, rest) := by
  have hdigits : ∀ c ∈ Nat.toDigits 10 (n + 1), c.isDigit = true := fun _ hc =>
    Nat.isDigit_of_mem_toDigits (by decide) (by decide) hc
  obtain ⟨htake, hdrop⟩ := takeWhile_append_of_head hdigits fun c hc => by
    rcases closes c hc with rfl | rfl | rfl <;> rfl
  rw [Nat.toString_eq_ofList_toDigits, String.toList_ofList, placeholder, htake, hdrop,
    Nat.ofDigitChars_ten_toDigits]
  dsimp only
  rw [getElem?_of_prefix_drop h]
  rfl

theorem exists_mark {d : Dialect} (hd : d ≠ .mysql) (n : Nat) :
    ∃ c, (c = '$' ∨ c = '?') ∧ (d.placeholder n).toList = c :: (toString n).toList := by
  cases d with
  | postgres => exact ⟨'$', .inl rfl, String.toList_append⟩
  | sqlite => exact ⟨'?', .inr rfl, String.toList_append⟩
  | mysql => exact absurd rfl hd

theorem readsAs_literal {d : Dialect} (hd : d ≠ .mysql) {v : Value} {n : Nat}
    (h : [v] <+: binds.drop n) :
    ReadsAs binds (d.placeholder (n + 1)).toList level (.literal v) := by
  obtain ⟨c, hc, htext⟩ := exists_mark hd (n + 1)
  rw [htext]
  refine readsAs_of_operand (k := 0) (by simp) fun rest closes _ m hm => ?_
  have hvalue := placeholder_toString h closes
  have hoperand : operand binds (m + 1) (c :: ((toString (n + 1)).toList ++ rest)) = (do
      let (v, cs) ← placeholder binds ((toString (n + 1)).toList ++ rest)
      return (.literal v, cs)) := by
    rcases hc with rfl | rfl <;> rfl
  rw [List.cons_append, hoperand, hvalue]
  rfl

theorem readsAs_countStar : ReadsAs binds "COUNT(*)".toList level .countStar := by
  refine readsAs_of_operand (k := 0) (by decide) fun rest _ _ n hn => ?_
  rfl

variable {es : List Expr}

theorem climb_eq_none {c : Char} (hc : c = ')' ∨ c = '*') (n least : Nat) (cs : List Char) :
    climb binds n least (c :: cs) = none := by
  cases n with
  | zero => rfl
  | succ n =>
    have hoperand : operand binds n (c :: cs) = none := by
      cases n with
      | zero => rfl
      | succ n => rcases hc with rfl | rfl <;> rfl
    rw [climb, hoperand]
    rfl

theorem itemsReadAs_nil : ItemsReadAs binds [] [] := by
  intro rest n hn
  obtain ⟨n, rfl⟩ := Nat.exists_eq_add_of_le' (show 1 ≤ n by omega)
  change items binds (n + 1) (')' :: rest) = _
  rw [items, climb_eq_none (.inl rfl)]
  rfl

theorem ReadsAs.isIn (hleft : ReadsAs binds ls level left) (hlevel : 4 ≤ level)
    (h : ItemsReadAs binds cs es) (negated : Bool) :
    ReadsAs binds (ls ++ ((" " ++ Expr.notWord negated ++ "IN (").toList ++ (cs ++ [')']))) 4
      (.isIn left es negated) := by
  refine ReadsAs.joint (j := .isIn negated) rfl hleft hlevel fun rest _ _ n hn => ?_
  simp only [List.length_append, List.length_singleton] at hn
  have hitems : items binds n (cs ++ ')' :: rest) = some (es, rest) := h rest n (by omega)
  rw [List.append_assoc, List.singleton_append, complete, hitems]
  rfl

theorem ItemsReadAs.call (h : ItemsReadAs binds cs es) {function : String}
    (identifier : isIdentifier function = true) :
    ReadsAs binds (function.toList ++ '(' :: (cs ++ [')'])) level (.call function es) := by
  refine readsAs_of_operand (k := 2 * cs.length + 2) (by simp; omega) fun rest _ _ n hn => ?_
  have hword := isIdentRest_of_isIdentifier identifier
  have hitems : items binds n (cs ++ ')' :: rest) = some (es, rest) := h rest n hn
  have hstar : afterHead? "*)".toList (cs ++ ')' :: rest) = none := by
    cases hafter : afterHead? "*)".toList (cs ++ ')' :: rest) with
    | none => rfl
    | some behind =>
      obtain ⟨n, rfl⟩ := Nat.exists_eq_add_of_le' (show 1 ≤ n by omega)
      have hclimb : climb binds n 0 ('*' :: ')' :: behind) = none :=
        climb_eq_none (.inr rfl) n 0 _
      rw [afterHead?_eq_some hafter] at hitems
      change items binds (n + 1) ('*' :: ')' :: behind) = _ at hitems
      rw [items, hclimb] at hitems
      cases hitems
  cases hname : function.toList with
  | nil =>
    unfold isIdentifier at identifier
    rw [hname] at identifier
    cases identifier
  | cons c word =>
    rw [hname] at hword
    have hassoc : c :: word ++ '(' :: (cs ++ [')']) ++ rest =
        c :: word ++ '(' :: (cs ++ ')' :: rest) := by simp
    rw [hassoc, operand_call hword, hstar]
    dsimp only
    rw [hitems, ← hname, String.ofList_toList]
    rfl

theorem ReadsAs.like {d : Dialect} (hd : d ≠ .mysql) (hleft : ReadsAs binds ls level left)
    (hlevel : 4 ≤ level) {p : String} {n : Nat} (h : [Value.text p] <+: binds.drop n)
    (negated caseless : Bool) :
    ReadsAs binds (ls ++ ((likeText negated caseless).toList ++ (d.placeholder (n + 1)).toList)) 4
      (.like left p negated caseless) := by
  refine ReadsAs.joint (j := .like negated caseless) rfl hleft hlevel fun rest closes _ m hm => ?_
  obtain ⟨c, hc, htext⟩ := exists_mark hd (n + 1)
  rw [htext, complete]
  unfold pattern
  split
  · rename_i heq
    rcases hc with rfl | rfl <;> cases heq
  · rw [List.cons_append, List.tail_cons, placeholder_toString h closes]
    rfl

theorem ItemsReadAs.lowerLike {d : Dialect} (hd : d ≠ .mysql) (hinner : ItemsReadAs binds cs [e])
    {p : String} {n : Nat} (h : [Value.text p] <+: binds.drop n) (negated : Bool) :
    ReadsAs binds ("LOWER".toList ++ '(' :: (cs ++ [')']) ++ ((likeText negated false).toList ++
      ("LOWER(".toList ++ ((d.placeholder (n + 1)).toList ++ [')'])))) 4
        (.like e p negated true) := by
  have lower : isIdentifier "LOWER" = true := rfl
  have hleft : ReadsAs binds ("LOWER".toList ++ '(' :: (cs ++ [')'])) 4 (.call "LOWER" [e]) :=
    hinner.call lower
  refine ReadsAs.joint (j := .like negated false) rfl hleft (Nat.le_refl _) fun rest _ _ m hm => ?_
  obtain ⟨c, hc, htext⟩ := exists_mark hd (n + 1)
  have hvalue : placeholder binds ((toString (n + 1)).toList ++ ')' :: rest) =
    some (.text p, ')' :: rest) := placeholder_toString h (closes_cons (.inr (.inr rfl)))
  rw [List.append_assoc, complete]
  unfold pattern
  rw [afterHead?_append, htext]
  simp only [List.cons_append, List.append_assoc, List.nil_append, List.tail_cons]
  rw [hvalue]
  rfl

theorem read_eq_some (h : ReadsAs binds cs level e) : read binds cs = some e := by
  have hclimb := h.climb_eq [] (Nat.zero_le _) (fun _ hc => nomatch hc)
    (fun _ hj => nomatch hj) (3 * cs.length + 1) (by omega)
  rw [List.append_nil] at hclimb
  rw [read, hclimb]

end TextReader

end RelQuery
