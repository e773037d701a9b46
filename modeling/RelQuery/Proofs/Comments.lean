import Mathlib.Data.List.Infix
import RelQuery.Proofs.ReadBack
import RelQuery.Proofs.TextReader

/-!
# Comment openers

Where the text of an expression without raw parts would start a comment. All names in it are
identifiers and every binary operator stands between blanks, so that only minus signs can meet: one
is written in front of an operand whose text starts with another one.
-/

namespace RelQuery

set_option autoImplicit false

open Fragment (ofText sql_append sql_ofText)

/-- What a text contains that starts a comment in SQL: two minus signs, or a slash and a star. -/
def OpensComment (s : String) : Prop := "--".toList <:+: s.toList ∨ "/*".toList <:+: s.toList

theorem pair_infix_append {a b : Char} {xs ys : List Char} :
    [a, b] <:+: xs ++ ys ↔
      [a, b] <:+: xs ∨ [a, b] <:+: ys ∨ xs.getLast? = some a ∧ ys.head? = some b := by
  rw [List.infix_append_iff]
  constructor
  · rintro (h | h | ⟨front, behind, heq, hfront, hbehind⟩)
    · exact .inl h
    · exact .inr (.inl h)
    · rcases front with _ | ⟨c, _ | ⟨d, front⟩⟩
      · rw [List.nil_append] at heq
        rw [heq]
        exact .inr (.inl hbehind.isInfix)
      · obtain ⟨rfl, rfl⟩ := List.cons.inj heq
        obtain ⟨xs, rfl⟩ := hfront
        obtain ⟨ys, rfl⟩ := hbehind
        exact .inr (.inr ⟨by simp, by simp⟩)
      · obtain ⟨rfl, hrest⟩ := List.cons.inj heq
        obtain ⟨rfl, hnone⟩ := List.cons.inj hrest
        obtain ⟨rfl, _⟩ := List.append_eq_nil_iff.mp hnone.symm
        exact .inl hfront.isInfix
  · rintro (h | h | ⟨hlast, hhead⟩)
    · exact .inl h
    · exact .inr (.inl h)
    · obtain ⟨xs, rfl⟩ := List.getLast?_eq_some_iff.mp hlast
      obtain ⟨ys, rfl⟩ := List.head?_eq_some_iff.mp hhead
      exact .inr (.inr ⟨[a], [b], rfl, List.suffix_append _ _, List.prefix_append [b] ys⟩)

/-- A text beside which other text can stand. It starts with a minus or not, and two minus signs
meet in it or not. -/
structure Dashes (opens meets : Bool) (cs : List Char) : Prop where
  nonempty : cs ≠ []
  opens_iff : cs.head? = some '-' ↔ opens = true
  not_star : cs.head? ≠ some '*'
  last_ne_minus : cs.getLast? ≠ some '-'
  last_ne_slash : cs.getLast? ≠ some '/'
  meets_iff : ['-', '-'] <:+: cs ↔ meets = true
  no_slash_star : ¬['/', '*'] <:+: cs

section Texts

variable {opens meets opens' meets' : Bool} {xs ys : List Char}

theorem Dashes.append (hx : Dashes opens meets xs) (hy : Dashes opens' meets' ys) :
    Dashes opens (meets || meets') (xs ++ ys) := by
  have hhead : (xs ++ ys).head? = xs.head? := List.head?_append_of_ne_nil xs hx.nonempty
  have hlast := List.getLast?_append_of_ne_nil xs hy.nonempty
  refine ⟨List.append_ne_nil_of_left_ne_nil hx.nonempty ys, ?_, ?_, ?_, ?_, ?_, ?_⟩
  · rw [hhead]
    exact hx.opens_iff
  · rw [hhead]
    exact hx.not_star
  · rw [hlast]
    exact hy.last_ne_minus
  · rw [hlast]
    exact hy.last_ne_slash
  · rw [pair_infix_append, hx.meets_iff, hy.meets_iff, Bool.or_eq_true]
    simp [hx.last_ne_minus]
  · rw [pair_infix_append]
    simp [hx.no_slash_star, hy.no_slash_star, hx.last_ne_slash]

theorem Dashes.minus (h : Dashes opens meets xs) : Dashes true (meets || opens) ('-' :: xs) := by
  have hlast := List.getLast?_append_of_ne_nil ['-'] h.nonempty
  have hpair (a b : Char) : [a, b] <:+: '-' :: xs ↔
      [a, b] <:+: ['-'] ∨ [a, b] <:+: xs ∨ ['-'].getLast? = some a ∧ xs.head? = some b :=
    show [a, b] <:+: ['-'] ++ xs ↔ _ from pair_infix_append
  rw [List.singleton_append] at hlast
  refine ⟨List.cons_ne_nil _ _, by simp, by simp, ?_, ?_, ?_, ?_⟩
  · rw [hlast]
    exact h.last_ne_minus
  · rw [hlast]
    exact h.last_ne_slash
  · have hsingle : ¬['-', '-'] <:+: ['-'] := by decide
    rw [hpair, h.meets_iff, Bool.or_eq_true, ← h.opens_iff]
    simp [hsingle]
  · have hsingle : ¬['/', '*'] <:+: ['-'] := by decide
    rw [hpair]
    simp [hsingle, h.no_slash_star]

/-- A character that is no part of a comment opener. -/
def isCalm (c : Char) : Bool := c != '-' && c != '/' && c != '*'

theorem ne_of_isCalm {c : Char} (h : isCalm c = true) : c ≠ '-' ∧ c ≠ '/' ∧ c ≠ '*' := by
  simpa [isCalm, and_assoc] using h

def Calm (cs : List Char) : Prop := cs ≠ [] ∧ ∀ c ∈ cs, isCalm c = true

instance (cs : List Char) : Decidable (Calm cs) :=
  decidable_of_iff (cs ≠ [] ∧ cs.all isCalm = true) (and_congr_right fun _ => List.all_eq_true)

theorem Calm.append (hx : Calm xs) (hy : Calm ys) : Calm (xs ++ ys) :=
  ⟨List.append_ne_nil_of_left_ne_nil hx.1 ys, List.forall_mem_append.mpr ⟨hx.2, hy.2⟩⟩

theorem Calm.dashes (h : Calm xs) : Dashes false false xs := by
  obtain ⟨hne, h⟩ := h
  have hminus : '-' ∉ xs := fun hmem => (ne_of_isCalm (h _ hmem)).1 rfl
  have hslash : '/' ∉ xs := fun hmem => (ne_of_isCalm (h _ hmem)).2.1 rfl
  have hstar : '*' ∉ xs := fun hmem => (ne_of_isCalm (h _ hmem)).2.2 rfl
  refine ⟨hne, ?_, ?_, ?_, ?_, ?_, ?_⟩
  · exact iff_of_false (fun hhead => hminus (List.mem_of_head? hhead)) Bool.false_ne_true
  · exact fun hhead => hstar (List.mem_of_head? hhead)
  · exact fun hlast => hminus (List.mem_of_getLast? hlast)
  · exact fun hlast => hslash (List.mem_of_getLast? hlast)
  · exact iff_of_false (fun hmeet => hminus (hmeet.subset List.mem_cons_self)) Bool.false_ne_true
  · exact fun hmeet => hslash (hmeet.subset List.mem_cons_self)

theorem isCalm_of_isIdentRest {c : Char} (h : isIdentRest c = true) : isCalm c = true := by
  by_contra hc
  have hcases : c = '-' ∨ c = '/' ∨ c = '*' := by
    by_contra hnone
    rw [not_or, not_or] at hnone
    simp [isCalm, hnone] at hc
  rcases hcases with rfl | rfl | rfl <;> exact absurd h (by decide)

theorem calm_of_isIdentifier {name : String} (h : isIdentifier name = true) :
    Calm name.toList := by
  constructor
  · intro hnil
    rw [isIdentifier, hnil] at h
    exact absurd h (by decide)
  · exact fun c hc => isCalm_of_isIdentRest (TextReader.isIdentRest_of_isIdentifier h c hc)

theorem calm_ident (style : Style) {name : String} (h : isIdentifier name = true) :
    Calm (style.ident name).toList := by
  obtain ⟨hne, hname⟩ := calm_of_isIdentifier h
  have hquote : isCalm style.dialect.quoteChar = true := by cases style.dialect <;> rfl
  unfold Style.ident
  split
  · unfold Dialect.quoteIdentifier
    rw [quoteWith_toList]
    have hbody : ∀ c ∈ doubleQuotes style.dialect.quoteChar name.toList, isCalm c = true := by
      intro c hc
      obtain ⟨a, ha, hc⟩ := List.mem_flatMap.mp hc
      have hsame : c = a := by
        split at hc
        · simpa using hc
        · simpa using hc
      rw [hsame]
      exact hname a ha
    refine ⟨by simp, List.forall_mem_append.mpr ⟨List.forall_mem_cons.mpr ⟨hquote, hbody⟩, ?_⟩⟩
    exact List.forall_mem_singleton.mpr hquote
  · exact ⟨hne, hname⟩

theorem calm_qualified (style : Style) {owner column : String}
    (howner : isIdentifier owner = true) (hcolumn : isIdentifier column = true) :
    Calm (style.qualified owner column).toList := by
  have hdot : Calm ".".toList := by decide
  unfold Style.qualified
  rw [String.toList_append, String.toList_append]
  exact ((calm_ident style howner).append hdot).append (calm_ident style hcolumn)

theorem calm_placeholder (d : Dialect) (n : Nat) : Calm (d.placeholder n).toList := by
  have hdigits : ∀ c ∈ (toString n).toList, isCalm c = true := by
    intro c hc
    rw [Nat.toString_eq_ofList_toDigits, String.toList_ofList] at hc
    have hdigit : c.isDigit = true := Nat.isDigit_of_mem_toDigits (by decide) (by decide) hc
    apply isCalm_of_isIdentRest
    simp [isIdentRest, Char.isAlphanum, hdigit]
  have hmark {mark : Char} (hcalm : isCalm mark = true) : Calm (mark :: (toString n).toList) :=
    ⟨List.cons_ne_nil _ _, List.forall_mem_cons.mpr ⟨hcalm, hdigits⟩⟩
  cases d with
  | postgres =>
    rw [Dialect.placeholder, String.toList_append]
    exact hmark rfl
  | sqlite =>
    rw [Dialect.placeholder, String.toList_append]
    exact hmark rfl
  | mysql =>
    rw [Dialect.placeholder]
    decide

theorem dashes_symbol (op : BinaryOp) : Dashes false false (" " ++ op.symbol ++ " ").toList := by
  cases op <;> constructor <;> decide

end Texts

namespace Fragment

def Dashed (opens meets : Bool) (f : Fragment) : Prop :=
  ∀ n, Dashes opens meets (f.sql n).toList

variable {opens meets opens' meets' : Bool} {f g : Fragment}

theorem Dashed.append (hf : f.Dashed opens meets) (hg : g.Dashed opens' meets') :
    (f ++ g).Dashed opens (meets || meets') := by
  intro n
  rw [sql_append, String.toList_append]
  exact (hf n).append (hg _)

theorem dashed_ofText {s : String} (h : Dashes opens meets s.toList) :
    (ofText s).Dashed opens meets := by
  intro n
  rw [sql_ofText]
  exact h

theorem dashed_bind (d : Dialect) (v : Value) : Dashed false false [.bind d v] := by
  intro n
  have hsql : sql n [.bind d v] = d.placeholder (n + 1) := by simp [sql]
  rw [hsql]
  exact (calm_placeholder d _).dashes

theorem Dashed.text (hf : f.Dashed opens meets) {s : String} (h : Calm s.toList) :
    (f ++ ofText s).Dashed opens meets := by
  have happend := hf.append (dashed_ofText h.dashes)
  rwa [Bool.or_false] at happend

theorem Dashed.behind (hf : f.Dashed opens meets) {s : String} (h : Calm s.toList) :
    (ofText s ++ f).Dashed false meets := by
  have happend := (dashed_ofText h.dashes).append hf
  rwa [Bool.false_or] at happend

theorem Dashed.paren (hf : f.Dashed opens meets) : f.paren.Dashed false meets :=
  (hf.behind (by decide)).text (by decide)

theorem Dashed.minus (hf : f.Dashed opens meets) :
    (ofText "-" ++ f).Dashed true (meets || opens) := by
  intro n
  rw [sql_append, sql_ofText, String.toList_append]
  exact (hf _).minus

end Fragment

structure Scope.WellNamed (scope : Scope) : Prop where
  root : isIdentifier scope.root = true
  renames : ∀ p ∈ scope.renames, isIdentifier p.2 = true

theorem Scope.WellNamed.resolve {scope : Scope} (h : scope.WellNamed) {table : Option String}
    (htable : ∀ name ∈ table, isIdentifier name = true) :
    isIdentifier (scope.resolve table) = true := by
  cases table with
  | none => exact h.root
  | some q =>
    unfold Scope.resolve
    dsimp only
    split
    · exact h.root
    · cases hlookup : scope.renames.lookup q with
      | none => exact htable q rfl
      | some name =>
        obtain ⟨before, after, hrenames, _⟩ := List.lookup_eq_some_iff.mp hlookup
        exact h.renames (q, name) (by simp [hrenames])

namespace Expr

open Fragment (Dashed)

/-- The expressions without raw parts all of whose names are identifiers. -/
inductive Named : Expr → Prop where
  | column {table : Option String} {name : String}
    (qualifier : ∀ q ∈ table, isIdentifier q = true) (identifier : isIdentifier name = true) :
    Named (.column table name)
  | literal (v : Value) : Named (.literal v)
  | binary (op : BinaryOp) {left right : Expr} (hleft : Named left) (hright : Named right) :
    Named (.binary op left right)
  | unary (op : UnaryOp) {operand : Expr} (h : Named operand) : Named (.unary op operand)
  | call {function : String} {args : List Expr} (identifier : isIdentifier function = true)
    (hargs : ∀ e ∈ args, Named e) : Named (.call function args)
  | isIn {operand : Expr} {values : List Expr} (negated : Bool) (h : Named operand)
    (hvalues : ∀ e ∈ values, Named e) : Named (.isIn operand values negated)
  | between {operand low high : Expr} (negated : Bool) (h : Named operand) (hlow : Named low)
    (hhigh : Named high) : Named (.between operand low high negated)
  | isNull {operand : Expr} (negated : Bool) (h : Named operand) : Named (.isNull operand negated)
  | like {operand : Expr} (pattern : String) (negated caseless : Bool) (h : Named operand) :
    Named (.like operand pattern negated caseless)
  | paren {inner : Expr} (h : Named inner) : Named (.paren inner)
  | countStar : Named .countStar

/-- Whether the text of an expression starts with a minus: that of a negation, of what starts with
an operand that does, unless the operand stands in parentheses or in a function. -/
def startsWithMinus (d : Dialect) : Expr → Bool
  | .unary .neg _ => true
  | .binary op left _ =>
    !(op == .concat && d == .mysql) && decide (op.precedence ≤ left.level) &&
      left.startsWithMinus d
  | .isIn operand _ _ => operand.startsWithMinus d
  | .between operand _ _ _ => operand.startsWithMinus d
  | .isNull operand _ => operand.startsWithMinus d
  | .like operand _ _ caseless => (!caseless || d.supportsIlike) && operand.startsWithMinus d
  | _ => false

mutual

/-- Whether something in an expression is negated whose own text starts with a minus. Binary
operations are in parentheses when they are negated. -/
def stacksMinus (d : Dialect) : Expr → Bool
  | .column _ _ | .literal _ | .raw _ _ | .countStar => false
  | .binary _ left right => left.stacksMinus d || right.stacksMinus d
  | .unary .not operand => operand.stacksMinus d
  | .unary .neg operand =>
    operand.stacksMinus d ||
      (decide (unaryPrecedence ≤ operand.level) && operand.startsWithMinus d)
  | .call _ args => listStacksMinus d args
  | .isIn operand values _ => operand.stacksMinus d || listStacksMinus d values
  | .between operand low high _ =>
    operand.stacksMinus d || low.stacksMinus d || high.stacksMinus d
  | .isNull operand _ => operand.stacksMinus d
  | .like operand _ _ _ => operand.stacksMinus d
  | .paren inner => inner.stacksMinus d

def listStacksMinus (d : Dialect) : List Expr → Bool
  | [] => false
  | e :: rest => e.stacksMinus d || listStacksMinus d rest

end

variable {style : Style} {scope : Scope} {d : Dialect}

theorem dashed_grouped {opens meets : Bool} {f : Fragment} (h : f.Dashed opens meets)
    {parent : Nat} (hparent : parent ≤ unaryPrecedence) (e : Expr) :
    (grouped parent e f).Dashed (decide (parent ≤ e.level) && opens) meets := by
  by_cases hlevel : parent ≤ e.level
  · rw [grouped_of_le_level hlevel, decide_eq_true hlevel, Bool.true_and]
    exact h
  · rw [decide_eq_false hlevel, Bool.false_and]
    cases e with
    | binary op left right =>
      have hloose : op.precedence < parent := Nat.not_le.mp hlevel
      rw [grouped, if_pos hloose]
      exact h.paren
    | _ => exact absurd hparent hlevel

theorem dashed_append_join {es : List Expr} {opens meets : Bool} {f : Fragment}
    (h : ∀ e ∈ es, (e.fragment style scope).Dashed (e.startsWithMinus d) (e.stacksMinus d))
    (hf : f.Dashed opens meets) :
    (f ++ Fragment.join ", " (fragments style scope es)).Dashed opens
      (meets || listStacksMinus d es) := by
  induction es generalizing f meets with
  | nil =>
    rw [fragments, Fragment.join, List.append_nil, listStacksMinus, Bool.or_false]
    exact hf
  | cons e es ih =>
    obtain ⟨hfirst, hrest⟩ := List.forall_mem_cons.mp h
    have hboth := hf.append hfirst
    cases es with
    | nil =>
      rw [fragments, fragments, Fragment.join, listStacksMinus, listStacksMinus, Bool.or_false]
      exact hboth
    | cons e' es =>
      have hnext := ih hrest (hboth.text (s := ", ") (by decide))
      rw [listStacksMinus, ← Bool.or_assoc]
      rw [fragments, fragments, Fragment.join, ← fragments, ← List.append_assoc,
        ← List.append_assoc]
      · exact hnext
      · simp

theorem dashed_fragment_binary (op : BinaryOp) {opens opens' meets meets' : Bool}
    {left right : Expr} (hleft : (left.fragment style scope).Dashed opens meets)
    (hright : (right.fragment style scope).Dashed opens' meets') :
    ((binary op left right).fragment style scope).Dashed
      (!(op == .concat && style.dialect == .mysql) && decide (op.precedence ≤ left.level) && opens)
      (meets || meets') := by
  have hbound : op.precedence + 1 ≤ unaryPrecedence := op.precedence_lt_unary
  have lhs := dashed_grouped hleft (Nat.le_of_succ_le hbound) left
  have rhs := dashed_grouped hright hbound right
  by_cases hconcat : op = .concat ∧ style.dialect = .mysql
  · obtain ⟨rfl, hdialect⟩ := hconcat
    have hargs := ((lhs.behind (s := "CONCAT(") (by decide)).text (s := ", ") (by decide)).append
      rhs
    simp only [fragment, hdialect]
    exact hargs.text (by decide)
  · have htext : (binary op left right).fragment style scope =
        grouped op.precedence left (left.fragment style scope) ++ ofText (" " ++ op.symbol ++ " ") ++
          grouped (op.precedence + 1) right (right.fragment style scope) := by
      simp only [fragment]
      split
      · rename_i hdialect
        exact absurd ⟨rfl, hdialect⟩ hconcat
      · rfl
    have hplain : (op == .concat && style.dialect == .mysql) = false := by
      simpa using hconcat
    have hsymbol := lhs.append (Fragment.dashed_ofText (dashes_symbol op))
    rw [Bool.or_false] at hsymbol
    rw [htext, hplain, Bool.not_false, Bool.true_and]
    exact hsymbol.append rhs

theorem dashed_fragment_like {opens meets : Bool} {operand : Expr}
    (h : (operand.fragment style scope).Dashed opens meets) (pattern : String)
    (negated caseless : Bool) :
    ((like operand pattern negated caseless).fragment style scope).Dashed
      ((!caseless || style.dialect.supportsIlike) && opens) meets := by
  have hpattern := Fragment.dashed_bind style.dialect (.text pattern)
  have hword {word : String} (calm : Calm word.toList) :
      (operand.fragment style scope ++ ofText word ++
        [Piece.bind style.dialect (.text pattern)]).Dashed opens meets := by
    have happend := (h.text calm).append hpattern
    rwa [Bool.or_false] at happend
  simp only [fragment]
  cases caseless with
  | false => exact hword (by cases negated <;> decide)
  | true =>
    cases hilike : style.dialect.supportsIlike with
    | true => exact hword (by cases negated <;> decide)
    | false =>
      have hlower := ((h.behind (s := "LOWER(") (by decide)).text
        (s := ") " ++ notWord negated ++ "LIKE LOWER(") (by cases negated <;> decide)).append
        hpattern
      rw [Bool.or_false] at hlower
      exact hlower.text (by decide)

/-- Two minus signs meet in the text of an expression just where a minus is put in front of what
starts with one. -/
theorem dashed_fragment {e : Expr} (named : e.Named) (wellNamed : scope.WellNamed) :
    (e.fragment style scope).Dashed (e.startsWithMinus style.dialect)
      (e.stacksMinus style.dialect) := by
  induction named with
  | column qualifier identifier =>
    exact Fragment.dashed_ofText
      (calm_qualified style (wellNamed.resolve qualifier) identifier).dashes
  | literal v => exact Fragment.dashed_bind style.dialect v
  | binary op _ _ ihleft ihright => exact dashed_fragment_binary op ihleft ihright
  | @unary op operand _ ih =>
    have hoperand := dashed_grouped ih (Nat.le_refl _) operand
    cases op with
    | not => exact hoperand.behind (by decide)
    | neg => exact hoperand.minus
  | @call function args identifier _ ih =>
    have hopen : Calm (function ++ "(").toList := by
      rw [String.toList_append]
      exact (calm_of_isIdentifier identifier).append (by decide)
    have hargs := dashed_append_join ih (Fragment.dashed_ofText hopen.dashes)
    rw [Bool.false_or] at hargs
    exact hargs.text (by decide)
  | isIn negated _ _ ih ihvalues =>
    have hlist := dashed_append_join ihvalues (ih.text (s := " " ++ notWord negated ++ "IN (")
      (by cases negated <;> decide))
    exact hlist.text (by decide)
  | between negated _ _ _ ih ihlow ihhigh =>
    have hlow := (ih.text (s := " " ++ notWord negated ++ "BETWEEN ")
      (by cases negated <;> decide)).append ihlow
    exact (hlow.text (s := " AND ") (by decide)).append ihhigh
  | isNull negated _ ih => exact ih.text (by cases negated <;> decide)
  | like pattern negated caseless _ ih => exact dashed_fragment_like ih pattern negated caseless
  | paren _ ih => exact ih.paren
  | countStar =>
    have htext : Dashes false false "COUNT(*)".toList := by constructor <;> decide
    exact Fragment.dashed_ofText htext

/-- The text of an expression starts a comment just where a minus is put in front of what starts
with one, and a slash and a star never meet in it. -/
theorem opensComment_write_iff {e : Expr} (named : e.Named) (wellNamed : scope.WellNamed)
    (style : Style) (params : List Value) :
    (OpensComment ((e.fragment style scope).write params).1 ↔
      e.stacksMinus style.dialect = true) ∧
    ¬"/*".toList <:+: ((e.fragment style scope).write params).1.toList := by
  have hdashed : (e.fragment style scope).Dashed (e.startsWithMinus style.dialect)
      (e.stacksMinus style.dialect) := dashed_fragment named wellNamed
  have h := hdashed params.length
  refine ⟨?_, h.no_slash_star⟩
  constructor
  · rintro (hdashes | hslash)
    · exact h.meets_iff.mp hdashes
    · exact absurd hslash h.no_slash_star
  · exact fun hstacks => .inl (h.meets_iff.mpr hstacks)

end Expr

namespace Library

open RelQuery.Expr (Named)

def negatedYears : Expr :=
  .binary .sub (.unary .neg (.column none "died"))
    (.unary .neg (.binary .add (.unary .neg (.column (some "writer") "born")) (.literal (.int 1))))

def authorScope : Scope := ⟨"author", [("writer", "writer_2")]⟩

theorem opensComment_write_iff_negatedYears :
    negatedYears.Named ∧ authorScope.WellNamed ∧
      ((negatedYears.fragment ⟨.sqlite, true⟩ authorScope).write [.null]).1 =
        "-\"author\".\"died\" - -(-\"writer_2\".\"born\" + ?2)" ∧
      ¬OpensComment ((negatedYears.fragment ⟨.sqlite, true⟩ authorScope).write [.null]).1 := by
  have hwriter : ∀ q ∈ some "writer", isIdentifier q = true := by
    intro q hq
    cases hq
    rfl
  have named : negatedYears.Named :=
    .binary _ (.unary _ (.column nofun rfl))
      (.unary _ (.binary _ (.unary _ (.column hwriter rfl)) (.literal _)))
  have wellNamed : authorScope.WellNamed :=
    ⟨rfl, List.forall_mem_singleton.mpr (show isIdentifier "writer_2" = true from rfl)⟩
  obtain ⟨hiff, _⟩ := Expr.opensComment_write_iff named wellNamed ⟨.sqlite, true⟩ [.null]
  have hapart : ¬negatedYears.stacksMinus .sqlite = true := by decide
  exact ⟨named, wellNamed, by rfl, fun hopens => hapart (hiff.mp hopens)⟩

def negatedTwice : Expr := .unary .neg (.unary .neg (.column none "a"))

/-- What stands behind a negation of a negation is a comment. -/
theorem opensComment_negatedTwice :
    negatedTwice.Named ∧ Scope.top.WellNamed ∧
      (negatedTwice.fragment {} Scope.top).write [] = ("--me.a", []) ∧
      OpensComment ((negatedTwice.fragment {} Scope.top).write []).1 := by
  have wellNamed : Scope.top.WellNamed := ⟨rfl, fun _ hp => absurd hp List.not_mem_nil⟩
  have hopens : OpensComment "--me.a" := .inl ⟨[], "me.a".toList, rfl⟩
  exact ⟨.unary _ (.unary _ (.column nofun rfl)), wellNamed, rfl, hopens⟩

end Library

end RelQuery
