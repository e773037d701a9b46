import RelQuery.Proofs.Rooting

/-!
# Grouped operands

Only binary operators are put in parentheses as operands, and only operators do it. Where every
other operand binds as strongly as its place asks, the text and the values of an expression are
those of no other one, in every style with numbered placeholders.
-/

namespace RelQuery

set_option autoImplicit false

namespace Expr

/-- How strongly an expression holds together, NOT being weaker than a predicate. -/
def strength : Expr → Nat
  | .binary op _ _ => op.level
  | .unary .not _ => 3
  | .isIn .. | .between .. | .isNull .. | .like .. => 4
  | _ => 7

/-- Fits a place beside an operator, which puts binary operations in parentheses itself. -/
def Fits (least : Nat) : Expr → Prop
  | .binary .. => True
  | e => least ≤ e.strength

def likePlace (d : Dialect) (caseless : Bool) : Nat :=
  if caseless && !d.supportsIlike then 0 else 4

mutual

/-- Every operand binds at least as strongly as its place asks, or is put in parentheses. -/
def Grouped (d : Dialect) : Expr → Prop
  | .column _ _ | .literal _ | .raw _ _ | .countStar => True
  | .binary op left right =>
    left.Grouped d ∧ right.Grouped d ∧ left.Fits op.level ∧ right.Fits (op.level + 1)
  | .unary .not operand => operand.Grouped d ∧ operand.Fits 3
  | .unary .neg operand => operand.Grouped d ∧ operand.Fits 7
  | .call _ args => listGrouped d args
  | .isIn operand values _ => operand.Grouped d ∧ 4 ≤ operand.strength ∧ listGrouped d values
  | .between operand low high _ =>
    (operand.Grouped d ∧ 4 ≤ operand.strength) ∧ (low.Grouped d ∧ 3 ≤ low.strength) ∧
      high.Grouped d ∧ 5 ≤ high.strength
  | .isNull operand _ => operand.Grouped d ∧ 4 ≤ operand.strength
  | .like operand _ _ caseless => operand.Grouped d ∧ likePlace d caseless ≤ operand.strength
  | .paren inner => inner.Grouped d

def listGrouped (d : Dialect) : List Expr → Prop
  | [] => True
  | e :: rest => e.Grouped d ∧ listGrouped d rest

end

theorem listGrouped_iff {d : Dialect} {es : List Expr} :
    listGrouped d es ↔ ∀ e ∈ es, e.Grouped d := by
  induction es with
  | nil => simp [listGrouped]
  | cons e es ih => rw [listGrouped, ih, List.forall_mem_cons]

def bareText (d : Dialect) (e : Expr) (n : Nat) : List Char :=
  ((e.fragment ⟨d, false⟩ bare).sql n).toList

section Reading

open Fragment (ofText sql_append sql_ofText sql_paren)
open TextReader

variable {binds : List Value} {d : Dialect} {e : Expr}

theorem readsAs_operand {parent least n : Nat} (f : Fragment) (fits : e.Fits least)
    (weaker : ∀ o : BinaryOp, parent ≤ o.precedence → least ≤ o.level)
    (h : ReadsAs binds (f.sql n).toList e.strength e) :
    ∃ level ≥ least, ReadsAs binds ((grouped parent e f).sql n).toList level e := by
  cases e with
  | binary op left right =>
    by_cases hloose : op.precedence < parent
    · have hparen : ((grouped parent (binary op left right) f).sql n).toList =
          '(' :: ((f.sql n).toList ++ [')']) := by
        rw [grouped, if_pos hloose, sql_paren]
        simp
      rw [hparen]
      exact ⟨least, Nat.le_refl _, h.paren⟩
    · rw [grouped, if_neg hloose]
      exact ⟨op.level, weaker op (Nat.not_lt.mp hloose), h⟩
  | _ => exact ⟨_, fits, h⟩

theorem itemsReadAs_join (es : List Expr) (n : Nat)
    (h : ∀ a ∈ es, ∀ m, a.values <+: binds.drop m → ReadsAs binds (a.bareText d m) a.strength a)
    (hbinds : listValues es <+: binds.drop n) :
    ItemsReadAs binds ((Fragment.join ", " (fragments ⟨d, false⟩ bare es)).sql n).toList es := by
  induction es generalizing n with
  | nil => exact itemsReadAs_nil
  | cons e es ih =>
    have hfirst := h e List.mem_cons_self n ((List.prefix_append _ _).trans hbinds)
    cases es with
    | nil => exact hfirst.last
    | cons e' es =>
      have hrest := ih _ (fun a ha => h a (List.mem_cons_of_mem _ ha))
        (prefix_drop_of_append hbinds)
      have htext :
          ((Fragment.join ", " (fragments ⟨d, false⟩ bare (e :: e' :: es))).sql n).toList =
            e.bareText d n ++ (", ".toList ++
              ((Fragment.join ", " (fragments ⟨d, false⟩ bare (e' :: es))).sql
                (n + e.values.length)).toList) := by
        simp only [bareText, fragments, Fragment.join, sql_append, sql_ofText, binds_fragment,
          Fragment.binds_ofText, List.length_nil, Nat.add_zero, String.toList_append,
          List.append_assoc]
      rw [htext]
      exact hfirst.cons hrest

theorem readsAs_bareBinary (hd : d ≠ .mysql) (op : BinaryOp) {left right : Expr} {n : Nat}
    (hleft : ReadsAs binds (left.bareText d n) left.strength left)
    (hright : ReadsAs binds (right.bareText d (n + left.values.length)) right.strength right)
    (fitsLeft : left.Fits op.level) (fitsRight : right.Fits (op.level + 1)) :
    ReadsAs binds ((binary op left right).bareText d n) op.level (.binary op left right) := by
  have hstep (o : BinaryOp) : op.precedence + 1 ≤ o.precedence → op.level + 1 ≤ o.level := by
    cases op <;> cases o <;> decide
  have hsame (o : BinaryOp) : op.precedence ≤ o.precedence → op.level ≤ o.level := by
    cases op <;> cases o <;> decide
  obtain ⟨_, hlevel, hleft⟩ := readsAs_operand _ fitsLeft hsame hleft
  obtain ⟨_, hother, hright⟩ := readsAs_operand _ fitsRight hstep hright
  have htext : (binary op left right).bareText d n =
      ((grouped op.precedence left (left.fragment ⟨d, false⟩ bare)).sql n).toList ++
        ((" " ++ op.symbol ++ " ").toList ++
          ((grouped (op.precedence + 1) right (right.fragment ⟨d, false⟩ bare)).sql
            (n + left.values.length)).toList) := by
    rw [bareText, fragment_binary hd]
    simp only [sql_append, sql_ofText, binds_grouped, binds_fragment, Fragment.binds_ofText,
      List.length_nil, Nat.add_zero, String.toList_append, List.append_assoc]
  rw [htext]
  exact hleft.binary hlevel hright hother

theorem readsAs_bareLike (hd : d ≠ .mysql) {operand : Expr} {n : Nat} (pattern : String)
    (negated caseless : Bool) (h : ReadsAs binds (operand.bareText d n) operand.strength operand)
    (place : likePlace d caseless ≤ operand.strength)
    (hpattern : [Value.text pattern] <+: binds.drop (n + operand.values.length)) :
    ReadsAs binds ((like operand pattern negated caseless).bareText d n) 4
      (.like operand pattern negated caseless) := by
  unfold likePlace at place
  by_cases hlower : (caseless && !d.supportsIlike) = true
  · -- the operand is an argument of LOWER
    obtain ⟨hcaseless, hilike⟩ := Bool.and_eq_true_iff.mp hlower
    have hilike : d.supportsIlike = false := by simpa using hilike
    have htext : (like operand pattern negated caseless).bareText d n =
        "LOWER".toList ++ '(' :: (operand.bareText d n ++ [')']) ++
          ((likeText negated false).toList ++ ("LOWER(".toList ++
            ((d.placeholder (n + operand.values.length + 1)).toList ++ [')']))) := by
      simp [bareText, fragment, hcaseless, hilike, likeText, sql_append, Fragment.sql]
    rw [htext, hcaseless]
    exact ItemsReadAs.lowerLike hd h.last hpattern negated
  · have hplace : 4 ≤ operand.strength := by simpa [hlower] using place
    have htext : (like operand pattern negated caseless).bareText d n =
        operand.bareText d n ++ ((likeText negated caseless).toList ++
          (d.placeholder (n + operand.values.length + 1)).toList) := by
      cases caseless with
      | false => simp [bareText, fragment, likeText, sql_append, Fragment.sql]
      | true =>
        have hilike : d.supportsIlike = true := by simpa using hlower
        simp [bareText, fragment, hilike, likeText, sql_append, Fragment.sql]
    rw [htext]
    exact h.like hd hplace hpattern negated caseless

/-- A grouped expression is read from its text, as it is. -/
theorem readsAs_bareText (hd : d ≠ .mysql) (plain : e.Plain) (hgrouped : e.Grouped d) (n : Nat)
    (hbinds : e.values <+: binds.drop n) : ReadsAs binds (e.bareText d n) e.strength e := by
  induction plain generalizing n with
  | @column name identifier =>
    have htext : (column none name).bareText d n = '.' :: name.toList := by
      simp [bareText, fragment, Style.qualified, Style.ident, bare, Scope.ofRoot]
    rw [htext]
    exact readsAs_column identifier
  | literal v =>
    have htext : (literal v).bareText d n = (d.placeholder (n + 1)).toList := by
      simp [bareText, fragment, Fragment.sql]
    rw [htext]
    exact readsAs_literal hd hbinds
  | binary op _ _ ihleft ihright =>
    obtain ⟨hleft, hright, fitsLeft, fitsRight⟩ := hgrouped
    exact readsAs_bareBinary hd op (ihleft hleft n ((List.prefix_append _ _).trans hbinds))
      (ihright hright _ (prefix_drop_of_append hbinds)) fitsLeft fitsRight
  | @unary op operand _ ih =>
    have hno (least : Nat) (o : BinaryOp) (ho : unaryPrecedence ≤ o.precedence) :
        least ≤ o.level := by
      have hbound := o.precedence_lt_unary
      omega
    cases op with
    | not =>
      obtain ⟨hoperand, fits⟩ := hgrouped
      obtain ⟨_, hlevel, hread⟩ := readsAs_operand _ fits (hno 3) (ih hoperand n hbinds)
      have htext : (unary .not operand).bareText d n = "NOT ".toList ++
          ((grouped unaryPrecedence operand (operand.fragment ⟨d, false⟩ bare)).sql n).toList := by
        simp [bareText, fragment, sql_append]
      rw [htext]
      exact hread.not hlevel
    | neg =>
      obtain ⟨hoperand, fits⟩ := hgrouped
      obtain ⟨_, hlevel, hread⟩ := readsAs_operand _ fits (hno 7) (ih hoperand n hbinds)
      have htext : (unary .neg operand).bareText d n = '-' ::
          ((grouped unaryPrecedence operand (operand.fragment ⟨d, false⟩ bare)).sql n).toList := by
        simp [bareText, fragment, sql_append]
      rw [htext]
      exact hread.neg hlevel
  | @call function args identifier _ ih =>
    have hargs := itemsReadAs_join args n
      (fun a ha m => ih a ha (listGrouped_iff.mp hgrouped a ha) m) hbinds
    have htext : (call function args).bareText d n = function.toList ++ '(' ::
        (((Fragment.join ", " (fragments ⟨d, false⟩ bare args)).sql n).toList ++ [')']) := by
      simp [bareText, fragment, sql_append]
    rw [htext]
    exact hargs.call identifier
  | @isIn operand values negated _ _ ih ihvalues =>
    obtain ⟨hoperand, hplace, hvalues⟩ := hgrouped
    have hread := ih hoperand n ((List.prefix_append _ _).trans hbinds)
    have hitems := itemsReadAs_join values _
      (fun a ha m => ihvalues a ha (listGrouped_iff.mp hvalues a ha) m)
      (prefix_drop_of_append hbinds)
    have htext : (isIn operand values negated).bareText d n = operand.bareText d n ++
        ((" " ++ notWord negated ++ "IN (").toList ++
          (((Fragment.join ", " (fragments ⟨d, false⟩ bare values)).sql
            (n + operand.values.length)).toList ++ [')'])) := by
      simp [bareText, fragment, sql_append]
    rw [htext]
    exact hread.isIn hplace hitems negated
  | @between operand low high negated _ _ _ ih ihlow ihhigh =>
    obtain ⟨⟨hoperand, hplace⟩, ⟨hlow, hlowPlace⟩, hhigh, hhighPlace⟩ := hgrouped
    have hbounds : operand.values ++ low.values <+: binds.drop n :=
      (List.prefix_append _ _).trans hbinds
    have hread := ih hoperand n ((List.prefix_append _ _).trans hbounds)
    have hreadLow := ihlow hlow _ (prefix_drop_of_append hbounds)
    have hreadHigh := ihhigh hhigh _ (prefix_drop_of_append hbinds)
    have htext : (between operand low high negated).bareText d n = operand.bareText d n ++
        ((" " ++ notWord negated ++ "BETWEEN ").toList ++
          (low.bareText d (n + operand.values.length) ++ (" AND ".toList ++
            high.bareText d (n + (operand.values ++ low.values).length)))) := by
      simp [bareText, fragment, sql_append, Nat.add_assoc]
    rw [htext]
    exact hread.between hplace hreadLow hlowPlace hreadHigh hhighPlace negated
  | @isNull operand negated _ ih =>
    obtain ⟨hoperand, hplace⟩ := hgrouped
    have htext : (isNull operand negated).bareText d n = operand.bareText d n ++
        (" IS " ++ notWord negated ++ "NULL").toList := by
      simp [bareText, fragment, sql_append]
    rw [htext]
    exact (ih hoperand n hbinds).isNull hplace negated
  | like pattern negated caseless _ ih =>
    obtain ⟨hoperand, hplace⟩ := hgrouped
    exact readsAs_bareLike hd pattern negated caseless
      (ih hoperand n ((List.prefix_append _ _).trans hbinds)) hplace (prefix_drop_of_append hbinds)
  | countStar =>
    have htext : countStar.bareText d n = "COUNT(*)".toList := by
      simp [bareText, fragment]
    rw [htext]
    exact readsAs_countStar

theorem kept_write {style : Style} (hd : style.dialect ≠ .mysql) (scope : Scope) {e : Expr}
    (plain : e.Plain) : kept (· != '"') ((e.fragment style scope).write []).1 =
      withRoot (kept (· != '"') scope.root) (e.bareText style.dialect 0) := by
  have hquote : style.dialect.quoteChar = '"' := by
    cases hdialect : style.dialect with
    | mysql => exact absurd hdialect hd
    | _ => rfl
  have hunquoted := alike_fragment (Style.alike_quotes style.dialect style.quote false) scope e
  rw [hquote] at hunquoted
  exact (hunquoted.2 0).trans ((rooted_fragment hd plain).2 0)

/-- Different expressions whose operands are grouped differ in their texts or in their values. -/
theorem write_ne_write {style : Style} (hd : style.dialect ≠ .mysql) (scope : Scope) {e e' : Expr}
    (plain : e.Plain) (plain' : e'.Plain) (hgrouped : e.Grouped style.dialect)
    (hgrouped' : e'.Grouped style.dialect) (hne : e ≠ e') :
    (e.fragment style scope).write [] ≠ (e'.fragment style scope).write [] := by
  intro h
  have hvalues : e.values = e'.values := by
    have hbinds := congrArg Prod.snd h
    simpa only [Fragment.write, binds_fragment, List.nil_append] using hbinds
  have htext : e.bareText style.dialect 0 = e'.bareText style.dialect 0 := by
    apply withRoot_injective (kept (· != '"') scope.root)
    rw [← kept_write hd scope plain, ← kept_write hd scope plain', h]
  have hread : read e.values (e.bareText style.dialect 0) = some e :=
    read_eq_some (readsAs_bareText hd plain hgrouped 0 (List.prefix_refl _))
  have hread' : read e'.values (e'.bareText style.dialect 0) = some e' :=
    read_eq_some (readsAs_bareText hd plain' hgrouped' 0 (List.prefix_refl _))
  rw [htext, hvalues, hread'] at hread
  exact hne (Option.some.inj hread).symm

end Reading

end Expr

namespace Library

open RelQuery.Expr (Plain)

def bornOrLe : Expr :=
  .unary .not (.binary .and (.isNull (.column none "born") false)
    (.like (.column none "name") "le%" true true))

def bornNotLe : Expr :=
  .binary .and (.unary .not (.isNull (.column none "born") false))
    (.like (.column none "name") "le%" true true)

/-- Whether a disjunction is unknown. In `firstOrUnknown` only its second half is asked about. -/
def unknownChoice : Expr :=
  .isNull (.binary .or (.eq (.column none "a") (.literal (.int 1)))
    (.eq (.column none "b") (.literal (.int 2)))) false

def firstOrUnknown : Expr :=
  .binary .or (.eq (.column none "a") (.literal (.int 1)))
    (.isNull (.eq (.column none "b") (.literal (.int 2))) false)

theorem write_ne_write_bornOrLe :
    Dialect.sqlite ≠ .mysql ∧ bornOrLe.Plain ∧ bornNotLe.Plain ∧ bornOrLe.Grouped .sqlite ∧
      bornNotLe.Grouped .sqlite ∧ bornOrLe ≠ bornNotLe ∧
      ((bornOrLe.fragment ⟨.sqlite, true⟩ (.ofRoot "authors")).write []).1 =
        "NOT (\"authors\".\"born\" IS NULL AND LOWER(\"authors\".\"name\") NOT LIKE LOWER(?1))" ∧
      (bornOrLe.fragment ⟨.sqlite, true⟩ (.ofRoot "authors")).write [] ≠
        (bornNotLe.fragment ⟨.sqlite, true⟩ (.ofRoot "authors")).write [] := by
  have hdialect : Dialect.sqlite ≠ .mysql := by decide
  have born : Plain (.isNull (.column none "born") false) := .isNull _ (.column rfl)
  have name : Plain (.like (.column none "name") "le%" true true) := .like _ _ _ (.column rfl)
  have plain : bornOrLe.Plain := .unary _ (.binary _ born name)
  have plain' : bornNotLe.Plain := .binary _ (.unary _ born) name
  have hgrouped : bornOrLe.Grouped .sqlite := by
    simp [bornOrLe, Expr.Grouped, Expr.Fits, Expr.likePlace, Expr.strength, BinaryOp.level,
      BinaryOp.precedence, Dialect.supportsIlike]
  have hgrouped' : bornNotLe.Grouped .sqlite := by
    simp [bornNotLe, Expr.Grouped, Expr.Fits, Expr.likePlace, Expr.strength, BinaryOp.level,
      BinaryOp.precedence, Dialect.supportsIlike]
  have hne : bornOrLe ≠ bornNotLe := fun h => nomatch h
  exact ⟨hdialect, plain, plain', hgrouped, hgrouped', hne, by rfl,
    Expr.write_ne_write hdialect _ plain plain' hgrouped hgrouped' hne⟩

theorem write_unknownChoice :
    Dialect.postgres ≠ .mysql ∧ unknownChoice.Plain ∧ firstOrUnknown.Plain ∧
      unknownChoice ≠ firstOrUnknown ∧
      (unknownChoice.fragment {} Scope.top).write [] =
        ("me.a = $1 OR me.b = $2 IS NULL", [.int 1, .int 2]) ∧
      (firstOrUnknown.fragment {} Scope.top).write [] =
        ("me.a = $1 OR me.b = $2 IS NULL", [.int 1, .int 2]) := by
  have first : Plain (.eq (.column none "a") (.literal (.int 1))) :=
    .binary _ (.column rfl) (.literal _)
  have second : Plain (.eq (.column none "b") (.literal (.int 2))) :=
    .binary _ (.column rfl) (.literal _)
  have plain : unknownChoice.Plain := .isNull _ (.binary _ first second)
  have plain' : firstOrUnknown.Plain := .binary _ first (.isNull _ second)
  have hne : unknownChoice ≠ firstOrUnknown := fun h => nomatch h
  exact ⟨by decide, plain, plain', hne, rfl, rfl⟩

end Library

end RelQuery
