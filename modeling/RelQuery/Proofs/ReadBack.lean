import RelQuery.Proofs.Reader

/-!
# Reading expressions back

What is written of an expression of operators, in a dialect with numbered placeholders and without
quotes, is read as the expression itself, but for the parentheses it was given.
-/

namespace RelQuery

set_option autoImplicit false

variable {s t name : String}

theorem tokens_paren (s : String) :
    tokens ("(" ++ s ++ ")") = .mark '(' :: tokens s ++ [.mark ')'] := by
  have hopen : Apart "(" s := apart_of_getLast (by rintro _ ⟨⟩; rfl) s
  have hclose : Apart ("(" ++ s) ")" := apart_of_head _ (by rintro _ ⟨⟩; rfl)
  rw [tokens_append hclose, tokens_append hopen]
  rfl

theorem tokens_call (h : isIdentifier name = true) (s : String) :
    tokens (name ++ "(" ++ s ++ ")") = .word name :: .mark '(' :: (tokens s ++ [.mark ')']) := by
  have hopen : Apart name ("(" ++ s ++ ")") := apart_of_head _ (by simp [isMark]; decide)
  have hassoc : name ++ "(" ++ s ++ ")" = name ++ ("(" ++ s ++ ")") := by
    simp only [String.append_assoc]
  rw [hassoc, tokens_append hopen, tokens_identifier h, tokens_paren]
  rfl

theorem tokens_comma (s t : String) :
    tokens (s ++ ", " ++ t) = tokens s ++ .mark ',' :: tokens t := by
  rw [tokens_between s t (by decide) (by rintro _ ⟨⟩; rfl) (by rintro _ ⟨⟩; rfl)]
  simp only [List.append_assoc]
  rfl

theorem tokens_qualified (h : isIdentifier name = true) :
    tokens (rootAlias ++ "." ++ name) = [.word rootAlias, .mark '.', .word name] := by
  rw [tokens_between _ _ (by decide) (by rintro _ ⟨⟩; rfl) (by rintro _ ⟨⟩; rfl),
    tokens_identifier h]
  rfl

theorem tokens_placeholder {d : Dialect} (hd : d ≠ .mysql) (n : Nat) :
    ∃ c, (c = '$' ∨ c = '?') ∧
      tokens (d.placeholder n) = [.mark c, .word (toString n)] := by
  cases d with
  | postgres =>
    refine ⟨'$', .inl rfl, ?_⟩
    rw [Dialect.placeholder, tokens_append (apart_of_getLast (by rintro _ ⟨⟩; rfl) _),
      tokens_toString]
    rfl
  | sqlite =>
    refine ⟨'?', .inr rfl, ?_⟩
    rw [Dialect.placeholder, tokens_append (apart_of_getLast (by rintro _ ⟨⟩; rfl) _),
      tokens_toString]
    rfl
  | mysql => exact absurd rfl hd

theorem BinaryOp.precedence_lt_unary (op : BinaryOp) : op.precedence < unaryPrecedence := by
  cases op <;> decide

namespace Expr

/-- How strongly an expression holds together: what is no binary operation holds more than any. -/
def level : Expr → Nat
  | .binary op _ _ => op.precedence
  | _ => unaryPrecedence

mutual

def withoutParens : Expr → Expr
  | .column table name => .column table name
  | .literal v => .literal v
  | .binary op left right => .binary op left.withoutParens right.withoutParens
  | .unary op operand => .unary op operand.withoutParens
  | .call function args => .call function (listWithoutParens args)
  | .isIn operand values negated => .isIn operand.withoutParens (listWithoutParens values) negated
  | .between operand low high negated =>
    .between operand.withoutParens low.withoutParens high.withoutParens negated
  | .isNull operand negated => .isNull operand.withoutParens negated
  | .like operand pattern negated caseless => .like operand.withoutParens pattern negated caseless
  | .raw sql values => .raw sql values
  | .paren inner => inner.withoutParens
  | .countStar => .countStar

def listWithoutParens : List Expr → List Expr
  | [] => []
  | e :: rest => e.withoutParens :: listWithoutParens rest

end

/-- The expressions of binary operators, over columns of the root, values, and calls. -/
inductive Operative : Expr → Prop where
  | column {name : String} (identifier : isIdentifier name = true) : Operative (.column none name)
  | literal (v : Value) : Operative (.literal v)
  | binary (op : BinaryOp) {left right : Expr} (hleft : Operative left) (hright : Operative right) :
    Operative (.binary op left right)
  | call {function : String} {args : List Expr} (identifier : isIdentifier function = true)
    (hargs : ∀ e ∈ args, Operative e) : Operative (.call function args)
  | paren {inner : Expr} (hinner : Operative inner) : Operative (.paren inner)
  | countStar : Operative .countStar

section

open Fragment (ofText sql_append sql_ofText)
open Reader

variable {binds : List Value} {d : Dialect}

theorem tokens_fragment_paren (f : Fragment) (n : Nat) :
    tokens (f.paren.sql n) = .mark '(' :: tokens (f.sql n) ++ [.mark ')'] := by
  rw [Fragment.sql_paren, tokens_paren]

theorem grouped_of_le_level {parent : Nat} {e : Expr} (h : parent ≤ e.level) (f : Fragment) :
    grouped parent e f = f := by
  cases e with
  | binary op left right => exact if_neg (Nat.not_lt.mpr h)
  | _ => rfl

/-- An operand is put in parentheses unless it holds together as strongly as asked for. -/
theorem readsAs_grouped {parent n : Nat} {f : Fragment} {e out : Expr}
    (hparent : parent ≤ unaryPrecedence) (h : ReadsAs binds (tokens (f.sql n)) e.level out) :
    ∃ level ≥ parent, ReadsAs binds (tokens ((grouped parent e f).sql n)) level out := by
  by_cases hloose : e.level < parent
  · have hgrouped : grouped parent e f = f.paren := by
      cases e with
      | binary op left right => exact if_pos hloose
      | _ => exact absurd hloose (Nat.not_lt.mpr hparent)
    rw [hgrouped, tokens_fragment_paren]
    exact ⟨parent, Nat.le_refl _, h.paren⟩
  · rw [grouped_of_le_level (Nat.not_lt.mp hloose)]
    exact ⟨e.level, Nat.not_lt.mp hloose, h⟩

theorem prefix_drop_of_append {α : Type} {xs ys zs : List α} {n : Nat}
    (h : xs ++ ys <+: zs.drop n) : ys <+: zs.drop (n + xs.length) := by
  obtain ⟨rest, hrest⟩ := h
  rw [← List.drop_drop, ← hrest, List.append_assoc, List.drop_left]
  exact List.prefix_append _ _

theorem fragment_binary (hd : d ≠ .mysql) (scope : Scope) (op : BinaryOp) (left right : Expr) :
    (binary op left right).fragment ⟨d, false⟩ scope =
      grouped op.precedence left (left.fragment ⟨d, false⟩ scope) ++
        ofText (" " ++ op.symbol ++ " ") ++
        grouped (op.precedence + 1) right (right.fragment ⟨d, false⟩ scope) := by
  simp only [fragment]
  split
  · exact absurd rfl hd
  · rfl

theorem readsAs_binary (hd : d ≠ .mysql) (op : BinaryOp) {left right outLeft outRight : Expr}
    {scope : Scope} {n : Nat}
    (hleft : ReadsAs binds (tokens ((left.fragment ⟨d, false⟩ scope).sql n)) left.level outLeft)
    (hright : ReadsAs binds (tokens ((right.fragment ⟨d, false⟩ scope).sql
      (n + left.values.length))) right.level outRight) :
    ReadsAs binds (tokens (((binary op left right).fragment ⟨d, false⟩ scope).sql n))
      op.precedence (.binary op outLeft outRight) := by
  have hbound : op.precedence + 1 ≤ unaryPrecedence := op.precedence_lt_unary
  obtain ⟨t, ht, htokens⟩ := exists_token op
  obtain ⟨_, hlevel, hleft⟩ := readsAs_grouped (Nat.le_of_succ_le hbound) hleft
  obtain ⟨_, hother, hright⟩ := readsAs_grouped hbound hright
  rw [fragment_binary hd, sql_append, sql_append, sql_ofText, htokens, Fragment.binds_append,
    binds_grouped, binds_fragment, Fragment.binds_ofText, List.append_nil]
  exact hleft.binary ht hlevel hright hother

theorem listReadsAs_join {style : Style} {scope : Scope} (e : Expr) (es : List Expr) (n : Nat)
    (h : ∀ a ∈ e :: es, ∀ m, a.values <+: binds.drop m →
      ReadsAs binds (tokens ((a.fragment style scope).sql m)) a.level a.withoutParens)
    (hbinds : listValues (e :: es) <+: binds.drop n) :
    ListReadsAs binds (tokens ((Fragment.join ", " (fragments style scope (e :: es))).sql n))
      (listWithoutParens (e :: es)) := by
  induction es generalizing e n with
  | nil => exact (h e List.mem_cons_self n ((List.prefix_append _ _).trans hbinds)).last
  | cons e' es ih =>
    have hfirst := h e List.mem_cons_self n ((List.prefix_append _ _).trans hbinds)
    have htail := ih e' _ (fun a ha => h a (List.mem_cons_of_mem _ ha))
      (prefix_drop_of_append hbinds)
    have hsql : (Fragment.join ", " (fragments style scope (e :: e' :: es))).sql n =
        (e.fragment style scope).sql n ++ ", " ++
          (Fragment.join ", " (fragments style scope (e' :: es))).sql (n + e.values.length) := by
      simp [fragments, Fragment.join, sql_append, sql_ofText, binds_fragment, String.append_assoc]
    rw [hsql, tokens_comma]
    exact hfirst.cons htail

theorem readsAs_fragment (hd : d ≠ .mysql) {e : Expr} (h : e.Operative) (n : Nat)
    (hbinds : e.values <+: binds.drop n) :
    ReadsAs binds (tokens ((e.fragment ⟨d, false⟩ Scope.top).sql n)) e.level e.withoutParens := by
  induction h generalizing n with
  | @column name identifier =>
    have hsql : ((column none name).fragment ⟨d, false⟩ Scope.top).sql n =
        rootAlias ++ "." ++ name := sql_ofText n _
    rw [hsql, tokens_qualified identifier]
    exact readsAs_of_leaf (List.cons_ne_nil _ _) fun _ _ => rfl
  | literal v =>
    obtain ⟨c, hc, htokens⟩ := tokens_placeholder hd (n + 1)
    have hsql : ((literal v).fragment ⟨d, false⟩ Scope.top).sql n = d.placeholder (n + 1) := by
      simp [fragment, Fragment.sql]
    have hvalue : placeholder binds (toString (n + 1)) = some (.literal v) :=
      placeholder_toString hbinds
    rw [hsql, htokens]
    refine readsAs_of_leaf (List.cons_ne_nil _ _) fun rest m => ?_
    rcases hc with rfl | rfl
    · rw [List.cons_append, List.cons_append, operand, hvalue]
      rfl
    · rw [List.cons_append, List.cons_append, operand, hvalue]
      rfl
  | binary op _ _ ihleft ihright =>
    exact readsAs_binary hd op (ihleft n ((List.prefix_append _ _).trans hbinds))
      (ihright _ (prefix_drop_of_append hbinds))
  | @call function args identifier _ ih =>
    have hsql : ((call function args).fragment ⟨d, false⟩ Scope.top).sql n =
        function ++ "(" ++ (Fragment.join ", " (fragments ⟨d, false⟩ Scope.top args)).sql n ++
          ")" := by
      simp [fragment, sql_append, sql_ofText, String.append_assoc]
    rw [hsql, tokens_call identifier]
    cases args with
    | nil => exact readsAs_of_leaf (List.cons_ne_nil _ _) fun _ _ => rfl
    | cons e es => exact (listReadsAs_join e es n ih hbinds).call function
  | paren _ ih =>
    have hinner := ih n hbinds
    rw [fragment, tokens_fragment_paren]
    exact hinner.paren
  | countStar =>
    have htokens : tokens "COUNT(*)" =
        [.word "COUNT", .mark '(', .operator "*", .mark ')'] := rfl
    rw [fragment, sql_ofText, htokens]
    exact readsAs_of_leaf (List.cons_ne_nil _ _) fun _ _ => rfl

/-- An expression of operators is read back from what is written of it, but for the parentheses it
was given. -/
theorem read_fragment (hd : d ≠ .mysql) {e : Expr} (h : e.Operative) :
    read ((e.fragment ⟨d, false⟩ Scope.top).write []).1
      ((e.fragment ⟨d, false⟩ Scope.top).write []).2 = some e.withoutParens := by
  have hvalues : (e.fragment ⟨d, false⟩ Scope.top).binds = e.values := binds_fragment _ _ e
  rw [Fragment.write, hvalues, List.nil_append]
  exact read_eq_some (readsAs_fragment hd h 0 (List.prefix_refl _))

end

end Expr

def Library.lateBorn : Expr :=
  .binary .and
    (.binary .lt (.literal (.int 1900))
      (.binary .sub (.column none "born") (.binary .sub (.column none "died") (.literal (.int 9)))))
    (.binary .or (.paren (.binary .gt .countStar (.literal (.int 2))))
      (.binary .eq (.call "LENGTH" [.column none "name"]) (.literal (.int 7))))

theorem read_fragment_lateBorn :
    Dialect.sqlite ≠ .mysql ∧ Library.lateBorn.Operative ∧
      (Library.lateBorn.fragment ⟨.sqlite, false⟩ Scope.top).write [] =
        ("?1 < me.born - (me.died - ?2) AND ((COUNT(*) > ?3) OR LENGTH(me.name) = ?4)",
          [.int 1900, .int 9, .int 2, .int 7]) ∧
      Reader.read ((Library.lateBorn.fragment ⟨.sqlite, false⟩ Scope.top).write []).1
        ((Library.lateBorn.fragment ⟨.sqlite, false⟩ Scope.top).write []).2 =
          some Library.lateBorn.withoutParens := by
  have hdialect : Dialect.sqlite ≠ .mysql := by decide
  have hoperative : Library.lateBorn.Operative := by
    refine .binary _ (.binary _ (.literal _) (.binary _ (.column rfl) (.binary _ (.column rfl)
      (.literal _)))) (.binary _ (.paren (.binary _ .countStar (.literal _)))
        (.binary _ (.call rfl fun e he => ?_) (.literal _)))
    rw [List.mem_singleton.mp he]
    exact .column rfl
  exact ⟨hdialect, hoperative, rfl, Expr.read_fragment hdialect hoperative⟩

end RelQuery
