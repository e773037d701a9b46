import RelQuery.Proofs.Clauses
import RelQuery.Proofs.ExprValues

/-!
# The text of a statement

The conditions of a statement are written one after the other and joined by AND. Each one is written
in its own scope, with placeholders behind the values in front of it. The select list and whatever is
done to the rows are written in the scope of the statement's own level.
-/

namespace RelQuery

set_option autoImplicit false

open Fragment (ofText)

namespace Fragment

def texts (n : Nat) : List Fragment → List String
  | [] => []
  | f :: fs => f.sql n :: texts (n + f.binds.length) fs

theorem sql_join (separator : String) (n : Nat) (fs : List Fragment) :
    (join separator fs).sql n = String.intercalate separator (texts n fs) := by
  induction fs generalizing n with
  | nil => rfl
  | cons f fs ih =>
    cases fs with
    | nil => rw [join, texts, texts, String.intercalate_singleton]
    | cons g fs =>
      have htexts : texts n (f :: g :: fs) = f.sql n :: g.sql (n + f.binds.length) ::
        texts (n + f.binds.length + g.binds.length) fs := rfl
      rw [htexts, String.intercalate_cons_cons, join, sql_append, sql_append, sql_ofText,
        binds_append, binds_ofText, List.append_nil, ih]
      · rfl
      · exact List.cons_ne_nil _ _

theorem texts_ofText (n : Nat) (ss : List String) : texts n (ss.map ofText) = ss := by
  induction ss with
  | nil => rfl
  | cons s ss ih => rw [List.map_cons, texts, sql_ofText, binds_ofText, List.length_nil, Nat.add_zero,
      ih]

theorem sql_join_ofText (separator : String) (ss : List String) (n : Nat) :
    (join separator (ss.map ofText)).sql n = String.intercalate separator ss := by
  rw [sql_join, texts_ofText]

theorem binds_join_ofText (separator : String) (ss : List String) :
    (join separator (ss.map ofText)).binds = [] := by
  simp [binds_join]

theorem sql_flatten (n : Nat) (fs : List Fragment) :
    Fragment.sql n fs.flatten = String.join (texts n fs) := by
  induction fs generalizing n with
  | nil => rfl
  | cons f fs ih => rw [List.flatten_cons, sql_append, ih, texts, String.join_cons]

theorem binds_flatten (fs : List Fragment) : Fragment.binds fs.flatten = fs.flatMap binds := by
  induction fs with
  | nil => rfl
  | cons f fs ih => rw [List.flatten_cons, binds_append, ih, List.flatMap_cons]

end Fragment

/-- The text of a condition among others. A choice and raw SQL stand in parentheses. -/
def Expr.amongOthers (e : Expr) (text : String) : String :=
  match e with
  | .binary .or _ _ => "(" ++ text ++ ")"
  | .raw _ _ => "(" ++ text ++ ")"
  | _ => text

section Texts

variable (style : Style)

def conjunctTexts : Nat → List (Expr × Scope) → List String
  | _, [] => []
  | n, (e, scope) :: rest =>
    e.amongOthers ((e.fragment style scope).sql n) :: conjunctTexts (n + e.values.length) rest

/-- The WHERE clause of conditions, each read in its scope, behind `n` values. -/
def whereText (n : Nat) : List (Expr × Scope) → String
  | [] => ""
  | [(e, scope)] => " WHERE " ++ (e.fragment style scope).sql n
  | conditions => " WHERE " ++ String.intercalate " AND " (conjunctTexts style n conditions)

def clauseText (keyword : String) (n : Nat) : List Fragment → String
  | [] => ""
  | parts => keyword ++ String.intercalate ", " (Fragment.texts n parts)

theorem sql_clause (keyword separator : String) (n : Nat) (parts : List Fragment)
    (commas : separator = ", " ∨ parts.length ≤ 1) :
    (clause keyword separator parts).sql n = clauseText keyword n parts := by
  rcases parts with _ | ⟨f, fs⟩
  · rfl
  · have htext : clauseText keyword n (f :: fs) =
        keyword ++ (Fragment.join ", " (f :: fs)).sql n := by
      rw [Fragment.sql_join]
      rfl
    have hjoin : Fragment.join separator (f :: fs) = Fragment.join ", " (f :: fs) := by
      rcases commas with rfl | hone
      · rfl
      · rw [List.length_eq_zero_iff.mp (Nat.le_zero.mp (Nat.le_of_succ_le_succ hone))]
        rfl
    rw [htext, ← hjoin]
    exact (Fragment.sql_append n _ _).trans (by rw [Fragment.sql_ofText]; rfl)

theorem binds_clause (keyword separator : String) (parts : List Fragment) :
    (clause keyword separator parts).binds = parts.flatMap Fragment.binds := by
  cases parts with
  | nil => rfl
  | cons f fs => exact (Fragment.binds_append _ _).trans (Fragment.binds_join separator (f :: fs))

theorem binds_conjunct (among : Bool) (e : Expr) (scope : Scope) :
    (conjunct style among e scope).binds = e.values := by
  unfold conjunct
  cases among && e.isLoose with
  | true => exact (Fragment.binds_paren _).trans (e.binds_fragment style scope)
  | false => exact e.binds_fragment style scope

theorem sql_conjunct (n : Nat) (e : Expr) (scope : Scope) :
    (conjunct style true e scope).sql n = e.amongOthers ((e.fragment style scope).sql n) := by
  unfold conjunct
  cases e with
  | binary op left right =>
    cases op with
    | or => exact Fragment.sql_paren n _
    | _ => rfl
  | raw sql values => exact Fragment.sql_paren n _
  | _ => rfl

theorem texts_conjuncts (n : Nat) (conditions : List (Expr × Scope)) :
    Fragment.texts n (conditions.map fun c => conjunct style true c.1 c.2) =
      conjunctTexts style n conditions := by
  induction conditions generalizing n with
  | nil => rfl
  | cons c rest ih => rw [List.map_cons, Fragment.texts, binds_conjunct, ih, sql_conjunct,
      conjunctTexts]

theorem sql_whereClause (n : Nat) (conditions : List (Expr × Scope)) :
    (whereClause style conditions).sql n = whereText style n conditions := by
  rcases conditions with _ | ⟨c, _ | ⟨d, rest⟩⟩
  · rfl
  · exact (Fragment.sql_append n _ _).trans (by rw [Fragment.sql_ofText]; rfl)
  · have hmany : decide (1 < (c :: d :: rest).length) = true := by simp
    have htext : whereText style n (c :: d :: rest) =
        " WHERE " ++ String.intercalate " AND " (conjunctTexts style n (c :: d :: rest)) := rfl
    unfold whereClause clause
    rw [hmany, htext, ← texts_conjuncts, ← Fragment.sql_join]
    exact (Fragment.sql_append n _ _).trans (by rw [Fragment.sql_ofText]; rfl)

theorem binds_whereClause (conditions : List (Expr × Scope)) :
    (whereClause style conditions).binds = conditions.flatMap (·.1.values) := by
  unfold whereClause
  rw [binds_clause, List.flatMap_map]
  exact List.flatMap_congr fun c _ => binds_conjunct style _ c.1 c.2

end Texts

namespace Clauses

/-- A statement that selects the rows that meet some conditions. Its WHERE clause is written behind
the tables and in front of everything that is done to the rows. -/
structure Meets (c : Clauses) (q : Query Subselect) (shape : Shape)
    (conditions : List (Expr × Scope)) (s : Statement) : Prop where
  sql : s.sql = (c.front q shape).sql 0 ++
    whereText q.style (c.front q shape).binds.length conditions ++
    (c.back q shape).sql ((c.front q shape).binds ++ conditions.flatMap (·.1.values)).length
  binds : s.binds = (c.front q shape).binds ++ conditions.flatMap (·.1.values) ++
    (c.back q shape).binds

theorem meets_conditions (c : Clauses) (q : Query Subselect) (shape : Shape) :
    c.Meets q shape (c.conditions q) (c.fragment q shape).statement where
  sql := by
    unfold Fragment.statement fragment
    rw [Fragment.sql_append, Fragment.sql_append, Fragment.binds_append, sql_whereClause,
      binds_whereClause, Nat.zero_add, Nat.zero_add]
  binds := by
    unfold Fragment.statement fragment
    rw [Fragment.binds_append, Fragment.binds_append, binds_whereClause]

end Clauses

def Query.rowsText (q : Query Subselect) (scope : Scope) (n : Nat) : String :=
  let groups := q.attrs.groupBy.getD []
  let having := q.attrs.having.toList
  let grouped := n + (groups.flatMap Expr.values).length
  clauseText " GROUP BY " n (groups.map (·.fragment q.style scope)) ++
    clauseText " HAVING " grouped (having.map (·.fragment q.style scope)) ++
    clauseText " ORDER BY " (grouped + (having.flatMap Expr.values).length)
      ((q.attrs.orderBy.getD []).map (·.fragment q.style scope))

def limitText (limit : Option UInt64) : String :=
  (limit.map fun n => " LIMIT " ++ toString n.toNat).getD ""

def offsetText (offset : Option UInt64) : String :=
  (offset.map fun n => " OFFSET " ++ toString n.toNat).getD ""

def Window.text (w : Window) : String := w.fragment.sql 0

namespace Window

variable (w : Window)

theorem text_eq : w.text = limitText w.limit ++ offsetText w.offset := by
  obtain ⟨limit, offset⟩ := w
  unfold text fragment
  rw [Fragment.sql_ofText]
  cases limit <;> cases offset <;> rfl

@[simp] theorem sql_fragment (n : Nat) : w.fragment.sql n = w.text := by
  unfold text fragment
  rw [Fragment.sql_ofText, Fragment.sql_ofText]

@[simp] theorem binds_fragment : w.fragment.binds = [] := Fragment.binds_ofText _

end Window

namespace Clauses

variable {c : Clauses} {q : Query Subselect}

/-- The select list and whatever is done to the rows are read in one scope. -/
structure ReadsRows (c : Clauses) (q : Query Subselect) (scope : Scope) : Prop where
  front : (c.front q {}).sql 0 =
    "SELECT " ++ (if q.attrs.distinct = some true then "DISTINCT " else "") ++
      String.intercalate ", "
        (Fragment.texts 0 (c.entries.map (·.expr.fragment q.style scope))) ++
      " FROM " ++ (c.origin ++ c.joins.flatten).sql (c.entries.flatMap (·.expr.values)).length
  back (n : Nat) : (c.back q {}).sql n =
    q.rowsText scope n ++ (limitText c.window.limit ++ offsetText c.window.offset)

theorem flatMap_binds_map {α : Type} (expr : α → Expr) (style : Style) (scope : Scope)
    (as : List α) : (as.map fun a => (expr a).fragment style scope).flatMap Fragment.binds =
      as.flatMap fun a => (expr a).values := by
  rw [List.flatMap_map]
  exact List.flatMap_congr fun a _ => (expr a).binds_fragment style scope

theorem sql_front (c : Clauses) (q : Query Subselect) : (c.front q {}).sql 0 =
    "SELECT " ++ (if q.attrs.distinct = some true then "DISTINCT " else "") ++
      String.intercalate ", "
        (Fragment.texts 0 (c.entries.map (·.expr.fragment q.style c.plan.scope))) ++
      " FROM " ++ (c.origin ++ c.joins.flatten).sql (c.entries.flatMap (·.expr.values)).length := by
  have hhead : q.headFragment {} c.plan.scope c.entries =
      ofText (if q.attrs.distinct = some true then "DISTINCT " else "") ++
        Fragment.join ", " (c.entries.map (·.expr.fragment q.style c.plan.scope)) := by
    unfold Query.headFragment Attributes.isDistinct
    simp only [decide_eq_true_eq]
    rfl
  unfold front
  rw [hhead, List.append_assoc _ c.origin]
  simp only [Fragment.sql_append, Fragment.sql_ofText, Fragment.binds_append,
    Fragment.binds_ofText, Fragment.sql_join, Fragment.binds_join, flatMap_binds_map,
    List.nil_append, List.append_nil, List.length_nil, Nat.zero_add, Nat.add_zero,
    String.append_assoc]

theorem sql_tailFragment (q : Query Subselect) (scope : Scope) (n : Nat) :
    (q.tailFragment {} scope).sql n = q.rowsText scope n := by
  have hhaving : (q.attrs.having.toList.map (·.fragment q.style scope)).length ≤ 1 := by
    cases q.attrs.having <;> simp
  change (clause " GROUP BY " ", " _ ++ clause " HAVING " "" _ ++ clause " ORDER BY " ", " _).sql n =
    _
  rw [Fragment.sql_append, Fragment.sql_append, Fragment.binds_append, binds_clause, binds_clause,
    flatMap_binds_map, flatMap_binds_map, sql_clause _ _ _ _ (.inl rfl),
    sql_clause _ _ _ _ (.inr hhaving), sql_clause _ _ _ _ (.inl rfl), List.length_append,
    ← Nat.add_assoc]
  rfl

theorem readsRows (c : Clauses) (q : Query Subselect) : c.ReadsRows q c.plan.scope where
  front := c.sql_front q
  back n := by
    unfold back
    rw [Fragment.sql_append, sql_tailFragment, ← Window.text_eq]
    exact congrArg _ (c.window.sql_fragment _)

end Clauses

end RelQuery
