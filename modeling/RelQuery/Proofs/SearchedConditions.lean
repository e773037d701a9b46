import RelQuery.Proofs.Restrictions

/-!
# Searched conditions

The WHERE clause of a set that is reached by searches alone is the conjunction of what was searched
for. Its text is that of the conditions joined by AND, and where the conditions are conjunctions
themselves, taking them apart keeps their truth in the three values of SQL.
-/

namespace RelQuery

set_option autoImplicit false

open Fragment (ofText)

/-- A truth value of SQL. -/
inductive Truth where
  | holds
  | fails
  | unknown
deriving DecidableEq, Repr

namespace Truth

def and : Truth → Truth → Truth
  | .fails, _ => .fails
  | _, .fails => .fails
  | .holds, .holds => .holds
  | _, _ => .unknown

theorem and_assoc (a b c : Truth) : (a.and b).and c = a.and (b.and c) := by
  cases a <;> cases b <;> cases c <;> rfl

instance : Std.Associative Truth.and := ⟨and_assoc⟩

end Truth

namespace Expr

/-- The truth of a condition, where `v` tells that of whatever is no conjunction and no conjunction
in parentheses. -/
def truth (v : Expr → Truth) : Expr → Truth
  | .binary .and left right => (left.truth v).and (right.truth v)
  | .paren (.binary .and left right) => (left.truth v).and (right.truth v)
  | e => v e

def IsRaw (e : Expr) : Prop := ∃ sql values, e = .raw sql values

theorem truth_foldl_and (v : Expr → Truth) (first : Expr) (rest : List Expr) :
    (rest.foldl and first).truth v = (rest.map (truth v)).foldl Truth.and (first.truth v) := by
  induction rest generalizing first with
  | nil => rfl
  | cons e rest ih =>
    rw [List.foldl_cons, ih]
    rfl

theorem truth_conjunction_append (v : Expr → Truth) {es fs : List Expr} {left right : Expr}
    (hleft : ResultSet.conjunction es = some left) (hright : ResultSet.conjunction fs = some right) :
    ∃ both, ResultSet.conjunction (es ++ fs) = some both ∧
      both.truth v = (left.truth v).and (right.truth v) := by
  rcases es with _ | ⟨e, es⟩
  · cases hleft
  rcases fs with _ | ⟨f, fs⟩
  · cases hright
  cases hleft
  cases hright
  refine ⟨(es ++ f :: fs).foldl and e, rfl, ?_⟩
  rw [truth_foldl_and, truth_foldl_and, truth_foldl_and, List.map_append, List.foldl_append,
    List.map_cons, List.foldl_cons, List.foldl_assoc]

theorem truth_conjunction (v : Expr → Truth) (e : Expr) :
    ∃ whole, ResultSet.conjunction e.conjuncts = some whole ∧ whole.truth v = e.truth v := by
  induction e using conjuncts.induct with
  | case1 left right ihleft ihright =>
    obtain ⟨_, hleft, htruthLeft⟩ := ihleft
    obtain ⟨_, hright, htruthRight⟩ := ihright
    rw [conjuncts, truth, ← htruthLeft, ← htruthRight]
    exact truth_conjunction_append v hleft hright
  | case2 left right ihleft ihright =>
    obtain ⟨_, hleft, htruthLeft⟩ := ihleft
    obtain ⟨_, hright, htruthRight⟩ := ihright
    rw [conjuncts, truth, ← htruthLeft, ← htruthRight]
    exact truth_conjunction_append v hleft hright
  | case3 e hand hparen =>
    rw [conjuncts_of_single ⟨hand, hparen⟩]
    exact ⟨e, rfl, rfl⟩

theorem grouped_and {e : Expr} {parent : Nat} (single : e.Single) (bare : ¬e.IsRaw)
    (hlow : BinaryOp.and.precedence ≤ parent) (hhigh : parent ≤ BinaryOp.and.precedence + 1)
    (style : Style) (scope : Scope) :
    grouped parent e (e.fragment style scope) = conjunct style true e scope := by
  unfold conjunct
  cases e with
  | binary op left right =>
    cases op with
    | and => exact absurd rfl (single.ne_and left right)
    | or => exact if_pos (Nat.lt_of_lt_of_le (by decide) hlow)
    | _ => exact if_neg (Nat.not_lt.mpr (Nat.le_trans hhigh (by decide)))
  | raw sql values => exact absurd ⟨sql, values, rfl⟩ bare
  | _ => rfl

theorem fragment_and (style : Style) (scope : Scope) (left right : Expr) :
    (left.and right).fragment style scope =
      grouped BinaryOp.and.precedence left (left.fragment style scope) ++ ofText " AND " ++
        grouped (BinaryOp.and.precedence + 1) right (right.fragment style scope) := by
  unfold and
  rw [fragment]
  · rfl
  · intro hop
    cases hop

theorem fragment_foldl_and (style : Style) (scope : Scope) (first second : Expr) {rest : List Expr}
    (single : ∀ e ∈ second :: rest, e.Single) (bare : ∀ e ∈ second :: rest, ¬e.IsRaw) :
    (rest.foldl and (first.and second)).fragment style scope =
      grouped BinaryOp.and.precedence first (first.fragment style scope) ++
        (second :: rest).flatMap fun e => ofText " AND " ++ conjunct style true e scope := by
  obtain ⟨hsingle, hsingles⟩ := List.forall_mem_cons.mp single
  obtain ⟨hbare, hbares⟩ := List.forall_mem_cons.mp bare
  have hpair := fragment_and style scope first second
  rw [grouped_and hsingle hbare (by decide) (by decide)] at hpair
  induction rest generalizing first second with
  | nil =>
    rw [List.foldl_nil, hpair, List.flatMap_singleton, List.append_assoc]
  | cons third rest ih =>
    obtain ⟨hthird, hothers⟩ := List.forall_mem_cons.mp hsingles
    obtain ⟨hthirdBare, hothersBare⟩ := List.forall_mem_cons.mp hbares
    have hnext := fragment_and style scope (first.and second) third
    rw [grouped_and hthird hthirdBare (by decide) (by decide)] at hnext
    have hleft : grouped BinaryOp.and.precedence (first.and second)
        ((first.and second).fragment style scope) = (first.and second).fragment style scope := rfl
    rw [List.foldl_cons, ih _ _ hsingles hbares hthird hothers hthirdBare hothersBare hnext, hleft,
      hpair]
    simp only [List.flatMap_cons, List.append_assoc]

end Expr

theorem Fragment.join_cons (separator : String) (f : Fragment) (fs : List Fragment) :
    join separator (f :: fs) = f ++ fs.flatMap (ofText separator ++ ·) := by
  induction fs generalizing f with
  | nil => simp [join]
  | cons g fs ih =>
    rw [join, ih, List.flatMap_cons]
    · simp only [List.append_assoc]
    · simp

/-- Conditions that are searched for are written as their conjunction. -/
theorem whereClause_of_conjunction (style : Style) (scope : Scope) {es : List Expr} {whole : Expr}
    (single : ∀ e ∈ es, e.Single) (bare : ∀ e ∈ es, ¬e.IsRaw)
    (h : ResultSet.conjunction es = some whole) :
    whereClause style (es.map (·, scope)) = ofText " WHERE " ++ whole.fragment style scope := by
  rcases es with _ | ⟨first, _ | ⟨second, rest⟩⟩
  · cases h
  · cases h
    rfl
  · cases h
    obtain ⟨hsingle, hsingles⟩ := List.forall_mem_cons.mp single
    obtain ⟨hbare, hbares⟩ := List.forall_mem_cons.mp bare
    have hmany : decide (1 < ((first :: second :: rest).map (·, scope)).length) = true := by
      simp
    rw [List.foldl_cons, Expr.fragment_foldl_and style scope first second hsingles hbares,
      Expr.grouped_and hsingle hbare (by decide) (by decide)]
    unfold whereClause clause
    rw [hmany, List.map_map, List.map_cons, Fragment.join_cons, List.flatMap_map]
    rfl

theorem Clauses.conditions_of_no_roots {rs : ResultSet} {c : Clauses}
    (clauses : rs.compiled.clauses = .ok c) (roots : rs.query.previous = []) :
    c.conditions rs.compiled = rs.query.conditions.map (·, c.plan.scope) := by
  obtain ⟨_, hplan, _⟩ := Query.clauses_eq_ok.mp clauses
  have hlevels : c.plan.levels = [] := by
    refine List.eq_nil_iff_forall_not_mem.mpr ?_
    intro l hl
    obtain ⟨root, hroot, _⟩ := Query.exists_root_of_level hplan hl
    have hnone : rs.compiled.previous = [] := congrArg (List.map _) roots
    rw [hnone] at hroot
    exact absurd hroot List.not_mem_nil
  unfold Clauses.conditions Plan.conditions
  rw [hlevels]
  exact List.append_nil _

namespace Chain

variable {schema : Schema} {current : ChainLevel} {rest : List ChainLevel}

theorem single (chain : Chain schema current rest) : ∀ e ∈ current.given, e.Single := by
  induction chain with
  | all _ => exact fun _ he => absurd he List.not_mem_nil
  | asSubselect _ => exact fun _ he => absurd he List.not_mem_nil
  | search _ _ gives _ ih => exact List.forall_mem_append.mpr ⟨ih, gives.forall_single⟩
  | related _ gives _ _ _ => exact gives.forall_single

theorem no_roots (chain : Chain schema current []) : current.set.query.previous = [] := by
  have hcarried := chain.carried.2
  revert hcarried
  generalize current.set.query.previous = roots
  intro hcarried
  cases hcarried
  rfl

/-- The WHERE clause of a set that is reached by searches is written as the conjunction of what was
searched for is, behind the values of the clauses in front of it. And the conjunction of what a
condition is taken apart into is as true as the condition. -/
theorem searched_conjunction (chain : Chain schema current [])
    (bare : ∀ e ∈ current.given, ¬e.IsRaw) :
    (∀ shape p, current.set.prepare shape = .ok p → ∃ c, current.set.compiled.clauses = .ok c ∧
      (∀ whole, ResultSet.conjunction current.given = some whole → ∃ text params,
        (whole.fragment current.set.query.style c.plan.scope).write
          (c.front current.set.compiled shape).binds = (text, params) ∧
        p.statement.sql = (c.front current.set.compiled shape).sql 0 ++ " WHERE " ++ text ++
          (c.back current.set.compiled shape).sql params.length ∧
        p.statement.binds = params ++ (c.back current.set.compiled shape).binds) ∧
      (current.given = [] → p.statement =
        (c.front current.set.compiled shape ++ c.back current.set.compiled shape).statement)) ∧
    ∀ (e : Expr) (v : Expr → Truth), ∃ whole,
      ResultSet.conjunction e.conjuncts = some whole ∧ whole.truth v = e.truth v := by
  refine ⟨?_, fun e v => Expr.truth_conjunction v e⟩
  intro shape p hp
  obtain ⟨c, hc, rfl⟩ := ResultSet.prepare_eq_ok.mp hp
  have hconditions := Clauses.conditions_of_no_roots hc chain.no_roots
  rw [← chain.carried.1] at hconditions
  refine ⟨c, hc, ?_, ?_⟩
  · intro whole hwhole
    have hfragment : c.fragment current.set.compiled shape =
        c.front current.set.compiled shape ++
          (ofText " WHERE " ++ whole.fragment current.set.query.style c.plan.scope) ++
          c.back current.set.compiled shape := by
      unfold Clauses.fragment
      rw [hconditions, whereClause_of_conjunction _ _ chain.single bare hwhole]
      rfl
    refine ⟨_, _, rfl, ?_, ?_⟩
    · unfold Fragment.statement
      rw [hfragment]
      simp only [Fragment.sql_append, Fragment.sql_ofText, Fragment.binds_append,
        Fragment.binds_ofText, List.length_append, List.nil_append, List.length_nil, Nat.add_zero,
        Nat.zero_add, String.append_assoc]
    · unfold Fragment.statement
      rw [hfragment]
      simp only [Fragment.binds_append, Fragment.binds_ofText, List.nil_append]
  · intro hnone
    unfold Clauses.fragment
    rw [hconditions, hnone]
    exact congrArg (fun f => Fragment.statement (f ++ _)) (List.append_nil _)

end Chain

namespace Library

def titleOrAuthor : Expr :=
  .binary .or (.eq (.col "title") (.literal (.text "Emma"))) (.isNull (.col "author") false)

def titledBy : Expr :=
  .paren (.binary .and titleOrAuthor (.unary .not titleOrAuthor))

def searchedBooks : ChainLevel :=
  ⟨((ResultSet.ofSource schema book).search (some titledBy)
      (some { plusSelect := [.literal (.int 7)], plusAs := ["seven"] })).search
      (some (.eq (.col "author") (.literal (.int 4)))) none,
    [titleOrAuthor, .unary .not titleOrAuthor, .eq (.col "author") (.literal (.int 4))]⟩

theorem chain_searchedBooks : Chain schema searchedBooks [] := by
  have hall : schema.resultSet "Book" = .ok (ResultSet.ofSource schema book) := rfl
  have hbuilt : ∀ a ∈ some ({ plusSelect := [.literal (.int 7)], plusAs := ["seven"] } :
      Attributes ResultSet), a.join.Built := by
    intro a ha
    cases ha
    exact .none
  have hnone : ∀ a ∈ (none : Option (Attributes ResultSet)), a.join.Built := by
    intro a ha
    cases ha
  have hgives (e : Expr) : Gives (some e) e.conjuncts := .some e.flattens_conjuncts
  exact .search none hnone (hgives (.eq (.col "author") (.literal (.int 4))))
    (.search _ hbuilt (hgives titledBy) (.all hall))

end Library

theorem searched_conjunction_searchedBooks :
    Chain Library.schema Library.searchedBooks [] ∧
      (∀ e ∈ Library.searchedBooks.given, ¬e.IsRaw) ∧
      (Library.searchedBooks.set.prepare {}).map (·.statement.sql) =
        .ok "SELECT me.id, me.author, me.title, $1 FROM books me WHERE (me.title = $2 OR me.author IS NULL) AND NOT (me.title = $3 OR me.author IS NULL) AND me.author = $4" ∧
      ∃ p c whole text params, Library.searchedBooks.set.prepare {} = .ok p ∧
        Library.searchedBooks.set.compiled.clauses = .ok c ∧
        ResultSet.conjunction Library.searchedBooks.given = some whole ∧
        (whole.fragment {} c.plan.scope).write
          (c.front Library.searchedBooks.set.compiled {}).binds = (text, params) ∧
        p.statement.sql = (c.front Library.searchedBooks.set.compiled {}).sql 0 ++ " WHERE " ++
          text ++ (c.back Library.searchedBooks.set.compiled {}).sql params.length ∧
        ∀ v, ∃ both, ResultSet.conjunction Library.titledBy.conjuncts = some both ∧
          both.truth v = Library.titledBy.truth v := by
  have hbare : ∀ e ∈ Library.searchedBooks.given, ¬e.IsRaw := by
    rintro e he ⟨sql, values, rfl⟩
    simp [Library.searchedBooks, Library.titleOrAuthor, Expr.eq] at he
  obtain ⟨hwritten, htruth⟩ := Library.chain_searchedBooks.searched_conjunction hbare
  obtain ⟨c, hc, hwhole, _⟩ := hwritten {} _ rfl
  obtain ⟨text, params, hwrite, hsql, _⟩ := hwhole _ rfl
  exact ⟨Library.chain_searchedBooks, hbare, by cbv, _, c, _, text, params, rfl, hc, rfl, hwrite,
    hsql, htruth Library.titledBy⟩

end RelQuery
