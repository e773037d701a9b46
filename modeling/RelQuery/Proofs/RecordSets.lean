import RelQuery.Proofs.ColumnNames
import RelQuery.Proofs.Conjuncts
import RelQuery.Proofs.ExposedColumns
import RelQuery.Proofs.SearchedConditions

/-!
# Sets related to a record

A relationship is followed from a record pair by pair. The first column that the record does not
have is an error, and the first NULL that stands for no related row leaves no set. Otherwise the set
is that of the related source with one condition for each pair.
-/

namespace RelQuery

set_option autoImplicit false

open Fragment (ofText)

/-- A record has a value for its side of a pair, and it is no NULL that stands for no related
row. -/
structure ColumnPair.Passes (record : Record) (noneOnNull : Bool) (p : ColumnPair) (v : Value) :
    Prop where
  read : record.getColumn p.own = .ok v
  kept : v.isNull = true → noneOnNull = false

def keyCondition (k : ColumnPair × Value) : Expr :=
  if k.2.isNull then .isNull (.column (some rootAlias) k.1.foreign) false
  else .binary .eq (.column (some rootAlias) k.1.foreign) (.literal k.2)

/-- The pairs of a relationship lead from a record to an error, to no set, or to one condition for
each of them. -/
inductive KeyRun (record : Record) (noneOnNull : Bool) :
    List ColumnPair → Except Error (Option (List Expr)) → Prop where
  | missing {before after : List ColumnPair} {p : ColumnPair}
    (passed : ∀ q ∈ before, ∃ v, q.Passes record noneOnNull v)
    (missing : p.own ∉ record.projection.names) :
    KeyRun record noneOnNull (before ++ p :: after)
      (.error (.missingColumn ⟨p.own, record.projection.names⟩))
  | unrelated {before after : List ColumnPair} {p : ColumnPair} {v : Value}
    (passed : ∀ q ∈ before, ∃ v, q.Passes record noneOnNull v)
    (read : record.getColumn p.own = .ok v) (null : v.isNull = true) (none : noneOnNull = true) :
    KeyRun record noneOnNull (before ++ p :: after) (.ok .none)
  | keyed {pairs : List ColumnPair} {values : List Value}
    (passed : List.Forall₂ (ColumnPair.Passes record noneOnNull) pairs values) :
    KeyRun record noneOnNull pairs (.ok (some ((pairs.zip values).map keyCondition)))

theorem KeyRun.cons {record : Record} {noneOnNull : Bool} {p : ColumnPair} {v : Value}
    {pairs : List ColumnPair} {result : Except Error (Option (List Expr))}
    (h : KeyRun record noneOnNull pairs result) (first : p.Passes record noneOnNull v) :
    KeyRun record noneOnNull (p :: pairs) (result.map (·.map (keyCondition (p, v) :: ·))) := by
  have hbefore {before : List ColumnPair}
      (passed : ∀ q ∈ before, ∃ v, q.Passes record noneOnNull v) :
      ∀ q ∈ p :: before, ∃ v, q.Passes record noneOnNull v :=
    List.forall_mem_cons.mpr ⟨⟨v, first⟩, passed⟩
  cases h with
  | missing passed missing => exact .missing (hbefore passed) missing
  | unrelated passed read null none => exact .unrelated (hbefore passed) read null none
  | keyed passed => exact .keyed (.cons first passed)

namespace ResultSet

theorem keyConditions_cons {record : Record} {noneOnNull : Bool} {p : ColumnPair} {v : Value}
    (rest : List ColumnPair) (read : record.getColumn p.own = .ok v) :
    keyConditions record noneOnNull (p :: rest) =
      if v.isNull && noneOnNull then .ok none
      else (keyConditions record noneOnNull rest).map (·.map (keyCondition (p, v) :: ·)) := by
  rw [keyConditions, read]
  rfl

theorem keyRun (record : Record) (noneOnNull : Bool) (pairs : List ColumnPair) :
    KeyRun record noneOnNull pairs (keyConditions record noneOnNull pairs) := by
  induction pairs with
  | nil => exact .keyed .nil
  | cons p rest ih =>
    by_cases hmem : p.own ∈ record.projection.names
    · obtain ⟨v, hread⟩ := Record.getColumn_eq_ok_iff.mpr hmem
      rw [keyConditions_cons rest hread]
      cases hnull : v.isNull && noneOnNull with
      | true =>
        obtain ⟨hnull, hnone⟩ := Bool.and_eq_true_iff.mp hnull
        exact @KeyRun.unrelated _ _ [] rest p v (fun q hq => absurd hq List.not_mem_nil) hread hnull
          hnone
      | false =>
        refine ih.cons ⟨hread, fun h => ?_⟩
        rw [h, Bool.true_and] at hnull
        exact hnull
    · rw [keyConditions, Record.getColumn_of_not_mem hmem]
      exact @KeyRun.missing _ _ [] rest p (fun q hq => absurd hq List.not_mem_nil) hmem

theorem conjuncts_conjunction {es : List Expr} (single : ∀ e ∈ es, e.Single) :
    ((conjunction es).map Expr.conjuncts).getD [] = es := by
  have hfold (e : Expr) (es : List Expr) (single : ∀ e ∈ es, e.Single) :
      (es.foldl Expr.and e).conjuncts = e.conjuncts ++ es := by
    induction es generalizing e with
    | nil => exact (List.append_nil _).symm
    | cons next es ih =>
      obtain ⟨hnext, hes⟩ := List.forall_mem_cons.mp single
      rw [List.foldl_cons, ih _ hes, Expr.conjuncts_and, Expr.conjuncts_of_single hnext,
        List.append_assoc]
      rfl
  cases es with
  | nil => rfl
  | cons e es =>
    obtain ⟨he, hes⟩ := List.forall_mem_cons.mp single
    change (es.foldl Expr.and e).conjuncts = e :: es
    rw [hfold e es hes, Expr.conjuncts_of_single he]
    rfl

end ResultSet

def keyTexts (style : Style) : Nat → List (ColumnPair × Value) → List String
  | _, [] => []
  | n, (p, v) :: rest =>
    if v.isNull then (style.qualified rootAlias p.foreign ++ " IS NULL") :: keyTexts style n rest
    else (style.qualified rootAlias p.foreign ++ " = " ++ style.dialect.placeholder (n + 1)) ::
      keyTexts style (n + 1) rest

section Texts

variable (style : Style) (k : ColumnPair × Value)

theorem single_keyCondition : (keyCondition k).Single := by
  unfold keyCondition
  split
  · exact ⟨nofun, nofun⟩
  · exact ⟨nofun, nofun⟩

theorem conjunct_keyCondition (among : Bool) :
    conjunct style among (keyCondition k) Scope.top =
      (keyCondition k).fragment style Scope.top := by
  have hloose : (keyCondition k).isLoose = false := by
    unfold keyCondition
    split
    · rfl
    · rfl
  unfold conjunct
  rw [hloose, Bool.and_false]
  rfl

theorem fragment_keyCondition : (keyCondition k).fragment style Scope.top =
    if k.2.isNull then ofText (style.qualified rootAlias k.1.foreign) ++ ofText " IS NULL"
    else ofText (style.qualified rootAlias k.1.foreign) ++ ofText " = " ++
      [.bind style.dialect k.2] := by
  unfold keyCondition
  split
  · rfl
  · rfl

end Texts

section Keys

variable (style : Style) (n : Nat) (keys : List (ColumnPair × Value))

theorem sql_keyConditions :
    (Fragment.join " AND " (keys.map fun k => (keyCondition k).fragment style Scope.top)).sql n =
      String.intercalate " AND " (keyTexts style n keys) := by
  rw [Fragment.sql_join]
  congr 1
  induction keys generalizing n with
  | nil => rfl
  | cons k keys ih =>
    rw [List.map_cons, Fragment.texts, ih, fragment_keyCondition, keyTexts]
    cases k.2.isNull with
    | true => simp [Fragment.sql_append]
    | false => simp [Fragment.sql_append, Fragment.sql, String.append_assoc]

theorem binds_keyConditions :
    (Fragment.join " AND " (keys.map fun k => (keyCondition k).fragment style Scope.top)).binds =
      (keys.map (·.2)).filter (!·.isNull) := by
  rw [Fragment.binds_join]
  induction keys with
  | nil => rfl
  | cons k keys ih =>
    rw [List.map_cons, List.flatMap_cons, ih, fragment_keyCondition, List.map_cons]
    cases hv : k.2.isNull with
    | true => simp [hv]
    | false => simp [hv]

theorem whereClause_keyConditions {keys : List (ColumnPair × Value)} (some : keys ≠ []) :
    whereClause style ((keys.map keyCondition).map (·, Scope.top)) = ofText " WHERE " ++
      Fragment.join " AND " (keys.map fun k => (keyCondition k).fragment style Scope.top) := by
  unfold whereClause clause
  simp only [conjunct_keyCondition, List.map_map, Function.comp_def, List.isEmpty_iff,
    List.map_eq_nil_iff]
  rw [if_neg some]

end Keys

namespace ResultSet

def tableClauses (rs : ResultSet) : Clauses :=
  ⟨rs.query.source.columns.map SelectEntry.ofColumn, ⟨Scope.top, [], []⟩,
    ofText (rs.query.style.ident rs.query.source.table ++ " " ++ rs.query.style.ident rootAlias),
    [], ⟨none, none⟩⟩

def meeting (schema : Schema) (s : Source) (conditions : List Expr) : ResultSet :=
  ⟨{ schema, source := s, conditions }⟩

variable {schema : Schema} {s : Source}

theorem clauses_meeting (conditions : List Expr) :
    (meeting schema s conditions).compiled.clauses =
      .ok (meeting schema s conditions).tableClauses := by
  refine Query.clauses_eq_ok.mpr ⟨?_, rfl, rfl, .nil, rfl⟩
  change Except.ok (_ ++ [] ++ [] ++ []) = _
  simp only [List.append_nil]
  rfl

theorem statement_meeting {keys : List (ColumnPair × Value)} (some : keys ≠ [])
    (identifiers : ∀ column ∈ s.columns, isIdentifier column = true) :
    ((meeting schema s (keys.map keyCondition)).tableClauses.fragment
      (meeting schema s (keys.map keyCondition)).compiled {}).statement =
      ⟨"SELECT " ++
          String.intercalate ", " (s.columns.map (schema.config.style.qualified rootAlias)) ++
          " FROM " ++ schema.config.style.ident s.table ++ " " ++
          schema.config.style.ident rootAlias ++ " WHERE " ++
          String.intercalate " AND " (keyTexts schema.config.style 0 keys),
        (keys.map (·.2)).filter (!·.isNull)⟩ := by
  have hentries : (s.columns.map SelectEntry.ofColumn).map
      (·.expr.fragment schema.config.style Scope.top) =
      (s.columns.map (schema.config.style.qualified rootAlias)).map ofText := by
    rw [SelectEntry.map_ofColumn identifiers, List.map_map, List.map_map]
    exact List.map_congr_left fun column _ => Expr.fragment_of_rootColumn? rfl _ rfl
  have hwhere : whereClause schema.config.style
      ((meeting schema s (keys.map keyCondition)).tableClauses.conditions
        (meeting schema s (keys.map keyCondition)).compiled) =
      ofText " WHERE " ++ Fragment.join " AND "
        (keys.map fun k => (keyCondition k).fragment schema.config.style Scope.top) := by
    rw [← whereClause_keyConditions _ some]
    exact congrArg (whereClause _) (List.append_nil _)
  have hfragment : (meeting schema s (keys.map keyCondition)).tableClauses.fragment
      (meeting schema s (keys.map keyCondition)).compiled {} =
      ofText "SELECT " ++ (ofText "" ++ Fragment.join ", "
        ((s.columns.map (schema.config.style.qualified rootAlias)).map ofText)) ++
      ofText " FROM " ++
      ofText (schema.config.style.ident s.table ++ " " ++ schema.config.style.ident rootAlias) ++
      [] ++
      (ofText " WHERE " ++ Fragment.join " AND "
        (keys.map fun k => (keyCondition k).fragment schema.config.style Scope.top)) ++
      ([] ++ ofText ("" ++ "")) := by
    rw [← hentries, ← hwhere]
    rfl
  unfold Fragment.statement
  rw [hfragment]
  simp only [Fragment.sql_append, Fragment.sql_join_ofText, sql_keyConditions, Fragment.sql_ofText,
    Fragment.binds_append, Fragment.binds_ofText, Fragment.binds_join_ofText, binds_keyConditions,
    List.append_nil, List.nil_append, List.length_nil, Nat.add_zero, String.append_empty,
    String.empty_append, String.append_assoc]

/-- Where a relationship leads from a record. The first pair that does not let the record pass
decides; when all do, the set of the related rows has no attributes and no previous roots, and one
condition for each pair. -/
inductive FollowsRecord (rs : ResultSet) (record : Record) (name : String) (r : Relationship)
    (pairs : List ColumnPair) : Prop where
  | missing {before after : List ColumnPair} {p : ColumnPair} (split : pairs = before ++ p :: after)
    (passed : ∀ q ∈ before, ∃ v, q.Passes record r.noneOnNull v)
    (missing : p.own ∉ record.projection.names)
    (outcome : rs.relatedResultSet record name =
      ⟨.error (.missingColumn ⟨p.own, record.projection.names⟩), []⟩)
  | unrelated {before after : List ColumnPair} {p : ColumnPair} {v : Value}
    (split : pairs = before ++ p :: after)
    (passed : ∀ q ∈ before, ∃ v, q.Passes record r.noneOnNull v)
    (read : record.getColumn p.own = .ok v) (null : v.isNull = true) (none : r.noneOnNull = true)
    (outcome : rs.relatedResultSet record name = ⟨.ok .none, []⟩)
  | keyed {values : List Value} {target : Source}
    (passed : List.Forall₂ (ColumnPair.Passes record r.noneOnNull) pairs values)
    (registered : rs.query.schema.source r.target = .ok target)
    (outcome : rs.relatedResultSet record name = ⟨.ok (some
      (meeting rs.query.schema target ((pairs.zip values).map keyCondition))), []⟩)
    (statement : (meeting rs.query.schema target ((pairs.zip values).map keyCondition)).asQuery =
      ⟨.ok ⟨"SELECT " ++
          String.intercalate ", " (target.columns.map (rs.query.style.qualified rootAlias)) ++
          " FROM " ++ rs.query.style.ident target.table ++ " " ++ rs.query.style.ident rootAlias ++
          " WHERE " ++ String.intercalate " AND " (keyTexts rs.query.style 0 (pairs.zip values)),
        values.filter (!·.isNull)⟩, []⟩)

variable {rs : ResultSet} {record : Record} {name : String} {r : Relationship}
  {pairs : List ColumnPair}

theorem relatedResultSet_of_pairs (noHook : rs.query.schema.config.hook = none)
    (declared : rs.query.source.relationship? name = some r)
    (declarative : r.condition = .pairs pairs)
    {target : Source} (registered : rs.query.schema.source r.target = .ok target) :
    rs.relatedResultSet record name = ⟨(keyConditions record r.noneOnNull pairs).map (·.map
      fun conditions => (ofSource rs.query.schema target).search (conjunction conditions) none),
        []⟩ := by
  have hrelationship : rs.query.relationship name = .ok r := relationship_eq_ok.mpr declared
  have hpairs : r.condition.pairs? = some pairs := by
    rw [declarative]
    rfl
  have hrelated : rs.query.schema.resultSet r.target = .ok (ofSource rs.query.schema target) := by
    unfold Schema.resultSet
    rw [registered]
    rfl
  unfold relatedResultSet Schema.guard relatedTo
  rw [noHook, guarded_none, hrelationship]
  simp only [bind, Except.bind, hpairs, hrelated]
  cases keyConditions record r.noneOnNull pairs with
  | error e => rfl
  | ok conditions =>
    cases conditions with
    | none => rfl
    | some conditions => rfl

theorem search_conjunction (schema : Schema) (s : Source) {conditions : List Expr}
    (single : ∀ e ∈ conditions, e.Single) :
    (ofSource schema s).search (conjunction conditions) none = meeting schema s conditions := by
  unfold search Query.search ofSource meeting
  rw [conjuncts_conjunction single]
  rfl

theorem asQuery_meeting {schema : Schema} {s : Source} {pairs : List ColumnPair}
    (some : pairs ≠ []) {values : List Value}
    (width : pairs.length = values.length)
    (identifiers : ∀ column ∈ s.columns, isIdentifier column = true) :
    (meeting schema s ((pairs.zip values).map keyCondition)).asQuery =
      ⟨.ok ⟨"SELECT " ++
          String.intercalate ", " (s.columns.map (schema.config.style.qualified rootAlias)) ++
          " FROM " ++ schema.config.style.ident s.table ++ " " ++
          schema.config.style.ident rootAlias ++ " WHERE " ++
          String.intercalate " AND " (keyTexts schema.config.style 0 (pairs.zip values)),
        values.filter (!·.isNull)⟩, []⟩ := by
  have hsome : pairs.zip values ≠ [] := by
    intro hnil
    have hlength := congrArg List.length hnil
    rw [List.length_zip, ← width, Nat.min_self] at hlength
    exact some (List.length_eq_zero_iff.mp hlength)
  have hvalues : (pairs.zip values).map (·.2) = values :=
    List.map_snd_zip (Nat.le_of_eq width.symm)
  have hstatement := @statement_meeting schema s _ hsome identifiers
  rw [hvalues] at hstatement
  unfold asQuery compile guard Schema.guard
  rw [prepare_eq_ok.mpr ⟨_, clauses_meeting _, rfl⟩, hstatement]
  rfl

end ResultSet

namespace Library

def shelfSteps : List SchemaStep :=
  [.source ⟨"Volume", "volumes", none, ["id", "room", "shelf"], ["id"], []⟩,
    .source ⟨"Shelf", "shelves", none, ["room", "number"], ["room", "number"], []⟩,
    .relate "Shelf"
      { kind := .hasMany, name := "volumes", target := "Volume"
        condition := .mapping [("room", "room"), ("shelf", "number")] }]

def volumesOfShelf : Relationship :=
  ⟨"volumes", .hasMany, "Volume", .pairs [⟨"room", "room"⟩, ⟨"shelf", "number"⟩], .multi, .left,
    true, true, false, false⟩

def shelf : Source :=
  ⟨"Shelf", "shelves", none, ["room", "number"], ["room", "number"], [volumesOfShelf]⟩

def volume : Source := ⟨"Volume", "volumes", none, ["id", "room", "shelf"], ["id"], []⟩

def shelfSchema : Schema := ⟨{}, [shelf, volume]⟩

theorem built_shelfSteps : ∀ s, .source s ∈ shelfSteps → s.Built := by
  intro s hs
  simp only [shelfSteps, List.mem_cons, SchemaStep.source.injEq, reduceCtorEq, List.not_mem_nil,
    or_false] at hs
  rcases hs with rfl | rfl
  · exact .primaryKey ["id"] (.columns ["id", "room", "shelf"] (.table "volumes" (.named "Volume")))
  · exact .primaryKey ["room", "number"]
      (.columns ["room", "number"] (.table "shelves" (.named "Shelf")))

theorem obtained_shelf : Obtained (ResultSet.ofSource shelfSchema shelf) := by
  have made : Schema.ofSteps shelfSteps = .ok shelfSchema := rfl
  exact .all made built_shelfSteps (show shelfSchema.resultSet "Shelf" = .ok _ from rfl)

def unnumbered : Record := ⟨[("number", .null), ("room", .int 4)]⟩

end Library

end RelQuery
