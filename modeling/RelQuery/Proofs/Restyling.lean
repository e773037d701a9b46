import RelQuery.Proofs.Clauses
import RelQuery.Proofs.Reconfiguring

/-!
# Sets in another style

The set that the same calls reach from a schema with another style. It differs in the schema that it
and its sub-selects belong to, and its statements have the same joins.
-/

namespace RelQuery

set_option autoImplicit false

variable {σ τ : Type}

def Schema.restyled (style : Style) (schema : Schema) : Schema :=
  { schema with config := ⟨style, none⟩ }

def Query.restyled (style : Style) (q : Query σ) : Query σ :=
  { q with schema := q.schema.restyled style }

/-- The set with its schema in a style, and with it those of all sub-selects. -/
def ResultSet.restyled (style : Style) : ResultSet → ResultSet :=
  ResultSet.fold fun q => ⟨q.restyled style⟩

variable (style : Style)

theorem Query.plan_restyled (q : Query σ) : (q.restyled style).plan = q.plan :=
  q.plan_reconfigured fun _ => ⟨style, none⟩

namespace ResultSet

variable (rs : ResultSet)

theorem restyled_eq : rs.restyled style = ⟨(rs.query.map (restyled style)).restyled style⟩ :=
  rs.fold_eq _

theorem restyled_query :
    (rs.restyled style).query = (rs.query.map (restyled style)).restyled style :=
  rs.reconfigured_query fun _ => ⟨style, none⟩

@[simp] theorem restyled_source : (rs.restyled style).query.source = rs.query.source :=
  rs.reconfigured_source fun _ => ⟨style, none⟩

@[simp] theorem restyled_schema :
    (rs.restyled style).query.schema = rs.query.schema.restyled style :=
  rs.reconfigured_schema fun _ => ⟨style, none⟩

theorem restyled_search (condition : Option Expr) (attrs : Option (Attributes ResultSet)) :
    (rs.search condition attrs).restyled style =
      (rs.restyled style).search condition (attrs.map (Attributes.map (restyled style))) :=
  rs.reconfigured_search (fun _ => ⟨style, none⟩) condition attrs

theorem restyled_asSubselect :
    rs.asSubselect.restyled style = (rs.restyled style).asSubselect :=
  rs.reconfigured_asSubselect fun _ => ⟨style, none⟩

theorem restyled_related (name : String) :
    (rs.restyled style).related name = (rs.related name).map (restyled style) :=
  rs.reconfigured_related (fun _ => ⟨style, none⟩) name

end ResultSet

theorem ResultSet.restyled_eq_self {rs : ResultSet}
    (h : rs.Everywhere (·.schema.config = ⟨style, none⟩)) : rs.restyled style = rs := by
  induction h with
  | @intro q here _ ih =>
    rw [restyled_eq, (Query.map_congr ih).trans q.map_id]
    unfold Query.restyled Schema.restyled
    rw [← here]

theorem joins_map_built (f : σ → τ) {attrs : Option (Attributes σ)}
    (built : ∀ a ∈ attrs, a.join.Built) :
    ∀ a ∈ attrs.map (Attributes.map f), a.join.Built := by
  intro a ha
  obtain ⟨b, hb, rfl⟩ := Option.map_eq_some_iff.mp ha
  exact built b hb

/-- The same calls reach the restyled set from the restyled schema. -/
theorem Reached.restyled {schema : Schema} {rs : ResultSet} (h : Reached schema rs) :
    Reached (schema.restyled style) (rs.restyled style) := by
  induction h with
  | @all name rs found =>
    obtain ⟨s, hs, rfl⟩ := map_eq_ok.mp found
    rw [ResultSet.restyled_eq]
    exact .all (map_eq_ok.mpr ⟨s, hs, rfl⟩)
  | search condition attrs built _ ih =>
    rw [ResultSet.restyled_search]
    exact .search condition _ (joins_map_built (ResultSet.restyled style) built) ih
  | related name condition attrs built _ found ih =>
    obtain ⟨related, hrelated, rfl⟩ := ResultSet.searchRelated_eq_some.mp found
    rw [ResultSet.restyled_search]
    refine .related name condition _ (joins_map_built (ResultSet.restyled style) built) ih ?_
    refine ResultSet.searchRelated_eq_some.mpr ⟨related.restyled style, ?_, rfl⟩
    rw [ResultSet.restyled_related, hrelated]
    rfl
  | asSubselect _ ih =>
    rw [ResultSet.restyled_asSubselect]
    exact .asSubselect ih

end RelQuery
