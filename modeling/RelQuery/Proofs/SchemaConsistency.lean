import RelQuery.Proofs.ColumnMaps
import RelQuery.Proofs.SchemaSteps

/-!
# Consistent schemas

What every step in the making of a schema keeps: sources are found by their own names, the names in
them are identifiers, keys are declared columns, and each relationship is what one of the
declarations made so far resolves to.
-/

namespace RelQuery

set_option autoImplicit false

namespace Source

inductive Built : Source → Prop where
  | named (name : String) : Built (.named name)
  | table {s : Source} (table : String) (h : s.Built) : Built { s with table }
  | className {s : Source} (className : String) (h : s.Built) :
    Built { s with className := some className }
  | columns {s : Source} (columns : List String) (h : s.Built) : Built (s.addColumns columns)
  | primaryKey {s : Source} (primaryKey : List String) (h : s.Built) : Built { s with primaryKey }

structure WellNamed (s : Source) : Prop where
  name : isIdentifier s.name = true
  columns : ∀ c ∈ s.columns, isIdentifier c = true
  nodup : s.columns.Nodup
  keys : ∀ key ∈ s.primaryKey, key ∈ s.columns

def bare (s : Source) : Source := { s with relationships := [] }

variable {s t : Source}

theorem nodup_appendNew {names : List String} (h : names.Nodup) (name : String) :
    (appendNew names name).Nodup := by
  unfold appendNew
  split
  · exact h
  · rename_i hnew
    rw [← List.concat_eq_append]
    exact List.Nodup.concat (by simpa using hnew) h

theorem nodup_foldl_appendNew {names : List String} (h : names.Nodup) (columns : List String) :
    (columns.foldl appendNew names).Nodup := by
  induction columns generalizing names with
  | nil => exact h
  | cons column columns ih => exact ih (nodup_appendNew h column)

theorem Built.nodup (h : s.Built) : s.columns.Nodup := by
  induction h with
  | named name => exact List.nodup_nil
  | columns columns _ ih => exact nodup_foldl_appendNew ih columns
  | _ => assumption

theorem Built.relationships_eq (h : s.Built) : s.relationships = [] := by
  induction h with
  | named name => rfl
  | _ => assumption

theorem Built.wellNamed (h : s.Built) (valid : s.validate = .ok ()) : s.WellNamed := by
  obtain ⟨hname, hcolumns, hkeys⟩ := validate_eq_ok.mp valid
  exact ⟨hname, hcolumns, h.nodup, hkeys⟩

theorem WellNamed.validate (h : s.WellNamed) : s.validate = .ok () :=
  validate_eq_ok.mpr ⟨h.name, h.columns, h.keys⟩

theorem WellNamed.of_bare_eq (h : s.WellNamed) (heq : t.bare = s.bare) : t.WellNamed := by
  cases s
  cases t
  cases heq
  exact ⟨h.name, h.columns, h.nodup, h.keys⟩

theorem eq_of_addRelationship {r : Relationship} (h : s.addRelationship r = .ok t) :
    t = { s with relationships := s.relationships ++ [r] } := by
  unfold addRelationship at h
  split at h
  · cases h
    rfl
  · cases h

end Source

namespace Declaration

variable {d : Declaration} {own target : Source}

theorem resolve_bare (d : Declaration) (own target : Source) :
    d.resolve own.bare target.bare = d.resolve own target := rfl

theorem resolve_congr {own' target' : Source} (hown : own'.bare = own.bare)
    (htarget : target'.bare = target.bare) : d.resolve own' target' = d.resolve own target := by
  rw [← resolve_bare, hown, htarget, resolve_bare]

end Declaration

namespace Schema

variable {schema after : Schema} {steps : List SchemaStep}

theorem step?_cases {step : SchemaStep} (h : schema.step? step = .ok after) :
    (∃ config, step = .configure config ∧ after.sources = schema.sources) ∨
    (∃ s, step = .source s ∧ s.validate = .ok () ∧ schema.source? s.name = none ∧
      after.sources = insertSource s schema.sources) ∨
    ∃ declaring d own target r related, step = .relate declaring d ∧
      schema.source declaring = .ok own ∧ schema.source d.target = .ok target ∧
      d.resolve own target = .ok r ∧ own.addRelationship r = .ok related ∧
      after.sources = schema.sources.map fun s => if s.name = declaring then related else s := by
  cases step with
  | configure config =>
    cases h
    exact .inl ⟨config, rfl, rfl⟩
  | source s =>
    obtain ⟨_, hvalid, h⟩ := bind_eq_ok.mp h
    split at h
    · rename_i hnew
      rw [← pure_eq_ok.mp h]
      exact .inr (.inl ⟨s, rfl, hvalid, hnew, rfl⟩)
    · cases h
  | relate declaring d =>
    obtain ⟨own, hown, h⟩ := bind_eq_ok.mp h
    obtain ⟨target, htarget, h⟩ := bind_eq_ok.mp h
    obtain ⟨r, hr, h⟩ := bind_eq_ok.mp h
    obtain ⟨related, hrelated, h⟩ := bind_eq_ok.mp h
    rw [← pure_eq_ok.mp h]
    exact .inr (.inr ⟨declaring, d, own, target, r, related, rfl, hown, mapError_eq_ok.mp htarget,
      hr, hrelated, rfl⟩)

theorem name_replaced {declaring : String} {own related : Source} {r : Relationship}
    (hown : schema.source declaring = .ok own) (hrelated : own.addRelationship r = .ok related)
    (s : Source) : (if s.name = declaring then related else s).name = s.name := by
  split
  · rename_i hs
    rw [Source.eq_of_addRelationship hrelated, hs, ← name_of_source hown]
  · rfl

theorem source?_insertSource {s : Source} {sources : List Source}
    (hnew : ∀ t ∈ sources, t.name ≠ s.name) (name : String) :
    (insertSource s sources).find? (·.name = name) =
      if s.name = name then some s else sources.find? (·.name = name) := by
  induction sources with
  | nil =>
    by_cases hname : s.name = name
    · simp [insertSource, hname]
    · simp [insertSource, hname]
  | cons t rest ih =>
    obtain ⟨hfirst, hrest⟩ := List.forall_mem_cons.mp hnew
    unfold insertSource
    split
    · by_cases hname : s.name = name
      · simp [hname]
      · simp [List.find?_cons, hname]
    · rw [List.find?_cons, ih hrest, List.find?_cons]
      by_cases hname : s.name = name
      · have ht : t.name ≠ name := hname ▸ hfirst
        simp [hname, ht]
      · simp [hname]

/-- The sources of a schema and their relationships, as the steps have made them. -/
structure Recorded (schema : Schema) (steps : List SchemaStep) : Prop where
  registered : ∀ s ∈ schema.sources, schema.source s.name = .ok s
  wellNamed : ∀ s ∈ schema.sources, s.WellNamed
  distinct : ∀ s ∈ schema.sources, s.Distinct
  resolved : ∀ s ∈ schema.sources, ∀ r ∈ s.relationships, ∃ d t, .relate s.name d ∈ steps ∧
    schema.source r.target = .ok t ∧ d.resolve s t = .ok r

theorem source_insertSource {s t : Source} (hnew : schema.source? s.name = none)
    (hsources : after.sources = insertSource s schema.sources) (name : String) :
    after.source name = .ok t ↔ s.name = name ∧ s = t ∨ schema.source name = .ok t := by
  have hnames : ∀ u ∈ schema.sources, u.name ≠ s.name := by
    intro u hu
    simpa using List.find?_eq_none.mp hnew u hu
  rw [source_eq_ok, source_eq_ok, source?, hsources, source?_insertSource hnames]
  by_cases hname : s.name = name
  · have hnone : schema.source? name = none := hname ▸ hnew
    simp [hname, hnone]
  · simp [hname, source?]

theorem source_map {f : Source → Source} (hname : ∀ s, (f s).name = s.name)
    (hsources : after.sources = schema.sources.map f) (name : String) :
    after.source name = (schema.source name).map f := by
  have hfind : after.source? name = (schema.source? name).map f := by
    unfold source?
    rw [hsources, List.find?_map]
    simp only [Function.comp_def, hname]
  unfold source
  rw [hfind]
  cases schema.source? name with
  | none => rfl
  | some t => rfl

theorem Recorded.configure (h : schema.Recorded steps) (hsources : after.sources = schema.sources) :
    after.Recorded steps := by
  have hsource : after.source = schema.source := by
    funext name
    simp only [source, source?, hsources]
  refine ⟨?_, ?_, ?_, ?_⟩
  · rw [hsources, hsource]
    exact h.registered
  · rw [hsources]
    exact h.wellNamed
  · rw [hsources]
    exact h.distinct
  · rw [hsources, hsource]
    exact h.resolved

theorem Recorded.insert (h : schema.Recorded steps) {s : Source} (built : s.Built)
    (valid : s.validate = .ok ()) (hnew : schema.source? s.name = none)
    (hsources : after.sources = insertSource s schema.sources) : after.Recorded steps := by
  have hfound := fun {name : String} {t : Source} => source_insertSource (t := t) hnew hsources name
  have hnone := built.relationships_eq
  refine ⟨?_, ?_, ?_, ?_⟩ <;> rw [hsources] <;> intro t ht <;>
    rcases mem_insertSource.mp ht with rfl | ht
  · exact hfound.mpr (.inl ⟨rfl, rfl⟩)
  · exact hfound.mpr (.inr (h.registered t ht))
  · exact built.wellNamed valid
  · exact h.wellNamed t ht
  · unfold Source.Distinct
    rw [hnone]
    exact List.nodup_nil
  · exact h.distinct t ht
  · intro r hr
    rw [hnone] at hr
    exact absurd hr List.not_mem_nil
  · intro r hr
    obtain ⟨d, u, hstep, hu, hresolve⟩ := h.resolved t ht r hr
    exact ⟨d, u, hstep, hfound.mpr (.inr hu), hresolve⟩

theorem Recorded.relate (h : schema.Recorded steps) {declaring : String} {d : Declaration}
    {own target related : Source} {r : Relationship} (step : .relate declaring d ∈ steps)
    (hown : schema.source declaring = .ok own) (htarget : schema.source d.target = .ok target)
    (hr : d.resolve own target = .ok r) (hrelated : own.addRelationship r = .ok related)
    (hsources : after.sources = schema.sources.map fun s =>
      if s.name = declaring then related else s) : after.Recorded steps := by
  have hrelatedEq := Source.eq_of_addRelationship hrelated
  have hownName := name_of_source hown
  have hsame : ∀ s ∈ schema.sources, s.name = declaring → s = own := by
    intro s hs hname
    have hfound := h.registered s hs
    rw [hname, hown] at hfound
    exact (Except.ok.inj hfound).symm
  have hname := name_replaced hown hrelated
  have hbare : ∀ s ∈ schema.sources,
      (if s.name = declaring then related else s).bare = s.bare := by
    intro s hs
    split
    · rename_i hdeclaring
      rw [hrelatedEq, hsame s hs hdeclaring]
      rfl
    · rfl
  have hfound := source_map hname hsources
  refine ⟨?_, ?_, ?_, ?_⟩ <;> rw [hsources] <;> intro s hs <;>
    obtain ⟨t, ht, rfl⟩ := List.mem_map.mp hs
  · rw [hfound, hname, h.registered t ht]
    rfl
  · exact (h.wellNamed t ht).of_bare_eq (hbare t ht)
  · split
    · exact Source.distinct_of_addRelationship (h.distinct own (mem_of_source hown)) hrelated
    · exact h.distinct t ht
  · intro q hq
    rw [hname]
    have hold : q ∈ t.relationships ∨ t = own ∧ q = r := by
      split at hq
      · rename_i hdeclaring
        have ht := hsame t ht hdeclaring
        rw [hrelatedEq] at hq
        rcases List.mem_append.mp hq with hq | hq
        · exact .inl (ht ▸ hq)
        · exact .inr ⟨ht, List.mem_singleton.mp hq⟩
      · exact .inl hq
    rcases hold with hq | ⟨rfl, rfl⟩
    · obtain ⟨e, u, hstep, hu, hresolve⟩ := h.resolved t ht q hq
      refine ⟨e, _, hstep, by rw [hfound, hu]; rfl, ?_⟩
      rw [Declaration.resolve_congr (hbare t ht) (hbare u (mem_of_source hu))]
      exact hresolve
    · have hqTarget := (Declaration.resolve_inv hr).2.2.1
      refine ⟨d, _, hownName ▸ step, by rw [hqTarget, hfound, htarget]; rfl, ?_⟩
      rw [Declaration.resolve_congr (hbare t ht) (hbare target (mem_of_source htarget))]
      exact hr

theorem recorded_of_ofSteps (made : ofSteps steps = .ok schema)
    (built : ∀ s, .source s ∈ steps → s.Built) : schema.Recorded steps := by
  apply steps_preserve _ made
  · refine ⟨?_, ?_, ?_, ?_⟩ <;> exact fun s hs => absurd hs List.not_mem_nil
  · intro before step after hmem hstep h
    rcases step?_cases hstep with ⟨config, rfl, hsources⟩ | ⟨s, rfl, hvalid, hnew, hsources⟩ |
      ⟨declaring, d, own, target, r, related, rfl, hown, htarget, hr, hrelated, hsources⟩
    · exact h.configure hsources
    · exact h.insert (built s hmem) hvalid hnew hsources
    · exact h.relate hmem hown htarget hr hrelated hsources

/-- The registry is in order, and each relationship is what a declaration among the steps resolves
to between sources that are registered. -/
structure Consistent (schema : Schema) (steps : List SchemaStep) : Prop where
  registered : ∀ s ∈ schema.sources, schema.source s.name = .ok s
  named : ∀ name s, schema.source name = .ok s → s.name = name
  wellNamed : ∀ s ∈ schema.sources, s.WellNamed
  distinct : ∀ s ∈ schema.sources, s.Distinct
  identifiers : ∀ s ∈ schema.sources, ∀ r ∈ s.relationships, isIdentifier r.name = true
  targets : ∀ s ∈ schema.sources, ∀ r ∈ s.relationships, ∃ t, schema.source r.target = .ok t
  pairs : ∀ s ∈ schema.sources, ∀ r ∈ s.relationships, ∀ ps, r.condition = .pairs ps →
    ps ≠ [] ∧ ∀ p ∈ ps, p.WellNamed
  declared : ∀ s ∈ schema.sources, ∀ r ∈ s.relationships, ∃ d t, .relate s.name d ∈ steps ∧
    schema.source r.target = .ok t ∧ d.resolve s t = .ok r
  /-- Whichever declaration a relationship comes from: if it names the key, or leaves it to be
  found, there is one pair, of columns that both sides declare. -/
  keyed : ∀ s ∈ schema.sources, ∀ r ∈ s.relationships, ∀ d t, .relate s.name d ∈ steps →
    schema.source r.target = .ok t → d.resolve s t = .ok r → d.NamesKey →
    ∃ p, r.condition = .pairs [p] ∧ t.hasColumn p.foreign = true ∧ s.hasColumn p.own = true

theorem Recorded.consistent (h : schema.Recorded steps) : schema.Consistent steps := by
  have hwellNamed {name : String} {t : Source} (ht : schema.source name = .ok t) : t.WellNamed :=
    h.wellNamed t (mem_of_source ht)
  refine ⟨h.registered, fun _ _ => name_of_source, h.wellNamed, h.distinct, ?_, ?_, ?_, h.resolved,
    ?_⟩
  · intro s hs r hr
    obtain ⟨d, t, _, _, hresolve⟩ := h.resolved s hs r hr
    exact (Declaration.resolve_inv hresolve).1
  · intro s hs r hr
    obtain ⟨_, t, _, ht, _⟩ := h.resolved s hs r hr
    exact ⟨t, ht⟩
  · intro s hs r hr ps hps
    obtain ⟨d, t, _, ht, hresolve⟩ := h.resolved s hs r hr
    have hcondition := (Declaration.resolve_inv hresolve).2.2.2
    rw [hps] at hcondition
    exact Declaration.wellNamed_of_resolveCondition (h.wellNamed s hs).validate
      (hwellNamed ht).validate hcondition
  · intro s hs r _ d t _ ht hresolve hform
    have hcondition := (Declaration.resolve_inv hresolve).2.2.2
    exact Declaration.pair_of_namesKey hform (h.wellNamed s hs).validate (hwellNamed ht).validate
      hcondition

end Schema

end RelQuery
