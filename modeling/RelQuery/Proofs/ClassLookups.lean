import RelQuery.Proofs.SuppressedSteps

/-!
# Class lookups

The sources of a schema stand in the order of their names, which are all different, as a step that
registers a source refuses a name that is taken. It does not look at the declaring name. Where
sources share one, it leads to the last of them.
-/

namespace RelQuery

set_option autoImplicit false

namespace Schema

def Ordered (schema : Schema) : Prop := schema.sources.Pairwise (·.name < ·.name)

variable {schema after last : Schema} {steps : List SchemaStep} {s t : Source}

theorem pairwise_insertSource {sources : List Source} (new : ∀ t ∈ sources, t.name ≠ s.name)
    (ordered : sources.Pairwise (·.name < ·.name)) :
    (insertSource s sources).Pairwise (·.name < ·.name) := by
  induction sources with
  | nil => exact List.pairwise_singleton _ s
  | cons t rest ih =>
    obtain ⟨hfirst, hrest⟩ := List.pairwise_cons.mp ordered
    obtain ⟨hne, hnew⟩ := List.forall_mem_cons.mp new
    unfold insertSource
    split
    · rename_i hlt
      refine List.pairwise_cons.mpr ⟨fun u hu => ?_, ordered⟩
      rcases List.mem_cons.mp hu with rfl | hu
      · exact hlt
      · exact String.lt_trans hlt (hfirst u hu)
    · rename_i hnot
      have hlt : t.name < s.name := by
        by_contra hge
        exact hne (String.le_antisymm (String.not_lt.mp hnot) (String.not_lt.mp hge))
      refine List.pairwise_cons.mpr ⟨fun u hu => ?_, ih hnew hrest⟩
      rcases mem_insertSource.mp hu with rfl | hu
      · exact hlt
      · exact hfirst u hu

theorem ordered_of_step? {step : SchemaStep} (h : schema.step? step = .ok after)
    (ordered : schema.Ordered) : after.Ordered := by
  unfold Ordered
  rcases step?_cases h with ⟨config, rfl, hsources⟩ | ⟨t, rfl, _, hnew, hsources⟩ |
    ⟨declaring, d, own, target, r, related, rfl, hown, _, _, hrelated, hsources⟩
  · rw [hsources]
    exact ordered
  · rw [hsources]
    refine pairwise_insertSource (fun u hu => ?_) ordered
    simpa using List.find?_eq_none.mp hnew u hu
  · rw [hsources, List.pairwise_map]
    simp only [name_replaced hown hrelated]
    exact ordered

theorem ordered_of_steps {config : SchemaConfig}
    (made : Schema.steps ⟨config, []⟩ steps = .ok last) : last.Ordered :=
  steps_preserve (fun _ _ _ _ hstep => ordered_of_step? hstep) made List.Pairwise.nil

theorem Ordered.nodup (h : schema.Ordered) : schema.names.Nodup := by
  unfold names List.Nodup
  rw [List.pairwise_map]
  refine h.imp fun hlt heq => ?_
  rw [heq] at hlt
  exact String.lt_irrefl _ hlt

theorem Ordered.eq_of_name_eq (h : schema.Ordered) (hs : s ∈ schema.sources)
    (ht : t ∈ schema.sources) (name : s.name = t.name) : s = t :=
  List.inj_on_of_nodup_map h.nodup hs ht name

theorem Ordered.source_eq (h : schema.Ordered) (hs : s ∈ schema.sources) :
    schema.source s.name = .ok s := by
  rw [source_eq_ok]
  cases hfound : schema.source? s.name with
  | none =>
    have hunfound := List.find?_eq_none.mp hfound s hs
    simp at hunfound
  | some t =>
    have ht : t ∈ schema.sources := List.mem_of_find?_eq_some hfound
    rw [h.eq_of_name_eq ht hs (name_of_source (source_eq_ok.mpr hfound))]

/-- The last of the sources that have a declaring name. -/
def LastOf (schema : Schema) (className : String) (t : Source) : Prop :=
  t ∈ schema.sources ∧ t.declaringName = className ∧
    ∀ u ∈ schema.sources, u.declaringName = className → u.name ≤ t.name

theorem Ordered.lastOf_of_find? (h : schema.Ordered) {className : String}
    (found : schema.sources.reverse.find? (·.declaringName = className) = some t) :
    schema.LastOf className t := by
  obtain ⟨hname, before, behind, hsplit, hbefore⟩ := List.find?_eq_some_iff_append.mp found
  have hsources : schema.sources = behind.reverse ++ t :: before.reverse := by
    rw [← List.reverse_reverse schema.sources, hsplit]
    simp
  unfold Ordered at h
  rw [hsources, List.pairwise_append] at h
  refine ⟨List.mem_reverse.mp (List.mem_of_find?_eq_some found), by simpa using hname, ?_⟩
  intro u hu hclass
  rw [hsources] at hu
  rcases List.mem_append.mp hu with hu | hu
  · exact String.not_lt.mp (String.lt_asymm (h.2.2 u hu t List.mem_cons_self))
  · rcases List.mem_cons.mp hu with rfl | hu
    · exact String.le_refl _
    · have hother := hbefore u (List.mem_reverse.mp hu)
      simp [hclass] at hother

theorem Ordered.exists_lastOf (h : schema.Ordered) (hs : s ∈ schema.sources) :
    ∃ t, schema.LastOf s.declaringName t := by
  cases hfound : schema.sources.reverse.find? (·.declaringName = s.declaringName) with
  | none =>
    have hunfound := List.find?_eq_none.mp hfound s (List.mem_reverse.mpr hs)
    simp at hunfound
  | some t => exact ⟨t, h.lastOf_of_find? hfound⟩

theorem Ordered.lastOf_unique (h : schema.Ordered) {className : String}
    (hs : schema.LastOf className s) (ht : schema.LastOf className t) : s = t := by
  obtain ⟨hmem, hclass, hlast⟩ := hs
  exact h.eq_of_name_eq hmem ht.1
    (String.le_antisymm (ht.2.2 s hmem hclass) (hlast t ht.1 ht.2.1))

theorem Ordered.sourceOf_eq_ok (h : schema.Ordered) {className : String} :
    schema.sourceOf className = .ok t ↔ schema.LastOf className t := by
  unfold sourceOf
  cases hfound : schema.sources.reverse.find? (·.declaringName = className) with
  | none =>
    refine ⟨nofun, fun ⟨ht, hclass, _⟩ => ?_⟩
    have hunfound := List.find?_eq_none.mp hfound t (List.mem_reverse.mpr ht)
    simp [hclass] at hunfound
  | some u =>
    have hu := h.lastOf_of_find? hfound
    dsimp only
    rw [h.source_eq hu.1]
    constructor
    · rintro ⟨⟩
      exact hu
    · intro ht
      rw [h.lastOf_unique hu ht]

theorem Ordered.sourceOf_declaringName_iff (h : schema.Ordered) :
    (∀ s ∈ schema.sources, schema.sourceOf s.declaringName = .ok s) ↔
      (schema.sources.map (·.declaringName)).Nodup := by
  have hnodup : schema.sources.Nodup := h.nodup.of_map _
  constructor
  · intro hfound
    refine List.Nodup.map_on (fun s hs t ht hclass => ?_) hnodup
    have hself := hfound s hs
    rw [hclass, hfound t ht] at hself
    exact (Except.ok.inj hself).symm
  · intro hclasses s hs
    refine h.sourceOf_eq_ok.mpr ⟨hs, rfl, fun u hu hclass => ?_⟩
    obtain rfl := List.inj_on_of_nodup_map hclasses hu hs hclass
    exact String.le_refl _

/-- A declaring name leads to the last of the sources that have it, and so to the source that it is
asked for just when no later source shares it. -/
theorem sourceOf_declaringName {config : SchemaConfig}
    (made : Schema.steps ⟨config, []⟩ steps = .ok schema) :
    (∀ className t, schema.sourceOf className = .ok t ↔ schema.LastOf className t) ∧
      (∀ s ∈ schema.sources, (∃ t, schema.sourceOf s.declaringName = .ok t) ∧
        (schema.sourceOf s.declaringName = .ok s ↔
          ∀ u ∈ schema.sources, u.declaringName = s.declaringName → u.name ≤ s.name)) ∧
      ((∀ s ∈ schema.sources, schema.sourceOf s.declaringName = .ok s) ↔
        (schema.sources.map (·.declaringName)).Nodup) := by
  have ordered := ordered_of_steps made
  refine ⟨fun _ _ => ordered.sourceOf_eq_ok, fun s hs => ⟨?_, ?_⟩,
    ordered.sourceOf_declaringName_iff⟩
  · obtain ⟨t, ht⟩ := ordered.exists_lastOf hs
    exact ⟨t, ordered.sourceOf_eq_ok.mpr ht⟩
  · rw [ordered.sourceOf_eq_ok]
    exact ⟨fun hlast => hlast.2.2, fun hlast => ⟨hs, rfl, hlast⟩⟩

end Schema

namespace Library

def plainBook : Source := ⟨"Book", "books", none, ["id"], ["id"], []⟩

def volumeOfBook : Source := ⟨"Volume", "volumes", some "Book", ["id"], ["id"], []⟩

def namesakeSteps : List SchemaStep := [.source volumeOfBook, .source plainBook]

def namesakeSchema : Schema := ⟨{}, [plainBook, volumeOfBook]⟩

theorem sourceOf_declaringName_volumes :
    Schema.steps ⟨{}, []⟩ namesakeSteps = .ok namesakeSchema ∧
      volumeOfBook ∈ namesakeSchema.sources ∧
      namesakeSchema.sourceOf volumeOfBook.declaringName = .ok volumeOfBook := by
  have made : Schema.steps ⟨{}, []⟩ namesakeSteps = .ok namesakeSchema := rfl
  have hvolume : volumeOfBook ∈ namesakeSchema.sources := List.mem_cons_of_mem _ List.mem_cons_self
  obtain ⟨_, hself, _⟩ := Schema.sourceOf_declaringName made
  refine ⟨made, hvolume, (hself volumeOfBook hvolume).2.mpr ?_⟩
  intro u hu _
  rcases List.mem_cons.mp hu with rfl | hu
  · decide
  · obtain rfl := List.mem_singleton.mp hu
    exact String.le_refl _

/-- The books are not found by the name that they are declared under. -/
theorem sourceOf_plainBook :
    Schema.ofSteps namesakeSteps = .ok namesakeSchema ∧ plainBook ∈ namesakeSchema.sources ∧
      plainBook.declaringName = plainBook.name ∧
      namesakeSchema.sourceOf plainBook.declaringName = .ok volumeOfBook ∧
      volumeOfBook.name ≠ plainBook.name ∧
      ¬(namesakeSchema.sources.map (·.declaringName)).Nodup :=
  ⟨rfl, List.mem_cons_self, rfl, rfl, by decide, by decide⟩

end Library

end RelQuery
