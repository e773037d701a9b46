import Mathlib.Data.List.Perm.Lattice
import RelQuery.Proofs.ClassLookups

/-!
# The order of declarations

A relationship is resolved against what its two sources were registered with, and no later step
changes that. So a schema says which sources were registered and what was declared on each, and not
when: steps that all succeed make the same schema in any order that leaves the declarations on one
source in theirs.
-/

namespace RelQuery

set_option autoImplicit false

namespace SchemaStep

def Declares : SchemaStep → Prop
  | .configure _ => False
  | .source _ | .relate _ _ => True

def source? : SchemaStep → Option Source
  | .source s => some s
  | .configure _ | .relate _ _ => none

def declaration? (name : String) : SchemaStep → Option Declaration
  | .relate declaring d => if declaring = name then some d else none
  | .configure _ | .source _ => none

end SchemaStep

namespace Schema

def registrations (steps : List SchemaStep) : List Source := steps.filterMap SchemaStep.source?

def declarations (name : String) (steps : List SchemaStep) : List Declaration :=
  steps.filterMap (SchemaStep.declaration? name)

/-- What a declaration comes to between sources as they are registered by steps. -/
def ResolvedBy (steps : List SchemaStep) (s : Source) (d : Declaration) (r : Relationship) : Prop :=
  ∃ target ∈ registrations steps, target.name = d.target ∧ d.resolve s target = .ok r

def LeftBy (steps : List SchemaStep) (t : Source) : Prop :=
  ∃ s ∈ registrations steps, ∃ declared,
    List.Forall₂ (ResolvedBy steps s) (declarations s.name steps) declared ∧
      t = { s with relationships := s.relationships ++ declared }

/-- What steps that all succeed have made of the empty schema of some settings. -/
structure Declared (config : SchemaConfig) (steps : List SchemaStep) (schema : Schema) : Prop where
  config : schema.config = config
  ordered : schema.Ordered
  fresh : ((registrations steps).map (·.name)).Nodup
  left : ∀ t ∈ schema.sources, LeftBy steps t
  registered : ∀ s ∈ registrations steps, ∃ t ∈ schema.sources, t.name = s.name
  declaring : ∀ name, declarations name steps ≠ [] → ∃ s ∈ registrations steps, s.name = name

variable {config : SchemaConfig} {schema after last : Schema} {steps first second : List SchemaStep}
  {s t u : Source} {d : Declaration} {r : Relationship} {name declaring : String}

section Steps

variable (steps)

@[simp] theorem registrations_source (s : Source) :
    registrations (steps ++ [.source s]) = registrations steps ++ [s] := by
  unfold registrations
  rw [List.filterMap_append]
  rfl

@[simp] theorem registrations_relate (declaring : String) (d : Declaration) :
    registrations (steps ++ [.relate declaring d]) = registrations steps := by
  unfold registrations
  rw [List.filterMap_append]
  exact List.append_nil _

@[simp] theorem declarations_source (name : String) (s : Source) :
    declarations name (steps ++ [.source s]) = declarations name steps := by
  unfold declarations
  rw [List.filterMap_append]
  exact List.append_nil _

theorem declarations_relate_self (name : String) (d : Declaration) :
    declarations name (steps ++ [.relate name d]) = declarations name steps ++ [d] := by
  unfold declarations
  rw [List.filterMap_append]
  simp [SchemaStep.declaration?]

theorem declarations_relate_of_ne (h : declaring ≠ name) (d : Declaration) :
    declarations name (steps ++ [.relate declaring d]) = declarations name steps := by
  unfold declarations
  rw [List.filterMap_append]
  simp [SchemaStep.declaration?, h]

end Steps

theorem LeftBy.exists_registered (h : LeftBy steps t) :
    ∃ s ∈ registrations steps, s.name = t.name ∧ s.bare = t.bare := by
  obtain ⟨s, hs, declared, _, rfl⟩ := h
  exact ⟨s, hs, rfl, rfl⟩

/-- What a declaration comes to is the same between sources as steps leave them. -/
theorem LeftBy.resolvedBy (h : LeftBy steps t) (target : t.name = d.target)
    (hr : d.resolve u t = .ok r) (hu : s.bare = u.bare) : ResolvedBy steps s d r := by
  obtain ⟨v, hv, hname, hbare⟩ := h.exists_registered
  exact ⟨v, hv, hname.trans target, (Declaration.resolve_congr hu hbare).trans hr⟩

theorem LeftBy.append (h : LeftBy steps t) (more : List SchemaStep)
    (kept : ∀ s ∈ registrations steps, s ∈ registrations (steps ++ more))
    (same : declarations t.name (steps ++ more) = declarations t.name steps) :
    LeftBy (steps ++ more) t := by
  obtain ⟨s, hs, declared, hdeclared, rfl⟩ := h
  refine ⟨s, kept s hs, declared, ?_, rfl⟩
  rw [same]
  refine hdeclared.imp fun d r => ?_
  rintro ⟨target, htarget, hname, hr⟩
  exact ⟨target, kept target htarget, hname, hr⟩

theorem Declared.empty (config : SchemaConfig) : Declared config [] ⟨config, []⟩ :=
  ⟨rfl, .nil, .nil, nofun, nofun, fun _ h => absurd rfl h⟩

theorem Declared.not_registered (h : Declared config steps schema)
    (new : schema.source? name = none) : ∀ s ∈ registrations steps, s.name ≠ name := by
  rintro s hs rfl
  obtain ⟨t, ht, hname⟩ := h.registered s hs
  have hunfound := List.find?_eq_none.mp new t ht
  simp [hname] at hunfound

theorem Declared.source (h : Declared config steps schema) (hconfig : after.config = config)
    (ordered : after.Ordered) (new : schema.source? s.name = none)
    (hsources : after.sources = insertSource s schema.sources) :
    Declared config (steps ++ [.source s]) after := by
  have hnew := h.not_registered new
  have hundeclared : declarations s.name steps = [] := by
    by_contra hsome
    obtain ⟨t, ht, hname⟩ := h.declaring s.name hsome
    exact hnew t ht hname
  refine ⟨hconfig, ordered, ?_, ?_, ?_, ?_⟩
  · rw [registrations_source, List.map_append, List.map_singleton, ← List.concat_eq_append]
    refine List.Nodup.concat ?_ h.fresh
    intro hmem
    obtain ⟨t, ht, hname⟩ := List.mem_map.mp hmem
    exact hnew t ht hname
  · rw [hsources]
    intro t ht
    rcases mem_insertSource.mp ht with rfl | ht
    · refine ⟨t, by simp, [], ?_, by simp⟩
      rw [declarations_source, hundeclared]
      exact .nil
    · refine (h.left t ht).append _ (fun u hu => ?_) (declarations_source steps _ s)
      rw [registrations_source]
      exact List.mem_append_left _ hu
  · rw [hsources]
    intro t ht
    rw [registrations_source] at ht
    rcases List.mem_append.mp ht with ht | ht
    · obtain ⟨u, hu, hname⟩ := h.registered t ht
      exact ⟨u, mem_insertSource.mpr (.inr hu), hname⟩
    · rw [List.mem_singleton.mp ht]
      exact ⟨s, mem_insertSource.mpr (.inl rfl), rfl⟩
  · intro name hsome
    rw [declarations_source] at hsome
    obtain ⟨t, ht, hname⟩ := h.declaring name hsome
    rw [registrations_source]
    exact ⟨t, List.mem_append_left _ ht, hname⟩

theorem LeftBy.relate (h : LeftBy steps u) {target related : Source} (htarget : LeftBy steps target)
    (hname : target.name = d.target) (hr : d.resolve u target = .ok r)
    (hrelated : u.addRelationship r = .ok related) :
    LeftBy (steps ++ [.relate u.name d]) related := by
  obtain ⟨s, hs, declared, hdeclared, rfl⟩ := h
  have hlast : ResolvedBy steps s d r := htarget.resolvedBy hname hr rfl
  refine ⟨s, by simpa using hs, declared ++ [r], ?_, ?_⟩
  · rw [declarations_relate_self]
    have hall : List.Forall₂ (ResolvedBy steps s) (declarations s.name steps ++ [d])
        (declared ++ [r]) :=
      List.rel_append hdeclared (.cons hlast .nil)
    refine hall.imp fun _ _ hresolved => ?_
    unfold ResolvedBy
    rw [registrations_relate]
    exact hresolved
  · rw [Source.eq_of_addRelationship hrelated]
    simp

theorem Declared.relate (h : Declared config steps schema) (hconfig : after.config = config)
    (ordered : after.Ordered) {own target related : Source}
    (hown : schema.source declaring = .ok own) (htarget : schema.source d.target = .ok target)
    (hr : d.resolve own target = .ok r) (hrelated : own.addRelationship r = .ok related)
    (hsources : after.sources = schema.sources.map fun s =>
      if s.name = declaring then related else s) :
    Declared config (steps ++ [.relate declaring d]) after := by
  have hname := name_replaced hown hrelated
  have hownName := name_of_source hown
  have hownMem := mem_of_source hown
  refine ⟨hconfig, ordered, ?_, ?_, ?_, ?_⟩
  · rw [registrations_relate]
    exact h.fresh
  · rw [hsources]
    intro t ht
    obtain ⟨u, hu, rfl⟩ := List.mem_map.mp ht
    split
    · have hleft := (h.left own hownMem).relate (h.left target (mem_of_source htarget))
        (name_of_source htarget) hr hrelated
      rw [hownName] at hleft
      exact hleft
    · rename_i hne
      refine (h.left u hu).append _ (fun s hs => ?_) (declarations_relate_of_ne _ (Ne.symm hne) d)
      rw [registrations_relate]
      exact hs
  · rw [registrations_relate, hsources]
    intro s hs
    obtain ⟨t, ht, htname⟩ := h.registered s hs
    exact ⟨_, List.mem_map_of_mem ht, (hname t).trans htname⟩
  · intro name hsome
    rw [registrations_relate]
    by_cases hsame : declaring = name
    · obtain ⟨s, hs, hsname, _⟩ := (h.left own hownMem).exists_registered
      exact ⟨s, hs, hsname.trans (hownName.trans hsame)⟩
    · rw [declarations_relate_of_ne _ hsame] at hsome
      exact h.declaring name hsome

theorem config_of_step? {step : SchemaStep} (declares : step.Declares)
    (h : schema.step? step = .ok after) : after.config = schema.config := by
  cases step with
  | configure config => exact declares.elim
  | source s =>
    obtain ⟨_, _, h⟩ := bind_eq_ok.mp h
    split at h
    · rw [← pure_eq_ok.mp h]
    · cases h
  | relate declaring d =>
    obtain ⟨_, _, h⟩ := bind_eq_ok.mp h
    obtain ⟨_, _, h⟩ := bind_eq_ok.mp h
    obtain ⟨_, _, h⟩ := bind_eq_ok.mp h
    obtain ⟨_, _, h⟩ := bind_eq_ok.mp h
    rw [← pure_eq_ok.mp h]

theorem Declared.step (h : Declared config steps schema) {step : SchemaStep}
    (declares : step.Declares) (hstep : schema.step? step = .ok after) :
    Declared config (steps ++ [step]) after := by
  have hconfig : after.config = config := (config_of_step? declares hstep).trans h.config
  have ordered := ordered_of_step? hstep h.ordered
  rcases step?_cases hstep with ⟨config, rfl, _⟩ | ⟨s, rfl, _, hnew, hsources⟩ |
    ⟨declaring, d, own, target, r, related, rfl, hown, htarget, hr, hrelated, hsources⟩
  · exact declares.elim
  · exact h.source hconfig ordered hnew hsources
  · exact h.relate hconfig ordered hown htarget hr hrelated hsources

theorem Declared.run {more : List SchemaStep} (h : Declared config steps schema)
    (declare : ∀ step ∈ more, step.Declares) (made : more.foldlM step? schema = .ok last) :
    Declared config (steps ++ more) last := by
  induction more generalizing steps schema with
  | nil =>
    cases made
    rw [List.append_nil]
    exact h
  | cons step more ih =>
    obtain ⟨hstep, hmore⟩ := List.forall_mem_cons.mp declare
    rw [List.foldlM_cons] at made
    obtain ⟨next, hnext, made⟩ := bind_eq_ok.mp made
    have hrest := ih (h.step hstep hnext) hmore made
    rw [List.append_assoc] at hrest
    exact hrest

theorem ResolvedBy.unique (fresh : ((registrations steps).map (·.name)).Nodup) :
    Relator.RightUnique (ResolvedBy steps s) := by
  rintro d r q ⟨target, htarget, hname, hr⟩ ⟨other, hother, hothername, hq⟩
  have hsame := List.inj_on_of_nodup_map fresh htarget hother (hname.trans hothername.symm)
  rw [hsame, hq] at hr
  exact (Except.ok.inj hr).symm

theorem LeftBy.eq_of_name_eq (fresh : ((registrations steps).map (·.name)).Nodup)
    (ht : LeftBy steps t) (hu : LeftBy steps u) (name : t.name = u.name) : t = u := by
  obtain ⟨s, hs, declared, hdeclared, rfl⟩ := ht
  obtain ⟨v, hv, others, hothers, rfl⟩ := hu
  obtain rfl := List.inj_on_of_nodup_map fresh hs hv name
  rw [(ResolvedBy.unique fresh).forall₂ hdeclared hothers]

theorem leftBy_congr (perm : first.Perm second)
    (kept : ∀ name, declarations name first = declarations name second) :
    LeftBy first = LeftBy second := by
  have hmem (s : Source) : s ∈ registrations first ↔ s ∈ registrations second :=
    (perm.filterMap SchemaStep.source?).mem_iff
  funext t
  unfold LeftBy ResolvedBy
  simp only [hmem, kept]

theorem Declared.sources_subset {other : Schema} (h : Declared config first schema)
    (hother : Declared config second other) (perm : first.Perm second)
    (kept : ∀ name, declarations name first = declarations name second) :
    ∀ t ∈ schema.sources, t ∈ other.sources := by
  intro t ht
  have hleft := h.left t ht
  obtain ⟨s, hs, hname, _⟩ := hleft.exists_registered
  obtain ⟨u, hu, huname⟩ :=
    hother.registered s ((perm.filterMap SchemaStep.source?).mem_iff.mp hs)
  have huleft := hother.left u hu
  rw [← leftBy_congr perm kept] at huleft
  rw [hleft.eq_of_name_eq h.fresh huleft (hname.symm.trans huname.symm)]
  exact hu

theorem Ordered.sources_eq {other : Schema} (h : schema.Ordered) (hother : other.Ordered)
    (mem : ∀ t, t ∈ schema.sources ↔ t ∈ other.sources) : schema.sources = other.sources := by
  have hperm : schema.sources.Perm other.sources :=
    (List.perm_ext_iff_of_nodup (h.nodup.of_map _) (hother.nodup.of_map _)).mpr mem
  refine hperm.eq_of_pairwise (fun s t _ _ hlt hgt => ?_) h hother
  exact absurd hgt (String.lt_asymm hlt)

theorem steps_of_foldlM (made : steps.foldlM step? schema = .ok last) :
    schema.steps steps = .ok last := by
  induction steps generalizing schema with
  | nil =>
    cases made
    rfl
  | cons s rest ih =>
    rw [List.foldlM_cons] at made
    obtain ⟨next, hnext, hrest⟩ := bind_eq_ok.mp made
    exact steps_cons_eq_ok.mpr ⟨next, by rw [step_of_ok hnext], ih hrest⟩

/-- Steps that all succeed make one schema in every order that leaves the declarations on each
source in theirs, whatever hook there is to ask. -/
theorem declared_in_any_order {config : SchemaConfig} {first second : List SchemaStep}
    {schema other : Schema} (declare : ∀ step ∈ first, step.Declares) (perm : first.Perm second)
    (kept : ∀ name, declarations name first = declarations name second)
    (made : first.foldlM step? ⟨config, []⟩ = .ok schema)
    (remade : second.foldlM step? ⟨config, []⟩ = .ok other) :
    schema = other ∧ Schema.steps ⟨config, []⟩ first = .ok schema ∧
      Schema.steps ⟨config, []⟩ second = .ok schema := by
  have hfirst : Declared config first schema := (Declared.empty config).run declare made
  have hsecond : Declared config second other :=
    (Declared.empty config).run (fun step hstep => declare step (perm.mem_iff.mpr hstep)) remade
  have hsources : schema.sources = other.sources := by
    refine hfirst.ordered.sources_eq hsecond.ordered fun t => ⟨?_, ?_⟩
    · exact hfirst.sources_subset hsecond perm kept t
    · exact hsecond.sources_subset hfirst perm.symm (fun name => (kept name).symm) t
  have hsame : schema = other := by
    have hconfig := hfirst.config.trans hsecond.config.symm
    cases schema
    cases other
    cases hsources
    cases hconfig
    rfl
  refine ⟨hsame, steps_of_foldlM made, ?_⟩
  rw [hsame]
  exact steps_of_foldlM remade

/-- A step that fails has not been made, though the hook suppresses the failure: a relationship that
is declared before its target is lost. -/
example : Schema.steps ⟨{ hook := some Hook.suppressAll }, []⟩
    [.source (.named "A"),
      .relate "A"
        { kind := .hasMany, name := "b", target := "B", condition := .mapping [("x", "y")] },
      .source (.named "B")] =
    .ok ⟨{ hook := some Hook.suppressAll }, [.named "A", .named "B"]⟩ := rfl

end Schema

namespace Library

def reorderedSteps : List SchemaStep :=
  [.source ⟨"Author", "authors", none, ["id", "name", "mentor"], ["id"], []⟩,
    .source ⟨"Book", "books", none, ["id", "author", "title"], ["id"], []⟩,
    .relate "Book"
      { kind := .belongsTo, name := "writer", target := "Author", condition := .column "author" },
    .relate "Author"
      { kind := .hasMany, name := "books", target := "Book", condition := .column "author" },
    .relate "Author"
      { kind := .hasMany, name := "pupils", target := "Author", condition := .column "mentor" }]

theorem steps_perm_reorderedSteps : steps.Perm reorderedSteps := by
  refine (List.Perm.swap _ _ _).trans ((List.Perm.cons _ (.cons _ ?_)))
  exact ((List.Perm.swap _ _ []).cons _).trans (.swap _ _ _)

theorem declared_in_any_order_reorderedSteps :
    (∀ step ∈ steps, step.Declares) ∧ steps.Perm reorderedSteps ∧
      (∀ name, Schema.declarations name steps = Schema.declarations name reorderedSteps) ∧
      steps.foldlM Schema.step? ⟨{}, []⟩ = .ok schema ∧
      reorderedSteps.foldlM Schema.step? ⟨{}, []⟩ = .ok schema ∧
      Schema.steps ⟨{}, []⟩ reorderedSteps = .ok schema := by
  have declare : ∀ step ∈ steps, step.Declares := by simp [steps, SchemaStep.Declares]
  have kept (name : String) :
      Schema.declarations name steps = Schema.declarations name reorderedSteps := by
    unfold Schema.declarations steps reorderedSteps SchemaStep.declaration?
    by_cases hauthor : "Author" = name
    · have hbook : "Book" ≠ name := hauthor ▸ by decide
      simp [hauthor, hbook]
    · by_cases hbook : "Book" = name
      · simp [hauthor, hbook]
      · simp [hauthor, hbook]
  have made : steps.foldlM Schema.step? ⟨{}, []⟩ = .ok schema := rfl
  obtain ⟨other, remade⟩ : ∃ other, reorderedSteps.foldlM Schema.step? ⟨{}, []⟩ = .ok other :=
    ⟨_, rfl⟩
  obtain ⟨hsame, _, hsteps⟩ :=
    Schema.declared_in_any_order declare steps_perm_reorderedSteps kept made remade
  rw [← hsame] at remade
  exact ⟨declare, steps_perm_reorderedSteps, kept, made, remade, hsteps⟩

end Library

end RelQuery
