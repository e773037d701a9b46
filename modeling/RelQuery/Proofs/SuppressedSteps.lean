import RelQuery.Proofs.Chains
import RelQuery.Proofs.KnownSources

/-!
# Suppressed steps

Steps in the making of a schema that fail, and whose failure the hook suppresses. A schema is changed
in place, and what a step has written by the time it fails is what the next one finds. A failing step
has written nothing, so that the schema is the one that the other steps make by themselves.
-/

namespace RelQuery

set_option autoImplicit false

variable {σ α β : Type}

/-- A change of a state in its place. What it has written stays when it fails. -/
abbrev Change (σ : Type) := ExceptT ConfigurationError (StateM σ)

namespace Change

def ofResult (result : Except ConfigurationError α) : Change σ α := fun state => (result, state)

def write (f : σ → Except ConfigurationError σ) : Change σ Unit := do
  set (← ofResult (f (← get)))

def onSource (name : String) (change : Change Source α) : Change Schema α := fun schema =>
  match schema.source? name with
  | none => (.error (.unknownSource name), schema)
  | some s =>
    let (result, left) := change s
    (result, { schema with
      sources := schema.sources.map fun t => if t.name = name then left else t })

theorem bind_apply (x : Change σ α) (f : α → Change σ β) (state : σ) :
    (x >>= f) state = match x state with
      | (.ok a, next) => f a next
      | (.error e, next) => (.error e, next) := by
  simp only [bind, ExceptT.bind, ExceptT.mk, StateT.bind, ExceptT.bindCont]
  rcases x state with ⟨_ | _, next⟩
  · rfl
  · rfl

theorem get_bind (f : σ → Change σ β) (state : σ) : (get >>= f) state = f state state := rfl

theorem ofResult_bind (result : Except ConfigurationError α) (f : α → Change σ β) (state : σ) :
    (ofResult result >>= f) state = match result with
      | .ok a => f a state
      | .error e => (.error e, state) := by
  rw [bind_apply]
  cases result with
  | ok a => rfl
  | error e => rfl

theorem write_apply (f : σ → Except ConfigurationError σ) (state : σ) :
    write f state = match f state with
      | .ok after => (.ok (), after)
      | .error e => (.error e, state) := by
  unfold write
  rw [get_bind, ofResult_bind]
  cases f state with
  | ok after => rfl
  | error e => rfl

end Change

namespace Schema

def make : SchemaStep → Change Schema Unit
  | .configure config => modify fun schema => { schema with config }
  | .source s => Change.write (addSource s)
  | .relate declaring d => do
    let schema ← get
    let own ← Change.ofResult (schema.source declaring)
    let target ← Change.ofResult ((schema.source d.target).mapError fun e =>
      (e.onSource declaring).onRelationship d.name)
    let r ← Change.ofResult (d.resolve own target)
    Change.onSource declaring (Change.write (Source.addRelationship r))

/-- Makes a step in place under the hook. Where the hook suppresses the failure the schema is handed
on as the step has left it. -/
def call (schema : Schema) (s : SchemaStep) : Guarded Schema :=
  let (result, left) := make s schema
  guarded left.config.hook left ((result.map fun _ => left).mapError .configuration)

variable {schema after before last : Schema} {s : SchemaStep} {steps earlier later : List SchemaStep}

theorem names_insertSource (s : Source) (sources : List Source) :
    ((insertSource s sources).map (·.name)).Perm (s.name :: sources.map (·.name)) := by
  induction sources with
  | nil => exact .refl _
  | cons t rest ih =>
    unfold insertSource
    split
    · exact .refl _
    · exact (ih.cons t.name).trans (.swap s.name t.name _)

theorem nodup_names_of_step? (h : schema.step? s = .ok after) (distinct : schema.names.Nodup) :
    after.names.Nodup := by
  unfold names
  rcases step?_cases h with ⟨config, rfl, hsources⟩ | ⟨t, rfl, _, hnew, hsources⟩ |
    ⟨declaring, d, own, target, r, related, rfl, hown, _, _, hrelated, hsources⟩
  · rw [hsources]
    exact distinct
  · rw [hsources, (names_insertSource t schema.sources).nodup_iff]
    refine List.nodup_cons.mpr ⟨?_, distinct⟩
    intro hmem
    obtain ⟨u, hu, hname⟩ := List.mem_map.mp hmem
    exact List.find?_eq_none.mp hnew u hu (decide_eq_true hname)
  · rw [hsources, List.map_map, Function.comp_def]
    simp only [name_replaced hown hrelated]
    exact distinct

theorem nodup_names {config : SchemaConfig} (made : Schema.steps ⟨config, []⟩ steps = .ok last) :
    last.names.Nodup :=
  steps_preserve (fun _ _ _ _ hstep => nodup_names_of_step? hstep) made List.nodup_nil

theorem map_source_self (distinct : schema.names.Nodup) {name : String} {own : Source}
    (hown : schema.source? name = some own) :
    (schema.sources.map fun t => if t.name = name then own else t) = schema.sources := by
  have hfound := source_eq_ok.mpr hown
  have hname := name_of_source hfound
  refine (List.map_congr_left ?_).trans (List.map_id _)
  intro t ht
  split
  · rename_i heq
    exact List.inj_on_of_nodup_map distinct (mem_of_source hfound) ht (hname.trans heq.symm)
  · rfl

/-- A step that is made in place writes what it is to write, or fails and has written nothing. -/
theorem make_eq (distinct : schema.names.Nodup) (s : SchemaStep) :
    make s schema = match schema.step? s with
      | .ok after => (.ok (), after)
      | .error e => (.error e, schema) := by
  cases s with
  | configure config => rfl
  | source s =>
    unfold make step?
    dsimp only
    rw [Change.write_apply]
    cases schema.addSource s with
    | ok after => rfl
    | error e => rfl
  | relate declaring d =>
    unfold make step? addRelationship
    dsimp only
    rw [Change.get_bind, Change.ofResult_bind]
    cases hown : schema.source declaring with
    | error e => rfl
    | ok own =>
      dsimp only
      rw [Change.ofResult_bind]
      cases (schema.source d.target).mapError fun e =>
        (e.onSource declaring).onRelationship d.name with
      | error e => rfl
      | ok target =>
        dsimp only
        rw [Change.ofResult_bind]
        cases hr : d.resolve own target with
        | error e =>
          simp only [bind, Except.bind, hr]
        | ok r =>
          have hfound := source_eq_ok.mp hown
          simp only [bind, Except.bind, hr, Change.onSource, hfound, Change.write_apply]
          cases own.addRelationship r with
          | ok related => rfl
          | error e =>
            dsimp only
            rw [map_source_self distinct hfound]

theorem call_eq_step (distinct : schema.names.Nodup) (s : SchemaStep) :
    schema.call s = schema.step s := by
  unfold call step
  rw [make_eq distinct]
  cases hstep : schema.step? s with
  | error e => rfl
  | ok after => rfl

/-- The steps of a row, made in order, without those that fail. -/
def kept (schema : Schema) : List SchemaStep → List SchemaStep
  | [] => []
  | s :: rest =>
    match (schema.step s).outcome with
    | .ok next => if (schema.step? s).isOk then s :: next.kept rest else next.kept rest
    | .error _ => []

theorem step_of_ok (h : schema.step? s = .ok after) : schema.step s = ⟨.ok after, []⟩ := by
  unfold step
  rw [h]
  rfl

theorem step_of_error {e : ConfigurationError} (h : schema.step? s = .error e)
    (unraised : (schema.step s).outcome = .ok after) :
    schema.step s = ⟨.ok schema, [.configuration e]⟩ := by
  unfold step at unraised ⊢
  rw [h] at unraised ⊢
  exact guarded_error_eq_ok unraised

theorem steps_cons_eq_ok {rest : List SchemaStep} : schema.steps (s :: rest) = .ok last ↔
    ∃ next, (schema.step s).outcome = .ok next ∧ next.steps rest = .ok last := by
  rw [steps]
  cases (schema.step s).outcome with
  | ok next => simp
  | error e => simp

theorem kept_cons_of_ok (h : schema.step? s = .ok after) (rest : List SchemaStep) :
    schema.kept (s :: rest) = s :: after.kept rest := by
  rw [kept, step_of_ok h, h]
  rfl

theorem kept_cons_of_error {e : ConfigurationError} (h : schema.step? s = .error e)
    (unraised : (schema.step s).outcome = .ok after) (rest : List SchemaStep) :
    schema.kept (s :: rest) = schema.kept rest := by
  rw [kept, step_of_error h unraised, h]
  rfl

theorem steps_kept (unraised : schema.steps steps = .ok last) :
    schema.steps (schema.kept steps) = .ok last ∧
      (schema.kept steps).foldlM step? schema = .ok last := by
  induction steps generalizing schema with
  | nil =>
    cases unraised
    exact ⟨rfl, rfl⟩
  | cons s rest ih =>
    obtain ⟨next, hnext, hrest⟩ := steps_cons_eq_ok.mp unraised
    cases h : schema.step? s with
    | ok after =>
      have hstep := step_of_ok h
      rw [hstep] at hnext
      cases hnext
      obtain ⟨hsteps, hfold⟩ := ih hrest
      rw [kept_cons_of_ok h, List.foldlM_cons, h]
      exact ⟨steps_cons_eq_ok.mpr ⟨next, by rw [hstep], hsteps⟩, hfold⟩
    | error e =>
      rw [kept_cons_of_error h hnext]
      rw [step_of_error h hnext] at hnext
      cases hnext
      exact ih hrest

theorem steps_append (unraised : schema.steps (earlier ++ later) = .ok last) :
    ∃ before, schema.steps earlier = .ok before ∧ before.steps later = .ok last ∧
      schema.kept (earlier ++ later) = schema.kept earlier ++ before.kept later := by
  induction earlier generalizing schema with
  | nil => exact ⟨schema, rfl, unraised, rfl⟩
  | cons s rest ih =>
    obtain ⟨next, hnext, hrest⟩ := steps_cons_eq_ok.mp unraised
    obtain ⟨before, hbefore, hlater, hkept⟩ := ih hrest
    refine ⟨before, steps_cons_eq_ok.mpr ⟨next, hnext, hbefore⟩, hlater, ?_⟩
    rw [List.cons_append]
    cases h : schema.step? s with
    | ok after =>
      rw [step_of_ok h] at hnext
      cases hnext
      rw [kept_cons_of_ok h, kept_cons_of_ok h, hkept, List.cons_append]
    | error e =>
      rw [kept_cons_of_error h hnext, kept_cons_of_error h hnext]
      rw [step_of_error h hnext] at hnext
      cases hnext
      exact hkept

/-- A step whose failure is suppressed leaves no trace. It is made in place and has written nothing
when it fails, and the steps without those that fail make the same schema, none of them failing. -/
theorem suppressed_leave_no_trace {config : SchemaConfig} {steps : List SchemaStep} {last : Schema}
    (unraised : Schema.steps ⟨config, []⟩ steps = .ok last) :
    Schema.steps ⟨config, []⟩ (kept ⟨config, []⟩ steps) = .ok last ∧
      (kept ⟨config, []⟩ steps).foldlM step? ⟨config, []⟩ = .ok last ∧
      ∀ earlier s later, steps = earlier ++ s :: later → ∃ before,
        Schema.steps ⟨config, []⟩ earlier = .ok before ∧ before.call s = before.step s ∧
        (∀ after, make s before = (.ok (), after) →
          kept ⟨config, []⟩ steps = kept ⟨config, []⟩ earlier ++ s :: after.kept later) ∧
        ∀ e left, make s before = (.error e, left) → left = before ∧
          kept ⟨config, []⟩ steps = kept ⟨config, []⟩ earlier ++ before.kept later := by
  obtain ⟨hsteps, hfold⟩ := steps_kept unraised
  refine ⟨hsteps, hfold, ?_⟩
  rintro earlier s later rfl
  obtain ⟨before, hbefore, hlater, hkept⟩ := steps_append unraised
  have distinct : before.names.Nodup := nodup_names hbefore
  obtain ⟨next, hnext, _⟩ := steps_cons_eq_ok.mp hlater
  refine ⟨before, hbefore, call_eq_step distinct s, ?_, ?_⟩
  · intro after hafter
    rw [make_eq distinct] at hafter
    cases h : before.step? s with
    | ok made =>
      rw [h] at hafter
      cases hafter
      rw [hkept, kept_cons_of_ok h]
    | error e =>
      rw [h] at hafter
      cases hafter
  · intro e left hleft
    rw [make_eq distinct] at hleft
    cases h : before.step? s with
    | ok made =>
      rw [h] at hleft
      cases hleft
    | error cause =>
      rw [h] at hleft
      cases hleft
      exact ⟨rfl, by rw [hkept, kept_cons_of_error h hnext]⟩

end Schema

namespace Library

def plainSteps : List SchemaStep :=
  [.configure ⟨{}, some Hook.suppressAll⟩,
    .source { (Source.named "Author").addColumns ["id", "name", "id"] with primaryKey := ["id"] },
    .source { (Source.named "Book").addColumns ["id", "author"] with primaryKey := ["id"] },
    .relate "Author" { kind := .hasMany, name := "books", target := "Book" }]

end Library

theorem no_trace_patchedSteps :
    Schema.steps ⟨{}, []⟩ Library.patchedSteps = .ok Library.patchedSchema ∧
      Schema.kept ⟨{}, []⟩ Library.patchedSteps = Library.plainSteps ∧
      Schema.steps ⟨{}, []⟩ Library.plainSteps = .ok Library.patchedSchema ∧
      Library.plainSteps.foldlM Schema.step? ⟨{}, []⟩ = .ok Library.patchedSchema := by
  have made : Schema.steps ⟨{}, []⟩ Library.patchedSteps = .ok Library.patchedSchema := rfl
  have plain : Schema.kept ⟨{}, []⟩ Library.patchedSteps = Library.plainSteps := rfl
  obtain ⟨hsteps, hfold, _⟩ := Schema.suppressed_leave_no_trace made
  rw [plain] at hsteps hfold
  exact ⟨made, plain, hsteps, hfold⟩

end RelQuery
