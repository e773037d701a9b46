import RelQuery.Schema.Config
import RelQuery.Relationship.Declaration

/-!
# Schemas

The registered sources, in the order of their names. A schema is made step by step; a step that
fails, and whose failure the hook suppresses, leaves the schema as it was.
-/

namespace RelQuery

set_option autoImplicit false

structure Schema where
  config : SchemaConfig := {}
  /-- In the order of their names. -/
  sources : List Source := []

inductive SchemaStep where
  | configure (config : SchemaConfig)
  | source (s : Source)
  | relate (declaring : String) (d : Declaration)

namespace Schema

def source? (schema : Schema) (name : String) : Option Source :=
  schema.sources.find? (·.name = name)

def source (schema : Schema) (name : String) : Except ConfigurationError Source :=
  match schema.source? name with
  | some s => .ok s
  | none => .error (.unknownSource name)

/-- The source of a declaring name; of several the one with the last name. -/
def sourceOf (schema : Schema) (className : String) : Except ConfigurationError Source :=
  match schema.sources.reverse.find? (·.declaringName = className) with
  | some s => schema.source s.name
  | none => .error (.unknownSource className)

def names (schema : Schema) : List String := schema.sources.map (·.name)

def insertSource (s : Source) : List Source → List Source
  | [] => [s]
  | t :: rest => if s.name < t.name then s :: t :: rest else t :: insertSource s rest

def addSource (s : Source) (schema : Schema) : Except ConfigurationError Schema := do
  s.validate
  match schema.source? s.name with
  | none => return { schema with sources := insertSource s schema.sources }
  | some _ =>
    .error ⟨.duplicateSource, "source '" ++ s.name ++ "' is already registered", none, none⟩

/-- Resolves a relationship and adds it to its declaring source. The related source must be
registered before. -/
def addRelationship (declaring : String) (d : Declaration) (schema : Schema) :
    Except ConfigurationError Schema := do
  let own ← schema.source declaring
  let target ← (schema.source d.target).mapError fun e =>
    (e.onSource declaring).onRelationship d.name
  let related ← own.addRelationship (← d.resolve own target)
  return { schema with
    sources := schema.sources.map fun s => if s.name = declaring then related else s }

def step? (schema : Schema) : SchemaStep → Except ConfigurationError Schema
  | .configure config => .ok { schema with config }
  | .source s => schema.addSource s
  | .relate declaring d => schema.addRelationship declaring d

def step (schema : Schema) (s : SchemaStep) : Guarded Schema :=
  guarded schema.config.hook schema ((schema.step? s).mapError .configuration)

/-- Makes steps up to the first error that is raised. -/
def steps (schema : Schema) : List SchemaStep → Except Error Schema
  | [] => .ok schema
  | s :: rest =>
    match (schema.step s).outcome with
    | .ok next => next.steps rest
    | .error e => .error e

def ofSteps (steps : List SchemaStep) : Except Error Schema := Schema.steps {} steps

def guard {α : Type} (schema : Schema) (fallback : α) (result : Except Error α) : Guarded α :=
  guarded schema.config.hook fallback result

theorem guard_of_none {α : Type} {schema : Schema} (noHook : schema.config.hook = none)
    (fallback : α) (result : Except Error α) : schema.guard fallback result = ⟨result, []⟩ := by
  unfold guard
  rw [noHook]
  exact guarded_none fallback result

end Schema

end RelQuery
