import RelQuery.Proofs.Chains
import RelQuery.ResultSet.Column
import RelQuery.Storage.Script

/-!
# Errors and the hook

Which errors of the operations on a schema and on its sets the hook is asked about. A guarded
operation raises what the hook raises. Looking up a source and reading on in a cursor are not
guarded.
-/

namespace RelQuery

set_option autoImplicit false

variable {σ α β : Type}

/-- An error that comes out of a guarded computation is what the hook raises in place of the one
error that it is given. -/
def Guarded.RaisedBy (hook : Hook) (g : Guarded α) : Prop :=
  ∀ e, g.outcome = .error e → ∃ cause, g.seen = [cause] ∧ hook cause = .raise e

def Guarded.unasked (result : Except Error α) : Guarded α := ⟨result, []⟩

def Guarded.void (g : Guarded α) : Guarded Unit := g.map fun _ => ()

namespace Guarded

variable {hook : Hook} {g : Guarded α}

theorem raisedBy_guarded (hook : Hook) (fallback : α) (result : Except Error α) :
    (guarded (some hook) fallback result).RaisedBy hook := by
  intro e he
  cases result with
  | ok a => cases he
  | error cause =>
    unfold guarded Error.through at he
    dsimp only at he
    cases haction : hook cause with
    | raise raised =>
      rw [haction] at he
      cases he
      exact ⟨cause, rfl, haction⟩
    | suppress =>
      rw [haction] at he
      cases he

theorem RaisedBy.map (h : g.RaisedBy hook) (f : α → β) : (g.map f).RaisedBy hook := by
  intro e he
  apply h
  cases hg : g.outcome with
  | ok a =>
    rw [Guarded.map, hg] at he
    cases he
  | error cause =>
    rw [Guarded.map, hg] at he
    cases he
    rfl

end Guarded

/-- The operations on a schema and on the sets obtained from it, whose rows are turned into `α`. -/
inductive Operation (α : Type) where
  | lookup (name : String)
  | lookupClass (className : String)
  | resultSet (name : String)
  | searchRelated (rs : ResultSet) (name : String) (condition : Option Expr)
    (attrs : Option (Attributes ResultSet))
  | relatedResultSet (rs : ResultSet) (record : Record) (name : String)
  | compile (rs : ResultSet)
  | asQuery (rs : ResultSet)
  | projection (rs : ResultSet)
  | countQuery (rs : ResultSet)
  | getColumn (rs : ResultSet) (name : String)
  | deleteStatements (rs : ResultSet)
  | cursor (rs : ResultSet)
  | next (c : Cursor α)
  | all (rs : ResultSet)
  | first (rs : ResultSet)
  | find (rs : ResultSet) (key : Value)
  | count (rs : ResultSet)
  | delete (rs : ResultSet)
  | columnQuery (c : ColumnSet)
  | columnAll (c : ColumnSet)
  | columnFirst (c : ColumnSet)
  | columnFunc (c : ColumnSet) (function : String)

namespace Operation

def set? : Operation α → Option ResultSet
  | .lookup _ | .lookupClass _ | .resultSet _ | .next _ => none
  | .searchRelated rs _ _ _ | .relatedResultSet rs _ _ | .compile rs | .asQuery rs | .projection rs
  | .countQuery rs | .getColumn rs _ | .deleteStatements rs | .cursor rs | .all rs | .first rs
  | .find rs _ | .count rs | .delete rs => some rs
  | .columnQuery c | .columnAll c | .columnFirst c | .columnFunc c _ => some c.rows

def run [Inflate α] (schema : Schema) (storage : Storage σ) :
    Operation α → StateM σ (Guarded Unit)
  | .lookup name => return (Guarded.unasked ((schema.source name).mapError .configuration)).void
  | .lookupClass className =>
    return (Guarded.unasked ((schema.sourceOf className).mapError .configuration)).void
  | .resultSet name =>
    return (Guarded.unasked ((schema.resultSet name).mapError .configuration)).void
  | .searchRelated rs name condition attrs => return (rs.searchRelated name condition attrs).void
  | .relatedResultSet rs record name => return (rs.relatedResultSet record name).void
  | .compile rs => return rs.compile.void
  | .asQuery rs => return rs.asQuery.void
  | .projection rs => return rs.projection.void
  | .countQuery rs => return rs.countQuery.void
  | .getColumn rs name => return (rs.getColumn name).void
  | .deleteStatements rs => return rs.deleteStatements.void
  | .cursor rs => return (← (rs.cursor storage : StateM σ (Guarded (Cursor α)))).void
  | .next c =>
    match c.next? with
    | some (item, _) => return (Guarded.unasked item).void
    | none => return .unasked (.ok ())
  | .all rs => return (← (rs.all storage : StateM σ (Guarded (List α)))).void
  | .first rs => return (← (rs.first storage : StateM σ (Guarded (Option α)))).void
  | .find rs key => return (← (rs.find storage key : StateM σ (Guarded (Option α)))).void
  | .count rs => return (← rs.count storage).void
  | .delete rs => return (← rs.delete storage).void
  | .columnQuery c => return c.asQuery.void
  | .columnAll c => return (← c.all storage).void
  | .columnFirst c => return (← c.first storage).void
  | .columnFunc c function => return (← c.func storage function).void

/-- The operations whose errors the hook is not asked about, with those errors: a source that is
not registered, and a row that cannot be turned into `α`. -/
inductive Unasked [Inflate α] (schema : Schema) : Operation α → Error → Prop where
  | lookup {name : String} {e : ConfigurationError} (missing : schema.source name = .error e) :
    Unasked schema (.lookup name) (.configuration e)
  | lookupClass {className : String} {e : ConfigurationError}
    (missing : schema.sourceOf className = .error e) :
    Unasked schema (.lookupClass className) (.configuration e)
  | resultSet {name : String} {e : ConfigurationError} (missing : schema.source name = .error e) :
    Unasked schema (.resultSet name) (.configuration e)
  | next {c : Cursor α} {row : Row} {rest : List Row} {e : Error} (rows : c.rows = row :: rest)
    (refused : (Inflate.inflate c.projection row : Except Error α) = .error e) :
    Unasked schema (.next c) e

variable [Inflate α] {schema : Schema} {hook : Hook}

theorem raisedBy_guard (configured : schema.config.hook = some hook) (fallback : β)
    (result : Except Error β) : (schema.guard fallback result).RaisedBy hook := by
  unfold Schema.guard
  rw [configured]
  exact Guarded.raisedBy_guarded hook fallback result

theorem raisedBy_run {op : Operation α} {rs : ResultSet} (hset : op.set? = some rs)
    (configured : rs.query.schema.config.hook = some hook) (storage : Storage σ) (state : σ) :
    (op.run schema storage state).1.RaisedBy hook := by
  cases op <;> cases hset
  case searchRelated | relatedResultSet | compile | countQuery | getColumn | deleteStatements |
      cursor | all | first | find | count | delete =>
    exact (raisedBy_guard configured _ _).map _
  case asQuery | projection | columnQuery | columnAll | columnFirst | columnFunc =>
    exact ((raisedBy_guard configured _ _).map _).map _

theorem Unasked.run_eq {op : Operation α} {e : Error} (h : op.Unasked schema e)
    (storage : Storage σ) (state : σ) : (op.run schema storage state).1 = ⟨.error e, []⟩ := by
  cases h with
  | @lookup name _ missing =>
    change (Guarded.unasked ((schema.source name).mapError Error.configuration)).void = _
    rw [missing]
    rfl
  | @lookupClass className _ missing =>
    change (Guarded.unasked ((schema.sourceOf className).mapError Error.configuration)).void = _
    rw [missing]
    rfl
  | @resultSet name _ missing =>
    change (Guarded.unasked ((schema.resultSet name).mapError Error.configuration)).void = _
    rw [Schema.resultSet, missing]
    rfl
  | next rows refused =>
    simp only [run, Cursor.next?, rows, refused]
    rfl

theorem unasked_of_run {op : Operation α} (hset : op.set? = none) {storage : Storage σ} {state : σ}
    {e : Error} (h : (op.run schema storage state).1.outcome = .error e) :
    op.Unasked schema e := by
  have hlookup {β : Type} {result : Except ConfigurationError β}
      (h : (Guarded.unasked (result.mapError Error.configuration)).void.outcome = .error e) :
      ∃ cause, result = .error cause ∧ e = .configuration cause := by
    cases result with
    | ok a => cases h
    | error cause =>
      cases h
      exact ⟨cause, rfl, rfl⟩
  cases op <;> cases hset
  case lookup name =>
    obtain ⟨cause, hcause, rfl⟩ := hlookup h
    exact .lookup hcause
  case lookupClass className =>
    obtain ⟨cause, hcause, rfl⟩ := hlookup h
    exact .lookupClass hcause
  case resultSet name =>
    obtain ⟨cause, hcause, rfl⟩ := hlookup h
    apply Unasked.resultSet
    unfold Schema.resultSet at hcause
    cases hsource : schema.source name with
    | ok s =>
      rw [hsource] at hcause
      cases hcause
    | error missing =>
      rw [hsource] at hcause
      cases hcause
      rfl
  case next c =>
    cases hrows : c.rows with
    | nil =>
      simp only [run, Cursor.next?, hrows] at h
      cases h
    | cons row rest =>
      simp only [run, Cursor.next?, hrows] at h
      cases hitem : (Inflate.inflate c.projection row : Except Error α) with
      | ok a =>
        rw [hitem] at h
        cases h
      | error refused =>
        rw [hitem] at h
        cases h
        exact .next hrows hitem

/-- Under a hook every error that an operation raises is one that the hook raises in place of the
one it is given, save for the errors of lookups and of reading on in a cursor, which come out as
they are. -/
theorem raised_or_unasked (configured : schema.config.hook = some hook) (op : Operation α)
    (of : ∀ rs ∈ op.set?, rs.query.schema = schema) (storage : Storage σ) (state : σ) :
    (∀ e, (op.run schema storage state).1.outcome = .error e → op.Unasked schema e ∨
      ∃ cause, (op.run schema storage state).1.seen = [cause] ∧ hook cause = .raise e) ∧
    ∀ e, op.Unasked schema e → (op.run schema storage state).1 = ⟨.error e, []⟩ := by
  refine ⟨fun e he => ?_, fun e he => he.run_eq storage state⟩
  cases hset : op.set? with
  | none => exact .inl (unasked_of_run hset he)
  | some rs =>
    have hschema := of rs hset
    exact .inr (raisedBy_run hset (hschema ▸ configured) storage state e he)

end Operation

namespace Library

def strictSchema : Schema := { schema with config := ⟨{}, some (Hook.raising (.int 7))⟩ }

def narrowCursor : Cursor Record := ⟨[⟨[.int 1], none⟩], ⟨["id", "name"]⟩⟩

def strayRelated : Operation Record :=
  .searchRelated (.ofSource strictSchema author) "publisher" none none

def strictRun (op : Operation Record) : Guarded Unit :=
  (op.run strictSchema (Script.storage {}) 0).1

theorem raised_or_unasked_strayRelated :
    strictSchema.config.hook = some (Hook.raising (.int 7)) ∧
    (∀ rs ∈ strayRelated.set?, rs.query.schema = strictSchema) ∧
    ∃ cause, (strictRun strayRelated).seen = [cause] ∧
      Hook.raising (.int 7) cause = .raise (.payload (.int 7)) := by
  have configured : strictSchema.config.hook = some (Hook.raising (.int 7)) := rfl
  have of : ∀ rs ∈ strayRelated.set?, rs.query.schema = strictSchema := by
    intro rs hrs
    cases hrs
    rfl
  refine ⟨configured, of, ?_⟩
  obtain ⟨raised, _⟩ :=
    Operation.raised_or_unasked configured strayRelated of (Script.storage {}) 0
  rcases raised (.payload (.int 7)) rfl with hunasked | hraised
  · cases hunasked
  · exact hraised

/-- A source that is not registered and a row that is too narrow are reported as they are, although
the hook raises nothing but its own value. -/
theorem unasked_strictSchema :
    strictSchema.config.hook = some (Hook.raising (.int 7)) ∧
    ¬(strictRun (.lookup "Nope")).RaisedBy (Hook.raising (.int 7)) ∧
    ¬(strictRun (.lookupClass "Nope")).RaisedBy (Hook.raising (.int 7)) ∧
    ¬(strictRun (.resultSet "Nope")).RaisedBy (Hook.raising (.int 7)) ∧
    ¬(strictRun (.next narrowCursor)).RaisedBy (Hook.raising (.int 7)) := by
  have hnot {g : Guarded Unit} (e : Error) (failed : g.outcome = .error e) (silent : g.seen = []) :
      ¬g.RaisedBy (Hook.raising (.int 7)) := by
    intro hraised
    obtain ⟨cause, hseen, _⟩ := hraised e failed
    rw [silent] at hseen
    cases hseen
  refine ⟨rfl, ?_, ?_, ?_, ?_⟩
  · exact hnot (.configuration (.unknownSource "Nope")) rfl rfl
  · exact hnot (.configuration (.unknownSource "Nope")) rfl rfl
  · exact hnot (.configuration (.unknownSource "Nope")) rfl rfl
  · exact hnot (.type (Row.widthMismatch ⟨[.int 1], none⟩ ⟨["id", "name"]⟩)) rfl rfl

end Library

end RelQuery
