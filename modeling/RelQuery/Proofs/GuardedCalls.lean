import RelQuery.Proofs.Reconfiguring
import RelQuery.Proofs.SentStatements
import RelQuery.Storage.Script

/-!
# Guarded calls

How a call on a set ends under a hook, told from how it ends without one. The hook sees each failure
once, and nothing is sent behind it.
-/

namespace RelQuery

set_option autoImplicit false

variable {σ α β γ : Type}

def SchemaConfig.unhooked (config : SchemaConfig) : SchemaConfig := ⟨config.style, none⟩

/-- The set where neither its schema nor that of a sub-select has a hook. -/
def ResultSet.unhooked : ResultSet → ResultSet := ResultSet.reconfigured SchemaConfig.unhooked

def ColumnSet.unhooked : ColumnSet → ColumnSet := ColumnSet.reconfigured SchemaConfig.unhooked

namespace ResultSet

variable (rs : ResultSet)

theorem guard_unhooked (fallback : β) (result : Except Error β) :
    rs.unhooked.guard fallback result = ⟨result, []⟩ := by
  refine guard_of_none ?_ fallback result
  unfold unhooked
  rw [reconfigured_schema]
  rfl

theorem prepare_unhooked (shape : Shape) : rs.unhooked.prepare shape = rs.prepare shape :=
  @prepare_reconfigured SchemaConfig.unhooked (fun _ => rfl) rs shape

theorem prepareCount_unhooked : rs.unhooked.prepareCount = rs.prepareCount :=
  @prepareCount_reconfigured SchemaConfig.unhooked (fun _ => rfl) rs

theorem planDelete_unhooked : rs.unhooked.planDelete = rs.planDelete :=
  @planDelete_reconfigured SchemaConfig.unhooked (fun _ => rfl) rs

theorem fetchFirst_unhooked [Inflate α] (storage : Storage σ) :
    (rs.unhooked.fetchFirst storage : StorageM σ (Option α)) = rs.fetchFirst storage := by
  unfold fetchFirst
  rw [prepare_unhooked]

end ResultSet

theorem ColumnSet.selecting_unhooked (c : ColumnSet) (e : Expr) :
    c.unhooked.selecting e = (c.selecting e).unhooked := c.reconfigured_selecting _ e

theorem ColumnSet.entry_unhooked (c : ColumnSet) : c.unhooked.entry = c.entry := rfl

theorem ColumnSet.alone_unhooked (c : ColumnSet) : c.unhooked.alone = c.alone.unhooked :=
  c.selecting_unhooked c.entry.expr

def Storage.answer (storage : Storage σ) : Request → StorageM σ Unit
  | .query statement => fun state =>
    let (result, state) := storage.query statement state
    (result.map fun _ => (), state)
  | .execute statement => fun state =>
    let (result, state) := storage.execute statement state
    (result.map fun _ => (), state)
  | .batch statements => fun state =>
    let (result, state) := storage.batch statements state
    (result.map fun _ => (), state)

section Answer

variable {storage : Storage σ} {statement : Statement} {state last : σ}

theorem answer_query {result : Except Error (List Row)}
    (h : storage.query statement state = (result, last)) :
    storage.answer (.query statement) state = (result.map fun _ => (), last) := by
  unfold Storage.answer
  dsimp only
  rw [h]

theorem answer_execute {result : Except Error UInt64}
    (h : storage.execute statement state = (result, last)) :
    storage.answer (.execute statement) state = (result.map fun _ => (), last) := by
  unfold Storage.answer
  dsimp only
  rw [h]

theorem answer_batch {run : List Statement → StorageM σ (List UInt64)}
    {statements : List Statement} {result : Except Error (List UInt64)}
    (own : storage.ownBatch = some run) (h : run statements state = (result, last)) :
    storage.answer (.batch statements) state = (result.map fun _ => (), last) := by
  unfold Storage.answer Storage.batch
  rw [own]
  dsimp only
  rw [h]

end Answer

def Storage.batchRequests (storage : Storage σ) (statements : List Statement) : List Request :=
  match storage.ownBatch with
  | some _ => [.batch statements]
  | none => statements.map .execute

/-- From a state on, the storage grants requests one after the other. -/
inductive Grants (storage : Storage σ) : σ → List Request → σ → Prop where
  | nil {state : σ} : Grants storage state [] state
  | cons {state mid last : σ} {r : Request} {rest : List Request}
    (granted : storage.answer r state = (.ok (), mid)) (after : Grants storage mid rest last) :
    Grants storage state (r :: rest) last

/-- Where there is no plan nothing is sent. The planned requests are sent up to the first one that
the storage refuses, and with it the computation fails. -/
inductive Follows (plan : Except Error (List Request)) (storage : Storage σ) (state : σ) :
    Except Error β → σ → List Request → Prop where
  | unplanned {e : Error} (unplanned : plan = .error e) :
    Follows plan storage state (.error e) state []
  | refused {before after : List Request} {r : Request} {mid last : σ} {e : Error}
    (planned : plan = .ok (before ++ r :: after)) (granted : Grants storage state before mid)
    (refusal : storage.answer r mid = (.error e, last)) :
    Follows plan storage state (.error e) last (before ++ [r])
  | answered {requests : List Request} {last : σ} {result : Except Error β}
    (planned : plan = .ok requests) (granted : Grants storage state requests last) :
    Follows plan storage state result last requests

theorem Follows.map {plan : Except Error (List Request)} {storage : Storage σ} {state last : σ}
    {result : Except Error α} {requests : List Request}
    (h : Follows plan storage state result last requests) (g : α → β) :
    Follows plan storage state (result.map g) last requests := by
  cases h with
  | unplanned unplanned => exact .unplanned unplanned
  | refused planned granted refusal => exact .refused planned granted refusal
  | answered planned granted => exact .answered planned granted

theorem Sends.through {storage : Storage σ} {run : (τ : Type) → Storage τ → StateM τ α}
    {made : (τ : Type) → Storage τ → StateM τ β} {state last : σ} {result : α}
    {requests : List Request} (h : Sends storage run state result last requests) (g : α → β)
    (through : ∀ (τ : Type) (s : Storage τ) (state : τ),
      made τ s state = (g (run τ s state).1, (run τ s state).2)) :
    Sends storage made state (g result) last requests := by
  refine ⟨?_, fun log => ?_⟩
  · rw [through, h.plain]
  · rw [through, h.traced]

def StorageM.mapResult (g : α → β) (x : StorageM σ α) : StorageM σ β := fun state =>
  let (result, state) := x state
  (result.map g, state)

theorem StorageM.mapResult_id (x : StorageM σ α) : StorageM.mapResult id x = x := by
  funext state
  exact Prod.ext (congrFun Except.map_id _) rfl

def Storage.fetch (storage : Storage σ) (plan : Except Error γ) (statement : γ → Statement)
    (finish : γ → List Row → Except Error β) : StorageM σ β := do
  let p ← StorageM.ofResult plan
  let rows ← storage.query (statement p)
  StorageM.ofResult (finish p rows)

/-- A computation sends what is planned for a storage. -/
structure SendsPlan (plan : (τ : Type) → Storage τ → Except Error (List Request))
    (x : (τ : Type) → Storage τ → StorageM τ β) : Prop where
  run : ∀ {σ : Type} (storage : Storage σ) (state : σ), ∃ result last requests,
    Sends storage x state result last requests ∧
      Follows (plan σ storage) storage state result last requests

theorem sendsPlan_ofResult (result : Except Error β) :
    SendsPlan (fun _ _ => .ok []) fun _ _ => StorageM.ofResult result :=
  ⟨fun _ state => ⟨result, state, [], .ofResult rfl, .answered rfl .nil⟩⟩

theorem SendsPlan.mapResult {plan : (τ : Type) → Storage τ → Except Error (List Request)}
    {x : (τ : Type) → Storage τ → StorageM τ α} (h : SendsPlan plan x) (g : α → β) :
    SendsPlan plan fun τ s => StorageM.mapResult g (x τ s) := by
  refine ⟨fun storage state => ?_⟩
  obtain ⟨result, last, requests, hsends, hfollows⟩ := h.run storage state
  exact ⟨_, last, requests, hsends.through (Except.map g) fun _ _ _ => rfl, hfollows.map g⟩

theorem SendsPlan.behind {plan : γ → (τ : Type) → Storage τ → Except Error (List Request)}
    {x : γ → (τ : Type) → Storage τ → StorageM τ β} (h : ∀ c, SendsPlan (plan c) (x c))
    (first : Except Error γ) :
    SendsPlan (fun τ s => first >>= fun c => plan c τ s) fun τ s => (do
      let c ← StorageM.ofResult first
      x c τ s) := by
  refine ⟨fun storage state => ?_⟩
  cases first with
  | error e => exact ⟨_, _, _, (Sends.ofResult rfl).bind_error, .unplanned rfl⟩
  | ok c =>
    obtain ⟨result, last, requests, hsends, hfollows⟩ := (h c).run storage state
    exact ⟨result, last, requests, (Sends.ofResult rfl).bind_ok hsends, hfollows⟩

theorem sendsPlan_fetch (plan : Except Error γ) (statement : γ → Statement)
    (finish : γ → List Row → Except Error β) :
    SendsPlan (fun _ _ => plan.map fun p => [.query (statement p)])
      fun _ s => s.fetch plan statement finish := by
  refine ⟨fun storage state => ?_⟩
  cases plan with
  | error e => exact ⟨_, _, _, (Sends.ofResult rfl).bind_error, .unplanned rfl⟩
  | ok p =>
    have hquery := Sends.query storage state (statement p)
    rcases hrows : storage.query (statement p) state with ⟨e | rows, last⟩
    · rw [hrows] at hquery
      exact ⟨_, _, _, (Sends.ofResult rfl).bind_ok hquery.bind_error,
        @Follows.refused _ _ _ _ _ [] [] _ _ _ _ rfl .nil (answer_query hrows)⟩
    · rw [hrows] at hquery
      exact ⟨_, _, _, (Sends.ofResult rfl).bind_ok (hquery.bind_ok (.ofResult rfl)),
        .answered rfl (.cons (answer_query hrows) .nil)⟩

theorem Accepts.grants {storage : Storage σ} {state last : σ} {statements : List Statement}
    {counts : List UInt64} (h : Accepts storage state statements counts last) :
    Grants storage state (statements.map .execute) last := by
  induction h with
  | nil => exact .nil
  | cons accepted _ ih => exact .cons (answer_execute accepted) ih

theorem BatchRun.follows {storage : Storage σ} {statements : List Statement} {state last : σ}
    {result : Except Error (List UInt64)} {requests : List Request}
    (h : BatchRun storage statements state result last requests) :
    Follows (.ok (storage.batchRequests statements)) storage state result last requests := by
  unfold Storage.batchRequests
  cases h with
  | completed default accepted =>
    rw [default]
    exact .answered rfl accepted.grants
  | @refused before after statement _ _ _ _ default split accepted refusal =>
    rw [default, split, List.map_append, List.map_append]
    exact .refused rfl accepted.grants (answer_execute refusal)
  | batched own answered =>
    rw [own]
    have hanswer := answer_batch own answered
    cases result with
    | ok counts => exact .answered rfl (.cons hanswer .nil)
    | error e => exact @Follows.refused _ _ _ _ _ [] [] _ _ _ _ rfl .nil hanswer

theorem sendsPlan_delete (plan : Except Error (List Statement)) :
    SendsPlan (fun _ storage => plan.map storage.batchRequests) fun _ s => (do
      let statements ← StorageM.ofResult plan
      let removed ← s.batch statements
      return removed.foldl (· + ·) 0) := by
  refine ⟨fun storage state => ?_⟩
  cases plan with
  | error e => exact ⟨_, _, _, (Sends.ofResult rfl).bind_error, .unplanned rfl⟩
  | ok statements =>
    obtain ⟨result, last, requests, hbatch, hrun⟩ := exists_batchRun storage statements state
    exact ⟨_, last, requests, (Sends.ofResult rfl).bind_ok (hbatch.mapBatch _),
      hrun.follows.map _⟩

/-- The guarded calls on sets and on their columns, by what they give. Rows are turned into `α`. -/
inductive GuardedCall (α : Type) : Type → Type where
  | compile (rs : ResultSet) : GuardedCall α Prepared
  | asQuery (rs : ResultSet) : GuardedCall α Statement
  | projection (rs : ResultSet) : GuardedCall α Projection
  | countQuery (rs : ResultSet) : GuardedCall α Statement
  | getColumn (rs : ResultSet) (name : String) : GuardedCall α (Option ColumnSet)
  | searchRelated (rs : ResultSet) (name : String) (condition : Option Expr)
    (attrs : Option (Attributes ResultSet)) : GuardedCall α (Option ResultSet)
  | relatedResultSet (rs : ResultSet) (record : Record) (name : String) :
    GuardedCall α (Option ResultSet)
  | deleteStatements (rs : ResultSet) : GuardedCall α (List Statement)
  | cursor (rs : ResultSet) : GuardedCall α (Cursor α)
  | all (rs : ResultSet) : GuardedCall α (List α)
  | first (rs : ResultSet) : GuardedCall α (Option α)
  | find (rs : ResultSet) (key : Value) : GuardedCall α (Option α)
  | count (rs : ResultSet) : GuardedCall α UInt64
  | delete (rs : ResultSet) : GuardedCall α UInt64
  | columnQuery (c : ColumnSet) : GuardedCall α Statement
  | columnAll (c : ColumnSet) : GuardedCall α (List Value)
  | columnFirst (c : ColumnSet) : GuardedCall α (Option Value)
  | columnFunc (c : ColumnSet) (function : String) : GuardedCall α (Option Value)

namespace GuardedCall

def set : {β : Type} → GuardedCall α β → ResultSet
  | _, .compile rs | _, .asQuery rs | _, .projection rs | _, .countQuery rs | _, .getColumn rs _
  | _, .searchRelated rs _ _ _ | _, .relatedResultSet rs _ _ | _, .deleteStatements rs
  | _, .cursor rs | _, .all rs | _, .first rs | _, .find rs _ | _, .count rs | _, .delete rs => rs
  | _, .columnQuery c | _, .columnAll c | _, .columnFirst c | _, .columnFunc c _ => c.rows

def run [Inflate α] (storage : Storage σ) : {β : Type} → GuardedCall α β → StateM σ (Guarded β)
  | _, .compile rs => return rs.compile
  | _, .asQuery rs => return rs.asQuery
  | _, .projection rs => return rs.projection
  | _, .countQuery rs => return rs.countQuery
  | _, .getColumn rs name => return rs.getColumn name
  | _, .searchRelated rs name condition attrs => return rs.searchRelated name condition attrs
  | _, .relatedResultSet rs record name => return rs.relatedResultSet record name
  | _, .deleteStatements rs => return rs.deleteStatements
  | _, .cursor rs => rs.cursor storage
  | _, .all rs => rs.all storage
  | _, .first rs => rs.first storage
  | _, .find rs key => rs.find storage key
  | _, .count rs => rs.count storage
  | _, .delete rs => rs.delete storage
  | _, .columnQuery c => return c.asQuery
  | _, .columnAll c => c.all storage
  | _, .columnFirst c => c.first storage
  | _, .columnFunc c function => c.func storage function

def fallback : {β : Type} → GuardedCall α β → β
  | _, .compile _ => .empty
  | _, .asQuery _ | _, .countQuery _ | _, .columnQuery _ => .empty
  | _, .projection _ => {}
  | _, .getColumn _ _ | _, .searchRelated _ _ _ _ | _, .relatedResultSet _ _ _ | _, .first _
  | _, .find _ _ | _, .columnFirst _ | _, .columnFunc _ _ => none
  | _, .deleteStatements _ | _, .all _ | _, .columnAll _ => []
  | _, .cursor _ => {}
  | _, .count _ | _, .delete _ => 0

def unhooked : {β : Type} → GuardedCall α β → GuardedCall α β
  | _, .compile rs => .compile rs.unhooked
  | _, .asQuery rs => .asQuery rs.unhooked
  | _, .projection rs => .projection rs.unhooked
  | _, .countQuery rs => .countQuery rs.unhooked
  | _, .getColumn rs name => .getColumn rs.unhooked name
  | _, .searchRelated rs name condition attrs =>
    .searchRelated rs.unhooked name condition (attrs.map (Attributes.map ResultSet.unhooked))
  | _, .relatedResultSet rs record name => .relatedResultSet rs.unhooked record name
  | _, .deleteStatements rs => .deleteStatements rs.unhooked
  | _, .cursor rs => .cursor rs.unhooked
  | _, .all rs => .all rs.unhooked
  | _, .first rs => .first rs.unhooked
  | _, .find rs key => .find rs.unhooked key
  | _, .count rs => .count rs.unhooked
  | _, .delete rs => .delete rs.unhooked
  | _, .columnQuery c => .columnQuery c.unhooked
  | _, .columnAll c => .columnAll c.unhooked
  | _, .columnFirst c => .columnFirst c.unhooked
  | _, .columnFunc c function => .columnFunc c.unhooked function

theorem set_unhooked (call : GuardedCall α β) : call.unhooked.set = call.set.unhooked := by
  cases call <;> rfl

def plain : {β : Type} → GuardedCall α β → β → β
  | _, .getColumn _ _ => Option.map ColumnSet.unhooked
  | _, .searchRelated _ _ _ _ | _, .relatedResultSet _ _ _ => Option.map ResultSet.unhooked
  | _, .compile _ | _, .asQuery _ | _, .projection _ | _, .countQuery _ | _, .deleteStatements _
  | _, .cursor _ | _, .all _ | _, .first _ | _, .find _ _ | _, .count _ | _, .delete _
  | _, .columnQuery _ | _, .columnAll _ | _, .columnFirst _ | _, .columnFunc _ _ => id

def planned (storage : Storage σ) : {β : Type} → GuardedCall α β → Except Error (List Request)
  | _, .cursor rs | _, .all rs => (rs.prepare {}).map fun p => [.query p.statement]
  | _, .first rs => (rs.prepare { atMost := some 1 }).map fun p => [.query p.statement]
  | _, .find rs key => do
    let found ← rs.withKey key
    (found.prepare { atMost := some 1 }).map fun p => [.query p.statement]
  | _, .count rs => rs.prepareCount.map fun statement => [.query statement]
  | _, .delete rs => rs.planDelete.map storage.batchRequests
  | _, .columnAll c => (c.alone.prepare {}).map fun p => [.query p.statement]
  | _, .columnFirst c => (c.alone.prepare { atMost := some 1 }).map fun p => [.query p.statement]
  | _, .columnFunc c function =>
    ((c.selecting (.call function [c.entry.expr])).prepare { atMost := some 1 }).map
      fun p => [.query p.statement]
  | _, _ => .ok []

variable [Inflate α]

/-- How a call ends under a hook, from how the same call ends without one. -/
inductive HookedRun (hook : Hook) (call : GuardedCall α β) (storage : Storage σ) (state : σ) :
    Prop where
  | succeeds {a : β} {last : σ} {requests : List Request}
    (underlying : Sends storage (fun _ s => call.unhooked.run s) state ⟨.ok (call.plain a), []⟩ last
      requests)
    (follows : Follows (call.planned storage) storage state (.ok a) last requests)
    (sent : Sends storage (fun _ s => call.run s) state ⟨.ok a, []⟩ last requests)
  | raises {e raised : Error} {last : σ} {requests : List Request}
    (underlying : Sends storage (fun _ s => call.unhooked.run s) state ⟨.error e, []⟩ last requests)
    (follows : Follows (call.planned storage) storage state (.error e : Except Error β) last requests)
    (action : hook e = .raise raised)
    (sent : Sends storage (fun _ s => call.run s) state ⟨.error raised, [e]⟩ last requests)
  | suppresses {e : Error} {last : σ} {requests : List Request}
    (underlying : Sends storage (fun _ s => call.unhooked.run s) state ⟨.error e, []⟩ last requests)
    (follows : Follows (call.planned storage) storage state (.error e : Except Error β) last requests)
    (action : hook e = .suppress)
    (sent : Sends storage (fun _ s => call.run s) state ⟨.ok call.fallback, [e]⟩ last requests)

/-- What a call hands to the guard: it decides whether the hook is asked. -/
def computation (storage : Storage σ) : {β : Type} → GuardedCall α β → StorageM σ β
  | _, .compile rs => .ofResult (rs.prepare {})
  | _, .asQuery rs => .ofResult ((rs.prepare {}).map (·.statement))
  | _, .projection rs => .ofResult ((rs.prepare {}).map (·.projection))
  | _, .countQuery rs => .ofResult rs.prepareCount
  | _, .getColumn rs name => .ofResult ((rs.column name).map some)
  | _, .searchRelated rs name condition attrs =>
    .ofResult ((rs.related name).map fun related => some (related.search condition attrs))
  | _, .relatedResultSet rs record name => .ofResult (rs.relatedTo record name)
  | _, .deleteStatements rs => .ofResult rs.planDelete
  | _, .cursor rs =>
    storage.fetch (rs.prepare {}) (·.statement) fun p rows => .ok ⟨rows, p.projection⟩
  | _, .all rs =>
    storage.fetch (rs.prepare {}) (·.statement) fun p rows => ResultSet.inflateAll p.projection rows
  | _, .first rs => rs.fetchFirst storage
  | _, .find rs key => do
    let found ← StorageM.ofResult (rs.withKey key)
    found.fetchFirst storage
  | _, .count rs => storage.fetch rs.prepareCount id fun _ rows => ResultSet.rowCount rows
  | _, .delete rs => do
    let statements ← StorageM.ofResult rs.planDelete
    let removed ← storage.batch statements
    return removed.foldl (· + ·) 0
  | _, .columnQuery c => .ofResult ((c.alone.prepare {}).map (·.statement))
  | _, .columnAll c => .mapResult ColumnSet.firstValues
    (storage.fetch (c.alone.prepare {}) (·.statement) fun p rows =>
      ResultSet.inflateAll p.projection rows)
  | _, .columnFirst c => .mapResult ColumnSet.firstValue (c.alone.fetchFirst storage)
  | _, .columnFunc c function => .mapResult ColumnSet.firstValue
    ((c.selecting (.call function [c.entry.expr])).fetchFirst storage)

theorem run_eq (call : GuardedCall α β) (storage : Storage σ) (state : σ) :
    call.run storage state = (call.set.guard call.fallback (call.computation storage state).1,
      (call.computation storage state).2) := by
  cases call
  case compile | countQuery | getColumn | searchRelated | relatedResultSet | deleteStatements |
      cursor | all | first | find | count | delete => rfl
  case asQuery | projection | columnQuery | columnAll | columnFirst | columnFunc =>
    exact Prod.ext (map_guarded _ _ _ _) rfl

theorem sendsPlan_computation (call : GuardedCall α β) :
    SendsPlan (fun _ s => call.planned s) fun _ s => call.computation s := by
  have hfirst {γ : Type} [Inflate γ] (rs : ResultSet) :
      SendsPlan (fun _ _ => (rs.prepare { atMost := some 1 }).map fun p => [.query p.statement])
        fun _ s => (rs.fetchFirst s : StorageM _ (Option γ)) :=
    sendsPlan_fetch _ _ fun (p : Prepared) rows => ResultSet.inflateFirst p.projection rows
  cases call with
  | compile | asQuery | projection | countQuery | getColumn | searchRelated | relatedResultSet |
      deleteStatements | columnQuery => exact sendsPlan_ofResult _
  | cursor | all | count => exact sendsPlan_fetch _ _ _
  | first rs => exact hfirst rs
  | find rs key => exact .behind hfirst (rs.withKey key)
  | delete rs => exact sendsPlan_delete rs.planDelete
  | columnAll c => exact (sendsPlan_fetch _ _ _).mapResult _
  | columnFirst c => exact (hfirst c.alone).mapResult _
  | columnFunc c function => exact (hfirst _).mapResult _

theorem computation_unhooked (call : GuardedCall α β) (storage : Storage σ) :
    call.unhooked.computation storage = .mapResult call.plain (call.computation storage) := by
  cases call with
  | compile | asQuery | projection | countQuery | deleteStatements | cursor | all | first | count
  | delete =>
    simp only [unhooked, computation, plain, ResultSet.prepare_unhooked,
      ResultSet.prepareCount_unhooked, ResultSet.planDelete_unhooked,
      ResultSet.fetchFirst_unhooked, StorageM.mapResult_id]
  | columnQuery | columnAll | columnFirst | columnFunc =>
    simp only [unhooked, computation, plain, ColumnSet.alone_unhooked,
      ColumnSet.selecting_unhooked, ColumnSet.entry_unhooked, ResultSet.prepare_unhooked,
      ResultSet.fetchFirst_unhooked, StorageM.mapResult_id]
  | find rs key =>
    simp only [unhooked, computation, plain, StorageM.mapResult_id]
    rw [ResultSet.unhooked, rs.reconfigured_withKey]
    cases rs.withKey key with
    | error e => rfl
    | ok found => exact found.fetchFirst_unhooked storage
  | getColumn rs name =>
    refine congrArg StorageM.ofResult ?_
    rw [ResultSet.unhooked, rs.reconfigured_column]
    cases rs.column name with
    | error e => rfl
    | ok c => rfl
  | searchRelated rs name condition attrs =>
    refine congrArg StorageM.ofResult ?_
    rw [ResultSet.unhooked, rs.reconfigured_related]
    cases rs.related name with
    | error e => rfl
    | ok related =>
      exact congrArg (fun rs => Except.ok (some rs))
        (related.reconfigured_search SchemaConfig.unhooked condition attrs).symm
  | relatedResultSet rs record name =>
    exact congrArg StorageM.ofResult (rs.reconfigured_relatedTo SchemaConfig.unhooked record name)

/-- A call that succeeds does not ask the hook. One that fails asks it once about the failure, and
gives what the hook makes of it. -/
theorem hookedRun (call : GuardedCall α β) {hook : Hook}
    (configured : call.set.query.schema.config.hook = some hook) (storage : Storage σ) (state : σ) :
    call.HookedRun hook storage state := by
  -- One run of the computation is behind both calls. They differ in what is made of its result.
  obtain ⟨result, last, requests, hsends, hfollows⟩ :=
    call.sendsPlan_computation.run storage state
  have hunderlying : Sends storage (fun _ s => call.unhooked.run s) state
      ⟨result.map call.plain, []⟩ last requests := by
    refine hsends.through (fun result => (⟨result.map call.plain, []⟩ : Guarded β))
      fun τ s state => ?_
    rw [run_eq, call.set_unhooked, ResultSet.guard_unhooked, computation_unhooked]
    rfl
  have hsent : Sends storage (fun _ s => call.run s) state (call.set.guard call.fallback result)
      last requests :=
    hsends.through (call.set.guard call.fallback) fun _ s state => call.run_eq s state
  unfold ResultSet.guard Schema.guard at hsent
  rw [configured] at hsent
  cases result with
  | ok a => exact .succeeds hunderlying hfollows hsent
  | error e =>
    unfold guarded Error.through at hsent
    dsimp only at hsent
    cases haction : hook e with
    | raise raised =>
      rw [haction] at hsent
      exact .raises hunderlying hfollows haction hsent
    | suppress =>
      rw [haction] at hsent
      exact .suppresses hunderlying hfollows haction hsent

end GuardedCall

namespace Library

def calmSchema : Schema := { schema with config := ⟨{}, some Hook.suppressAll⟩ }

def deleteAuthors : GuardedCall Record UInt64 := .delete (.ofSource calmSchema author)

def reluctant : Storage Nat := Script.storage { failAt := some 1 }

theorem hookedRun_deleteAuthors :
    deleteAuthors.set.query.schema.config.hook = some Hook.suppressAll ∧
    (∃ statements, (ResultSet.ofSource calmSchema author).planDelete = .ok statements ∧
      statements.length = 4) ∧
    ∃ e requests, Sends reluctant (fun _ s => deleteAuthors.unhooked.run s) 0 ⟨.error e, []⟩ 2
        requests ∧
      Sends reluctant (fun _ s => deleteAuthors.run s) 0 ⟨.ok 0, [e]⟩ 2 requests ∧
      requests.length = 2 := by
  have configured : deleteAuthors.set.query.schema.config.hook = some Hook.suppressAll := rfl
  refine ⟨configured, ⟨_, rfl, rfl⟩, ?_⟩
  cases deleteAuthors.hookedRun configured reluctant 0 with
  | succeeds underlying follows sent =>
    have hseen : 1 = 0 := congrArg (fun run => run.1.seen.length) sent.plain
    exact absurd hseen Nat.one_ne_zero
  | raises underlying follows action sent => cases action
  | @suppresses e last requests underlying follows action sent =>
    have hlast : 2 = last := congrArg (fun run => run.2) sent.plain
    have hrequests : 2 = requests.length :=
      congrArg (fun run => run.2.2.length) (sent.traced [])
    subst hlast
    exact ⟨e, requests, underlying, sent, hrequests.symm⟩

end Library

end RelQuery
