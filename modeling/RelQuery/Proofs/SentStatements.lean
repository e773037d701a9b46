import RelQuery.Proofs.Chains
import RelQuery.ResultSet.Execution

/-!
# Sent statements

The operations that execute a set make a plan first, and nothing is asked of the storage without
one. A query is sent once. A delete is sent statement by statement, up to the first one that the
storage refuses, or as one batch to a storage that has a way of its own to execute it.
-/

namespace RelQuery

set_option autoImplicit false

variable {σ α β γ : Type}

theorem StorageM.bind_apply (x : StorageM σ α) (f : α → StorageM σ β) (state : σ) :
    (x >>= f) state = match x state with
      | (.ok a, next) => f a next
      | (.error e, next) => (.error e, next) := by
  simp only [bind, ExceptT.bind, ExceptT.mk, StateT.bind, ExceptT.bindCont]
  rcases x state with ⟨_ | _, next⟩
  · rfl
  · rfl

inductive Request where
  | query (statement : Statement)
  | execute (statement : Statement)
  | batch (statements : List Statement)

/-- The storage that notes what is asked of it, refused requests included. -/
def Storage.traced (storage : Storage σ) : Storage (σ × List Request) where
  query statement := fun (state, log) =>
    let (result, state) := storage.query statement state
    (result, state, log ++ [.query statement])
  execute statement := fun (state, log) =>
    let (result, state) := storage.execute statement state
    (result, state, log ++ [.execute statement])
  ownBatch := storage.ownBatch.map fun run statements (state, log) =>
    let (result, state) := run statements state
    (result, state, log ++ [.batch statements])

/-- From a state of the storage a computation comes to a result and a last state, and its requests
are those of the list, in order. Noting them changes nothing. -/
structure Sends (storage : Storage σ) (run : (τ : Type) → Storage τ → StateM τ β) (state : σ)
    (result : β) (last : σ) (requests : List Request) : Prop where
  plain : run σ storage state = (result, last)
  traced : ∀ log, run _ storage.traced (state, log) = (result, last, log ++ requests)

namespace Sends

variable {storage : Storage σ} {state mid last : σ} {first rest requests : List Request}

theorem ofResult {plan result : Except Error β} (h : plan = result) :
    Sends storage (fun _ _ => StorageM.ofResult plan) state result state [] := by
  subst h
  refine ⟨rfl, fun log => ?_⟩
  rw [List.append_nil]
  rfl

theorem query (storage : Storage σ) (state : σ) (statement : Statement) :
    Sends storage (fun _ s => s.query statement) state (storage.query statement state).1
      (storage.query statement state).2 [.query statement] := ⟨rfl, fun _ => rfl⟩

theorem execute {statement : Statement} {answer : Except Error UInt64}
    (h : storage.execute statement state = (answer, last)) :
    Sends storage (fun _ s => s.execute statement) state answer last [.execute statement] := by
  refine ⟨h, fun log => ?_⟩
  unfold Storage.traced
  dsimp only
  rw [h]

theorem batch {run : List Statement → StorageM σ (List UInt64)} {statements : List Statement}
    {answer : Except Error (List UInt64)} (own : storage.ownBatch = some run)
    (h : run statements state = (answer, last)) :
    Sends storage (fun _ s => s.batch statements) state answer last [.batch statements] := by
  refine ⟨?_, fun log => ?_⟩
  · unfold Storage.batch
    rw [own]
    exact h
  · unfold Storage.batch Storage.traced
    dsimp only
    rw [own]
    dsimp only [Option.map]
    rw [h]

variable {x : (τ : Type) → Storage τ → StorageM τ α}
  {f : (τ : Type) → Storage τ → α → StorageM τ β}

theorem bind_ok {a : α} {result : Except Error β} (hx : Sends storage x state (.ok a) mid first)
    (hf : Sends storage (fun τ s => f τ s a) mid result last rest) :
    Sends storage (fun τ s => (x τ s >>= f τ s : StorageM τ β)) state result last
      (first ++ rest) := by
  refine ⟨?_, fun log => ?_⟩
  · rw [StorageM.bind_apply, hx.plain]
    exact hf.plain
  · rw [StorageM.bind_apply, hx.traced, ← List.append_assoc]
    exact hf.traced _

theorem bind_error {e : Error} (hx : Sends storage x state (.error e) last requests) :
    Sends storage (fun τ s => (x τ s >>= f τ s : StorageM τ β)) state (.error e : Except Error β)
      last requests := by
  refine ⟨?_, fun log => ?_⟩
  · rw [StorageM.bind_apply, hx.plain]
  · rw [StorageM.bind_apply, hx.traced]

theorem map {a : α} (hx : Sends storage x state (.ok a) last requests) (g : α → β) :
    Sends storage (fun τ s => (do return g (← x τ s) : StorageM τ β)) state
      (.ok (g a) : Except Error β) last requests := by
  rw [← List.append_nil requests]
  exact hx.bind_ok (f := fun _ _ b => StorageM.ofResult (.ok (g b))) (.ofResult rfl)

theorem guardRun {result : Except Error α} (h : Sends storage x state result last requests)
    (rs : ResultSet) (fallback : α) :
    Sends storage (fun τ s => rs.guardRun fallback (x τ s)) state (rs.guard fallback result) last
      requests := by
  refine ⟨?_, fun log => ?_⟩
  · unfold ResultSet.guardRun
    rw [h.plain]
  · unfold ResultSet.guardRun
    rw [h.traced]

theorem finish {result : α} {run : (τ : Type) → Storage τ → StateM τ α}
    (h : Sends storage run state result last requests) (g : α → β) :
    Sends storage (fun τ s => (do return g (← run τ s) : StateM τ β)) state (g result) last
      requests := by
  refine ⟨?_, fun log => ?_⟩
  · change (let (a, next) := run σ storage state; (g a, next)) = _
    rw [h.plain]
  · change (let (a, next) := run _ storage.traced (state, log); (g a, next)) = _
    rw [h.traced]

end Sends

/-- Where there is a plan a computation asks one query, the planned one. Without a plan it fails for
the same reason and asks nothing. -/
structure Asks (plan : Except Error Statement) (run : (τ : Type) → Storage τ → StorageM τ α) :
    Prop where
  planned {σ : Type} (storage : Storage σ) (state : σ) {statement : Statement} :
    plan = .ok statement → ∃ result last,
      Sends storage run state result last [.query statement]
  unplanned {σ : Type} (storage : Storage σ) (state : σ) {e : Error} :
    plan = .error e → Sends storage run state (.error e) state []

theorem asks_query (plan : Except Error γ) (statement : γ → Statement)
    (finish : γ → List Row → Except Error α) :
    Asks (plan.map statement) fun _ s => (do
      let p ← StorageM.ofResult plan
      let rows ← s.query (statement p)
      StorageM.ofResult (finish p rows)) := by
  refine ⟨fun storage state st hplan => ?_, fun storage state e hplan => ?_⟩
  · obtain ⟨p, rfl, rfl⟩ := map_eq_ok.mp hplan
    have hquery := Sends.query storage state (statement p)
    have hplanned : Sends storage (fun _ _ => StorageM.ofResult (.ok p)) state (.ok p) state [] :=
      .ofResult rfl
    rcases hrows : storage.query (statement p) state with ⟨_ | rows, last⟩
    · rw [hrows] at hquery
      exact ⟨_, _, hplanned.bind_ok hquery.bind_error⟩
    · rw [hrows] at hquery
      exact ⟨_, _, hplanned.bind_ok (hquery.bind_ok (.ofResult rfl))⟩
  · cases plan with
    | ok p => cases hplan
    | error e' =>
      cases hplan
      exact (Sends.ofResult rfl).bind_error

theorem Asks.behind {plan : γ → Except Error Statement}
    {run : γ → (τ : Type) → Storage τ → StorageM τ α} (h : ∀ c, Asks (plan c) (run c))
    (first : Except Error γ) :
    Asks (first >>= plan) fun τ s => (do
      let c ← StorageM.ofResult first
      run c τ s) := by
  cases first with
  | ok c =>
    refine ⟨fun storage state st hplan => ?_, fun storage state e hplan => ?_⟩
    · obtain ⟨result, last, hsent⟩ := (h c).planned storage state hplan
      exact ⟨result, last, (Sends.ofResult rfl).bind_ok hsent⟩
    · exact (Sends.ofResult rfl).bind_ok ((h c).unplanned storage state hplan)
  | error e =>
    refine ⟨fun storage state st hplan => (nomatch hplan), fun storage state e' hplan => ?_⟩
    cases hplan
    exact (Sends.ofResult rfl).bind_error

/-- An operation on a set asks at most one query, the planned one, whatever the storage answers and
the hook decides. Without a plan nothing is asked, and the hook is given the reason. -/
structure ResultSet.Queries (rs : ResultSet) (plan : Except Error Statement) (fallback : α)
    (run : (τ : Type) → Storage τ → StateM τ (Guarded α)) : Prop where
  planned {σ : Type} (storage : Storage σ) (state : σ) {statement : Statement} :
    plan = .ok statement → ∃ result last,
      Sends storage run state result last [.query statement]
  unplanned {σ : Type} (storage : Storage σ) (state : σ) {e : Error} :
    plan = .error e → Sends storage run state (rs.guard fallback (.error e)) state []

theorem Asks.queries {plan : Except Error Statement}
    {run : (τ : Type) → Storage τ → StorageM τ α} (h : Asks plan run) (rs : ResultSet)
    (fallback : α) : rs.Queries plan fallback fun τ s => rs.guardRun fallback (run τ s) := by
  refine ⟨fun storage state st hplan => ?_, fun storage state e hplan => ?_⟩
  · obtain ⟨result, last, hsent⟩ := h.planned storage state hplan
    exact ⟨_, _, hsent.guardRun rs fallback⟩
  · exact (h.unplanned storage state hplan).guardRun rs fallback

inductive Accepts (storage : Storage σ) : σ → List Statement → List UInt64 → σ → Prop where
  | nil {state : σ} : Accepts storage state [] [] state
  | cons {state mid last : σ} {statement : Statement} {rest : List Statement} {n : UInt64}
    {counts : List UInt64} (accepted : storage.execute statement state = (.ok n, mid))
    (after : Accepts storage mid rest counts last) :
    Accepts storage state (statement :: rest) (n :: counts) last

namespace Accepts

variable {storage : Storage σ} {state mid last : σ} {before : List Statement}
  {counts : List UInt64}

theorem sends_inOrder (h : Accepts storage state before counts last) :
    Sends storage (fun _ s => inOrder s.execute before) state (.ok counts) last
      (before.map .execute) := by
  induction h with
  | nil => exact .ofResult rfl
  | cons accepted _ ih => exact (Sends.execute accepted).bind_ok (ih.map _)

theorem sends_inOrder_refused (h : Accepts storage state before counts mid) {statement : Statement}
    {e : Error} (refusal : storage.execute statement mid = (.error e, last))
    (after : List Statement) :
    Sends storage (fun _ s => inOrder s.execute (before ++ statement :: after)) state (.error e)
      last ((before ++ [statement]).map .execute) := by
  induction h with
  | nil => exact (Sends.execute refusal).bind_error
  | cons accepted _ ih => exact (Sends.execute accepted).bind_ok (ih refusal).bind_error

end Accepts

theorem Sends.inOrder {storage : Storage σ} {state last : σ} {statements : List Statement}
    {result : Except Error (List UInt64)} {requests : List Request}
    (h : Sends storage (fun _ s => inOrder s.execute statements) state result last requests)
    (default : storage.ownBatch = none) :
    Sends storage (fun _ s => s.batch statements) state result last requests := by
  refine ⟨?_, fun log => ?_⟩
  · rw [Storage.batch, default]
    exact h.plain
  · have htraced : storage.traced.ownBatch = none := by
      unfold Storage.traced
      rw [default]
      rfl
    rw [Storage.batch, htraced]
    exact h.traced log

theorem accepts_or_refuses (storage : Storage σ) (statements : List Statement) (state : σ) :
    (∃ counts last, Accepts storage state statements counts last) ∨
    ∃ before statement after counts mid e last, statements = before ++ statement :: after ∧
      Accepts storage state before counts mid ∧
      storage.execute statement mid = (.error e, last) := by
  induction statements generalizing state with
  | nil => exact .inl ⟨[], state, .nil⟩
  | cons first rest ih =>
    rcases hfirst : storage.execute first state with ⟨e | n, mid⟩
    · exact .inr ⟨[], first, rest, [], state, e, mid, rfl, .nil, hfirst⟩
    · rcases ih mid with ⟨counts, last, hrest⟩ |
        ⟨before, statement, after, counts, mid', e, last, rfl, hbefore, hrefused⟩
      · exact .inl ⟨_, last, .cons hfirst hrest⟩
      · exact .inr ⟨_, statement, after, _, mid', e, last, rfl, .cons hfirst hbefore, hrefused⟩

/-- How a storage executes several statements: in order up to the first one that it refuses, or as one
batch where it has a way of its own. -/
inductive BatchRun (storage : Storage σ) (statements : List Statement) (state : σ) :
    Except Error (List UInt64) → σ → List Request → Prop where
  | completed {counts : List UInt64} {last : σ} (default : storage.ownBatch = none)
    (accepted : Accepts storage state statements counts last) :
    BatchRun storage statements state (.ok counts) last (statements.map .execute)
  | refused {before after : List Statement} {statement : Statement} {counts : List UInt64}
    {mid last : σ} {e : Error} (default : storage.ownBatch = none)
    (split : statements = before ++ statement :: after)
    (accepted : Accepts storage state before counts mid)
    (refusal : storage.execute statement mid = (.error e, last)) :
    BatchRun storage statements state (.error e) last ((before ++ [statement]).map .execute)
  | batched {run : List Statement → StorageM σ (List UInt64)} {answer : Except Error (List UInt64)}
    {last : σ} (own : storage.ownBatch = some run)
    (answered : run statements state = (answer, last)) :
    BatchRun storage statements state answer last [.batch statements]

theorem exists_batchRun (storage : Storage σ) (statements : List Statement) (state : σ) :
    ∃ result last requests,
      Sends storage (fun _ s => s.batch statements) state result last requests ∧
      BatchRun storage statements state result last requests := by
  cases hown : storage.ownBatch with
  | some run => exact ⟨_, _, _, .batch hown rfl, .batched hown rfl⟩
  | none =>
    rcases accepts_or_refuses storage statements state with ⟨counts, last, haccepted⟩ |
      ⟨before, statement, after, counts, mid, e, last, rfl, haccepted, hrefusal⟩
    · exact ⟨_, _, _, haccepted.sends_inOrder.inOrder hown, .completed hown haccepted⟩
    · exact ⟨_, _, _, (haccepted.sends_inOrder_refused hrefusal after).inOrder hown,
        .refused hown rfl haccepted hrefusal⟩

theorem Sends.mapBatch {storage : Storage σ} {statements : List Statement} {state last : σ}
    {result : Except Error (List UInt64)} {requests : List Request}
    (h : Sends storage (fun _ s => s.batch statements) state result last requests)
    (g : List UInt64 → α) :
    Sends storage (fun τ s => (do return g (← s.batch statements) : StorageM τ α)) state
      (result.map g) last requests := by
  cases result with
  | error e => exact h.bind_error
  | ok counts => exact h.map g

namespace ResultSet

inductive DeleteRun (rs : ResultSet) (storage : Storage σ) (state : σ) : Prop where
  | unplanned {e : Error} (plan : rs.planDelete = .error e)
    (sent : Sends storage (fun _ s => rs.delete s) state (rs.guard 0 (.error e)) state [])
  | completed {statements : List Statement} {counts : List UInt64} {last : σ}
    (default : storage.ownBatch = none) (plan : rs.planDelete = .ok statements)
    (reported : rs.deleteStatements = ⟨.ok statements, []⟩)
    (accepted : Accepts storage state statements counts last)
    (sent : Sends storage (fun _ s => rs.delete s) state ⟨.ok (counts.foldl (· + ·) 0), []⟩ last
      (statements.map .execute))
  | refused {before after : List Statement} {statement : Statement} {counts : List UInt64}
    {mid last : σ} {e : Error} (default : storage.ownBatch = none)
    (plan : rs.planDelete = .ok (before ++ statement :: after))
    (reported : rs.deleteStatements = ⟨.ok (before ++ statement :: after), []⟩)
    (accepted : Accepts storage state before counts mid)
    (refusal : storage.execute statement mid = (.error e, last))
    (sent : Sends storage (fun _ s => rs.delete s) state (rs.guard 0 (.error e)) last
      ((before ++ [statement]).map .execute))
  | batched {run : List Statement → StorageM σ (List UInt64)} {statements : List Statement}
    {answer : Except Error (List UInt64)} {last : σ} (own : storage.ownBatch = some run)
    (plan : rs.planDelete = .ok statements)
    (reported : rs.deleteStatements = ⟨.ok statements, []⟩)
    (answered : run statements state = (answer, last))
    (sent : Sends storage (fun _ s => rs.delete s) state
      (rs.guard 0 (answer.map (·.foldl (· + ·) 0))) last [.batch statements])

theorem deleteRun (rs : ResultSet) (storage : Storage σ) (state : σ) :
    rs.DeleteRun storage state := by
  cases hplan : rs.planDelete with
  | error e => exact .unplanned hplan ((Sends.ofResult hplan).bind_error.guardRun rs 0)
  | ok statements =>
    have hreported : rs.deleteStatements = ⟨.ok statements, []⟩ := by
      unfold deleteStatements
      rw [hplan]
      rfl
    have hplanned : Sends storage (fun _ _ => StorageM.ofResult rs.planDelete) state
      (.ok statements) state [] := .ofResult hplan
    obtain ⟨result, last, requests, hbatch, hrun⟩ := exists_batchRun storage statements state
    have hsent : Sends storage (fun _ s => rs.delete s) state
        (rs.guard 0 (result.map (·.foldl (· + ·) 0))) last requests :=
      Sends.guardRun (hplanned.bind_ok (hbatch.mapBatch _)) rs 0
    cases hrun with
    | completed default accepted => exact .completed default hplan hreported accepted hsent
    | refused default split accepted refusal =>
      subst split
      exact .refused default hplan hreported accepted refusal hsent
    | batched own answered => exact .batched own hplan hreported answered hsent

/-- What the operations that execute a set send, and how it is the statements that are made without
a storage. -/
structure Executions (rs : ResultSet) (α : Type) [Inflate α] : Prop where
  asQuery : rs.asQuery = rs.guard .empty ((rs.prepare {}).map (·.statement))
  cursor : rs.Queries ((rs.prepare {}).map (·.statement)) {} fun τ => @ResultSet.cursor τ α rs
  all : rs.Queries ((rs.prepare {}).map (·.statement)) [] fun τ => @ResultSet.all τ α _ rs
  countQuery : rs.countQuery = rs.guard .empty rs.prepareCount
  count : rs.Queries rs.prepareCount 0 fun _ => rs.count
  first : rs.Queries ((rs.prepare { atMost := some 1 }).map (·.statement)) none
    fun τ => @ResultSet.first τ α _ rs
  find : ∀ key : Value, rs.Queries (do
    let found ← rs.withKey key
    (found.prepare { atMost := some 1 }).map (·.statement)) none
    fun τ storage => @ResultSet.find τ α _ rs storage key
  delete : ∀ {σ : Type} (storage : Storage σ) (state : σ), rs.DeleteRun storage state

theorem executions (rs : ResultSet) (α : Type) [Inflate α] : rs.Executions α := by
  have hfirst (found : ResultSet) :
      Asks ((found.prepare { atMost := some 1 }).map (·.statement))
        fun _ storage => (found.fetchFirst storage : StorageM _ (Option α)) :=
    asks_query _ _ fun (p : Prepared) rows => inflateFirst p.projection rows
  refine ⟨map_guarded _ _ _ _, ?_, ?_, rfl, ?_, ?_, ?_,
    fun storage state => rs.deleteRun storage state⟩
  · have hcursor := asks_query (rs.prepare {}) (·.statement) fun p rows =>
      .ok (⟨rows, p.projection⟩ : Cursor α)
    exact hcursor.queries rs _
  · exact (asks_query _ _ fun (p : Prepared) rows => inflateAll p.projection rows).queries rs []
  · have hcount := (asks_query rs.prepareCount id fun _ => rowCount).queries rs 0
    rw [Except.map_id] at hcount
    exact hcount
  · exact (hfirst rs).queries rs none
  · intro key
    exact (Asks.behind hfirst (rs.withKey key)).queries rs none

end ResultSet

end RelQuery
