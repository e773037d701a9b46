import RelQuery.Proofs.Counting
import RelQuery.Storage.Script

/-!
# Reading rows

A cursor turns the rows of a set one after the other, each when it is asked for. Reading them all
turns them up to the first that cannot be, and the first row is turned like any other. All of them
come to the same items.
-/

namespace RelQuery

set_option autoImplicit false

variable {σ α : Type}

namespace Cursor

variable [Inflate α]

theorem remaining_of_next? {c behind : Cursor α} {item : Except Error α}
    (h : c.next? = some (item, behind)) : c.remaining = behind.remaining + 1 := by
  obtain ⟨rows, projection⟩ := c
  cases rows with
  | nil => cases h
  | cons row rows =>
    cases h
    rfl

/-- Reads a cursor to its end: its items, each with the number of rows that were left when it was
asked for, and the cursor that is left at last. -/
def readOut (c : Cursor α) : List (Nat × Except Error α) × Cursor α :=
  match _h : c.next? with
  | none => ([], c)
  | some (item, behind) => ((c.remaining, item) :: behind.readOut.1, behind.readOut.2)
termination_by c.remaining
decreasing_by
  all_goals
    rw [remaining_of_next? _h]
    exact Nat.lt_succ_self _

def items (c : Cursor α) : List (Except Error α) := c.readOut.1.map (·.2)

def firstItem (c : Cursor α) : Except Error (Option α) :=
  match c.items with
  | [] => .ok none
  | item :: _ => item.map some

theorem readOut_nil (projection : Projection) :
    (⟨[], projection⟩ : Cursor α).readOut = ([], ⟨[], projection⟩) := by
  rw [readOut]
  rfl

theorem readOut_cons (row : Row) (rows : List Row) (projection : Projection) :
    (⟨row :: rows, projection⟩ : Cursor α).readOut =
      ((rows.length + 1, Inflate.inflate projection row) ::
        (⟨rows, projection⟩ : Cursor α).readOut.1,
        (⟨rows, projection⟩ : Cursor α).readOut.2) := by
  rw [readOut]
  rfl

theorem items_eq (c : Cursor α) : c.items = c.rows.map (Inflate.inflate c.projection) := by
  obtain ⟨rows, projection⟩ := c
  unfold items
  induction rows with
  | nil => rw [readOut_nil]; rfl
  | cons row rows ih => rw [readOut_cons, List.map_cons, ih]; rfl

theorem counts_eq (c : Cursor α) :
    c.readOut.1.map (·.1) = ((List.range c.rows.length).map (· + 1)).reverse := by
  obtain ⟨rows, projection⟩ := c
  induction rows with
  | nil => rw [readOut_nil]; rfl
  | cons row rows ih =>
    rw [readOut_cons, List.map_cons, ih, List.length_cons, List.range_succ, List.map_append,
      List.reverse_append]
    rfl

theorem last_eq (c : Cursor α) : c.readOut.2 = ⟨[], c.projection⟩ := by
  obtain ⟨rows, projection⟩ := c
  induction rows with
  | nil => rw [readOut_nil]
  | cons row rows ih => rw [readOut_cons, ih]

theorem inflateFirst_eq (c : Cursor α) {rows : List Row} (same : rows.head? = c.rows.head?) :
    ResultSet.inflateFirst c.projection rows = c.firstItem := by
  unfold firstItem
  rw [items_eq]
  obtain ⟨others, projection⟩ := c
  cases rows with
  | nil =>
    cases others with
    | nil => rfl
    | cons other others => cases same
  | cons row rows =>
    cases others with
    | nil => cases same
    | cons other others =>
      cases same
      rfl

end Cursor

namespace ResultSet

def answer (rs : ResultSet) (shape : Shape) (storage : Storage σ) (state : σ) :
    Except Error (Prepared × List Row) × σ :=
  match rs.prepare shape with
  | .error e => (.error e, state)
  | .ok p =>
    let (rows, left) := storage.query p.statement state
    (rows.map (p, ·), left)

variable {rs : ResultSet} {storage : Storage σ} {state : σ}

theorem run_answer {β : Type} (rs : ResultSet) (shape : Shape) (storage : Storage σ) (state : σ)
    (finish : Prepared → List Row → Except Error β) :
    (do
      let p ← StorageM.ofResult (rs.prepare shape)
      let rows ← storage.query p.statement
      StorageM.ofResult (finish p rows) : StorageM σ β) state =
    ((rs.answer shape storage state).1.bind fun (p, rows) => finish p rows,
      (rs.answer shape storage state).2) := by
  unfold answer
  cases hplan : rs.prepare shape with
  | error e => rfl
  | ok p =>
    rw [StorageM.bind_apply]
    dsimp only [StorageM.ofResult]
    rw [StorageM.bind_apply]
    rcases storage.query p.statement state with ⟨_ | rows, left⟩
    · rfl
    · rfl

theorem answer_eq_ok {shape : Shape} {p : Prepared} {rows : List Row}
    (h : (rs.answer shape storage state).1 = .ok (p, rows)) :
    rs.prepare shape = .ok p ∧ (storage.query p.statement state).1 = .ok rows := by
  unfold answer at h
  cases hplan : rs.prepare shape with
  | error e =>
    rw [hplan] at h
    cases h
  | ok q =>
    rw [hplan] at h
    obtain ⟨rows', hrows, heq⟩ := map_eq_ok.mp h
    cases heq
    exact ⟨rfl, hrows⟩

theorem guardRun_of_none {β : Type} (noHook : rs.query.schema.config.hook = none) (fallback : β)
    (computation : StorageM σ β) (state : σ) :
    rs.guardRun fallback computation state =
      (⟨(computation state).1, []⟩, (computation state).2) := by
  unfold guardRun
  rcases computation state with ⟨result, left⟩
  dsimp only
  rw [guard_of_none noHook]

theorem cursor_eq (noHook : rs.query.schema.config.hook = none) :
    @cursor σ α rs storage state =
      (⟨(rs.answer {} storage state).1.bind fun (p, rows) => .ok ⟨rows, p.projection⟩, []⟩,
        (rs.answer {} storage state).2) := by
  have hrun := run_answer rs {} storage state fun p rows =>
    .ok (⟨rows, p.projection⟩ : Cursor α)
  unfold cursor
  rw [guardRun_of_none noHook]
  exact congrArg
    (fun r : Except Error (Cursor α) × σ => ((⟨r.1, []⟩, r.2) : Guarded (Cursor α) × σ)) hrun

variable [Inflate α]

/-- What a set comes to when it is read from a storage: `opened` is the cursor on its rows, and
`listed` is the list of all of them. -/
structure ReadsAlike (rs : ResultSet) (storage : Storage σ) (state : σ)
    (opened : Except Error (Cursor α)) (listed : Except Error (List α)) : Prop where
  answered : ∀ c, opened = .ok c → ∃ p, rs.prepare {} = .ok p ∧ c.projection = p.projection ∧
    (storage.query p.statement state).1 = .ok c.rows
  items : ∀ c, opened = .ok c → c.items = c.rows.map (Inflate.inflate c.projection)
  /-- The number of rows that are left goes down by one with each item, and ends at 0. -/
  counts : ∀ c, opened = .ok c →
    c.readOut.1.map (·.1) = ((List.range c.rows.length).map (· + 1)).reverse ∧
      c.readOut.2.remaining = 0
  succeeded : ∀ l : List α, listed = .ok l ↔ ∃ c, opened = .ok c ∧ c.items = l.map .ok
  /-- Otherwise it fails as the opening did, or as the first item that has. -/
  failed : ∀ e, listed = .error e ↔ opened = .error e ∨
    ∃ (c : Cursor α) (before : List α) (after : List (Except Error α)), opened = .ok c ∧
      c.items = before.map .ok ++ .error e :: after
  first : ∀ c, opened = .ok c → inflateFirst c.projection c.rows = c.firstItem ∧
    ∃ p, rs.prepare { atMost := some 1 } = .ok p ∧
      ∀ {τ : Type} (other : Storage τ) (before after : τ) (rows : List Row),
        other.query p.statement before = (.ok rows, after) → rows.head? = c.rows.head? →
        @ResultSet.first τ α _ rs other before = (⟨c.firstItem, []⟩, after)

theorem all_eq (noHook : rs.query.schema.config.hook = none) :
    @all σ α _ rs storage state =
      (⟨(rs.answer {} storage state).1.bind fun (p, rows) => inflateAll p.projection rows, []⟩,
        (rs.answer {} storage state).2) := by
  unfold all
  rw [guardRun_of_none noHook, run_answer]

theorem first_eq (noHook : rs.query.schema.config.hook = none) {p : Prepared}
    (plan : rs.prepare { atMost := some 1 } = .ok p) {rows : List Row} {last : σ}
    (query : storage.query p.statement state = (.ok rows, last)) :
    @first σ α _ rs storage state = (⟨inflateFirst p.projection rows, []⟩, last) := by
  have hanswer : rs.answer { atMost := some 1 } storage state = (.ok (p, rows), last) := by
    unfold answer
    rw [plan]
    dsimp only
    rw [query]
    rfl
  unfold first fetchFirst
  rw [guardRun_of_none noHook, run_answer, hanswer]
  rfl

theorem prepare_first {p : Prepared} (plan : rs.prepare {} = .ok p) :
    ∃ q, rs.prepare { atMost := some 1 } = .ok q ∧ q.projection = p.projection := by
  obtain ⟨c, hc, rfl⟩ := prepare_eq_ok.mp plan
  exact ⟨_, prepare_eq_ok.mpr ⟨c, hc, rfl⟩, rfl⟩

theorem readsAlike_error (rs : ResultSet) (storage : Storage σ) (state : σ) (e : Error) :
    @ReadsAlike σ α _ rs storage state (.error e) (.error e) := by
  refine ⟨nofun, nofun, nofun, ?succeeded, ?failed, nofun⟩
  case succeeded => exact fun l => ⟨nofun, fun ⟨_, h, _⟩ => nomatch h⟩
  case failed =>
    intro e'
    constructor
    · rintro ⟨⟩
      exact .inl rfl
    · rintro (⟨⟨⟩⟩ | ⟨_, _, _, h, _⟩)
      · rfl
      · cases h

theorem readsAlike_rows (noHook : rs.query.schema.config.hook = none) {p : Prepared}
    (plan : rs.prepare {} = .ok p) {rows : List Row}
    (answered : (storage.query p.statement state).1 = .ok rows) :
    @ReadsAlike σ α _ rs storage state (.ok ⟨rows, p.projection⟩)
      (inflateAll p.projection rows) := by
  have hitems : (⟨rows, p.projection⟩ : Cursor α).items =
      rows.map (Inflate.inflate p.projection) := Cursor.items_eq _
  refine ⟨?answered, ?items, ?counts, ?succeeded, ?failed, ?first⟩
  case answered =>
    rintro c ⟨⟩
    exact ⟨p, plan, rfl, answered⟩
  case items =>
    intro c _
    exact c.items_eq
  case counts =>
    intro c _
    rw [c.last_eq]
    exact ⟨c.counts_eq, rfl⟩
  case succeeded =>
    intro l
    constructor
    · intro h
      exact ⟨_, rfl, hitems.trans (mapM_eq_ok_iff_map.mp h)⟩
    · rintro ⟨c, ⟨⟩, h⟩
      exact mapM_eq_ok_iff_map.mpr (hitems.symm.trans h)
  case failed =>
    intro e
    constructor
    · intro h
      obtain ⟨before, after, h⟩ := mapM_eq_error.mp h
      exact .inr ⟨_, before, after, rfl, hitems.trans h⟩
    · rintro (h | ⟨c, before, after, ⟨⟩, h⟩)
      · cases h
      · exact mapM_eq_error.mpr ⟨before, after, hitems.symm.trans h⟩
  case first =>
    rintro c ⟨⟩
    obtain ⟨q, hq, hqp⟩ := prepare_first plan
    refine ⟨Cursor.inflateFirst_eq _ rfl, q, hq, ?_⟩
    intro τ other before after found hquery same
    rw [first_eq noHook hq hquery, hqp]
    exact congrArg (fun item => ((⟨item, []⟩, after) : Guarded (Option α) × τ))
      (Cursor.inflateFirst_eq ⟨rows, p.projection⟩ same)

/-- Without a hook, opening a cursor, reading all rows and reading the first one come to the same
items, whatever the storage answers. -/
theorem reads_alike (noHook : rs.query.schema.config.hook = none) (storage : Storage σ)
    (state : σ) :
    (@all σ α _ rs storage state).2 = (@cursor σ α rs storage state).2 ∧
      rs.ReadsAlike storage state (@cursor σ α rs storage state).1.outcome
        (@all σ α _ rs storage state).1.outcome := by
  rw [cursor_eq noHook, all_eq noHook]
  refine ⟨rfl, ?_⟩
  dsimp only
  cases hanswer : (rs.answer {} storage state).1 with
  | error e => exact readsAlike_error rs storage state e
  | ok found =>
    obtain ⟨p, rows⟩ := found
    obtain ⟨hplan, hrows⟩ := answer_eq_ok hanswer
    exact readsAlike_rows noHook hplan hrows

end ResultSet

namespace Library

def ragged : Storage Nat := Script.storage {
  rows := [[.int 1, .text "Ann", .null], [.int 2, .text "Bo"],
    [.int 3, .text "Cy", .int 1, .int 7]] }

theorem reads_alike_ragged :
    schema.config.hook = none ∧
    (@ResultSet.all Nat Record _ (ResultSet.ofSource schema author) ragged 0).1.outcome =
      .error (.type
        ⟨"row matching the selected columns", "2 values for 3 selected columns", none⟩) ∧
    (@ResultSet.all Nat Row _ (ResultSet.ofSource schema author) ragged 0).1.outcome =
      .ok [⟨[.int 1, .text "Ann", .null], none⟩, ⟨[.int 2, .text "Bo"], none⟩,
        ⟨[.int 3, .text "Cy", .int 1, .int 7], none⟩] := by
  have noHook : (ResultSet.ofSource schema author).query.schema.config.hook = none := rfl
  obtain ⟨_, records⟩ := @ResultSet.reads_alike _ Record _ _ noHook ragged 0
  obtain ⟨_, rows⟩ := @ResultSet.reads_alike _ Row _ _ noHook ragged 0
  refine ⟨noHook, ?_, ?_⟩
  · refine (records.failed _).mpr (.inr ⟨_,
      [⟨[("id", .int 1), ("name", .text "Ann"), ("mentor", .null)]⟩],
      [.error (.type
        ⟨"row matching the selected columns", "4 values for 3 selected columns", none⟩)],
      rfl, ?_⟩)
    rw [records.items _ rfl]
    rfl
  · apply (rows.succeeded _).mpr
    refine ⟨_, rfl, ?_⟩
    rw [rows.items _ rfl]
    rfl

end Library

end RelQuery
