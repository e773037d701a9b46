import RelQuery.Proofs.SearchRuns

/-!
# Pages

A page is a window on the rows of a set: so many of them, behind those of the pages in front of it.
The number of rows in front is counted in words. It is exact or there is no page, so that pages
lie side by side.
-/

namespace RelQuery

set_option autoImplicit false

variable {σ β : Type}

theorem word?_eq_some {n : Nat} {w : UInt64} : word? n = some w ↔ w.toNat = n := by
  constructor
  · unfold word?
    split
    · rename_i hn
      rintro ⟨⟩
      exact UInt64.toNat_ofNat_of_lt' hn
    · exact nofun
  · rintro rfl
    rw [word?_of_lt w.toNat_lt, Nat.toUInt64, UInt64.ofNat_toNat]

theorem word?_eq_none {n : Nat} : word? n = none ↔ UInt64.size ≤ n := by
  constructor
  · intro h
    by_contra hn
    rw [word?_of_lt (Nat.lt_of_not_le hn)] at h
    cases h
  · exact word?_of_le

namespace Window

def skip (w : Window) : Nat := (w.offset.map (·.toNat)).getD 0

def view (w : Window) (rows : List β) : List β :=
  match w.limit with
  | none => rows.drop w.skip
  | some n => (rows.drop w.skip).take n.toNat

end Window

namespace Attributes

def atPage (a : Attributes σ) (page : UInt64) : Attributes σ := { a with page := some page }

def pagesFrom (a : Attributes σ) (page n : Nat) : Except Error (List Window) :=
  (List.range' page n).mapM fun k => (a.atPage k.toUInt64).window

/-- What a number of rows for a page makes of the window. -/
structure Paged (a : Attributes σ) (rows : UInt64) : Prop where
  /-- There is no page just where the number of rows in front of it needs more than 64 bits. -/
  overflows : ∀ e, a.window = .error e ↔ UInt64.size ≤ a.skipped rows ∧ e = a.pageOverflow rows
  shows : ∀ w, a.window = .ok w ↔
    ∃ n : UInt64, n.toNat = a.skipped rows ∧ w = ⟨some rows, if n = 0 then none else some n⟩
  written : ∀ w, a.window = .ok w → w.text = " LIMIT " ++ toString rows.toNat ++
    if a.skipped rows = 0 then "" else " OFFSET " ++ toString (a.skipped rows)
  following : ∀ p q v w, 1 ≤ p → q.toNat = p.toNat + 1 → (a.atPage p).window = .ok v →
    (a.atPage q).window = .ok w → w.skip = v.skip + rows.toNat
  /-- Pages that follow each other show one piece of the rows, each row of it once. -/
  tiles : ∀ page n ws, 1 ≤ page → page + n ≤ UInt64.size → a.pagesFrom page n = .ok ws →
    ∀ {β : Type} (l : List β), ws.flatMap (·.view l) =
      (l.drop ((page - 1) * rows.toNat + (a.offset.getD 0).toNat)).take (n * rows.toNat)

variable {a : Attributes σ} {rows page : UInt64} {w : Window}

theorem window_of_rows (h : a.rows = some rows) : a.window =
    match word? (a.skipped rows) with
    | some n => .ok ⟨some rows, if n = 0 then none else some n⟩
    | none => .error (a.pageOverflow rows) := by
  unfold window
  rw [h, ← skip?_eq]
  dsimp only
  cases a.skip? rows with
  | none => rfl
  | some n =>
    dsimp only
    by_cases hn : n = 0
    · rw [hn]
      rfl
    · rw [if_neg hn, if_pos (UInt64.pos_iff_ne_zero.mpr hn)]

theorem window_eq_error (h : a.rows = some rows) {e : Error} :
    a.window = .error e ↔ UInt64.size ≤ a.skipped rows ∧ e = a.pageOverflow rows := by
  rw [window_of_rows h, ← word?_eq_none]
  cases word? (a.skipped rows) with
  | none => simp [eq_comm]
  | some n => simp

theorem window_eq_ok (h : a.rows = some rows) : a.window = .ok w ↔
    ∃ n : UInt64, n.toNat = a.skipped rows ∧ w = ⟨some rows, if n = 0 then none else some n⟩ := by
  simp only [window_of_rows h, ← word?_eq_some]
  cases word? (a.skipped rows) with
  | none => simp
  | some n => simp [eq_comm]

theorem skip_of_window (h : a.rows = some rows) (hw : a.window = .ok w) :
    w.skip = a.skipped rows := by
  obtain ⟨n, hn, rfl⟩ := (window_eq_ok h).mp hw
  rw [← hn]
  unfold Window.skip
  by_cases hzero : n = 0
  · rw [if_pos hzero, hzero]
    rfl
  · rw [if_neg hzero]
    rfl

theorem view_of_window (h : a.rows = some rows) (hw : a.window = .ok w) (l : List β) :
    w.view l = (l.drop (a.skipped rows)).take rows.toNat := by
  have hskip := skip_of_window h hw
  obtain ⟨n, _, rfl⟩ := (window_eq_ok h).mp hw
  rw [← hskip]
  rfl

theorem text_of_window (h : a.rows = some rows) (hw : a.window = .ok w) :
    w.text = " LIMIT " ++ toString rows.toNat ++
      if a.skipped rows = 0 then "" else " OFFSET " ++ toString (a.skipped rows) := by
  obtain ⟨n, hn, rfl⟩ := (window_eq_ok h).mp hw
  rw [Window.text_eq, ← hn]
  by_cases hzero : n = 0
  · rw [if_pos hzero, hzero]
    rfl
  · have hnat : n.toNat ≠ 0 := fun h => hzero (UInt64.toNat_inj.mp h)
    rw [if_neg hzero, if_neg hnat]
    rfl

theorem skipped_atPage (hpage : 1 ≤ page) :
    (a.atPage page).skipped rows =
      (page.toNat - 1) * rows.toNat + (a.offset.getD 0).toNat := by
  have hmax : max page 1 = page := by
    change (if page ≤ 1 then 1 else page) = page
    split
    · rename_i hle
      exact UInt64.le_antisymm hpage hle
    · rfl
  unfold skipped atPage
  rw [Option.getD_some, hmax]

theorem pagesFrom_succ {k n : Nat} {ws : List Window} : a.pagesFrom k (n + 1) = .ok ws ↔
    ∃ w rest, (a.atPage k.toUInt64).window = .ok w ∧ a.pagesFrom (k + 1) n = .ok rest ∧
      ws = w :: rest := by
  unfold pagesFrom
  rw [List.range'_succ, List.mapM_cons, bind_eq_ok]
  constructor
  · rintro ⟨w, hw, h⟩
    obtain ⟨rest, hrest, h⟩ := bind_eq_ok.mp h
    exact ⟨w, rest, hw, hrest, (pure_eq_ok.mp h).symm⟩
  · rintro ⟨w, rest, hw, hrest, rfl⟩
    exact ⟨w, hw, bind_eq_ok.mpr ⟨rest, hrest, rfl⟩⟩

theorem views_of_pagesFrom (h : a.rows = some rows) {k n : Nat} {ws : List Window} (first : 1 ≤ k)
    (last : k + n ≤ UInt64.size) (hws : a.pagesFrom k n = .ok ws) (l : List β) :
    ws.flatMap (·.view l) =
      (l.drop ((k - 1) * rows.toNat + (a.offset.getD 0).toNat)).take (n * rows.toNat) := by
  induction n generalizing k ws with
  | zero =>
    cases hws
    rw [Nat.zero_mul, List.take_zero]
    rfl
  | succ n ih =>
    obtain ⟨w, rest, hw, hrest, rfl⟩ := pagesFrom_succ.mp hws
    have hfits : k < UInt64.size := by omega
    have hk : k.toUInt64.toNat = k := UInt64.toNat_ofNat_of_lt' hfits
    have hpage : 1 ≤ k.toUInt64 := by
      rw [UInt64.le_iff_toNat_le, hk]
      exact first
    have hview := view_of_window (a := a.atPage k.toUInt64) h hw l
    rw [skipped_atPage hpage, hk] at hview
    have hnext : (k + 1 - 1) * rows.toNat + (a.offset.getD 0).toNat =
        (k - 1) * rows.toNat + (a.offset.getD 0).toNat + rows.toNat := by
      obtain ⟨k, rfl⟩ := Nat.exists_eq_add_of_le' first
      rw [Nat.add_sub_cancel, Nat.add_sub_cancel, Nat.succ_mul]
      omega
    rw [List.flatMap_cons, hview, ih (by omega) (by omega) hrest, hnext, Nat.succ_mul,
      Nat.add_comm (n * rows.toNat), List.take_add, List.drop_drop]

theorem skip_following (h : a.rows = some rows) {p q : UInt64} {v : Window} (first : 1 ≤ p)
    (next : q.toNat = p.toNat + 1) (hv : (a.atPage p).window = .ok v)
    (hw : (a.atPage q).window = .ok w) : w.skip = v.skip + rows.toNat := by
  have hq : 1 ≤ q := by
    rw [UInt64.le_iff_toNat_le, next]
    exact Nat.le_add_left 1 p.toNat
  have hp : 1 ≤ p.toNat := UInt64.le_iff_toNat_le.mp first
  have hskipped : (p.toNat + 1 - 1) * rows.toNat = (p.toNat - 1) * rows.toNat + rows.toNat := by
    rw [← Nat.succ_mul]
    congr 1
    omega
  rw [skip_of_window (a := a.atPage p) h hv, skip_of_window (a := a.atPage q) h hw,
    skipped_atPage first, skipped_atPage hq, next, hskipped]
  omega

/-- Pages are exact, and they lie side by side. Without a number of rows for a page there are no
pages. -/
theorem paged (a : Attributes σ) :
    (a.rows = none → ∀ page, { a with page }.window = .ok ⟨a.limit, a.offset⟩) ∧
      ∀ rows, a.rows = some rows → a.Paged rows := by
  constructor
  · intro h page
    unfold window
    dsimp only
    rw [h]
  · intro rows h
    refine ⟨fun _ => window_eq_error h, fun _ => window_eq_ok h, fun _ => text_of_window h,
      fun _ _ _ _ => skip_following h, ?_⟩
    intro page n ws first last hws β l
    exact views_of_pagesFrom h first last hws l

end Attributes

namespace Library

/-- The pages in front fit in 64 bits, and the offset makes one row too many. -/
def farPage : Attributes ResultSet :=
  { rows := some 4294967296, page := some 4294967296, offset := some 4294967296 }

def lastPage : Attributes ResultSet := { farPage with offset := some 4294967295 }

def pairsBehindOne : Attributes ResultSet := { rows := some 2, page := some 0, offset := some 1 }

theorem paged_farPage :
    farPage.rows = some 4294967296 ∧
    farPage.window = .error (farPage.pageOverflow 4294967296) ∧
    lastPage.window = .ok ⟨some 4294967296, some 18446744073709551615⟩ ∧
    (∃ ws, pairsBehindOne.pagesFrom 2 3 = .ok ws ∧
      ws.flatMap (·.view (List.range 12)) = [3, 4, 5, 6, 7, 8]) ∧
    ({ limit := some 5, page := some 7 } : Attributes ResultSet).window = .ok ⟨some 5, none⟩ := by
  obtain ⟨_, hfar⟩ := Attributes.paged farPage
  obtain ⟨_, hlast⟩ := Attributes.paged lastPage
  obtain ⟨_, hpairs⟩ := Attributes.paged pairsBehindOne
  obtain ⟨hunpaged, _⟩ := Attributes.paged ({ limit := some 5 } : Attributes ResultSet)
  refine ⟨rfl, ?_, ?_, ?_, hunpaged rfl (some 7)⟩
  · exact ((hfar _ rfl).overflows _).mpr ⟨by decide, rfl⟩
  · exact ((hlast _ rfl).shows _).mpr ⟨18446744073709551615, by decide, rfl⟩
  · obtain ⟨ws, hws⟩ : ∃ ws, pairsBehindOne.pagesFrom 2 3 = .ok ws := ⟨_, rfl⟩
    refine ⟨ws, hws, ?_⟩
    rw [(hpairs _ rfl).tiles 2 3 ws (by decide) (by decide) hws]
    rfl

end Library

end RelQuery
