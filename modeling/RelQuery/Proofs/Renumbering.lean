import RelQuery.Proofs.Weaving

/-!
# Renumbered placeholders

What becomes of the characters of raw text. Its marks are the `?` outside of string literals; as far
as there are values for them, they become placeholders that are numbered behind what is bound
already, and every other character stays in its place.
-/

namespace RelQuery

set_option autoImplicit false

/-- Whether a position is inside a string literal; `quoted` tells whether the text starts in one. -/
def quotedAt (quoted : Bool) (cs : List Char) (p : Nat) : Bool :=
  quoted ^^ (cs.take p).count '\'' % 2 == 1

def markAt (quoted : Bool) (cs : List Char) (p : Nat) : Bool :=
  cs[p]? == some '?' && !quotedAt quoted cs p

def marksBefore (quoted : Bool) (cs : List Char) (p : Nat) : Nat :=
  (List.range p).countP (markAt quoted cs)

/-- The text in place of the character `c` at a position. One of the first `values` marks becomes a
placeholder, numbered from `n + 1` on. -/
def charText (d : Dialect) (n values : Nat) (quoted : Bool) (cs : List Char) (p : Nat) (c : Char) :
    String :=
  if markAt quoted cs p && marksBefore quoted cs p < values then
    d.placeholder (n + marksBefore quoted cs p + 1)
  else String.singleton c

def renumbered (d : Dialect) (n values : Nat) (quoted : Bool) (cs : List Char) : String :=
  String.join (cs.mapIdx (charText d n values quoted cs))

def quotedBehind (quoted : Bool) (c : Char) : Bool := quoted ^^ c == '\''

section Marks

variable (quoted : Bool) (c : Char) (cs : List Char) (p : Nat)

theorem quotedAt_succ :
    quotedAt quoted (c :: cs) (p + 1) = quotedAt (quotedBehind quoted c) cs p := by
  unfold quotedAt quotedBehind
  rw [List.take_succ_cons, List.count_cons]
  cases hc : c == '\'' with
  | false => simp
  | true =>
    rcases Nat.mod_two_eq_zero_or_one ((cs.take p).count '\'') with h | h
    · simp [Nat.add_mod, h]
    · simp [Nat.add_mod, h]

theorem markAt_zero : markAt quoted (c :: cs) 0 = (c == '?' && !quoted) := by
  simp [markAt, quotedAt]

theorem markAt_succ : markAt quoted (c :: cs) (p + 1) = markAt (quotedBehind quoted c) cs p := by
  unfold markAt
  rw [quotedAt_succ, List.getElem?_cons_succ]

theorem marksBefore_succ : marksBefore quoted (c :: cs) (p + 1) =
    marksBefore (quotedBehind quoted c) cs p + if c == '?' && !quoted then 1 else 0 := by
  unfold marksBefore
  have hsucc : markAt quoted (c :: cs) ∘ Nat.succ = markAt (quotedBehind quoted c) cs :=
    funext (markAt_succ quoted c cs)
  rw [List.range_succ_eq_map, List.countP_cons, List.countP_map, hsucc, markAt_zero]

end Marks

variable {d : Dialect} {n values : Nat} {quoted : Bool} {c : Char} {cs : List Char}

theorem renumbered_mark : renumbered d n (values + 1) false ('?' :: cs) =
    d.placeholder (n + 1) ++ renumbered d (n + 1) values false cs := by
  have hrest : (fun p => charText d n (values + 1) false ('?' :: cs) (p + 1)) =
      charText d (n + 1) values false cs := by
    funext p c
    have hnumber (m : Nat) : n + (m + 1) + 1 = n + 1 + m + 1 := by omega
    unfold charText
    rw [markAt_succ, marksBefore_succ]
    simp [quotedBehind, hnumber]
  unfold renumbered
  rw [List.mapIdx_cons, String.join_cons, hrest]
  rfl

theorem renumbered_other (h : (c == '?' && !quoted) = true → values = 0) :
    renumbered d n values quoted (c :: cs) =
      String.singleton c ++ renumbered d n values (quotedBehind quoted c) cs := by
  have hfirst : charText d n values quoted (c :: cs) 0 c = String.singleton c := by
    unfold charText
    rw [markAt_zero]
    cases hmark : c == '?' && !quoted with
    | false => rfl
    | true => simp [h hmark]
  have hrest : (fun p => charText d n values quoted (c :: cs) (p + 1)) =
      charText d n values (quotedBehind quoted c) cs := by
    funext p e
    unfold charText
    rw [markAt_succ, marksBefore_succ]
    cases hmark : c == '?' && !quoted with
    | false => rfl
    | true => simp [h hmark]
  unfold renumbered
  rw [List.mapIdx_cons, String.join_cons, hfirst, hrest]

theorem markCount_cons (quoted : Bool) (c : Char) (cs : List Char) : markCount quoted (c :: cs) =
    markCount (quotedBehind quoted c) cs + if c == '?' && !quoted then 1 else 0 := by
  rw [markCount]
  unfold quotedBehind
  by_cases hc : c = '\''
  · simp [hc]
  · rw [if_neg hc, beq_false_of_ne hc, Bool.xor_false]
    cases quoted with
    | false => by_cases hmark : c = '?' <;> simp [hmark]
    | true => simp

theorem marksBefore_length (quoted : Bool) (cs : List Char) :
    marksBefore quoted cs cs.length = markCount quoted cs := by
  induction cs generalizing quoted with
  | nil => rfl
  | cons c cs ih => rw [List.length_cons, marksBefore_succ, ih, markCount_cons]

theorem exists_value_or (quoted : Bool) (c : Char) (vs : List Value) :
    (c = '?' ∧ quoted = false ∧ ∃ v rest, vs = v :: rest) ∨
      ((c == '?' && !quoted) = true → vs = []) := by
  cases hmark : c == '?' && !quoted with
  | false => exact .inr fun h => nomatch h
  | true =>
    have hboth : c = '?' ∧ quoted = false := by simpa using hmark
    cases vs with
    | nil => exact .inr fun _ => rfl
    | cons v rest => exact .inl ⟨hboth.1, hboth.2, v, rest, rfl⟩

namespace Fragment

theorem rawFrom_other {vs : List Value} (h : (c == '?' && !quoted) = true → vs = []) :
    rawFrom d quoted (c :: cs) vs =
      .text (String.singleton c) :: rawFrom d (quotedBehind quoted c) cs vs := by
  unfold quotedBehind
  by_cases hc : c = '\''
  · simp [rawFrom, hc]
  · rw [beq_false_of_ne hc, Bool.xor_false]
    simp only [rawFrom, if_neg hc]
    split
    · exact absurd (h rfl) (List.cons_ne_nil _ _)
    · rfl

/-- The text of raw SQL is its text with the marks renumbered, as far as it has values. -/
theorem sql_rawFrom (d : Dialect) (n : Nat) (quoted : Bool) (cs : List Char) (vs : List Value) :
    (rawFrom d quoted cs vs).sql n = renumbered d n vs.length quoted cs := by
  induction cs generalizing n quoted vs with
  | nil =>
    rw [rawFrom]
    induction vs generalizing n with
    | nil => rfl
    | cons v vs ih => exact ih (n + 1)
  | cons c cs ih =>
    rcases exists_value_or quoted c vs with ⟨rfl, rfl, v, rest, rfl⟩ | hstays
    · rw [List.length_cons, renumbered_mark, ← ih]
      rfl
    · have hnone (h : (c == '?' && !quoted) = true) : vs.length = 0 :=
        List.length_eq_zero_iff.mpr (hstays h)
      rw [rawFrom_other hstays, sql, renumbered_other hnone, ih]

/-- Behind raw text whose marks have all of its values, other raw text starts with the values that
are left. -/
theorem rawFrom_append {vs : List Value} (marks : markCount quoted cs = vs.length)
    (behind : List Char) (more : List Value) :
    rawFrom d quoted (cs ++ behind) (vs ++ more) =
      rawFrom d quoted cs vs ++ rawFrom d (quotedAt quoted cs cs.length) behind more := by
  induction cs generalizing quoted vs with
  | nil =>
    have hnone : vs = [] := List.length_eq_zero_iff.mp marks.symm
    rw [hnone]
    simp [rawFrom, quotedAt]
  | cons c cs ih =>
    rw [markCount_cons] at marks
    rw [List.length_cons, quotedAt_succ]
    rcases exists_value_or quoted c vs with ⟨rfl, rfl, v, rest, rfl⟩ | hstays
    · exact congrArg (.bind d v :: ·) (ih (Nat.succ.inj marks))
    · cases hmark : c == '?' && !quoted with
      | false =>
        rw [hmark] at marks
        have hbehind : (c == '?' && !quoted) = true → vs ++ more = [] := fun h => by
          rw [hmark] at h
          cases h
        rw [List.cons_append, rawFrom_other hbehind, rawFrom_other hstays, ih marks]
        rfl
      | true =>
        rw [hstays hmark, hmark] at marks
        cases marks

theorem renumbered_mysql (n values : Nat) (quoted : Bool) (cs : List Char) :
    renumbered .mysql n values quoted cs = String.ofList cs := by
  induction cs generalizing n values quoted with
  | nil => rfl
  | cons c cs ih =>
    have hcons : String.ofList (c :: cs) = String.singleton c ++ String.ofList cs := by simp
    cases hmark : c == '?' && !quoted with
    | false =>
      rw [renumbered_other fun h => (nomatch hmark.symm.trans h), ih, hcons]
    | true =>
      obtain ⟨rfl, rfl⟩ : c = '?' ∧ quoted = false := by simpa using hmark
      cases values with
      | zero => rw [renumbered_other fun _ => rfl, ih, hcons]
      | succ values =>
        rw [renumbered_mark, ih, hcons]
        rfl

/-- Raw text is written with its marks renumbered as far as there are values, and with all of its
values behind those bound already. Two texts one behind the other are written like their
concatenation, when the first one closes its string literals and has as many marks as values. -/
theorem write_raw (d : Dialect) (sql : String) (values params : List Value) :
    (raw d sql values).write params =
        (renumbered d params.length values.length false sql.toList, params ++ values) ∧
      (d = .mysql → ((raw d sql values).write params).1 = sql) ∧
      ∀ (next : String) (more : List Value), sql.toList.count '\'' % 2 = 0 →
        marksBefore false sql.toList sql.toList.length = values.length →
        (raw d (sql ++ next) (values ++ more)).write params =
          (((raw d sql values).write params).1 ++
              ((raw d next more).write ((raw d sql values).write params).2).1,
            ((raw d next more).write ((raw d sql values).write params).2).2) := by
  have htext (sql : String) (values : List Value) (n : Nat) :
      (raw d sql values).sql n = renumbered d n values.length false sql.toList :=
    sql_rawFrom d n false sql.toList values
  refine ⟨?_, ?_, ?_⟩
  · unfold write
    rw [htext, binds_raw]
  · rintro rfl
    unfold write
    rw [htext, renumbered_mysql, String.ofList_toList]
  · intro next more closed marks
    rw [marksBefore_length] at marks
    have hopen : quotedAt false sql.toList sql.toList.length = false := by
      unfold quotedAt
      rw [List.take_length, closed]
      rfl
    have hraw : raw d (sql ++ next) (values ++ more) = raw d sql values ++ raw d next more := by
      unfold raw
      rw [String.toList_append, rawFrom_append marks, hopen]
    unfold write
    rw [hraw, sql_append, binds_append, List.append_assoc, List.length_append]

end Fragment

namespace Library

def doubtfulName : String := "me.name <> 'who?' AND me.id > ?"

theorem write_raw_doubtfulName :
    doubtfulName.toList.count '\'' % 2 = 0 ∧
    marksBefore false doubtfulName.toList doubtfulName.toList.length = 1 ∧
    (Fragment.raw .postgres (doubtfulName ++ " OR me.mentor = ?") [.int 7, .int 8]).write
        [.text "Ann"] =
      ("me.name <> 'who?' AND me.id > $2 OR me.mentor = $3", [.text "Ann", .int 7, .int 8]) := by
  have closed : doubtfulName.toList.count '\'' % 2 = 0 := by decide
  have marks : marksBefore false doubtfulName.toList doubtfulName.toList.length = 1 := by decide
  obtain ⟨_, _, happend⟩ := Fragment.write_raw .postgres doubtfulName [.int 7] [.text "Ann"]
  exact ⟨closed, marks, happend " OR me.mentor = ?" [.int 8] closed marks⟩

end Library

end RelQuery
