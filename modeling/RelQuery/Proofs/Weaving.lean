import RelQuery.Fragment

/-!
# Woven placeholders

A fragment in which every value has a placeholder of one dialect is a fixed sequence of texts with
the placeholders between them, whatever has been bound before it.
-/

namespace RelQuery

set_option autoImplicit false

/-- Texts with the placeholders of a dialect between them, numbered behind `before` values. -/
def weave (d : Dialect) (before : Nat) (first : String) : List String → String
  | [] => first
  | next :: rest => first ++ d.placeholder (before + 1) ++ weave d (before + 1) next rest

theorem weave_append (d : Dialect) (n : Nat) (s t : String) (ts : List String) :
    weave d n (s ++ t) ts = s ++ weave d n t ts := by
  cases ts with
  | nil => rfl
  | cons u us => simp [weave, String.append_assoc]

def Piece.Numbered (d : Dialect) : Piece → Prop
  | .text _ => True
  | .bind e _ => e = d
  | .silent _ => False

def markCount : Bool → List Char → Nat
  | _, [] => 0
  | quoted, c :: cs =>
    if c = '\'' then markCount (!quoted) cs
    else if c = '?' ∧ quoted = false then markCount quoted cs + 1
    else markCount quoted cs

/-- Raw text has exactly one `?` outside of its string literals for each of its values. -/
def RawBalanced (sql : String) (values : List Value) : Prop :=
  markCount false sql.toList = values.length

instance (sql : String) (values : List Value) : Decidable (RawBalanced sql values) :=
  inferInstanceAs (Decidable (_ = _))

namespace Fragment

def Numbered (d : Dialect) (f : Fragment) : Prop := ∀ p ∈ f, p.Numbered d

variable {d : Dialect} {f g : Fragment}

@[simp] theorem numbered_nil (d : Dialect) : Numbered d [] := by simp [Numbered]

@[simp] theorem numbered_ofText (d : Dialect) (s : String) : Numbered d (ofText s) := by
  simp [Numbered, ofText, Piece.Numbered]

@[simp] theorem numbered_text_cons (s : String) :
    Numbered d (.text s :: f) ↔ f.Numbered d := by
  simp [Numbered, Piece.Numbered]

@[simp] theorem numbered_bind_cons (v : Value) : Numbered d (.bind d v :: f) ↔ f.Numbered d := by
  simp [Numbered, Piece.Numbered]

@[simp] theorem numbered_append : Numbered d (f ++ g) ↔ f.Numbered d ∧ g.Numbered d :=
  List.forall_mem_append

@[simp] theorem numbered_paren : Numbered d f.paren ↔ f.Numbered d := by
  simp [paren]

theorem numbered_join (separator : String) {fs : List Fragment} (h : ∀ f ∈ fs, f.Numbered d) :
    Numbered d (join separator fs) := by
  fun_induction join separator fs with
  | case1 => exact numbered_nil d
  | case2 f => exact h f List.mem_cons_self
  | case3 f rest _ ih =>
    obtain ⟨hf, hrest⟩ := List.forall_mem_cons.mp h
    exact numbered_append.mpr ⟨numbered_append.mpr ⟨hf, numbered_ofText d _⟩, ih hrest⟩

@[simp] theorem binds_join (separator : String) (fs : List Fragment) :
    (join separator fs).binds = fs.flatMap binds := by
  fun_induction join separator fs with
  | case1 => rfl
  | case2 f => simp
  | case3 f rest _ ih => simp [ih]

theorem numbered_rawFrom (d : Dialect) (quoted : Bool) (cs : List Char) (values : List Value)
    (h : markCount quoted cs = values.length) : (rawFrom d quoted cs values).Numbered d := by
  induction cs generalizing quoted values with
  | nil =>
    have hnone : values = [] := List.length_eq_zero_iff.mp h.symm
    subst hnone
    exact numbered_nil d
  | cons c cs ih =>
    by_cases hc : c = '\''
    · simp only [rawFrom, if_pos hc]
      simp only [markCount, if_pos hc] at h
      exact (numbered_text_cons _).mpr (ih _ _ h)
    simp only [markCount, if_neg hc] at h
    simp only [rawFrom, if_neg hc]
    split
    · simp only [and_self, if_true, List.length_cons, Nat.add_right_cancel_iff] at h
      exact (numbered_bind_cons _).mpr (ih _ _ h)
    · rename_i hother
      -- a mark that is no string literal's has a value left for it, so this is another character
      have hmark : ¬(c = '?' ∧ quoted = false) := by
        rintro ⟨rfl, rfl⟩
        cases values with
        | nil => simp at h
        | cons v values => exact hother v values rfl rfl rfl
      rw [if_neg hmark] at h
      exact (numbered_text_cons _).mpr (ih _ _ h)

@[simp] theorem numbered_raw {sql : String} {values : List Value} (h : RawBalanced sql values) :
    (raw d sql values).Numbered d := numbered_rawFrom d false sql.toList values h

/-- The texts between the placeholders do not depend on what is bound before the fragment. -/
theorem Numbered.sql_eq_weave (h : f.Numbered d) :
    ∃ first rest, rest.length = f.binds.length ∧ ∀ n, f.sql n = weave d n first rest := by
  induction f with
  | nil => exact ⟨"", [], rfl, fun _ => rfl⟩
  | cons p f ih =>
    obtain ⟨hp, hf⟩ := List.forall_mem_cons.mp h
    obtain ⟨first, rest, hlen, hsql⟩ := ih hf
    cases p with
    | text s =>
      refine ⟨s ++ first, rest, by simpa using hlen, fun n => ?_⟩
      rw [weave_append, sql, hsql]
    | bind e v =>
      have he : e = d := hp
      subst he
      refine ⟨"", first :: rest, by simpa using hlen, fun n => ?_⟩
      simp [sql, weave, hsql]
    | silent v => exact False.elim hp

end Fragment

end RelQuery
