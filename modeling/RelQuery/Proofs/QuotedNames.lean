import Mathlib.Logic.Function.Basic
import RelQuery.Dialect

/-!
# Names in quotes

A quoted name cannot be escaped from. Whatever quotes it has inside, it is read up to the one that
was written behind it, and what follows is left, as long as that is no further quote. No other text
is read as that name. So names are spelled apart, and so are names that are qualified by another.
-/

namespace RelQuery

set_option autoImplicit false

def readQualified (quote : Char) (cs : List Char) : Option ((String × String) × List Char) :=
  match readQuoted quote cs with
  | some (owner, '.' :: behind) =>
    (readQuoted quote behind).map fun (column, rest) => ((owner, column), rest)
  | _ => none

section Reading

variable {quote : Char} {cs rest name : List Char}

theorem readBody_doubleQuotes (h : rest.head? ≠ some quote) (name : List Char) :
    readBody quote (doubleQuotes quote name ++ quote :: rest) = some (name, rest) := by
  induction name with
  | nil => exact readBody_closing h
  | cons c name ih =>
    rw [doubleQuotes_cons]
    by_cases hc : c = quote
    · rw [if_pos hc, hc, List.append_assoc, List.cons_append, List.singleton_append,
        readBody_doubled, ih]
      rfl
    · rw [if_neg hc, List.append_assoc, List.singleton_append, readBody_of_ne hc, ih]
      rfl

/-- What is read as a body has its quotes doubled, and the quote behind it stands alone. -/
theorem eq_of_readBody (h : readBody quote cs = some (name, rest)) :
    cs = doubleQuotes quote name ++ quote :: rest ∧ rest.head? ≠ some quote := by
  fun_induction readBody quote cs generalizing name with
  | case1 => cases h
  | case2 =>
    cases h
    exact ⟨rfl, by simp⟩
  | case3 => cases h
  | case4 c d cs hc ih =>
    obtain ⟨⟨body, _⟩, hread, ⟨⟩⟩ := Option.map_eq_some_iff.mp h
    obtain ⟨hcs, hrest⟩ := ih hread
    rw [doubleQuotes_cons, if_neg hc, hcs]
    exact ⟨rfl, hrest⟩
  | case5 c cs hc ih =>
    obtain ⟨⟨body, _⟩, hread, ⟨⟩⟩ := Option.map_eq_some_iff.mp h
    obtain ⟨hcs, hrest⟩ := ih hread
    rw [doubleQuotes_cons, if_pos rfl, hcs, not_not.mp hc]
    exact ⟨rfl, hrest⟩
  | case6 c d cs hc hd =>
    cases h
    rw [not_not.mp hc]
    exact ⟨rfl, by simpa using hd⟩

end Reading

section Names

variable {quote : Char} {cs rest : List Char} {name owner column : String}

theorem readQuoted_eq_some : readQuoted quote cs = some (name, rest) ↔
    cs = (quoteWith quote name).toList ++ rest ∧ rest.head? ≠ some quote := by
  rw [quoteWith_toList, List.append_assoc, List.singleton_append, List.cons_append]
  constructor
  · intro h
    unfold readQuoted at h
    split at h
    · cases h
    · split at h
      · rename_i hquote
        obtain ⟨⟨body, _⟩, hread, ⟨⟩⟩ := Option.map_eq_some_iff.mp h
        obtain ⟨hcs, hrest⟩ := eq_of_readBody hread
        rw [hquote, hcs, String.toList_ofList]
        exact ⟨rfl, hrest⟩
      · cases h
  · rintro ⟨rfl, hrest⟩
    rw [readQuoted, if_pos rfl, readBody_doubleQuotes hrest]
    simp

theorem injective_of_read {α : Type} {spell : α → String}
    {read : List Char → Option (α × List Char)} (h : ∀ a, read (spell a).toList = some (a, [])) :
    Function.Injective spell := by
  intro a b hab
  have heq := h a
  rw [hab, h b] at heq
  cases heq
  rfl

theorem quoteWith_injective (quote : Char) : Function.Injective (quoteWith quote) :=
  injective_of_read fun _ => readQuoted_eq_some.mpr ⟨(List.append_nil _).symm, nofun⟩

theorem readQualified_eq_some (hdot : '.' ≠ quote) :
    readQualified quote cs = some ((owner, column), rest) ↔
      cs = (quoteWith quote owner ++ "." ++ quoteWith quote column).toList ++ rest ∧
        rest.head? ≠ some quote := by
  have htext : (quoteWith quote owner ++ "." ++ quoteWith quote column).toList ++ rest =
      (quoteWith quote owner).toList ++ '.' :: ((quoteWith quote column).toList ++ rest) := by
    simp [String.toList_append]
  rw [htext]
  constructor
  · intro h
    unfold readQualified at h
    split at h
    · rename_i howner
      obtain ⟨⟨column, rest⟩, hcolumn, ⟨⟩⟩ := Option.map_eq_some_iff.mp h
      obtain ⟨hcs, _⟩ := readQuoted_eq_some.mp howner
      obtain ⟨hbehind, hrest⟩ := readQuoted_eq_some.mp hcolumn
      rw [hcs, hbehind]
      exact ⟨rfl, hrest⟩
    · cases h
  · rintro ⟨rfl, hrest⟩
    have howner : readQuoted quote ((quoteWith quote owner).toList ++
        '.' :: ((quoteWith quote column).toList ++ rest)) =
          some (owner, '.' :: ((quoteWith quote column).toList ++ rest)) :=
      readQuoted_eq_some.mpr ⟨rfl, by simpa using hdot⟩
    have hcolumn : readQuoted quote ((quoteWith quote column).toList ++ rest) =
        some (column, rest) :=
      readQuoted_eq_some.mpr ⟨rfl, hrest⟩
    simp only [readQualified, howner, hcolumn, Option.map_some]

end Names

/-- A name in the quotes of a dialect is read as that name and leaves the text behind it, if this
does not start with another quote, and nothing else is read so. Hence no two names are quoted alike.
The same holds of a name that is qualified by another one. -/
theorem Dialect.quoted_read_back (d : Dialect) :
    (∀ (cs : List Char) (name : String) (rest : List Char),
        readQuoted d.quoteChar cs = some (name, rest) ↔
          cs = (d.quoteIdentifier name).toList ++ rest ∧ rest.head? ≠ some d.quoteChar) ∧
      Function.Injective d.quoteIdentifier ∧
      (∀ (cs : List Char) (owner column : String) (rest : List Char),
        readQualified d.quoteChar cs = some ((owner, column), rest) ↔
          cs = (Style.qualified ⟨d, true⟩ owner column).toList ++ rest ∧
            rest.head? ≠ some d.quoteChar) ∧
      Function.Injective2 (Style.qualified ⟨d, true⟩) := by
  have hdot : '.' ≠ d.quoteChar := by cases d <;> decide
  have hpairs : Function.Injective fun p : String × String =>
      Style.qualified ⟨d, true⟩ p.1 p.2 :=
    injective_of_read fun _ => (readQualified_eq_some hdot).mpr ⟨(List.append_nil _).symm, nofun⟩
  refine ⟨fun _ _ _ => readQuoted_eq_some, quoteWith_injective d.quoteChar,
    fun _ _ _ _ => readQualified_eq_some hdot, ?_⟩
  intro owner owner' column column' h
  exact Prod.mk.inj (@hpairs (owner, column) (owner', column') h)

/-- A quote behind a quoted name goes on with it: two of them are read as one. -/
example : readQuoted '"' "\"a\"\"b\"".toList = some ("a\"b", []) := by decide

namespace Library

/-- Names with runs of quotes at their start, inside them and at their end, also next to a dot. -/
theorem quoted_read_back_spikedNames :
    readQuoted '"' "\"\"\"a\"\"\"\"b\"\"\"\"\"\"\" = $1".toList =
      some ("\"a\"\"b\"\"\"", " = $1".toList) ∧
    readQualified '\x60' "\x60\x60\x60.\x60.\x60.\x60\x60\x60, ".toList =
      some (("\x60.", ".\x60"), ", ".toList) := by
  obtain ⟨hnames, _⟩ := Dialect.quoted_read_back .postgres
  obtain ⟨_, _, hqualified, _⟩ := Dialect.quoted_read_back .mysql
  exact ⟨(hnames _ _ _).mpr ⟨by decide, by decide⟩,
    (hqualified _ _ _ _).mpr ⟨by decide, by decide⟩⟩

end Library

end RelQuery
