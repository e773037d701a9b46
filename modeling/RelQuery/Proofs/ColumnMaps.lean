import RelQuery.Proofs.KeyConditions

/-!
# Column maps

A column map is accepted when all of its entries are qualified or none, and the pairs of a condition
are read back from either spelling. So the qualified pairs of a relationship, declared as a map,
stand for the same relationship.
-/

namespace RelQuery

set_option autoImplicit false

def ColumnPair.WellNamed (p : ColumnPair) : Prop :=
  isIdentifier p.foreign = true ∧ isIdentifier p.own = true

section Keys

variable {side : Side} {key column : String}

theorem dot_not_mem_of_isIdentifier (h : isIdentifier column = true) : '.' ∉ column.toList := by
  unfold isIdentifier isIdentifierChars at h
  intro hmem
  cases hchars : column.toList with
  | nil =>
    rw [hchars] at hmem
    exact absurd hmem List.not_mem_nil
  | cons c rest =>
    rw [hchars] at h hmem
    simp only [Bool.and_eq_true, List.all_eq_true] at h
    rcases List.mem_cons.mp hmem with rfl | hmem
    · exact absurd h.1 (by decide)
    · exact absurd (h.2 '.' hmem) (by decide)

theorem toList_qualify (side : Side) (column : String) :
    (side.qualify column).toList = side.label.toList ++ ['.'] ++ column.toList := by
  unfold Side.qualify
  rw [String.toList_append, String.toList_append]
  rfl

theorem column?_eq_some :
    side.column? key = some column ↔ isIdentifier column = true ∧ key = side.qualify column := by
  unfold Side.column?
  constructor
  · intro h
    split at h
    · rename_i cs hafter
      split at h
      · rename_i hident
        cases h
        refine ⟨by simpa [isIdentifier] using hident, ?_⟩
        apply String.toList_injective
        rw [toList_qualify, String.toList_ofList]
        exact afterHead?_eq_some hafter
      · cases h
    · cases h
  · rintro ⟨hident, rfl⟩
    unfold isIdentifier at hident
    rw [toList_qualify, afterHead?_append]
    dsimp only
    rw [if_pos hident, String.ofList_toList]

theorem qualify_injective {side' : Side} {column' : String}
    (h : side.qualify column = side'.qualify column') : side = side' ∧ column = column' := by
  have hchars := congrArg String.toList h
  rw [toList_qualify, toList_qualify] at hchars
  cases side <;> cases side'
  · exact ⟨rfl, String.toList_injective (List.append_cancel_left hchars)⟩
  · cases hchars
  · cases hchars
  · exact ⟨rfl, String.toList_injective (List.append_cancel_left hchars)⟩

theorem splitKey?_eq_some : splitKey? key = some (side, column) ↔
    isIdentifier column = true ∧ key = side.qualify column := by
  unfold splitKey?
  constructor
  · intro h
    split at h
    · rename_i hforeign
      cases h
      exact column?_eq_some.mp hforeign
    · obtain ⟨_, hself, heq⟩ := Option.map_eq_some_iff.mp h
      cases heq
      exact column?_eq_some.mp hself
  · intro h
    cases side with
    | foreign => rw [column?_eq_some.mpr h]
    | self =>
      cases hforeign : Side.foreign.column? key with
      | some other =>
        obtain ⟨_, hkey⟩ := column?_eq_some.mp hforeign
        cases (qualify_injective (hkey.symm.trans h.2)).1
      | none =>
        dsimp only
        rw [column?_eq_some.mpr h]
        rfl

end Keys

section Maps

variable {entry : String × String} {entries : List (String × String)} {p : ColumnPair}
  {ps : List ColumnPair}

def ColumnPair.plain (p : ColumnPair) : String × String := (p.foreign, p.own)

theorem plainEntry_eq_ok : plainEntry entry = .ok p ↔ p.WellNamed ∧ entry = p.plain := by
  unfold plainEntry
  constructor
  · intro h
    split at h
    · rename_i hboth
      cases h
      exact ⟨Bool.and_eq_true_iff.mp hboth, rfl⟩
    · cases h
  · rintro ⟨⟨hforeign, hown⟩, rfl⟩
    unfold ColumnPair.plain
    dsimp only
    rw [hforeign, hown]
    rfl

theorem qualifiedEntry_eq_ok :
    qualifiedEntry entry = .ok p ↔ p.WellNamed ∧ entry = p.qualified := by
  unfold qualifiedEntry
  constructor
  · intro h
    split at h
    · rename_i hforeign hown
      cases h
      obtain ⟨hforeignName, hkey⟩ := splitKey?_eq_some.mp hforeign
      obtain ⟨hownName, hvalue⟩ := splitKey?_eq_some.mp hown
      exact ⟨⟨hforeignName, hownName⟩, Prod.ext hkey hvalue⟩
    · cases h
  · rintro ⟨⟨hforeign, hown⟩, rfl⟩
    unfold ColumnPair.qualified
    dsimp only
    rw [splitKey?_eq_some.mpr ⟨hforeign, rfl⟩, splitKey?_eq_some.mpr ⟨hown, rfl⟩]

theorem mapM_eq_ok_of_spelling {read : String × String → Except ConfigurationError ColumnPair}
    {spell : ColumnPair → String × String}
    (h : ∀ entry p, read entry = .ok p ↔ p.WellNamed ∧ entry = spell p) :
    entries.mapM read = .ok ps ↔ (∀ p ∈ ps, p.WellNamed) ∧ entries = ps.map spell := by
  rw [mapM_eq_ok]
  simp only [h]
  constructor
  · intro hread
    induction hread with
    | nil => exact ⟨fun _ hp => absurd hp List.not_mem_nil, rfl⟩
    | cons hfirst _ ih =>
      obtain ⟨hnamed, rfl⟩ := hfirst
      exact ⟨List.forall_mem_cons.mpr ⟨hnamed, ih.1⟩, congrArg _ ih.2⟩
  · rintro ⟨hnamed, rfl⟩
    induction ps with
    | nil => exact .nil
    | cons p ps ih =>
      obtain ⟨hfirst, hrest⟩ := List.forall_mem_cons.mp hnamed
      exact .cons ⟨hfirst, rfl⟩ (ih hrest)

/-- A map is accepted when it is one spelling of a list of pairs throughout. -/
theorem pairsOfMap_eq_ok : pairsOfMap entries = .ok ps ↔ ps ≠ [] ∧ (∀ p ∈ ps, p.WellNamed) ∧
    (entries = ps.map ColumnPair.plain ∨ entries = ps.map ColumnPair.qualified) := by
  constructor
  · intro h
    unfold pairsOfMap at h
    split at h
    · cases h
    · rename_i hne
      split at h
      · obtain ⟨hnamed, rfl⟩ := (mapM_eq_ok_of_spelling fun _ _ => qualifiedEntry_eq_ok).mp h
        exact ⟨by simpa using hne, hnamed, .inr rfl⟩
      · obtain ⟨hnamed, rfl⟩ := (mapM_eq_ok_of_spelling fun _ _ => plainEntry_eq_ok).mp h
        exact ⟨by simpa using hne, hnamed, .inl rfl⟩
  · rintro ⟨hne, hnamed, hentries⟩
    unfold pairsOfMap
    rcases hentries with rfl | rfl
    · have hplain : (ps.map ColumnPair.plain).any (·.1.toList.contains '.') = false := by
        rw [List.any_eq_false]
        intro entry hentry hdot
        obtain ⟨p, hp, rfl⟩ := List.mem_map.mp hentry
        exact dot_not_mem_of_isIdentifier (hnamed p hp).1 (List.contains_iff_mem.mp hdot)
      rw [if_neg (by simpa using hne), hplain, if_neg Bool.false_ne_true]
      exact (mapM_eq_ok_of_spelling fun _ _ => plainEntry_eq_ok).mpr ⟨hnamed, rfl⟩
    · have hqualified : (ps.map ColumnPair.qualified).any (·.1.toList.contains '.') = true := by
        obtain ⟨p, hp⟩ := List.exists_mem_of_ne_nil ps hne
        apply List.any_eq_true.mpr
        refine ⟨p.qualified, List.mem_map_of_mem hp, ?_⟩
        have hdot : '.' ∈ (Side.foreign.qualify p.foreign).toList := by
          rw [toList_qualify]
          simp
        exact List.contains_iff_mem.mpr hdot
      rw [if_neg (by simpa using hne), hqualified, if_pos rfl]
      exact (mapM_eq_ok_of_spelling fun _ _ => qualifiedEntry_eq_ok).mpr ⟨hnamed, rfl⟩

end Maps

/-- How a column map is read: which ones are accepted, what comes of them, and that both spellings
say the same. -/
structure ReadsUniformly (entries : List (String × String)) : Prop where
  accepted : (∃ ps, pairsOfMap entries = .ok ps) ↔ entries ≠ [] ∧
    ((∀ entry ∈ entries, isIdentifier entry.1 = true ∧ isIdentifier entry.2 = true) ∨
      ∀ entry ∈ entries, ∃ foreign own, isIdentifier foreign = true ∧ isIdentifier own = true ∧
        entry = ("foreign." ++ foreign, "self." ++ own))
  inOrder : ∀ ps, pairsOfMap entries = .ok ps → List.Forall₂ (fun entry p =>
    entry = (p.foreign, p.own) ∨ entry = ("foreign." ++ p.foreign, "self." ++ p.own)) entries ps
  respelled : (∀ entry ∈ entries, isIdentifier entry.1 = true ∧ isIdentifier entry.2 = true) →
    pairsOfMap (entries.map fun entry => ("foreign." ++ entry.1, "self." ++ entry.2)) =
      pairsOfMap entries

section Spellings

variable {entry : String × String} {entries : List (String × String)}

theorem exists_plain_iff : (∃ p : ColumnPair, p.WellNamed ∧ entry = p.plain) ↔
    isIdentifier entry.1 = true ∧ isIdentifier entry.2 = true := by
  constructor
  · rintro ⟨p, hp, rfl⟩
    exact hp
  · exact fun h => ⟨⟨entry.1, entry.2⟩, h, rfl⟩

theorem exists_qualified_iff : (∃ p : ColumnPair, p.WellNamed ∧ entry = p.qualified) ↔
    ∃ foreign own, isIdentifier foreign = true ∧ isIdentifier own = true ∧
      entry = ("foreign." ++ foreign, "self." ++ own) := by
  constructor
  · rintro ⟨p, hp, rfl⟩
    exact ⟨p.foreign, p.own, hp.1, hp.2, rfl⟩
  · rintro ⟨foreign, own, hforeign, hown, rfl⟩
    exact ⟨⟨foreign, own⟩, ⟨hforeign, hown⟩, rfl⟩

theorem exists_pairs_iff {spell : ColumnPair → String × String} :
    (∃ ps : List ColumnPair, (∀ p ∈ ps, p.WellNamed) ∧ entries = ps.map spell) ↔
      ∀ entry ∈ entries, ∃ p : ColumnPair, p.WellNamed ∧ entry = spell p := by
  constructor
  · rintro ⟨ps, hps, rfl⟩ entry hentry
    obtain ⟨p, hp, rfl⟩ := List.mem_map.mp hentry
    exact ⟨p, hps p hp, rfl⟩
  · intro h
    induction entries with
    | nil => exact ⟨[], fun _ hp => absurd hp List.not_mem_nil, rfl⟩
    | cons entry entries ih =>
      obtain ⟨⟨p, hp, rfl⟩, hrest⟩ := List.forall_mem_cons.mp h
      obtain ⟨ps, hps, rfl⟩ := ih hrest
      exact ⟨p :: ps, List.forall_mem_cons.mpr ⟨hp, hps⟩, rfl⟩

theorem succeeds_pairsOfMap : (∃ ps, pairsOfMap entries = .ok ps) ↔ entries ≠ [] ∧
    ((∀ entry ∈ entries, ∃ p : ColumnPair, p.WellNamed ∧ entry = p.plain) ∨
      ∀ entry ∈ entries, ∃ p : ColumnPair, p.WellNamed ∧ entry = p.qualified) := by
  simp only [pairsOfMap_eq_ok, ← exists_pairs_iff]
  constructor
  · rintro ⟨ps, hne, hnamed, rfl | rfl⟩
    · exact ⟨by simpa using hne, .inl ⟨ps, hnamed, rfl⟩⟩
    · exact ⟨by simpa using hne, .inr ⟨ps, hnamed, rfl⟩⟩
  · rintro ⟨hne, ⟨ps, hnamed, rfl⟩ | ⟨ps, hnamed, rfl⟩⟩
    · exact ⟨ps, by simpa using hne, hnamed, .inl rfl⟩
    · exact ⟨ps, by simpa using hne, hnamed, .inr rfl⟩

theorem readsUniformly (entries : List (String × String)) : ReadsUniformly entries := by
  constructor
  case accepted => simp only [succeeds_pairsOfMap, exists_plain_iff, exists_qualified_iff]
  case inOrder =>
    intro ps h
    obtain ⟨_, _, hentries⟩ := pairsOfMap_eq_ok.mp h
    rcases hentries with rfl | rfl
    · rw [List.forall₂_map_left_iff, List.forall₂_same]
      exact fun p _ => .inl rfl
    · rw [List.forall₂_map_left_iff, List.forall₂_same]
      exact fun p _ => .inr rfl
  case respelled =>
    intro h
    simp only [← exists_plain_iff, ← exists_pairs_iff] at h
    obtain ⟨ps, hnamed, rfl⟩ := h
    rw [List.map_map]
    by_cases hne : ps = []
    · rw [hne]
      rfl
    · have hplain := pairsOfMap_eq_ok.mpr ⟨hne, hnamed, .inl rfl⟩
      have hqualified := pairsOfMap_eq_ok.mpr ⟨hne, hnamed, .inr rfl⟩
      exact hqualified.trans hplain.symm

end Spellings

namespace Declaration

variable {d : Declaration} {declaring target : Source} {r : Relationship} {ps : List ColumnPair}

theorem wellNamed_of_resolveCondition (hown : declaring.validate = .ok ())
    (htarget : target.validate = .ok ())
    (h : d.resolveCondition declaring target = .ok (.pairs ps)) :
    ps ≠ [] ∧ ∀ p ∈ ps, p.WellNamed := by
  have hkey (hform : d.NamesKey) : ps ≠ [] ∧ ∀ p ∈ ps, p.WellNamed := by
    obtain ⟨p, heq, hforeign, hlocal⟩ := pair_of_namesKey hform hown htarget h
    cases heq
    refine ⟨List.cons_ne_nil _ _, fun q hq => ?_⟩
    rw [List.mem_singleton.mp hq]
    exact ⟨(Source.validate_eq_ok.mp htarget).2.1 _ (Source.hasColumn_iff.mp hforeign),
      (Source.validate_eq_ok.mp hown).2.1 _ (Source.hasColumn_iff.mp hlocal)⟩
  cases hcondition : d.condition with
  | inferred => exact hkey (.inl hcondition)
  | column column => exact hkey (.inr ⟨column, hcondition⟩)
  | mapping entries =>
    simp only [resolveCondition, hcondition] at h
    obtain ⟨qs, hqs, h⟩ := bind_eq_ok.mp h
    cases pure_eq_ok.mp h
    obtain ⟨hne, hnamed, _⟩ := pairsOfMap_eq_ok.mp hqs
    exact ⟨hne, hnamed⟩
  | procedural procedure =>
    simp only [resolveCondition, hcondition] at h
    cases h

theorem resolve_of_condition {form : ConditionForm}
    (h : { d with condition := form }.resolveCondition declaring target =
      d.resolveCondition declaring target) :
    { d with condition := form }.resolve declaring target = d.resolve declaring target := by
  unfold resolve
  rw [h]
  rfl

theorem resolve_qualifiedPairs (hown : declaring.validate = .ok ())
    (htarget : target.validate = .ok ()) (h : d.resolve declaring target = .ok r)
    (hpairs : r.condition.isDeclarative = true) :
    { d with condition := .mapping r.condition.qualifiedPairs }.resolve declaring target =
      .ok r := by
  obtain ⟨_, _, _, hcondition⟩ := resolve_inv h
  rw [← h]
  apply resolve_of_condition
  rw [hcondition]
  cases hr : r.condition with
  | procedural procedure =>
    rw [hr] at hpairs
    cases hpairs
  | pairs ps =>
    rw [hr] at hcondition
    obtain ⟨hne, hnamed⟩ := wellNamed_of_resolveCondition hown htarget hcondition
    have hread : pairsOfMap (ps.map ColumnPair.qualified) = .ok ps :=
      pairsOfMap_eq_ok.mpr ⟨hne, hnamed, .inr rfl⟩
    unfold JoinCondition.qualifiedPairs JoinCondition.pairs? resolveCondition
    dsimp only [Option.getD_some]
    rw [hread]
    rfl

end Declaration

/-- Column maps are accepted when they are of one spelling, and a condition that is declared again as
the map of its qualified pairs is the same one. -/
theorem canonical_columnMaps : (∀ entries, ReadsUniformly entries) ∧
    ∀ (d : Declaration) (declaring target : Source) (r : Relationship),
      declaring.validate = .ok () → target.validate = .ok () →
      d.resolve declaring target = .ok r → r.condition.isDeclarative = true →
      { d with condition := .mapping r.condition.qualifiedPairs }.resolve declaring target =
        .ok r :=
  ⟨readsUniformly, fun _ _ _ _ => Declaration.resolve_qualifiedPairs⟩

namespace Library

def novels : Relationship :=
  ⟨"novels", .hasMany, "Novel", .pairs [⟨"novelist", "id"⟩], .multi, .left, true, true, false,
    false⟩

theorem canonical_columnMaps_novels :
    novelist.validate = .ok () ∧ novel.validate = .ok () ∧
    novelsOfNovelist.resolve novelist novel = .ok novels ∧
    novels.condition.isDeclarative = true ∧
    ReadsUniformly [("foreign.novelist", "self.id"), ("title", "name")] ∧
    { novelsOfNovelist with
      condition := .mapping [("foreign.novelist", "self.id")] }.resolve novelist novel =
        .ok novels := by
  obtain ⟨hread, hagain⟩ := canonical_columnMaps
  exact ⟨rfl, rfl, rfl, rfl, hread _, hagain novelsOfNovelist novelist novel novels rfl rfl rfl rfl⟩

end Library

end RelQuery
