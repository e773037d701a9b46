import RelQuery.Proofs.Merging

/-!
# Join trees as sets of paths

A join tree of plain names is known by its paths. The union of two trees has the paths of both, those
of the first in their order, and adding the paths of a tree one by one builds the tree again.
-/

namespace RelQuery

set_option autoImplicit false

def IsPlainName (name : String) : Prop := name ≠ "" ∧ '.' ∉ name.toList

namespace JoinTree

/-- Forests made of plain names: of paths, of forests below a plain name, and of unions. -/
inductive Plain : JoinTree → Prop
  | none : Plain .none
  | addPath {t : JoinTree} (path : String) : Plain t → Plain (t.addPath path)
  | nest {t below : JoinTree} {name : String} (plain : IsPlainName name) :
    Plain t → Plain below → Plain (t.nest name below)
  | merge {a b : JoinTree} : Plain a → Plain b → Plain (a.merge b)

variable {a b c t u fresh : JoinTree} {f : JoinTree → JoinTree} {name : String}
  {path : List String}

theorem Plain.distinct (h : t.Plain) : t.Distinct := by
  apply Built.distinct
  induction h with
  | none => exact .none
  | addPath path _ ih => exact .addPath path ih
  | nest _ _ _ ih ihbelow => exact .nest _ ih ihbelow
  | merge _ _ iha ihb => exact .merge iha ihb

section Names

@[simp] theorem names_none : JoinTree.none.names = [] := rfl

theorem mem_names_join {below rest : JoinTree} : path ∈ (join name below rest).names ↔
    path = [name] ∨ (∃ q ∈ below.names, name :: q = path) ∨ path ∈ rest.names := by
  rw [names_join, List.mem_cons, List.mem_append, List.mem_map]

theorem top_mem_of_mem_names (h : name :: path ∈ t.names) : name ∈ t.tops := by
  obtain ⟨other, hother, hprefix⟩ := top_prefix_of_mem h
  obtain ⟨_, hpath⟩ := hprefix
  cases hpath
  exact hother

theorem mem_names_update
    (hf : ∀ (u : JoinTree) (path : List String),
      path ∈ (f u).names ↔ path ∈ u.names ∨ path ∈ fresh.names) :
    path ∈ (t.update name f fresh).names ↔
      path ∈ t.names ∨ path ∈ (join name fresh .none).names := by
  induction t with
  | none => simp [update]
  | join top below rest _ ih =>
    unfold update
    split
    · rename_i heq
      subst heq
      simp only [mem_names_join, hf, or_and_right, exists_or, names_none, List.not_mem_nil]
      grind
    · rw [mem_names_join, ih]
      simp only [mem_names_join, or_assoc]

theorem mem_names_merge : path ∈ (a.merge b).names ↔ path ∈ a.names ∨ path ∈ b.names := by
  induction b generalizing a path with
  | none => simp
  | join name below rest ihbelow ihrest =>
    rw [merge, ihrest, mem_names_update fun u path => ihbelow, mem_names_join, mem_names_join,
      names_none]
    simp only [List.not_mem_nil, or_false, or_assoc]

theorem names_sublist_update (hf : ∀ u : JoinTree, u.names.Sublist (f u).names) :
    t.names.Sublist (t.update name f fresh).names := by
  induction t with
  | none => exact List.nil_sublist _
  | join top below rest _ ih =>
    unfold update
    split
    · rw [names_join, names_join]
      exact (((hf below).map _).append_right rest.names).cons_cons _
    · rw [names_join, names_join]
      exact (ih.append_left _).cons_cons _

theorem names_sublist_merge (a b : JoinTree) : a.names.Sublist (a.merge b).names := by
  induction b generalizing a with
  | none => exact List.Sublist.refl _
  | join name below rest ihbelow ihrest =>
    unfold merge
    exact (names_sublist_update fun u => ihbelow u).trans (ihrest _)

end Names

section Unions

theorem update_eq_self (ht : t.Distinct) (hname : [name] ∈ t.names)
    (hf : ∀ u, u.Distinct → (∀ path ∈ fresh.names, path ∈ u.names) → f u = u)
    (hpaths : ∀ path ∈ fresh.names, name :: path ∈ t.names) : t.update name f fresh = t := by
  induction t with
  | none => exact absurd hname List.not_mem_nil
  | join top below rest _ ih =>
    obtain ⟨htop, hbelow, hrest⟩ := ht
    unfold update
    split
    · rename_i heq
      subst heq
      rw [hf below hbelow]
      intro path hpath
      rcases mem_names_join.mp (hpaths path hpath) with heq | ⟨q, hq, heq⟩ | hmem
      · cases heq
        exact absurd rfl (ne_nil_of_mem_names hpath)
      · cases heq
        exact hq
      · exact absurd (top_mem_of_mem_names hmem) htop
    · rename_i hne
      have hbehind {q : List String} (hq : name :: q ∈ (join top below rest).names) :
          name :: q ∈ rest.names := by
        rcases mem_names_join.mp hq with heq | ⟨_, _, heq⟩ | hmem
        · exact absurd (List.cons.inj heq).1.symm hne
        · exact absurd (List.cons.inj heq).1 hne
        · exact hmem
      rw [ih hrest (hbehind hname) fun path hpath => hbehind (hpaths path hpath)]

theorem merge_eq_self_iff (ha : a.Distinct) :
    a.merge b = a ↔ ∀ path ∈ b.names, path ∈ a.names := by
  constructor
  · intro h path hpath
    rw [← h]
    exact mem_names_merge.mpr (.inr hpath)
  · intro h
    induction b generalizing a with
    | none => rfl
    | join name below rest ihbelow ihrest =>
      have hupdate : a.update name (fun old => old.merge below) below = a := by
        apply update_eq_self ha
        · exact h [name] (mem_names_join.mpr (.inl rfl))
        · exact fun u hu => ihbelow hu
        · exact fun path hpath => h _ (mem_names_join.mpr (.inr (.inl ⟨path, hpath, rfl⟩)))
      rw [merge, hupdate]
      exact ihrest ha fun path hpath => h path (mem_names_join.mpr (.inr (.inr hpath)))

theorem join_merge {below : JoinTree} (hname : name ∉ b.tops) :
    (join name below t).merge b = join name below (t.merge b) := by
  induction b generalizing t with
  | none => rfl
  | join top sub rest _ ih =>
    obtain ⟨hne, hrest⟩ := List.ne_and_not_mem_of_not_mem_cons hname
    rw [merge, update, if_neg hne, ih hrest, merge]

theorem none_merge (ha : a.Distinct) : JoinTree.none.merge a = a := by
  induction a with
  | none => rfl
  | join name below rest _ ih =>
    obtain ⟨hname, _, hrest⟩ := ha
    rw [merge, update, join_merge hname, ih hrest]

end Unions

section Building

theorem addNames_eq_merge (names : List String) (t : JoinTree) :
    addNames names t = t.merge (addNames names .none) := by
  induction names generalizing t with
  | nil => rfl
  | cons name names ih =>
    have hbelow : addNames names = fun old => old.merge (addNames names .none) := funext ih
    rw [addNames, addNames, update, merge, merge_none, ← hbelow]

theorem mem_names_addNames_none {names : List String} :
    path ∈ (addNames names .none).names ↔ path ≠ [] ∧ path <+: names := by
  induction names generalizing path with
  | nil =>
    rw [List.prefix_nil]
    exact ⟨fun h => absurd h List.not_mem_nil, fun h => absurd h.2 h.1⟩
  | cons name names ih =>
    rw [addNames, update, mem_names_join, List.prefix_cons_iff]
    constructor
    · rintro (rfl | ⟨q, hq, rfl⟩ | h)
      · exact ⟨List.cons_ne_nil _ _, .inr ⟨[], rfl, List.nil_prefix⟩⟩
      · exact ⟨List.cons_ne_nil _ _, .inr ⟨q, rfl, (ih.mp hq).2⟩⟩
      · exact absurd h List.not_mem_nil
    · rintro ⟨hne, rfl | ⟨q, rfl, hq⟩⟩
      · exact absurd rfl hne
      · by_cases hnil : q = []
        · exact .inl (hnil ▸ rfl)
        · exact .inr (.inl ⟨q, ih.mpr ⟨hnil, hq⟩, rfl⟩)

/-- Paths that go on below a name which is there already are added below it. -/
theorem foldl_addNames_cons (paths : List (List String)) (g : JoinTree → JoinTree)
    (v : JoinTree) :
    (paths.map (name :: ·)).foldl (fun t path => addNames path t) (u.update name g v) =
      u.update name (fun old => paths.foldl (fun t path => addNames path t) (g old))
        (paths.foldl (fun t path => addNames path t) v) := by
  induction paths generalizing g v with
  | nil => rfl
  | cons path paths ih =>
    rw [List.map_cons, List.foldl_cons, addNames, update_update, ih]
    rfl

theorem foldl_addNames_names (ht : t.Distinct) :
    t.names.foldl (fun t path => addNames path t) u = u.merge t := by
  induction t generalizing u with
  | none => rfl
  | join name below rest ihbelow ihrest =>
    obtain ⟨_, hbelow, hrest⟩ := ht
    have hfirst : addNames [name] u = u.update name id .none := rfl
    rw [names_join, List.foldl_cons, List.foldl_append, hfirst, foldl_addNames_cons, ihrest hrest,
      merge]
    congr 2
    · exact funext fun old => ihbelow hbelow
    · rw [ihbelow hbelow, none_merge hbelow]

end Building

section Dotted

theorem not_mem_of_mem_splitOn {mark : Char} {cs part : List Char} (h : part ∈ cs.splitOn mark) :
    mark ∉ part := by
  induction cs generalizing part with
  | nil =>
    rw [List.mem_singleton.mp h]
    exact List.not_mem_nil
  | cons c cs ih =>
    rw [List.splitOn_cons_eq_if_modifyHead] at h
    split at h
    · rcases List.mem_cons.mp h with rfl | h
      · exact List.not_mem_nil
      · exact ih h
    · rename_i hc
      cases hparts : cs.splitOn mark with
      | nil => exact absurd hparts (List.splitOn_ne_nil _ _)
      | cons first parts =>
        rw [hparts] at h ih
        rcases List.mem_cons.mp h with rfl | h
        · rw [List.mem_cons, not_or]
          exact ⟨fun heq => hc (beq_iff_eq.mpr heq.symm), ih List.mem_cons_self⟩
        · exact ih (List.mem_cons_of_mem first h)

theorem isPlainName_of_mem_namesOf {path : String} (h : name ∈ namesOf path) :
    IsPlainName name := by
  obtain ⟨part, hpart, rfl⟩ := List.mem_map.mp h
  obtain ⟨hsplit, hnonempty⟩ := List.mem_filter.mp hpart
  constructor
  · intro hname
    rw [String.ofList_eq_empty_iff.mp hname] at hnonempty
    cases hnonempty
  · rw [String.toList_ofList]
    exact not_mem_of_mem_splitOn hsplit

theorem Plain.isPlainName (h : t.Plain) : ∀ path ∈ t.names, ∀ name ∈ path, IsPlainName name := by
  induction h with
  | none => exact fun _ hpath => absurd hpath List.not_mem_nil
  | @addPath t path _ ih =>
    intro q hq name hname
    rw [JoinTree.addPath, addNames_eq_merge] at hq
    rcases mem_names_merge.mp hq with hq | hq
    · exact ih q hq name hname
    · exact isPlainName_of_mem_namesOf ((mem_names_addNames_none.mp hq).2.subset hname)
  | @nest t below first plain _ _ ih ihbelow =>
    intro q hq name hname
    rcases mem_names_merge.mp hq with hq | hq
    · exact ih q hq name hname
    · rcases mem_names_join.mp hq with rfl | ⟨rest, hrest, rfl⟩ | hq
      · exact List.mem_singleton.mp hname ▸ plain
      · rcases List.mem_cons.mp hname with rfl | hname
        · exact plain
        · exact ihbelow rest hrest name hname
      · exact absurd hq List.not_mem_nil
  | merge _ _ iha ihb =>
    intro q hq
    exact (mem_names_merge.mp hq).elim (iha q) (ihb q)

theorem namesOf_dotted (h : ∀ name ∈ path, IsPlainName name) : namesOf (dotted path) = path := by
  cases path with
  | nil => rfl
  | cons name rest =>
    have hfirst : (name :: rest).dropWhile String.isEmpty = name :: rest := by
      have hname : name.isEmpty = false := by simpa using (h name List.mem_cons_self).1
      rw [List.dropWhile_cons_of_neg (by rw [hname]; exact Bool.false_ne_true)]
    have hdots : ∀ cs ∈ (name :: rest).map String.toList, '.' ∉ cs := by
      intro cs hcs
      obtain ⟨n, hn, rfl⟩ := List.mem_map.mp hcs
      exact (h n hn).2
    have hnonempty : ∀ cs ∈ (name :: rest).map String.toList, (!cs.isEmpty) = true := by
      intro cs hcs
      obtain ⟨n, hn, rfl⟩ := List.mem_map.mp hcs
      simpa using (h n hn).1
    unfold namesOf dotted
    rw [hfirst, String.toList_intercalate]
    have hsplit := List.splitOn_intercalate '.' hdots (by simp)
    have hdot : ".".toList = ['.'] := rfl
    rw [hdot, hsplit, List.filter_eq_self.mpr hnonempty, List.map_map]
    exact List.map_id'' (fun n => String.ofList_toList) _

variable (ha : a.Plain) (hb : b.Plain)
include ha

theorem Plain.nodup_paths : a.paths.Nodup := by
  apply List.Nodup.map_on _ (nodup_names ha.distinct)
  intro p hp q hq heq
  rw [← namesOf_dotted (ha.isPlainName p hp), heq, namesOf_dotted (ha.isPlainName q hq)]

/-- Adding the paths of a tree one by one gives the tree. -/
theorem Plain.ofPaths_paths : ofPaths a.paths = a := by
  have hsteps : a.names.foldl (fun t path => t.addPath (dotted path)) .none =
      a.names.foldl (fun t path => addNames path t) .none := by
    apply List.foldl_ext
    intro t path hpath
    rw [JoinTree.addPath, namesOf_dotted (ha.isPlainName path hpath)]
  unfold ofPaths paths
  rw [List.foldl_map, hsteps, foldl_addNames_names ha.distinct, none_merge ha.distinct]

include hb

theorem Plain.forall_mem_paths :
    (∀ path ∈ b.paths, path ∈ a.paths) ↔ ∀ path ∈ b.names, path ∈ a.names := by
  constructor
  · intro h path hpath
    obtain ⟨q, hq, heq⟩ := List.mem_map.mp (h (dotted path) (List.mem_map_of_mem hpath))
    rw [← namesOf_dotted (hb.isPlainName path hpath), ← heq,
      namesOf_dotted (ha.isPlainName q hq)]
    exact hq
  · intro h path hpath
    obtain ⟨q, hq, rfl⟩ := List.mem_map.mp hpath
    exact List.mem_map_of_mem (h q hq)

end Dotted

/-- Unions of trees are ordered unions of their paths. -/
structure UnionsOfPaths (a b c : JoinTree) : Prop where
  distinct : a.Distinct
  assoc : (a.merge b).merge c = a.merge (b.merge c)
  self : a.merge a = a
  none_left : JoinTree.none.merge a = a
  none_right : a.merge .none = a
  mem_paths : ∀ path, path ∈ (a.merge b).paths ↔ path ∈ a.paths ∨ path ∈ b.paths
  nodup : (a.merge b).paths.Nodup
  sublist : a.paths.Sublist (a.merge b).paths
  unchanged : a.merge b = a ↔ ∀ path ∈ b.paths, path ∈ a.paths
  rebuilt : ofPaths a.paths = a

theorem Plain.unionsOfPaths (ha : a.Plain) (hb : b.Plain) (hc : c.Plain) :
    UnionsOfPaths a b c := by
  constructor
  case distinct => exact ha.distinct
  case assoc => exact merge_assoc hb.distinct hc.distinct
  case self => exact (merge_eq_self_iff ha.distinct).mpr fun _ => id
  case none_left => exact none_merge ha.distinct
  case none_right => rfl
  case mem_paths =>
    intro path
    simp only [paths, List.mem_map, mem_names_merge, or_and_right, exists_or]
  case nodup => exact (ha.merge hb).nodup_paths
  case sublist => exact (names_sublist_merge a b).map dotted
  case unchanged => rw [merge_eq_self_iff ha.distinct, forall_mem_paths ha hb]
  case rebuilt => exact ha.ofPaths_paths

end JoinTree

namespace Library

def booksAndPupils : JoinTree := .ofPaths ["books.writer", "pupils"]

def pupilsOfWriters : JoinTree :=
  (JoinTree.none.nest "books" (.ofPaths ["writer..pupils"])).addPath "pupils.books."

theorem plain_booksAndPupils : booksAndPupils.Plain := .addPath _ (.addPath _ .none)

theorem plain_pupilsOfWriters : pupilsOfWriters.Plain :=
  .addPath _ (.nest ⟨by decide, by decide⟩ .none (.addPath _ .none))

theorem unionsOfPaths_booksAndPupils :
    booksAndPupils.Plain ∧ pupilsOfWriters.Plain ∧
      (booksAndPupils.merge pupilsOfWriters).paths =
        ["books", "books.writer", "books.writer.pupils", "pupils", "pupils.books"] ∧
      JoinTree.UnionsOfPaths booksAndPupils pupilsOfWriters booksAndPupils :=
  ⟨plain_booksAndPupils, plain_pupilsOfWriters, by decide,
    plain_booksAndPupils.unionsOfPaths plain_pupilsOfWriters plain_booksAndPupils⟩

end Library

end RelQuery
