import Mathlib.Data.List.Nodup
import RelQuery.Schema.Basic
import RelQuery.Proofs.Outcomes

/-!
# Schemas made by steps

What the steps in the making of a schema preserve. Sources are looked up by name, and no source has
two relationships of one name.
-/

namespace RelQuery

set_option autoImplicit false

namespace Source

def Distinct (s : Source) : Prop := (s.relationships.map (·.name)).Nodup

variable {s t : Source} {r : Relationship}

theorem name_of_relationship? {name : String} (h : s.relationship? name = some r) :
    r.name = name := by
  unfold relationship? at h
  simpa using List.find?_some h

theorem relationship?_of_mem (hs : s.Distinct) (hr : r ∈ s.relationships) :
    s.relationship? r.name = some r := by
  unfold Distinct at hs
  unfold relationship?
  generalize s.relationships = relationships at hs hr
  induction relationships with
  | nil => exact absurd hr List.not_mem_nil
  | cons other rest ih =>
    obtain ⟨hfirst, hrest⟩ := List.nodup_cons.mp hs
    rcases List.mem_cons.mp hr with rfl | hr
    · exact List.find?_cons_of_pos (decide_eq_true rfl)
    · have hne : other.name ≠ r.name := by
        intro heq
        exact hfirst (List.mem_map.mpr ⟨r, hr, heq.symm⟩)
      rw [List.find?_cons_of_neg (by simpa using hne)]
      exact ih hrest hr

theorem distinct_of_addRelationship (hs : s.Distinct) (h : s.addRelationship r = .ok t) :
    t.Distinct := by
  unfold addRelationship at h
  split at h
  · rename_i hnew
    cases h
    unfold Distinct
    have hname : r.name ∉ s.relationships.map (·.name) := by
      intro hmem
      obtain ⟨q, hq, heq⟩ := List.mem_map.mp hmem
      exact List.find?_eq_none.mp hnew q hq (decide_eq_true heq)
    rw [List.map_append, List.map_singleton, ← List.concat_eq_append]
    exact List.Nodup.concat hname hs
  · cases h

end Source

namespace Schema

variable {schema : Schema}

theorem source_eq_ok {name : String} {s : Source} :
    schema.source name = .ok s ↔ schema.source? name = some s := by
  unfold source
  cases schema.source? name with
  | none => simp
  | some t => simp

theorem name_of_source {name : String} {s : Source} (h : schema.source name = .ok s) :
    s.name = name := by
  have hfound := source_eq_ok.mp h
  unfold source? at hfound
  simpa using List.find?_some hfound

theorem mem_of_source {name : String} {s : Source} (h : schema.source name = .ok s) :
    s ∈ schema.sources := List.mem_of_find?_eq_some (source_eq_ok.mp h)

/-- What every successful step preserves is preserved by a row of steps, those included whose
failure is suppressed. -/
theorem steps_preserve {P : Schema → Prop} {steps : List SchemaStep} {schema last : Schema}
    (keeps : ∀ before s after, s ∈ steps → before.step? s = .ok after → P before → P after)
    (h : schema.steps steps = .ok last) (start : P schema) : P last := by
  induction steps generalizing schema with
  | nil =>
    cases h
    exact start
  | cons s rest ih =>
    have hrest := fun before t after (ht : t ∈ rest) => keeps before t after (.tail s ht)
    rw [Schema.steps] at h
    split at h
    · rename_i next hnext
      apply ih hrest h
      unfold step at hnext
      cases hafter : (schema.step? s).mapError Error.configuration with
      | ok after =>
        rw [hafter, guarded_ok] at hnext
        cases hnext
        exact keeps schema s next List.mem_cons_self (mapError_eq_ok.mp hafter) start
      | error e =>
        rw [hafter, guarded] at hnext
        dsimp only at hnext
        split at hnext
        · cases hnext
        · cases hnext
          exact start
    · cases h

theorem mem_insertSource {s t : Source} {sources : List Source} :
    t ∈ insertSource s sources ↔ t = s ∨ t ∈ sources := by
  induction sources with
  | nil => exact List.mem_cons
  | cons u rest ih =>
    unfold insertSource
    split
    · exact List.mem_cons
    · rw [List.mem_cons, ih, List.mem_cons]
      exact or_left_comm

theorem distinct_of_step? {s : SchemaStep} {after : Schema}
    (registered : ∀ t, s = .source t → t.Distinct) (h : schema.step? s = .ok after)
    (before : ∀ t ∈ schema.sources, t.Distinct) : ∀ t ∈ after.sources, t.Distinct := by
  cases s with
  | configure config =>
    cases h
    exact before
  | source s =>
    obtain ⟨_, _, h⟩ := bind_eq_ok.mp h
    split at h
    · rw [← pure_eq_ok.mp h]
      intro t ht
      rcases mem_insertSource.mp ht with rfl | ht
      · exact registered t rfl
      · exact before t ht
    · cases h
  | relate declaring d =>
    obtain ⟨own, hown, h⟩ := bind_eq_ok.mp h
    obtain ⟨_, _, h⟩ := bind_eq_ok.mp h
    obtain ⟨r, _, h⟩ := bind_eq_ok.mp h
    obtain ⟨related, hrelated, h⟩ := bind_eq_ok.mp h
    rw [← pure_eq_ok.mp h]
    intro t ht
    obtain ⟨u, hu, rfl⟩ := List.mem_map.mp ht
    split
    · exact Source.distinct_of_addRelationship (before own (mem_of_source hown)) hrelated
    · exact before u hu

theorem distinct_of_ofSteps {steps : List SchemaStep} (h : ofSteps steps = .ok schema)
    (registered : ∀ s, .source s ∈ steps → s.Distinct) : ∀ s ∈ schema.sources, s.Distinct := by
  apply steps_preserve _ h
  · exact fun s hs => absurd hs List.not_mem_nil
  · intro before s after hs hstep
    exact distinct_of_step? (fun t ht => registered t (ht ▸ hs)) hstep

end Schema

namespace Library

def steps : List SchemaStep :=
  [.source ⟨"Book", "books", none, ["id", "author", "title"], ["id"], []⟩,
    .source ⟨"Author", "authors", none, ["id", "name", "mentor"], ["id"], []⟩,
    .relate "Author"
      { kind := .hasMany, name := "books", target := "Book", condition := .column "author" },
    .relate "Author"
      { kind := .hasMany, name := "pupils", target := "Author", condition := .column "mentor" },
    .relate "Book"
      { kind := .belongsTo, name := "writer", target := "Author", condition := .column "author" }]

def booksOfAuthor : Relationship :=
  ⟨"books", .hasMany, "Book", .pairs [⟨"author", "id"⟩], .multi, .left, true, true, false, false⟩

def pupilsOfAuthor : Relationship :=
  ⟨"pupils", .hasMany, "Author", .pairs [⟨"mentor", "id"⟩], .multi, .left, true, true, false,
    false⟩

def writerOfBook : Relationship :=
  ⟨"writer", .belongsTo, "Author", .pairs [⟨"id", "author"⟩], .single, .inner, false, false, true,
    true⟩

def author : Source :=
  ⟨"Author", "authors", none, ["id", "name", "mentor"], ["id"], [booksOfAuthor, pupilsOfAuthor]⟩

def book : Source :=
  ⟨"Book", "books", none, ["id", "author", "title"], ["id"], [writerOfBook]⟩

def schema : Schema := ⟨{}, [author, book]⟩

example : Schema.ofSteps steps = .ok schema := rfl

end Library

end RelQuery
