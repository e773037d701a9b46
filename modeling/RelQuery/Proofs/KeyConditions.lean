import RelQuery.Proofs.Outcomes
import RelQuery.Relationship.Declaration

/-!
# Conditions on keys

The law behind declarations that name the foreign key or leave it to be found: one side has the
primary key, the other one the column that refers to it, and a declaration is resolved exactly when
both are there.
-/

namespace RelQuery

set_option autoImplicit false

section LastSegment

/-- What stands behind the last `::` of a name, or the whole name where there is none. A `::` behind
the last one would start with the second of its two characters or later. -/
def IsLastSegment (name segment : String) : Prop :=
  (segment = name ∧ ¬[':', ':'] <:+: name.toList) ∨
    ∃ front, name = front ++ "::" ++ segment ∧ ¬[':', ':'] <:+: ':' :: segment.toList

theorem beforeDoubleColon_of_none {cs : List Char} (h : ¬[':', ':'] <:+: cs) :
    beforeDoubleColon cs = cs := by
  fun_induction beforeDoubleColon cs with
  | case1 rest => exact absurd (List.prefix_append [':', ':'] rest).isInfix h
  | case2 c cs _ ih => rw [ih fun hin => h (List.infix_cons hin)]
  | case3 => rfl

theorem beforeDoubleColon_append {before : List Char} (h : ¬[':', ':'] <:+: before ++ [':'])
    (rest : List Char) : beforeDoubleColon (before ++ ':' :: ':' :: rest) = before := by
  induction before with
  | nil => rfl
  | cons c before ih =>
    have hrest := ih fun hin => h (List.infix_cons hin)
    rw [List.cons_append, beforeDoubleColon, hrest]
    rintro cs rfl hcs
    cases before with
    | nil => exact h (List.infix_refl _)
    | cons d before =>
      obtain ⟨rfl, _⟩ := List.cons.inj hcs
      exact h (List.prefix_append [':', ':'] (before ++ [':'])).isInfix

theorem exists_append_of_infix {cs : List Char} (h : [':', ':'] <:+: cs) :
    ∃ rest, cs = beforeDoubleColon cs ++ ':' :: ':' :: rest ∧
      ¬[':', ':'] <:+: beforeDoubleColon cs ++ [':'] := by
  fun_induction beforeDoubleColon cs with
  | case1 rest =>
    refine ⟨rest, rfl, fun hin => ?_⟩
    exact absurd hin.length_le (by decide)
  | case2 c cs hfirst ih =>
    have hstart {ds : List Char} (hds : ds ≠ []) (hbegins : ds <+: cs) :
        ¬[':', ':'] <+: c :: ds := by
      intro hcolons
      obtain ⟨rfl, hd⟩ := List.cons_prefix_cons.mp hcolons
      obtain ⟨tail, htail⟩ := hd.trans hbegins
      exact hfirst tail rfl htail.symm
    rcases List.infix_cons_iff.mp h with hcolons | hin
    · have hne : cs ≠ [] := by
        rintro rfl
        exact absurd hcolons.length_le (by simp)
      exact absurd hcolons (hstart hne (List.prefix_refl cs))
    · obtain ⟨rest, hcs, hlast⟩ := ih hin
      refine ⟨rest, congrArg (c :: ·) hcs, fun hin => ?_⟩
      rcases List.infix_cons_iff.mp hin with hcolons | hin
      · refine hstart (by simp) ?_ hcolons
        conv => rhs; rw [hcs]
        simp
      · exact hlast hin
  | case3 => exact absurd h.length_le (by decide)

theorem isLastSegment_iff {name segment : String} :
    IsLastSegment name segment ↔ segment = lastSegment name := by
  have hreverse (cs : List Char) : [':', ':'] <:+: cs.reverse ↔ [':', ':'] <:+: cs :=
    @List.reverse_infix _ [':', ':'] cs
  unfold IsLastSegment lastSegment
  constructor
  · rintro (⟨rfl, hnone⟩ | ⟨front, rfl, hlast⟩)
    · rw [beforeDoubleColon_of_none (by rwa [hreverse]), List.reverse_reverse,
        String.ofList_toList]
    · have hsplit : (front ++ "::" ++ segment).toList.reverse =
          segment.toList.reverse ++ ':' :: ':' :: front.toList.reverse := by
        simp
      rw [← hreverse, List.reverse_cons] at hlast
      rw [hsplit, beforeDoubleColon_append hlast, List.reverse_reverse, String.ofList_toList]
  · rintro rfl
    by_cases hcolons : [':', ':'] <:+: name.toList.reverse
    · obtain ⟨rest, hname, hlast⟩ := exists_append_of_infix hcolons
      right
      refine ⟨String.ofList rest.reverse, ?_, ?_⟩
      · apply String.toList_injective
        rw [← List.reverse_injective.eq_iff]
        simpa using hname
      · rw [← hreverse]
        simpa using hlast
    · left
      rw [beforeDoubleColon_of_none hcolons, List.reverse_reverse, String.ofList_toList]
      exact ⟨rfl, fun hin => hcolons ((hreverse _).mpr hin)⟩

end LastSegment

namespace Source

variable {s : Source}

theorem checkIdentifier_eq_ok {what name : String} :
    checkIdentifier what name = .ok () ↔ isIdentifier name = true := by
  unfold checkIdentifier
  split <;> simp_all

theorem checkIdentifier_eq_error {what name : String} {e : ConfigurationError} :
    checkIdentifier what name = .error e ↔
      isIdentifier name = false ∧ .invalidIdentifier what name = e := by
  unfold checkIdentifier
  split <;> simp_all

theorem forM_checkIdentifier {what : String} {names : List String} :
    names.forM (checkIdentifier what) = .ok () ↔ ∀ name ∈ names, isIdentifier name = true := by
  induction names with
  | nil => exact ⟨fun _ _ hname => absurd hname List.not_mem_nil, fun _ => rfl⟩
  | cons name names ih =>
    rw [List.forall_mem_cons, ← ih, ← checkIdentifier_eq_ok]
    constructor
    · intro h
      obtain ⟨_, hname, hrest⟩ := bind_eq_ok.mp h
      exact ⟨hname, hrest⟩
    · rintro ⟨hname, hrest⟩
      exact bind_eq_ok.mpr ⟨(), hname, hrest⟩

theorem validate_eq_ok : s.validate = .ok () ↔ isIdentifier s.name = true ∧
    (∀ c ∈ s.columns, isIdentifier c = true) ∧ ∀ key ∈ s.primaryKey, key ∈ s.columns := by
  have hkeys : (∀ key ∈ s.primaryKey, key ∈ s.columns) ↔
      s.primaryKey.find? (!s.hasColumn ·) = none := by
    simp [List.find?_eq_none, hasColumn]
  rw [hkeys, ← checkIdentifier_eq_ok, ← forM_checkIdentifier]
  unfold validate
  constructor
  · intro valid
    obtain ⟨_, hname, valid⟩ := bind_eq_ok.mp valid
    obtain ⟨_, hcolumns, valid⟩ := bind_eq_ok.mp valid
    refine ⟨hname, hcolumns, ?_⟩
    split at valid
    · assumption
    · cases valid
  · rintro ⟨hname, hcolumns, hnone⟩
    apply bind_eq_ok.mpr
    refine ⟨(), hname, bind_eq_ok.mpr ⟨(), hcolumns, ?_⟩⟩
    rw [hnone]

theorem soleKey_eq_ok {key : String} : s.soleKey = .ok key ↔ s.primaryKey = [key] := by
  unfold Source.soleKey soleKey?
  rcases s.primaryKey with _ | ⟨first, _ | ⟨second, rest⟩⟩
  · simp
  · simp
  · simp

theorem soleKey_eq_error {e : ConfigurationError} :
    s.soleKey = .error e ↔ e = s.ambiguousKey ∧ ∀ key, s.primaryKey ≠ [key] := by
  unfold soleKey soleKey?
  rcases s.primaryKey with _ | ⟨first, _ | ⟨second, rest⟩⟩
  · simp [eq_comm]
  · simp
  · simp [eq_comm]

theorem hasColumn_iff {column : String} : s.hasColumn column = true ↔ column ∈ s.columns :=
  List.contains_iff_mem

theorem require_eq_ok {column : String} : s.require column = .ok () ↔ column ∈ s.columns := by
  rw [← hasColumn_iff]
  unfold require
  split <;> simp_all

theorem requireGuess_eq_ok {column guessedFrom : String} :
    s.requireGuess column guessedFrom = .ok () ↔ column ∈ s.columns := by
  rw [← hasColumn_iff]
  unfold requireGuess
  split <;> simp_all

theorem unknown_of_require {column : String} {e : ConfigurationError}
    (h : s.require column = .error e) : column ∉ s.columns ∧ e.kind = .unknownColumn := by
  unfold require at h
  split at h
  · cases h
  · rename_i hcolumn
    cases h
    exact ⟨fun hmem => hcolumn (hasColumn_iff.mpr hmem), rfl⟩

theorem unknown_of_requireGuess {column guessedFrom : String} {e : ConfigurationError}
    (h : s.requireGuess column guessedFrom = .error e) :
    column ∉ s.columns ∧ e.kind = .unknownColumn := by
  unfold requireGuess at h
  split at h
  · cases h
  · rename_i hcolumn
    cases h
    exact ⟨fun hmem => hcolumn (hasColumn_iff.mpr hmem), rfl⟩

end Source

namespace Declaration

def NamesKey (d : Declaration) : Prop :=
  d.condition = .inferred ∨ ∃ column, d.condition = .column column

def keySide (d : Declaration) (declaring target : Source) : Source :=
  match d.kind with
  | .belongsTo => target
  | .hasMany | .hasOne | .mightHave => declaring

def columnSide (d : Declaration) (declaring target : Source) : Source :=
  match d.kind with
  | .belongsTo => declaring
  | .hasMany | .hasOne | .mightHave => target

def keyPair (d : Declaration) (key column : String) : ColumnPair :=
  match d.kind with
  | .belongsTo => { foreign := key, own := column }
  | .hasMany | .hasOne | .mightHave => { foreign := column, own := key }

/-- The column that refers to a key: the given one, or else the one that the kind of the
relationship stands for. -/
inductive RefersBy (d : Declaration) (declaring : Source) (key : String) : String → Prop where
  | given {column : String} (form : d.condition = .column column) : RefersBy d declaring key column
  | relationship (form : d.condition = .inferred) (kind : d.kind = .belongsTo) :
    RefersBy d declaring key d.name
  | declaringName {segment : String} (form : d.condition = .inferred) (kind : d.kind = .hasMany)
    (last : IsLastSegment declaring.declaringName segment) :
    RefersBy d declaring key (lowercase segment)
  | sharedKey (form : d.condition = .inferred) (kind : d.kind = .hasOne ∨ d.kind = .mightHave) :
    RefersBy d declaring key key

/-- The errors of a declaration that pairs a key with a column. Those of the condition tell the
declaring source and the relationship. -/
inductive KeyError (d : Declaration) (declaring target : Source) : ConfigurationError → Prop where
  | name (invalid : isIdentifier d.name = false) :
    KeyError d declaring target (.invalidIdentifier "relationship" d.name)
  | ambiguous {message : String} (named : isIdentifier d.name = true)
    (keys : ∀ key, (d.keySide declaring target).primaryKey ≠ [key]) :
    KeyError d declaring target
      ⟨.ambiguousPrimaryKey, message, some declaring.name, some d.name⟩
  | unknown {message key column : String} (named : isIdentifier d.name = true)
    (keys : (d.keySide declaring target).primaryKey = [key])
    (refers : d.RefersBy declaring key column)
    (missing : column ∉ (d.columnSide declaring target).columns) :
    KeyError d declaring target ⟨.unknownColumn, message, some declaring.name, some d.name⟩

def requireReference (d : Declaration) (declaring target : Source) (column : String) :
    Except ConfigurationError Unit :=
  match d.condition, d.kind with
  | .inferred, .hasMany | .inferred, .hasOne | .inferred, .mightHave =>
    target.requireGuess column declaring.declaringName
  | _, _ => (d.columnSide declaring target).require column

def reference (d : Declaration) (declaring : Source) (key : String) : String :=
  match d.condition, d.kind with
  | .column column, _ => column
  | _, .belongsTo => d.name
  | _, .hasMany => conventionalKey declaring.declaringName
  | _, _ => key

variable {d : Declaration} {declaring target : Source} {key column : String}
  {condition : JoinCondition} {e : ConfigurationError} {r : Relationship}

theorem refersBy_iff (hform : d.NamesKey) :
    d.RefersBy declaring key column ↔ column = d.reference declaring key := by
  obtain ⟨kind, name, target, condition, overrides⟩ := d
  constructor
  · intro h
    cases h with
    | given form =>
      cases form
      rfl
    | relationship form kind =>
      cases form
      cases kind
      rfl
    | declaringName form kind last =>
      cases form
      cases kind
      rw [isLastSegment_iff.mp last]
      rfl
    | sharedKey form kind =>
      cases form
      rcases kind with kind | kind <;> cases kind <;> rfl
  · rintro rfl
    rcases hform with form | ⟨column, form⟩
    · cases form
      cases kind with
      | belongsTo => exact .relationship rfl rfl
      | hasMany => exact .declaringName rfl rfl (isLastSegment_iff.mpr rfl)
      | hasOne => exact .sharedKey rfl (.inl rfl)
      | mightHave => exact .sharedKey rfl (.inr rfl)
    · cases form
      exact .given rfl

/-- Every kind and every form of a declaration comes to the same steps. -/
theorem resolveCondition_eq (hform : d.NamesKey) (declaring target : Source) :
    d.resolveCondition declaring target = do
      let key ← (d.keySide declaring target).soleKey
      d.requireReference declaring target (d.reference declaring key)
      return .pairs [d.keyPair key (d.reference declaring key)] := by
  obtain ⟨kind, name, target, condition, overrides⟩ := d
  rcases hform with form | ⟨column, form⟩
  · cases form
    cases kind <;> rfl
  · cases form
    cases kind <;> rfl

theorem requireReference_cases (d : Declaration) (declaring target : Source) (column : String) :
    d.requireReference declaring target column =
        (d.columnSide declaring target).require column ∨
      d.requireReference declaring target column =
        (d.columnSide declaring target).requireGuess column declaring.declaringName := by
  unfold requireReference columnSide
  split
  · rename_i hkind
    exact .inr (by rw [hkind])
  · rename_i hkind
    exact .inr (by rw [hkind])
  · rename_i hkind
    exact .inr (by rw [hkind])
  · exact .inl rfl

theorem requireReference_eq_ok : d.requireReference declaring target column = .ok () ↔
    column ∈ (d.columnSide declaring target).columns := by
  rcases requireReference_cases d declaring target column with h | h
  · rw [h, Source.require_eq_ok]
  · rw [h, Source.requireGuess_eq_ok]

theorem unknown_of_requireReference (h : d.requireReference declaring target column = .error e) :
    column ∉ (d.columnSide declaring target).columns ∧ e.kind = .unknownColumn := by
  rcases requireReference_cases d declaring target column with heq | heq
  · exact Source.unknown_of_require (heq.symm.trans h)
  · exact Source.unknown_of_requireGuess (heq.symm.trans h)

theorem resolveCondition_eq_ok (hform : d.NamesKey) :
    d.resolveCondition declaring target = .ok condition ↔ ∃ key column,
      (d.keySide declaring target).primaryKey = [key] ∧ d.RefersBy declaring key column ∧
      column ∈ (d.columnSide declaring target).columns ∧
      condition = .pairs [d.keyPair key column] := by
  rw [resolveCondition_eq hform]
  constructor
  · intro h
    obtain ⟨key, hkey, h⟩ := bind_eq_ok.mp h
    obtain ⟨_, hcolumn, h⟩ := bind_eq_ok.mp h
    exact ⟨key, _, Source.soleKey_eq_ok.mp hkey, (refersBy_iff hform).mpr rfl,
      requireReference_eq_ok.mp hcolumn, (pure_eq_ok.mp h).symm⟩
  · rintro ⟨key, column, hkey, hrefers, hcolumn, rfl⟩
    rw [(refersBy_iff hform).mp hrefers] at hcolumn ⊢
    apply bind_eq_ok.mpr
    refine ⟨key, Source.soleKey_eq_ok.mpr hkey, ?_⟩
    exact bind_eq_ok.mpr ⟨(), requireReference_eq_ok.mpr hcolumn, rfl⟩

theorem keyError_of_resolveCondition (hform : d.NamesKey) (named : isIdentifier d.name = true)
    (h : d.resolveCondition declaring target = .error e) :
    d.KeyError declaring target ((e.onSource declaring.name).onRelationship d.name) := by
  rw [resolveCondition_eq hform] at h
  rcases bind_eq_error.mp h with hkey | ⟨key, hkey, h⟩
  · obtain ⟨rfl, hnone⟩ := Source.soleKey_eq_error.mp hkey
    exact .ambiguous named hnone
  · rcases bind_eq_error.mp h with hcolumn | ⟨_, _, h⟩
    · obtain ⟨hmissing, hkind⟩ := unknown_of_requireReference hcolumn
      obtain ⟨kind, message, source, relationship⟩ := e
      cases hkind
      exact .unknown named (Source.soleKey_eq_ok.mp hkey) ((refersBy_iff hform).mpr rfl) hmissing
    · cases h

theorem resolve_inv (h : d.resolve declaring target = .ok r) :
    isIdentifier r.name = true ∧ r.name = d.name ∧ r.target = d.target ∧
      d.resolveCondition declaring target = .ok r.condition := by
  obtain ⟨_, hname, h⟩ := bind_eq_ok.mp h
  obtain ⟨condition, hcondition, h⟩ := bind_eq_ok.mp h
  rw [← pure_eq_ok.mp h]
  exact ⟨Source.checkIdentifier_eq_ok.mp hname, rfl, rfl, mapError_eq_ok.mp hcondition⟩

theorem succeeds_resolve : Succeeds (d.resolve declaring target) ↔
    isIdentifier d.name = true ∧ Succeeds (d.resolveCondition declaring target) := by
  unfold Succeeds
  constructor
  · rintro ⟨r, hr⟩
    obtain ⟨hname, heq, _, hcondition⟩ := resolve_inv hr
    exact ⟨heq ▸ hname, r.condition, hcondition⟩
  · rintro ⟨hname, condition, hcondition⟩
    unfold resolve
    simp only [bind_eq_ok]
    exact ⟨_, (), Source.checkIdentifier_eq_ok.mpr hname, condition,
      mapError_eq_ok.mpr hcondition, rfl⟩

theorem keyError_of_resolve (hform : d.NamesKey) (h : d.resolve declaring target = .error e) :
    d.KeyError declaring target e := by
  unfold resolve at h
  rcases bind_eq_error.mp h with hname | ⟨_, hname, h⟩
  · obtain ⟨hinvalid, rfl⟩ := Source.checkIdentifier_eq_error.mp hname
    exact .name hinvalid
  · rcases bind_eq_error.mp h with hcondition | ⟨_, _, h⟩
    · obtain ⟨cause, hcause, rfl⟩ := mapError_eq_error.mp hcondition
      exact keyError_of_resolveCondition hform (Source.checkIdentifier_eq_ok.mp hname) hcause
    · cases h

theorem mem_columns_of_keyPair (hown : declaring.validate = .ok ())
    (htarget : target.validate = .ok ()) (hkey : (d.keySide declaring target).primaryKey = [key])
    (hcolumn : column ∈ (d.columnSide declaring target).columns) :
    (d.keyPair key column).foreign ∈ target.columns ∧
      (d.keyPair key column).own ∈ declaring.columns := by
  have hkeyColumn {s : Source} (valid : s.validate = .ok ()) (hs : s.primaryKey = [key]) :
      key ∈ s.columns :=
    (Source.validate_eq_ok.mp valid).2.2 key (hs ▸ List.mem_singleton_self key)
  unfold keySide at hkey
  unfold columnSide at hcolumn
  unfold keyPair
  cases hkind : d.kind with
  | belongsTo =>
    rw [hkind] at hkey hcolumn
    exact ⟨hkeyColumn htarget hkey, hcolumn⟩
  | _ =>
    rw [hkind] at hkey hcolumn
    exact ⟨hcolumn, hkeyColumn hown hkey⟩

theorem pair_of_namesKey (hform : d.NamesKey) (hown : declaring.validate = .ok ())
    (htarget : target.validate = .ok ()) (h : d.resolveCondition declaring target = .ok condition) :
    ∃ p, condition = .pairs [p] ∧ target.hasColumn p.foreign = true ∧
      declaring.hasColumn p.own = true := by
  obtain ⟨key, column, hkey, _, hcolumn, hpairs⟩ := (resolveCondition_eq_ok hform).mp h
  obtain ⟨hforeign, hlocal⟩ := mem_columns_of_keyPair hown htarget hkey hcolumn
  exact ⟨_, hpairs, Source.hasColumn_iff.mpr hforeign, Source.hasColumn_iff.mpr hlocal⟩

/-- What becomes of a declaration that pairs a key with a column. -/
structure ResolvedByKey (d : Declaration) (declaring target : Source) : Prop where
  succeeds_iff : (∃ r, d.resolve declaring target = .ok r) ↔
    isIdentifier d.name = true ∧ ∃ key column, (d.keySide declaring target).primaryKey = [key] ∧
      d.RefersBy declaring key column ∧ column ∈ (d.columnSide declaring target).columns
  condition : ∀ r, d.resolve declaring target = .ok r → ∃ key column,
    (d.keySide declaring target).primaryKey = [key] ∧ d.RefersBy declaring key column ∧
    r.condition = .pairs [d.keyPair key column] ∧
    (d.keyPair key column).foreign ∈ target.columns ∧
    (d.keyPair key column).own ∈ declaring.columns
  failure : ∀ e, (d.resolve declaring target).mapError Error.configuration = .error e →
    ∃ cause, e = .configuration cause ∧ d.KeyError declaring target cause

theorem resolvedByKey (hform : d.NamesKey) (hown : declaring.validate = .ok ())
    (htarget : target.validate = .ok ()) : d.ResolvedByKey declaring target := by
  constructor
  case succeeds_iff =>
    rw [← Succeeds, succeeds_resolve]
    apply and_congr_right
    intro _
    unfold Succeeds
    simp only [resolveCondition_eq_ok hform]
    constructor
    · rintro ⟨_, key, column, hkey, hrefers, hcolumn, _⟩
      exact ⟨key, column, hkey, hrefers, hcolumn⟩
    · rintro ⟨key, column, hkey, hrefers, hcolumn⟩
      exact ⟨_, key, column, hkey, hrefers, hcolumn, rfl⟩
  case condition =>
    intro r hr
    obtain ⟨_, _, _, hcondition⟩ := resolve_inv hr
    obtain ⟨key, column, hkey, hrefers, hcolumn, hpairs⟩ :=
      (resolveCondition_eq_ok hform).mp hcondition
    exact ⟨key, column, hkey, hrefers, hpairs, mem_columns_of_keyPair hown htarget hkey hcolumn⟩
  case failure =>
    intro e he
    obtain ⟨cause, hcause, rfl⟩ := mapError_eq_error.mp he
    exact ⟨cause, rfl, keyError_of_resolve hform hcause⟩

end Declaration

namespace Library

def novelist : Source :=
  { Source.named "Novelist" with
    className := some "Library::People::Novelist", columns := ["id", "name"], primaryKey := ["id"] }

def novel : Source :=
  { Source.named "Novel" with columns := ["id", "title", "novelist"], primaryKey := ["id"] }

def novelsOfNovelist : Declaration := { kind := .hasMany, name := "novels", target := "Novel" }

theorem resolvedByKey_novels :
    novelsOfNovelist.NamesKey ∧ novelist.validate = .ok () ∧ novel.validate = .ok () ∧
      novelsOfNovelist.ResolvedByKey novelist novel ∧
      novelsOfNovelist.resolveCondition novelist novel = .ok (.pairs [⟨"novelist", "id"⟩]) :=
  ⟨.inl rfl, rfl, rfl, Declaration.resolvedByKey (.inl rfl) rfl rfl, rfl⟩

end Library

end RelQuery
