import Mathlib.Data.List.TakeWhile
import ReactiveSpace.Proofs.Space.WellFormed

/-!
# When typing has nothing to report

The diagnostics of a type are those of the types it is made of, of its structure, and its own
(`Node.diagnostics_eq`). A structure has none exactly when its types have none and it is well formed
(`Structure.diagnostics_eq_nil_iff`). The rules that look at one name, one reference or one field
each have their own lemma before that.
-/

namespace ReactiveSpace

/-! ### Lists of problems -/

@[simp] theorem Diagnostic.allAt_eq_nil_iff {position : Position} {problems : List Problem} :
    allAt position problems = [] ↔ problems = [] := by
  unfold allAt
  exact List.map_eq_nil_iff

@[simp] theorem Diagnostic.map_problem_allAt (position : Position) (problems : List Problem) :
    (allAt position problems).map Diagnostic.problem = problems := by
  simp [allAt, Function.comp_def]

@[simp] theorem Problem.when_eq_nil_iff {condition : Bool} {p : Problem} :
    Problem.when condition p = [] ↔ condition = false := by
  cases condition <;> simp [Problem.when]

@[simp] theorem Problem.ofMember_eq_nil_iff {use : NameUse} {name : String} :
    ofMember use name = [] ↔ Name.memberProblem? name = none := by
  unfold ofMember
  cases Name.memberProblem? name <;> simp

/-- Distinct names, none of which is among `earlier`. -/
def Fresh (earlier names : List String) : Prop :=
  names.Nodup ∧ ∀ name ∈ names, name ∉ earlier

theorem fresh_nil {earlier : List String} : Fresh earlier [] := by
  simp [Fresh]

theorem fresh_nil_left {names : List String} : Fresh [] names ↔ names.Nodup := by
  simp [Fresh]

/-- Names are fresh when the first is, and the others are after it. -/
theorem fresh_cons_iff {earlier names : List String} {name : String} :
    Fresh earlier (name :: names) ↔
      earlier.contains name = false ∧ Fresh (name :: earlier) names := by
  unfold Fresh
  rw [List.nodup_cons, List.forall_mem_cons, ← Bool.not_eq_true, List.contains_iff_mem]
  constructor
  · rintro ⟨⟨hname, hnodup⟩, hnew, hnames⟩
    refine ⟨hnew, hnodup, fun n hn => ?_⟩
    rw [List.mem_cons, not_or]
    exact ⟨fun heq => hname (heq ▸ hn), hnames n hn⟩
  · rintro ⟨hnew, hnodup, hnames⟩
    refine ⟨⟨fun hn => hnames name hn List.mem_cons_self, hnodup⟩, hnew, fun n hn he => ?_⟩
    exact hnames n hn (List.mem_cons_of_mem _ he)

/-- Dropping from the end leaves nothing exactly if everything may go. -/
theorem Text.dropEnd_eq_nil_iff {p : Char → Bool} {cs : List Char} :
    Text.dropEnd p cs = [] ↔ ∀ c ∈ cs, p c = true := by
  simp [Text.dropEnd, List.dropWhile_eq_nil_iff]

/-- Nothing is left of a text exactly when it is blank. -/
theorem Text.isEmpty_trim_eq_false_iff {text : String} :
    (Text.trim text).isEmpty = false ↔ ∃ c ∈ text.toList, Text.isBlank c = false := by
  have hempty : (Text.trim text).isEmpty = true ↔ ∀ c ∈ text.toList, Text.isBlank c = true := by
    rw [String.isEmpty_iff, Text.trim, Text.trimBy, String.ofList_eq_empty_iff,
      dropEnd_eq_nil_iff]
    constructor
    · intro h c hc
      -- What `dropWhile` keeps starts with a character that is not blank, so it keeps nothing.
      have hnil : text.toList.dropWhile Text.isBlank = [] := by
        refine Classical.not_not.1 fun hne => ?_
        have hhead := List.head_dropWhile_not Text.isBlank hne
        rw [h _ (List.head_mem hne)] at hhead
        exact absurd hhead (by simp)
      exact List.dropWhile_eq_nil_iff.1 hnil c hc
    · intro h c hc
      exact h c ((List.dropWhile_sublist _).mem hc)
  rw [← Bool.not_eq_true, hempty]
  simp

/-! ### Ranges, domains and names -/

namespace Table

variable {t : Table} {n : Node} {name : String} {kind : Kind Node}

@[simp] theorem rangeProblems_eq_nil_iff {container : Container} :
    t.rangeProblems container n = [] ↔ ¬ t.IsRows n := by
  unfold rangeProblems
  rw [Problem.when_eq_nil_iff, isTable_eq_false_iff]

/-- A domain that comes to something is a key, if a map has no problem with it. -/
theorem domainProblems_eq_nil_iff {target : Node} (h : t.ComesTo n target) :
    t.domainProblems n = [] ↔ t.IsKey n := by
  have hkey : t.IsKey n ↔ target.isMapDomain = true := by
    unfold IsKey HasKind Node.isMapDomain
    constructor
    · rintro ⟨k, ⟨target', hcomes, hk⟩, hdomain⟩
      rw [h.unique hcomes, hk]
      exact hdomain
    · intro hdomain
      split at hdomain
      · rename_i k hk
        exact ⟨k, ⟨target, h, hk⟩, hdomain⟩
      · exact absurd hdomain (by simp)
  unfold domainProblems
  rw [follow?_eq_some_iff.2 h, hkey]
  simp

/-- A table has no problem exactly when its rows are those of a record. -/
theorem problems_resolveTable_eq_nil_iff :
    (t.resolveTable name).problems = [] ↔ ∃ s, t.NamesKind name (.record s) := by
  unfold resolveTable
  rcases t.resolve_cases name with ⟨e, hr, hnone⟩ | ⟨r, target, hr, htarget, hnames⟩
  · simp [hr, Outcome.problems, not_namesKind hnone]
  · simp only [hr, htarget, namesKind_iff hnames]
    cases target.kind <;> simp [Outcome.problems]

/-- A holder has no problem exactly when it holds a message. -/
theorem problems_resolveHolder_eq_nil_iff :
    (t.resolveHolder name).problems = [] ↔ ∃ s, t.NamesKind name (.message s) := by
  unfold resolveHolder
  rcases t.resolve_cases name with ⟨e, hr, hnone⟩ | ⟨r, target, hr, htarget, hnames⟩
  · simp [hr, Outcome.problems, not_namesKind hnone]
  · simp only [hr, htarget, namesKind_iff hnames]
    cases target.kind <;> simp [Outcome.problems]

/-- A reference has no problem exactly when what it stands for may be at its place. -/
theorem referenceProblems_eq_nil_iff {scope : Option (Structure Node)} :
    t.referenceProblems scope name = [] ↔
      ∃ kind, t.NamesKind name kind ∧ (∀ s, kind = .message s → InMessage scope) ∧
        ∀ s, kind = .record s → ¬ InMessage scope := by
  unfold referenceProblems
  rcases t.resolve_cases name with ⟨e, hr, hnone⟩ | ⟨r, target, hr, htarget, hnames⟩
  · simp [hr, not_namesKind hnone]
  · simp only [hr, htarget, namesKind_iff hnames, Option.map_some, exists_eq_left']
    cases scope <;> cases target.kind <;> simp [InMessage]

end Table

/-! ### Structures -/

/-- Messages can hold what fits them. -/
theorem Node.fitsMessage_iff_storable {n : Node} : n.fitsMessage = true ↔ n.Storable := by
  constructor
  · intro h
    fun_induction fitsMessage n with
    | case1 => exact .scalar rfl
    | case2 => exact .message rfl
    | case3 => exact .ref rfl
    | case4 position notes element ih => exact .list rfl (ih h)
    | case5 position notes inner ih => exact .maybe rfl (ih h)
    | case6 => simp at h
  · intro h
    induction h with
    | @scalar n _ hk | @message n _ hk | @ref n _ hk =>
      obtain ⟨position, notes, kind⟩ := n
      obtain rfl := hk
      simp [fitsMessage]
    | @list n _ hk _ ih | @maybe n _ hk _ ih =>
      obtain ⟨position, notes, kind⟩ := n
      obtain rfl := hk
      simpa [fitsMessage] using ih

/-- A field is written as a projection or it is not: aliases are not followed here. -/
theorem Node.isProjection_iff {n : Node} :
    n.isProjection = true ↔ ∃ table field, n.kind = .projection table field := by
  unfold isProjection
  split <;> simp_all

namespace Structure

variable {t : Table} {s : Structure Node}

/-- In a structure with distinct fields, every field is the first of its name. -/
theorem field?_eq_some_iff (hd : (s.fields.map Field.name).Nodup) {name : String}
    {f : Field Node} : s.field? name = some f ↔ f ∈ s.fields ∧ f.name = name := by
  unfold field?
  constructor
  · intro h
    exact ⟨List.mem_of_find?_eq_some h, by simpa using List.find?_some h⟩
  · rintro ⟨hf, rfl⟩
    -- The field that is found first has the name of `f`, and no other field has.
    cases hfind : s.fields.find? fun g => g.name == f.name with
    | none => simpa using List.find?_eq_none.1 hfind f hf
    | some g =>
      have hname : g.name = f.name := by simpa using List.find?_some hfind
      rw [List.inj_on_of_nodup_map hd (List.mem_of_find?_eq_some hfind) hf hname]

/-- There is a field of the given name with a property exactly when the one found has it. -/
theorem exists_field_iff (hd : (s.fields.map Field.name).Nodup) {name : String}
    {p : Field Node → Prop} :
    (∃ f ∈ s.fields, f.name = name ∧ p f) ↔ ∃ f, s.field? name = some f ∧ p f := by
  simp only [field?_eq_some_iff hd, and_assoc]

/-- A record needs a field `id` that comes down to an integer. -/
theorem identityProblems_eq_nil_iff (hd : (s.fields.map Field.name).Nodup) :
    s.identityProblems t = [] ↔
      ∃ f ∈ s.fields, f.name = "id" ∧ t.HasKind f.type (.scalar .int) := by
  rw [exists_field_iff hd]
  unfold identityProblems
  cases s.field? "id" with
  | none => simp
  | some id => simp [← Table.scalarOf?_eq_some_iff]

/-- An index needs a field that comes down to a scalar with an order on it. -/
theorem indexProblems_eq_nil_iff (hd : (s.fields.map Field.name).Nodup) {i : Index} :
    s.indexProblems t i = [] ↔
      ∃ f ∈ s.fields, f.name = i.field ∧
        ∃ k, t.HasKind f.type (.scalar k) ∧ k.isIndexable = true := by
  rw [exists_field_iff hd]
  unfold indexProblems
  cases s.field? i.field with
  | none => simp
  | some f =>
    simp only [Problem.when_eq_nil_iff, ← Table.scalarOf?_eq_some_iff, Option.some.injEq,
      exists_eq_left']
    cases t.scalarOf? f.type <;> simp

/-- A stated privacy has no problem exactly when the viewer is a principal and the rule exists. -/
theorem privacyProblems_eq_nil_iff (hd : (s.fields.map Field.name).Nodup) {f : Field Node} :
    s.privacyProblems t f = [] ↔
      (∀ viewer, f.privacy = some (.viewerIs viewer) →
        ∃ v ∈ s.fields, v.name = viewer ∧ t.HasKind v.type (.scalar .principal)) ∧
      ∀ rule, f.privacy = some (.useCustom rule) → ∃ r ∈ s.rules, r.name = rule := by
  simp only [exists_field_iff hd]
  unfold privacyProblems
  split
  · rename_i viewer h
    simp only [h, Option.some.injEq, Privacy.viewerIs.injEq, forall_eq', reduceCtorEq,
      false_imp_iff, implies_true, and_true, Problem.when_eq_nil_iff]
    cases s.field? viewer with
    | none => simp
    | some v => simp [← Table.scalarOf?_eq_some_iff]
  · rename_i rule h
    simp [h]
  · rename_i hviewer hcustom
    refine iff_of_true rfl ⟨fun viewer h => ?_, fun rule h => ?_⟩
    · exact absurd h (hviewer viewer)
    · exact absurd h (hcustom rule)

/-- What is asked of a field in a structure, its name and its type aside. -/
theorem fieldProblems_eq_nil_iff {f : Field Node} :
    s.fieldProblems t f = [] ↔
      (f.privacy ≠ none → ¬ t.IsRows f.type) ∧
      (∀ table field, f.type.kind = .projection table field →
        f.readonly = false ∧ f.privacy = none) ∧
      s.privacyProblems t f = [] ∧ (s.role = .message → f.type.Storable) := by
  unfold fieldProblems
  simp only [List.append_eq_nil_iff, Problem.when_eq_nil_iff, and_assoc]
  refine and_congr ?_ (and_congr ?_ (and_congr Iff.rfl ?_))
  · rw [← Table.isTable_eq_false_iff]
    cases f.privacy <;> simp
  · rw [Bool.and_eq_false_imp, Node.isProjection_iff]
    cases f.privacy <;> simp
  · rw [← Node.fitsMessage_iff_storable, Bool.and_eq_false_imp]
    simp

theorem fieldDiagnostics_cons (earlier : List String) (f : Field Node) (fs : List (Field Node)) :
    fieldDiagnostics t s earlier (f :: fs) =
      Diagnostic.allAt f.position (Problem.ofMember .field f.name ++
          Problem.when (earlier.contains f.name) (.duplicateField f.name s.name)) ++
        f.type.diagnostics t (some s) ++
        Diagnostic.allAt f.position (s.fieldProblems t f) ++
        fieldDiagnostics t s (f.name :: earlier) fs := by
  rw [fieldDiagnostics]

/-- Fields have nothing to report exactly when none of them has and their names are fresh. -/
theorem fieldDiagnostics_eq_nil_iff {earlier : List String} {fs : List (Field Node)} :
    fieldDiagnostics t s earlier fs = [] ↔
      (∀ f ∈ fs, Name.memberProblem? f.name = none ∧ f.type.diagnostics t (some s) = [] ∧
        s.fieldProblems t f = []) ∧ Fresh earlier (fs.map Field.name) := by
  induction fs generalizing earlier with
  | nil => simp [fieldDiagnostics, fresh_nil]
  | cons f fs ih =>
    rw [fieldDiagnostics_cons, List.map_cons, fresh_cons_iff, List.forall_mem_cons]
    simp only [List.append_eq_nil_iff, Diagnostic.allAt_eq_nil_iff, Problem.ofMember_eq_nil_iff,
      Problem.when_eq_nil_iff, ih]
    tauto

/-- Parameters are well formed whose types are. -/
theorem parameterDiagnostics_eq_nil_iff {ps : List (Parameter Node)} :
    parameterDiagnostics t s ps = [] ↔ ∀ p ∈ ps, p.type.diagnostics t (some s) = [] := by
  induction ps with
  | nil => simp [parameterDiagnostics]
  | cons p ps ih =>
    rw [parameterDiagnostics, List.append_eq_nil_iff, ih, List.forall_mem_cons]

theorem resultDiagnostics_eq_nil_iff {returns : Option Node} :
    resultDiagnostics t s returns = [] ↔ ∀ n ∈ returns, n.diagnostics t (some s) = [] := by
  cases returns <;> simp [resultDiagnostics]

/-- Methods are checked in order, each against the names before it and those of the fields. -/
theorem methodDiagnostics_cons (earlier : List String) (m : Method Node)
    (ms : List (Method Node)) :
    methodDiagnostics t s earlier (m :: ms) =
      Diagnostic.allAt m.position (s.methodNameProblems earlier m) ++
        parameterDiagnostics t s m.parameters ++ resultDiagnostics t s m.returns ++
        methodDiagnostics t s (m.name :: earlier) ms := by
  rw [methodDiagnostics]

/-- Methods have nothing to report exactly when none of them has and their names are fresh. -/
theorem methodDiagnostics_eq_nil_iff {earlier : List String} {ms : List (Method Node)} :
    methodDiagnostics t s earlier ms = [] ↔
      (∀ m ∈ ms, Name.memberProblem? m.name = none ∧
        (∀ p ∈ m.parameters, Name.memberProblem? p.name = none) ∧
        (∀ f ∈ s.fields, m.name ≠ f.name) ∧
        (∀ p ∈ m.parameters, p.type.diagnostics t (some s) = []) ∧
        ∀ n ∈ m.returns, n.diagnostics t (some s) = []) ∧ Fresh earlier (ms.map Method.name) := by
  induction ms generalizing earlier with
  | nil => simp [methodDiagnostics, fresh_nil]
  | cons m ms ih =>
    rw [methodDiagnostics_cons, List.map_cons, fresh_cons_iff, List.forall_mem_cons]
    simp only [List.append_eq_nil_iff, Diagnostic.allAt_eq_nil_iff, methodNameProblems,
      Problem.ofMember_eq_nil_iff, Problem.when_eq_nil_iff, List.flatMap_eq_nil_iff,
      parameterDiagnostics_eq_nil_iff, resultDiagnostics_eq_nil_iff, List.any_eq_false, beq_iff_eq,
      ih, ne_comm]
    tauto

/-- The types of a structure are those of its fields, parameters and results. -/
theorem forall_mem_types_iff {p : Node → Prop} :
    (∀ n ∈ s.types, p n) ↔
      (∀ f ∈ s.fields, p f.type) ∧
        ∀ m ∈ s.methods, (∀ q ∈ m.parameters, p q.type) ∧ ∀ n ∈ m.returns, p n := by
  unfold types
  simp only [List.mem_append, List.mem_map, List.mem_flatMap, Option.mem_toList]
  constructor
  · intro h
    refine ⟨fun f hf => h _ (Or.inl ⟨f, hf, rfl⟩), fun m hm => ⟨fun q hq => ?_, fun n hn => ?_⟩⟩
    · exact h _ (Or.inr ⟨m, hm, Or.inl ⟨q, hq, rfl⟩⟩)
    · exact h _ (Or.inr ⟨m, hm, Or.inr hn⟩)
  · rintro ⟨hfields, hmethods⟩ n (⟨f, hf, rfl⟩ | ⟨m, hm, ⟨q, hq, rfl⟩ | hn⟩)
    · exact hfields f hf
    · exact (hmethods m hm).1 q hq
    · exact (hmethods m hm).2 n hn

/-- The diagnostics of a structure are those of its fields, its identity, its indices, its methods
and its rules. -/
theorem diagnostics_eq (position : Position) :
    s.diagnostics t position =
      fieldDiagnostics t s [] s.fields ++
        Diagnostic.allAt position (if s.role = .record then s.identityProblems t else []) ++
        s.indices.flatMap (fun i => Diagnostic.allAt i.position (s.indexProblems t i)) ++
        methodDiagnostics t s [] s.methods ++
        s.rules.flatMap (fun r => Diagnostic.allAt r.position (Problem.ofMember .rule r.name)) := by
  rw [diagnostics]

/-- A structure has no diagnostics if its fields, identity, indices, methods and rules have none. -/
theorem diagnostics_eq_nil_iff_parts {position : Position} :
    s.diagnostics t position = [] ↔
      fieldDiagnostics t s [] s.fields = [] ∧
      (s.role = .record → s.identityProblems t = []) ∧
      (∀ i ∈ s.indices, s.indexProblems t i = []) ∧
      methodDiagnostics t s [] s.methods = [] ∧
      ∀ r ∈ s.rules, Name.memberProblem? r.name = none := by
  rw [diagnostics_eq]
  simp only [List.append_eq_nil_iff, Diagnostic.allAt_eq_nil_iff, List.flatMap_eq_nil_iff,
    Problem.ofMember_eq_nil_iff, ite_eq_right_iff, and_assoc]

/-- A structure has nothing to report exactly when its types have not and it is well formed. -/
theorem diagnostics_eq_nil_iff {position : Position} :
    s.diagnostics t position = [] ↔
      (∀ n ∈ s.types, n.diagnostics t (some s) = []) ∧ s.WellFormed t := by
  rw [diagnostics_eq_nil_iff_parts, fieldDiagnostics_eq_nil_iff, methodDiagnostics_eq_nil_iff,
    fresh_nil_left, fresh_nil_left, forall_mem_types_iff]
  constructor
  · rintro ⟨⟨hfields, hd⟩, hidentity, hindices, ⟨hmethods, hmd⟩, hrules⟩
    refine ⟨⟨fun f hf => (hfields f hf).2.1, fun m hm => (hmethods m hm).2.2.2⟩, ?_⟩
    -- The rules about one field look others up by name, so they need distinct names first.
    have hproblems := fun f hf => fieldProblems_eq_nil_iff.1 (hfields f hf).2.2
    have hprivacy := fun f hf => (privacyProblems_eq_nil_iff hd).1 (hproblems f hf).2.2.1
    exact {
      field_names := fun f hf => (hfields f hf).1
      method_names := fun m hm => (hmethods m hm).1
      parameter_names := fun m hm => (hmethods m hm).2.1
      rule_names := hrules
      fields_nodup := hd
      methods_nodup := hmd
      method_ne_field := fun m hm => (hmethods m hm).2.2.1
      identity := fun hrole => (identityProblems_eq_nil_iff hd).1 (hidentity hrole)
      indices := fun i hi => (indexProblems_eq_nil_iff hd).1 (hindices i hi)
      viewers := fun f hf => (hprivacy f hf).1
      customs := fun f hf => (hprivacy f hf).2
      tables := fun f hf => (hproblems f hf).1
      projections := fun f hf => (hproblems f hf).2.1
      storable := fun hrole f hf => (hproblems f hf).2.2.2 hrole }
  · rintro ⟨⟨hfields, hmethods⟩, h⟩
    have hd := h.fields_nodup
    refine ⟨⟨fun f hf => ⟨h.field_names f hf, hfields f hf, ?_⟩, hd⟩, ?_, ?_,
      ⟨fun m hm => ⟨h.method_names m hm, h.parameter_names m hm, h.method_ne_field m hm,
        hmethods m hm⟩, h.methods_nodup⟩, h.rule_names⟩
    · refine fieldProblems_eq_nil_iff.2 ⟨h.tables f hf, h.projections f hf, ?_, ?_⟩
      · exact (privacyProblems_eq_nil_iff hd).2 ⟨h.viewers f hf, h.customs f hf⟩
      · exact fun hrole => h.storable hrole f hf
    · exact fun hrole => (identityProblems_eq_nil_iff hd).2 (h.identity hrole)
    · exact fun i hi => (indexProblems_eq_nil_iff hd).2 (h.indices i hi)

end Structure

/-! ### Types -/

/-- The problems of a type at its place, those of the types it is made of aside. -/
def Node.ownProblems (t : Table) (scope : Option (Structure Node)) (n : Node) : List Problem :=
  match n.kind with
  | .replication service method =>
    Problem.when (service.isEmpty || method.isEmpty) .replicationIncomplete
  | .list element => t.rangeProblems .list element
  | .map domain range => t.domainProblems domain ++ t.rangeProblems .map range
  | .lazy computed formula _ =>
    Problem.when (Text.trim formula).isEmpty .emptyFormula ++ t.rangeProblems .formula computed
  | .table record => (t.resolveTable record).problems
  | .holder message => (t.resolveHolder message).problems
  | .projection table field => (t.resolveProjection scope table field).problems
  | .ref name => t.referenceProblems scope name
  | _ => []

/-- The diagnostics of a type are those of the types it is made of, of its structure, and its
own. -/
theorem Node.diagnostics_eq (t : Table) (scope : Option (Structure Node)) (n : Node) :
    n.diagnostics t scope =
      n.parts.flatMap (Node.diagnostics t scope) ++
        n.structure?.toList.flatMap (Structure.diagnostics t n.position) ++
        Diagnostic.allAt n.position (n.ownProblems t scope) := by
  obtain ⟨position, notes, kind⟩ := n
  cases kind <;> simp [Node.diagnostics, parts, structure?, ownProblems, Diagnostic.allAt]

/-- A type has no diagnostics if its parts, its structure and the type itself have none. -/
theorem Node.diagnostics_eq_nil_iff {t : Table} {scope : Option (Structure Node)} {n : Node} :
    n.diagnostics t scope = [] ↔
      (∀ m ∈ n.parts, m.diagnostics t scope = []) ∧
      (∀ s, n.structure? = some s → s.diagnostics t n.position = []) ∧
      n.ownProblems t scope = [] := by
  rw [diagnostics_eq, List.append_eq_nil_iff, List.append_eq_nil_iff, List.flatMap_eq_nil_iff,
    List.flatMap_eq_nil_iff, Diagnostic.allAt_eq_nil_iff, and_assoc]
  simp only [Option.mem_toList]

end ReactiveSpace
