import Mathlib.Data.List.Perm.Basic
import ReactiveSpace.Proofs.Space.Checking
import ReactiveSpace.Proofs.Target.Naming
import ReactiveSpace.Proofs.Target.Source

/-!
# When the definitions of a unit are distinct

Names of the user stand in a unit beside fixed names, and behind and before fixed parts of names.
`Declarations.definitions_distinct_iff` says exactly when no name is defined twice. The checks of a
space keep the fields and methods of a structure apart, and its tests. They do not look at the
functions that change a field, at the fixed names of functions, at rules or indices of one name, or
at a record with the name of another one's delta.
-/

namespace ReactiveSpace

namespace Target

open Code

variable {t : Table} {s : Structure Node}

/-! ### Functions -/

/-- What keeps the functions of a well-formed structure apart, beside functions with fixed names. -/
structure FunctionsDistinct (t : Table) (hooks : List String) (s : Structure Node) : Prop where
  rules : (s.rules.map Rule.name).Nodup
  changers : (changers t s).Nodup
  fields : ∀ f ∈ s.fields, f.name ∉ hooks ∧ f.name ∉ Target.changers t s
  methods : ∀ m ∈ s.methods, m.name ∉ hooks ∧ m.name ∉ Target.changers t s

/-- A function that changes a field has the name of the field with something before or behind it. -/
theorem exists_field_of_mem_changers {name : String} (h : name ∈ changers t s) :
    ∃ f ∈ s.fields, name = "set_" ++ f.name ∨ name = f.name ++ "_mut" := by
  obtain ⟨f, hf, hname⟩ := List.mem_filterMap.1 h
  refine ⟨f, hf, ?_⟩
  unfold changer? at hname
  split at hname
  · simp at hname
  · split at hname
    · exact .inl (Option.some.inj hname).symm
    · split at hname
      · simp at hname
      · exact .inr (Option.some.inj hname).symm
    all_goals simp at hname

/-- A function that changes a field does not have a reserved name. -/
theorem isReserved_of_mem_changers (hs : s.WellFormed t) {name : String}
    (h : name ∈ changers t s) : Name.isReserved name = false := by
  obtain ⟨f, hf, rfl | rfl⟩ := exists_field_of_mem_changers h
  · rw [← Bool.not_eq_true, Name.isReserved_iff]
    rintro ⟨rest, hrest⟩
    simp at hrest
  · exact Name.isReserved_append (hs.field_names f hf) "_mut"

/-- The names that are not reserved are distinct when nothing takes the place of a function that
changes a field or of a hook. A hook is never such a function itself. -/
theorem nodup_plain_iff (hs : s.WellFormed t) {hooks : List String} (hnodup : hooks.Nodup)
    (hhooks : ∀ x ∈ hooks, x.toList.head? ≠ some 's' ∧ x.toList.getLast? ≠ some 't') :
    (hooks ++ (s.fields.map Field.name ++ s.methods.map Method.name) ++ changers t s).Nodup ↔
      (changers t s).Nodup ∧ (∀ f ∈ s.fields, f.name ∉ hooks ∧ f.name ∉ changers t s) ∧
        ∀ m ∈ s.methods, m.name ∉ hooks ∧ m.name ∉ changers t s := by
  -- A function that changes a field starts with `set_` or ends with `_mut`.
  have hchangers : ∀ x ∈ hooks, x ∉ changers t s := by
    intro x hx hmem
    obtain ⟨hhead, hlast⟩ := hhooks x hx
    obtain ⟨f, -, rfl | rfl⟩ := exists_field_of_mem_changers hmem
    · simp at hhead
    · simp at hlast
  have hmembers : (s.fields.map Field.name ++ s.methods.map Method.name).Nodup := by
    refine List.nodup_append.2 ⟨hs.fields_nodup, hs.methods_nodup, ?_⟩
    intro x hx y hy hxy
    obtain ⟨f, hf, rfl⟩ := List.mem_map.1 hx
    obtain ⟨m, hm, rfl⟩ := List.mem_map.1 hy
    exact hs.method_ne_field m hm f hf hxy.symm
  rw [List.nodup_append, List.nodup_append]
  constructor
  · rintro ⟨⟨-, -, hhook⟩, hchanger, hapart⟩
    have hplain : ∀ x ∈ s.fields.map Field.name ++ s.methods.map Method.name,
        x ∉ hooks ∧ x ∉ changers t s := by
      intro x hx
      exact ⟨fun h => hhook x h x hx rfl,
        fun h => hapart x (List.mem_append_right hooks hx) x h rfl⟩
    exact ⟨hchanger,
      fun f hf => hplain f.name (List.mem_append_left _ (List.mem_map_of_mem hf)),
      fun m hm => hplain m.name (List.mem_append_right _ (List.mem_map_of_mem hm))⟩
  · rintro ⟨hchanger, hfields, hmethods⟩
    have hplain : ∀ x ∈ s.fields.map Field.name ++ s.methods.map Method.name,
        x ∉ hooks ∧ x ∉ changers t s := by
      intro x hx
      rcases List.mem_append.1 hx with hx | hx
      · obtain ⟨f, hf, rfl⟩ := List.mem_map.1 hx
        exact hfields f hf
      · obtain ⟨m, hm, rfl⟩ := List.mem_map.1 hx
        exact hmethods m hm
    refine ⟨⟨hnodup, hmembers, ?_⟩, hchanger, ?_⟩
    · rintro x hx y hy rfl
      exact (hplain x hy).1 hx
    · rintro x hx y hy rfl
      rcases List.mem_append.1 hx with hx | hx
      · exact hchangers x hx hy
      · exact (hplain x hx).2 hy

/-- The reserved names are distinct when the rules are: no other one starts like theirs. -/
theorem nodup_reserved_iff {fixed : List String} (hnodup : fixed.Nodup)
    (hfixed : ∀ x ∈ fixed, x.toList.take 3 ≠ ['_', '_', 'p']) :
    (fixed ++ s.rules.map fun r => "__policy_" ++ r.name).Nodup ↔
      (s.rules.map Rule.name).Nodup := by
  have hrules : (s.rules.map fun r => "__policy_" ++ r.name) =
      (s.rules.map Rule.name).map ("__policy_" ++ ·) := by
    rw [List.map_map]
    rfl
  have hinjective : Function.Injective ("__policy_" ++ · : String → String) := by
    intro a b h
    simpa [← String.toList_inj] using h
  rw [List.nodup_append, hrules, List.nodup_map_iff hinjective]
  refine ⟨fun h => h.2.1, fun h => ⟨hnodup, h, ?_⟩⟩
  rintro x hx y hy rfl
  obtain ⟨r, -, rfl⟩ := List.mem_map.1 hy
  refine hfixed _ hx ?_
  simp

/-- The functions of a structure, between those with fixed names, are distinct exactly in the cases
of `FunctionsDistinct`. -/
theorem nodup_functions_iff (hs : s.WellFormed t) (hooks before after : List String)
    (hhooks : hooks.Nodup) (hplain : ∀ x ∈ hooks, Name.isReserved x = false)
    (hends : ∀ x ∈ hooks, x.toList.head? ≠ some 's' ∧ x.toList.getLast? ≠ some 't')
    (hfixed : (before ++ after).Nodup)
    (hreserved : ∀ x ∈ before ++ after, Name.isReserved x = true)
    (hrules : ∀ x ∈ before ++ after, x.toList.take 3 ≠ ['_', '_', 'p']) :
    (hooks ++ before ++ (accessorNames t s ++ s.methods.map Method.name ++
      s.rules.map fun r => "__policy_" ++ r.name) ++ after).Nodup ↔
        FunctionsDistinct t hooks s := by
  -- Names that are not reserved come first, which keeps the two halves apart.
  have hperm : (hooks ++ before ++ (accessorNames t s ++ s.methods.map Method.name ++
      s.rules.map fun r => "__policy_" ++ r.name) ++ after).Perm
      ((hooks ++ (s.fields.map Field.name ++ s.methods.map Method.name) ++ changers t s) ++
        (before ++ after ++ s.rules.map fun r => "__policy_" ++ r.name)) := by
    have haccessors : (accessorNames t s).Perm (s.fields.map Field.name ++ changers t s) := by
      rw [accessorNames, changers, List.filterMap_eq_flatMap_toList]
      exact (List.map_append_flatMap_perm _ _ _).symm
    rw [List.perm_iff_count] at haccessors ⊢
    intro x
    have := haccessors x
    simp only [List.count_append] at this ⊢
    omega
  have hapart : ∀ x ∈ hooks ++ (s.fields.map Field.name ++ s.methods.map Method.name) ++
      changers t s, ∀ y ∈ before ++ after ++ s.rules.map fun r => "__policy_" ++ r.name,
        x ≠ y := by
    have hx : ∀ x ∈ hooks ++ (s.fields.map Field.name ++ s.methods.map Method.name) ++
        changers t s, Name.isReserved x = false := by
      intro x hx
      simp only [List.mem_append, List.mem_map] at hx
      rcases hx with (hx | ⟨f, hf, rfl⟩ | ⟨m, hm, rfl⟩) | hx
      · exact hplain x hx
      · exact Name.isReserved_of_memberProblem? (hs.field_names f hf)
      · exact Name.isReserved_of_memberProblem? (hs.method_names m hm)
      · exact isReserved_of_mem_changers hs hx
    have hy : ∀ y ∈ before ++ after ++ s.rules.map fun r => "__policy_" ++ r.name,
        Name.isReserved y = true := by
      intro y hy
      rcases List.mem_append.1 hy with hy | hy
      · exact hreserved y hy
      · obtain ⟨r, -, rfl⟩ := List.mem_map.1 hy
        exact Name.isReserved_iff.2 ⟨_, by simp; rfl⟩
    intro x hxmem y hymem hxy
    simpa [hx x hxmem, hy y hymem] using congrArg Name.isReserved hxy
  rw [hperm.nodup_iff, List.nodup_append, nodup_plain_iff hs hhooks hends,
    nodup_reserved_iff hfixed hrules]
  constructor
  · rintro ⟨⟨hchangers, hfields, hmethods⟩, hrule, -⟩
    exact ⟨hrule, hchangers, hfields, hmethods⟩
  · rintro ⟨hrule, hchangers, hfields, hmethods⟩
    exact ⟨⟨hchangers, hfields, hmethods⟩, hrule, hapart⟩

/-- The functions with fixed names of records that are not reserved. -/
def recordHooks : List String :=
  ["new", "deindex", "reindex", "invalidate_index", "pump_index_events"]

/-- The functions with fixed names of the document that are not reserved. -/
def documentHooks : List String :=
  ["new"]

/-- The functions of a delta have fixed names, all different. -/
theorem nodup_functionNames_delta (type : String) :
    ∀ c ∈ delta t type s, c.functionNames.Nodup := by
  have hnew : ∀ body, functionName? (shortFunction "pub fn new() -> Self" body) = some "new" := by
    intro body
    rw [shortFunction, nest, functionName?, Text.wordBefore?, String.toList_ofList]
    rfl
  have hshow : ∀ body, functionName? (.nest ("pub fn show(&mut self, __item: &" ++ (type ++
      ", __writer: &mut PrivateLazyDeltaWriter)")) body) = some "show" := by
    have hlead : "pub fn show(&mut self, __item: &" =
      "pub fn " ++ ("show" ++ ("(" ++ "&mut self, __item: &")) := rfl
    intro body
    rw [hlead]
    simp only [String.append_assoc]
    exact functionName?_nest (List.all_eq_true.1 rfl) _ _
  have hhide : ∀ body, functionName? (.nest
      "pub fn hide(&mut self, __writer: &mut PrivateLazyDeltaWriter)" body) = some "hide" := by
    intro body
    rw [nest, functionName?, Text.wordBefore?, String.toList_ofList]
    rfl
  -- There are three functions, and their names differ.
  unfold delta deltaOf
  simp only [String.append_assoc, List.forall_mem_cons, functionNames_struct, functionNames_impl,
    List.filterMap_cons, hnew, hshow, hhide, functionName?_blank, List.filterMap_nil]
  refine ⟨?_, ?_, ?_, ?_, ?_⟩
  · exact List.nodup_nil
  · exact List.nodup_nil
  · exact List.nodup_nil
  · decide
  · simp

theorem nodup_functionNames_message : ∀ c ∈ message t s, c.functionNames.Nodup := by
  have himpl : "impl NtMessage for " = "impl " ++ "NtMessage for " := rfl
  unfold message
  simp only [himpl, String.append_assoc, List.forall_mem_cons, functionNames_struct,
    functionNames_impl, List.filterMap_cons, functionName?_write, functionName?_read,
    functionName?_blank, List.filterMap_nil]
  refine ⟨?_, ?_, ?_, ?_, ?_⟩
  · exact List.nodup_nil
  · exact List.nodup_nil
  · exact List.nodup_nil
  · decide
  · simp

/-- The fixed names of a record that a member may take are those of its hooks. -/
theorem nodup_functionNames_record_iff (hs : s.WellFormed t) :
    (∀ c ∈ record t s, c.functionNames.Nodup) ↔ FunctionsDistinct t recordHooks s := by
  -- What stands before and behind the members is reserved, apart from the hooks.
  have hfunctions := nodup_functions_iff hs recordHooks ["__id", "__set_id"] ["__commit",
    "__revert", "__structurally_equals", "__comparator", "__settle", "__kill"] (by decide)
    (by decide) (by decide) (by decide) (by decide) (by decide)
  have hdelta := nodup_functionNames_delta (t := t) (s := s) (recordType s.name)
  unfold record
  rw [← hfunctions]
  simp only [List.forall_mem_cons, functionNames_struct, functionNames_impl,
    List.filterMap_append, functionNames_accessors hs.field_names,
    functionNames_methods hs.method_names, functionNames_rules hs.rule_names,
    functionNames_stateFunctions, functionNames_indexHooks, functionNames_identityFunctions,
    List.filterMap_cons, List.filterMap_nil, functionName?_line, functionName?_blank,
    functionName?_recordConstructor, functionName?_settle, functionName?_kill, recordHooks,
    List.append_assoc, List.cons_append, List.nil_append]
  constructor
  · rintro ⟨-, -, hnodup, -, -⟩
    exact hnodup
  · intro hnodup
    exact ⟨List.nodup_nil, List.nodup_nil, hnodup, List.nodup_nil, hdelta⟩

/-- The functions for tests are apart from each other and from those with fixed names. -/
theorem nodup_tests {names before after : List String} (hnames : names.Nodup)
    (hfixed : (before ++ after).Nodup)
    (htests : ∀ x ∈ before ++ after, x.toList.take 4 ≠ ['_', '_', 't', 'e']) :
    (before ++ names.map ("__test_" ++ ·) ++ after).Nodup := by
  have hinjective : Function.Injective ("__test_" ++ · : String → String) := by
    intro a b h
    simpa [← String.toList_inj] using h
  have hperm : (before ++ names.map ("__test_" ++ ·) ++ after).Perm
      (before ++ after ++ names.map ("__test_" ++ ·)) := by
    rw [List.append_assoc, List.append_assoc]
    exact List.Perm.append_left _ List.perm_append_comm
  rw [hperm.nodup_iff, List.nodup_append]
  refine ⟨hfixed, (List.nodup_map_iff hinjective).2 hnames, ?_⟩
  rintro x hx y hy rfl
  obtain ⟨name, -, rfl⟩ := List.mem_map.1 hy
  refine htests _ hx ?_
  simp

/-- The reserved names of the functions of the document that stand before those for its tests. -/
def namesBeforeTests : List String :=
  ["__can_create", "__can_invent", "__can_send_while_disconnected", "__config", "__services",
    "__generic_clients", "__transact_construct", "__late_bind", "__get_tests"]

/-- The reserved names of the functions of the document that stand behind those for its tests. -/
def namesAfterTests : List String :=
  ["__run_test", "__commit", "__revert", "__structurally_equals", "__comparator", "__settle"]

/-- The reserved names of the functions of the document. -/
def documentNames (surface : Surface) : List String :=
  namesBeforeTests ++ (surface.tests.map fun x => "__test_" ++ x.name) ++ namesAfterTests

/-- Besides fixed names a document has those of its tests. -/
theorem documentNames_cases {surface : Surface} {x : String} (hx : x ∈ documentNames surface) :
    x ∈ namesBeforeTests ++ namesAfterTests ∨ ∃ name, x = "__test_" ++ name := by
  rw [documentNames, List.mem_append, List.mem_append, List.mem_map] at hx
  rcases hx with (hx | ⟨test, -, rfl⟩) | hx
  · exact .inl (List.mem_append_left _ hx)
  · exact .inr ⟨test.name, rfl⟩
  · exact .inl (List.mem_append_right _ hx)

/-- The names of a document are distinct when those of its tests are. -/
theorem nodup_documentNames {surface : Surface} (h : (surface.tests.map Test.name).Nodup) :
    (documentNames surface).Nodup := by
  have hnames : (surface.tests.map fun x => "__test_" ++ x.name) =
      (surface.tests.map Test.name).map ("__test_" ++ ·) := by
    rw [List.map_map]
    rfl
  rw [documentNames, hnames]
  exact nodup_tests h (by decide) (by decide)

/-- No member has a name that a document keeps for itself. -/
theorem isReserved_of_mem_documentNames {surface : Surface} {x : String}
    (hx : x ∈ documentNames surface) : Name.isReserved x = true := by
  have hfixed : ∀ x ∈ namesBeforeTests ++ namesAfterTests, Name.isReserved x = true := by decide
  rcases documentNames_cases hx with hx | ⟨name, rfl⟩
  · exact hfixed x hx
  · exact Name.isReserved_iff.2 ⟨_, by simp; rfl⟩

/-- No reserved name of the document starts like that of a rule. -/
theorem take_of_mem_documentNames {surface : Surface} {x : String}
    (hx : x ∈ documentNames surface) : x.toList.take 3 ≠ ['_', '_', 'p'] := by
  have hfixed : ∀ x ∈ namesBeforeTests ++ namesAfterTests,
      x.toList.take 3 ≠ ['_', '_', 'p'] := by decide
  rcases documentNames_cases hx with hx | ⟨name, rfl⟩
  · exact hfixed x hx
  · simp

/-- In a document there is only one such name, and its tests have reserved ones. -/
theorem nodup_functionNames_document_iff {surface : Surface} (hs : t.root.WellFormed t)
    (htests : ∀ x ∈ surface.tests, Name.memberProblem? x.name = none)
    (hnodup : (surface.tests.map Test.name).Nodup) :
    (∀ c ∈ document t surface, c.functionNames.Nodup) ↔
      FunctionsDistinct t documentHooks t.root := by
  -- The declared functions stand between running the tests and the functions on the state.
  have hsplit : documentNames surface =
      (namesBeforeTests ++ (surface.tests.map fun x => "__test_" ++ x.name) ++ ["__run_test"]) ++
        ["__commit", "__revert", "__structurally_equals", "__comparator", "__settle"] := by
    rw [List.append_assoc]
    rfl
  have hfixed := nodup_documentNames hnodup
  have hreserved : ∀ x ∈ documentNames surface, Name.isReserved x = true :=
    fun _ => isReserved_of_mem_documentNames
  have hrules : ∀ x ∈ documentNames surface, x.toList.take 3 ≠ ['_', '_', 'p'] :=
    fun _ => take_of_mem_documentNames
  rw [hsplit] at hfixed hreserved hrules
  have hfunctions := nodup_functions_iff hs documentHooks _ _ (by decide) (by decide) (by decide)
    hfixed hreserved hrules
  have hdelta := nodup_functionNames_delta (t := t) (s := t.root) Structure.rootName
  unfold document
  rw [← hfunctions]
  simp only [List.forall_mem_cons, functionNames_struct, functionNames_impl,
    List.filterMap_append, functionNames_accessors hs.field_names,
    functionNames_methods hs.method_names, functionNames_rules hs.rule_names,
    functionNames_stateFunctions, functionNames_tests htests,
    functionNames_predicate "__can_create" (List.all_eq_true.1 rfl),
    functionNames_predicate "__can_invent" (List.all_eq_true.1 rfl),
    functionNames_predicate "__can_send_while_disconnected" (List.all_eq_true.1 rfl),
    functionNames_staticJson "__config" (List.all_eq_true.1 rfl),
    functionNames_staticJson "__services" (List.all_eq_true.1 rfl),
    functionNames_staticJson "__generic_clients" (List.all_eq_true.1 rfl),
    List.filterMap_cons, List.filterMap_nil, functionName?_blank,
    functionName?_documentConstructor, functionName?_settle, functionName?_lateBinding,
    functionName?_constructTransaction, documentHooks, namesBeforeTests,
    List.append_assoc, List.cons_append, List.nil_append]
  constructor
  · rintro ⟨-, -, hnodup, -, -⟩
    exact hnodup
  · intro hnodup
    exact ⟨List.nodup_nil, List.nodup_nil, hnodup, List.nodup_nil, hdelta⟩

/-! ### Members -/

theorem notMem_fields_of_isReserved (hs : s.WellFormed t) {name : String}
    (hname : Name.isReserved name = true) : name ∉ s.fields.map Field.name := by
  intro hmem
  obtain ⟨f, hf, rfl⟩ := List.mem_map.1 hmem
  simp [Name.isReserved_of_memberProblem? (hs.field_names f hf)] at hname

/-- A delta has a member of its own and one for each field that reaches viewers. -/
theorem memberNames_delta (hs : s.WellFormed t) (type : String) :
    (delta t type s).flatMap memberNames =
      "__emitted" :: (syncedFields t s).map (Field.name ∘ SyncedField.field) := by
  have hmembers : ((syncedFields t s).map fun x =>
      Code.line (x.field.name ++ ": " ++ x.deltaType ++ ",")).filterMap memberName? =
      (syncedFields t s).map (Field.name ∘ SyncedField.field) := by
    refine memberNames_map fun x hx => ?_
    have hf : x.field ∈ s.fields := syncedFields_sublist.subset (List.mem_map_of_mem hx)
    rw [String.append_assoc, String.append_assoc]
    exact memberName?_line (Name.isPart_of_memberProblem? (hs.field_names _ hf)) _
  have hemitted : memberName? (.line "__emitted: bool,") = some "__emitted" := by
    rw [memberName?, Text.wordBefore?, String.toList_ofList]
    rfl
  unfold delta deltaOf
  simp only [String.append_assoc, List.flatMap_cons, List.flatMap_nil, memberNames_struct,
    memberNames_impl, List.filterMap_cons, hemitted] at hmembers ⊢
  rw [hmembers]
  simp [memberNames]

/-- A delta has each observed field once. -/
theorem nodup_flatMap_memberNames_delta (hs : s.WellFormed t) (type : String) :
    ((delta t type s).flatMap memberNames).Nodup := by
  have hsublist := (syncedFields_sublist (t := t) (s := s)).map Field.name
  rw [List.map_map] at hsublist
  rw [memberNames_delta hs]
  refine List.nodup_cons.2 ⟨fun h => ?_, hsublist.nodup hs.fields_nodup⟩
  exact notMem_fields_of_isReserved hs (by decide) (hsublist.subset h)

theorem nodup_memberNames_delta (hs : s.WellFormed t) (type : String) :
    ∀ c ∈ delta t type s, c.memberNames.Nodup :=
  (List.nodup_flatMap.1 (nodup_flatMap_memberNames_delta hs type)).1

/-- A message has one member for each field. -/
theorem memberNames_message (hs : s.WellFormed t) :
    (message t s).flatMap memberNames = s.fields.map Field.name := by
  have hmembers : (s.fields.map fun f => Code.line ("pub " ++ f.name ++ ": " ++
      (shapeIn t s f.type).nativeType ++ ",")).filterMap memberName? =
      s.fields.map Field.name := by
    refine memberNames_map fun f hf => ?_
    simp only [String.append_assoc]
    exact memberName?_public (Name.isPart_of_memberProblem? (hs.field_names f hf)) _
  have himpl : "impl NtMessage for " = "impl " ++ "NtMessage for " := rfl
  unfold message
  simp only [himpl, String.append_assoc, List.flatMap_cons, List.flatMap_nil, memberNames_struct,
    memberNames_impl] at hmembers ⊢
  rw [hmembers]
  simp [memberNames]

/-- A message has each of its fields once. -/
theorem nodup_memberNames_message (hs : s.WellFormed t) :
    ∀ c ∈ message t s, c.memberNames.Nodup := by
  have hnodup : ((message t s).flatMap memberNames).Nodup := by
    rw [memberNames_message hs]
    exact hs.fields_nodup
  exact (List.nodup_flatMap.1 hnodup).1

/-- A record has a member for each index, named by the field, so a field indexed twice gives the
same member twice. -/
theorem nodup_memberNames_record_iff (hs : s.WellFormed t) :
    (∀ c ∈ record t s, c.memberNames.Nodup) ↔ (s.indices.map Index.field).Nodup := by
  have howner : memberName? (.line "__owner: Owner,") = some "__owner" := by
    rw [memberName?, Text.wordBefore?, String.toList_ofList]
    rfl
  have hcolumns : ∀ type : String, ((indexColumns t s).map fun c => Code.line (indexMember c ++
      ": Option<IndexInvalidate<" ++ type ++ ">>,")).filterMap memberName? =
      (s.indices.map Index.field).map ("__index_" ++ ·) := by
    intro type
    rw [← map_field_indexColumns hs, List.map_map]
    refine memberNames_map fun c hc => ?_
    have hfield : c.field ∈ s.indices.map Index.field := by
      rw [← map_field_indexColumns hs]
      exact List.mem_map_of_mem hc
    obtain ⟨i, hi, hname⟩ := List.mem_map.1 hfield
    obtain ⟨f, hf, hfname, -⟩ := hs.indices i hi
    have hpart := Name.isPart_of_memberProblem? (hs.field_names f hf)
    rw [hfname, hname] at hpart
    have hopen : ": Option<IndexInvalidate<" = ": " ++ "Option<IndexInvalidate<" := rfl
    rw [hopen, String.append_assoc, String.append_assoc, String.append_assoc]
    exact memberName?_line (Name.isPart_append (List.all_eq_true.1 rfl) hpart) _
  have hinjective : Function.Injective ("__index_" ++ · : String → String) := by
    intro a b h
    simpa [← String.toList_inj] using h
  -- What is added to the fields is reserved.
  have hreserved : ∀ x ∈ (s.indices.map Index.field).map ("__index_" ++ ·),
      Name.isReserved x = true := by
    intro x hx
    obtain ⟨name, -, rfl⟩ := List.mem_map.1 hx
    exact Name.isReserved_iff.2 ⟨_, by simp; rfl⟩
  have howner' : "__owner" ∉ s.fields.map Field.name ++
      (s.indices.map Index.field).map ("__index_" ++ ·) := by
    rw [List.mem_append, not_or]
    refine ⟨notMem_fields_of_isReserved hs (by decide), fun h => ?_⟩
    obtain ⟨name, -, hname⟩ := List.mem_map.1 h
    simp [← String.toList_inj] at hname
  have hdelta := nodup_memberNames_delta hs (recordType s.name)
  unfold record
  simp only [List.forall_mem_cons, List.cons_append, List.nil_append, memberNames_struct,
    memberNames_impl, List.filterMap_cons, List.filterMap_append, howner,
    memberNames_storage hs.field_names, hcolumns]
  constructor
  · rintro ⟨hnodup, -⟩
    have hindices := (List.nodup_append.1 (List.nodup_cons.1 hnodup).2).2.1
    exact (List.nodup_map_iff hinjective).1 hindices
  · intro hnodup
    refine ⟨List.nodup_cons.2 ⟨howner', List.nodup_append.2 ⟨hs.fields_nodup,
      (List.nodup_map_iff hinjective).2 hnodup, ?_⟩⟩, List.nodup_nil, List.nodup_nil,
      List.nodup_nil, hdelta⟩
    rintro x hx y hy rfl
    exact notMem_fields_of_isReserved hs (hreserved x hy) hx

/-- A document has a member for each field and no others but reserved ones. -/
theorem nodup_memberNames_document (hs : t.root.WellFormed t) (surface : Surface) :
    ∀ c ∈ document t surface, c.memberNames.Nodup := by
  have hfixed : ([.line "__owner: Owner,", .line "__space: String,",
      .line "__key: String,"] : List Code).filterMap memberName? =
      ["__owner", "__space", "__key"] := by
    simp only [List.filterMap_cons, memberName?, Text.wordBefore?]
    rfl
  -- What the document adds to its fields is reserved.
  have hnodup : (["__owner", "__space", "__key"] ++ t.root.fields.map Field.name).Nodup := by
    refine List.nodup_append.2 ⟨by decide, hs.fields_nodup, ?_⟩
    have hreserved : ∀ x ∈ ["__owner", "__space", "__key"], Name.isReserved x = true := by decide
    rintro x hx y hy rfl
    exact notMem_fields_of_isReserved hs (hreserved x hx) hy
  have hdelta := nodup_memberNames_delta hs Structure.rootName
  unfold document
  dsimp only
  rw [List.forall_mem_append]
  simp only [List.forall_mem_cons, memberNames_struct, memberNames_impl, List.filterMap_append,
    hfixed, memberNames_storage hs.field_names]
  exact ⟨⟨hnodup, List.nodup_nil, List.nodup_nil, List.nodup_nil, by simp⟩, hdelta⟩

/-! ### Structures -/

/-- The code of the structures of a unit: all but its header and its exports. -/
def structuresCode (t : Table) (surface : Surface) : List Code :=
  t.messages.flatMap (fun s => message t s ++ [.blank]) ++
    (orderedRecords t).flatMap (fun s => record t s ++ [.blank]) ++ document t surface

theorem unitCode_eq (t : Table) (surface : Surface) (unitName : String) :
    unitCode t surface unitName =
      header unitName ++ structuresCode t surface ++ .blank :: exports unitName surface := by
  simp only [unitCode, structuresCode, List.append_assoc, List.cons_append, List.nil_append]

/-- A property of each piece of the code of structures, told by messages, records and the
document. -/
theorem forall_mem_structuresCode_iff {surface : Surface} {p : Code → Prop} (hblank : p .blank) :
    (∀ c ∈ structuresCode t surface, p c) ↔
      (∀ s ∈ t.messages, ∀ c ∈ message t s, p c) ∧
        (∀ s ∈ orderedRecords t, ∀ c ∈ record t s, p c) ∧ ∀ c ∈ document t surface, p c := by
  have hblocks : ∀ (ss : List (Structure Node)) (code : Structure Node → List Code),
      (∀ c ∈ ss.flatMap fun s => code s ++ [.blank], p c) ↔ ∀ s ∈ ss, ∀ c ∈ code s, p c := by
    intro ss code
    rw [List.forall_mem_flatMap]
    refine forall₂_congr fun s _ => ?_
    rw [List.forall_mem_append, List.forall_mem_singleton, and_iff_left hblank]
  rw [structuresCode, List.forall_mem_append, List.forall_mem_append, hblocks, hblocks, and_assoc]

/-- What keeps the structures of a unit apart. -/
structure StructuresDistinct (t : Table) : Prop where
  messages : (t.messages.map Structure.name).Nodup
  records : ((orderedRecords t).map Structure.name).Nodup
  deltas : ∀ r ∈ orderedRecords t, ∀ s ∈ orderedRecords t, r.name ≠ s.name ++ "Delta"

/-- Messages come first, then each record with its delta, and the document last. -/
theorem structNames_structuresCode (t : Table) (surface : Surface) :
    (structuresCode t surface).filterMap Code.structName? =
      (t.messages.map Structure.name).map messageType ++
        ((orderedRecords t).map Structure.name).flatMap
          (fun name => [recordType name, recordType name ++ "Delta"]) ++
        [Structure.rootName, Structure.rootName ++ "Delta"] := by
  unfold structuresCode
  simp only [List.filterMap_append, List.filterMap_flatMap, structNames_message,
    structNames_record, structNames_document, List.filterMap_cons, List.filterMap_nil,
    structName?_blank, List.append_nil, List.map_map, List.flatMap_map]
  rw [List.map_eq_flatMap]
  rfl

/-- No structure is defined twice unless two messages or two records share a name, or a record has
the name of another one's delta. -/
theorem nodup_structNames_iff (t : Table) (surface : Surface) :
    ((structuresCode t surface).filterMap Code.structName?).Nodup ↔ StructuresDistinct t := by
  have hmessage : Function.Injective messageType := by
    intro a b h
    simpa [messageType, ← String.toList_inj] using h
  have hrecord : Function.Injective recordType := by
    intro a b h
    simpa [recordType, ← String.toList_inj] using h
  have hdelta : Function.Injective (recordType · ++ "Delta") := by
    intro a b h
    simpa [recordType, ← String.toList_inj] using h
  have hroot : ∀ x ∈ [Structure.rootName, Structure.rootName ++ "Delta"],
      x.toList.head? = some 'L' := by decide
  rw [structNames_structuresCode]
  generalize hms : t.messages.map Structure.name = ms
  generalize hrs : (orderedRecords t).map Structure.name = rs
  -- The records come before all deltas up to the order of the list.
  have hperm : (rs.flatMap fun name => [recordType name, recordType name ++ "Delta"]).Perm
      (rs.map recordType ++ rs.map (recordType · ++ "Delta")) := by
    have := (List.map_append_flatMap_perm rs recordType fun n => [recordType n ++ "Delta"]).symm
    rwa [← List.map_eq_flatMap] at this
  have hrecords : (rs.flatMap fun name => [recordType name, recordType name ++ "Delta"]).Nodup ↔
      rs.Nodup ∧ ∀ r ∈ rs, ∀ s ∈ rs, r ≠ s ++ "Delta" := by
    have hne : ∀ r s, recordType r ≠ recordType s ++ "Delta" ↔ r ≠ s ++ "Delta" := by
      intro r s
      rw [show recordType s ++ "Delta" = recordType (s ++ "Delta") from String.append_assoc ..,
        hrecord.ne_iff]
    rw [hperm.nodup_iff, List.nodup_append, List.nodup_map_iff hrecord, List.nodup_map_iff hdelta]
    simp only [List.forall_mem_map, hne]
    exact ⟨fun ⟨hnodup, _, hne⟩ => ⟨hnodup, hne⟩, fun ⟨hnodup, hne⟩ => ⟨hnodup, hnodup, hne⟩⟩
  -- Messages, records and the document start with letters of their own.
  have hmessages : ∀ x ∈ ms.map messageType, x.toList.head? = some 'M' := by
    intro x hx
    obtain ⟨name, -, rfl⟩ := List.mem_map.1 hx
    simp [messageType]
  have htypes : ∀ x ∈ rs.flatMap fun name => [recordType name, recordType name ++ "Delta"],
      x.toList.head? = some 'R' := by
    intro x hx
    obtain ⟨name, -, hx⟩ := List.mem_flatMap.1 hx
    rcases List.mem_pair.1 hx with rfl | rfl <;> simp [recordType]
  rw [List.nodup_append, List.nodup_append, List.nodup_map_iff hmessage, hrecords]
  constructor
  · rintro ⟨⟨hmessages, ⟨hrecords, hdeltas⟩, -⟩, -⟩
    subst hms hrs
    exact ⟨hmessages, hrecords, by simpa only [List.forall_mem_map] using hdeltas⟩
  · rintro ⟨hm, hr, hd⟩
    have hdeltas : ∀ r ∈ rs, ∀ s ∈ rs, r ≠ s ++ "Delta" := by
      subst hrs
      simpa only [List.forall_mem_map] using hd
    refine ⟨⟨hms ▸ hm, ⟨hrs ▸ hr, hdeltas⟩, ?_⟩, by decide, ?_⟩
    · rintro x hx y hy rfl
      simpa [hmessages x hx] using htypes x hy
    · rintro x hx y hy rfl
      rcases List.mem_append.1 hx with hx | hx
      · simpa [hmessages x hx] using hroot x hy
      · simpa [htypes x hx] using hroot x hy

end Target

namespace Declarations

/-- **When the definitions of a unit are distinct.** A deployable space has a unit. No two of its
structures have one name exactly when `Target.StructuresDistinct` holds, no structure has two
members of one name exactly when no record has two indices on one field, and no implementation has
two functions of one name exactly when `Target.FunctionsDistinct` holds of each record and of the
document. With an alias that contains itself no unit is ever finished (`spelling_ends_iff`); what
the theorem says of such a space, it says of the definitions in which the alias is cut off. -/
theorem definitions_distinct_iff (d : Declarations) (h : d.check.isDeployable = true) :
    ∃ unit, d.generate = .ok unit ∧
      unit.source = Code.source (Target.header d.unitName ++
        Target.structuresCode d.check.table d.surface ++
          .blank :: Target.exports d.unitName d.surface) ∧
      (((Target.structuresCode d.check.table d.surface).filterMap Code.structName?).Nodup ↔
        Target.StructuresDistinct d.check.table) ∧
      ((∀ c ∈ Target.structuresCode d.check.table d.surface, c.memberNames.Nodup) ↔
        ∀ s ∈ Target.orderedRecords d.check.table, (s.indices.map Index.field).Nodup) ∧
      ((∀ c ∈ Target.structuresCode d.check.table d.surface, c.functionNames.Nodup) ↔
        (∀ s ∈ Target.orderedRecords d.check.table,
          Target.FunctionsDistinct d.check.table Target.recordHooks s) ∧
        Target.FunctionsDistinct d.check.table Target.documentHooks d.check.table.root) := by
  have hoccurs := (wellFormed_of_isDeployable h).structures
  obtain ⟨-, htests, hnodup⟩ := names_of_isDeployable h
  -- All that is emitted was checked.
  have hmessages : ∀ s ∈ d.check.table.messages, s.WellFormed d.check.table := fun s hs =>
    hoccurs s (Target.occurs_of_mem_emitted (List.mem_append_left _ (List.mem_append_left _ hs)))
  have hrecords : ∀ s ∈ Target.orderedRecords d.check.table, s.WellFormed d.check.table :=
    fun s hs => hoccurs s
      (Target.occurs_of_mem_emitted (List.mem_append_left _ (List.mem_append_right _ hs)))
  have hroot : d.check.table.root.WellFormed d.check.table := hoccurs _ .root
  refine ⟨_, generate_eq_ok h, ?_, Target.nodup_structNames_iff _ _, ?_, ?_⟩
  · rw [Target.unitCode_eq]
  · rw [Target.forall_mem_structuresCode_iff List.nodup_nil]
    constructor
    · rintro ⟨-, hall, -⟩ s hs
      exact (Target.nodup_memberNames_record_iff (hrecords s hs)).1 (hall s hs)
    · intro hindices
      exact ⟨fun s hs => Target.nodup_memberNames_message (hmessages s hs),
        fun s hs => (Target.nodup_memberNames_record_iff (hrecords s hs)).2 (hindices s hs),
        Target.nodup_memberNames_document hroot _⟩
  · rw [Target.forall_mem_structuresCode_iff List.nodup_nil,
      Target.nodup_functionNames_document_iff hroot htests hnodup]
    constructor
    · rintro ⟨-, hall, hdocument⟩
      exact ⟨fun s hs => (Target.nodup_functionNames_record_iff (hrecords s hs)).1 (hall s hs),
        hdocument⟩
    · rintro ⟨hdistinct, hdocument⟩
      exact ⟨fun s _ => Target.nodup_functionNames_message,
        fun s hs => (Target.nodup_functionNames_record_iff (hrecords s hs)).2 (hdistinct s hs),
        hdocument⟩

/-- The document has the fields `x` and `set_x`, the record `A` two indices on one field, and a
second record the name of the delta of `A`. -/
def clashing : Declarations where
  space := "s"
  records :=
    [{ name := "A", fields := [{ name := "id", type := .ofScalar .int }],
       indices := [{ field := "id" }, { field := "id" }] },
     { name := "ADelta", fields := [{ name := "id", type := .ofScalar .int }] }]
  root :=
    { name := Structure.rootName, role := .root,
      fields :=
        [{ name := "x", type := .ofScalar .int }, { name := "set_x", type := .ofScalar .int }] }

/-- Clashing names are deployable. -/
theorem clashing_definitions :
    clashing.check.isDeployable = true ∧
      ¬ ((Target.structuresCode clashing.check.table clashing.surface).filterMap
        Code.structName?).Nodup ∧
      (∃ c ∈ Target.structuresCode clashing.check.table clashing.surface, ¬ c.memberNames.Nodup) ∧
      ∃ c ∈ Target.structuresCode clashing.check.table clashing.surface,
        ¬ c.functionNames.Nodup := by
  have h : clashing.check.isDeployable = true :=
    isDeployable_of_isEmpty (by decide) (by decide +kernel) (by cbv)
  have htable : clashing.check.table = clashing.table (by decide) := table_draft _
  have hordered : ∀ r ∈ clashing.records, r ∈ Target.orderedRecords clashing.check.table := by
    intro r hr
    rw [htable, Target.mem_orderedRecords_iff]
    simp only [clashing, List.mem_cons, List.not_mem_nil, or_false] at hr
    rcases hr with rfl | rfl
    · exact ⟨"A", rfl, rfl, _, List.mem_cons_self, rfl⟩
    · exact ⟨"ADelta", rfl, rfl, _, List.mem_cons_of_mem _ List.mem_cons_self, rfl⟩
  have hfirst := hordered _ List.mem_cons_self
  have hsecond := hordered _ (List.mem_cons_of_mem _ List.mem_cons_self)
  have hset : "set_x" ∈ Target.changers clashing.check.table clashing.check.table.root := by
    rw [htable]
    exact List.mem_cons_self
  obtain ⟨_, -, -, hstructs, hmembers, hfunctions⟩ := definitions_distinct_iff clashing h
  refine ⟨h, ?_, ?_, ?_⟩
  · -- The record has the name of the delta of the other one.
    rw [hstructs]
    intro hdistinct
    exact hdistinct.deltas _ hsecond _ hfirst rfl
  · -- A field of the first record is indexed twice.
    by_contra! hall
    exact absurd (hmembers.1 hall _ hfirst) (by decide)
  · by_contra! hall
    -- A field has the name of the function that changes another one.
    have hfield : { name := "set_x", type := .ofScalar .int } ∈
        clashing.check.table.root.fields := by
      rw [htable]
      exact List.mem_cons_of_mem _ List.mem_cons_self
    exact ((hfunctions.1 hall).2.fields _ hfield).2 hset

end Declarations

end ReactiveSpace
