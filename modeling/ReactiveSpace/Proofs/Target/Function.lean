import ReactiveSpace.Proofs.Target.Distinct
import ReactiveSpace.Proofs.Target.Phrases
import ReactiveSpace.Proofs.Text.Template

/-!
# Reading functions off code

`Code.implementation` is what stands in the implementations of a type, `Code.function` what stands
in the functions of a name there, and `Code.fillings` the names that lines and headers fill into a
template. All functions of a name count, so a second one would show. In a well-formed structure
nothing of the user takes the name of a function on the state: the members of the user have no
reserved names, and rules and tests have their own lead-in.
-/

namespace ReactiveSpace

namespace Code

/-- What a block is around. -/
def inside : Code → List Code
  | .block _ body _ => body
  | _ => []

/-- Whether a piece of code is an implementation of a type, or of a trait for a type. -/
def isImplementation (owner : String) : Code → Bool
  | .block header _ _ => header == "impl " ++ owner
  | _ => false

/-- What stands in the implementations of a type, or of a trait for a type. -/
def implementation (owner : String) (code : List Code) : List Code :=
  (code.filter (isImplementation owner)).flatMap inside

/-- What stands in the functions of a name. -/
def function (name : String) (code : List Code) : List Code :=
  (code.filter fun c => functionName? c == some name).flatMap inside

/-- What lines and headers fill into a template, in order. -/
def fillings (T : Text.Template) (code : List Code) : List (List String) :=
  (textsOf code).filterMap T.read?

variable {owner name : String} {T : Text.Template}

@[simp] theorem inside_nest (header : String) (body : List Code) :
    inside (.nest header body) = body := rfl

@[simp] theorem implementation_nil : implementation owner [] = [] := rfl

@[simp] theorem implementation_append (first second : List Code) :
    implementation owner (first ++ second) =
      implementation owner first ++ implementation owner second := by
  simp [implementation]

@[simp] theorem implementation_blank (code : List Code) :
    implementation owner (.blank :: code) = implementation owner code := rfl

@[simp] theorem implementation_line (text : String) (code : List Code) :
    implementation owner (.line text :: code) = implementation owner code := rfl

@[simp] theorem implementation_concat_blank (code : List Code) :
    implementation owner (code ++ [.blank]) = implementation owner code := by
  rw [implementation_append]
  exact List.append_nil _

@[simp] theorem implementation_struct (type : String) (body code : List Code) :
    implementation owner (.nest ("pub struct " ++ type) body :: code) =
      implementation owner code := by
  have hheader : isImplementation owner (.nest ("pub struct " ++ type) body) = false := by
    simp [isImplementation, nest, ← String.toList_inj]
  rw [implementation, List.filter_cons_of_neg (by simp [hheader]), implementation]

/-- An implementation counts if it is one of the type, whatever else it is written for. -/
@[simp] theorem implementation_impl (type : String) (body code : List Code) :
    implementation owner (.nest ("impl " ++ type) body :: code) =
      (if type = owner then body else []) ++ implementation owner code := by
  have hheader : isImplementation owner (.nest ("impl " ++ type) body) = true ↔ type = owner := by
    simp [isImplementation, nest, ← String.toList_inj]
  by_cases htype : type = owner
  · rw [implementation, List.filter_cons_of_pos (hheader.2 htype), List.flatMap_cons, if_pos htype]
    rfl
  · rw [implementation, List.filter_cons_of_neg (mt hheader.1 htype), if_neg htype]
    rfl

@[simp] theorem function_nil : function name [] = [] := rfl

@[simp] theorem function_append (first second : List Code) :
    function name (first ++ second) = function name first ++ function name second := by
  simp [function]

/-- Where no function has the name, nothing is collected. -/
theorem function_eq_nil {code : List Code} (h : name ∉ code.filterMap functionName?) :
    function name code = [] := by
  have hnone : (code.filter fun c => functionName? c == some name) = [] := by
    refine List.filter_eq_nil_iff.2 fun c hc hname => h ?_
    exact List.mem_filterMap.2 ⟨c, hc, by simpa using hname⟩
  rw [function, hnone, List.flatMap_nil]

theorem function_cons (c : Code) (code : List Code) :
    function name (c :: code) =
      (if functionName? c = some name then inside c else []) ++ function name code := by
  by_cases hc : functionName? c = some name <;> simp [function, hc]

/-- Code that has none of some functions has nothing in any of them. -/
theorem function_other {names : List String} (hname : name ∈ names) {code : List Code}
    (h : ∀ x ∈ code.filterMap functionName?, x ∉ names) : function name code = [] :=
  function_eq_nil fun hmem => h name hmem hname

/-- Where functions have distinct names, what stands in those of a name stands in one. -/
theorem function_of_mem {c : Code} {code : List Code}
    (hdistinct : (code.filterMap functionName?).Nodup) (hc : c ∈ code)
    (hname : functionName? c = some name) : function name code = inside c := by
  obtain ⟨before, after, rfl⟩ := List.append_of_mem hc
  rw [List.filterMap_append, List.filterMap_cons_some hname, List.nodup_middle,
    List.nodup_cons, List.mem_append, not_or] at hdistinct
  rw [function_append, function_cons, if_pos hname, function_eq_nil hdistinct.1.1,
    function_eq_nil hdistinct.1.2, List.nil_append, List.append_nil]

@[simp] theorem fillings_append (first second : List Code) :
    fillings T (first ++ second) = fillings T first ++ fillings T second := by
  simp [fillings]

@[simp] theorem fillings_nil : fillings T [] = [] := rfl

@[simp] theorem fillings_blank (code : List Code) :
    fillings T (.blank :: code) = fillings T code := rfl

@[simp] theorem fillings_line (text : String) (code : List Code) :
    fillings T (.line text :: code) = (T.read? text).toList ++ fillings T code := by
  cases h : T.read? text <;> simp [fillings, h]

/-- In a block the header may fill the template, what stands in the block and, since it is a text as
well, the suffix. -/
@[simp] theorem fillings_nest (header : String) (body code : List Code) :
    fillings T (.nest header body :: code) =
      (T.read? header).toList ++ fillings T body ++ (T.read? "").toList ++ fillings T code := by
  cases hheader : T.read? header <;> cases hsuffix : T.read? "" <;>
    simp [fillings, nest, hheader, hsuffix]

theorem fillings_lines {α : Type} {l : List α} {line : α → String} {filling : α → List String}
    (h : ∀ x ∈ l, T.read? (line x) = some (filling x)) :
    fillings T (l.map fun x => .line (line x)) = l.map filling := by
  rw [fillings, textsOf_lines, List.filterMap_map, ← List.filterMap_eq_map]
  exact List.filterMap_congr h

end Code

namespace Target

open Code

variable {t : Table} {s : Structure Node} {name : String}

/-- The delta of a type is a type of its own, so it is no implementation of the type. -/
theorem implementation_delta (type : String) : implementation type (delta t type s) = [] := by
  have htype : type ++ "Delta" ≠ type := by
    intro h
    simpa using congrArg String.length h
  unfold delta deltaOf
  simp only [String.append_assoc, implementation_line, implementation_struct, implementation_blank,
    implementation_impl, if_neg htype, List.nil_append]
  rfl

/-- A function that changes a field has one line, and its header has a name of its own. -/
theorem exists_of_setter? {f : Field Node} {code : Code} (h : setter? t s f = some code) :
    ∃ header body name rest, code = shortFunction header body ∧
      header.toList = "pub fn ".toList ++ (name.toList ++ ("(&mut self".toList ++ rest)) ∧
      (name = "set_" ++ f.name ∨ name = f.name ++ "_mut") := by
  unfold setter? at h
  dsimp only at h
  split at h
  · cases h
  split at h
  · exact ⟨_, _, "set_" ++ f.name,
      (", value: " ++ (shapeIn t s f.type).nativeType ++ ")").toList, (Option.some.inj h).symm,
      by simp, .inl rfl⟩
  · split at h
    · cases h
    · exact ⟨_, _, f.name ++ "_mut", (") -> &mut " ++ (shapeIn t s f.type).runtimeType).toList,
        (Option.some.inj h).symm, by simp, .inr rfl⟩
  · cases h
  · cases h

/-- The functions on the state of a structure. -/
def stateNames : List String :=
  ["__commit", "__revert", "__structurally_equals", "__comparator"]

/-- What is declared takes no name of a function on the state. -/
theorem function_declared (hs : s.WellFormed t) (hname : name ∈ stateNames) :
    function name (accessors t s ++ methods t s ++ rules s) = [] := by
  -- Members have no reserved names. Rules have, but with a lead-in of their own.
  have hreserved : ∀ x ∈ stateNames, Name.isReserved x = true := by decide
  have hlead : ∀ x ∈ stateNames, x.toList.take 3 ≠ ['_', '_', 'p'] := by decide
  have hplain : ∀ x, Name.isReserved x = false → x ≠ name := by
    rintro x hx rfl
    simp [hreserved _ hname] at hx
  refine function_eq_nil fun hmem => ?_
  rw [List.filterMap_append, List.filterMap_append, functionNames_accessors hs.field_names,
    functionNames_methods hs.method_names, functionNames_rules hs.rule_names] at hmem
  simp only [accessorNames, List.mem_append, List.mem_flatMap, List.mem_cons, List.mem_map,
    Option.mem_toList] at hmem
  rcases hmem with (⟨f, hf, hname | hchanger⟩ | ⟨m, hm, hname⟩) | ⟨r, hr, rfl⟩
  · exact hplain _ (Name.isReserved_of_memberProblem? (hs.field_names f hf)) hname.symm
  · exact hplain _ (isReserved_of_mem_changers hs (List.mem_filterMap.2 ⟨f, hf, hchanger⟩)) rfl
  · exact hplain _ (Name.isReserved_of_memberProblem? (hs.method_names m hm)) hname
  · exact hlead _ hname (by simp)

theorem implementation_record (t : Table) (s : Structure Node) :
    implementation (recordType s.name) (record t s) =
      [line ("pub const __ID_FIELD: usize = " ++ Decimal.digitText (idSlot s) ++ ";"),
        line ("pub const __INDEX_COLUMNS: usize = " ++
          Decimal.digitText (indexColumns t s).length ++ ";"),
        blank,
        recordConstructor t s (indexColumns t s),
        blank] ++
        indexHooks (indexColumns t s) ++ [blank] ++
        identityFunctions ++ [blank] ++
        accessors t s ++ methods t s ++ rules s ++
        stateFunctions t s ++ [blank] ++
        [settle t s, blank, kill t s] := by
  unfold record
  simp only [implementation_append, implementation_struct, implementation_blank,
    implementation_impl, implementation_delta, implementation_nil, if_pos, List.append_nil]

/-- The functions of a record are among its parts. -/
theorem function_implementation_record :
    function name (implementation (recordType s.name) (record t s)) =
      function name [recordConstructor t s (indexColumns t s)] ++
        function name (indexHooks (indexColumns t s)) ++
        function name identityFunctions ++
        function name (accessors t s ++ methods t s ++ rules s) ++
        function name (stateFunctions t s) ++
        function name [settle t s, .blank, kill t s] := by
  have hconstructor : ∀ idField columns : String, function name [.line idField, .line columns,
      .blank, recordConstructor t s (indexColumns t s), .blank] =
      function name [recordConstructor t s (indexColumns t s)] := by
    intro idField columns
    simp [function_cons, functionName?_line, functionName?_blank]
  have hblank : function name [.blank] = [] := rfl
  rw [implementation_record]
  simp only [function_append, hconstructor, hblank, List.append_nil]
  simp only [List.append_assoc]

/-- A function on the state of a record is found where these functions are. -/
theorem function_record (hs : s.WellFormed t) (hname : name ∈ stateNames) :
    function name (implementation (recordType s.name) (record t s)) =
      function name (stateFunctions t s) := by
  have hconstructor : function name [recordConstructor t s (indexColumns t s)] = [] := by
    refine function_other hname ?_
    simp only [List.filterMap_cons, List.filterMap_nil, functionName?_recordConstructor]
    decide
  have hhooks : function name (indexHooks (indexColumns t s)) = [] := by
    refine function_other hname ?_
    rw [functionNames_indexHooks]
    decide
  -- Each of the other parts of a record has functions of other names.
  have hidentity : function name identityFunctions = [] := by
    refine function_other hname ?_
    rw [functionNames_identityFunctions]
    decide
  have hsettle : function name [settle t s, .blank, kill t s] = [] := by
    refine function_other hname ?_
    simp only [List.filterMap_cons, List.filterMap_nil, functionName?_blank, functionName?_settle,
      functionName?_kill]
    decide
  rw [function_implementation_record, hconstructor, hhooks, hidentity, function_declared hs hname,
    hsettle]
  -- Not by `simp`, which would have the code in front unfolded once more for `[] ++ _`.
  simp only [List.append_nil]
  rw [List.nil_append]

theorem implementation_document (t : Table) (surface : Surface) :
    implementation Structure.rootName (document t surface) =
      [documentConstructor t, blank] ++
        predicate "__can_create" surface.predicates.canCreate ++
        predicate "__can_invent" surface.predicates.canInvent ++
        predicate "__can_send_while_disconnected" surface.predicates.canSendWhileDisconnected ++
        staticJson "__config" surface.configJson ++
        staticJson "__services" surface.servicesJson ++
        staticJson "__generic_clients" surface.clientsJson ++
        [constructTransaction surface.constructor, blank, lateBinding, blank] ++
        tests surface ++
        accessors t t.root ++ methods t t.root ++ rules t.root ++
        stateFunctions t t.root ++ [blank] ++
        [settle t t.root] := by
  unfold document
  simp only [implementation_append, implementation_struct, implementation_blank,
    implementation_impl, implementation_delta, implementation_nil, if_pos, List.append_nil]

/-- A function on the state of the document is found where these functions are. -/
theorem function_document (hs : t.root.WellFormed t) {surface : Surface}
    (htests : ∀ x ∈ surface.tests, Name.memberProblem? x.name = none) (hname : name ∈ stateNames) :
    function name (implementation Structure.rootName (document t surface)) =
      function name (stateFunctions t t.root) := by
  -- Whatever else stands in the document has other names, so that nothing is found in it.
  have hdeclared := function_declared hs hname
  have hconstructor : function name [documentConstructor t, .blank] = [] := by
    refine function_other hname ?_
    simp only [List.filterMap_cons, List.filterMap_nil, functionName?_blank,
      functionName?_documentConstructor]
    decide
  have hpredicate : ∀ x body, (∀ c ∈ x.toList, Name.isPart c = true) → x ∉ stateNames →
      function name (predicate x body) = [] := by
    intro x body hpart hx
    refine function_other hname ?_
    rw [functionNames_predicate x hpart]
    simpa using hx
  have hjson : ∀ x value, (∀ c ∈ x.toList, Name.isPart c = true) → x ∉ stateNames →
      function name (staticJson x value) = [] := by
    intro x value hpart hx
    refine function_other hname ?_
    rw [functionNames_staticJson x hpart]
    simpa using hx
  have htransact : ∀ body, function name [constructTransaction body, .blank, lateBinding,
      .blank] = [] := by
    intro body
    refine function_other hname ?_
    simp only [List.filterMap_cons, List.filterMap_nil, functionName?_blank,
      functionName?_constructTransaction, functionName?_lateBinding]
    decide
  have htest : function name (tests surface) = [] := by
    refine function_other hname ?_
    -- The name of a test begins as that of no function on the state does.
    have hlead : ∀ x ∈ stateNames, x.toList.take 3 ≠ ['_', '_', 't'] := by decide
    rw [functionNames_tests htests]
    simp only [List.cons_append, List.mem_cons, List.mem_append, List.mem_map]
    rintro x (rfl | ⟨test, -, rfl⟩ | rfl | hnil)
    · decide
    · exact fun hmem => hlead _ hmem (by simp)
    · decide
    · cases hnil
  have hsettle : function name [settle t t.root] = [] := by
    refine function_other hname ?_
    simp only [List.filterMap_cons, List.filterMap_nil, functionName?_settle]
    decide
  have hblank : function name [.blank] = [] := rfl
  rw [function_append, function_append, List.append_eq_nil_iff, List.append_eq_nil_iff] at hdeclared
  rw [implementation_document]
  simp only [function_append]
  rw [hconstructor, htransact, htest, hsettle, hblank, hdeclared.1.1, hdeclared.1.2, hdeclared.2,
    hpredicate "__can_create" _ (List.all_eq_true.1 rfl) (by decide),
    hpredicate "__can_invent" _ (List.all_eq_true.1 rfl) (by decide),
    hpredicate "__can_send_while_disconnected" _ (List.all_eq_true.1 rfl) (by decide),
    hjson "__config" _ (List.all_eq_true.1 rfl) (by decide),
    hjson "__services" _ (List.all_eq_true.1 rfl) (by decide),
    hjson "__generic_clients" _ (List.all_eq_true.1 rfl) (by decide)]
  simp only [List.append_nil]
  rw [List.nil_append]

end Target

end ReactiveSpace
