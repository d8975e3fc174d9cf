import ReactiveSpace.Proofs.Schema.Name
import ReactiveSpace.Proofs.Target.Definitions

/-!
# The names that code defines

A unit defines structures, their members and the functions of implementations. The names of members
and functions are read off the code itself: a name is the identifier before the first colon of a
line, or before the first parenthesis of a header. For each part of the code of a structure, the
lemmas here say which names these are: names of the user behind and before fixed parts, and names
that are fixed as a whole.
-/

namespace ReactiveSpace

/-! ### Reading names off code -/

/-- The identifier right before the first `stop` in a text. -/
def Text.wordBefore? (stop : Char) (text : String) : Option String :=
  if stop ∈ text.toList then
    some (String.ofList ((text.toList.takeWhile (· != stop)).reverse.takeWhile Name.isPart).reverse)
  else none

namespace Code

/-- The name of the function that a piece of code is. -/
def functionName? : Code → Option String
  | .block header _ _ => Text.wordBefore? '(' header
  | _ => none

/-- The names of the functions of an implementation. -/
def functionNames : Code → List String
  | .block header body _ =>
    if "impl ".toList.isPrefixOf header.toList then body.filterMap functionName? else []
  | _ => []

/-- The name of the member that a line is. -/
def memberName? : Code → Option String
  | .line text => Text.wordBefore? ':' text
  | _ => none

/-- The names of the members of a structure. -/
def memberNames : Code → List String
  | .block header body _ =>
    if "pub struct ".toList.isPrefixOf header.toList then body.filterMap memberName? else []
  | _ => []

end Code

namespace Text

/-- The identifier is what stands between a character that is no part of it and the first `stop`. -/
theorem wordBefore?_eq (lead rest : List Char) {stop : Char} {text name : String}
    (htext : text.toList = lead ++ name.toList ++ stop :: rest)
    (hname : ∀ c ∈ name.toList, Name.isPart c = true) (hstop : Name.isPart stop = false)
    (hlead : stop ∉ lead) (hlast : lead.getLast?.all (fun c => !Name.isPart c) = true) :
    wordBefore? stop text = some name := by
  have hbefore : ∀ c ∈ lead ++ name.toList, (c != stop) = true := by
    intro c hc
    rw [bne_iff_ne]
    rintro rfl
    rcases List.mem_append.1 hc with hc | hc
    · exact hlead hc
    · simp [hname c hc] at hstop
  -- Read backwards from the stop, the identifier ends where the lead begins.
  have hnone : lead.reverse.takeWhile Name.isPart = [] := by
    cases hr : lead.reverse with
    | nil => rfl
    | cons c cs =>
      have hc : Name.isPart c = false := by
        rw [List.getLast?_eq_head?_reverse, hr, List.head?_cons] at hlast
        simpa using hlast
      rw [List.takeWhile_cons_of_neg (by simp [hc])]
  have hword : ((lead ++ name.toList).reverse.takeWhile Name.isPart).reverse = name.toList := by
    rw [List.reverse_append, List.takeWhile_append_of_pos (by simpa using hname), hnone,
      List.append_nil, List.reverse_reverse]
  have hmem : stop ∈ text.toList := by simp [htext]
  rw [wordBefore?, if_pos hmem, htext, List.takeWhile_append_of_pos hbefore,
    List.takeWhile_cons_of_neg (by simp), List.append_nil, hword, String.ofList_toList]

end Text

namespace Code

variable {name : String}

theorem memberName?_line (hname : ∀ c ∈ name.toList, Name.isPart c = true) (rest : String) :
    memberName? (.line (name ++ (": " ++ rest))) = some name := by
  refine Text.wordBefore?_eq [] (' ' :: rest.toList) ?_ hname rfl (by simp) rfl
  simp

/-- The word in front of a public member is no part of its name. -/
theorem memberName?_public (hname : ∀ c ∈ name.toList, Name.isPart c = true) (rest : String) :
    memberName? (.line ("pub " ++ (name ++ (": " ++ rest)))) = some name := by
  refine Text.wordBefore?_eq "pub ".toList (' ' :: rest.toList) ?_ hname rfl (by decide) rfl
  simp

theorem memberNames_map {α : Type} {l : List α} {line : α → Code} {name : α → String}
    (h : ∀ x ∈ l, memberName? (line x) = some (name x)) :
    (l.map line).filterMap memberName? = l.map name := by
  rw [List.filterMap_map, ← List.filterMap_eq_map]
  exact List.filterMap_congr h

theorem functionName?_nest (hname : ∀ c ∈ name.toList, Name.isPart c = true) (rest : String)
    (body : List Code) :
    functionName? (.nest ("pub fn " ++ (name ++ ("(" ++ rest))) body) = some name := by
  refine Text.wordBefore?_eq "pub fn ".toList rest.toList ?_ hname rfl (by decide) rfl
  simp

/-- A function is named by its header also if it is not public, which is how tests are written. -/
theorem functionName?_private (hname : ∀ c ∈ name.toList, Name.isPart c = true) (rest : String)
    (body : List Code) :
    functionName? (.nest ("fn " ++ (name ++ ("(" ++ rest))) body) = some name := by
  refine Text.wordBefore?_eq "fn ".toList rest.toList ?_ hname rfl (by decide) rfl
  simp

theorem functionName?_line (text : String) : functionName? (.line text) = none := rfl

theorem functionName?_blank : functionName? .blank = none := rfl

/-- The functions of an implementation are those of the pieces in it. -/
theorem functionNames_impl (name : String) (body : List Code) :
    functionNames (.nest ("impl " ++ name) body) = body.filterMap functionName? := by
  rw [nest, functionNames, String.toList_append, if_pos (by simp)]

theorem functionNames_struct (name : String) (body : List Code) :
    functionNames (.nest ("pub struct " ++ name) body) = [] := by
  rw [nest, functionNames, String.toList_append, if_neg (by simp)]

theorem memberNames_struct (name : String) (body : List Code) :
    memberNames (.nest ("pub struct " ++ name) body) = body.filterMap memberName? := by
  rw [nest, memberNames, String.toList_append, if_pos (by simp)]

theorem memberNames_impl (name : String) (body : List Code) :
    memberNames (.nest ("impl " ++ name) body) = [] := by
  rw [nest, memberNames, String.toList_append, if_neg (by simp)]

end Code

namespace Target

open Code

variable {t : Table} {s : Structure Node} {name : String}

/-! ### Accessors, methods and rules -/

/-- The name of the function that changes a field, if there is one. -/
def changer? (t : Table) (f : Field Node) : Option String :=
  if f.readonly then none
  else
    match (f.type.concrete t).access with
    | .cell => some ("set_" ++ f.name)
    | .object => if (f.type.concrete t).isProjection then none else some (f.name ++ "_mut")
    | .computed | .plain => none

/-- The names of the functions that change fields. -/
def changers (t : Table) (s : Structure Node) : List String :=
  s.fields.filterMap (changer? t)

/-- The names of the accessors, in order. -/
def accessorNames (t : Table) (s : Structure Node) : List String :=
  s.fields.flatMap fun f => f.name :: (changer? t f).toList

/-- A field is read by the function of its own name, whatever its access. -/
theorem functionName?_getter {f : Field Node} (hf : Name.memberProblem? f.name = none) :
    functionName? (getter t s f) = some f.name := by
  have hopen : "(&self) -> " = "(" ++ "&self) -> " := rfl
  unfold getter shortFunction
  dsimp only
  rw [hopen]
  simp only [String.append_assoc]
  exact functionName?_nest (Name.isPart_of_memberProblem? hf) _ _

/-- A field is changed by `set_` and its name or by its name and `_mut`, or by nothing. -/
theorem functionName?_setter {f : Field Node} (hf : Name.memberProblem? f.name = none) :
    (setter? t s f).map functionName? = (changer? t f).map some := by
  have hname := Name.isPart_of_memberProblem? hf
  unfold setter? changer?
  dsimp only
  by_cases hreadonly : f.readonly = true
  · rw [if_pos hreadonly, if_pos hreadonly]
    rfl
  · rw [if_neg hreadonly, if_neg hreadonly]
    cases (f.type.concrete t).access with
    | plain | computed => rfl
    | cell =>
      have hset := fun rest body =>
        functionName?_nest
          (Name.isPart_append (a := "set_") (List.all_eq_true.1 rfl) hname) rest body
      -- The prefix is part of the name, so the header is cut behind `fn` and before the
      -- parenthesis.
      have hlead : "pub fn set_" = "pub fn " ++ "set_" := rfl
      have hopen : "(&mut self, value: " = "(" ++ "&mut self, value: " := rfl
      simp only [String.append_assoc] at hset
      simp only [shortFunction, hlead, hopen, String.append_assoc, Option.map_some, hset]
    | object =>
      have hmut := fun rest body =>
        functionName?_nest
          (Name.isPart_append (b := "_mut") hname (List.all_eq_true.1 rfl)) rest body
      -- Here the suffix is.
      have hopen : "_mut(&mut self) -> &mut " = "_mut" ++ ("(" ++ "&mut self) -> &mut ") := rfl
      simp only [String.append_assoc] at hmut
      dsimp only
      by_cases hprojection : (f.type.concrete t).isProjection = true
      · rw [if_pos hprojection, if_pos hprojection]
        rfl
      · rw [if_neg hprojection, if_neg hprojection]
        simp only [shortFunction, hopen, String.append_assoc, Option.map_some, hmut]

/-- The accessors of a structure, field by field. -/
theorem functionNames_accessors (hs : ∀ f ∈ s.fields, Name.memberProblem? f.name = none) :
    (accessors t s).filterMap functionName? = accessorNames t s := by
  unfold accessors accessorNames
  rw [List.filterMap_flatMap]
  refine List.flatMap_congr fun f hf => ?_
  have hgetter := functionName?_getter (t := t) (s := s) (hs f hf)
  have hsetter := functionName?_setter (t := t) (s := s) (hs f hf)
  cases hcode : setter? t s f <;> cases hname : changer? t f <;>
    simp_all [List.filterMap_cons, functionName?_blank]

/-- A method is the function of its own name. -/
theorem functionNames_methods (hs : ∀ m ∈ s.methods, Name.memberProblem? m.name = none) :
    (methods t s).filterMap functionName? = s.methods.map Method.name := by
  unfold methods
  rw [List.filterMap_flatMap, List.map_eq_flatMap]
  refine List.flatMap_congr fun m hm => ?_
  -- What stands before the parenthesis does not depend on parameters or result.
  have hheader : functionName? (.nest (methodHeader t s m) [.snippet m.body]) = some m.name := by
    unfold methodHeader
    simp only [String.append_assoc]
    exact functionName?_nest (Name.isPart_of_memberProblem? (hs m hm)) _ _
  simp [functionName?_blank, hheader]

/-- A rule is the function of its name behind `__policy_`. -/
theorem functionNames_rules (hs : ∀ r ∈ s.rules, Name.memberProblem? r.name = none) :
    (rules s).filterMap functionName? = s.rules.map fun r => "__policy_" ++ r.name := by
  unfold rules
  rw [List.filterMap_flatMap, List.map_eq_flatMap]
  refine List.flatMap_congr fun r hr => ?_
  have hpolicy := fun rest body => functionName?_nest (Name.isPart_append (a := "__policy_")
    (List.all_eq_true.1 rfl) (Name.isPart_of_memberProblem? (hs r hr))) rest body
  have hlead : "pub fn __policy_" = "pub fn " ++ "__policy_" := rfl
  have hopen : "(&self, __who: &NtPrincipal) -> bool" =
    "(" ++ "&self, __who: &NtPrincipal) -> bool" := rfl
  simp only [String.append_assoc] at hpolicy
  simp only [hlead, hopen, String.append_assoc, List.filterMap_cons, hpolicy, functionName?_blank,
    List.filterMap_nil]

/-! ### Functions with fixed names -/

/-- The header of a commit has a line break in it, but behind the parenthesis. -/
theorem functionName?_commit : functionName? (commit t s) = some "__commit" := by
  rw [commit, nest, functionName?, Text.wordBefore?, String.toList_append, String.toList_ofList,
    String.toList_ofList]
  rfl

theorem functionName?_revert : functionName? (revert t s) = some "__revert" := by
  rw [revert, nest, functionName?, Text.wordBefore?, String.toList_ofList]
  rfl

/-- The function is written with one line in its body. -/
theorem functionName?_equality : functionName? (equality t s) = some "__structurally_equals" := by
  unfold equality
  dsimp only
  rw [shortFunction, nest, functionName?, Text.wordBefore?, String.toList_ofList]
  rfl

theorem functionName?_comparator : functionName? (comparator t s) = some "__comparator" := by
  rw [comparator, nest, functionName?, Text.wordBefore?, String.toList_ofList]
  rfl

/-- The four functions of the state, whatever the structure. -/
theorem functionNames_stateFunctions : (stateFunctions t s).filterMap functionName? =
    ["__commit", "__revert", "__structurally_equals", "__comparator"] := by
  simp only [stateFunctions, List.filterMap_cons_none functionName?_blank,
    List.filterMap_cons_some functionName?_commit, List.filterMap_cons_some functionName?_revert,
    List.filterMap_cons_some functionName?_equality,
    List.filterMap_cons_some functionName?_comparator, List.filterMap_nil]

theorem functionName?_settle : functionName? (settle t s) = some "__settle" := by
  rw [settle, nest, functionName?, Text.wordBefore?, String.toList_ofList]
  rfl

theorem functionName?_kill : functionName? (kill t s) = some "__kill" := by
  rw [kill, nest, functionName?, Text.wordBefore?, String.toList_ofList]
  rfl

theorem functionName?_recordConstructor (columns : List IndexColumn) :
    functionName? (recordConstructor t s columns) = some "new" := by
  rw [recordConstructor, nest, functionName?, Text.wordBefore?, String.toList_ofList]
  rfl

/-- A function that calls each index has the name that it is given. -/
theorem functionName?_eachIndex (hname : ∀ c ∈ name.toList, Name.isPart c = true) (call : String)
    (columns : List IndexColumn) : functionName? (eachIndex name call columns) = some name := by
  have hopen : "(&mut self)" = "(" ++ "&mut self)" := rfl
  rw [eachIndex, hopen, String.append_assoc]
  exact functionName?_nest hname _ _

theorem functionName?_deindex (call : String) (columns : List IndexColumn) :
    functionName? (eachIndex "deindex" call columns) = some "deindex" :=
  functionName?_eachIndex (List.all_eq_true.1 rfl) call columns

theorem functionName?_reindex (call : String) (columns : List IndexColumn) :
    functionName? (eachIndex "reindex" call columns) = some "reindex" :=
  functionName?_eachIndex (List.all_eq_true.1 rfl) call columns

theorem functionName?_invalidate (body : List Code) :
    functionName? (.nest "pub fn invalidate_index(&self, __pubsub: &TablePubSub)" body) =
      some "invalidate_index" := by
  rw [nest, functionName?, Text.wordBefore?, String.toList_ofList]
  rfl

theorem functionName?_pump (body : List Code) :
    functionName? (.nest "pub fn pump_index_events(&self, __pubsub: &TablePubSub)" body) =
      some "pump_index_events" := by
  rw [nest, functionName?, Text.wordBefore?, String.toList_ofList]
  rfl

/-- The four functions that keep the indices, however many there are. -/
theorem functionNames_indexHooks (columns : List IndexColumn) :
    (indexHooks columns).filterMap functionName? =
      ["deindex", "reindex", "invalidate_index", "pump_index_events"] := by
  simp only [indexHooks, List.filterMap_cons_none functionName?_blank,
    List.filterMap_cons_some (functionName?_deindex _ _),
    List.filterMap_cons_some (functionName?_reindex _ _),
    List.filterMap_cons_some (functionName?_invalidate _),
    List.filterMap_cons_some (functionName?_pump _), List.filterMap_nil]

/-- The two functions of the identity. -/
theorem functionNames_identityFunctions :
    identityFunctions.filterMap functionName? = ["__id", "__set_id"] := by
  have hid : ∀ body, functionName? (shortFunction "pub fn __id(&self) -> i32" body) =
      some "__id" := by
    intro body
    rw [shortFunction, nest, functionName?, Text.wordBefore?, String.toList_ofList]
    rfl
  have hset : ∀ body, functionName? (.nest
      "pub fn __set_id(&mut self, value: i32, force: bool)" body) = some "__set_id" := by
    intro body
    rw [nest, functionName?, Text.wordBefore?, String.toList_ofList]
    rfl
  simp only [identityFunctions, List.filterMap_cons, List.filterMap_nil, functionName?_blank, hid,
    hset]

theorem functionName?_documentConstructor :
    functionName? (documentConstructor t) = some "new" := by
  rw [documentConstructor, nest, functionName?, Text.wordBefore?, String.toList_ofList]
  rfl

theorem functionName?_constructTransaction (body : Option String) :
    functionName? (constructTransaction body) = some "__transact_construct" := by
  unfold constructTransaction
  rw [nest, functionName?, Text.wordBefore?, String.toList_ofList]
  rfl

theorem functionName?_lateBinding : functionName? lateBinding = some "__late_bind" := by
  rw [lateBinding, nest, functionName?, Text.wordBefore?, String.toList_ofList]
  rfl

/-- A predicate is one function, whether it has a body or not. -/
theorem functionNames_predicate (name : String) (hname : ∀ c ∈ name.toList, Name.isPart c = true)
    (body : Option String) : (predicate name body).filterMap functionName? = [name] := by
  have hopen : "(__context: &RequestContext) -> bool" =
    "(" ++ "__context: &RequestContext) -> bool" := rfl
  unfold predicate
  rw [hopen, String.append_assoc, List.filterMap_cons, functionName?_nest hname]
  rfl

/-- A fixed JSON text is returned by one function. -/
theorem functionNames_staticJson (name : String) (hname : ∀ c ∈ name.toList, Name.isPart c = true)
    (value : Json) : (staticJson name value).filterMap functionName? = [name] := by
  have hopen : "() -> &'static str" = "(" ++ ") -> &'static str" := rfl
  rw [staticJson, shortFunction, hopen, String.append_assoc, List.filterMap_cons,
    functionName?_nest hname]
  rfl

/-- A test is the function of its name behind `__test_`, between the one that lists the tests and
the one that runs them. -/
theorem functionNames_tests {surface : Surface}
    (hs : ∀ x ∈ surface.tests, Name.memberProblem? x.name = none) :
    (tests surface).filterMap functionName? =
      "__get_tests" :: (surface.tests.map fun x => "__test_" ++ x.name) ++ ["__run_test"] := by
  have hget : ∀ body, functionName? (shortFunction
      "pub fn __get_tests() -> &'static [&'static str]" body) = some "__get_tests" := by
    intro body
    rw [shortFunction, nest, functionName?, Text.wordBefore?, String.toList_ofList]
    rfl
  have hrun : ∀ body, functionName? (.nest
      "pub fn __run_test(&mut self, __report: &mut TestReport, __name: &str) -> bool" body) =
        some "__run_test" := by
    intro body
    rw [nest, functionName?, Text.wordBefore?, String.toList_ofList]
    rfl
  have htests : (surface.tests.flatMap fun x =>
      [.nest ("fn __test_" ++ x.name ++ "(&mut self, __report: &mut TestReport)")
        [.snippet x.body], .blank]).filterMap functionName? =
      surface.tests.map fun x => "__test_" ++ x.name := by
    rw [List.filterMap_flatMap, List.map_eq_flatMap]
    refine List.flatMap_congr fun x hx => ?_
    -- Tests are not public.
    have htest := fun rest body => functionName?_private (Name.isPart_append (a := "__test_")
      (List.all_eq_true.1 rfl) (Name.isPart_of_memberProblem? (hs x hx))) rest body
    have hlead : "fn __test_" = "fn " ++ "__test_" := rfl
    have hopen : "(&mut self, __report: &mut TestReport)" =
      "(" ++ "&mut self, __report: &mut TestReport)" := rfl
    simp only [String.append_assoc] at htest
    simp only [hlead, hopen, String.append_assoc, List.filterMap_cons, htest, functionName?_blank,
      List.filterMap_nil]
  unfold tests
  rw [List.filterMap_append, List.filterMap_append, htests]
  simp only [List.filterMap_cons, List.filterMap_nil, functionName?_blank, hget, hrun,
    List.cons_append, List.nil_append]

theorem functionName?_write (body : List Code) :
    functionName? (.nest "fn write(&self, __writer: &mut JsonStreamWriter)" body) =
      some "write" := by
  rw [nest, functionName?, Text.wordBefore?, String.toList_ofList]
  rfl

theorem functionName?_read (body : List Code) :
    functionName? (.nest "fn read(__reader: &mut JsonStreamReader) -> Self" body) =
      some "read" := by
  rw [nest, functionName?, Text.wordBefore?, String.toList_ofList]
  rfl

/-! ### Members -/

/-- The members of a structure are its fields, in order. -/
theorem memberNames_storage (hs : ∀ f ∈ s.fields, Name.memberProblem? f.name = none) :
    (storage t s).filterMap memberName? = s.fields.map Field.name := by
  refine memberNames_map fun f hf => ?_
  rw [String.append_assoc, String.append_assoc]
  exact memberName?_line (Name.isPart_of_memberProblem? (hs f hf)) _

/-- The fields of a delta are fields of the structure, in the same order and none of them twice. -/
theorem syncedFields_sublist :
    ((syncedFields t s).map SyncedField.field).Sublist s.fields := by
  -- For every way to find a delta type, by induction on the fields.
  have hfield : ∀ (d : Field Node → Option String) (fs : List (Field Node)),
      ((fs.filterMap fun f => (d f).map fun type => SyncedField.mk f type).map
        SyncedField.field).Sublist fs := by
    intro d fs
    induction fs with
    | nil => exact .slnil
    | cons f fs ih =>
      cases hd : d f with
      | none =>
        rw [List.filterMap_cons_none (by rw [hd, Option.map_none])]
        exact ih.cons f
      | some type =>
        rw [List.filterMap_cons_some (by rw [hd, Option.map_some]), List.map_cons]
        exact ih.cons_cons f
  exact (hfield _ _).trans List.filter_sublist

/-- An index of a well-formed structure has a column: it is on a field that comes down to a scalar
that can be indexed. -/
theorem exists_indexColumn (hs : s.WellFormed t) {i : Index} (hi : i ∈ s.indices) :
    ∃ f ∈ s.fields, f.name = i.field ∧ ∃ k key, t.HasKind f.type (.scalar k) ∧
      k.indexKey? "__value" = some key ∧
      ∀ number, indexColumn? t s number i = some ⟨number, i.field, k.nativeType, key⟩ := by
  obtain ⟨f, hf, hname, k, ⟨target, hcomes, hkind⟩, hindexable⟩ := hs.indices i hi
  have hfield : s.field? i.field = some f :=
    (Structure.field?_eq_some_iff hs.fields_nodup).2 ⟨hf, hname⟩
  have hscalar : (f.type.concrete t).scalar? = some k := by
    rw [Node.concrete, Table.follow?_eq_some_iff.2 hcomes, Option.getD_some, Node.scalar?, hkind]
  obtain ⟨key, hkey⟩ := Option.isSome_iff_exists.1
    ((Scalar.isSome_indexKey? "__value" k).trans hindexable)
  refine ⟨f, hf, hname, k, key, ⟨target, hcomes, hkind⟩, hkey, fun number => ?_⟩
  simp [indexColumn?, hfield, hscalar, hkey, hname]

/-- No index is left out: what is read off the columns is what is read off the indices. -/
theorem map_indexColumns (hs : s.WellFormed t) {α : Type} (g : IndexColumn → α)
    (g' : Index × Nat → α)
    (h : ∀ p ∈ s.indices.zipIdx, ∀ c, indexColumn? t s p.2 p.1 = some c → g c = g' p) :
    (indexColumns t s).map g = s.indices.zipIdx.map g' := by
  rw [indexColumns, List.map_filterMap, ← List.filterMap_eq_map]
  refine List.filterMap_congr fun ⟨i, number⟩ hp => ?_
  obtain ⟨_, _, _, _, _, _, _, hcolumn⟩ := exists_indexColumn hs (List.fst_mem_of_mem_zipIdx hp)
  show (indexColumn? t s number i).map g = some (g' (i, number))
  rw [hcolumn number, Option.map_some, h _ hp _ (hcolumn number)]

/-- A column for each index. -/
theorem map_field_indexColumns (hs : s.WellFormed t) :
    (indexColumns t s).map IndexColumn.field = s.indices.map Index.field := by
  have hfield := map_indexColumns hs IndexColumn.field (fun p => p.1.field) fun p hp c hc => by
    obtain ⟨_, _, _, _, _, _, _, hcolumn⟩ := exists_indexColumn hs (List.fst_mem_of_mem_zipIdx hp)
    rw [hcolumn p.2] at hc
    cases hc
    rfl
  have hindices : s.indices.zipIdx.map Prod.fst = s.indices := by simp
  conv_rhs => rw [← hindices, List.map_map]
  exact hfield

end Target

end ReactiveSpace
