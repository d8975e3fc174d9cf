import ReactiveSpace.Proofs.Target.Emission
import ReactiveSpace.Proofs.Target.Function

/-!
# Fields in the functions on state and in messages

The functions that commit, revert and compare a structure are written one after the other, each from
the fields again, and so are the functions that write and read a message. What these functions name
is read off the code here: each of the first three names every field with state of its own, once and
in the order of the fields, and no other field; and the keys that a message is written under are
those it is read from, each with the member it was written from (`Declarations.emitters_agree`).
-/

namespace ReactiveSpace

/-- A formula or a projection, which derives its values from other fields. -/
def Table.Derives (t : Table) (n : Node) : Prop :=
  (∃ computed formula cached, t.HasKind n (.lazy computed formula cached)) ∨
    ∃ rows field, t.HasKind n (.projection rows field)

namespace Target

open Code

/-! ### Statements -/

/-- A commit: the field, and the key its changes are written under. -/
def commitTemplate : Text.Template where
  lead := "self."
  pieces := [".__commit(\"", "\", __forward, __reverse);"]
  stops := by decide

def revertTemplate : Text.Template where
  lead := "self."
  pieces := [".__revert();"]
  stops := by decide

/-- A comparison of plain values: the field on this side and the one on the other. -/
def valuesTemplate : Text.Template where
  lead := "self."
  pieces := [".get() == __other.", ".get()"]
  stops := by decide

/-- A comparison of parts: the field on this side and the one on the other. -/
def partsTemplate : Text.Template where
  lead := "self."
  pieces := [".__structurally_equals(&__other.", ")"]
  stops := by decide

/-- A statement of a message that is written: the key, and the member with its value. -/
def writeTemplate : Text.Template where
  lead := "__writer.write_field(\""
  pieces := ["\", &self.", ");"]
  stops := by decide

/-- A branch of a message that is read: the key, and the member its value goes to. -/
def readTemplate : Text.Template where
  lead := "\""
  pieces := ["\" => __msg.", " = __reader.read_value(),"]
  stops := by decide

/-- The fields that a line of a comparison compares. A conjunction goes on in the next line. -/
def compared? (line : String) : Option (List String) :=
  let term := ("        && ".toList.isPrefixOf? line.toList).elim line String.ofList
  (valuesTemplate.read? term).or (partsTemplate.read? term)

variable {t : Table} {s : Structure Node} {f : Field Node}

/-- A commit names the field as a member and as the key that it is written under. -/
theorem read?_commitStatement (hname : ∀ c ∈ f.name.toList, Name.isPart c = true) :
    commitTemplate.read? (commitStatement f) = some [f.name, f.name] :=
  Text.Template.read?_fill rfl rfl (by simpa using hname)

theorem read?_revertStatement (hname : ∀ c ∈ f.name.toList, Name.isPart c = true) :
    revertTemplate.read? (revertStatement f) = some [f.name] :=
  Text.Template.read?_fill rfl rfl (by simpa using hname)

theorem read?_writeStatement (hname : ∀ c ∈ f.name.toList, Name.isPart c = true) :
    writeTemplate.read? (writeStatement f) = some [f.name, f.name] :=
  Text.Template.read?_fill rfl rfl (by simpa using hname)

theorem read?_readBranch (hname : ∀ c ∈ f.name.toList, Name.isPart c = true) :
    readTemplate.read? (readBranch f) = some [f.name, f.name] :=
  Text.Template.read?_fill rfl rfl (by simpa using hname)

/-- A field is compared by its value or part by part, and named twice either way. -/
theorem equalityTerm_eq (t : Table) (f : Field Node) :
    equalityTerm t f = valuesTemplate.fill [f.name, f.name] ∨
      equalityTerm t f = partsTemplate.fill [f.name, f.name] := by
  unfold equalityTerm
  cases (f.type.concrete t).access with
  | cell => exact .inl rfl
  | _ => exact .inr rfl

/-- A comparison of two fields of the same name, in either form. -/
theorem compared?_term (hname : ∀ c ∈ f.name.toList, Name.isPart c = true) :
    (valuesTemplate.read? (equalityTerm t f)).or (partsTemplate.read? (equalityTerm t f)) =
      some [f.name, f.name] := by
  rcases equalityTerm_eq t f with hterm | hterm
  · have hvalues : valuesTemplate.read? (equalityTerm t f) = some [f.name, f.name] :=
      Text.Template.read?_fill hterm rfl (by simpa using hname)
    rw [hvalues, Option.some_or]
  · have hparts : partsTemplate.read? (equalityTerm t f) = some [f.name, f.name] :=
      Text.Template.read?_fill hterm rfl (by simpa using hname)
    have hvalues : valuesTemplate.read? (equalityTerm t f) = none := by
      have htext : (equalityTerm t f).toList = valuesTemplate.lead.toList ++ (f.name.toList ++
          (".__structurally_equals(&__other.".toList ++ (f.name.toList ++ [')']))) := by
        rw [hterm, Text.Template.toList_fill]
        simp [valuesTemplate, partsTemplate]
      exact Text.Template.read?_eq_none_of_piece rfl htext hname rfl rfl
    rw [hvalues, hparts, Option.none_or]

/-- The first term of a comparison. -/
theorem compared?_equalityTerm (hname : ∀ c ∈ f.name.toList, Name.isPart c = true) :
    compared? (equalityTerm t f) = some [f.name, f.name] := by
  have hstart : ∃ rest, (equalityTerm t f).toList = 's' :: rest := by
    rcases equalityTerm_eq t f with hterm | hterm <;>
      simp [hterm, Text.Template.toList_fill, valuesTemplate, partsTemplate]
  have hlead : "        && ".toList.isPrefixOf? (equalityTerm t f).toList = none := by
    obtain ⟨rest, hrest⟩ := hstart
    rw [hrest]
    rfl
  rw [compared?, hlead]
  exact compared?_term hname

/-- Any other term of a comparison. -/
theorem compared?_and_equalityTerm (hname : ∀ c ∈ f.name.toList, Name.isPart c = true) :
    compared? ("        && " ++ equalityTerm t f) = some [f.name, f.name] := by
  have hlead : "        && ".toList.isPrefixOf? ("        && " ++ equalityTerm t f).toList =
      some (equalityTerm t f).toList := by
    rw [List.isPrefixOf?_eq_some_iff_append_eq, String.toList_append]
  rw [compared?, hlead, Option.elim_some, String.ofList_toList]
  exact compared?_term hname

/-- A term has no line break of its own, so the lines of an equality are its terms. -/
theorem newline_notMem_equalityTerm (hname : ∀ c ∈ f.name.toList, Name.isPart c = true) :
    '\n' ∉ (equalityTerm t f).toList := by
  have hnotMem : '\n' ∉ f.name.toList := fun hmem => by
    have hpart := hname _ hmem
    simp [Name.isPart] at hpart
  rcases equalityTerm_eq t f with hterm | hterm <;>
    simp [hterm, Text.Template.toList_fill, valuesTemplate, partsTemplate, hnotMem]

/-! ### Functions -/

/-- The four functions have different names, so each is found by its own. -/
theorem nodup_functionNames_stateFunctions :
    ((stateFunctions t s).filterMap functionName?).Nodup := by
  rw [functionNames_stateFunctions]
  decide

theorem function_commit : function "__commit" (stateFunctions t s) = inside (commit t s) :=
  function_of_mem nodup_functionNames_stateFunctions (by simp [stateFunctions])
    functionName?_commit

theorem function_revert : function "__revert" (stateFunctions t s) = inside (revert t s) :=
  function_of_mem nodup_functionNames_stateFunctions (by simp [stateFunctions])
    functionName?_revert

theorem function_equality :
    function "__structurally_equals" (stateFunctions t s) = inside (equality t s) :=
  function_of_mem nodup_functionNames_stateFunctions (by simp [stateFunctions])
    functionName?_equality

theorem isPart_of_mem_fields (hs : s.WellFormed t) (hf : f ∈ s.fields) :
    ∀ c ∈ f.name.toList, Name.isPart c = true :=
  Name.isPart_of_memberProblem? (hs.field_names f hf)

/-- Read off the code, a commit names the fields with state, in order. -/
theorem fillings_commit (hs : s.WellFormed t) : fillings commitTemplate (inside (commit t s)) =
    (storedFields t s).map fun f => [f.name, f.name] := by
  have hfixed : ∀ text ∈ ["if self.__owner.is_dirty()",
      "__forward.write_object_field_intro(__name);", "__forward.begin_object();",
      "__reverse.write_object_field_intro(__name);", "__reverse.begin_object();",
      "__forward.end_object();", "__reverse.end_object();", "self.__owner.lower_dirty();", ""],
      commitTemplate.read? text = none := by decide
  have hstatements := fillings_lines fun f (hf : f ∈ storedFields t s) =>
    read?_commitStatement (isPart_of_mem_fields hs (List.mem_of_mem_filter hf))
  rw [commit, inside_nest, fillings_nest]
  simp [hfixed, hstatements]

theorem fillings_revert (hs : s.WellFormed t) : fillings revertTemplate (inside (revert t s)) =
    (storedFields t s).map fun f => [f.name] := by
  have hfixed : ∀ text ∈ ["if self.__owner.is_dirty()", "self.__owner.lower_dirty();", ""],
      revertTemplate.read? text = none := by decide
  have hstatements := fillings_lines fun f (hf : f ∈ storedFields t s) =>
    read?_revertStatement (isPart_of_mem_fields hs (List.mem_of_mem_filter hf))
  rw [revert, inside_nest, fillings_nest]
  simp [hfixed, hstatements]

/-- A comparison names the stored fields, too; its terms stand in the lines of one text. -/
theorem compared_equality (hs : s.WellFormed t) :
    ((textsOf (inside (equality t s))).flatMap Text.lines).filterMap compared? =
      (storedFields t s).map fun f => [f.name, f.name] := by
  have hname : ∀ f ∈ storedFields t s, ∀ c ∈ f.name.toList, Name.isPart c = true := fun f hf =>
    isPart_of_mem_fields hs (List.mem_of_mem_filter hf)
  rw [equality]
  cases hstored : storedFields t s with
  | nil =>
    -- Without fields to compare the function says so in one word.
    have htrue : Text.lines "true" = ["true"] := by
      rw [Text.lines, Text.splitAtChar_eq_singleton (by decide), List.map_singleton,
        String.ofList_toList]
    have hnone : compared? "true" = none := rfl
    simp [shortFunction, htrue, hnone]
  | cons f fs =>
    rw [hstored, List.forall_mem_cons] at hname
    -- The terms are one text, with a line for each of them.
    have hindent : '\n' ∉ "        && ".toList := by decide
    have hlines := Text.lines_joined hindent (fs.map (equalityTerm t)) (equalityTerm t f) <| by
      rw [List.forall_mem_cons, List.forall_mem_map]
      exact ⟨newline_notMem_equalityTerm hname.1, fun g hg =>
        newline_notMem_equalityTerm (hname.2 g hg)⟩
    have hrest : (fs.map fun g => "        && " ++ equalityTerm t g).filterMap compared? =
        fs.map fun g => [g.name, g.name] := by
      rw [List.filterMap_map, ← List.filterMap_eq_map]
      refine List.filterMap_congr fun g hg => ?_
      rw [Function.comp_apply, Function.comp_apply, compared?_and_equalityTerm (hname.2 g hg)]
    have htexts : textsOf (inside (shortFunction
        "pub fn __structurally_equals(&self, __other: &Self) -> bool"
        ("\n        && ".intercalate (equalityTerm t f :: fs.map (equalityTerm t))))) =
        [("\n" ++ "        && ").intercalate (equalityTerm t f :: fs.map (equalityTerm t))] := rfl
    simp only [List.map_cons, List.isEmpty_cons, Bool.false_eq_true, if_false]
    rw [htexts, List.flatMap_singleton, hlines, List.map_map,
      List.filterMap_cons_some (compared?_equalityTerm hname.1)]
    exact congrArg _ hrest

/-! ### Messages -/

/-- The functions of a message. -/
theorem implementation_message (t : Table) (s : Structure Node) :
    implementation ("NtMessage for " ++ messageType s.name) (message t s) =
      [nest "fn write(&self, __writer: &mut JsonStreamWriter)"
          (line "__writer.begin_object();" :: s.fields.map (fun f => line (writeStatement f)) ++
            [line "__writer.end_object();"]),
        blank,
        nest "fn read(__reader: &mut JsonStreamReader) -> Self"
          [line "let mut __msg = Self::default();",
            nest "while let Some(__key) = __reader.next_field()"
              [nest "match __key.as_str()"
                (s.fields.map (fun f => line (readBranch f)) ++
                  [line "_ => __reader.skip_value(),"])],
            line "__msg"]] := by
  have himpl : "impl NtMessage for " ++ messageType s.name =
      "impl " ++ ("NtMessage for " ++ messageType s.name) := by
    rw [← String.append_assoc]
    rfl
  unfold message
  simp [himpl]

/-- A message is written field by field. -/
theorem fillings_write (hs : s.WellFormed t) :
    fillings writeTemplate (function "write"
      (implementation ("NtMessage for " ++ messageType s.name) (message t s))) =
      s.fields.map fun f => [f.name, f.name] := by
  have hfixed : ∀ text ∈ ["__writer.begin_object();", "__writer.end_object();"],
      writeTemplate.read? text = none := by decide
  have hstatements := fillings_lines fun f (hf : f ∈ s.fields) =>
    read?_writeStatement (isPart_of_mem_fields hs hf)
  rw [implementation_message]
  simp [function_cons, functionName?_write, functionName?_read, functionName?_blank, hfixed,
    hstatements]

/-- A message is read under the same names. -/
theorem fillings_read (hs : s.WellFormed t) :
    fillings readTemplate (function "read"
      (implementation ("NtMessage for " ++ messageType s.name) (message t s))) =
      s.fields.map fun f => [f.name, f.name] := by
  -- What skips an unknown key is no reading of a field.
  have hfixed : ∀ text ∈ ["let mut __msg = Self::default();",
      "while let Some(__key) = __reader.next_field()", "match __key.as_str()",
      "_ => __reader.skip_value(),", "__msg", ""], readTemplate.read? text = none := by decide
  have hstatements := fillings_lines fun f (hf : f ∈ s.fields) =>
    read?_readBranch (isPart_of_mem_fields hs hf)
  rw [implementation_message]
  simp [function_cons, functionName?_write, functionName?_read, functionName?_blank, hfixed,
    hstatements]

/-! ### Fields with state -/

/-- Apart from references, a type comes down to a kind when it is of this kind in the end. -/
theorem kind_concrete_eq_iff {n : Node} {kind : Kind Node} (hkind : ∀ name, kind ≠ .ref name) :
    (n.concrete t).kind = kind ↔ t.HasKind n kind := by
  rw [Node.concrete]
  cases hfollow : t.follow? n with
  | some target =>
    have hcomes := Table.follow?_eq_some_iff.1 hfollow
    refine ⟨fun h => ⟨target, hcomes, h⟩, ?_⟩
    rintro ⟨other, hother, rfl⟩
    rw [Option.getD_some, hcomes.unique hother]
  | none =>
    -- What leads nowhere is left as it is, and is a reference then.
    have hnone : ∀ target, ¬ t.ComesTo n target := by
      intro target hcomes
      simp [Table.follow?_eq_some_iff.2 hcomes] at hfollow
    refine iff_of_false (fun h => ?_) ?_
    · rw [Option.getD_none] at h
      exact hnone n (.self (Node.reference?_eq_none_iff.2 fun name => h ▸ hkind name))
    · rintro ⟨target, hcomes, -⟩
      exact hnone target hcomes

/-- A field has state of its own exactly when its value does not derive from other fields. -/
theorem isStored_iff : isStored t f = true ↔ ¬ t.Derives f.type := by
  have hlazy : ∀ computed formula cached, (f.type.concrete t).kind = .lazy computed formula cached ↔
      t.HasKind f.type (.lazy computed formula cached) := fun _ _ _ =>
    kind_concrete_eq_iff (by simp)
  have hprojection : ∀ rows field, (f.type.concrete t).kind = .projection rows field ↔
      t.HasKind f.type (.projection rows field) := fun _ _ => kind_concrete_eq_iff (by simp)
  unfold isStored Table.Derives
  simp only [← hlazy, ← hprojection]
  cases (f.type.concrete t).kind <;> simp

/-- Names are distinct, so this can be told by the name of a field. -/
theorem mem_map_name_storedFields_iff (hs : s.WellFormed t) (hf : f ∈ s.fields) :
    f.name ∈ (storedFields t s).map Field.name ↔ ¬ t.Derives f.type := by
  rw [← isStored_iff, List.mem_map]
  constructor
  · rintro ⟨g, hg, hname⟩
    obtain ⟨hg, hstored⟩ := List.mem_filter.1 hg
    rwa [← List.inj_on_of_nodup_map hs.fields_nodup hg hf hname]
  · exact fun hstored => ⟨f, List.mem_filter.2 ⟨hf, hstored⟩, rfl⟩

/-! ### Agreement -/

/-- The functions on the state of a structure name the fields with state of their own: a commit and
a revert for each, and a comparison with the field of the same name, in the order of the fields. -/
structure StateAgrees (t : Table) (s : Structure Node) (owner : String) (code : List Code)
    (names : List String) : Prop where
  committed : fillings commitTemplate (function "__commit" (implementation owner code)) =
    names.map fun name => [name, name]
  reverted : fillings revertTemplate (function "__revert" (implementation owner code)) =
    names.map fun name => [name]
  compared : ((textsOf (function "__structurally_equals" (implementation owner code))).flatMap
      Text.lines).filterMap compared? = names.map fun name => [name, name]
  ordered : names.Sublist (s.fields.map Field.name)
  once : names.Nodup
  stored : ∀ f ∈ s.fields, f.name ∈ names ↔ ¬ t.Derives f.type

/-- The members of a message are the keys it is written under, and the keys it is read from. What is
under a key comes from the member of this name and goes back to it. -/
structure MessageAgrees (s : Structure Node) (code : List Code) (names : List String) : Prop where
  written : fillings writeTemplate (function "write"
    (implementation ("NtMessage for " ++ messageType s.name) code)) =
      names.map fun name => [name, name]
  read : fillings readTemplate (function "read"
    (implementation ("NtMessage for " ++ messageType s.name) code)) =
      names.map fun name => [name, name]
  members : code.flatMap memberNames = names
  once : names.Nodup

/-- Where the functions on the state of a structure are found, they agree. -/
theorem stateAgrees_of_function (hs : s.WellFormed t) {owner : String} {code : List Code}
    (hcode : ∀ name ∈ stateNames, function name (implementation owner code) =
      function name (stateFunctions t s)) :
    StateAgrees t s owner code ((storedFields t s).map Field.name) where
  committed := by
    rw [hcode "__commit" (by decide), function_commit, fillings_commit hs, List.map_map]
    rfl
  reverted := by
    rw [hcode "__revert" (by decide), function_revert, fillings_revert hs, List.map_map]
    rfl
  compared := by
    rw [hcode "__structurally_equals" (by decide), function_equality, compared_equality hs,
      List.map_map]
    rfl
  ordered := List.filter_sublist.map _
  once := (List.filter_sublist.map _).nodup hs.fields_nodup
  stored := fun _ hf => mem_map_name_storedFields_iff hs hf

theorem stateAgrees_record (hs : s.WellFormed t) (key : String) (surface : Surface) :
    StateAgrees t s (recordType s.name) ((Emission.record key s).code t surface)
      ((storedFields t s).map Field.name) :=
  stateAgrees_of_function hs fun name hname => by
    rw [Emission.code, implementation_concat_blank, function_record hs hname]

/-- The code of the document. Names of tests come in because they are those of functions. -/
theorem stateAgrees_document (hs : t.root.WellFormed t) {surface : Surface}
    (htests : ∀ x ∈ surface.tests, Name.memberProblem? x.name = none) :
    StateAgrees t t.root Structure.rootName (Emission.document.code t surface)
      ((storedFields t t.root).map Field.name) :=
  stateAgrees_of_function hs fun name hname => by
    rw [Emission.code, implementation_concat_blank, function_document hs htests hname]

/-- The code of a message. -/
theorem messageAgrees (hs : s.WellFormed t) (key : String) (surface : Surface) :
    MessageAgrees s ((Emission.message key s).code t surface) (s.fields.map Field.name) where
  written := by
    rw [Emission.code, implementation_concat_blank, fillings_write hs, List.map_map]
    rfl
  read := by
    rw [Emission.code, implementation_concat_blank, fillings_read hs, List.map_map]
    rfl
  members := by
    rw [Emission.code, List.flatMap_append, memberNames_message hs]
    exact List.append_nil _
  once := hs.fields_nodup

end Target

namespace Declarations

open Target (Emission StateAgrees MessageAgrees)

variable {d : Declarations}

/-- The root that is checked is the one that was declared. -/
theorem root_check (h : d.check.isDeployable = true) : d.check.table.root = d.document := by
  obtain ⟨⟨-, hdistinct⟩, -⟩ := names_of_isDeployable h
  rw [show d.check.table = d.table hdistinct from table_draft hdistinct]
  rfl

theorem wellFormed_record (h : d.check.isDeployable = true) {r : Structure Node}
    (hr : r ∈ d.records) : Structure.WellFormed d.check.table { r with role := .record } :=
  (wellFormed_of_isDeployable h).structures _
    ((Table.Occurs.entry (record_mem_entries h hr)).body rfl)

theorem wellFormed_message (h : d.check.isDeployable = true) {m : Structure Node}
    (hm : m ∈ d.messages) : Structure.WellFormed d.check.table { m with role := .message } :=
  (wellFormed_of_isDeployable h).structures _
    ((Table.Occurs.entry (message_mem_entries h hm)).body rfl)

/-- A declared record is emitted. -/
theorem record_mem_emissions (h : d.check.isDeployable = true) {r : Structure Node}
    (hr : r ∈ d.records) :
    .record r.name { r with role := .record } ∈ Target.emissions d.check.table := by
  have hget : d.check.table.get? r.name = some (.ofRecord { r with role := .record }) :=
    Keyed.get?_of_mem d.check.table.distinct (record_mem_entries h hr)
  have hkey : d.check.table.structure? r.name = some { r with role := .record } := by
    rw [Table.structure?, hget]
    rfl
  have honce := Target.filter_isRecord_emissions (record_mem_records h hr) hkey rfl
  exact List.mem_of_mem_filter (honce ▸ List.mem_singleton_self _)

theorem message_mem_emissions (h : d.check.isDeployable = true) {m : Structure Node}
    (hm : m ∈ d.messages) :
    .message m.name { m with role := .message } ∈ Target.emissions d.check.table := by
  have honce := Target.filter_isMessage_emissions (message_mem_entries h hm) rfl
  exact List.mem_of_mem_filter (honce ▸ List.mem_singleton_self _)

/-- **Emitters agree.** In the source of a deployable space, the functions that commit, revert
and compare a declared record or the document name the same fields, once each and in order: those
with state of their own. Each declared message is written and read under the names of its
members. None of these functions spells a type; yet a unit with an alias that contains itself is
never finished (`spelling_ends_iff`), so for such a space the source here is only the one with
the alias cut off. -/
theorem emitters_agree (h : d.check.isDeployable = true) :
    let t := d.check.table
    d.generate = .ok ⟨d.unitName,
      Code.source (Target.header d.unitName ++
        (Target.emissions t).flatMap (Emission.code t d.surface) ++
        Target.exports d.unitName d.surface), Reflection.ofTable t⟩ ∧
    (∀ r ∈ d.records,
      let s := { r with role := .record }
      .record r.name s ∈ Target.emissions t ∧
        StateAgrees t s (recordType r.name) ((Emission.record r.name s).code t d.surface)
          ((Target.storedFields t s).map Field.name)) ∧
    (.document ∈ Target.emissions t ∧
      StateAgrees t d.document Structure.rootName (Emission.document.code t d.surface)
        ((Target.storedFields t d.document).map Field.name)) ∧
    ∀ m ∈ d.messages,
      let s := { m with role := .message }
      .message m.name s ∈ Target.emissions t ∧
        MessageAgrees s ((Emission.message m.name s).code t d.surface)
          (s.fields.map Field.name) := by
  intro t
  -- The document is declared as it is checked.
  have hroot : d.document.WellFormed t := by
    rw [← root_check h]
    exact (wellFormed_of_isDeployable h).structures _ .root
  refine ⟨?_, fun r hr => ⟨record_mem_emissions h hr, ?_⟩, ⟨?_, ?_⟩,
    fun m hm => ⟨message_mem_emissions h hm, ?_⟩⟩
  · rw [generate_eq_ok h, Target.unitCode_eq_emissions]
  · exact Target.stateAgrees_record (wellFormed_record h hr) _ _
  · exact List.mem_append_right _ List.mem_cons_self
  · have hdocument := Target.stateAgrees_document ((root_check h).symm ▸ hroot)
      (names_of_isDeployable h).2.1
    rwa [root_check h] at hdocument
  · exact Target.messageAgrees (wellFormed_message h hm) _ _

/-- A library that tells by a formula under another name how many books it has, and finds them by
their titles. -/
def library : Declarations where
  space := "library"
  root := { Structure.emptyRoot with
    fields :=
      [{ name := "books", type := .ofKind (.table "Book") },
       { name := "count", type := .ofKind (.ref "Count") },
       { name := "titles", type := .ofKind (.projection "books" "title") },
       { name := "open", type := .ofScalar .bool }] }
  records :=
    [{ name := "Book",
       fields :=
        [{ name := "id", type := .ofScalar .int },
         { name := "label",
           type := .ofKind (.lazy (.ofScalar .string) "__this.title.get()" false) },
         { name := "title", type := .ofScalar .string }] }]
  messages :=
    [{ name := "Loan",
       fields :=
        [{ name := "book", type := .ofScalar .int }, { name := "days", type := .ofScalar .int }] }]
  aliases :=
    [("Count", .ofKind (.lazy (.ofScalar .int) "__this.books.len()" false))]

/-- A library commits its books and whether it is open, each book its identity and its title, and a
loan is written as it is read. -/
theorem library_agrees :
    let t := library.check.table
    let book := Target.record t { library.records[0] with role := .record } ++ [.blank]
    let document := Target.document t library.surface ++ [.blank]
    let loan := Target.message t { library.messages[0] with role := .message } ++ [.blank]
    library.check.isDeployable = true ∧
      Code.fillings Target.commitTemplate
          (Code.function "__commit" (Code.implementation "RTxBook" book)) =
        [["id", "id"], ["title", "title"]] ∧
      Code.fillings Target.revertTemplate
          (Code.function "__revert" (Code.implementation "RTxBook" book)) =
        [["id"], ["title"]] ∧
      Code.fillings Target.commitTemplate
          (Code.function "__commit" (Code.implementation Structure.rootName document)) =
        [["books", "books"], ["open", "open"]] ∧
      Code.fillings Target.writeTemplate
          (Code.function "write" (Code.implementation "NtMessage for MsgLoan" loan)) =
        [["book", "book"], ["days", "days"]] ∧
      loan.flatMap Code.memberNames = ["book", "days"] := by
  intro t book document loan
  have h : library.check.isDeployable = true :=
    isDeployable_of_isEmpty (by decide) (by decide +kernel) (by cbv)
  have htable : t = library.table (by decide) := table_draft _
  obtain ⟨-, hrecords, ⟨-, hdocument⟩, hmessages⟩ := emitters_agree h
  have hbook := (hrecords _ List.mem_cons_self).2
  have hloan := (hmessages _ List.mem_cons_self).2
  -- The label of a book is a formula, so it has no state.
  have hnames : (Target.storedFields t { library.records[0] with role := .record }).map Field.name =
      ["id", "title"] := by
    rw [htable]
    cbv
  have hroot : (Target.storedFields t library.document).map Field.name = ["books", "open"] := by
    rw [htable]
    cbv
  refine ⟨h, ?_, ?_, ?_, hloan.written, hloan.members⟩
  · exact hbook.committed.trans (congrArg _ hnames)
  · exact hbook.reverted.trans (congrArg _ hnames)
  · exact hdocument.committed.trans (congrArg _ hroot)

end Declarations

end ReactiveSpace
