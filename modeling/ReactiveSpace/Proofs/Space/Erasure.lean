import ReactiveSpace.Proofs.Json.Parts
import ReactiveSpace.Proofs.Schema.Erasure
import ReactiveSpace.Proofs.Space.Address
import ReactiveSpace.Proofs.Space.Checking

/-!
# Checking without positions and notes

A table keeps what its names and types stand for when positions and notes are erased in it
(`Table.resolve_erase`, `Node.resolution?_erase`), and so do the links between its records
(`Table.links_erase`). The problems that checking finds are the same, one after the other;
only where they are reported changes (`Declarations.problems_check_erase`). The addresses of
the table lead to the same types, erased (`Table.at?_erase`).
-/

namespace ReactiveSpace

variable {keep : Note → Bool}

namespace Table

/-- The table with its entries and its root erased. -/
def erase (keep : Note → Bool) (t : Table) : Table where
  entries := t.entries.map fun e => (e.1, e.2.erase keep)
  root := t.root.erase keep
  distinct := by
    have hnames : Keyed.names (t.entries.map fun e => (e.1, e.2.erase keep)) = t.names := by
      simp [Keyed.names, names]
    exact hnames ▸ t.distinct

variable (t : Table)

@[simp] theorem root_erase : (t.erase keep).root = t.root.erase keep := rfl

/-- Erasing keeps the names of a table, so it can be looked up in as before. -/
@[simp] theorem names_erase : (t.erase keep).names = t.names := by
  simp [names, Keyed.names, erase]

@[simp] theorem get?_erase (name : String) :
    (t.erase keep).get? name = (t.get? name).map (Node.erase keep) :=
  Keyed.get?_map ..

variable {t} in
/-- The form in which a lookup is carried over to the erased table. -/
theorem get?_erase_of_some {name : String} {node : Node} (h : t.get? name = some node) :
    (t.erase keep).get? name = some (node.erase keep) := by
  rw [get?_erase, h, Option.map_some]

/-- No record is lost or gained, and they stay in order. -/
theorem records_erase : (t.erase keep).records = t.records.map (Structure.erase keep) := by
  unfold records erase
  rw [List.filterMap_map, List.map_filterMap]
  exact List.filterMap_congr fun e _ => e.2.erase_record?

theorem messages_erase : (t.erase keep).messages = t.messages.map (Structure.erase keep) := by
  unfold messages erase
  rw [List.filterMap_map, List.map_filterMap]
  exact List.filterMap_congr fun e _ => e.2.erase_message?

/-- The structure of a name is erased with the table. -/
theorem structure?_erase (name : String) :
    (t.erase keep).structure? name = (t.structure? name).map (Structure.erase keep) := by
  unfold structure?
  rw [get?_erase]
  cases t.get? name with
  | none => rfl
  | some n => exact n.erase_structure?

/-! ### What names and types stand for -/

/-- **Names stand for the same.** The two tables pass through the same aliases, whatever was seen
before. -/
theorem resolveFrom_erase (seen : List String) (name : String) :
    (t.erase keep).resolveFrom seen name = t.resolveFrom seen name := by
  -- Both tables pass the same names, so the induction on the names left is that of the first.
  fun_induction resolveFrom t seen name with
  | case1 seen name hs => rw [resolveFrom, dif_pos hs]
  | case2 seen name hs hg =>
    rw [resolveFrom, dif_neg hs]
    split
    · rfl
    · simp_all
  | case3 seen name hs node hg s hk | case4 seen name hs node hg s hk =>
    rw [resolveFrom_of_get? hs (get?_erase_of_some hg), Node.erase_kind, hk]
    rfl
  | case5 seen name hs node hg next hk ih =>
    rw [resolveFrom_of_get? hs (get?_erase_of_some hg), Node.erase_kind, hk]
    exact ih
  | case6 seen name hs node hg hrecord hmessage href =>
    rw [resolveFrom_of_get? hs (get?_erase_of_some hg), Node.erase_kind]
    cases hk : node.kind with
    | record s => exact absurd hk (hrecord s)
    | message s => exact absurd hk (hmessage s)
    | ref next => exact absurd hk (href next)
    | _ => rfl

/-- Resolutions hold names and scalars but no types, so they are not just alike but equal. -/
@[simp] theorem resolve_erase (name : String) : (t.erase keep).resolve name = t.resolve name :=
  t.resolveFrom_erase [] name

theorem target?_erase (r : Resolution) :
    (t.erase keep).target? r = (t.target? r).map (Node.erase keep) := by
  cases r with
  | projection => rfl
  | _ => exact t.get?_erase _

/-- Following a name ends at the erased type, or ends nowhere in both tables. -/
theorem followName?_erase (name : String) :
    (t.erase keep).followName? name = (t.followName? name).map (Node.erase keep) := by
  unfold followName?
  rw [resolve_erase]
  cases t.resolve name with
  | ok r => exact t.target?_erase r
  | error e => rfl

theorem follow?_erase (n : Node) :
    (t.erase keep).follow? (n.erase keep) = (t.follow? n).map (Node.erase keep) := by
  unfold follow?
  rw [Node.erase_kind]
  cases n.kind with
  | ref name => exact t.followName?_erase name
  | _ => rfl

/-- Names of records are those of records, erased. -/
theorem followRecord?_erase (name : String) :
    (t.erase keep).followRecord? name = (t.followRecord? name).map (Structure.erase keep) := by
  unfold followRecord?
  rw [followName?_erase]
  cases t.followName? name with
  | none => rfl
  | some n => exact n.erase_record?

/-- A type comes down to the same scalar. Scalars have nothing to erase. -/
@[simp] theorem scalarOf?_erase (n : Node) :
    (t.erase keep).scalarOf? (n.erase keep) = t.scalarOf? n := by
  unfold scalarOf?
  rw [follow?_erase]
  cases t.follow? n with
  | none => rfl
  | some target => exact target.erase_scalar?

/-- Whether a type comes down to a table depends on no position. -/
@[simp] theorem isTable_erase (n : Node) : (t.erase keep).isTable (n.erase keep) = t.isTable n := by
  unfold isTable
  rw [follow?_erase]
  cases t.follow? n with
  | none => rfl
  | some target => exact target.erase_isTable

@[simp] theorem tableRecord?_erase (n : Node) :
    (t.erase keep).tableRecord? (n.erase keep) = t.tableRecord? n := by
  unfold tableRecord?
  rw [follow?_erase]
  cases t.follow? n with
  | none => rfl
  | some target =>
    rw [Option.map_some, Option.map_some, Option.map_some, Node.erase_kind]
    cases target.kind <;> rfl

/-- Erasing does not change the scalar that a map or a projection has as its domain. -/
@[simp] theorem domainOf?_erase (n : Node) :
    (t.erase keep).domainOf? (n.erase keep) = t.domainOf? n := by
  rw [domainOf?, domainOf?, scalarOf?_erase]

/-! ### Resolutions -/

/-- The name after `table` stands for the same record. Errors print types, and types are printed
without their positions. -/
theorem resolveTable_erase (record : String) :
    (t.erase keep).resolveTable record = t.resolveTable record := by
  unfold resolveTable
  rw [resolve_erase]
  cases t.resolve record with
  | error e => rfl
  | ok r =>
    dsimp only
    rw [target?_erase]
    cases t.target? r with
    | none => rfl
    | some target =>
      -- An error names the kind that was found, and prints it.
      simp only [Option.map_some, Node.erase_kind, Node.erase_describe]
      cases target.kind with
      | record s => simp only [Kind.erase, Structure.erase_name]
      | _ => rfl

/-- The name after `holder` stands for the same message. -/
theorem resolveHolder_erase (message : String) :
    (t.erase keep).resolveHolder message = t.resolveHolder message := by
  unfold resolveHolder
  rw [resolve_erase]
  cases t.resolve message with
  | error e => rfl
  | ok r =>
    dsimp only
    rw [target?_erase]
    cases t.target? r with
    | none => rfl
    | some target =>
      simp only [Option.map_some, Node.erase_kind, Node.erase_describe]
      cases target.kind with
      | message s => simp only [Kind.erase, Structure.erase_name]
      | _ => rfl

/-- The fields of a projection are looked up in the erased structure that it stands in, by name. -/
theorem resolveProjection_erase (scope : Option (Structure Node)) (table field : String) :
    (t.erase keep).resolveProjection (scope.map (Structure.erase keep)) table field =
      t.resolveProjection scope table field := by
  unfold resolveProjection
  cases scope with
  | none => rfl
  | some owner =>
    simp only [Option.map_some, Structure.erase_field?, Structure.erase_name]
    cases owner.field? table with
    | none => rfl
    | some v =>
      simp only [Option.map_some, Field.erase_type, tableRecord?_erase]
      cases t.tableRecord? v.type with
      | none => rfl
      | some name =>
        -- From here on the record of the rows is the erased one.
        simp only [followRecord?_erase]
        cases t.followRecord? name with
        | none => rfl
        | some record =>
          simp only [Option.map_some, Structure.erase_field?, Structure.erase_name]
          cases record.field? field with
          | none => rfl
          | some projected =>
            simp only [Option.map_some, Field.erase_type, domainOf?_erase, Node.erase_describe]

end Table

/-- The site with the structure there erased. -/
def Site.erase (keep : Note → Bool) : Site → Site
  | .outside => .outside
  | .declared scope => .declared (scope.map (Structure.erase keep))

/-- **Resolutions survive erasure.** At the erased site the erased type has the resolution that it
had. -/
@[simp] theorem Node.resolution?_erase (t : Table) (site : Site) (n : Node) :
    (n.erase keep).resolution? (t.erase keep) (site.erase keep) = n.resolution? t site := by
  cases site with
  | outside => rfl
  | declared scope =>
    unfold resolution? Site.erase
    simp only [erase_kind]
    cases n.kind with
    | ref name => simp only [Kind.erase, Table.resolve_erase]
    | table record => simp only [Kind.erase, Table.resolveTable_erase]
    | holder message => simp only [Kind.erase, Table.resolveHolder_erase]
    | projection table field => simp only [Kind.erase, Table.resolveProjection_erase]
    | _ => rfl

/-! ### Dependencies -/

namespace Table

variable (t : Table)

/-- Where a reference leads is told by what its name stands for, and that is erased. -/
theorem link?_erase_ref {t : Table} {seen : List String} {direct : Bool} {position : Position}
    {notes : List Note} {name : String} {target : Node} (hname : t.followName? name = some target) :
    (t.erase keep).link? seen direct (Node.erase keep ⟨position, notes, .ref name⟩) =
      match target.structure? with
      | some _ => target.record?.map fun s => ⟨s.name, direct⟩
      | none =>
        if name ∈ seen then none
        else (t.erase keep).link? (name :: seen) direct (target.erase keep) := by
  have hname' : (t.erase keep).followName? name = some (target.erase keep) := by
    rw [followName?_erase, hname, Option.map_some]
  rw [Node.erase, Kind.erase, link?_ref rfl (followName?_eq_some_iff.1 hname'),
    Node.erase_structure?, Node.erase_record?]
  cases target.structure? <;> simp [Function.comp_def]

/-- A type links its owner to the same record, as directly as before. The recursion passes through
the same references in both tables. -/
theorem link?_erase (seen : List String) (direct : Bool) (n : Node) :
    (t.erase keep).link? seen direct (n.erase keep) = t.link? seen direct n := by
  fun_induction link? t seen direct n with
  | case1 seen direct position notes name hname =>
    rw [Node.erase, Kind.erase, link?]
    split
    · rfl
    · simp_all [followName?_erase]
  | case2 seen direct position notes name target hname s hk
  | case3 seen direct position notes name target hname s hk =>
    rw [link?_erase_ref hname]
    simp [Node.structure?, Node.record?, hk]
  | case4 seen direct position notes name target hname hs hrecord hmessage =>
    simp [link?_erase_ref hname, Node.structure?_eq_none hrecord hmessage, hs]
  | case5 seen direct position notes name target hname hs hrecord hmessage ih =>
    simp [link?_erase_ref hname, Node.structure?_eq_none hrecord hmessage, hs, ih]
  | case6 seen direct position notes s => rw [Node.erase, Kind.erase, link?, Structure.erase_name]
  | case7 seen direct position notes record =>
    rw [Node.erase, Kind.erase, link?, followRecord?_erase, Option.map_map]
    simp only [Function.comp_def, Structure.erase_name]
  | case8 seen direct position notes element ih => rw [Node.erase, Kind.erase, link?, ih]
  | case9 seen direct position notes domain range ih => rw [Node.erase, Kind.erase, link?, ih]
  | case10 seen direct position notes inner ih => rw [Node.erase, Kind.erase, link?, ih]
  | case11 seen direct position notes computed formula cached ih =>
    rw [Node.erase, Kind.erase, link?, ih]
  | case12 seen direct n hnames hrecord htable hlist hmap hmaybe hlazy =>
    obtain ⟨position, notes, kind⟩ := n
    -- All that is left are types that link to nothing.
    cases kind with
    | ref => exact (hnames _ _ _ rfl).elim
    | record => exact (hrecord _ _ _ rfl).elim
    | table => exact (htable _ _ _ rfl).elim
    | list => exact (hlist _ _ _ rfl).elim
    | map => exact (hmap _ _ _ _ rfl).elim
    | maybe => exact (hmaybe _ _ _ rfl).elim
    | lazy => exact (hlazy _ _ _ _ _ rfl).elim
    | _ => simp [Node.erase, Kind.erase, link?]

theorem links_erase (s : Structure Node) : (t.erase keep).links (s.erase keep) = t.links s := by
  unfold links
  rw [Structure.erase_fields, List.filterMap_map]
  exact List.filterMap_congr fun f _ => t.link?_erase [] true f.type

/-- The graph of dependencies is not touched by erasure: its nodes and edges are names. -/
theorem dependencies_erase : (t.erase keep).dependencies = t.dependencies := by
  unfold dependencies
  rw [records_erase, List.map_map]
  simp only [Function.comp_def, Structure.erase_name, links_erase]

theorem embeddings_erase : (t.erase keep).embeddings = t.embeddings := by
  unfold embeddings
  rw [records_erase, List.map_map]
  simp only [Function.comp_def, Structure.erase_name, links_erase]

/-! ### Problems -/

/-- What is wrong with a range does not depend on where it was written. -/
@[simp] theorem rangeProblems_erase (container : Container) (range : Node) :
    (t.erase keep).rangeProblems container (range.erase keep) =
      t.rangeProblems container range := by
  rw [rangeProblems, rangeProblems, isTable_erase, Node.erase_describe]

@[simp] theorem domainProblems_erase (domain : Node) :
    (t.erase keep).domainProblems (domain.erase keep) = t.domainProblems domain := by
  unfold domainProblems
  rw [follow?_erase, Node.erase_describe]
  cases t.follow? domain with
  | none => rfl
  | some target => simp only [Option.map_some, Node.erase_isMapDomain]

/-- A reference is rejected for what it leads to and for the role of the structure around it, both
of which are kept. -/
theorem referenceProblems_erase (scope : Option (Structure Node)) (name : String) :
    (t.erase keep).referenceProblems (scope.map (Structure.erase keep)) name =
      t.referenceProblems scope name := by
  unfold referenceProblems
  rw [resolve_erase]
  cases t.resolve name with
  | error e => rfl
  | ok r =>
    simp only [target?_erase]
    cases t.target? r with
    | none => rfl
    | some target =>
      simp only [Option.map_some, Node.erase_kind]
      cases target.kind with
      | record s | message s =>
        -- Only here does the scope count: a message may not hold a record, whatever the reference
        -- is called.
        cases scope <;>
          simp only [Option.map_none, Option.map_some, Kind.erase, Structure.erase_name,
            Structure.erase_role]
      | _ => rfl

end Table

/-- A type has the same problems of its own, its parts aside. -/
theorem Node.ownProblems_erase (t : Table) (scope : Option (Structure Node)) (n : Node) :
    (n.erase keep).ownProblems (t.erase keep) (scope.map (Structure.erase keep)) =
      n.ownProblems t scope := by
  unfold ownProblems
  rw [erase_kind]
  cases n.kind with
  | list element => exact t.rangeProblems_erase .list element
  | map domain range =>
    simp only [Kind.erase, Table.domainProblems_erase, Table.rangeProblems_erase]
  | lazy computed formula cached => simp only [Kind.erase, Table.rangeProblems_erase]
  | table record => exact congrArg Outcome.problems (t.resolveTable_erase record)
  | holder message => exact congrArg Outcome.problems (t.resolveHolder_erase message)
  | projection table field =>
    exact congrArg Outcome.problems (t.resolveProjection_erase scope table field)
  | ref name => exact t.referenceProblems_erase scope name
  | _ => rfl

namespace Structure

variable (t : Table) (s : Structure Node)

/-- A policy is checked against the fields and rules of its structure, by their names. -/
theorem privacyProblems_erase (f : Field Node) :
    (s.erase keep).privacyProblems (t.erase keep) (f.erase keep) = s.privacyProblems t f := by
  unfold privacyProblems
  rw [Field.erase_privacy]
  cases f.privacy with
  | none => rfl
  | some privacy =>
    cases privacy with
    | viewerIs viewer =>
      simp only [erase_field?, erase_name, Field.erase_name]
      cases s.field? viewer with
      | none => rfl
      | some v => simp only [Option.map_some, Field.erase_type, Table.scalarOf?_erase]
    | useCustom rule =>
      simp only [erase_rules, erase_name, Field.erase_name, List.any_map, Function.comp_def,
        Rule.erase_name]
    | _ => rfl

/-- A field has the same problems of its own, its type aside. -/
theorem fieldProblems_erase (f : Field Node) :
    (s.erase keep).fieldProblems (t.erase keep) (f.erase keep) = s.fieldProblems t f := by
  unfold fieldProblems
  rw [privacyProblems_erase]
  simp only [erase_name, erase_role, Field.erase_name, Field.erase_type, Field.erase_privacy,
    Field.erase_readonly, Table.isTable_erase, Node.erase_isProjection, Node.erase_fitsMessage,
    Node.erase_describe]

/-- The check for an identity looks at the names and the scalars of fields. -/
theorem identityProblems_erase :
    (s.erase keep).identityProblems (t.erase keep) = s.identityProblems t := by
  unfold identityProblems
  rw [erase_field?, erase_name]
  cases s.field? "id" with
  | none => rfl
  | some id =>
    simp only [Option.map_some, Field.erase_type, Table.scalarOf?_erase, Node.erase_describe]

/-- An index is checked against the field that it names. -/
theorem indexProblems_erase (i : Index) :
    (s.erase keep).indexProblems (t.erase keep) i.erase = s.indexProblems t i := by
  unfold indexProblems
  rw [erase_field?, erase_name, Index.erase_field]
  cases s.field? i.field with
  | none => rfl
  | some f =>
    simp only [Option.map_some, Field.erase_type, Table.scalarOf?_erase, Node.erase_describe]

/-- A method name is checked against those before it. -/
theorem methodNameProblems_erase (earlier : List String) (m : Method Node) :
    (s.erase keep).methodNameProblems earlier (m.erase keep) = s.methodNameProblems earlier m := by
  unfold methodNameProblems
  simp only [erase_name, erase_fields, Method.erase_name, Method.erase_parameters, List.flatMap_map,
    Parameter.erase_name, List.any_map, Function.comp_def, Field.erase_name]

end Structure

/-! ### Diagnostics -/

/-- The same problems are found in a type and in the erased type, in the same order. -/
def Node.KeepsProblems (keep : Note → Bool) (t : Table) (scope : Option (Structure Node))
    (n : Node) : Prop :=
  ((n.erase keep).diagnostics (t.erase keep) (scope.map (Structure.erase keep))).map
      Diagnostic.problem =
    (n.diagnostics t scope).map Diagnostic.problem

namespace Structure

variable {t : Table} {s : Structure Node}

/-- Fields have the same problems in order, if their types do. By induction on the fields, for any
names that came before. -/
theorem problems_fieldDiagnostics_erase (earlier : List String) {fs : List (Field Node)}
    (h : ∀ f ∈ fs, f.type.KeepsProblems keep t (some s)) :
    (fieldDiagnostics (t.erase keep) (s.erase keep) earlier (fs.map (Field.erase keep))).map
        Diagnostic.problem =
      (fieldDiagnostics t s earlier fs).map Diagnostic.problem := by
  induction fs generalizing earlier with
  | nil => rfl
  | cons f fs ih =>
    have htype := h f List.mem_cons_self
    -- The names that came before are part of the hypothesis, since each field is added to them.
    have hrest := ih (f.name :: earlier) fun f hf => h f (List.mem_cons_of_mem _ hf)
    rw [Node.KeepsProblems, Option.map_some] at htype
    rw [List.map_cons, fieldDiagnostics_cons, fieldDiagnostics_cons]
    simp only [List.map_append, Diagnostic.map_problem_allAt, erase_name, fieldProblems_erase,
      Field.erase_name, Field.erase_type, htype, hrest]

theorem problems_parameterDiagnostics_erase {ps : List (Parameter Node)}
    (h : ∀ p ∈ ps, p.type.KeepsProblems keep t (some s)) :
    (parameterDiagnostics (t.erase keep) (s.erase keep) (ps.map (Parameter.erase keep))).map
        Diagnostic.problem =
      (parameterDiagnostics t s ps).map Diagnostic.problem := by
  induction ps with
  | nil => rfl
  | cons p ps ih =>
    have htype := h p List.mem_cons_self
    have hrest := ih fun p hp => h p (List.mem_cons_of_mem _ hp)
    rw [Node.KeepsProblems, Option.map_some] at htype
    rw [List.map_cons, parameterDiagnostics, parameterDiagnostics]
    simp only [List.map_append, Parameter.erase_type, htype, hrest]

/-- Methods keep their problems when the types of their parameters and results do. -/
theorem problems_methodDiagnostics_erase (earlier : List String) {ms : List (Method Node)}
    (hparameters : ∀ m ∈ ms, ∀ p ∈ m.parameters, p.type.KeepsProblems keep t (some s))
    (hreturns : ∀ m ∈ ms, ∀ n ∈ m.returns, n.KeepsProblems keep t (some s)) :
    (methodDiagnostics (t.erase keep) (s.erase keep) earlier (ms.map (Method.erase keep))).map
        Diagnostic.problem =
      (methodDiagnostics t s earlier ms).map Diagnostic.problem := by
  induction ms generalizing earlier with
  | nil => rfl
  | cons m ms ih =>
    have hrest := ih (m.name :: earlier) (fun m hm => hparameters m (List.mem_cons_of_mem _ hm))
      fun m hm => hreturns m (List.mem_cons_of_mem _ hm)
    -- A method without a result has no diagnostics there.
    have hresult : (resultDiagnostics (t.erase keep) (s.erase keep)
        (m.returns.map (Node.erase keep))).map Diagnostic.problem =
          (resultDiagnostics t s m.returns).map Diagnostic.problem := by
      cases hm : m.returns with
      | none => rfl
      | some n => exact hreturns m List.mem_cons_self n hm
    rw [List.map_cons, methodDiagnostics_cons, methodDiagnostics_cons]
    simp only [List.map_append, Diagnostic.map_problem_allAt, methodNameProblems_erase,
      Method.erase_name, Method.erase_parameters, Method.erase_returns,
      problems_parameterDiagnostics_erase (hparameters m List.mem_cons_self), hresult, hrest]

/-- A structure keeps its problems if the types of its members do. Where it stands has no part in
this. -/
theorem problems_diagnostics_erase (position position' : Position)
    (h : ∀ n ∈ s.types, n.KeepsProblems keep t (some s)) :
    ((s.erase keep).diagnostics (t.erase keep) position').map Diagnostic.problem =
      (s.diagnostics t position).map Diagnostic.problem := by
  obtain ⟨hfields, hmethods⟩ := forall_mem_types_iff.1 h
  have hparameters := fun m hm => (hmethods m hm).1
  have hreturns := fun m hm => (hmethods m hm).2
  rw [diagnostics_eq, diagnostics_eq]
  simp only [List.map_append, List.map_flatMap, List.flatMap_map, Diagnostic.map_problem_allAt,
    erase_fields, erase_indices, erase_methods, erase_rules, erase_role, identityProblems_erase,
    indexProblems_erase, Rule.erase_name, problems_fieldDiagnostics_erase [] hfields,
    problems_methodDiagnostics_erase [] hparameters hreturns]

end Structure

/-- **Every type keeps its problems**, in every scope. By induction on types: the problems of parts
are kept in this scope, and those of the members of a structure in the scope of that structure. -/
theorem Node.keepsProblems (t : Table) (scope : Option (Structure Node)) (n : Node) :
    n.KeepsProblems keep t scope := by
  induction n using Node.induction generalizing scope with
  | h n ihparts ihmembers =>
    -- Problems of parts come first, then those of the structure, then those of the type itself.
    have hparts : (n.parts.map (Node.erase keep)).flatMap (fun m =>
        (m.diagnostics (t.erase keep) (scope.map (Structure.erase keep))).map Diagnostic.problem) =
          n.parts.flatMap fun m => (m.diagnostics t scope).map Diagnostic.problem := by
      rw [List.flatMap_map]
      exact List.flatMap_congr fun m hm => ihparts m hm scope
    rw [KeepsProblems, diagnostics_eq, diagnostics_eq]
    simp only [List.map_append, List.map_flatMap, Diagnostic.map_problem_allAt, ownProblems_erase,
      erase_parts, erase_structure?, hparts]
    cases hs : n.structure? with
    | none => rfl
    | some s =>
      have hbody : ((s.erase keep).diagnostics (t.erase keep) (n.erase keep).position).map
          Diagnostic.problem = (s.diagnostics t n.position).map Diagnostic.problem :=
        Structure.problems_diagnostics_erase _ _ fun m hm => ihmembers s hs m hm (some s)
      simp [hbody]

/-! ### Spaces -/

namespace Table

variable (t : Table)

/-- What is wrong with the entries of a table is the same, entry by entry. -/
theorem problems_entryDiagnostics_erase :
    (t.erase keep).entryDiagnostics.map Diagnostic.problem =
      t.entryDiagnostics.map Diagnostic.problem := by
  unfold entryDiagnostics erase
  rw [List.flatMap_map, List.map_flatMap, List.map_flatMap]
  exact List.flatMap_congr fun e _ => e.2.keepsProblems t none

theorem problems_rootDiagnostics_erase :
    (t.erase keep).rootDiagnostics.map Diagnostic.problem =
      t.rootDiagnostics.map Diagnostic.problem :=
  Structure.problems_diagnostics_erase _ _ fun n _ => n.keepsProblems t _

/-- Cycles are found in the graph of embeddings, which is the same. -/
theorem problems_cycleDiagnostics_erase :
    (t.erase keep).cycleDiagnostics.map Diagnostic.problem =
      t.cycleDiagnostics.map Diagnostic.problem := by
  unfold cycleDiagnostics
  rw [embeddings_erase, List.map_map, List.map_map]
  rfl

/-- A declaration is taken or rejected for its name alone. -/
theorem declare_erase (name : String) (node : Node) :
    (t.erase keep).declare name (node.erase keep) =
      ((t.declare name node).1.erase keep, (t.declare name node).2) := by
  unfold declare
  by_cases hname : name ∈ t.names
  · rw [dif_pos hname, dif_pos (t.names_erase ▸ hname)]
  · rw [dif_neg hname, dif_neg (t.names_erase ▸ hname)]
    exact Prod.ext (eq_of_entries_of_root (by simp [erase]) rfl) rfl

end Table

/-- The second draft has the table of the first, erased, and the same problems. -/
structure Draft.Erased (keep : Note → Bool) (draft draft' : Draft) : Prop where
  table : draft'.table = draft.table.erase keep
  problems :
    draft'.diagnostics.map Diagnostic.problem = draft.diagnostics.map Diagnostic.problem

namespace Draft.Erased

variable {draft draft' : Draft}

/-- Declaring one more type. -/
theorem declare (h : Erased keep draft draft') (name : String) (node : Node) :
    Erased keep (draft.declare name node) (draft'.declare name (node.erase keep)) := by
  unfold Draft.declare
  rw [h.table, Table.declare_erase]
  refine ⟨rfl, ?_⟩
  simp only [List.map_append, h.problems, Diagnostic.map_problem_allAt]

theorem declareAll (h : Erased keep draft draft') (types : List (String × Node)) :
    Erased keep (draft.declareAll types)
      (draft'.declareAll (types.map fun e => (e.1, e.2.erase keep))) := by
  induction types generalizing draft draft' with
  | nil => exact h
  | cons e types ih => exact ih (h.declare e.1 e.2)

/-- Tests have nothing to erase, but the names that are taken twice are reported once more. -/
theorem declareTests (h : Erased keep draft draft') (names : List String) :
    Erased keep (draft.declareTests names) (draft'.declareTests names) := by
  refine ⟨h.table, ?_⟩
  rw [Draft.declareTests, Draft.declareTests, List.map_append, List.map_append, h.problems]

end Draft.Erased

namespace Declarations

/-- The declarations with all their types erased. -/
def erase (keep : Note → Bool) (d : Declarations) : Declarations where
  space := d.space
  records := d.records.map (Structure.erase keep)
  messages := d.messages.map (Structure.erase keep)
  aliases := d.aliases.map fun e => (e.1, e.2.erase keep)
  root := d.root.erase keep
  surface := d.surface

variable (d : Declarations)

theorem types_erase : (d.erase keep).types = d.types.map fun e => (e.1, e.2.erase keep) := by
  simp [types, erase, Structure.erase_eq, Node.erase, Kind.erase, Node.ofRecord, Node.ofMessage,
    Function.comp_def]

theorem document_erase : (d.erase keep).document = d.document.erase keep := by
  simp [document, erase, Structure.erase_eq]

/-- The draft of the erased declarations is that of the declarations, erased. -/
theorem draft_erased : Draft.Erased keep d.draft (d.erase keep).draft := by
  have hroot : Draft.Erased keep (Draft.ofRoot d.document) (Draft.ofRoot (d.erase keep).document) :=
    ⟨Table.eq_of_entries_of_root rfl d.document_erase, rfl⟩
  rw [draft_eq, draft_eq, types_erase]
  exact (hroot.declareAll d.types).declareTests _

theorem table_check_erase : (d.erase keep).check.table = d.check.table.erase keep :=
  d.draft_erased.table

/-- **Checking** finds the same problems in the same order when positions and notes are erased. -/
theorem problems_check_erase :
    (d.erase keep).check.diagnostics.map Diagnostic.problem =
      d.check.diagnostics.map Diagnostic.problem := by
  obtain ⟨htable, hproblems⟩ : Draft.Erased keep d.draft (d.erase keep).draft := d.draft_erased
  unfold check Draft.check
  rw [htable]
  simp only [List.map_append, hproblems, Table.problems_entryDiagnostics_erase,
    Table.problems_rootDiagnostics_erase, Table.problems_cycleDiagnostics_erase]

end Declarations

/-! ### Addresses -/

/-- The type or structure erased, with the structure around it. -/
def Part.erase (keep : Note → Bool) : Part → Part
  | .type scope n => .type (scope.map (Structure.erase keep)) (n.erase keep)
  | .body s => .body (s.erase keep)

/-- A step leads to the erased type of the same member. -/
theorem Structure.member?_erase (s : Structure Node) (step : Step) :
    (s.erase keep).member? step = (s.member? step).map (Node.erase keep) := by
  cases step with
  | field i => simp [member?, Function.comp_def]
  | parameter k i => cases hm : s.methods[k]? <;> simp [member?, hm, Function.comp_def]
  | result k => cases hm : s.methods[k]? <;> simp [member?, hm]
  | _ => rfl

/-- A step leads to the erased part of the same kind. -/
theorem Node.part?_erase (n : Node) (step : Step) :
    (n.erase keep).part? step = (n.part? step).map (Node.erase keep) := by
  unfold part?
  rw [erase_kind]
  cases n.kind <;> cases step <;> rfl

namespace Part

/-- What is at an address has a structure exactly when it had one. -/
theorem structure?_erase (p : Part) :
    (p.erase keep).structure? = p.structure?.map (Structure.erase keep) := by
  cases p with
  | type scope n => exact n.erase_structure?
  | body s => rfl

/-- One step of an address. -/
theorem below?_erase (p : Part) (step : Step) :
    (p.erase keep).below? step = (p.below? step).map (erase keep) := by
  have hmember : ∀ s : Structure Node,
      ((s.erase keep).member? step).map (type (some (s.erase keep))) =
        ((s.member? step).map (type (some s))).map (erase keep) := by
    intro s
    rw [Structure.member?_erase, Option.map_map, Option.map_map]
    rfl
  -- The type of a structure leads to its members, any other type to its parts in the same scope.
  cases p with
  | body s => exact hmember s
  | type scope n =>
    unfold below?
    rw [structure?_erase]
    simp only [structure?, erase]
    cases n.structure? with
    | some s => exact hmember s
    | none =>
      simp only [Option.map_none, Node.part?_erase, Option.map_map]
      rfl

/-- All steps of an address, by induction on them. -/
theorem walk?_erase (p : Part) (steps : List Step) :
    (p.erase keep).walk? steps = (p.walk? steps).map (erase keep) := by
  induction steps with
  | nil => rfl
  | cons step steps ih =>
    rw [walk?, walk?, ih]
    cases p.walk? steps with
    | none => rfl
    | some q => exact q.below?_erase step

end Part

/-- What an address leads to is erased with the table. -/
theorem Table.at?_erase (t : Table) (a : Address) :
    (t.erase keep).at? a = (t.at? a).map (Part.erase keep) := by
  unfold at?
  -- An address starts at the root or at an entry of the table.
  cases a.entry with
  | none => exact Part.walk?_erase (.body t.root) a.steps
  | some name =>
    dsimp only
    rw [get?_erase]
    cases t.get? name with
    | none => rfl
    | some n => exact Part.walk?_erase (.type none n) a.steps

/-- Tables that are erased to the same have the same types at the same addresses, up to what is
erased. -/
theorem Table.exists_at?_of_erase_eq {t t' : Table} (h : t.erase keep = t'.erase keep)
    {a : Address} {scope : Option (Structure Node)} {n : Node}
    (ha : t.at? a = some (.type scope n)) :
    ∃ scope' n', t'.at? a = some (.type scope' n') ∧
      scope.map (Structure.erase keep) = scope'.map (Structure.erase keep) ∧
      n.erase keep = n'.erase keep := by
  have hat : (t'.at? a).map (Part.erase keep) = some (Part.erase keep (.type scope n)) := by
    rw [← at?_erase, ← h, at?_erase, ha, Option.map_some]
  obtain ⟨p, hp, herase⟩ := Option.map_eq_some_iff.1 hat
  cases p with
  | body s => cases herase
  | type scope' n' =>
    obtain ⟨hscope, hn⟩ := Part.type.inj herase
    exact ⟨scope', n', hp, hscope.symm, hn.symm⟩

/-- What is asked of a type at its site is the same where the same is erased, if it is the same as
for what is erased. -/
theorem eq_of_erase_eq {α : Type} {f : Table → Site → Node → α}
    (hf : ∀ t site n,
      f (Table.erase keep t) (Site.erase keep site) (Node.erase keep n) = f t site n)
    {t t' : Table} {site site' : Site} {n n' : Node} (ht : t.erase keep = t'.erase keep)
    (hsite : site.erase keep = site'.erase keep) (hn : n.erase keep = n'.erase keep) :
    f t site n = f t' site' n' := by
  rw [← hf t, ht, hsite, hn, hf]

end ReactiveSpace
