import Mathlib.Data.List.Permutation
import ReactiveSpace.Proofs.Space.Typing

/-!
# Checking is right

Checking a space reports nothing exactly when its declarations are well formed
(`Declarations.check_reports_nothing_iff`).

Whether a type is admissible can not always be told from its own problems: a map says nothing about
a domain that comes to nothing, and a projection nothing about a table without a record, because
another type is to blame. `Table.Settled` is what these types rely on. It holds when nothing is
reported and it holds when all is well formed, and where it holds a type has no problems of its own
exactly when it is admissible (`Table.Settled.ownProblems_eq_nil_iff`). The rest is an induction on
what occurs in one direction, and on its size in the other.
-/

namespace ReactiveSpace

open Relation

namespace Table

variable {t : Table}

/-- A record that a name stands for occurs in the table. -/
theorem NamesKind.occurs {name : String} {s : Structure Node} (h : t.NamesKind name (.record s)) :
    t.Occurs (.body s) := by
  obtain ⟨target, hnames, hk⟩ := h
  obtain ⟨key, hkey⟩ := hnames.exists_entry
  exact .body (.of_get? hkey) (by simp [Node.structure?, hk])

/-! ### What types rely on -/

/-- What types rely on others for: fields can be told apart, every type comes to something, and
every table has rows. -/
structure Settled (t : Table) : Prop where
  fields_nodup : ∀ s, t.Occurs (.body s) → (s.fields.map Field.name).Nodup
  comesTo : ∀ scope n, t.Occurs (.type scope n) → ∃ target, t.ComesTo n target
  rows : ∀ scope n record, t.Occurs (.type scope n) → n.kind = .table record →
    ∃ s, t.NamesKind record (.record s)

namespace Settled

/-- Every table that an occurring type comes to has rows. -/
theorem exists_record (ht : t.Settled) {scope : Option (Structure Node)} {n : Node}
    {record : String} (hn : t.Occurs (.type scope n)) (h : t.HasKind n (.table record)) :
    ∃ s, t.NamesKind record (.record s) := by
  obtain ⟨target, hcomes, hk⟩ := h
  rcases hcomes.eq_or_occurs with rfl | htarget
  · exact ht.rows _ _ _ hn hk
  · exact ht.rows _ _ _ htarget hk

/-- A projection has no problem exactly when its table and its field are there. -/
theorem problems_resolveProjection_eq_nil_iff (ht : t.Settled) {owner : Structure Node}
    (howner : t.Occurs (.body owner)) {table field : String} :
    (t.resolveProjection (some owner) table field).problems = [] ↔
      ∃ v ∈ owner.fields, v.name = table ∧
        ∃ record, t.HasKind v.type (.table record) ∧ ∃ r, t.NamesKind record (.record r) ∧
          ∃ p ∈ r.fields, p.name = field ∧ t.IsKey p.type := by
  rw [Structure.exists_field_iff (ht.fields_nodup owner howner)]
  unfold resolveProjection
  simp only [← tableRecord?_eq_some_iff, ← followRecord?_eq_some_iff]
  cases hv : owner.field? table with
  | none => simp [Outcome.problems]
  | some v =>
    simp only [Option.some.injEq, exists_eq_left']
    cases hrecord : t.tableRecord? v.type with
    | none => simp [Outcome.problems]
    | some record =>
      simp only [Option.some.injEq, exists_eq_left']
      -- The type of `v` is a member of `owner`, so its rows are those of a record.
      have hmem : v.type ∈ owner.types := by
        rw [Structure.field?_eq_some_iff (ht.fields_nodup owner howner)] at hv
        exact List.mem_append_left _ (List.mem_map_of_mem hv.1)
      obtain ⟨r, hr⟩ :=
        ht.exists_record (.member howner hmem) (tableRecord?_eq_some_iff.1 hrecord)
      rw [← followRecord?_eq_some_iff] at hr
      simp only [hr, Option.some.injEq, exists_eq_left']
      have hd := ht.fields_nodup r (followRecord?_eq_some_iff.1 hr).occurs
      rw [Structure.exists_field_iff hd]
      cases r.field? field with
      | none => simp [Outcome.problems]
      | some p =>
        simp only [Option.some.injEq, exists_eq_left', ← domainOf?_isSome_iff]
        cases t.domainOf? p.type <;> simp [Outcome.problems]

/-- A type has no problems of its own exactly when it is admissible. -/
theorem ownProblems_eq_nil_iff (ht : t.Settled) {scope : Option (Structure Node)} {n : Node}
    (hn : t.Occurs (.type scope n)) : n.ownProblems t scope = [] ↔ n.Admissible t scope := by
  obtain ⟨position, notes, kind⟩ := n
  unfold Node.ownProblems Node.Admissible
  cases kind with
  | scalar | text | maybe | record | message => simp
  | replication service method => simp
  | list element => simp
  | map domain range =>
    -- A domain that comes to nothing is the problem of a reference.
    obtain ⟨target, hcomes⟩ := ht.comesTo scope domain (.part hn (by simp [Node.parts]))
    simp [domainProblems_eq_nil_iff hcomes]
  | lazy computed formula cached =>
    simp only [List.append_eq_nil_iff, Problem.when_eq_nil_iff, Text.isEmpty_trim_eq_false_iff,
      rangeProblems_eq_nil_iff]
  | table record => exact problems_resolveTable_eq_nil_iff
  | holder message => exact problems_resolveHolder_eq_nil_iff
  | projection table field =>
    cases scope with
    | none => simp [resolveProjection, Outcome.problems]
    | some owner =>
      simp only [Option.some.injEq, exists_eq_left']
      exact ht.problems_resolveProjection_eq_nil_iff hn.scope
  | ref name => exact referenceProblems_eq_nil_iff

end Settled

/-! ### Silence and form -/

/-- Typing has nothing to report about a part, wherever it stands. -/
def Silent (t : Table) : Part → Prop
  | .type scope n => n.diagnostics t scope = []
  | .body s => ∀ position, s.diagnostics t position = []

/-- All that occurs is silent, if the entries and the root are. -/
theorem Occurs.silent (hentries : t.entryDiagnostics = []) (hroot : t.rootDiagnostics = [])
    {p : Part} (h : t.Occurs p) : t.Silent p := by
  -- Where a structure stands decides only where its problems are reported.
  have hbody : ∀ {s : Structure Node} {position : Position}, s.diagnostics t position = [] →
      t.Silent (.body s) := by
    intro s position hs other
    rw [Structure.diagnostics_eq_nil_iff] at hs ⊢
    exact hs
  induction h with
  | entry hmem => exact List.flatMap_eq_nil_iff.1 hentries _ hmem
  | root => exact hbody hroot
  | part _ hm ih => exact (Node.diagnostics_eq_nil_iff.1 ih).1 _ hm
  | body _ hs ih => exact hbody ((Node.diagnostics_eq_nil_iff.1 ih).2.1 _ hs)
  | member _ hn ih => exact (Structure.diagnostics_eq_nil_iff.1 (ih {})).1 _ hn

/-- A table is settled, if its names stand for something and its tables have rows. -/
theorem settled_of (hd : ∀ s, t.Occurs (.body s) → (s.fields.map Field.name).Nodup)
    (hnames : ∀ scope n name, t.Occurs (.type scope n) → n.kind = .ref name →
      ∃ target, t.Names name target)
    (hrows : ∀ scope n record, t.Occurs (.type scope n) → n.kind = .table record →
      ∃ s, t.NamesKind record (.record s)) : t.Settled where
  fields_nodup := hd
  rows := hrows
  comesTo scope n hn := by
    cases href : n.reference? with
    | none => exact ⟨n, .self href⟩
    | some name =>
      obtain ⟨target, hname⟩ := hnames scope n name hn (Node.reference?_eq_some_iff.1 href)
      exact ⟨target, (comesTo_iff_names href).2 hname⟩

/-- What types rely on holds when nothing is reported. -/
theorem settled_of_silent (h : ∀ p, t.Occurs p → t.Silent p) : t.Settled := by
  have hown : ∀ scope n, t.Occurs (.type scope n) → n.ownProblems t scope = [] :=
    fun scope n hn => (Node.diagnostics_eq_nil_iff.1 (h _ hn)).2.2
  refine settled_of (fun s hs => ?_) (fun scope n name hn hk => ?_) fun scope n record hn hk => ?_
  · exact (Structure.diagnostics_eq_nil_iff.1 (h _ hs {})).2.fields_nodup
  · have hproblems := hown scope n hn
    simp only [Node.ownProblems, hk] at hproblems
    obtain ⟨_, ⟨target, hname, -⟩, -⟩ := referenceProblems_eq_nil_iff.1 hproblems
    exact ⟨target, hname⟩
  · have hproblems := hown scope n hn
    simp only [Node.ownProblems, hk] at hproblems
    exact problems_resolveTable_eq_nil_iff.1 hproblems

theorem WellFormed.settled (h : t.WellFormed) : t.Settled := by
  refine settled_of (fun s hs => ?_) (fun scope n name hn hk => ?_) fun scope n record hn hk => ?_
  · exact (h.structures s hs).fields_nodup
  · exact h.exists_names hn (Node.reference?_eq_some_iff.2 hk)
  · exact h.exists_rows hn hk

/-- A table has no diagnostics exactly when it is well formed. -/
theorem diagnostics_eq_nil_iff_wellFormed :
    (t.entryDiagnostics = [] ∧ t.rootDiagnostics = [] ∧ t.cycleDiagnostics = []) ↔
      t.WellFormed := by
  rw [cycleDiagnostics_eq_nil_iff]
  constructor
  · -- What is silent everywhere settles what types rely on, and then every type is admissible.
    rintro ⟨hentries, hroot, hcycles⟩
    have hsilent : ∀ p, t.Occurs p → t.Silent p := fun p hp => hp.silent hentries hroot
    have ht := settled_of_silent hsilent
    refine ⟨fun s hs => ?_, fun scope n hn => ?_, hcycles⟩
    · exact (Structure.diagnostics_eq_nil_iff.1 (hsilent _ hs {})).2
    · exact (ht.ownProblems_eq_nil_iff hn).1 (Node.diagnostics_eq_nil_iff.1 (hsilent _ hn)).2.2
  · intro h
    have ht := h.settled
    -- From the inside out: a type is silent when its parts and its structure are.
    have hsilent : ∀ p, t.Occurs p → t.Silent p := by
      intro p hp
      refine hp.inside_out (fun scope n hn hparts hbody => ?_) fun s hs htypes position => ?_
      · refine Node.diagnostics_eq_nil_iff.2 ⟨hparts, fun s hs => hbody s hs _, ?_⟩
        exact (ht.ownProblems_eq_nil_iff hn).2 (h.types scope n hn)
      · exact Structure.diagnostics_eq_nil_iff.2 ⟨htypes, h.structures s hs⟩
    refine ⟨?_, hsilent _ .root _, h.constructible⟩
    exact List.flatMap_eq_nil_iff.2 fun e he => hsilent _ (.entry he)

end Table

/-! ### Drafts -/

namespace Draft

/-- A draft with the given types declared one after the other. -/
def declareAll (draft : Draft) (types : List (String × Node)) : Draft :=
  types.foldl (fun draft e => draft.declare e.1 e.2) draft

/-- Declaring a type is silent exactly when the name is usable and new. -/
theorem diagnostics_declare_eq_nil_iff {draft : Draft} {name : String} {node : Node} :
    (draft.declare name node).diagnostics = [] ↔
      draft.diagnostics = [] ∧ Name.typeProblem? name = none ∧ name ∉ draft.table.names := by
  unfold declare Table.declare
  by_cases hname : name ∈ draft.table.names <;> cases Name.typeProblem? name <;> simp [hname]

theorem entries_declare {draft : Draft} {name : String} {node : Node}
    (h : name ∉ draft.table.names) :
    (draft.declare name node).table.entries = draft.table.entries ++ [(name, node)] := by
  unfold declare Table.declare
  simp [h]

/-- The new name goes to the end of the table, but for freshness only its presence counts. -/
theorem fresh_names_declare_iff {draft : Draft} {name : String} {node : Node} {names : List String}
    (h : name ∉ draft.table.names) :
    Fresh (draft.declare name node).table.names names ↔
      Fresh (name :: draft.table.names) names := by
  unfold Fresh Table.names
  rw [entries_declare h]
  simp [Keyed.names, or_comm]

theorem root_declare {draft : Draft} {name : String} {node : Node} :
    (draft.declare name node).table.root = draft.table.root := by
  unfold declare Table.declare
  by_cases hname : name ∈ draft.table.names <;> simp [hname]

theorem root_declareAll {draft : Draft} {types : List (String × Node)} :
    (draft.declareAll types).table.root = draft.table.root := by
  induction types generalizing draft with
  | nil => rfl
  | cons e types ih => exact ih.trans root_declare

/-- Declaring types is silent exactly when their names are usable and fresh. -/
theorem diagnostics_declareAll_eq_nil_iff {draft : Draft} {types : List (String × Node)} :
    (draft.declareAll types).diagnostics = [] ↔
      draft.diagnostics = [] ∧ (∀ name ∈ Keyed.names types, Name.typeProblem? name = none) ∧
        Fresh draft.table.names (Keyed.names types) := by
  induction types generalizing draft with
  | nil => simp [declareAll, Keyed.names, fresh_nil]
  | cons e types ih =>
    have hnames : Keyed.names (e :: types) = e.1 :: Keyed.names types := rfl
    have hstep : draft.declareAll (e :: types) = (draft.declare e.1 e.2).declareAll types := rfl
    rw [hstep, ih, diagnostics_declare_eq_nil_iff, hnames, List.forall_mem_cons, fresh_cons_iff,
      ← Bool.not_eq_true, List.contains_iff_mem]
    by_cases hname : e.1 ∈ draft.table.names
    · simp [hname]
    · rw [fresh_names_declare_iff hname]
      tauto

/-- Types with fresh names are all in the table, in order. -/
theorem entries_declareAll {draft : Draft} {types : List (String × Node)}
    (h : Fresh draft.table.names (Keyed.names types)) :
    (draft.declareAll types).table.entries = draft.table.entries ++ types := by
  induction types generalizing draft with
  | nil => simp [declareAll]
  | cons e types ih =>
    have hnames : Keyed.names (e :: types) = e.1 :: Keyed.names types := rfl
    have hstep : draft.declareAll (e :: types) = (draft.declare e.1 e.2).declareAll types := rfl
    rw [hnames, fresh_cons_iff, ← Bool.not_eq_true, List.contains_iff_mem] at h
    rw [hstep, ih ((fresh_names_declare_iff h.1).2 h.2), entries_declare h.1, List.append_assoc,
      List.singleton_append]

/-- Tests are declared silently exactly when their names are usable and fresh. -/
theorem testProblems_eq_nil_iff {earlier names : List String} :
    testProblems earlier names = [] ↔
      (∀ name ∈ names, Name.memberProblem? name = none) ∧ Fresh earlier names := by
  induction names generalizing earlier with
  | nil => simp [testProblems, fresh_nil]
  | cons name names ih =>
    rw [testProblems, fresh_cons_iff, List.forall_mem_cons]
    cases Name.memberProblem? name with
    | some problem => simp
    | none =>
      simp only [List.append_eq_nil_iff, Problem.when_eq_nil_iff, ih]
      tauto

end Draft

/-- A table is its entries and its root. -/
theorem Table.eq_of_entries_of_root {a b : Table} (hentries : a.entries = b.entries)
    (hroot : a.root = b.root) : a = b := by
  cases a
  cases b
  subst hentries hroot
  rfl

namespace Draft

/-- A checked space has no diagnostics exactly when its draft has none and its table is well
formed. -/
theorem diagnostics_check_eq_nil_iff {draft : Draft} :
    draft.check.diagnostics = [] ↔ draft.diagnostics = [] ∧ draft.check.table.WellFormed := by
  unfold check
  rw [List.append_eq_nil_iff, List.append_eq_nil_iff, List.append_eq_nil_iff, and_assoc, and_assoc,
    Table.diagnostics_eq_nil_iff_wellFormed]

/-- Only well-formed spaces are deployed. -/
theorem wellFormed_of_isDeployable {draft : Draft} (h : draft.check.isDeployable = true) :
    draft.check.table.WellFormed := by
  rw [Checked.isDeployable, List.isEmpty_iff] at h
  exact (diagnostics_check_eq_nil_iff.1 h).2

end Draft

namespace Declarations

/-- The draft declares all types, and then the tests. -/
theorem draft_eq (d : Declarations) :
    d.draft =
      ((Draft.ofRoot d.document).declareAll d.types).declareTests
        (d.surface.tests.map Test.name) := by
  unfold draft Draft.declareAll types
  simp only [List.foldl_append, List.foldl_map]
  rfl

/-- With distinct names, the draft has the table of the declarations. -/
theorem table_draft {d : Declarations} (h : (Keyed.names d.types).Nodup) :
    d.draft.table = d.table h := by
  have hfresh : Fresh (Draft.ofRoot d.document).table.names (Keyed.names d.types) :=
    fresh_nil_left.2 h
  have hentries : d.draft.table.entries = d.types := by
    rw [draft_eq]
    exact Draft.entries_declareAll hfresh
  have hroot : d.draft.table.root = d.document := by
    rw [draft_eq]
    exact Draft.root_declareAll
  exact Table.eq_of_entries_of_root hentries hroot

/-- The names of types and tests are right exactly when the draft has no diagnostics. -/
theorem diagnostics_draft_eq_nil_iff {d : Declarations} :
    d.draft.diagnostics = [] ↔
      ((∀ name ∈ Keyed.names d.types, Name.typeProblem? name = none) ∧
        (Keyed.names d.types).Nodup) ∧
      (∀ test ∈ d.surface.tests, Name.memberProblem? test.name = none) ∧
        (d.surface.tests.map Test.name).Nodup := by
  rw [draft_eq]
  unfold Draft.declareTests
  rw [List.append_eq_nil_iff, Diagnostic.allAt_eq_nil_iff, Draft.diagnostics_declareAll_eq_nil_iff,
    Draft.testProblems_eq_nil_iff, fresh_nil_left, List.forall_mem_map]
  have hroot : (Draft.ofRoot d.document).table.names = [] := rfl
  rw [hroot, fresh_nil_left]
  exact and_congr (and_iff_right rfl) Iff.rfl

/-- Nothing is reported when nothing was in drawing up the table and the table is well formed. -/
theorem diagnostics_check_eq_nil_iff {d : Declarations} :
    d.check.diagnostics = [] ↔ d.draft.diagnostics = [] ∧ d.check.table.WellFormed :=
  Draft.diagnostics_check_eq_nil_iff

/-- **Checking is right.** It reports nothing exactly when the declarations are well formed. -/
theorem check_reports_nothing_iff (d : Declarations) : d.check.diagnostics = [] ↔ d.WellFormed := by
  rw [diagnostics_check_eq_nil_iff, diagnostics_draft_eq_nil_iff]
  constructor
  · rintro ⟨⟨⟨hnames, hdistinct⟩, htests, htestsNodup⟩, htable⟩
    exact ⟨hnames, hdistinct, htests, htestsNodup, table_draft hdistinct ▸ htable⟩
  · intro h
    refine ⟨⟨⟨h.type_names, h.distinct⟩, h.test_names, h.tests_nodup⟩, ?_⟩
    rw [show d.check.table = d.table h.distinct from table_draft h.distinct]
    exact h.table_wellFormed

/-- The table of a deployable space is well formed. -/
theorem wellFormed_of_isDeployable {d : Declarations} (h : d.check.isDeployable = true) :
    d.check.table.WellFormed :=
  Draft.wellFormed_of_isDeployable h

/-- The names of types and tests in a deployable space are right. -/
theorem names_of_isDeployable {d : Declarations} (h : d.check.isDeployable = true) :
    ((∀ name ∈ Keyed.names d.types, Name.typeProblem? name = none) ∧
      (Keyed.names d.types).Nodup) ∧
    (∀ test ∈ d.surface.tests, Name.memberProblem? test.name = none) ∧
      (d.surface.tests.map Test.name).Nodup :=
  diagnostics_draft_eq_nil_iff.1 (diagnostics_check_eq_nil_iff.1 (List.isEmpty_iff.1 h)).1

/-- A space is deployable if nothing is wrong with its names, entries and root, and no embeddings
form a cycle. They are apart since the search for cycles does not reduce by itself. -/
theorem isDeployable_of_isEmpty {d : Declarations} (hnames : (Keyed.names d.types).Nodup)
    (hparts : (d.draft.diagnostics ++ d.draft.table.entryDiagnostics ++
      d.draft.table.rootDiagnostics).isEmpty = true)
    (hcycles : (d.table hnames).embeddings.cycles = []) : d.check.isDeployable = true := by
  have hcycle : d.draft.table.cycleDiagnostics = [] := by
    rw [Table.cycleDiagnostics, table_draft hnames, hcycles, List.map_nil]
  rw [Checked.isDeployable, check, Draft.check, hcycle, List.append_nil, hparts]

end Declarations

end ReactiveSpace
