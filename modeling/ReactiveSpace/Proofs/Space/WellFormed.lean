import ReactiveSpace.Proofs.Space.Embedding
import ReactiveSpace.Proofs.Space.Kind
import ReactiveSpace.Proofs.Space.Occurrence

/-!
# Well-formed declarations

What it means for declarations to be right, said without the checker. `Table.Occurs` tells which
types and structures there are in a table: its entries and its root, and whatever these are made of,
at any depth. Every structure that occurs has to be well formed on its own
(`Structure.WellFormed`), every type has to be admissible at its place (`Node.Admissible`), and no
record may embed itself. `Declarations.WellFormed` adds what is asked of the names of types and
tests.
-/

namespace ReactiveSpace

open Relation

/-! ### Structures -/

/-- A type that a message can hold: names are judged where they stand. -/
inductive Node.Storable : Node → Prop
  | scalar {n : Node} {k : Scalar} : n.kind = .scalar k → Storable n
  | message {n : Node} {s : Structure Node} : n.kind = .message s → Storable n
  | ref {n : Node} {name : String} : n.kind = .ref name → Storable n
  | list {n element : Node} : n.kind = .list element → Storable element → Storable n
  | maybe {n inner : Node} : n.kind = .maybe inner → Storable inner → Storable n

/-- What is asked of a structure, the types in it aside. -/
structure Structure.WellFormed (t : Table) (s : Structure Node) : Prop where
  field_names : ∀ f ∈ s.fields, Name.memberProblem? f.name = none
  method_names : ∀ m ∈ s.methods, Name.memberProblem? m.name = none
  parameter_names : ∀ m ∈ s.methods, ∀ p ∈ m.parameters, Name.memberProblem? p.name = none
  rule_names : ∀ r ∈ s.rules, Name.memberProblem? r.name = none
  fields_nodup : (s.fields.map Field.name).Nodup
  methods_nodup : (s.methods.map Method.name).Nodup
  method_ne_field : ∀ m ∈ s.methods, ∀ f ∈ s.fields, m.name ≠ f.name
  /-- A record has an identity. -/
  identity : s.role = .record → ∃ f ∈ s.fields, f.name = "id" ∧ t.HasKind f.type (.scalar .int)
  /-- An index is on a field whose values can be indexed. -/
  indices : ∀ i ∈ s.indices, ∃ f ∈ s.fields, f.name = i.field ∧
    ∃ k, t.HasKind f.type (.scalar k) ∧ k.isIndexable = true
  /-- The viewer of a field is a principal in another field. -/
  viewers : ∀ f ∈ s.fields, ∀ viewer, f.privacy = some (.viewerIs viewer) →
    ∃ v ∈ s.fields, v.name = viewer ∧ t.HasKind v.type (.scalar .principal)
  /-- A custom rule is one of the structure. -/
  customs : ∀ f ∈ s.fields, ∀ rule, f.privacy = some (.useCustom rule) →
    ∃ r ∈ s.rules, r.name = rule
  /-- A table states no privacy. -/
  tables : ∀ f ∈ s.fields, f.privacy ≠ none → ¬ t.IsRows f.type
  /-- A projection states no privacy and is not marked readonly. -/
  projections : ∀ f ∈ s.fields, ∀ table field, f.type.kind = .projection table field →
    f.readonly = false ∧ f.privacy = none
  /-- A message holds only what messages can hold. -/
  storable : s.role = .message → ∀ f ∈ s.fields, f.type.Storable

/-! ### Types -/

/-- A place inside a message. -/
def InMessage (scope : Option (Structure Node)) : Prop :=
  ∃ owner, scope = some owner ∧ owner.role = .message

/-- What is asked of a type at its place, the types it is made of aside. -/
def Node.Admissible (t : Table) (scope : Option (Structure Node)) (n : Node) : Prop :=
  match n.kind with
  | .scalar _ | .text | .maybe _ | .record _ | .message _ => True
  | .replication service method => service ≠ "" ∧ method ≠ ""
  | .list element => ¬ t.IsRows element
  | .map domain range => t.IsKey domain ∧ ¬ t.IsRows range
  | .lazy computed formula _ =>
    (∃ c ∈ formula.toList, Text.isBlank c = false) ∧ ¬ t.IsRows computed
  | .table record => ∃ s, t.NamesKind record (.record s)
  | .holder message => ∃ s, t.NamesKind message (.message s)
  -- The table is a field of the same structure, and the field one of that table's record.
  | .projection table field =>
    ∃ owner, scope = some owner ∧ ∃ v ∈ owner.fields, v.name = table ∧
      ∃ record, t.HasKind v.type (.table record) ∧ ∃ r, t.NamesKind record (.record r) ∧
        ∃ p ∈ r.fields, p.name = field ∧ t.IsKey p.type
  -- Messages stand directly only in messages, and records only elsewhere.
  | .ref name =>
    ∃ kind, t.NamesKind name kind ∧ (∀ s, kind = .message s → InMessage scope) ∧
      ∀ s, kind = .record s → ¬ InMessage scope

/-! ### Declarations -/

/-- What is asked of a table of types. -/
structure Table.WellFormed (t : Table) : Prop where
  structures : ∀ s, t.Occurs (.body s) → s.WellFormed t
  types : ∀ scope n, t.Occurs (.type scope n) → n.Admissible t scope
  /-- No record embeds itself, directly or through others. -/
  constructible : ∀ name, ¬ TransGen t.EmbedsName name name

/-- In a well-formed table every reference stands for a type. -/
theorem Table.WellFormed.exists_names {t : Table} (ht : t.WellFormed)
    {scope : Option (Structure Node)} {n : Node} (hn : t.Occurs (.type scope n)) {name : String}
    (href : n.reference? = some name) : ∃ target, t.Names name target := by
  have hadmissible := ht.types scope n hn
  simp only [Node.Admissible, Node.reference?_eq_some_iff.1 href] at hadmissible
  obtain ⟨_, ⟨target, hnames, -⟩, -⟩ := hadmissible
  exact ⟨target, hnames⟩

/-- In a well-formed table the domain of every map can be a key. -/
theorem Table.WellFormed.isKey_domain {t : Table} (ht : t.WellFormed)
    {scope : Option (Structure Node)} {n : Node} (hn : t.Occurs (.type scope n))
    {domain range : Node} (hk : n.kind = .map domain range) : t.IsKey domain := by
  have hadmissible := ht.types scope n hn
  rw [Node.Admissible, hk] at hadmissible
  exact hadmissible.1

/-- In a well-formed table the rows of every table are records. -/
theorem Table.WellFormed.exists_rows {t : Table} (ht : t.WellFormed)
    {scope : Option (Structure Node)} {n : Node} (hn : t.Occurs (.type scope n)) {name : String}
    (hk : n.kind = .table name) : ∃ s, t.NamesKind name (.record s) := by
  have hadmissible := ht.types scope n hn
  rwa [Node.Admissible, hk] at hadmissible

theorem Table.WellFormed.exists_held {t : Table} (ht : t.WellFormed)
    {scope : Option (Structure Node)} {n : Node} (hn : t.Occurs (.type scope n)) {name : String}
    (hk : n.kind = .holder name) : ∃ s, t.NamesKind name (.message s) := by
  have hadmissible := ht.types scope n hn
  rwa [Node.Admissible, hk] at hadmissible

namespace Declarations

/-- All types with their names, each structure in the role of the list it was declared in. -/
def types (d : Declarations) : List (String × Node) :=
  d.records.map (fun s => (s.name, .ofRecord { s with role := .record })) ++
    d.messages.map (fun s => (s.name, .ofMessage { s with role := .message })) ++ d.aliases

/-- The root under its fixed name, in its role. -/
def document (d : Declarations) : Structure Node :=
  { d.root with name := Structure.rootName, role := .root }

/-- The table of declarations with distinct names. -/
def table (d : Declarations) (distinct : (Keyed.names d.types).Nodup) : Table where
  entries := d.types
  root := d.document
  distinct := distinct

/-- What is asked of the declarations of a space. -/
structure WellFormed (d : Declarations) : Prop where
  type_names : ∀ name ∈ Keyed.names d.types, Name.typeProblem? name = none
  distinct : (Keyed.names d.types).Nodup
  test_names : ∀ test ∈ d.surface.tests, Name.memberProblem? test.name = none
  tests_nodup : (d.surface.tests.map Test.name).Nodup
  table_wellFormed : (d.table distinct).WellFormed

end Declarations

end ReactiveSpace
