import ReactiveSpace.Proofs.Target.Expansion
import ReactiveSpace.Target.Source

/-!
# The structures that a unit defines

A unit defines one type for each message, and a type and its delta for each record that it emits
(`Target.definitions`); besides those there are only the document and the exports
(`structNames_unitCode`). Records are emitted by the names in the graph of dependencies, each looked
up in the table again (`mem_orderedRecords_iff`).
-/

namespace ReactiveSpace

/-- The name of the structure that a piece of code defines. -/
def Code.structName? : Code → Option String
  | .block header _ _ => (List.isPrefixOf? "pub struct ".toList header.toList).map String.ofList
  | _ => none

namespace Target

/-- The structures with fields, parameters and results in the source of a unit. -/
def emitted (t : Table) : List (Structure Node) :=
  t.messages ++ orderedRecords t ++ [t.root]

/-- The types that a unit defines for the structures of a table, in order. -/
def definitions (t : Table) : List TypeName :=
  t.messages.map (fun s => .message s.name) ++
    (orderedRecords t).flatMap fun s => [.record s.name, .delta s.name]

variable {t : Table}

/-! ### Code -/

/-- A structure is defined by the line that opens it. -/
theorem structName?_nest (name : String) (body : List Code) :
    Code.structName? (.nest ("pub struct " ++ name) body) = some name := by
  have hstrip : ∀ l r : List Char, l.isPrefixOf? (l ++ r) = some r := by
    intro l r
    induction l with
    | nil => rfl
    | cons c l ih => simp [List.isPrefixOf?, ih]
  rw [Code.nest, Code.structName?, String.toList_append, hstrip, Option.map_some,
    String.ofList_toList]

theorem structName?_line (text : String) : Code.structName? (.line text) = none := rfl

theorem structName?_blank : Code.structName? .blank = none := rfl

theorem structName?_impl (name : String) (body : List Code) :
    Code.structName? (.nest ("impl " ++ name) body) = none := by
  -- The headers differ in their first letter.
  rw [Code.nest, Code.structName?, String.toList_append]
  rfl

theorem structName?_implMessage (name : String) (body : List Code) :
    Code.structName? (.nest ("impl NtMessage for " ++ name) body) = none := by
  rw [Code.nest, Code.structName?, String.toList_append]
  rfl

/-- The code of a delta defines the delta alone. -/
theorem structNames_delta (type : String) (s : Structure Node) :
    (delta t type s).filterMap Code.structName? = [type ++ "Delta"] := by
  unfold delta deltaOf
  rw [String.append_assoc, String.append_assoc]
  simp only [List.filterMap_cons, List.filterMap_nil, structName?_line, structName?_blank,
    structName?_nest, structName?_impl]

/-- The code of a message defines the message alone. -/
theorem structNames_message (s : Structure Node) :
    (message t s).filterMap Code.structName? = [messageType s.name] := by
  unfold message
  simp only [List.filterMap_cons, List.filterMap_nil, structName?_line, structName?_blank,
    structName?_nest, structName?_implMessage]

/-- The code of a record defines its type and the delta of it. -/
theorem structNames_record (s : Structure Node) :
    (record t s).filterMap Code.structName? =
      [recordType s.name, recordType s.name ++ "Delta"] := by
  unfold record
  simp only [List.cons_append, List.nil_append, List.filterMap_cons, structName?_blank,
    structName?_nest, structName?_impl, structNames_delta]

theorem structNames_document (surface : Surface) :
    (document t surface).filterMap Code.structName? =
      [Structure.rootName, Structure.rootName ++ "Delta"] := by
  unfold document
  simp only [List.cons_append, List.nil_append, List.filterMap_cons, structName?_blank,
    structName?_nest, structName?_impl, structNames_delta]

/-- A unit defines the types of its messages and records, the document and what the exports
define. -/
theorem structNames_unitCode (t : Table) (surface : Surface) (unitName : String) :
    (unitCode t surface unitName).filterMap Code.structName? =
      (definitions t).map TypeName.text ++ [Structure.rootName, Structure.rootName ++ "Delta"] ++
        (exports unitName surface).filterMap Code.structName? := by
  have hheader : (header unitName).filterMap Code.structName? = [] := rfl
  unfold unitCode definitions
  simp only [List.filterMap_append, List.filterMap_flatMap, hheader, structNames_message,
    structNames_record, structNames_document, List.filterMap_cons, List.filterMap_nil,
    structName?_blank, List.map_append, List.map_map, List.map_flatMap, List.append_nil,
    List.nil_append, List.map_cons, List.map_nil, TypeName.text]
  rw [List.map_eq_flatMap]
  rfl

/-! ### Structures -/

/-- The names in the order of dependencies are those of the records, for the order of the components
does not matter to what is among them. -/
theorem mem_ordering_dependencies_iff {key : String} :
    key ∈ t.dependencies.ordering ↔ ∃ r ∈ t.records, r.name = key := by
  rw [Graph.ordering, Graph.mem_flatten_components, Graph.names, Table.dependencies,
    Keyed.mem_names_ofPairs]
  simp

/-- The records of a unit are the structures in that role whose key is the name of a record. -/
theorem mem_orderedRecords_iff {s : Structure Node} :
    s ∈ orderedRecords t ↔
      ∃ key, t.structure? key = some s ∧ s.role = .record ∧ ∃ r ∈ t.records, r.name = key := by
  unfold orderedRecords
  simp only [List.mem_filterMap, mem_ordering_dependencies_iff, Option.filter_eq_some_iff,
    beq_iff_eq]
  constructor
  · rintro ⟨key, hkey, hs, hrole⟩
    exact ⟨key, hs, hrole, hkey⟩
  · rintro ⟨key, hs, hrole, hkey⟩
    exact ⟨key, hkey, hs, hrole⟩

/-- What a unit emits occurs in the table. -/
theorem occurs_of_mem_emitted {s : Structure Node} (h : s ∈ emitted t) : t.Occurs (.body s) := by
  simp only [emitted, List.mem_append, List.mem_singleton] at h
  rcases h with (h | h) | rfl
  · obtain ⟨e, he, hs⟩ := List.mem_filterMap.1 h
    refine .body (.entry he) ?_
    unfold Node.message? at hs
    unfold Node.structure?
    split at hs <;> simp_all
  · obtain ⟨key, hs, -⟩ := mem_orderedRecords_iff.1 h
    obtain ⟨n, hget, hn⟩ := Option.bind_eq_some_iff.1 hs
    exact .body (.of_get? hget) hn
  · exact .root

/-- Records are defined together with their deltas. -/
theorem delta_mem_definitions_iff {name : String} :
    .delta name ∈ definitions t ↔ .record name ∈ definitions t := by
  simp [definitions]

theorem missing_notMem_definitions {name : String} : .missing name ∉ definitions t := by
  simp [definitions]

end Target

/-- A unit defines a type for the structures of this kind and name. -/
def Table.Defines (t : Table) : Kind Node → Prop
  | .record s => ∃ key r, t.structure? key = some r ∧ r.role = .record ∧ r.name = s.name ∧
      ∃ b ∈ t.records, b.name = key
  | .message s => ∃ r ∈ t.messages, r.name = s.name
  | _ => False

/-- A structure is defined exactly if its name is among the definitions. -/
theorem Table.defines_iff {t : Table} {kind : Kind Node} {name : TypeName}
    (h : kind.typeName? = some name) : t.Defines kind ↔ name ∈ Target.definitions t := by
  cases kind <;> simp [Kind.typeName?] at h
  all_goals subst h
  · simp only [Defines, Target.definitions, List.mem_append, List.mem_map, reduceCtorEq, and_false,
      exists_false, false_or, List.mem_flatMap, List.mem_cons, TypeName.record.injEq,
      List.not_mem_nil, or_false, Target.mem_orderedRecords_iff]
    constructor
    · rintro ⟨key, r, hr, hrole, hname, hkey⟩
      exact ⟨r, ⟨key, hr, hrole, hkey⟩, hname.symm⟩
    · rintro ⟨r, ⟨key, hr, hrole, hkey⟩, hname⟩
      exact ⟨key, r, hr, hrole, hname.symm, hkey⟩
  · simp [Defines, Target.definitions]

end ReactiveSpace
