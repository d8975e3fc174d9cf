import ReactiveSpace.Proofs.Target.Source
import ReactiveSpace.Proofs.Target.Unaliasing

/-!
# Aliases leave no trace in generated source

The source of a unit is the same whether a type is written as a reference to an alias or as a copy
of the type of the alias (`Declarations.generate_unaliased`). The proof goes through the source
emitter by emitter: each writes the same for a structure and for the structure with aliases replaced
in it.
-/

namespace ReactiveSpace

open Filter Relation

/-! ### What emitters ask of a type -/

namespace Node

variable {σ : String → Option Node} {n : Node}

/-- What an emitter asks of a type, it asks of what the type comes down to, which is no reference.
Of such a type replacement changes nothing but what it is made of. -/
theorem access_replace (hn : n.reference? = none) : (n.replace σ).access = n.access := by
  rw [replace_eq hn]
  obtain ⟨position, notes, kind⟩ := n
  cases kind <;> rfl

theorem scalar?_replace (hn : n.reference? = none) : (n.replace σ).scalar? = n.scalar? := by
  rw [replace_eq hn]
  obtain ⟨position, notes, kind⟩ := n
  cases kind <;> rfl

theorem isProjection_replace (hn : n.reference? = none) :
    (n.replace σ).isProjection = n.isProjection := by
  rw [replace_eq hn]
  obtain ⟨position, notes, kind⟩ := n
  cases kind <;> rfl

theorem settleCall?_replace (name : String) (hn : n.reference? = none) :
    (n.replace σ).settleCall? name = n.settleCall? name := by
  rw [replace_eq hn]
  obtain ⟨position, notes, kind⟩ := n
  cases kind <;> rfl

theorem killCall?_replace (name : String) (hn : n.reference? = none) :
    (n.replace σ).killCall? name = n.killCall? name := by
  rw [replace_eq hn]
  obtain ⟨position, notes, kind⟩ := n
  cases kind <;> rfl

theorem bindCall?_replace (name : String) (hn : n.reference? = none) :
    (n.replace σ).bindCall? name = n.bindCall? name := by
  rw [replace_eq hn]
  obtain ⟨position, notes, kind⟩ := n
  cases kind <;> rfl

/-- A field is read by its access, and a formula with its owner as argument. -/
theorem readExpression_replace (receiver name : String) (hn : n.reference? = none) :
    Target.readExpression receiver name (n.replace σ) = Target.readExpression receiver name n := by
  rw [replace_eq hn]
  obtain ⟨position, notes, kind⟩ := n
  cases kind <;> rfl

end Node

namespace Target

variable {t : Table} {σ : String → Option Node} {s : Structure Node}

section Members

variable (ht : t.WellFormed) (hσ : t.Unaliases σ) (hs : t.Occurs (.body s))

include ht hσ hs

theorem shapeIn_replace {n : Node} (hn : n ∈ s.types) :
    shapeIn (t.replace σ) (s.replace σ) (n.replace σ) = shapeIn t s n :=
  ht.expand_replace hσ (.member hs hn) (Or.inr rfl) (by simp)

theorem shapeIn_replace_field {f : Field Node} (hf : f ∈ s.fields) :
    shapeIn (t.replace σ) (s.replace σ) (f.type.replace σ) = shapeIn t s f.type :=
  shapeIn_replace ht hσ hs (List.mem_append_left _ (List.mem_map_of_mem hf))

/-- The type of a field comes down to the same, but for what that is made of. Nothing else is asked
of it in what follows. -/
theorem exists_concrete_field {f : Field Node} (hf : f ∈ s.fields) :
    ∃ target, target.reference? = none ∧ t.ComesTo f.type target ∧ f.type.concrete t = target ∧
      (f.type.replace σ).concrete (t.replace σ) = target.replace σ := by
  have hmem : f.type ∈ s.types := List.mem_append_left _ (List.mem_map_of_mem hf)
  obtain ⟨target, hcomes, hconcrete⟩ := ht.exists_concrete hσ (.member hs hmem)
  exact ⟨target, hcomes.reference?_eq_none, hcomes, hconcrete⟩

/-! ### Members -/

/-- The members of a structure are the same code. -/
theorem storage_replace : storage (t.replace σ) (s.replace σ) = storage t s := by
  unfold storage
  rw [Structure.replace_fields, List.map_map]
  refine List.map_congr_left fun f hf => ?_
  simp only [Function.comp_apply, Field.mapType, shapeIn_replace_field ht hσ hs hf]

/-- Fields are built in the same way. -/
theorem construction_replace : construction (t.replace σ) (s.replace σ) = construction t s := by
  unfold construction
  rw [Structure.replace_fields, List.map_map]
  refine List.map_congr_left fun f hf => ?_
  simp only [Function.comp_apply, Field.mapType, shapeIn_replace_field ht hσ hs hf]

/-- An alias is no projection: outside structures there is no table for it. -/
theorem bindings_replace : bindings (s.replace σ) = bindings s := by
  unfold bindings
  rw [Structure.replace_fields, List.filterMap_map]
  refine List.filterMap_congr fun f hf => ?_
  have hmem : f.type ∈ s.types := List.mem_append_left _ (List.mem_map_of_mem hf)
  suffices hcall : (f.type.replace σ).bindCall? f.name = f.type.bindCall? f.name by
    simp only [Function.comp_apply, Field.mapType, hcall]
  -- A field that is written as a projection is bound, one that refers to a projection is not.
  cases href : f.type.reference? with
  | none => exact Node.bindCall?_replace f.name href
  | some name =>
    obtain ⟨target, hnames⟩ := ht.exists_names (.member hs hmem) href
    cases hstructure : target.structure? with
    | some s => rw [hσ.replace_ref_of_structure? href hnames hstructure]
    | none =>
      obtain ⟨key, hkey⟩ := hnames.exists_entry
      have hadmissible := ht.types none target (.of_get? hkey)
      rw [hσ.replace_ref href hnames hstructure, Node.bindCall?_replace f.name
        hnames.reference?_eq_none]
      have hwritten : f.type.bindCall? f.name = none := by
        simp [Node.bindCall?, Node.reference?_eq_some_iff.1 href]
      cases hk : target.kind <;> simp_all [Node.bindCall?, Node.Admissible]

/-- Fields have the same accessors, since these depend on the access and on the shape. -/
theorem accessors_replace : accessors (t.replace σ) (s.replace σ) = accessors t s := by
  unfold accessors
  rw [Structure.replace_fields, List.flatMap_map]
  refine List.flatMap_congr fun f hf => ?_
  obtain ⟨target, href, -, hconcrete, hconcrete'⟩ := exists_concrete_field ht hσ hs hf
  have hshape := shapeIn_replace_field ht hσ hs hf
  have hgetter : getter (t.replace σ) (s.replace σ) (f.mapType (Node.replace σ)) =
      getter t s f := by
    simp only [getter, Field.mapType, hconcrete, hconcrete', hshape, Node.access_replace href,
      Node.readExpression_replace _ _ href]
  have hsetter : setter? (t.replace σ) (s.replace σ) (f.mapType (Node.replace σ)) =
      setter? t s f := by
    simp only [setter?, Field.mapType, hconcrete, hconcrete', hshape, Node.access_replace href,
      Node.isProjection_replace href]
  rw [hgetter, hsetter]

/-- The header of a method spells the shapes of its types. -/
theorem methods_replace : methods (t.replace σ) (s.replace σ) = methods t s := by
  unfold methods
  rw [Structure.replace_methods, List.flatMap_map]
  refine List.flatMap_congr fun m hm => ?_
  -- Parameters and results are types of the structure, so their shapes stay.
  have hmem : ∀ n ∈ m.parameters.map Parameter.type ++ m.returns.toList, n ∈ s.types :=
    fun n hn => List.mem_append_right _ (List.mem_flatMap.2 ⟨m, hm, hn⟩)
  have hparameters : (m.parameters.map (Parameter.mapType (Node.replace σ))).map
      (fun p => p.name ++ ": " ++ (shapeIn (t.replace σ) (s.replace σ) p.type).nativeType) =
      m.parameters.map fun p => p.name ++ ": " ++ (shapeIn t s p.type).nativeType := by
    rw [List.map_map]
    refine List.map_congr_left fun p hp => ?_
    have hp := hmem _ (List.mem_append_left _ (List.mem_map_of_mem hp))
    simp only [Function.comp_apply, Parameter.mapType, shapeIn_replace ht hσ hs hp]
  have hheader : methodHeader (t.replace σ) (s.replace σ) (m.mapTypes (Node.replace σ)) =
      methodHeader t s m := by
    unfold methodHeader
    simp only [Method.mapTypes, hparameters]
    cases hreturns : m.returns with
    | none => rfl
    | some type =>
      have htype := hmem type (List.mem_append_right _ (by simp [hreturns]))
      simp only [Option.map_some, shapeIn_replace ht hσ hs htype]
      rfl
  rw [hheader]
  rfl

/-- Structures settle in the same way. -/
theorem settle_replace : settle (t.replace σ) (s.replace σ) = settle t s := by
  unfold settle
  rw [Structure.replace_fields, List.filterMap_map]
  refine congrArg _ (List.filterMap_congr fun f hf => ?_)
  obtain ⟨target, href, -, hconcrete, hconcrete'⟩ := exists_concrete_field ht hσ hs hf
  simp only [Function.comp_apply, Field.mapType, hconcrete, hconcrete',
    Node.settleCall?_replace _ href]

/-! ### State -/

/-- The fields with state of their own are the same ones. Whether a field has any is told by the
kind that its type comes down to. -/
theorem storedFields_replace : storedFields (t.replace σ) (s.replace σ) =
    (storedFields t s).map (Field.mapType (Node.replace σ)) := by
  unfold storedFields
  rw [Structure.replace_fields, List.filter_map]
  refine congrArg _ (List.filter_congr fun f hf => ?_)
  obtain ⟨target, href, -, hconcrete, hconcrete'⟩ := exists_concrete_field ht hσ hs hf
  simp only [Function.comp_apply, isStored, Field.mapType, hconcrete, hconcrete',
    Node.kind_replace href]
  cases target.kind <;> rfl

theorem equalityTerm_replace {f : Field Node} (hf : f ∈ s.fields) :
    equalityTerm (t.replace σ) (f.mapType (Node.replace σ)) = equalityTerm t f := by
  obtain ⟨target, href, -, hconcrete, hconcrete'⟩ := exists_concrete_field ht hσ hs hf
  simp only [equalityTerm, Field.mapType, hconcrete, hconcrete', Node.access_replace href]

/-- The functions of the state go through the same fields. -/
theorem stateFunctions_replace :
    stateFunctions (t.replace σ) (s.replace σ) = stateFunctions t s := by
  have hcommit : commit (t.replace σ) (s.replace σ) = commit t s := by
    unfold commit
    rw [storedFields_replace ht hσ hs, List.map_map]
    rfl
  have hrevert : revert (t.replace σ) (s.replace σ) = revert t s := by
    unfold revert
    rw [storedFields_replace ht hσ hs, List.map_map]
    rfl
  -- Terms depend on what a field comes down to, which replacement does not change.
  have hequality : equality (t.replace σ) (s.replace σ) = equality t s := by
    unfold equality
    rw [storedFields_replace ht hσ hs, List.map_map]
    have hterms : (storedFields t s).map
        (equalityTerm (t.replace σ) ∘ Field.mapType (Node.replace σ)) =
          (storedFields t s).map (equalityTerm t) :=
      List.map_congr_left fun f hf => equalityTerm_replace ht hσ hs (List.mem_of_mem_filter hf)
    rw [hterms]
  have hcomparator : comparator (t.replace σ) (s.replace σ) = comparator t s := by
    unfold comparator
    rw [Structure.replace_fields, List.filterMap_map]
    have harms : s.fields.filterMap ((fun f => (orderExpression? (t.replace σ) f).map fun e =>
          Code.line ("\"" ++ f.name ++ "\" => Some(|__a: &Self, __b: &Self| " ++ e ++ "),")) ∘
          Field.mapType (Node.replace σ)) =
        s.fields.filterMap fun f => (orderExpression? t f).map fun e =>
          Code.line ("\"" ++ f.name ++ "\" => Some(|__a: &Self, __b: &Self| " ++ e ++ "),") := by
      refine List.filterMap_congr fun f hf => ?_
      obtain ⟨target, href, -, hconcrete, hconcrete'⟩ := exists_concrete_field ht hσ hs hf
      simp only [Function.comp_apply, orderExpression?, Field.mapType, hconcrete, hconcrete',
        Node.scalar?_replace href]
    rw [harms]
  rw [stateFunctions, stateFunctions, hcommit, hrevert, hequality, hcomparator]

/-! ### Deltas -/

/-- A field that reaches viewers has the same delta. Only a field written as a table has none where
a reference to such an alias has one, and tables are for nobody. -/
theorem deltaType?_replace {f : Field Node} (hf : f ∈ s.fields)
    (hp : f.effectivePrivacy ≠ .nobody) :
    (f.type.replace σ).deltaType? (t.replace σ) (siteOf (s.replace σ)) =
      f.type.deltaType? t (siteOf s) := by
  have hmem : f.type ∈ s.types := List.mem_append_left _ (List.mem_map_of_mem hf)
  have hshape : ((f.type.replace σ).shape (t.replace σ) (siteOf (s.replace σ))).deltaType =
      (f.type.shape t (siteOf s)).deltaType :=
    congrArg Shape.deltaType (shapeIn_replace_field ht hσ hs hf)
  cases href : f.type.reference? with
  | none =>
    unfold Node.deltaType?
    rw [hshape, Node.kind_replace href]
    cases f.type.kind <;> rfl
  | some name =>
    obtain ⟨target, hnames⟩ := ht.exists_names (.member hs hmem) href
    have hwritten : f.type.deltaType? t (siteOf s) =
        some (f.type.shape t (siteOf s)).deltaType := by
      simp [Node.deltaType?, Node.reference?_eq_some_iff.1 href]
    cases hstructure : target.structure? with
    | some r =>
      rw [hwritten, ← hshape, hσ.replace_ref_of_structure? href hnames hstructure]
      simp [Node.deltaType?, Node.reference?_eq_some_iff.1 href]
    | none =>
      -- A field that is seen states a policy.
      have hstated : f.privacy ≠ none := by
        intro hnone
        simp [Field.effectivePrivacy, hnone] at hp
      -- With a policy it is no table.
      have hrows : ∀ rows, target.kind ≠ .table rows := fun rows hk =>
        (ht.structures s hs).tables f hf hstated
          ⟨rows, target, (Table.comesTo_iff_names href).2 hnames, hk⟩
      rw [hwritten, ← hshape, hσ.replace_ref href hnames hstructure]
      unfold Node.deltaType?
      rw [Node.kind_replace hnames.reference?_eq_none]
      cases hk : target.kind <;> simp_all [Node.structure?, Kind.mapTypes]

/-- The fields that go into a delta are the same ones: those that somebody may see. -/
theorem syncedFields_replace : syncedFields (t.replace σ) (s.replace σ) =
    (syncedFields t s).map fun x => ⟨x.field.mapType (Node.replace σ), x.deltaType⟩ := by
  have hprivacy : (s.replace σ).fields.filter (fun f => f.effectivePrivacy != .nobody) =
      (s.fields.filter fun f => f.effectivePrivacy != .nobody).map
        (Field.mapType (Node.replace σ)) := by
    rw [Structure.replace_fields, List.filter_map]
    rfl
  unfold syncedFields
  rw [hprivacy, List.filterMap_map, List.map_filterMap]
  refine List.filterMap_congr fun f hf => ?_
  obtain ⟨hf, hp⟩ := List.mem_filter.1 hf
  have hdelta := deltaType?_replace ht hσ hs hf (by simpa using hp)
  simp only [Function.comp_apply, Field.mapType, hdelta, Option.map_map]
  rfl

theorem delta_replace (type : String) :
    delta (t.replace σ) type (s.replace σ) = delta t type s := by
  have hshow : ∀ x ∈ syncedFields t s,
      showField (t.replace σ) (x.field.mapType (Node.replace σ)) = showField t x.field := by
    intro x hx
    obtain ⟨f, hf, hx⟩ := List.mem_filterMap.1 hx
    obtain ⟨d, -, rfl⟩ := Option.map_eq_some_iff.1 hx
    obtain ⟨target, href, -, hconcrete, hconcrete'⟩ :=
      exists_concrete_field ht hσ hs (List.mem_of_mem_filter hf)
    -- The condition under which a field is shown names other fields and rules, whose names stay.
    have hstatement : showStatement (t.replace σ) (f.mapType (Node.replace σ)) =
        showStatement t f := by
      simp only [showStatement, shownValue, Field.mapType, hconcrete, hconcrete',
        Node.access_replace href]
    unfold showField
    rw [hstatement]
    rfl
  unfold delta deltaOf
  rw [syncedFields_replace ht hσ hs, List.map_map, List.flatMap_map, List.flatMap_congr hshow]
  rfl

/-! ### Records and messages -/

/-- A column depends on the scalar that the field on it comes down to. -/
theorem indexColumns_replace : indexColumns (t.replace σ) (s.replace σ) = indexColumns t s := by
  unfold indexColumns
  rw [Structure.replace_indices]
  refine List.filterMap_congr fun i _ => ?_
  unfold indexColumn?
  dsimp only
  rw [Structure.field?_replace]
  -- An index on a field that is missing has no column, before and after.
  cases hfield : s.field? i.1.field with
  | none => rfl
  | some f =>
    obtain ⟨target, href, -, hconcrete, hconcrete'⟩ :=
      exists_concrete_field ht hσ hs (List.mem_of_find?_eq_some hfield)
    simp only [Option.map_some, Option.bind_eq_bind, Option.bind_some, Field.mapType, hconcrete,
      hconcrete', Node.scalar?_replace href]

/-- A record is built in the same way. -/
theorem recordConstructor_replace (columns : List IndexColumn) :
    recordConstructor (t.replace σ) (s.replace σ) columns = recordConstructor t s columns := by
  unfold recordConstructor
  rw [construction_replace ht hσ hs, bindings_replace ht hσ hs, Structure.replace_fields,
    List.map_map]
  rfl

/-- A record dies in the same way. -/
theorem kill_replace : kill (t.replace σ) (s.replace σ) = kill t s := by
  unfold kill
  rw [Structure.replace_fields, List.filterMap_map]
  refine congrArg _ (congrArg₂ _ (List.filterMap_congr fun f hf => ?_) rfl)
  obtain ⟨target, href, -, hconcrete, hconcrete'⟩ := exists_concrete_field ht hσ hs hf
  simp only [Function.comp_apply, Field.mapType, hconcrete, hconcrete',
    Node.killCall?_replace _ href]

/-- A record is the same code. -/
theorem record_replace : record (t.replace σ) (s.replace σ) = record t s := by
  have hslot : idSlot (s.replace σ) = idSlot s := by
    unfold idSlot
    rw [Structure.replace_fields, List.findIdx?_map]
    rfl
  have hrules : rules (s.replace σ) = rules s := by
    unfold rules
    rw [Structure.replace_rules]
  unfold record
  dsimp only
  rw [hslot, hrules, indexColumns_replace ht hσ hs, recordConstructor_replace ht hσ hs,
    storage_replace ht hσ hs, accessors_replace ht hσ hs, methods_replace ht hσ hs,
    stateFunctions_replace ht hσ hs, settle_replace ht hσ hs, kill_replace ht hσ hs,
    delta_replace ht hσ hs, Structure.replace_name]

/-- A message is the same code. -/
theorem message_replace : message (t.replace σ) (s.replace σ) = message t s := by
  have hmembers : (s.fields.map (Field.mapType (Node.replace σ))).map (fun f =>
        Code.line ("pub " ++ f.name ++ ": " ++
          (shapeIn (t.replace σ) (s.replace σ) f.type).nativeType ++ ",")) =
      s.fields.map fun f =>
        Code.line ("pub " ++ f.name ++ ": " ++ (shapeIn t s f.type).nativeType ++ ",") := by
    rw [List.map_map]
    refine List.map_congr_left fun f hf => ?_
    simp only [Function.comp_apply, Field.mapType, shapeIn_replace_field ht hσ hs hf]
  unfold message
  dsimp only
  rw [Structure.replace_name, Structure.replace_fields, hmembers, List.map_map, List.map_map]
  rfl

/-- A structure has the same links. This is where records come in the same order. -/
theorem links_replace : (t.replace σ).links (s.replace σ) = t.links s := by
  unfold Table.links
  rw [Structure.replace_fields, List.filterMap_map]
  refine List.filterMap_congr fun f hf => ?_
  have hmem : f.type ∈ s.types := List.mem_append_left _ (List.mem_map_of_mem hf)
  exact ht.link?_replace hσ (.member hs hmem) (by simp)

end Members

/-! ### Units -/

section Units

variable (ht : t.WellFormed) (hσ : t.Unaliases σ)

include ht hσ

/-- The document is the same code, since the root is a structure that occurs. -/
theorem document_replace (surface : Surface) :
    document (t.replace σ) surface = document t surface := by
  -- The root is a structure that occurs, so all that was said of structures applies.
  have hroot : (t.replace σ).root = t.root.replace σ := rfl
  have hrules : rules (t.root.replace σ) = rules t.root := by
    unfold rules
    rw [Structure.replace_rules]
  have hconstructor : documentConstructor (t.replace σ) = documentConstructor t := by
    unfold documentConstructor
    rw [hroot, construction_replace ht hσ .root, bindings_replace ht hσ .root,
      Structure.replace_fields, List.map_map]
    rfl
  unfold document
  dsimp only
  rw [hroot, hconstructor, hrules, storage_replace ht hσ .root, accessors_replace ht hσ .root,
    methods_replace ht hσ .root, stateFunctions_replace ht hσ .root, settle_replace ht hσ .root,
    delta_replace ht hσ .root]

/-- Dependencies are those of the records, under the same names. -/
theorem dependencies_replace : (t.replace σ).dependencies = t.dependencies := by
  unfold Table.dependencies
  rw [Table.records_replace hσ, List.map_map]
  refine congrArg (fun edges => Graph.mk (Keyed.ofPairs edges)) (List.map_congr_left fun s hs => ?_)
  obtain ⟨e, he, hs⟩ := List.mem_filterMap.1 hs
  have hoccurs : t.Occurs (.body s) :=
    .body (.entry he) (by simp [Node.structure?, Node.record?_eq_some_iff.1 hs])
  simp only [Function.comp_apply, Structure.replace_name, links_replace ht hσ hoccurs]

/-- Records come in the order of their components. -/
theorem orderedRecords_replace :
    orderedRecords (t.replace σ) = (orderedRecords t).map (Structure.replace σ) := by
  unfold orderedRecords
  rw [dependencies_replace ht hσ, List.map_filterMap]
  refine List.filterMap_congr fun name _ => ?_
  rw [Table.structure?_replace hσ]
  cases t.structure? name with
  | none => rfl
  | some s => by_cases hrole : s.role = .record <;> simp [Option.filter, hrole]

/-- The source of a unit stays when aliases are replaced. -/
theorem unitCode_replace (surface : Surface) (unitName : String) :
    unitCode (t.replace σ) surface unitName = unitCode t surface unitName := by
  -- Structures that are emitted occur, so their code is the same one by one.
  have hmessages : (t.messages.map (Structure.replace σ)).flatMap
      (fun s => message (t.replace σ) s ++ [.blank]) =
        t.messages.flatMap fun s => message t s ++ [.blank] := by
    rw [List.flatMap_map]
    refine List.flatMap_congr fun s hs => ?_
    have hoccurs := occurs_of_mem_emitted (List.mem_append_left _ (List.mem_append_left _ hs))
    rw [message_replace ht hσ hoccurs]
  have hrecords : ((orderedRecords t).map (Structure.replace σ)).flatMap
      (fun s => record (t.replace σ) s ++ [.blank]) =
        (orderedRecords t).flatMap fun s => record t s ++ [.blank] := by
    rw [List.flatMap_map]
    refine List.flatMap_congr fun s hs => ?_
    have hoccurs := occurs_of_mem_emitted (List.mem_append_left _ (List.mem_append_right _ hs))
    rw [record_replace ht hσ hoccurs]
  unfold unitCode
  rw [Table.messages_replace hσ, hmessages, orderedRecords_replace ht hσ, hrecords,
    document_replace ht hσ]

end Units

end Target

namespace Declarations

/-- Rounds of replacement leave the name of the space and its surface alone. -/
theorem space_unaliased (d : Declarations) (rounds : Nat) :
    (d.unaliased rounds).space = d.space ∧ (d.unaliased rounds).surface = d.surface := by
  unfold unaliased
  induction rounds with
  | zero => exact ⟨rfl, rfl⟩
  | succ rounds ih =>
    rw [Function.iterate_succ_apply']
    exact ih

/-- **Aliases leave no trace.** In a deployable space whose aliases do not contain themselves, no
reference to an alias is left after some number of rounds. Whenever none is left and the result is
deployable as well, the two spaces have units with the same source. -/
theorem generate_unaliased {d : Declarations} (h : d.check.isDeployable = true) :
    ((∀ name, ¬ TransGen d.check.table.Contains name name) →
      ∀ᶠ rounds in atTop, ∀ name, (d.unaliased rounds).check.table.Refers name →
        d.check.table.aliasNode? name = none) ∧
    ∀ rounds, (∀ name, (d.unaliased rounds).check.table.Refers name →
        d.check.table.aliasNode? name = none) →
      (d.unaliased rounds).check.isDeployable = true →
        ∃ unit unit', d.generate = .ok unit ∧ (d.unaliased rounds).generate = .ok unit' ∧
          unit'.source = unit.source := by
  have hd : d.check.diagnostics = [] := List.isEmpty_iff.1 h
  have hnames := ((check_reports_nothing_iff d).1 hd).distinct
  have ht := wellFormed_of_isDeployable h
  refine ⟨fun hacyclic => ?_, fun rounds hclear h' => ?_⟩
  · simp only [table_check_unaliased hnames]
    exact Table.eventually_no_alias hacyclic
  · rw [table_check_unaliased hnames] at hclear
    -- When no alias is left, all rounds together are one replacement.
    obtain ⟨σ, hσ, htable⟩ := Table.exists_unaliases hclear
    obtain ⟨hspace, hsurface⟩ := d.space_unaliased rounds
    refine ⟨_, _, generate_eq_ok h, generate_eq_ok h', ?_⟩
    have hunit : (d.unaliased rounds).unitName = d.unitName := by
      rw [unitName, unitName, hspace]
    rw [table_check_unaliased hnames, htable, hsurface, hunit, Target.unitCode_replace ht hσ]

/-- A document with the best scores. The types of a score `S`, of a list `L` and of the field are
given. -/
def arcade (score scores best : Node) : Declarations where
  space := "arcade"
  aliases := [("S", score), ("L", scores)]
  root := { Structure.emptyRoot with
    fields := [{ name := "best", type := best, privacy := some .everyone }] }

/-- The scores of a document are an alias of a list of another alias. After two rounds they are the
list itself, and the source is the same. -/
theorem generate_arcade :
    let score : Node := .ofScalar .int
    let d := arcade score (.ofKind (.list (.ofKind (.ref "S")))) (.ofKind (.ref "L"))
    let d' := arcade score (.ofKind (.list score)) (.ofKind (.list score))
    d.check.isDeployable = true ∧ d'.check.isDeployable = true ∧ d.unaliased 2 = d' ∧
      ∃ unit unit', d.generate = .ok unit ∧ d'.generate = .ok unit' ∧
        unit'.source = unit.source := by
  intro score d d'
  have h : d.check.isDeployable = true :=
    isDeployable_of_isEmpty (by decide) (by decide +kernel +zetaReduce) (by cbv)
  have h' : d'.check.isDeployable = true :=
    isDeployable_of_isEmpty (by decide) (by decide +kernel +zetaReduce) (by cbv)
  have htable : d.check.table = d.table (by decide) := table_draft _
  have hscore : d.check.table.aliasNode? "S" = some score := by
    rw [htable]
    exact Table.aliasNode?_eq_some_iff.2 ⟨⟨_, rfl, .self rfl⟩, rfl⟩
  have hscores : d.check.table.aliasNode? "L" =
      some (.ofKind (.list (.ofKind (.ref "S")))) := by
    rw [htable]
    exact Table.aliasNode?_eq_some_iff.2 ⟨⟨_, rfl, .self rfl⟩, rfl⟩
  have hrounds : d.unaliased 2 = d' := by
    have hround : ∀ (σ : String → Option Node) (a b c : Node),
        (arcade a b c).replace σ = arcade (a.replace σ) (b.replace σ) (c.replace σ) := by
      intro σ a b c
      simp [replace, arcade, Structure.emptyRoot, Structure.replace, Field.replaceAll,
        Method.replaceAll]
    have hscalar : ∀ σ, score.replace σ = score := fun σ => rfl
    have hlist : ∀ (σ : String → Option Node) (n : Node),
        (Node.ofKind (.list n)).replace σ = .ofKind (.list (n.replace σ)) := fun σ n => rfl
    have href : (Node.ofKind (.ref "L")).replace d.check.table.aliasNode? =
        .ofKind (.list (.ofKind (.ref "S"))) := Node.replace_of_some rfl hscores
    have href' : (Node.ofKind (.ref "S")).replace d.check.table.aliasNode? = score :=
      Node.replace_of_some rfl hscore
    show replace d.check.table.aliasNode? (replace d.check.table.aliasNode? d) = d'
    rw [hround, hround, hscalar, hscalar, href, hlist, href', hlist, hscalar]
  -- No reference is left at all.
  have hclear : ∀ name, d'.check.table.Refers name → d.check.table.aliasNode? name = none := by
    have hscalar : ∀ name, ¬ score.Refers name := by
      intro name
      rw [Node.refers_iff rfl]
      simp [score, Node.ofScalar, Node.ofKind, Node.parts, Node.structure?]
    have hlist : ∀ name, ¬ (Node.ofKind (.list score)).Refers name := by
      intro name
      rw [Node.refers_iff rfl]
      simp [Node.ofKind, Node.parts, Node.structure?, hscalar name]
    have htable' : d'.check.table = d'.table (by decide) := table_draft _
    intro name hname
    rw [htable', Table.refers_iff] at hname
    rcases hname with ⟨key, n, hget, hn⟩ | ⟨n, hmem, hn⟩
    · have hentry := Keyed.mem_of_get? hget
      simp [table, types, d', arcade] at hentry
      rcases hentry with ⟨-, rfl⟩ | ⟨-, rfl⟩
      · exact absurd hn (hscalar name)
      · exact absurd hn (hlist name)
    · simp [table, document, d', arcade, Structure.emptyRoot, Structure.types] at hmem
      exact absurd (hmem ▸ hn) (hlist name)
  obtain ⟨-, hsource⟩ := generate_unaliased h
  refine ⟨h, h', hrounds, ?_⟩
  have hunits := hsource 2
  rw [hrounds] at hunits
  exact hunits hclear h'

end Declarations

end ReactiveSpace
