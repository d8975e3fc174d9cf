import ReactiveSpace.Deployment
import ReactiveSpace.Proofs.Space.Erasure
import ReactiveSpace.Proofs.Target.Identity
import ReactiveSpace.Proofs.Target.Source

/-!
# Generating without positions and notes

Source is written from shapes, from what types come down to and from members of structures, and none
of them changes when positions and notes are erased (`Target.unitCode_erase`, emitter by emitter).
A reflection shows notes, so it stays when only positions are erased (`Reflection.ofTable_erase`).

Two spaces that are erased to the same are therefore checked and generated alike, and so they are
for everybody who reads their types by identity, whatever the identities are
(`Declarations.alike_of_erase_eq`).
-/

namespace ReactiveSpace

variable {keep : Note → Bool}

/-! ### Shapes -/

/-- **A type has the shape that it had**, below any aliases. Shapes have names and scalars in them,
but no types. -/
theorem Shape.expand_erase (t : Table) (opened : List String) (site : Site) (n : Node) :
    expand (t.erase keep) opened (site.erase keep) (n.erase keep) = expand t opened site n := by
  have hrecord : ∀ key, ((t.erase keep).get? key).bind Node.record? =
      ((t.get? key).bind Node.record?).map (Structure.erase keep) := by
    intro key
    rw [Table.get?_erase]
    cases t.get? key <;> simp
  have hmessage : ∀ key, ((t.erase keep).get? key).bind Node.message? =
      ((t.get? key).bind Node.message?).map (Structure.erase keep) := by
    intro key
    rw [Table.get?_erase]
    cases t.get? key <;> simp
  have hresolution : ∀ (site : Site) (n : Node),
      (n.erase keep).resolution? (t.erase keep) (site.erase keep) = n.resolution? t site :=
    Node.resolution?_erase t
  -- The cases are those of the expansion: nothing to resolve, parts, structures by their names, and
  -- references, which open the same aliases in both tables.
  induction opened, site, n using expand.induct t with
  | case1 opened site position notes | case2 opened site position notes
  | case3 opened site position notes => rw [Node.erase, Kind.erase, expand, expand]
  | case4 opened site position notes _ ih | case6 opened site position notes _ ih
  | case13 opened site position notes _ _ _ ih => rw [Node.erase, Kind.erase, expand, expand, ih]
  | case5 opened site position notes domain range ihdomain ihrange =>
    rw [Node.erase, Kind.erase, expand, expand, ihdomain, ihrange]
  | case7 opened site position notes row | case8 opened site position notes row =>
    have hrow := hresolution site ⟨position, notes, .table row⟩
    rw [Node.erase, Kind.erase] at hrow ⊢
    rw [expand, expand, hrow]
  | case9 opened site position notes held | case10 opened site position notes held =>
    have hheld := hresolution site ⟨position, notes, .holder held⟩
    rw [Node.erase, Kind.erase] at hheld ⊢
    rw [expand, expand, hheld]
  | case11 opened site position notes rows field
  | case12 opened site position notes rows field =>
    have hrows := hresolution site ⟨position, notes, .projection rows field⟩
    rw [Node.erase, Kind.erase] at hrows ⊢
    rw [expand, expand, hrows]
  | case14 opened site position notes s | case15 opened site position notes s =>
    rw [Node.erase, Kind.erase, expand, expand, Structure.erase_name]
  | case16 opened site position notes name key hr
  | case17 opened site position notes name key hr =>
    rw [Node.erase, Kind.erase, expand, expand, Table.resolve_erase, hr]
    dsimp only
    rw [hrecord]
    cases (t.get? key).bind Node.record? <;> simp
  | case18 opened site position notes name key hr
  | case19 opened site position notes name key hr =>
    rw [Node.erase, Kind.erase, expand, expand, Table.resolve_erase, hr]
    dsimp only
    rw [hmessage]
    cases (t.get? key).bind Node.message? <;> simp
  | case20 opened site position notes name key hr target hkey hopened =>
    rw [Node.erase, Kind.erase, Table.expand_aliased _ rfl hr hkey, if_pos hopened,
      Table.expand_aliased _ rfl ((t.resolve_erase name).trans hr)
        (Table.get?_erase_of_some hkey), if_pos hopened]
  | case21 opened site position notes name key hr target hkey hopened ih =>
    rw [Node.erase, Kind.erase, Table.expand_aliased _ rfl hr hkey, if_neg hopened,
      Table.expand_aliased _ rfl ((t.resolve_erase name).trans hr)
        (Table.get?_erase_of_some hkey), if_neg hopened]
    exact ih
  | case22 opened site position notes name key hr hkey =>
    rw [Node.erase, Kind.erase, expand, expand, Table.resolve_erase, hr]
    dsimp only
    split <;> split <;> simp_all
  | case23 opened site position notes name hrecord hmessage haliased =>
    rw [Node.erase, Kind.erase, expand, expand, Table.resolve_erase]
    cases hr : t.resolve name with
    | error e => rfl
    | ok r => cases r <;> simp_all

theorem Node.shape_erase (t : Table) (site : Site) (n : Node) :
    (n.erase keep).shape (t.erase keep) (site.erase keep) = n.shape t site :=
  Shape.expand_erase t [] site n

/-- A type comes down to what it came down to, erased. -/
theorem Node.concrete_erase (t : Table) (n : Node) :
    (n.erase keep).concrete (t.erase keep) = (n.concrete t).erase keep := by
  unfold concrete
  rw [Table.follow?_erase]
  cases t.follow? n <;> rfl

namespace Node

variable (n : Node) (name : String)

theorem settleCall?_erase : (n.erase keep).settleCall? name = n.settleCall? name := by
  rw [settleCall?, settleCall?, erase_needsSettle]

theorem killCall?_erase : (n.erase keep).killCall? name = n.killCall? name := by
  unfold killCall?
  rw [erase_kind]
  cases n.kind <;> rfl

theorem bindCall?_erase : (n.erase keep).bindCall? name = n.bindCall? name := by
  unfold bindCall?
  rw [erase_kind]
  cases n.kind <;> rfl

theorem deltaType?_erase (t : Table) (site : Site) :
    (n.erase keep).deltaType? (t.erase keep) (site.erase keep) = n.deltaType? t site := by
  unfold deltaType?
  rw [erase_kind, shape_erase]
  cases n.kind <;> rfl

end Node

namespace Target

variable (t : Table) (s : Structure Node)

theorem shapeIn_erase (n : Node) :
    shapeIn (t.erase keep) (s.erase keep) (n.erase keep) = shapeIn t s n :=
  n.shape_erase t (siteOf s)

/-- The expression that reads a field depends on its access and on whether it is a formula. -/
theorem readExpression_erase (receiver name : String) (n : Node) :
    readExpression receiver name (n.erase keep) = readExpression receiver name n := by
  obtain ⟨position, notes, kind⟩ := n
  cases kind <;> rfl

/-! ### Members -/

/-- The members of a structure are the same code. From here on emitters are taken one by one, as
they build on one another. -/
theorem storage_erase : storage (t.erase keep) (s.erase keep) = storage t s := by
  simp only [storage, Structure.erase_fields, List.map_map, Function.comp_def, Field.erase_name,
    Field.erase_type, shapeIn_erase]

theorem construction_erase : construction (t.erase keep) (s.erase keep) = construction t s := by
  simp only [construction, Structure.erase_fields, List.map_map, Function.comp_def,
    Field.erase_name, Field.erase_type, Field.erase_initial, shapeIn_erase]

theorem bindings_erase : bindings (s.erase keep) = bindings s := by
  simp only [bindings, Structure.erase_fields, List.filterMap_map, Function.comp_def,
    Field.erase_name, Field.erase_type, Node.bindCall?_erase]

theorem accessors_erase : accessors (t.erase keep) (s.erase keep) = accessors t s := by
  simp only [accessors, getter, setter?, Structure.erase_fields, List.flatMap_map,
    Field.erase_name, Field.erase_type, Field.erase_readonly, shapeIn_erase, Node.concrete_erase,
    Node.erase_access, Node.erase_isProjection, readExpression_erase]

/-- Methods have the same headers, and bodies are source that nobody looks into. -/
theorem methods_erase : methods (t.erase keep) (s.erase keep) = methods t s := by
  have hheader : ∀ m, methodHeader (t.erase keep) (s.erase keep) (m.erase keep) =
      methodHeader t s m := by
    intro m
    unfold methodHeader
    simp only [Method.erase_name, Method.erase_readonly, Method.erase_parameters,
      Method.erase_returns, List.map_map, Function.comp_def, Parameter.erase_name,
      Parameter.erase_type, shapeIn_erase]
    -- A result is spelled by its shape.
    cases m.returns with
    | none => rfl
    | some n =>
      simp only [Option.map_some, shapeIn_erase]
      rfl
  simp only [methods, Structure.erase_methods, List.flatMap_map, hheader, Method.erase_body]

theorem rules_erase : rules (s.erase keep) = rules s := by
  simp only [rules, Structure.erase_rules, List.flatMap_map, Rule.erase_name, Rule.erase_body]

theorem settle_erase : settle (t.erase keep) (s.erase keep) = settle t s := by
  simp only [settle, Structure.erase_fields, List.filterMap_map, Function.comp_def,
    Field.erase_name, Field.erase_type, Node.concrete_erase, Node.settleCall?_erase]

/-! ### State -/

/-- The fields with state of their own are the same ones. -/
theorem storedFields_erase :
    storedFields (t.erase keep) (s.erase keep) = (storedFields t s).map (Field.erase keep) := by
  have hstored : ∀ f : Field Node, isStored (t.erase keep) (f.erase keep) = isStored t f := by
    intro f
    unfold isStored
    rw [Field.erase_type, Node.concrete_erase, Node.erase_kind]
    cases (f.type.concrete t).kind <;> rfl
  simp only [storedFields, Structure.erase_fields, List.filter_map, Function.comp_def, hstored]

/-- The functions of the state go through the same fields. -/
theorem stateFunctions_erase :
    stateFunctions (t.erase keep) (s.erase keep) = stateFunctions t s := by
  have hcommit : commit (t.erase keep) (s.erase keep) = commit t s := by
    simp only [commit, storedFields_erase, List.map_map, Function.comp_def, commitStatement,
      Field.erase_name]
  have hrevert : revert (t.erase keep) (s.erase keep) = revert t s := by
    simp only [revert, storedFields_erase, List.map_map, Function.comp_def, revertStatement,
      Field.erase_name]
  -- Fields are compared by their access.
  have hterm : equalityTerm (t.erase keep) ∘ Field.erase keep = equalityTerm t := by
    funext f
    simp only [Function.comp_apply, equalityTerm, Field.erase_name, Field.erase_type,
      Node.concrete_erase, Node.erase_access]
  have hequality : equality (t.erase keep) (s.erase keep) = equality t s := by
    unfold equality
    rw [storedFields_erase, List.map_map, hterm]
  have hcomparator : comparator (t.erase keep) (s.erase keep) = comparator t s := by
    simp only [comparator, orderExpression?, Structure.erase_fields, List.filterMap_map,
      Function.comp_def, Field.erase_name, Field.erase_type, Node.concrete_erase,
      Node.erase_scalar?]
  rw [stateFunctions, stateFunctions, hcommit, hrevert, hequality, hcomparator]

/-! ### Deltas -/

/-- The fields that go into a delta are the same ones, with the same delta types. -/
theorem syncedFields_erase :
    syncedFields (t.erase keep) (s.erase keep) =
      (syncedFields t s).map fun x => ⟨x.field.erase keep, x.deltaType⟩ := by
  have hdelta : ∀ f : Field Node, (f.type.erase keep).deltaType? (t.erase keep)
      (siteOf (s.erase keep)) = f.type.deltaType? t (siteOf s) :=
    fun f => f.type.deltaType?_erase t (siteOf s)
  simp only [syncedFields, Structure.erase_fields, List.filter_map, List.filterMap_map,
    List.map_filterMap, Function.comp_def, Field.erase_effectivePrivacy, Field.erase_type, hdelta,
    Option.map_map]

theorem delta_erase (type : String) :
    delta (t.erase keep) type (s.erase keep) = delta t type s := by
  have hshow : ∀ f : Field Node, showField (t.erase keep) (f.erase keep) = showField t f := by
    intro f
    simp only [showField, showStatement, hideStatement, shownValue, Field.erase_effectivePrivacy,
      Field.erase_name, Field.erase_type, Node.concrete_erase, Node.erase_access]
  simp only [delta, deltaOf, syncedFields_erase, List.map_map, List.flatMap_map, Function.comp_def,
    hshow, Field.erase_name]

/-! ### Records, messages and the document -/

/-- An index is on a field by name, and its column depends on the scalar of that field. -/
theorem indexColumns_erase : indexColumns (t.erase keep) (s.erase keep) = indexColumns t s := by
  -- The number of a column is its place, which is kept.
  have hcolumn : ∀ number (i : Index),
      indexColumn? (t.erase keep) (s.erase keep) number i.erase = indexColumn? t s number i := by
    intro number i
    unfold indexColumn?
    rw [Structure.erase_field?, Index.erase_field]
    cases s.field? i.field with
    | none => rfl
    | some f =>
      simp only [Option.map_some, Option.bind_eq_bind, Option.bind_some, Field.erase_type,
        Field.erase_name, Node.concrete_erase, Node.erase_scalar?]
  simp only [indexColumns, Structure.erase_indices, List.zipIdx_map, List.filterMap_map,
    Function.comp_def, Prod.map, hcolumn, id]

/-- A record is the same code. -/
theorem record_erase : record (t.erase keep) (s.erase keep) = record t s := by
  -- The identity is found by its name.
  have hslot : idSlot (s.erase keep) = idSlot s := by
    simp only [idSlot, Structure.erase_fields, List.findIdx?_map, Function.comp_def,
      Field.erase_name]
  have hconstructor : ∀ columns, recordConstructor (t.erase keep) (s.erase keep) columns =
      recordConstructor t s columns := by
    intro columns
    unfold recordConstructor
    rw [construction_erase, bindings_erase, Structure.erase_fields, List.map_map]
    rfl
  have hkill : kill (t.erase keep) (s.erase keep) = kill t s := by
    simp only [kill, Structure.erase_fields, List.filterMap_map, Function.comp_def,
      Field.erase_name, Field.erase_type, Node.concrete_erase, Node.killCall?_erase]
  unfold record
  dsimp only
  rw [Structure.erase_name, hslot, hconstructor, hkill, indexColumns_erase, storage_erase,
    accessors_erase, methods_erase, rules_erase, stateFunctions_erase, settle_erase, delta_erase]

/-- A message is the same code. -/
theorem message_erase : message (t.erase keep) (s.erase keep) = message t s := by
  have hmembers : (s.fields.map (Field.erase keep)).map (fun f =>
        Code.line ("pub " ++ f.name ++ ": " ++
          (shapeIn (t.erase keep) (s.erase keep) f.type).nativeType ++ ",")) =
      s.fields.map fun f =>
        Code.line ("pub " ++ f.name ++ ": " ++ (shapeIn t s f.type).nativeType ++ ",") := by
    simp only [List.map_map, Function.comp_def, Field.erase_name, Field.erase_type, shapeIn_erase]
  unfold message
  dsimp only
  rw [Structure.erase_name, Structure.erase_fields, hmembers, List.map_map, List.map_map]
  rfl

/-- The document is the same code, whatever the surface. -/
theorem document_erase (surface : Surface) :
    document (t.erase keep) surface = document t surface := by
  have hconstructor : documentConstructor (t.erase keep) = documentConstructor t := by
    unfold documentConstructor
    rw [Table.root_erase, construction_erase, bindings_erase, Structure.erase_fields, List.map_map]
    rfl
  unfold document
  dsimp only
  rw [Table.root_erase, hconstructor, storage_erase, accessors_erase, methods_erase, rules_erase,
    stateFunctions_erase, settle_erase, delta_erase]

/-! ### Units -/

/-- Records come in the order of their components, which depends on names alone. -/
theorem orderedRecords_erase :
    orderedRecords (t.erase keep) = (orderedRecords t).map (Structure.erase keep) := by
  unfold orderedRecords
  rw [Table.dependencies_erase, List.map_filterMap]
  refine List.filterMap_congr fun name _ => ?_
  rw [Table.structure?_erase]
  cases t.structure? name with
  | none => rfl
  | some s => by_cases hrole : s.role = .record <;> simp [Option.filter, hrole]

/-- The source of a unit stays when positions and notes are erased. -/
theorem unitCode_erase (surface : Surface) (unitName : String) :
    unitCode (t.erase keep) surface unitName = unitCode t surface unitName := by
  simp only [unitCode, Table.messages_erase, orderedRecords_erase, List.flatMap_map, message_erase,
    record_erase, document_erase]

end Target

/-! ### Reflections -/

namespace Reflection

variable (hkeep : ∀ note, keep note = true) (t : Table) (site : Site)

include hkeep

/-- The notes that are kept are shown as they were; only positions are not shown. -/
theorem header_erase (n : Node) : header (n.erase keep) = header n := by
  rw [header, header, Node.erase_nature, Node.erase_notes,
    List.filter_eq_self.2 fun note _ => hkeep note]

/-- A type that is mentioned is described alike. By induction on types, since the parts of a type
are mentioned in it. -/
theorem mention_erase (n : Node) :
    mention (t.erase keep) (site.erase keep) (n.erase keep) = mention t site n := by
  induction n using Node.induction with
  | h n ih =>
    have hheader := header_erase hkeep n
    have hresolution : (n.erase keep).resolution? (t.erase keep) (site.erase keep) =
        n.resolution? t site := n.resolution?_erase t site
    obtain ⟨position, notes, kind⟩ := n
    rw [Node.erase] at hheader hresolution ⊢
    -- All kinds show a header; what comes after it are names, parts or a resolution.
    cases kind <;> rw [Kind.erase] at hheader hresolution ⊢ <;> rw [mention, mention]
    case scalar | text | replication | ref => rw [hheader]
    case record | message => rw [Structure.erase_name]
    case list | maybe | lazy => rw [hheader, ih _ List.mem_cons_self]
    case map =>
      rw [hheader, ih _ List.mem_cons_self, ih _ (List.mem_cons_of_mem _ List.mem_cons_self)]
    case table | holder =>
      rw [hheader, resolvedName, hresolution]
      rfl
    case projection =>
      rw [hheader, projectionDomain, hresolution]
      rfl

/-- The fields of a structure are described alike. -/
theorem fields_erase (s : Structure Node) :
    fields (t.erase keep) (site.erase keep) (s.erase keep) = fields t site s := by
  have hsite : (site.erase keep).inside (s.erase keep) = (site.inside s).erase keep := by
    cases site <;> rfl
  simp only [fields, Structure.erase_fields, List.map_map, Function.comp_def, Field.erase_name,
    Field.erase_type, Field.erase_effectivePrivacy, hsite, mention_erase hkeep]

/-- A type is described alike where it is defined. -/
theorem definition_erase (n : Node) :
    definition (t.erase keep) (site.erase keep) (n.erase keep) = definition t site n := by
  unfold definition
  rw [Node.erase_structure?, header_erase hkeep, mention_erase hkeep]
  cases n.structure? with
  | none => rfl
  | some s => simp only [Option.map_some, Structure.erase_name, fields_erase hkeep]

/-- The reflection of a space stays when positions are erased. -/
theorem ofTable_erase : ofTable (t.erase keep) = ofTable t := by
  have hentries : (t.erase keep).entries.map
      (fun e => (e.1, definition (t.erase keep) (.declared none) e.2)) =
        t.entries.map fun e => (e.1, definition t (.declared none) e.2) := by
    rw [Table.erase, List.map_map]
    exact List.map_congr_left fun e _ =>
      congrArg (Prod.mk e.1) (definition_erase hkeep t (.declared none) e.2)
  have hroot : fields (t.erase keep) (.declared none) (t.root.erase keep) =
      fields t (.declared none) t.root := fields_erase hkeep t (.declared none) t.root
  rw [ofTable, ofTable, hentries, Table.root_erase, hroot, Structure.erase_name]

end Reflection

/-! ### Spaces that differ in positions and notes -/

/-- Who looks up the nodes `n` and `n'` at an address of two checked spaces by their identities
finds and reads the same, up to positions and to the notes that `keep` does not hold for. -/
structure Checked.ReadAlike (keep : Note → Bool) {c c' : Checked} (ids : c.table.Identities)
    (ids' : c'.table.Identities) (a : Address) (n n' : Node) : Prop where
  node : n.erase keep = n'.erase keep
  resolution : (c.view ids).resolution? (ids.of a) = (c'.view ids').resolution? (ids'.of a)
  shape : (c.view ids).expand ids.of [] a n = (c'.view ids').expand ids'.of [] a n'
  reflection : (∀ note, keep note = true) →
    (c.view ids).mention ids.of a n = (c'.view ids').mention ids'.of a n'

/-- The same is checked and generated for two spaces, up to positions and to the notes that `keep`
does not hold for, whatever the identities of their nodes are. -/
structure Declarations.Alike (keep : Note → Bool) (d d' : Declarations) : Prop where
  messages : d.check.diagnostics.map Diagnostic.message =
    d'.check.diagnostics.map Diagnostic.message
  deployable : d.check.isDeployable = d'.check.isDeployable
  table : d.check.table.erase keep = d'.check.table.erase keep
  dependencies : d.check.dependencies = d'.check.dependencies
  embeddings : d.check.table.embeddings = d'.check.table.embeddings
  /-- What was recorded for a node of one space was recorded for the node of the other at the same
  address. -/
  recorded : ∀ (ids : d.check.table.Identities) (ids' : d'.check.table.Identities) id r,
    (d.check.view ids).resolution? id = some r →
      ∃ a, ids.of a = id ∧ (d'.check.view ids').resolution? (ids'.of a) = some r
  read : ∀ (ids : d.check.table.Identities) (ids' : d'.check.table.Identities) a scope n,
    d.check.table.at? a = some (.type scope n) →
      ∃ scope' n', d'.check.table.at? a = some (.type scope' n') ∧
        Checked.ReadAlike keep ids ids' a n n'
  /-- What is read by identity is what source and reflection are written from. -/
  written : ∀ (ids : d.check.table.Identities) a scope n,
    d.check.table.at? a = some (.type scope n) →
      (d.check.view ids).expand ids.of [] a n = n.shape d.check.table (.declared scope) ∧
      (d.check.view ids).mention ids.of a n =
        Reflection.mention d.check.table (.declared scope) n
  units : d.check.isDeployable = true →
    ∃ unit unit', d.generate = .ok unit ∧ d'.generate = .ok unit' ∧ unit.name = unit'.name ∧
      unit.source = unit'.source
  reflections : (∀ note, keep note = true) →
    Reflection.ofTable d.check.table = Reflection.ofTable d'.check.table

namespace Checked

variable {c c' : Checked} (h : c.table.erase keep = c'.table.erase keep)
  (ids : c.table.Identities) (ids' : c'.table.Identities)

include h

/-- Where one space has a type, the other has the same up to what is erased, and both are read
alike. -/
theorem exists_readAlike {a : Address} {scope : Option (Structure Node)} {n : Node}
    (ha : c.table.at? a = some (.type scope n)) :
    ∃ scope' n', c'.table.at? a = some (.type scope' n') ∧ ReadAlike keep ids ids' a n n' := by
  obtain ⟨scope', n', ha', hscope, hn⟩ := Table.exists_at?_of_erase_eq h ha
  -- The type stands in the same structure in both, up to what is erased.
  have hsite : (Site.declared scope).erase keep = (Site.declared scope').erase keep :=
    congrArg Site.declared hscope
  refine ⟨scope', n', ha', hn, ?_, ?_, fun hkeep => ?_⟩
  · rw [resolution?_view ids ha, resolution?_view ids' ha']
    exact eq_of_erase_eq Node.resolution?_erase h hsite hn
  · rw [expand_view ids [] ha, expand_view ids' [] ha']
    exact eq_of_erase_eq Node.shape_erase h hsite hn
  · rw [mention_view ids ha, mention_view ids' ha']
    exact eq_of_erase_eq (Reflection.mention_erase hkeep) h hsite hn

/-- What is recorded for a node of one space is recorded for a node of the other. -/
theorem exists_recorded {id : Nat} {r : Resolution} (hr : (c.view ids).resolution? id = some r) :
    ∃ a, ids.of a = id ∧ (c'.view ids').resolution? (ids'.of a) = some r := by
  obtain ⟨v, hv, rfl, -⟩ := (records_foldl _ ids.of c.table.visits).sound id r hr
  obtain ⟨_, _, -, halike⟩ := exists_readAlike h ids ids' (Table.mem_visits_iff.1 hv)
  exact ⟨v.address, rfl, halike.resolution ▸ hr⟩

end Checked

namespace Declarations

variable {d d' : Declarations}

/-- Two spaces that are erased to the same have the same problems, those of what they are erased
to. -/
theorem problems_of_erase_eq (h : d.erase keep = d'.erase keep) :
    d.check.diagnostics.map Diagnostic.problem = d'.check.diagnostics.map Diagnostic.problem := by
  calc
    _ = (d.erase keep).check.diagnostics.map Diagnostic.problem := d.problems_check_erase.symm
    _ = (d'.erase keep).check.diagnostics.map Diagnostic.problem := by rw [h]
    _ = _ := d'.problems_check_erase

/-- The tables are the same up to what is erased. -/
theorem table_of_erase_eq (h : d.erase keep = d'.erase keep) :
    d.check.table.erase keep = d'.check.table.erase keep := by
  rw [← table_check_erase, ← table_check_erase, h]

/-- The sources are equal, by way of the source of the erased table. -/
theorem source_of_erase_eq (h : d.erase keep = d'.erase keep) :
    Target.unitCode d.check.table d.surface d.unitName =
      Target.unitCode d'.check.table d'.surface d'.unitName := by
  have hunit : (d.erase keep).unitName = (d'.erase keep).unitName := by rw [h]
  have hsurface : (d.erase keep).surface = (d'.erase keep).surface := by rw [h]
  calc
    _ = Target.unitCode (d.check.table.erase keep) d.surface d.unitName :=
      (Target.unitCode_erase ..).symm
    _ = Target.unitCode (d'.check.table.erase keep) d'.surface d'.unitName := by
      rw [table_of_erase_eq h]
      exact congrArg₂ _ hsurface hunit
    _ = _ := Target.unitCode_erase ..

/-- **Positions, notes and identities are inert.** Two spaces whose declarations are the same up to
positions and notes are checked alike and have the same source; if all notes are the same as well,
they have the same reflection. -/
theorem alike_of_erase_eq (h : d.erase keep = d'.erase keep) : Alike keep d d' := by
  have hproblems := problems_of_erase_eq h
  have htable := table_of_erase_eq h
  -- A space is deployable if it has no problems at all.
  have hdeployable : d.check.isDeployable = d'.check.isDeployable := by
    rw [Checked.isDeployable, Checked.isDeployable, ← List.isEmpty_map, hproblems, List.isEmpty_map]
  exact {
    messages := by
      have hmessages := congrArg (List.map Problem.message) hproblems
      rwa [List.map_map, List.map_map] at hmessages
    deployable := hdeployable
    table := htable
    dependencies := calc
      _ = (d.check.table.erase keep).dependencies := d.check.table.dependencies_erase.symm
      _ = (d'.check.table.erase keep).dependencies := by rw [htable]
      _ = _ := d'.check.table.dependencies_erase
    embeddings := calc
      _ = (d.check.table.erase keep).embeddings := d.check.table.embeddings_erase.symm
      _ = (d'.check.table.erase keep).embeddings := by rw [htable]
      _ = _ := d'.check.table.embeddings_erase
    recorded := fun ids ids' id r hr => Checked.exists_recorded htable ids ids' hr
    read := fun ids ids' a scope n ha => Checked.exists_readAlike htable ids ids' ha
    written := fun ids a scope n ha =>
      ⟨Checked.expand_view ids [] ha, Checked.mention_view ids ha⟩
    units := fun hd => by
      have hunit : (d.erase keep).unitName = (d'.erase keep).unitName := by rw [h]
      refine ⟨_, _, generate_eq_ok hd, generate_eq_ok (hdeployable ▸ hd), hunit, ?_⟩
      rw [source_of_erase_eq h]
    reflections := fun hkeep => by
      rw [← Reflection.ofTable_erase hkeep, htable, Reflection.ofTable_erase hkeep] }

/-- Pins with a title. The titles, their type and the list of tags have the given position and
notes. -/
def pinboard (position : Position) (notes : List Note) : Declarations where
  space := "pinboard"
  records := [{
    name := "Pin"
    fields := [{ name := "id", type := .ofScalar .int },
      { name := "title", type := ⟨position, notes, .scalar .string⟩, position := position }]
    position := position }]
  aliases := [("Tag", ⟨position, notes, .scalar .string⟩)]
  root := { Structure.emptyRoot with
    fields := [{ name := "pins", type := ⟨position, notes, .table "Pin"⟩ },
      { name := "tags", type := ⟨position, [], .list ⟨position, notes, .ref "Tag"⟩⟩ }]
    position := position }

/-- Two pinboards with other positions and other notes have the same source. -/
theorem pinboard_alike :
    let d := pinboard {} [{ name := "label", value := some "Pins" }]
    let d' := pinboard ⟨3, 1, 3, 9⟩ []
    d.check.isDeployable = true ∧ Alike (fun _ => false) d d' ∧
      ∃ unit unit', d.generate = .ok unit ∧ d'.generate = .ok unit' ∧
        unit.source = unit'.source := by
  intro d d'
  have h : d.check.isDeployable = true :=
    isDeployable_of_isEmpty (by decide) (by decide +kernel +zetaReduce) (by cbv)
  have halike : Alike (fun _ => false) d d' := alike_of_erase_eq rfl
  obtain ⟨unit, unit', hunit, hunit', -, hsource⟩ := halike.units h
  exact ⟨h, halike, unit, unit', hunit, hunit', hsource⟩

end Declarations

end ReactiveSpace
