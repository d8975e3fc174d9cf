import ReactiveSpace.Proofs.Json.Parts
import ReactiveSpace.Proofs.Space.Checking

/-!
# Replacing references

`Node.replace` puts types in the place of references, at any depth: through containers, and through
the fields, parameters and results of structures. A reference that nothing is given for stays.

What may be put in the place of an alias is its own type, in which aliases have been replaced in the
same way. A replacement that does this for every alias is `Table.Unaliases`. What types come down to
is then the same as before, up to the replacement itself (`ComesTo.replace`). The same goes for the
kinds that a table or a holder asks for (`NamesKind.replace`) and for what a projection resolves to
(`resolveProjection_replace`).
-/

namespace ReactiveSpace

mutual

/-- The type with `σ name` in the place of every reference to a `name` for which there is one. -/
def Node.replace (σ : String → Option Node) : Node → Node
  | ⟨position, notes, .ref name⟩ => (σ name).getD ⟨position, notes, .ref name⟩
  | ⟨position, notes, kind⟩ => ⟨position, notes, Kind.replace σ kind⟩
termination_by structural x => x

/-- The kind with references replaced in what it is made of. -/
def Kind.replace (σ : String → Option Node) : Kind Node → Kind Node
  | .scalar s => .scalar s
  | .text => .text
  | .replication service method => .replication service method
  | .list element => .list (Node.replace σ element)
  | .map domain range => .map (Node.replace σ domain) (Node.replace σ range)
  | .maybe inner => .maybe (Node.replace σ inner)
  | .table rows => .table rows
  | .holder held => .holder held
  | .projection rows field => .projection rows field
  | .lazy computed formula cached => .lazy (Node.replace σ computed) formula cached
  | .record s => .record (Structure.replace σ s)
  | .message s => .message (Structure.replace σ s)
  | .ref name => .ref name
termination_by structural x => x

/-- The structure with references replaced in its fields and methods. -/
def Structure.replace (σ : String → Option Node) : Structure Node → Structure Node
  | ⟨name, role, fields, indices, methods, rules, position⟩ =>
    ⟨name, role, Field.replaceAll σ fields, indices, Method.replaceAll σ methods, rules, position⟩
termination_by structural x => x

/-- The fields with references replaced in their types. -/
def Field.replaceAll (σ : String → Option Node) : List (Field Node) → List (Field Node)
  | [] => []
  | ⟨name, type, privacy, readonly, initial, position⟩ :: fs =>
    ⟨name, Node.replace σ type, privacy, readonly, initial, position⟩ :: Field.replaceAll σ fs
termination_by structural x => x

/-- The methods with references replaced in their parameters and results. -/
def Method.replaceAll (σ : String → Option Node) : List (Method Node) → List (Method Node)
  | [] => []
  | ⟨name, parameters, returns, readonly, body, position⟩ :: ms =>
    ⟨name, Parameter.replaceAll σ parameters, Method.replaceResult σ returns, readonly, body,
      position⟩ :: Method.replaceAll σ ms
termination_by structural x => x

/-- The parameters with references replaced in their types. -/
def Parameter.replaceAll (σ : String → Option Node) : List (Parameter Node) → List (Parameter Node)
  | [] => []
  | ⟨name, type⟩ :: ps => ⟨name, Node.replace σ type⟩ :: Parameter.replaceAll σ ps
termination_by structural x => x

/-- The result with references replaced in it. -/
def Method.replaceResult (σ : String → Option Node) : Option Node → Option Node
  | none => none
  | some type => some (Node.replace σ type)
termination_by structural x => x

end

/-! ### Changing the types of a kind -/

section Map

variable {T U V : Type}

/-- The field with its type changed. -/
def Field.mapType (f : T → U) (x : Field T) : Field U :=
  ⟨x.name, f x.type, x.privacy, x.readonly, x.initial, x.position⟩

/-- The parameter with its type changed. -/
def Parameter.mapType (f : T → U) (p : Parameter T) : Parameter U :=
  ⟨p.name, f p.type⟩

/-- The method with the types of its parameters and result changed. -/
def Method.mapTypes (f : T → U) (m : Method T) : Method U :=
  ⟨m.name, m.parameters.map (Parameter.mapType f), m.returns.map f, m.readonly, m.body,
    m.position⟩

/-- The structure with the types of its fields and methods changed. -/
def Structure.mapTypes (f : T → U) (s : Structure T) : Structure U :=
  ⟨s.name, s.role, s.fields.map (Field.mapType f), s.indices, s.methods.map (Method.mapTypes f),
    s.rules, s.position⟩

/-- The kind with the types it is made of changed. -/
def Kind.mapTypes (f : T → U) : Kind T → Kind U
  | .scalar s => .scalar s
  | .text => .text
  | .replication service method => .replication service method
  | .list element => .list (f element)
  | .map domain range => .map (f domain) (f range)
  | .maybe inner => .maybe (f inner)
  | .table rows => .table rows
  | .holder held => .holder held
  | .projection rows field => .projection rows field
  | .lazy computed formula cached => .lazy (f computed) formula cached
  | .record s => .record (s.mapTypes f)
  | .message s => .message (s.mapTypes f)
  | .ref name => .ref name

theorem Method.mapTypes_mapTypes (f : T → U) (g : U → V) (m : Method T) :
    (m.mapTypes f).mapTypes g = m.mapTypes (g ∘ f) := by
  have hparameters : Parameter.mapType g ∘ Parameter.mapType f = Parameter.mapType (g ∘ f) := rfl
  simp [Method.mapTypes, hparameters]

/-- Two changes of types are one, for a structure. -/
theorem Structure.mapTypes_mapTypes (f : T → U) (g : U → V) (s : Structure T) :
    (s.mapTypes f).mapTypes g = s.mapTypes (g ∘ f) := by
  have hfields : Field.mapType g ∘ Field.mapType f = Field.mapType (g ∘ f) := rfl
  have hmethods : Method.mapTypes g ∘ Method.mapTypes f = Method.mapTypes (g ∘ f) :=
    funext (Method.mapTypes_mapTypes f g)
  simp [Structure.mapTypes, hfields, hmethods]

/-- Two changes of types are one, for a kind. A round of replacement behind another one is taken
together by this. -/
theorem Kind.mapTypes_mapTypes (f : T → U) (g : U → V) (kind : Kind T) :
    (kind.mapTypes f).mapTypes g = kind.mapTypes (g ∘ f) := by
  cases kind <;> simp [Kind.mapTypes, Structure.mapTypes_mapTypes]

/-- Nothing but types is changed. -/
theorem Structure.mapTypes_id (s : Structure T) : s.mapTypes id = s := by
  have hfields : Field.mapType (id : T → T) = id := rfl
  have hparameters : Parameter.mapType (id : T → T) = id := rfl
  have hmethods : Method.mapTypes (id : T → T) = id := by
    funext m
    simp [Method.mapTypes, hparameters]
  simp [Structure.mapTypes, hfields, hmethods]

theorem Kind.mapTypes_id (kind : Kind T) : kind.mapTypes id = kind := by
  cases kind <;> simp [Kind.mapTypes, Structure.mapTypes_id]

end Map

/-- Only what is done to the types of a structure counts. -/
theorem Structure.mapTypes_congr {f g : Node → Node} {s : Structure Node}
    (h : ∀ n ∈ s.types, f n = g n) : s.mapTypes f = s.mapTypes g := by
  have hfields : s.fields.map (Field.mapType f) = s.fields.map (Field.mapType g) := by
    refine List.map_congr_left fun x hx => ?_
    have htype := h x.type (List.mem_append_left _ (List.mem_map_of_mem hx))
    rw [Field.mapType, Field.mapType, htype]
  have hmethods : s.methods.map (Method.mapTypes f) = s.methods.map (Method.mapTypes g) := by
    refine List.map_congr_left fun m hm => ?_
    -- Parameters and results are types of the structure as well.
    have hmem : ∀ n, n ∈ m.parameters.map Parameter.type ++ m.returns.toList → n ∈ s.types :=
      fun n hn => List.mem_append_right _ (List.mem_flatMap.2 ⟨m, hm, hn⟩)
    have hparameters :
        m.parameters.map (Parameter.mapType f) = m.parameters.map (Parameter.mapType g) := by
      refine List.map_congr_left fun p hp => ?_
      have htype := h p.type (hmem _ (List.mem_append_left _ (List.mem_map_of_mem hp)))
      rw [Parameter.mapType, Parameter.mapType, htype]
    have hreturns : m.returns.map f = m.returns.map g := by
      refine Option.map_congr fun n hn => ?_
      exact h n (hmem _ (List.mem_append_right _ (Option.mem_toList.2 hn)))
    rw [Method.mapTypes, Method.mapTypes, hparameters, hreturns]
  rw [Structure.mapTypes, Structure.mapTypes, hfields, hmethods]

/-- A kind changes with the types in it. -/
theorem Node.mapTypes_kind_congr {f g : Node → Node} {n : Node}
    (hparts : ∀ m ∈ n.parts, f m = g m)
    (hmembers : ∀ s, n.structure? = some s → ∀ m ∈ s.types, f m = g m) :
    n.kind.mapTypes f = n.kind.mapTypes g := by
  obtain ⟨position, notes, kind⟩ := n
  cases kind with
  | scalar | text | replication | table | holder | projection | ref => rfl
  | list | map | maybe | lazy => simp_all [Kind.mapTypes, parts]
  | record s | message s =>
    rw [Kind.mapTypes, Kind.mapTypes, Structure.mapTypes_congr (hmembers s rfl)]

/-! ### Replacement as a change of types -/

variable {σ τ : String → Option Node} {n : Node} {name : String}

/-- The recursion over the fields of a structure is a map, and so are those over parameters and
methods. Only the definition needs them spelled out. -/
theorem Field.replaceAll_eq_map (fs : List (Field Node)) :
    replaceAll σ fs = fs.map (Field.mapType (Node.replace σ)) := by
  induction fs with
  | nil => rfl
  | cons f fs ih =>
    obtain ⟨name, type, privacy, readonly, initial, position⟩ := f
    rw [replaceAll, ih]
    rfl

theorem Parameter.replaceAll_eq_map (ps : List (Parameter Node)) :
    replaceAll σ ps = ps.map (Parameter.mapType (Node.replace σ)) := by
  induction ps with
  | nil => rfl
  | cons p ps ih =>
    obtain ⟨name, type⟩ := p
    rw [replaceAll, ih]
    rfl

theorem Method.replaceAll_eq_map (ms : List (Method Node)) :
    replaceAll σ ms = ms.map (Method.mapTypes (Node.replace σ)) := by
  induction ms with
  | nil => rfl
  | cons m ms ih =>
    obtain ⟨name, parameters, returns, readonly, body, position⟩ := m
    rw [replaceAll, ih, Parameter.replaceAll_eq_map]
    cases returns <;> rfl

/-- Replacement in a structure is a change of its types, so what was said of those applies. -/
theorem Structure.replace_eq_mapTypes (s : Structure Node) :
    s.replace σ = s.mapTypes (Node.replace σ) := by
  obtain ⟨name, role, fields, indices, methods, rules, position⟩ := s
  rw [replace, Field.replaceAll_eq_map, Method.replaceAll_eq_map]
  rfl

theorem Kind.replace_eq_mapTypes (kind : Kind Node) :
    kind.replace σ = kind.mapTypes (Node.replace σ) := by
  cases kind <;> simp [Kind.replace, Kind.mapTypes, Structure.replace_eq_mapTypes]

namespace Structure

variable {s : Structure Node}

@[simp] theorem replace_name : (s.replace σ).name = s.name := by
  rw [replace_eq_mapTypes, Structure.mapTypes]

@[simp] theorem replace_role : (s.replace σ).role = s.role := by
  rw [replace_eq_mapTypes, Structure.mapTypes]

@[simp] theorem replace_fields :
    (s.replace σ).fields = s.fields.map (Field.mapType (Node.replace σ)) := by
  rw [replace_eq_mapTypes, Structure.mapTypes]

@[simp] theorem replace_indices : (s.replace σ).indices = s.indices := by
  rw [replace_eq_mapTypes, Structure.mapTypes]

@[simp] theorem replace_methods :
    (s.replace σ).methods = s.methods.map (Method.mapTypes (Node.replace σ)) := by
  rw [replace_eq_mapTypes, Structure.mapTypes]

@[simp] theorem replace_rules : (s.replace σ).rules = s.rules := by
  rw [replace_eq_mapTypes, Structure.mapTypes]

/-- The types of a structure are replaced one by one, in order. -/
theorem types_replace : (s.replace σ).types = s.types.map (Node.replace σ) := by
  simp [types, List.map_flatMap, List.flatMap_map, Function.comp_def, Field.mapType,
    Method.mapTypes, Parameter.mapType, Option.toList_map]

theorem field?_replace (name : String) :
    (s.replace σ).field? name = (s.field? name).map (Field.mapType (Node.replace σ)) := by
  rw [field?, field?, replace_fields, List.find?_map]
  rfl

end Structure

namespace Node

/-- A reference for which there is a type is replaced by it, with its position and notes. -/
theorem replace_of_some {m : Node} (hn : n.reference? = some name) (hm : σ name = some m) :
    n.replace σ = m := by
  obtain ⟨position, notes, kind⟩ := n
  obtain rfl : kind = .ref name := reference?_eq_some_iff.1 hn
  simp [replace, hm]

/-- A reference for which there is none stays as it is. -/
theorem replace_of_none (hn : n.reference? = some name) (hm : σ name = none) :
    n.replace σ = n := by
  obtain ⟨position, notes, kind⟩ := n
  obtain rfl : kind = .ref name := reference?_eq_some_iff.1 hn
  simp [replace, hm]

/-- Any other type stays where it is, and what it is made of is replaced. -/
theorem replace_eq (hn : n.reference? = none) :
    n.replace σ = ⟨n.position, n.notes, n.kind.mapTypes (replace σ)⟩ := by
  obtain ⟨position, notes, kind⟩ := n
  cases kind <;> simp [reference?, replace, Kind.replace_eq_mapTypes] at hn ⊢

theorem kind_replace (hn : n.reference? = none) :
    (n.replace σ).kind = n.kind.mapTypes (replace σ) := by
  rw [replace_eq hn]

/-- Nothing becomes a reference by replacement inside of it. -/
theorem reference?_replace (hn : n.reference? = none) : (n.replace σ).reference? = none := by
  rw [replace_eq hn]
  obtain ⟨position, notes, kind⟩ := n
  cases kind <;> simp [reference?, Kind.mapTypes] at hn ⊢

theorem parts_replace (hn : n.reference? = none) :
    (n.replace σ).parts = n.parts.map (replace σ) := by
  rw [replace_eq hn]
  obtain ⟨position, notes, kind⟩ := n
  cases kind <;> simp [parts, Kind.mapTypes]

theorem structure?_replace (hn : n.reference? = none) :
    (n.replace σ).structure? = n.structure?.map (Structure.replace σ) := by
  rw [replace_eq hn]
  obtain ⟨position, notes, kind⟩ := n
  cases kind <;> simp [structure?, Kind.mapTypes, Structure.replace_eq_mapTypes]

/-- A reference to `name` stands in a type, at any depth. -/
inductive Refers (name : String) : Node → Prop
  | self {n : Node} : n.reference? = some name → Refers name n
  | part {n m : Node} : m ∈ n.parts → Refers name m → Refers name n
  | member {n m : Node} {s : Structure Node} :
    n.structure? = some s → m ∈ s.types → Refers name m → Refers name n

/-- A reference refers to its own name and to no other. -/
theorem refers_iff_of_reference? {other : String} (hn : n.reference? = some name) :
    n.Refers other ↔ other = name := by
  have hk := reference?_eq_some_iff.1 hn
  constructor
  · intro h
    cases h with
    | self href => exact Option.some.inj (href.symm.trans hn)
    | part hm => simp [parts, hk] at hm
    | member hs => simp [structure?, hk] at hs
  · rintro rfl
    exact .self hn

/-- The references in a type that is none are those in what it is made of. -/
theorem refers_iff (hn : n.reference? = none) :
    n.Refers name ↔ (∃ m ∈ n.parts, m.Refers name) ∨
      ∃ s, n.structure? = some s ∧ ∃ m ∈ s.types, m.Refers name := by
  constructor
  · intro h
    cases h with
    | self href => simp [hn] at href
    | part hm hrefers => exact Or.inl ⟨_, hm, hrefers⟩
    | member hs hm hrefers => exact Or.inr ⟨_, hs, _, hm, hrefers⟩
  · rintro (⟨m, hm, hrefers⟩ | ⟨s, hs, m, hm, hrefers⟩)
    · exact .part hm hrefers
    · exact .member hs hm hrefers

/-- What refers to a name behind a replacement is found part by part. -/
theorem refers_replace_iff (hn : n.reference? = none) :
    (n.replace σ).Refers name ↔ (∃ m ∈ n.parts, (m.replace σ).Refers name) ∨
      ∃ s, n.structure? = some s ∧ ∃ m ∈ s.types, (m.replace σ).Refers name := by
  rw [refers_iff (reference?_replace hn), parts_replace hn, structure?_replace hn]
  simp [Structure.types_replace]

/-- Where no reference is replaced the type stays. -/
theorem replace_eq_self (h : ∀ name, n.Refers name → σ name = none) : n.replace σ = n := by
  induction n using Node.induction with
  | h n ihparts ihmembers =>
    cases hn : n.reference? with
    | some name => exact replace_of_none hn (h name (.self hn))
    | none =>
      rw [replace_eq hn]
      -- What the parts refer to, the type refers to.
      have hkind : n.kind.mapTypes (replace σ) = n.kind.mapTypes id := by
        refine mapTypes_kind_congr (fun m hm => ?_) fun s hs m hm => ?_
        · exact ihparts m hm fun name hname => h name (.part hm hname)
        · exact ihmembers s hs m hm fun name hname => h name (.member hs hm hname)
      rw [hkind, Kind.mapTypes_id]
      cases n
      rfl

/-- Two replacements in one: the second goes also into what the first has put in. -/
def andThen (σ τ : String → Option Node) (name : String) : Option Node :=
  ((σ name).map (replace τ)).orElse fun _ => τ name

/-- **Two rounds are one.** The second round also replaces in what the first has put in, which is
what `andThen` says. By induction on types, with the references by whether the first round replaces
them. -/
theorem replace_replace (n : Node) : (n.replace σ).replace τ = n.replace (andThen σ τ) := by
  induction n using Node.induction with
  | h n ihparts ihmembers =>
    cases hn : n.reference? with
    | some name =>
      -- Only a reference that the first round leaves can be replaced by the second.
      cases hm : σ name with
      | none =>
        rw [replace_of_none hn hm]
        cases hm' : τ name with
        | none =>
          have hboth : andThen σ τ name = none := by simp [andThen, hm, hm']
          rw [replace_of_none hn hm', replace_of_none hn hboth]
        | some m =>
          have hboth : andThen σ τ name = some m := by simp [andThen, hm, hm']
          rw [replace_of_some hn hm', replace_of_some hn hboth]
      | some m =>
        have hboth : andThen σ τ name = some (m.replace τ) := by simp [andThen, hm]
        rw [replace_of_some hn hm, replace_of_some hn hboth]
    | none =>
      rw [replace_eq (reference?_replace hn), replace_eq hn, replace_eq hn, Kind.mapTypes_mapTypes]
      have hkind :
          n.kind.mapTypes (replace τ ∘ replace σ) = n.kind.mapTypes (replace (andThen σ τ)) :=
        mapTypes_kind_congr ihparts ihmembers
      rw [hkind]

end Node

theorem Structure.replace_replace {s : Structure Node} :
    (s.replace σ).replace τ = s.replace (Node.andThen σ τ) := by
  rw [replace_eq_mapTypes, replace_eq_mapTypes, replace_eq_mapTypes, mapTypes_mapTypes]
  exact mapTypes_congr fun n _ => n.replace_replace

theorem Node.record?_eq_none_of_structure? (h : n.structure? = none) : n.record? = none := by
  cases hk : n.kind <;> simp_all [structure?, record?]

theorem Node.message?_eq_none_of_structure? (h : n.structure? = none) : n.message? = none := by
  cases hk : n.kind <;> simp_all [structure?, message?]

/-! ### Tables -/

namespace Table

/-- The table with references replaced in its entries and its root. -/
def replace (σ : String → Option Node) (t : Table) : Table where
  entries := t.entries.map fun e => (e.1, e.2.replace σ)
  root := t.root.replace σ
  distinct := by
    have hnames : Keyed.names (t.entries.map fun e => (e.1, e.2.replace σ)) = t.names := by
      simp [Keyed.names, names]
    exact hnames ▸ t.distinct

/-- The type that a name stands for, if that is neither a record nor a message. -/
def aliasNode? (t : Table) (name : String) : Option Node :=
  match t.resolve name with
  | .ok (.aliased key) => t.get? key
  | _ => none

/-- The replacement puts in the place of each alias its own type, with aliases replaced in it. -/
def Unaliases (t : Table) (σ : String → Option Node) : Prop :=
  ∀ name, σ name = (t.aliasNode? name).map (Node.replace σ)

variable {t : Table} {target : Node}

theorem get?_replace (name : String) :
    (t.replace σ).get? name = (t.get? name).map (Node.replace σ) :=
  Keyed.get?_map ..

/-- A name has the type of an alias exactly when it stands for something that is no structure. -/
theorem aliasNode?_eq_some_iff :
    t.aliasNode? name = some target ↔ t.Names name target ∧ target.structure? = none := by
  unfold aliasNode?
  rcases t.resolve_cases name with ⟨e, hr, hnone⟩ | ⟨r, other, hr, htarget, hnames⟩
  · simp [hr, hnone]
  · obtain ⟨key, node, hkey, hnode, -, hcases⟩ := names_of_resolveFrom hr
    obtain rfl := Option.some.inj (htarget.symm.trans hnode)
    -- A name stands for one type at most.
    have hunique : t.Names name target ↔ other = target := by
      constructor
      · exact fun h => hnames.unique h
      · rintro rfl
        exact hnames
    rw [hunique, hr]
    rcases hcases with ⟨s, hk, rfl⟩ | ⟨s, hk, rfl⟩ | ⟨hk, rfl⟩
    · simp only [reduceCtorEq, false_iff, not_and]
      rintro rfl
      simp [Node.structure?, hk]
    · simp only [reduceCtorEq, false_iff, not_and]
      rintro rfl
      simp [Node.structure?, hk]
    · simp only [hkey, Option.some.injEq]
      refine ⟨fun h => ⟨h, h ▸ hk⟩, fun h => h.1⟩

namespace Unaliases

/-- What is put in the place of a reference is the type that its name stands for. -/
theorem exists_alias (hσ : t.Unaliases σ) {m : Node} (hm : σ name = some m) :
    ∃ target, t.Names name target ∧ target.structure? = none ∧ m = target.replace σ := by
  rw [hσ name, Option.map_eq_some_iff] at hm
  obtain ⟨target, htarget, rfl⟩ := hm
  obtain ⟨hnames, hs⟩ := aliasNode?_eq_some_iff.1 htarget
  exact ⟨target, hnames, hs, rfl⟩

theorem replace_ref (hσ : t.Unaliases σ) (hn : n.reference? = some name)
    (hnames : t.Names name target) (hs : target.structure? = none) :
    n.replace σ = target.replace σ := by
  refine Node.replace_of_some hn ?_
  rw [hσ name, aliasNode?_eq_some_iff.2 ⟨hnames, hs⟩, Option.map_some]

/-- A reference to a structure stays. -/
theorem replace_ref_of_structure? (hσ : t.Unaliases σ) (hn : n.reference? = some name)
    (hnames : t.Names name target) {s : Structure Node} (hs : target.structure? = some s) :
    n.replace σ = n := by
  refine Node.replace_of_none hn ?_
  rw [hσ name, Option.map_eq_none_iff, Option.eq_none_iff_forall_ne_some]
  intro other hother
  obtain ⟨hnames', hs'⟩ := aliasNode?_eq_some_iff.1 hother
  rw [hnames.unique hnames', hs'] at hs
  simp at hs

/-- A type keeps its kind, or it was no structure and is none. -/
theorem replace_cases (hσ : t.Unaliases σ) (n : Node) :
    (n.replace σ).kind = n.kind.mapTypes (Node.replace σ) ∨
      n.structure? = none ∧ (n.replace σ).structure? = none := by
  cases hn : n.reference? with
  | none => exact Or.inl (Node.kind_replace hn)
  | some name =>
    have hk := Node.reference?_eq_some_iff.1 hn
    cases hm : σ name with
    | none =>
      -- A reference that stays has no types in it to change.
      left
      rw [Node.replace_of_none hn hm, hk, Kind.mapTypes]
    | some m =>
      -- What it is replaced by is an alias, so neither side is a structure.
      right
      obtain ⟨target, hnames, hs, rfl⟩ := hσ.exists_alias hm
      refine ⟨by simp [Node.structure?, hk], ?_⟩
      rw [Node.replace_of_some hn hm, Node.structure?_replace hnames.reference?_eq_none, hs,
        Option.map_none]

/-- A type is a structure exactly when it was one: an alias, which is what a reference is replaced
by, is none. -/
theorem structure?_replace (hσ : t.Unaliases σ) :
    (n.replace σ).structure? = n.structure?.map (Structure.replace σ) := by
  rcases hσ.replace_cases n with hk | ⟨hn, hn'⟩
  · unfold Node.structure?
    rw [hk]
    cases n.kind <;> simp [Kind.mapTypes, Structure.replace_eq_mapTypes]
  · rw [hn, hn', Option.map_none]

theorem record?_replace (hσ : t.Unaliases σ) :
    (n.replace σ).record? = n.record?.map (Structure.replace σ) := by
  rcases hσ.replace_cases n with hk | ⟨hn, hn'⟩
  · unfold Node.record?
    rw [hk]
    cases n.kind <;> simp [Kind.mapTypes, Structure.replace_eq_mapTypes]
  · rw [Node.record?_eq_none_of_structure? hn, Node.record?_eq_none_of_structure? hn',
      Option.map_none]

theorem message?_replace (hσ : t.Unaliases σ) :
    (n.replace σ).message? = n.message?.map (Structure.replace σ) := by
  rcases hσ.replace_cases n with hk | ⟨hn, hn'⟩
  · unfold Node.message?
    rw [hk]
    cases n.kind <;> simp [Kind.mapTypes, Structure.replace_eq_mapTypes]
  · rw [Node.message?_eq_none_of_structure? hn, Node.message?_eq_none_of_structure? hn',
      Option.map_none]

end Unaliases

/-- No message comes or goes, since aliases are none. -/
theorem messages_replace (hσ : t.Unaliases σ) :
    (t.replace σ).messages = t.messages.map (Structure.replace σ) := by
  unfold messages replace
  rw [List.filterMap_map, List.map_filterMap]
  exact List.filterMap_congr fun e _ => hσ.message?_replace

theorem records_replace (hσ : t.Unaliases σ) :
    (t.replace σ).records = t.records.map (Structure.replace σ) := by
  unfold records replace
  rw [List.filterMap_map, List.map_filterMap]
  exact List.filterMap_congr fun e _ => hσ.record?_replace

/-- The structure of a name is replaced with the table. -/
theorem structure?_replace (hσ : t.Unaliases σ) (name : String) :
    (t.replace σ).structure? name = (t.structure? name).map (Structure.replace σ) := by
  unfold structure?
  rw [get?_replace]
  cases t.get? name with
  | none => rfl
  | some n => exact hσ.structure?_replace

theorem replace_replace : (t.replace σ).replace τ = t.replace (Node.andThen σ τ) := by
  refine eq_of_entries_of_root ?_ Structure.replace_replace
  simp only [replace, List.map_map, Function.comp_def, Node.replace_replace]

/-! ### What types come down to -/

/-- Types come down to what they came down to, with references replaced in it. -/
theorem ComesTo.replace (hσ : t.Unaliases σ) (h : t.ComesTo n target) :
    (t.replace σ).ComesTo (n.replace σ) (target.replace σ) := by
  induction h with
  | self hn => exact .self (Node.reference?_replace hn)
  | @step n next target name hn hget hnext ih =>
    have hnames : t.Names name target := ⟨next, hget, hnext⟩
    cases hs : target.structure? with
    | none =>
      -- The alias itself now stands where the reference to it was.
      rw [hσ.replace_ref hn hnames hs]
      exact .self (Node.reference?_replace hnames.reference?_eq_none)
    | some s =>
      rw [hσ.replace_ref_of_structure? hn hnames hs]
      refine .step hn ?_ ih
      rw [get?_replace, hget, Option.map_some]

/-- A name stands for what it stood for, with references replaced in it. -/
theorem Names.replace (hσ : t.Unaliases σ) (h : t.Names name target) :
    (t.replace σ).Names name (target.replace σ) := by
  obtain ⟨node, hget, hcomes⟩ := h
  refine ⟨node.replace σ, ?_, hcomes.replace hσ⟩
  rw [get?_replace, hget, Option.map_some]

/-- A type comes down to the same kind, with references replaced in it. -/
theorem HasKind.replace (hσ : t.Unaliases σ) {kind : Kind Node} (h : t.HasKind n kind) :
    (t.replace σ).HasKind (n.replace σ) (kind.mapTypes (Node.replace σ)) := by
  obtain ⟨target, hcomes, rfl⟩ := h
  exact ⟨target.replace σ, hcomes.replace hσ, Node.kind_replace hcomes.reference?_eq_none⟩

/-- A name stands for the same kind, with references replaced in it. -/
theorem NamesKind.replace (hσ : t.Unaliases σ) {kind : Kind Node} (h : t.NamesKind name kind) :
    (t.replace σ).NamesKind name (kind.mapTypes (Node.replace σ)) := by
  obtain ⟨target, hnames, rfl⟩ := h
  exact ⟨target.replace σ, hnames.replace hσ, Node.kind_replace hnames.reference?_eq_none⟩

/-- A domain is a scalar, in which nothing is replaced. -/
theorem domainOf?_replace (hσ : t.Unaliases σ) {k : Scalar} (h : t.domainOf? n = some k) :
    (t.replace σ).domainOf? (n.replace σ) = some k := by
  unfold domainOf? at h ⊢
  rw [Option.filter_eq_some_iff, scalarOf?_eq_some_iff] at h ⊢
  exact ⟨h.1.replace hσ, h.2⟩

/-! ### What projections resolve to -/

/-- A projection resolves to what it resolved to, seen from the structure that it stands in with the
references of that structure replaced as well. -/
theorem resolveProjection_replace (hσ : t.Unaliases σ) {scope : Option (Structure Node)}
    {table field : String} {r : Resolution} (h : t.resolveProjection scope table field = .ok r) :
    (t.replace σ).resolveProjection (scope.map (Structure.replace σ)) table field = .ok r := by
  obtain ⟨owner, v, record, s, p, k, rfl, hv, hrows, hs, hp, hk, rfl⟩ :=
    resolveProjection_eq_ok_iff.1 h
  refine resolveProjection_eq_ok_iff.2 ⟨owner.replace σ, v.mapType (Node.replace σ), record,
    s.mapTypes (Node.replace σ), p.mapType (Node.replace σ), k, rfl, ?_, hrows.replace hσ,
    hs.replace hσ, ?_, domainOf?_replace hσ hk, rfl⟩
  · rw [Structure.field?_replace, hv, Option.map_some]
  · rw [← Structure.replace_eq_mapTypes, Structure.field?_replace, hp, Option.map_some]

end Table

end ReactiveSpace
