import ReactiveSpace.Proofs.Space.Checking
import ReactiveSpace.Proofs.Target.Mentions

/-!
# The structures behind a type

`Table.Uses` is the relation between a type and the structures that it consists of, through
containers, references, tables, holders and projections. Expanding a type goes the same ways, and
in a well-formed table it finds structures that the type uses (`uses_of_mem_typeNames`). It finds
all of them as long as no alias on the way leads back into itself (`mem_typeNames_of_uses`). That a
type does not go on without end is `Table.Ends`; otherwise its shape has a name that leads to no
type (`ends_of_complete`, `complete_of_ends`). `typeNames_shape_iff` puts these together.
-/

namespace ReactiveSpace

open Relation

/-- The name of the generated type of a structure. -/
def Kind.typeName? : Kind Node → Option TypeName
  | .record s => some (.record s.name)
  | .message s => some (.message s.name)
  | _ => none

namespace Table

/-- A structure, given by the kind of its node, is among those that a type consists of. -/
inductive Uses (t : Table) : Option (Structure Node) → Node → Kind Node → Prop
  | self {scope : Option (Structure Node)} {n : Node} {s : Structure Node} :
    n.structure? = some s → Uses t scope n n.kind
  | table {scope : Option (Structure Node)} {n : Node} {name : String} {s : Structure Node} :
    n.kind = .table name → t.NamesKind name (.record s) → Uses t scope n (.record s)
  | holder {scope : Option (Structure Node)} {n : Node} {name : String} {s : Structure Node} :
    n.kind = .holder name → t.NamesKind name (.message s) → Uses t scope n (.message s)
  | projection {owner s : Structure Node} {n : Node} {v : Field Node} {table field name : String} :
    n.kind = .projection table field → v ∈ owner.fields → v.name = table →
      t.HasKind v.type (.table name) → t.NamesKind name (.record s) →
      Uses t (some owner) n (.record s)
  | part {scope : Option (Structure Node)} {n m : Node} {kind : Kind Node} :
    m ∈ n.parts → Uses t scope m kind → Uses t scope n kind
  | ref {scope : Option (Structure Node)} {n target : Node} {name : String} {kind : Kind Node} :
    n.reference? = some name → t.Names name target → Uses t none target kind → Uses t scope n kind

/-- Spelling the type `n` takes spelling the type `m`. -/
def Opens (t : Table) (n m : Node) : Prop :=
  m ∈ n.parts ∨ ∃ name, n.reference? = some name ∧ t.Names name m

/-- Spelling a type comes to an end. -/
def Ends (t : Table) : Node → Prop :=
  Acc fun m n => t.Opens n m

variable {t : Table} {scope : Option (Structure Node)} {n m : Node} {opened : List String}

/-- A type that ends does not open into itself. -/
theorem Ends.not_transGen (h : t.Ends n) : ¬ TransGen t.Opens n n :=
  not_transGen_of_acc h

theorem ends_of_structure? {s : Structure Node} (h : n.structure? = some s) : t.Ends n := by
  obtain ⟨position, notes, kind⟩ := n
  refine Acc.intro _ fun m hm => ?_
  cases kind <;> simp_all [Node.structure?, Opens, Node.parts, Node.reference?]

/-! ### Expanding one type -/

/-- The structures of a container are those of its parts. -/
theorem typeNames_expand_of_parts (site : Site) (h : n.parts ≠ []) :
    (Shape.expand t opened site n).typeNames =
      n.parts.flatMap fun m => (Shape.expand t opened site m).typeNames := by
  obtain ⟨position, notes, kind⟩ := n
  cases kind <;> simp [Node.parts] at h
  all_goals
    rw [Shape.expand]
    simp [Node.parts, Shape.typeNames, Shape.nativePieces, Piece.types, Piece.types_append]

/-- A reference to an alias is expanded like the type of the alias, unless the alias is open. -/
theorem expand_aliased (site : Site) {target : Node} {name key : String}
    (hn : n.reference? = some name) (hr : t.resolve name = .ok (.aliased key))
    (hkey : t.get? key = some target) :
    Shape.expand t opened site n =
      if key ∈ opened then .unresolved name
      else Shape.expand t (key :: opened) (.declared none) target := by
  obtain ⟨position, notes, kind⟩ := n
  obtain rfl : kind = .ref name := Node.reference?_eq_some_iff.1 hn
  rw [Shape.expand, hr]
  dsimp only
  split
  · rename_i target' hget
    obtain rfl := Option.some.inj (hkey.symm.trans hget)
    split <;> simp_all
  · rename_i hnone
    simp [hkey] at hnone

/-- A reference is expanded like the type it stands for, unless that is an alias and open already.
The alias is the same whatever is open. -/
theorem exists_expand_ref {target : Node} {name : String} (hn : n.reference? = some name)
    (hnames : t.Names name target) :
    (∃ s, target.structure? = some s ∧ ∀ opened,
        Shape.expand t opened (.declared scope) n = Shape.expand t opened (.declared none) target) ∨
      target.structure? = none ∧ ∃ key, t.get? key = some target ∧ ∀ opened,
        Shape.expand t opened (.declared scope) n =
          if key ∈ opened then .unresolved name
          else Shape.expand t (key :: opened) (.declared none) target := by
  obtain ⟨position, notes, kind⟩ := n
  obtain rfl : kind = .ref name := Node.reference?_eq_some_iff.1 hn
  obtain ⟨r, hr, htarget⟩ := resolve_eq_ok_iff_names.2 hnames
  obtain ⟨key, target', hkey, -, hnames', hcases⟩ := names_of_resolveFrom hr
  obtain rfl := hnames.unique hnames'
  -- A structure is spelled by its own name, and an alias by what it stands for.
  rcases hcases with ⟨s, hk, rfl⟩ | ⟨s, hk, rfl⟩ | ⟨hk, rfl⟩
  · obtain ⟨position', notes', kind'⟩ := target
    obtain rfl := hk
    refine Or.inl ⟨s, rfl, fun opened => ?_⟩
    rw [Shape.expand, Shape.expand]
    simp [hr, hkey, Node.record?]
  · obtain ⟨position', notes', kind'⟩ := target
    obtain rfl := hk
    refine Or.inl ⟨s, rfl, fun opened => ?_⟩
    rw [Shape.expand, Shape.expand]
    simp [hr, hkey, Node.message?]
  · exact Or.inr ⟨hk, key, hkey, fun opened => expand_aliased _ rfl hr hkey⟩

/-- A reference is expanded to the structure it stands for, or through the alias it leads to unless
that is open. -/
theorem expand_ref (opened : List String) {target : Node} {name : String}
    (hn : n.reference? = some name) (hnames : t.Names name target) :
    (∃ s, target.structure? = some s ∧
        Shape.expand t opened (.declared scope) n = Shape.expand t opened (.declared none) target) ∨
      target.structure? = none ∧ ∃ key, t.get? key = some target ∧
        Shape.expand t opened (.declared scope) n =
          if key ∈ opened then .unresolved name
          else Shape.expand t (key :: opened) (.declared none) target := by
  rcases exists_expand_ref hn hnames with ⟨s, hs, heq⟩ | ⟨hs, key, hkey, heq⟩
  · exact .inl ⟨s, hs, heq opened⟩
  · exact .inr ⟨hs, key, hkey, heq opened⟩

/-- A table is expanded to its rows by their own name. -/
theorem expand_table {name : String} {s : Structure Node} (hn : n.kind = .table name)
    (hs : t.NamesKind name (.record s)) :
    Shape.expand t opened (.declared scope) n = .table s.name := by
  obtain ⟨position, notes, kind⟩ := n
  obtain rfl : kind = .table name := hn
  rw [Shape.expand, resolution?_of_table rfl hs]

/-- A holder is expanded to its message by its own name. -/
theorem expand_holder {name : String} {s : Structure Node} (hn : n.kind = .holder name)
    (hs : t.NamesKind name (.message s)) :
    Shape.expand t opened (.declared scope) n = .holder s.name := by
  obtain ⟨position, notes, kind⟩ := n
  obtain rfl : kind = .holder name := hn
  rw [Shape.expand, resolution?_of_holder rfl hs]

/-- A projection is expanded to the record and key that it resolves to. -/
theorem expand_projection {table field record : String} {k : Scalar}
    (hn : n.kind = .projection table field)
    (hresolve : t.resolveProjection scope table field = .ok (.projection table record k)) :
    Shape.expand t opened (.declared scope) n = .projection field (some (record, k)) := by
  obtain ⟨position, notes, kind⟩ := n
  obtain rfl : kind = .projection table field := hn
  rw [Shape.expand]
  simp [Node.resolution?, hresolve, Outcome.resolution?]

/-- A type that comes down to a scalar is expanded to it, unless its alias is open. -/
theorem expand_of_hasKind_scalar {k : Scalar} (h : t.HasKind n (.scalar k))
    (hopened : ∀ key ∈ opened, ∀ node, t.get? key = some node → node.kind ≠ .scalar k) :
    Shape.expand t opened (.declared scope) n = .scalar k := by
  have hscalar : ∀ opened site (m : Node), m.kind = .scalar k →
      Shape.expand t opened site m = .scalar k := by
    rintro opened site ⟨position, notes, kind⟩ rfl
    rw [Shape.expand]
  obtain ⟨target, hcomes, hk⟩ := h
  cases href : n.reference? with
  | none =>
    obtain rfl := (comesTo_iff_eq href).1 hcomes
    exact hscalar _ _ _ hk
  | some name =>
    rcases expand_ref opened href ((comesTo_iff_names href).1 hcomes) with
      ⟨s, hs, -⟩ | ⟨-, key, hkey, heq⟩
    · simp [Node.structure?, hk] at hs
    · rw [heq, if_neg fun hopen => hopened key hopen target hkey hk]
      exact hscalar _ _ _ hk

/-- A structure is used by its own name. -/
theorem typeNames_expand_of_structure? {site : Site} {s : Structure Node}
    (hs : n.structure? = some s) :
    ∃ name, n.kind.typeName? = some name ∧ (Shape.expand t opened site n).typeNames = [name] := by
  obtain ⟨position, notes, kind⟩ := n
  cases kind <;> simp [Node.structure?] at hs
  all_goals
    rw [Shape.expand]
    simp [Kind.typeName?, Shape.typeNames, Shape.nativePieces, Piece.types]

/-- In a well-formed table a projection resolves to the record of its table variable. -/
theorem WellFormed.exists_projection (ht : t.WellFormed) (hn : t.Occurs (.type scope n))
    {table field : String} (hk : n.kind = .projection table field) :
    ∃ owner v name s k, scope = some owner ∧ v ∈ owner.fields ∧ v.name = table ∧
      t.HasKind v.type (.table name) ∧ t.NamesKind name (.record s) ∧
      t.resolveProjection scope table field = .ok (.projection table s.name k) := by
  have hadmissible := ht.types scope n hn
  simp only [Node.Admissible, hk] at hadmissible
  obtain ⟨owner, rfl, v, hv, hname, record, hrows, s, hs, p, hp, hfield, hkey⟩ := hadmissible
  obtain ⟨k, hdomain⟩ := domainOf?_isSome_iff.2 hkey
  refine ⟨owner, v, record, s, k, rfl, hv, hname, hrows, hs, ?_⟩
  refine resolveProjection_eq_ok_iff.2
    ⟨owner, v, record, s, p, k, rfl, ?_, hrows, hs, ?_, hdomain, rfl⟩
  · exact (Structure.field?_eq_some_iff (ht.structures _ hn.scope).fields_nodup).2 ⟨hv, hname⟩
  · exact (Structure.field?_eq_some_iff (ht.structures _ hs.occurs).fields_nodup).2 ⟨hp, hfield⟩

/-- A type that is neither a container nor a reference uses one structure at most, and that is the
one in its expansion. -/
theorem WellFormed.exists_used (ht : t.WellFormed) (hn : t.Occurs (.type scope n))
    (opened : List String) (hparts : n.parts = []) (href : n.reference? = none) :
    ∃ used : Option (Kind Node), (∀ kind, t.Uses scope n kind ↔ used = some kind) ∧
      (Shape.expand t opened (.declared scope) n).typeNames =
        (used.bind Kind.typeName?).toList := by
  cases hk : n.kind with
  | scalar | text | replication =>
    refine ⟨none, fun kind => ⟨fun h => ?_, by simp⟩, ?_⟩
    · cases h <;> simp_all [Node.structure?]
    · obtain ⟨position, notes, kind⟩ := n
      obtain rfl := hk
      rw [Shape.expand]
      rfl
  | list | map | maybe | lazy => simp [Node.parts, hk] at hparts
  -- A reference was excluded: it is opened, not used.
  | ref name => simp [Node.reference?, hk] at href
  | table name =>
    obtain ⟨s, hs⟩ := ht.exists_rows hn hk
    refine ⟨some (.record s), fun kind => ⟨fun h => ?_, ?_⟩, ?_⟩
    · cases h with
      | table hk' hs' =>
        obtain rfl := Kind.table.inj (hk.symm.trans hk')
        rw [hs.unique hs']
      | _ => simp_all [Node.structure?]
    · rintro ⟨⟩
      exact .table hk hs
    · rw [expand_table hk hs]
      rfl
  | holder name =>
    obtain ⟨s, hs⟩ := ht.exists_held hn hk
    refine ⟨some (.message s), fun kind => ⟨fun h => ?_, ?_⟩, ?_⟩
    · cases h with
      | holder hk' hs' =>
        obtain rfl := Kind.holder.inj (hk.symm.trans hk')
        rw [hs.unique hs']
      | _ => simp_all [Node.structure?]
    · rintro ⟨⟩
      exact .holder hk hs
    · rw [expand_holder hk hs]
      rfl
  | projection table field =>
    obtain ⟨owner, v, name, s, k, rfl, hv, hname, hrows, hs, hresolve⟩ := ht.exists_projection hn hk
    refine ⟨some (.record s), fun kind => ⟨fun h => ?_, ?_⟩, ?_⟩
    · cases h with
      | projection hk' hv' hname' hrows' hs' =>
        -- The table variable is found by its name, and its rows by its type.
        obtain ⟨rfl, rfl⟩ := Kind.projection.inj (hk.symm.trans hk')
        have hd := (ht.structures _ hn.scope).fields_nodup
        obtain rfl := List.inj_on_of_nodup_map hd hv hv' (hname.trans hname'.symm)
        obtain rfl := Kind.table.inj (hrows.unique hrows')
        rw [hs.unique hs']
      | _ => simp_all [Node.structure?]
    · rintro ⟨⟩
      exact .projection hk hv hname hrows hs
    · rw [expand_projection hk hresolve]
      rfl
  | record s | message s =>
    have hs : n.structure? = some s := by simp [Node.structure?, hk]
    refine ⟨some n.kind, fun kind => ⟨fun h => ?_, ?_⟩, ?_⟩
    · cases h <;> simp_all
    · rintro ⟨⟩
      exact .self hs
    · obtain ⟨name, hname, heq⟩ := typeNames_expand_of_structure? hs
      rw [heq, Option.bind_some, hname]
      rfl

/-! ### Expanding all of a type -/

/-- What holds of a type whenever it holds of its parts, and of a type that it refers to and that is
not open yet, holds of all types that occur. -/
theorem Occurs.expanding {P : List String → Option (Structure Node) → Node → Prop}
    (step : ∀ opened scope n, t.Occurs (.type scope n) → (∀ m ∈ n.parts, P opened scope m) →
      (∀ key target, t.get? key = some target → key ∉ opened → P (key :: opened) none target) →
      P opened scope n)
    (hn : t.Occurs (.type scope n)) : P opened scope n := by
  -- Opening an alias leaves fewer names to open; a part is smaller, and opens nothing.
  induction hleft : (remaining t.names opened).length using Nat.strong_induction_on
    generalizing opened scope n with
  | _ left ihleft =>
    induction hsize : sizeOf n using Nat.strong_induction_on generalizing n with
    | _ size ihsize =>
      refine step opened scope n hn (fun m hm => ?_) fun key target hkey hopen => ?_
      · exact ihsize _ (hsize ▸ Node.sizeOf_lt_of_mem_parts hm) (.part hn hm) rfl
      · have hlt := length_remaining_cons_lt hopen (mem_names_of_get? hkey)
        exact ihleft _ (hleft ▸ hlt) (.of_get? hkey) rfl

theorem typeName?_ne_missing {kind : Kind Node} {name : String} :
    kind.typeName? ≠ some (.missing name) := by
  cases kind <;> simp [Kind.typeName?]

namespace WellFormed

/-- The structures in an expansion are used by the type. -/
theorem uses_of_mem_typeNames (ht : t.WellFormed) (hn : t.Occurs (.type scope n)) {name : TypeName}
    (h : name ∈ (Shape.expand t opened (.declared scope) n).typeNames) :
    (∃ kind, t.Uses scope n kind ∧ kind.typeName? = some name) ∨ ∃ x, name = .missing x := by
  revert h
  refine hn.expanding (P := fun opened scope n =>
    name ∈ (Shape.expand t opened (.declared scope) n).typeNames →
      (∃ kind, t.Uses scope n kind ∧ kind.typeName? = some name) ∨ ∃ x, name = .missing x) ?_
  intro opened scope n hn ihparts ihref h
  -- A type is a container, a reference, or spelled on its own.
  by_cases hparts : n.parts = []
  · cases href : n.reference? with
    | none =>
      obtain ⟨used, huses, heq⟩ := ht.exists_used hn opened hparts href
      rw [heq, Option.mem_toList, Option.bind_eq_some_iff] at h
      obtain ⟨kind, hused, hname⟩ := h
      exact Or.inl ⟨kind, (huses kind).2 hused, hname⟩
    | some ref =>
      obtain ⟨target, hnames⟩ := ht.exists_names hn href
      rcases expand_ref opened href hnames with ⟨s, hs, heq⟩ | ⟨-, key, hkey, heq⟩
      · obtain ⟨other, hother, hnames'⟩ := typeNames_expand_of_structure? hs
        rw [heq, hnames', List.mem_singleton] at h
        exact Or.inl ⟨target.kind, .ref href hnames (.self hs), h ▸ hother⟩
      · by_cases hopen : key ∈ opened
        · rw [heq, if_pos hopen] at h
          exact Or.inr ⟨ref, List.mem_singleton.1 h⟩
        · rw [heq, if_neg hopen] at h
          refine (ihref key target hkey hopen h).imp_left ?_
          rintro ⟨kind, huses, hkind⟩
          exact ⟨kind, .ref href hnames huses, hkind⟩
  · rw [typeNames_expand_of_parts _ hparts, List.mem_flatMap] at h
    obtain ⟨m, hm, hname⟩ := h
    refine (ihparts m hm hname).imp_left ?_
    rintro ⟨kind, huses, hkind⟩
    exact ⟨kind, .part hm huses, hkind⟩

/-- At a type without parts the use is found at once. -/
theorem mem_typeNames_of_leaf (ht : t.WellFormed) {kind : Kind Node} {name : TypeName}
    (huses : t.Uses scope n kind) (hkind : kind.typeName? = some name)
    (hn : t.Occurs (.type scope n)) (hparts : n.parts = []) (href : n.reference? = none) :
    name ∈ (Shape.expand t opened (.declared scope) n).typeNames := by
  obtain ⟨used, hused, heq⟩ := ht.exists_used hn opened hparts href
  rw [heq, (hused kind).1 huses, Option.bind_some, hkind]
  exact Option.mem_toList.2 rfl

/-- The structures that a type uses are in its expansion, if that has no name without a type. -/
theorem mem_typeNames_of_uses (ht : t.WellFormed) {kind : Kind Node} {name : TypeName}
    (huses : t.Uses scope n kind) (hkind : kind.typeName? = some name)
    (hn : t.Occurs (.type scope n))
    (hcomplete : ∀ x, .missing x ∉ (Shape.expand t opened (.declared scope) n).typeNames) :
    name ∈ (Shape.expand t opened (.declared scope) n).typeNames := by
  -- The induction is on the way from the type to the structure, with more aliases open at each.
  induction huses generalizing opened with
  | @self _ n _ hs =>
    refine ht.mem_typeNames_of_leaf (.self hs) hkind hn ?_ ?_
    · cases hk : n.kind <;> simp_all [Node.structure?, Node.parts]
    · cases hk : n.kind <;> simp_all [Node.structure?, Node.reference?]
  | table hk hs =>
    exact ht.mem_typeNames_of_leaf (.table hk hs) hkind hn (by simp [Node.parts, hk])
      (by simp [Node.reference?, hk])
  | holder hk hs =>
    exact ht.mem_typeNames_of_leaf (.holder hk hs) hkind hn (by simp [Node.parts, hk])
      (by simp [Node.reference?, hk])
  | projection hk hv hname hrows hs =>
    exact ht.mem_typeNames_of_leaf (.projection hk hv hname hrows hs) hkind hn
      (by simp [Node.parts, hk]) (by simp [Node.reference?, hk])
  | part hm _ ih =>
    have hparts := List.ne_nil_of_mem hm
    rw [typeNames_expand_of_parts _ hparts] at hcomplete ⊢
    refine List.mem_flatMap.2 ⟨_, hm, ih hkind (.part hn hm) fun x hx => ?_⟩
    exact hcomplete x (List.mem_flatMap.2 ⟨_, hm, hx⟩)
  | ref href hnames _ ih =>
    obtain ⟨key', hkey'⟩ := hnames.exists_entry
    rcases expand_ref opened href hnames with ⟨s, -, heq⟩ | ⟨-, key, hkey, heq⟩
    · rw [heq] at hcomplete ⊢
      exact ih hkind (.of_get? hkey') hcomplete
    · rw [heq] at hcomplete ⊢
      by_cases hopen : key ∈ opened
      · -- An alias that is open already would have been spelled as a missing name.
        rw [if_pos hopen] at hcomplete
        exact absurd (List.mem_singleton.2 rfl) (hcomplete _)
      · rw [if_neg hopen] at hcomplete ⊢
        exact ih hkind (.of_get? hkey) hcomplete

/-- A type ends, if its expansion has no name without a type. -/
theorem ends_of_complete (hn : t.Occurs (.type scope n))
    (hcomplete : ∀ x, .missing x ∉ (Shape.expand t opened (.declared scope) n).typeNames) :
    t.Ends n := by
  revert hcomplete
  refine hn.expanding (P := fun opened scope n =>
    (∀ x, .missing x ∉ (Shape.expand t opened (.declared scope) n).typeNames) → t.Ends n) ?_
  intro opened scope n hn ihparts ihref hcomplete
  refine Acc.intro _ fun m hm => ?_
  rcases hm with hm | ⟨name, href, hnames⟩
  · refine ihparts m hm fun x hx => hcomplete x ?_
    rw [typeNames_expand_of_parts _ (List.ne_nil_of_mem hm)]
    exact List.mem_flatMap.2 ⟨m, hm, hx⟩
  · rcases expand_ref opened href hnames with ⟨s, hs, -⟩ | ⟨-, key, hkey, heq⟩
    · exact ends_of_structure? hs
    · rw [heq] at hcomplete
      -- An alias that is open would leave a name without a type.
      by_cases hopen : key ∈ opened
      · rw [if_pos hopen] at hcomplete
        exact absurd (List.mem_singleton.2 rfl) (hcomplete name)
      · rw [if_neg hopen] at hcomplete
        exact ihref key m hkey hopen hcomplete

/-- The expansion of a type that ends has no name without a type. The aliases that are open lead to
the type, so it can not lead back to them. -/
theorem complete_of_ends (ht : t.WellFormed) (hends : t.Ends n) (hn : t.Occurs (.type scope n))
    (hopened : ∀ key ∈ opened, ∀ node, t.get? key = some node → ReflTransGen t.Opens node n)
    (x : String) : .missing x ∉ (Shape.expand t opened (.declared scope) n).typeNames := by
  induction hends generalizing scope opened with
  | intro n hacc ih =>
    intro hx
    have hnext : ∀ {m key node}, t.Opens n m → key ∈ opened → t.get? key = some node →
        ReflTransGen t.Opens node m :=
      fun hm hkey hget => (hopened _ hkey _ hget).tail hm
    by_cases hparts : n.parts = []
    · cases href : n.reference? with
      | none =>
        obtain ⟨used, -, heq⟩ := ht.exists_used hn opened hparts href
        rw [heq, Option.mem_toList, Option.bind_eq_some_iff] at hx
        obtain ⟨kind, -, hkind⟩ := hx
        exact typeName?_ne_missing hkind
      | some name =>
        obtain ⟨target, hnames⟩ := ht.exists_names hn href
        have hopens : t.Opens n target := Or.inr ⟨name, href, hnames⟩
        rcases expand_ref opened href hnames with ⟨s, hs, heq⟩ | ⟨-, key, hkey, heq⟩
        · obtain ⟨other, hother, hnames'⟩ := typeNames_expand_of_structure? hs
          rw [heq, hnames', List.mem_singleton] at hx
          exact typeName?_ne_missing (hx ▸ hother)
        · rw [heq] at hx
          by_cases hopen : key ∈ opened
          · -- The alias leads to the reference, and the reference to the alias.
            have hends : t.Ends n := Acc.intro n hacc
            exact hends.not_transGen (TransGen.head' hopens (hopened key hopen target hkey))
          · rw [if_neg hopen] at hx
            refine ih target hopens (.of_get? hkey) (fun other hother node hget => ?_) hx
            rcases List.mem_cons.1 hother with rfl | hother
            · obtain rfl := Option.some.inj (hkey.symm.trans hget)
              exact .refl
            · exact hnext hopens hother hget
    · rw [typeNames_expand_of_parts _ hparts, List.mem_flatMap] at hx
      obtain ⟨m, hm, hx⟩ := hx
      refine ih m (Or.inl hm) (.part hn hm) (fun key hkey node hget => ?_) hx
      exact hnext (Or.inl hm) hkey hget

/-- A set of names has all that the shape of a type consists of exactly when the type ends and the
set has the names of all structures that the type uses. -/
theorem typeNames_shape_iff (ht : t.WellFormed) (hn : t.Occurs (.type scope n))
    {names : TypeName → Prop} (hmissing : ∀ x, ¬ names (.missing x)) :
    (∀ name ∈ (n.shape t (.declared scope)).typeNames, names name) ↔
      t.Ends n ∧ ∀ kind name, t.Uses scope n kind → kind.typeName? = some name → names name := by
  unfold Node.shape
  constructor
  · intro h
    have hcomplete : ∀ x, .missing x ∉ (Shape.expand t [] (.declared scope) n).typeNames :=
      fun x hx => hmissing x (h _ hx)
    refine ⟨ends_of_complete hn hcomplete, fun kind name huses hkind => h _ ?_⟩
    exact ht.mem_typeNames_of_uses huses hkind hn hcomplete
  · rintro ⟨hends, huses⟩ name hname
    rcases ht.uses_of_mem_typeNames hn hname with ⟨kind, huse, hkind⟩ | ⟨x, rfl⟩
    · exact huses kind name huse hkind
    · exact absurd hname (ht.complete_of_ends hends hn (by simp) x)

end WellFormed

end Table

end ReactiveSpace
