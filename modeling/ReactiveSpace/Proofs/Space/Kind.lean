import ReactiveSpace.Proofs.Space.Reference

/-!
# The kinds that types and names come down to

`Table.HasKind` and `Table.NamesKind` say what kind of type a type or a name stands for in the end.
What a table, a holder or a projection resolves to is told by the kind of what it names
(`resolveTable_eq_ok_iff`, `resolveHolder_eq_ok_iff`, `resolveProjection_eq_ok_iff`).
-/

namespace ReactiveSpace

/-- A node is a record if it is written as one. -/
theorem Node.record?_eq_some_iff {n : Node} {s : Structure Node} :
    n.record? = some s ↔ n.kind = .record s := by
  unfold record?
  split
  · simp_all
  · rename_i h
    exact iff_of_false (by simp) (h s)

namespace Table

/-- A type comes down to the given kind. -/
def HasKind (t : Table) (n : Node) (kind : Kind Node) : Prop :=
  ∃ target, t.ComesTo n target ∧ target.kind = kind

/-- A name stands for the given kind. -/
def NamesKind (t : Table) (name : String) (kind : Kind Node) : Prop :=
  ∃ target, t.Names name target ∧ target.kind = kind

/-- A type comes down to a table. -/
def IsRows (t : Table) (n : Node) : Prop :=
  ∃ record, t.HasKind n (.table record)

/-- A type comes down to a scalar that can be the key of a map. -/
def IsKey (t : Table) (n : Node) : Prop :=
  ∃ k, t.HasKind n (.scalar k) ∧ k.isMapDomain = true

variable {t : Table} {n : Node} {name : String} {kind : Kind Node}

theorem HasKind.unique {other : Kind Node} (h : t.HasKind n kind) (h' : t.HasKind n other) :
    kind = other := by
  obtain ⟨target, hcomes, rfl⟩ := h
  obtain ⟨target', hcomes', rfl⟩ := h'
  rw [hcomes.unique hcomes']

theorem NamesKind.unique {other : Kind Node} (h : t.NamesKind name kind)
    (h' : t.NamesKind name other) : kind = other := by
  obtain ⟨target, hnames, rfl⟩ := h
  obtain ⟨target', hnames', rfl⟩ := h'
  rw [hnames.unique hnames']

/-- The scalar of a type is the one that it comes down to. -/
theorem scalarOf?_eq_some_iff {k : Scalar} : t.scalarOf? n = some k ↔ t.HasKind n (.scalar k) := by
  have hscalar : ∀ target : Node, target.scalar? = some k ↔ target.kind = .scalar k := by
    intro target
    unfold Node.scalar?
    split
    · simp_all
    · rename_i h
      exact iff_of_false (by simp) (h k)
  unfold scalarOf? HasKind
  rw [Option.bind_eq_some_iff]
  simp only [follow?_eq_some_iff, hscalar]

/-- The rows of a type are those of the table that it comes down to. -/
theorem tableRecord?_eq_some_iff {record : String} :
    t.tableRecord? n = some record ↔ t.HasKind n (.table record) := by
  have hmap : t.HasKind n (.table record) ↔ (t.follow? n).map Node.kind = some (.table record) := by
    unfold HasKind
    rw [Option.map_eq_some_iff]
    simp only [follow?_eq_some_iff]
  rw [hmap]
  unfold tableRecord?
  split
  · rename_i record' h
    simp [h]
  · rename_i h
    exact iff_of_false (by simp) (h record)

/-- A type is taken for a table unless it does not come down to rows. -/
theorem isTable_eq_false_iff : t.isTable n = false ↔ ¬ t.IsRows n := by
  have htable : ∀ target : Node, target.isTable = true ↔ ∃ record, target.kind = .table record := by
    intro target
    unfold Node.isTable
    split <;> simp_all
  have hrows : t.isTable n = true ↔ t.IsRows n := by
    unfold isTable IsRows HasKind
    split
    · rename_i target h
      rw [htable]
      constructor
      · rintro ⟨record, hk⟩
        exact ⟨record, target, follow?_eq_some_iff.1 h, hk⟩
      · rintro ⟨record, target', hcomes, hk⟩
        exact ⟨record, (follow?_eq_some_iff.1 h).unique hcomes ▸ hk⟩
    · -- A type that comes down to nothing has no rows.
      rename_i h
      refine iff_of_false (by simp) ?_
      rintro ⟨record, target, hcomes, -⟩
      rw [← follow?_eq_some_iff, h] at hcomes
      exact absurd hcomes (by simp)
  rw [← hrows, Bool.not_eq_true]

theorem domainOf?_isSome_iff : (∃ k, t.domainOf? n = some k) ↔ t.IsKey n := by
  unfold domainOf? IsKey
  simp only [Option.filter_eq_some_iff, scalarOf?_eq_some_iff]

/-- A name is followed to the record that it comes down to. -/
theorem followRecord?_eq_some_iff {s : Structure Node} :
    t.followRecord? name = some s ↔ t.NamesKind name (.record s) := by
  unfold followRecord? NamesKind
  rw [Option.bind_eq_some_iff]
  simp only [followName?_eq_some_iff, Node.record?_eq_some_iff]

/-- Where a name is known to lead, it has the kind that is written there. -/
theorem namesKind_iff {target : Node} (h : t.Names name target) :
    t.NamesKind name kind ↔ target.kind = kind := by
  constructor
  · rintro ⟨other, hother, hk⟩
    rw [h.unique hother, hk]
  · intro hk
    exact ⟨target, h, hk⟩

theorem not_namesKind (h : ∀ target, ¬ t.Names name target) : ¬ t.NamesKind name kind := by
  rintro ⟨target, hnames, -⟩
  exact h target hnames

/-! ### Tables, holders and projections -/

/-- A table resolves to the record that its name stands for. -/
theorem resolveTable_eq_ok_iff {r : Resolution} :
    t.resolveTable name = .ok r ↔ ∃ s, t.NamesKind name (.record s) ∧ r = .record s.name := by
  unfold resolveTable
  rcases t.resolve_cases name with ⟨e, hr, hnone⟩ | ⟨r', target, hr, htarget, hnames⟩
  · simp [hr, not_namesKind hnone]
  · simp only [hr, htarget, namesKind_iff hnames]
    cases target.kind <;> simp [eq_comm]

/-- A holder resolves to the message that its name stands for. -/
theorem resolveHolder_eq_ok_iff {r : Resolution} :
    t.resolveHolder name = .ok r ↔ ∃ s, t.NamesKind name (.message s) ∧ r = .message s.name := by
  unfold resolveHolder
  rcases t.resolve_cases name with ⟨e, hr, hnone⟩ | ⟨r', target, hr, htarget, hnames⟩
  · simp [hr, not_namesKind hnone]
  · simp only [hr, htarget, namesKind_iff hnames]
    cases target.kind <;> simp [eq_comm]

/-- A table resolves to the record that its name stands for. -/
theorem resolution?_of_table {scope : Option (Structure Node)} {s : Structure Node}
    (hn : n.kind = .table name) (hs : t.NamesKind name (.record s)) :
    n.resolution? t (.declared scope) = some (.record s.name) := by
  have hresolve : t.resolveTable name = .ok (.record s.name) :=
    resolveTable_eq_ok_iff.2 ⟨s, hs, rfl⟩
  simp [Node.resolution?, hn, hresolve, Outcome.resolution?]

/-- A holder resolves to the message that its name stands for. -/
theorem resolution?_of_holder {scope : Option (Structure Node)} {s : Structure Node}
    (hn : n.kind = .holder name) (hs : t.NamesKind name (.message s)) :
    n.resolution? t (.declared scope) = some (.message s.name) := by
  have hresolve : t.resolveHolder name = .ok (.message s.name) :=
    resolveHolder_eq_ok_iff.2 ⟨s, hs, rfl⟩
  simp [Node.resolution?, hn, hresolve, Outcome.resolution?]

/-- A projection resolves to the record of its table and to the type of its keys. -/
theorem resolveProjection_eq_ok_iff {scope : Option (Structure Node)} {table field : String}
    {r : Resolution} :
    t.resolveProjection scope table field = .ok r ↔
      ∃ owner v record s p k, scope = some owner ∧ owner.field? table = some v ∧
        t.HasKind v.type (.table record) ∧ t.NamesKind record (.record s) ∧
        s.field? field = some p ∧ t.domainOf? p.type = some k ∧
        r = .projection table s.name k := by
  simp only [← tableRecord?_eq_some_iff, ← followRecord?_eq_some_iff]
  constructor
  · intro h
    unfold resolveProjection at h
    -- Only the last of the look-ups that may fail gives a resolution.
    repeat' split at h
    all_goals try contradiction
    rename_i _ owner _ v hv _ record hrecord _ s hs _ p hp _ k hk
    exact ⟨owner, v, record, s, p, k, rfl, hv, hrecord, hs, hp, hk, (Except.ok.inj h).symm⟩
  · rintro ⟨owner, v, record, s, p, k, rfl, hv, hrecord, hs, hp, hk, rfl⟩
    unfold resolveProjection
    simp only [hv, hrecord, hs, hp, hk]

end Table

end ReactiveSpace
