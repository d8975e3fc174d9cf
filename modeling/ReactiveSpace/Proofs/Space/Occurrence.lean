import ReactiveSpace.Proofs.Keyed
import ReactiveSpace.Proofs.Space.Reference

/-!
# What there is in a table

A table has its entries and its root, and whatever these are made of. `Table.Occurs` is all of it,
at any depth: types, each with the structure around it, and structures. What something is made of is
smaller than it, so what holds of a whole whenever it holds of its parts holds of every type
(`Node.induction`) and of all that occurs (`Table.Occurs.inside_out`).
-/

namespace ReactiveSpace

/-- The types that a type is made of. -/
def Node.parts (n : Node) : List Node :=
  match n.kind with
  | .list element => [element]
  | .map domain range => [domain, range]
  | .maybe inner => [inner]
  | .lazy computed _ _ => [computed]
  | _ => []

/-- The types that the fields, parameters and results of a structure have. -/
def Structure.types (s : Structure Node) : List Node :=
  s.fields.map Field.type ++
    s.methods.flatMap fun m => m.parameters.map Parameter.type ++ m.returns.toList

theorem Structure.type_mem_types {s : Structure Node} {f : Field Node} (h : f ∈ s.fields) :
    f.type ∈ s.types :=
  List.mem_append_left _ (List.mem_map_of_mem h)

/-- Something that occurs in declarations. -/
inductive Part where
  /-- A type inside the structure `scope`, or directly in the table. -/
  | type (scope : Option (Structure Node)) (n : Node)
  /-- A structure, wherever it stands. -/
  | body (s : Structure Node)

namespace Table

/-- The types and structures of a table, at any depth. -/
inductive Occurs (t : Table) : Part → Prop
  | entry {name : String} {n : Node} : (name, n) ∈ t.entries → Occurs t (.type none n)
  | root : Occurs t (.body t.root)
  | part {scope : Option (Structure Node)} {n m : Node} :
    Occurs t (.type scope n) → m ∈ n.parts → Occurs t (.type scope m)
  | body {scope : Option (Structure Node)} {n : Node} {s : Structure Node} :
    Occurs t (.type scope n) → n.structure? = some s → Occurs t (.body s)
  | member {s : Structure Node} {n : Node} :
    Occurs t (.body s) → n ∈ s.types → Occurs t (.type (some s) n)

variable {t : Table}

/-- A structure around something that occurs occurs itself. -/
theorem Occurs.scope {s : Structure Node} {n : Node} (h : t.Occurs (.type (some s) n)) :
    t.Occurs (.body s) := by
  -- Going into parts keeps the scope, and only a member brings a structure into it.
  generalize hp : Part.type (some s) n = p at h
  induction h generalizing n with
  | entry => simp at hp
  | root => simp at hp
  | part _ _ ih =>
    obtain ⟨rfl, rfl⟩ := Part.type.inj hp
    exact ih rfl
  | body => simp at hp
  | member hs _ =>
    obtain ⟨hscope, rfl⟩ := Part.type.inj hp
    rw [Option.some.inj hscope]
    exact hs

theorem Occurs.of_get? {name : String} {n : Node} (h : t.get? name = some n) :
    t.Occurs (.type none n) :=
  .entry (Keyed.mem_of_get? h)

/-- A type that another comes to is that type or an entry. -/
theorem ComesTo.eq_or_occurs {n target : Node} (h : t.ComesTo n target) :
    target = n ∨ t.Occurs (.type none target) := by
  cases hn : n.reference? with
  | none => exact Or.inl ((comesTo_iff_eq hn).1 h)
  | some name =>
    obtain ⟨key, hkey⟩ := ((comesTo_iff_names hn).1 h).exists_entry
    exact Or.inr (.of_get? hkey)

end Table

/-! ### Sizes -/

/-- A part is smaller than the type. -/
theorem Node.sizeOf_lt_of_mem_parts {n m : Node} (h : m ∈ n.parts) : sizeOf m < sizeOf n := by
  obtain ⟨position, notes, kind⟩ := n
  cases kind <;> simp [parts] at h
  all_goals
    rcases h with rfl | rfl
    all_goals simp; omega

/-- A structure is smaller than the type that is written as it. -/
theorem Node.sizeOf_lt_of_structure? {n : Node} {s : Structure Node} (h : n.structure? = some s) :
    sizeOf s < sizeOf n := by
  obtain ⟨position, notes, kind⟩ := n
  cases kind <;> simp [structure?] at h
  all_goals
    subst h
    simp
    omega

/-- The types of a method are smaller than the method. -/
theorem Method.sizeOf_lt_of_mem_types {m : Method Node} {n : Node}
    (h : n ∈ m.parameters.map Parameter.type ++ m.returns.toList) : sizeOf n < sizeOf m := by
  obtain ⟨name, parameters, returns, readonly, body, position⟩ := m
  simp only [List.mem_append, List.mem_map, Option.mem_toList] at h
  rw [mk.sizeOf_spec]
  rcases h with ⟨⟨name', type⟩, hq, rfl⟩ | rfl
  · have hmem := List.sizeOf_lt_of_mem hq
    simp only [Parameter.mk.sizeOf_spec] at hmem ⊢
    omega
  · rw [Option.some.sizeOf_spec]
    omega

/-- The types of a structure are smaller than the structure. -/
theorem Structure.sizeOf_lt_of_mem_types {s : Structure Node} {n : Node} (h : n ∈ s.types) :
    sizeOf n < sizeOf s := by
  obtain ⟨name, role, fields, indices, methods, rules, position⟩ := s
  rw [types, List.mem_append, List.mem_map, List.mem_flatMap] at h
  dsimp only at h
  rw [mk.sizeOf_spec]
  rcases h with ⟨⟨name', type, privacy, readonly, initial, position'⟩, hf, rfl⟩ | ⟨m, hm, hn⟩
  · have hmem := List.sizeOf_lt_of_mem hf
    simp only [Field.mk.sizeOf_spec] at hmem ⊢
    omega
  · have hmem := List.sizeOf_lt_of_mem hm
    have htype := Method.sizeOf_lt_of_mem_types hn
    omega

/-- What a type has from the types in it holds of every type. -/
theorem Node.induction {P : Node → Prop}
    (h : ∀ n, (∀ m ∈ n.parts, P m) → (∀ s, n.structure? = some s → ∀ m ∈ s.types, P m) → P n)
    (n : Node) : P n := by
  induction hsize : sizeOf n using Nat.strongRecOn generalizing n with
  | ind size ih =>
    subst hsize
    refine h n (fun m hm => ih _ (sizeOf_lt_of_mem_parts hm) m rfl) fun s hs m hm => ?_
    have hlt : sizeOf m < sizeOf n :=
      Nat.lt_trans (Structure.sizeOf_lt_of_mem_types hm) (sizeOf_lt_of_structure? hs)
    exact ih _ hlt m rfl

/-- The size of a type or structure, its scope aside. -/
noncomputable def Part.size : Part → Nat
  | .type _ n => sizeOf n
  | .body s => sizeOf s

/-- What holds of a whole whenever it holds of its parts holds of all that occurs. -/
theorem Table.Occurs.inside_out {t : Table} {P : Part → Prop}
    (type : ∀ scope n, t.Occurs (.type scope n) → (∀ m ∈ n.parts, P (.type scope m)) →
      (∀ s, n.structure? = some s → P (.body s)) → P (.type scope n))
    (body : ∀ s, t.Occurs (.body s) → (∀ n ∈ s.types, P (.type (some s) n)) → P (.body s))
    {p : Part} (h : t.Occurs p) : P p := by
  induction hsize : p.size using Nat.strongRecOn generalizing p with
  | ind size ih =>
    subst hsize
    cases p with
    | type scope n =>
      refine type scope n h (fun m hm => ?_) fun s hs => ?_
      · exact ih _ (Node.sizeOf_lt_of_mem_parts hm) (.part h hm) rfl
      · exact ih _ (Node.sizeOf_lt_of_structure? hs) (.body h hs) rfl
    | body s =>
      exact body s h fun n hn => ih _ (Structure.sizeOf_lt_of_mem_types hn) (.member h hn) rfl

end ReactiveSpace
