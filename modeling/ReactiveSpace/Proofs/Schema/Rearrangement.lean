import Mathlib.Data.List.Perm.Basic
import ReactiveSpace.Proofs.Space.Occurrence

/-!
# Rearranged structures

A list is shuffled when its elements come in another order and each is replaced by a related one
(`Shuffled`). Two types are rearranged (`Node.Rearranged`) when they differ at most in the order of
the fields, indices, methods and rules of structures, at any depth. The relators `Field.Rel`,
`Method.Rel`, `Structure.Rel` and `Kind.Rel` say this for one level, given what is asked of the
types in it. Rearranging is reflexive and symmetric, and everything that a type or structure is made
of is found again, rearranged, in what it was rearranged to.
-/

namespace ReactiveSpace

/-! ### Shuffled lists -/

/-- The elements of the second list are related to those of the first, in any order. -/
inductive Shuffled {α β : Type} (R : α → β → Prop) : List α → List β → Prop
  | nil : Shuffled R [] []
  | cons {a : α} {b : β} {l : List α} {front back : List β} :
    R a b → Shuffled R l (front ++ back) → Shuffled R (a :: l) (front ++ b :: back)

/-- Related lists are related back by a relation that goes back. -/
theorem forall₂_symm {α β : Type} {R : α → β → Prop} {S : β → α → Prop} {l : List α} {l' : List β}
    (h : List.Forall₂ R l l') (hback : ∀ a ∈ l, ∀ b, R a b → S b a) : List.Forall₂ S l' l := by
  induction h with
  | nil => exact .nil
  | @cons a b l l' hab _ ih =>
    refine .cons (hback a List.mem_cons_self b hab) (ih fun x hx => ?_)
    exact hback x (List.mem_cons_of_mem _ hx)

namespace Shuffled

variable {α β γ : Type} {R : α → β → Prop} {l : List α} {l' : List β}

/-- Shuffling is relating and then permuting. -/
theorem iff_forall₂_perm : Shuffled R l l' ↔ ∃ m, List.Forall₂ R l m ∧ m.Perm l' := by
  -- One way by induction on the shuffle, the other from the permutation.
  constructor
  · intro h
    induction h with
    | nil => exact ⟨[], .nil, .refl _⟩
    | @cons a b l front back hab _ ih =>
      obtain ⟨m, hm, hperm⟩ := ih
      exact ⟨b :: m, .cons hab hm, (hperm.cons b).trans List.perm_middle.symm⟩
  · rintro ⟨m, hm, hperm⟩
    induction hm generalizing l' with
    | nil =>
      rw [List.nil_perm.1 hperm]
      exact .nil
    | @cons a b l m hab _ ih =>
      obtain ⟨front, back, rfl⟩ := List.append_of_mem (hperm.subset List.mem_cons_self)
      exact .cons hab (ih (hperm.trans List.perm_middle).cons_inv)

theorem of_forall₂ (h : List.Forall₂ R l l') : Shuffled R l l' :=
  iff_forall₂_perm.2 ⟨l', h, .refl _⟩

/-- A permutation is a shuffle, if the relation is reflexive on the list. -/
theorem of_perm {R : α → α → Prop} {l l' : List α} (hrefl : ∀ a ∈ l, R a a) (h : l.Perm l') :
    Shuffled R l l' :=
  iff_forall₂_perm.2 ⟨l, List.forall₂_same.2 hrefl, h⟩

/-- Shuffles of two pieces are a shuffle of both together. -/
theorem append {m : List α} {m' : List β} (h : Shuffled R l l') (hm : Shuffled R m m') :
    Shuffled R (l ++ m) (l' ++ m') := by
  obtain ⟨k, hk, hperm⟩ := iff_forall₂_perm.1 h
  obtain ⟨k', hk', hperm'⟩ := iff_forall₂_perm.1 hm
  exact iff_forall₂_perm.2 ⟨k ++ k', List.rel_append hk hk', hperm.append hperm'⟩

/-- Every element is related to one of the other list. -/
theorem exists_right (h : Shuffled R l l') {a : α} (ha : a ∈ l) : ∃ b ∈ l', R a b := by
  induction h with
  | nil => cases ha
  | @cons x y l front back hxy _ ih =>
    rcases List.mem_cons.1 ha with rfl | ha
    · exact ⟨y, List.mem_append_right _ List.mem_cons_self, hxy⟩
    · obtain ⟨b, hb, hab⟩ := ih ha
      refine ⟨b, ?_, hab⟩
      exact List.perm_middle.symm.subset (List.mem_cons_of_mem _ hb)

/-- Shuffled lists are shuffled back by a relation that goes back. -/
theorem symm {S : β → α → Prop} (h : Shuffled R l l') (hback : ∀ a ∈ l, ∀ b, R a b → S b a) :
    Shuffled S l' l := by
  obtain ⟨m, hm, hperm⟩ := iff_forall₂_perm.1 h
  have hcomp : Relation.Comp List.Perm (List.Forall₂ S) l' l :=
    ⟨m, hperm.symm, forall₂_symm hm hback⟩
  rw [← List.forall₂_comp_perm_eq_perm_comp_forall₂] at hcomp
  obtain ⟨m', hforall, hperm'⟩ := hcomp
  exact iff_forall₂_perm.2 ⟨m', hforall, hperm'⟩

/-- What related elements have in common is permuted. -/
theorem map_perm {f : α → γ} {g : β → γ} (h : Shuffled R l l') (hfg : ∀ a b, R a b → f a = g b) :
    (l.map f).Perm (l'.map g) := by
  induction h with
  | nil => exact .refl _
  | @cons a b l front back hab _ ih =>
    rw [List.map_cons, List.map_append, List.map_cons, hfg a b hab]
    exact ((ih.trans (by rw [List.map_append])).cons _).trans List.perm_middle.symm

/-- Shuffled lists are shuffled after a map on each side. -/
theorem map {δ : Type} {S : γ → δ → Prop} {f : α → γ} {g : β → δ} (h : Shuffled R l l')
    (hfg : ∀ a b, R a b → S (f a) (g b)) : Shuffled S (l.map f) (l'.map g) := by
  induction h with
  | nil => exact .nil
  | cons hab _ ih =>
    rw [List.map_append] at ih
    rw [List.map_cons, List.map_append, List.map_cons]
    exact .cons (hfg _ _ hab) ih

end Shuffled

/-! ### One level -/

section Relators

variable {T U : Type}

/-- Two fields differ in their types alone, and those are related. -/
inductive Field.Rel (R : T → U → Prop) : Field T → Field U → Prop
  | mk {name : String} {type : T} {type' : U} {privacy : Option Privacy} {readonly : Bool}
    {initial : Option String} {position : Position} :
    R type type' → Rel R ⟨name, type, privacy, readonly, initial, position⟩
      ⟨name, type', privacy, readonly, initial, position⟩

/-- Two parameters differ in their types alone, and those are related. -/
inductive Parameter.Rel (R : T → U → Prop) : Parameter T → Parameter U → Prop
  | mk {name : String} {type : T} {type' : U} : R type type' → Rel R ⟨name, type⟩ ⟨name, type'⟩

/-- Two methods differ in the types of their parameters and results alone, and those are related. -/
inductive Method.Rel (R : T → U → Prop) : Method T → Method U → Prop
  | mk {name : String} {parameters : List (Parameter T)} {parameters' : List (Parameter U)}
    {returns : Option T} {returns' : Option U} {readonly : Bool} {body : String}
    {position : Position} :
    List.Forall₂ (Parameter.Rel R) parameters parameters' → Option.Rel R returns returns' →
      Rel R ⟨name, parameters, returns, readonly, body, position⟩
        ⟨name, parameters', returns', readonly, body, position⟩

/-- Two structures differ in the order of their members and in the types of those, and the types are
related. -/
inductive Structure.Rel (R : T → U → Prop) : Structure T → Structure U → Prop
  | mk {name : String} {role : Role} {fields : List (Field T)} {fields' : List (Field U)}
    {indices indices' : List Index} {methods : List (Method T)} {methods' : List (Method U)}
    {rules rules' : List Rule} {position : Position} :
    Shuffled (Field.Rel R) fields fields' → indices.Perm indices' →
      Shuffled (Method.Rel R) methods methods' → rules.Perm rules' →
      Rel R ⟨name, role, fields, indices, methods, rules, position⟩
        ⟨name, role, fields', indices', methods', rules', position⟩

/-- Two kinds are the same up to the types in them, which are related, and up to the order of the
members of a structure. -/
inductive Kind.Rel (R : T → U → Prop) : Kind T → Kind U → Prop
  | scalar {s : Scalar} : Rel R (.scalar s) (.scalar s)
  | text : Rel R .text .text
  | replication {service method : String} :
    Rel R (.replication service method) (.replication service method)
  | list {element : T} {element' : U} : R element element' → Rel R (.list element) (.list element')
  | map {domain range : T} {domain' range' : U} :
    R domain domain' → R range range' → Rel R (.map domain range) (.map domain' range')
  | maybe {inner : T} {inner' : U} : R inner inner' → Rel R (.maybe inner) (.maybe inner')
  | table {record : String} : Rel R (.table record) (.table record)
  | holder {message : String} : Rel R (.holder message) (.holder message)
  | projection {table field : String} : Rel R (.projection table field) (.projection table field)
  | lazy {computed : T} {computed' : U} {formula : String} {cached : Bool} :
    R computed computed' → Rel R (.lazy computed formula cached) (.lazy computed' formula cached)
  | record {s : Structure T} {s' : Structure U} : s.Rel R s' → Rel R (.record s) (.record s')
  | message {s : Structure T} {s' : Structure U} : s.Rel R s' → Rel R (.message s) (.message s')
  | ref {name : String} : Rel R (.ref name) (.ref name)

end Relators

/-- The second type is the first with fields, indices, methods and rules in another order, in
structures at any depth. -/
inductive Node.Rearranged : Node → Node → Prop
  | mk {position : Position} {notes : List Note} {kind kind' : Kind Node} :
    Kind.Rel Node.Rearranged kind kind' →
      Node.Rearranged ⟨position, notes, kind⟩ ⟨position, notes, kind'⟩

/-- The second structure is the first with its members in another order, and with the structures in
their types rearranged. -/
abbrev Structure.Rearranged : Structure Node → Structure Node → Prop :=
  Structure.Rel Node.Rearranged

/-! ### Types in structures -/

section Members

variable {R S : Node → Node → Prop} {s s' : Structure Node} {m m' : Method Node} {n : Node}

theorem Field.Rel.name_eq {f f' : Field Node} (h : f.Rel R f') : f.name = f'.name := by
  cases h
  rfl

theorem Parameter.Rel.name_eq {p p' : Parameter Node} (h : p.Rel R p') : p.name = p'.name := by
  cases h
  rfl

theorem Method.Rel.name_eq (h : m.Rel R m') : m.name = m'.name := by
  cases h
  rfl

/-- Each type of a method is related to one of the other method. -/
theorem Method.Rel.exists_type (h : m.Rel R m')
    (hn : n ∈ m.parameters.map Parameter.type ++ m.returns.toList) :
    ∃ n' ∈ m'.parameters.map Parameter.type ++ m'.returns.toList, R n n' := by
  obtain ⟨hparameters, hreturns⟩ := h
  rcases List.mem_append.1 hn with hn | hn
  · obtain ⟨p, hp, rfl⟩ := List.mem_map.1 hn
    obtain ⟨p', hp', ⟨htype⟩⟩ := (Shuffled.of_forall₂ hparameters).exists_right hp
    exact ⟨_, List.mem_append_left _ (List.mem_map_of_mem hp'), htype⟩
  · cases hreturns with
    | none => cases hn
    | @some _ type' htype =>
      rw [Option.toList_some, List.mem_singleton] at hn
      exact ⟨type', List.mem_append_right _ (Option.mem_toList.2 rfl), hn ▸ htype⟩

/-- A method is related back if its types are. -/
theorem Method.Rel.symm (h : m.Rel R m')
    (hback : ∀ n ∈ m.parameters.map Parameter.type ++ m.returns.toList, ∀ n', R n n' → S n' n) :
    m'.Rel S m := by
  obtain ⟨hparameters, hreturns⟩ := h
  refine .mk (forall₂_symm hparameters ?_) ?_
  · rintro p hp _ ⟨htype⟩
    exact .mk (hback _ (List.mem_append_left _ (List.mem_map_of_mem hp)) _ htype)
  · cases hreturns with
    | none => exact .none
    | some htype =>
      exact .some (hback _ (List.mem_append_right _ (Option.mem_toList.2 rfl)) _ htype)

namespace Structure

/-- Related structures have one name. The lemmas that follow take the relation apart, so that nobody
else has to. -/
theorem Rel.name_eq (h : s.Rel R s') : s.name = s'.name := by
  cases h
  rfl

theorem Rel.role_eq (h : s.Rel R s') : s.role = s'.role := by
  cases h
  rfl

theorem Rel.fields (h : s.Rel R s') : Shuffled (Field.Rel R) s.fields s'.fields := by
  cases h
  assumption

theorem Rel.indices (h : s.Rel R s') : s.indices.Perm s'.indices := by
  cases h
  assumption

theorem Rel.methods (h : s.Rel R s') : Shuffled (Method.Rel R) s.methods s'.methods := by
  cases h
  assumption

theorem Rel.rules (h : s.Rel R s') : s.rules.Perm s'.rules := by
  cases h
  assumption

/-- Structures stay related under another name and in another role. -/
theorem Rel.renamed (h : s.Rel R s') (name : String) (role : Role) :
    Rel R { s with name := name, role := role } { s' with name := name, role := role } := by
  obtain ⟨hfields, hindices, hmethods, hrules⟩ := h
  exact .mk hfields hindices hmethods hrules

/-- Every type in a structure is found in the other one. -/
theorem Rel.exists_type (h : s.Rel R s') (hn : n ∈ s.types) : ∃ n' ∈ s'.types, R n n' := by
  rw [types, List.mem_append, List.mem_map, List.mem_flatMap] at hn
  rcases hn with ⟨f, hf, rfl⟩ | ⟨m, hm, hn⟩
  · obtain ⟨f', hf', ⟨htype⟩⟩ := h.fields.exists_right hf
    exact ⟨_, List.mem_append_left _ (List.mem_map_of_mem hf'), htype⟩
  · obtain ⟨m', hm', hrel⟩ := h.methods.exists_right hm
    obtain ⟨n', hn', htype⟩ := hrel.exists_type hn
    exact ⟨n', List.mem_append_right _ (List.mem_flatMap.2 ⟨m', hm', hn'⟩), htype⟩

/-- A structure is related back if its types are. -/
theorem Rel.symm (h : s.Rel R s') (hback : ∀ n ∈ s.types, ∀ n', R n n' → S n' n) : s'.Rel S s := by
  obtain ⟨hfields, hindices, hmethods, hrules⟩ := h
  refine .mk (hfields.symm ?_) hindices.symm (hmethods.symm ?_) hrules.symm
  · rintro f hf _ ⟨htype⟩
    exact .mk (hback _ (List.mem_append_left _ (List.mem_map_of_mem hf)) _ htype)
  · intro m hm m' hrel
    refine hrel.symm fun n hn => hback n ?_
    exact List.mem_append_right _ (List.mem_flatMap.2 ⟨m, hm, hn⟩)

/-- A structure is related to one with its members in another order, if its types are related to
themselves. -/
theorem Rel.of_perm (hname : s.name = s'.name) (hrole : s.role = s'.role)
    (hposition : s.position = s'.position) (hfields : s.fields.Perm s'.fields)
    (hindices : s.indices.Perm s'.indices) (hmethods : s.methods.Perm s'.methods)
    (hrules : s.rules.Perm s'.rules) (hrefl : ∀ n ∈ s.types, R n n) : s.Rel R s' := by
  obtain ⟨name, role, fields, indices, methods, rules, position⟩ := s
  obtain ⟨name', role', fields', indices', methods', rules', position'⟩ := s'
  cases hname
  cases hrole
  cases hposition
  refine .mk (.of_perm ?_ hfields) hindices (.of_perm ?_ hmethods) hrules
  · intro f hf
    exact .mk (hrefl _ (List.mem_append_left _ (List.mem_map_of_mem hf)))
  · intro m hm
    -- The types of a method are types of the structure.
    have hmember : ∀ n ∈ m.parameters.map Parameter.type ++ m.returns.toList, R n n := fun n hn =>
      hrefl n (List.mem_append_right _ (List.mem_flatMap.2 ⟨m, hm, hn⟩))
    obtain ⟨_, parameters, returns, _, _, _⟩ := m
    refine .mk (List.forall₂_same.2 fun p hp => ?_) ?_
    · exact .mk (hmember _ (List.mem_append_left _ (List.mem_map_of_mem hp)))
    · cases returns with
      | none => exact .none
      | some type => exact .some (hmember _ (List.mem_append_right _ (Option.mem_toList.2 rfl)))

end Structure

end Members

/-! ### Types -/

namespace Node

variable {n n' : Node}

theorem Rearranged.kind (h : n.Rearranged n') : n.kind.Rel Rearranged n'.kind := by
  cases h
  assumption

theorem Rearranged.reference?_eq (h : n.Rearranged n') : n.reference? = n'.reference? := by
  obtain ⟨hkind⟩ := h
  cases hkind <;> rfl

/-- Each part is found again, rearranged. -/
theorem Rearranged.exists_part (h : n.Rearranged n') {m : Node} (hm : m ∈ n.parts) :
    ∃ m' ∈ n'.parts, m.Rearranged m' := by
  obtain ⟨hkind⟩ := h
  cases hkind <;> simp_all [parts]
  rcases hm with rfl | rfl
  · exact .inl ‹_›
  · exact .inr ‹_›

theorem Rearranged.exists_structure? (h : n.Rearranged n') {s : Structure Node}
    (hs : n.structure? = some s) : ∃ s', n'.structure? = some s' ∧ s.Rearranged s' := by
  obtain ⟨hkind⟩ := h
  cases hkind <;> simp_all [structure?]

/-- Records are rearranged to records, and nothing else is. -/
theorem Rearranged.record? (h : n.Rearranged n') :
    Option.Rel Structure.Rearranged n.record? n'.record? := by
  obtain ⟨hkind⟩ := h
  cases hkind with
  | record hs => exact .some hs
  | _ => exact .none

theorem Rearranged.exists_record? (h : n.Rearranged n') {s : Structure Node}
    (hs : n.record? = some s) : ∃ s', n'.record? = some s' ∧ s.Rearranged s' := by
  have hrecord := h.record?
  rw [hs] at hrecord
  generalize n'.record? = r' at hrecord ⊢
  cases hrecord with
  | some hrel => exact ⟨_, rfl, hrel⟩

/-- Every type is rearranged to itself. By induction on types, with the members of a structure in
their order. -/
theorem Rearranged.refl (n : Node) : n.Rearranged n := by
  induction n using Node.induction with
  | h n ihparts ihmembers =>
    obtain ⟨position, notes, kind⟩ := n
    refine .mk ?_
    -- A structure is rearranged to itself if its types are.
    have hstructure : ∀ s, structure? ⟨position, notes, kind⟩ = some s →
        s.Rearranged s := fun s hs =>
      .of_perm rfl rfl rfl (.refl _) (.refl _) (.refl _) (.refl _) (ihmembers s hs)
    cases kind with
    | list element => exact .list (ihparts _ List.mem_cons_self)
    | map domain range =>
      exact .map (ihparts _ List.mem_cons_self)
        (ihparts _ (List.mem_cons_of_mem _ List.mem_cons_self))
    | maybe inner => exact .maybe (ihparts _ List.mem_cons_self)
    | lazy computed => exact .lazy (ihparts _ List.mem_cons_self)
    | record s => exact .record (hstructure s rfl)
    | message s => exact .message (hstructure s rfl)
    | _ => constructor

/-- What was rearranged can be rearranged back. -/
theorem Rearranged.symm (h : n.Rearranged n') : n'.Rearranged n := by
  induction n using Node.induction generalizing n' with
  | h n ihparts ihmembers =>
    obtain ⟨hkind⟩ := h
    refine .mk ?_
    cases hkind with
    | list helement => exact .list (ihparts _ List.mem_cons_self helement)
    | map hdomain hrange =>
      exact .map (ihparts _ List.mem_cons_self hdomain)
        (ihparts _ (List.mem_cons_of_mem _ List.mem_cons_self) hrange)
    | maybe hinner => exact .maybe (ihparts _ List.mem_cons_self hinner)
    | lazy hcomputed => exact .lazy (ihparts _ List.mem_cons_self hcomputed)
    | record hs => exact .record (hs.symm fun m hm _ => ihmembers _ rfl m hm)
    | message hs => exact .message (hs.symm fun m hm _ => ihmembers _ rfl m hm)
    | _ => constructor

end Node

namespace Structure

variable {s s' : Structure Node}

theorem Rearranged.symm (h : s.Rearranged s') : s'.Rearranged s :=
  Rel.symm h fun _ _ _ hn => hn.symm

end Structure

end ReactiveSpace
