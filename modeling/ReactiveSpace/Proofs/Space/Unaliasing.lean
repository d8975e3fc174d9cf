import Mathlib.Data.Fintype.EquivFin
import Mathlib.Order.Filter.AtTopBot.Basic
import Mathlib.Order.Filter.Finite
import ReactiveSpace.Proofs.Space.Replacement

/-!
# Replacing aliases until none is left

`Declarations.unaliased` replaces references to aliases in rounds. Each round puts a copy of the
type of the alias in the place of every reference to it, and so brings in the references that stand
in this type.

When no alias holds a reference to itself, directly or through others, no reference to an alias is
left after some number of rounds (`eventually_no_alias`). What is then in the place of an alias is
its type with all aliases replaced in it, so that the replacement as a whole is one that
`Table.Unaliases` describes (`exists_unaliases`).
-/

namespace ReactiveSpace

open Filter Relation

/-! ### Rounds -/

/-- What stands for a name after `rounds` more rounds. -/
def Node.copies (σ : String → Option Node) (rounds : Nat) (name : String) : Option Node :=
  (σ name).map (replace σ)^[rounds]

section Rounds

variable {σ : String → Option Node}

theorem Node.copies_zero : copies σ 0 = σ := by
  funext name
  simp [copies]

/-- Each round puts the types as declared into the copies so far. -/
theorem Node.andThen_copies (rounds : Nat) :
    andThen (copies σ rounds) σ = copies σ (rounds + 1) := by
  funext name
  cases h : σ name with
  | none => simp [andThen, copies, h]
  | some m => simp only [andThen, copies, h, Option.map_some, Function.iterate_succ_apply',
      Option.orElse_some]

theorem Node.iterate_replace (rounds : Nat) (n : Node) :
    (replace σ)^[rounds + 1] n = n.replace (copies σ rounds) := by
  induction rounds with
  | zero => rw [copies_zero, Function.iterate_one]
  | succ rounds ih => rw [Function.iterate_succ_apply', ih, replace_replace, andThen_copies]

namespace Table

variable {t : Table}

/-- Rounds on a table replace all at once what their copies say. -/
theorem iterate_replace (rounds : Nat) :
    (replace σ)^[rounds + 1] t = t.replace (Node.copies σ rounds) := by
  induction rounds with
  | zero => rw [Node.copies_zero, Function.iterate_one]
  | succ rounds ih => rw [Function.iterate_succ_apply', ih, replace_replace, Node.andThen_copies]

/-- Rounds change each declared type by itself. -/
theorem get?_iterate_replace (rounds : Nat) (name : String) :
    ((replace σ)^[rounds] t).get? name = (t.get? name).map (Node.replace σ)^[rounds] := by
  induction rounds with
  | zero => simp
  | succ rounds ih =>
    rw [Function.iterate_succ_apply', get?_replace, ih, Option.map_map, Function.iterate_succ']

theorem types_iterate_replace (rounds : Nat) :
    ((replace σ)^[rounds] t).root.types = t.root.types.map (Node.replace σ)^[rounds] := by
  induction rounds with
  | zero => simp
  | succ rounds ih =>
    rw [Function.iterate_succ_apply', Function.iterate_succ', ← List.map_map, ← ih]
    exact Structure.types_replace

/-! ### References in a table -/

/-- A reference to `name` stands somewhere in the table. -/
def Refers (t : Table) (name : String) : Prop :=
  ∃ scope n, t.Occurs (.type scope n) ∧ n.reference? = some name

/-- A reference within something that occurs is a reference of the table. -/
theorem Occurs.refers {scope : Option (Structure Node)} {n : Node} {name : String}
    (h : t.Occurs (.type scope n)) (hn : n.Refers name) : t.Refers name := by
  induction hn generalizing scope with
  | self href => exact ⟨scope, _, h, href⟩
  | part hm _ ih => exact ih (.part h hm)
  | member hs hm _ ih => exact ih (.member (.body h hs) hm)

/-- A reference to `name` stands in a part. -/
def PartRefers (name : String) : Part → Prop
  | .type _ n => n.Refers name
  | .body s => ∃ n ∈ s.types, n.Refers name

/-- A reference in a part is one in the whole, up to an entry or the root. -/
theorem Occurs.refers_up {name : String} {p : Part} (hp : t.Occurs p) (h : PartRefers name p) :
    (∃ key n, t.get? key = some n ∧ n.Refers name) ∨ ∃ n ∈ t.root.types, n.Refers name := by
  induction hp with
  | @entry key n hmem => exact Or.inl ⟨key, n, Keyed.get?_of_mem t.distinct hmem, h⟩
  | root => exact Or.inr h
  | part _ hm ih => exact ih (.part hm h)
  | body _ hs ih =>
    obtain ⟨m, hm, hrefers⟩ := h
    exact ih (.member hs hm hrefers)
  | member _ hm ih => exact ih ⟨_, hm, h⟩

/-- References stand in the entries and in the root. -/
theorem refers_iff {name : String} :
    t.Refers name ↔ (∃ key n, t.get? key = some n ∧ n.Refers name) ∨
      ∃ n ∈ t.root.types, n.Refers name := by
  constructor
  · rintro ⟨scope, n, hn, href⟩
    exact hn.refers_up (.self href)
  · rintro (⟨key, n, hget, hn⟩ | ⟨n, hmem, hn⟩)
    · exact (Occurs.of_get? hget).refers hn
    · exact (Occurs.member .root hmem).refers hn

/-- Replacing names that no reference has changes nothing. -/
theorem replace_eq_self (h : ∀ name, t.Refers name → σ name = none) : t.replace σ = t := by
  refine eq_of_entries_of_root ?_ ?_
  · refine (List.map_congr_left fun e he => ?_).trans (List.map_id _)
    have hself : e.2.replace σ = e.2 :=
      Node.replace_eq_self fun name hname => h name ((Occurs.entry he).refers hname)
    rw [hself, id]
  · have hroot : t.root.mapTypes (Node.replace σ) = t.root.mapTypes id := by
      refine Structure.mapTypes_congr fun n hn => Node.replace_eq_self fun name hname => ?_
      exact h name ((Occurs.member .root hn).refers hname)
    exact (Structure.replace_eq_mapTypes _).trans (hroot.trans (Structure.mapTypes_id _))

/-- The replacement that has left no reference to an alias is that of all aliases. -/
theorem exists_unaliases {rounds : Nat}
    (h : ∀ name, ((replace t.aliasNode?)^[rounds] t).Refers name → t.aliasNode? name = none) :
    ∃ σ, t.Unaliases σ ∧ (replace t.aliasNode?)^[rounds] t = t.replace σ := by
  refine ⟨Node.copies t.aliasNode? rounds, fun name => ?_, ?_⟩
  · -- One more round changes nothing in the type of an alias.
    refine Option.map_congr fun node hnode => ?_
    obtain ⟨key, hkey⟩ := (aliasNode?_eq_some_iff.1 hnode).1.exists_entry
    have hget : ((replace t.aliasNode?)^[rounds] t).get? key =
        some ((Node.replace t.aliasNode?)^[rounds] node) := by
      rw [get?_iterate_replace, hkey, Option.map_some]
    have hself := Node.replace_eq_self fun name hname => h name ((Occurs.of_get? hget).refers hname)
    rw [← Node.iterate_replace, Function.iterate_succ_apply', hself]
  · rw [← iterate_replace, Function.iterate_succ_apply', replace_eq_self h]

/-! ### The end of the rounds -/

/-- The type of the alias `name` holds a reference to the alias `other`, at any depth. -/
def Contains (t : Table) (name other : String) : Prop :=
  ∃ node, t.aliasNode? name = some node ∧ node.Refers other ∧ t.aliasNode? other ≠ none

/-- In the end no reference to an alias is left in the type. -/
def Clears (t : Table) (n : Node) : Prop :=
  ∀ᶠ rounds in atTop,
    ∀ name, ((Node.replace t.aliasNode?)^[rounds] n).Refers name → t.aliasNode? name = none

/-- What holds eventually for each of finitely many holds eventually for all. -/
theorem eventually_of_forall_mem {α : Type} {l : List α} {P : Nat → α → Prop}
    (h : ∀ x ∈ l, ∀ᶠ rounds in atTop, P rounds x) : ∀ᶠ rounds in atTop, ∀ x ∈ l, P rounds x :=
  (eventually_all_finite (List.finite_toSet l)).2 h

/-- A type clears when the aliases in it do. -/
theorem clears_of_refers {n : Node}
    (h : ∀ name node, n.Refers name → t.aliasNode? name = some node → t.Clears node) :
    t.Clears n := by
  induction n using Node.induction with
  | h n ihparts ihmembers =>
    have hround : ∀ {m}, t.Clears m → ∀ᶠ rounds in atTop, ∀ name,
        ((Node.replace t.aliasNode?)^[rounds + 1] m).Refers name → t.aliasNode? name = none :=
      fun hm => (tendsto_add_atTop_nat 1).eventually hm
    unfold Clears
    -- The first round decides about a reference, and goes into what any other type is made of.
    rw [← map_add_atTop_eq_nat 1, eventually_map]
    cases hn : n.reference? with
    | some name =>
      simp only [Function.iterate_succ_apply]
      cases hnode : t.aliasNode? name with
      | some node =>
        rw [Node.replace_of_some hn hnode]
        exact h name node (.self hn) hnode
      | none =>
        have hself := Node.replace_of_none hn hnode
        refine Eventually.of_forall fun rounds other hother => ?_
        rw [hself, Function.iterate_fixed hself, Node.refers_iff_of_reference? hn] at hother
        rw [hother, hnode]
    | none =>
      have hparts := eventually_of_forall_mem fun m hm =>
        hround (ihparts m hm fun name node hname => h name node (.part hm hname))
      have hmembers : ∀ᶠ rounds in atTop, ∀ s, n.structure? = some s → ∀ m ∈ s.types, ∀ name,
          ((Node.replace t.aliasNode?)^[rounds + 1] m).Refers name → t.aliasNode? name = none := by
        cases hs : n.structure? with
        | none => simp
        | some s =>
          simp only [Option.some.injEq, forall_eq']
          exact eventually_of_forall_mem fun m hm =>
            hround (ihmembers s hs m hm fun name node hname => h name node (.member hs hm hname))
      filter_upwards [hparts, hmembers] with rounds hparts hmembers name hname
      simp only [Node.iterate_replace] at hname hparts hmembers
      rcases (Node.refers_replace_iff hn).1 hname with ⟨m, hm, hrefers⟩ | ⟨s, hs, m, hm, hrefers⟩
      · exact hparts m hm name hrefers
      · exact hmembers s hs m hm name hrefers

/-- No reference to an alias is left in the end, if no alias holds a reference to itself. -/
theorem eventually_no_alias (h : ∀ name, ¬ TransGen t.Contains name name) :
    ∀ᶠ rounds in atTop, ∀ name,
      ((replace t.aliasNode?)^[rounds] t).Refers name → t.aliasNode? name = none := by
  have hwf : WellFounded fun b a : {name // name ∈ t.names} => TransGen t.Contains a.1 b.1 := by
    have htrans : IsTrans _ fun b a : {name // name ∈ t.names} => TransGen t.Contains a.1 b.1 :=
      ⟨fun _ _ _ hab hbc => hbc.trans hab⟩
    have hirrefl : Std.Irrefl fun b a : {name // name ∈ t.names} => TransGen t.Contains a.1 b.1 :=
      ⟨fun a => h a.1⟩
    exact Finite.wellFounded_of_trans_of_irrefl _
  have hdeclared : ∀ {name node}, t.aliasNode? name = some node → name ∈ t.names := by
    intro name node hnode
    obtain ⟨⟨_, hget, -⟩, -⟩ := aliasNode?_eq_some_iff.1 hnode
    exact mem_names_of_get? hget
  have hclears : ∀ name node, t.aliasNode? name = some node → t.Clears node := by
    intro name node hnode
    -- The induction goes along the aliases that stand in aliases.
    generalize hx : (⟨name, hdeclared hnode⟩ : {name // name ∈ t.names}) = x
    induction x using hwf.induction generalizing name node with
    | _ x ih =>
      subst hx
      refine clears_of_refers fun other node' hother hnode' => ?_
      have hcontains : t.Contains name other := ⟨node, hnode, hother, by simp [hnode']⟩
      exact ih ⟨other, hdeclared hnode'⟩ (.single hcontains) other node' hnode' rfl
  have hentries := eventually_of_forall_mem fun (e : String × Node) (_ : e ∈ t.entries) =>
    clears_of_refers (n := e.2) fun name node _ => hclears name node
  have hroot := eventually_of_forall_mem fun (n : Node) (_ : n ∈ t.root.types) =>
    clears_of_refers (n := n) fun name node _ => hclears name node
  filter_upwards [hentries, hroot] with rounds hentries hroot name hname
  rcases refers_iff.1 hname with ⟨key, n, hget, hn⟩ | ⟨n, hmem, hn⟩
  · rw [get?_iterate_replace, Option.map_eq_some_iff] at hget
    obtain ⟨m, hm, rfl⟩ := hget
    exact hentries (key, m) (Keyed.mem_of_get? hm) name hn
  · rw [types_iterate_replace, List.mem_map] at hmem
    obtain ⟨m, hm, rfl⟩ := hmem
    exact hroot m hm name hn

end Table

end Rounds

/-! ### Declarations -/

namespace Declarations

/-- The declarations with references replaced in all their types. -/
def replace (σ : String → Option Node) (d : Declarations) : Declarations :=
  { d with
    records := d.records.map (Structure.replace σ)
    messages := d.messages.map (Structure.replace σ)
    aliases := d.aliases.map fun e => (e.1, e.2.replace σ)
    root := d.root.replace σ }

/-- The declarations after some rounds. Each round replaces every reference to an alias, in all
fields, parameters, results and aliases, by a copy of the type that the alias was declared with. -/
def unaliased (d : Declarations) (rounds : Nat) : Declarations :=
  (replace d.check.table.aliasNode?)^[rounds] d

variable {d : Declarations} {σ : String → Option Node}

/-- Replacing in declarations replaces in each declared type. -/
theorem types_replace : (d.replace σ).types = d.types.map fun e => (e.1, e.2.replace σ) := by
  have hrecord : ∀ s : Structure Node, Node.ofRecord { s.replace σ with role := .record } =
      (Node.ofRecord { s with role := .record }).replace σ := by
    intro s
    rw [Node.replace_eq rfl, Structure.replace_eq_mapTypes]
    rfl
  have hmessage : ∀ s : Structure Node, Node.ofMessage { s.replace σ with role := .message } =
      (Node.ofMessage { s with role := .message }).replace σ := by
    intro s
    rw [Node.replace_eq rfl, Structure.replace_eq_mapTypes]
    rfl
  unfold types replace
  simp only [List.map_append, List.map_map]
  refine congrArg₂ _ (congrArg₂ _ ?_ ?_) rfl
  · exact List.map_congr_left fun s _ => Prod.ext Structure.replace_name (hrecord s)
  · exact List.map_congr_left fun s _ => Prod.ext Structure.replace_name (hmessage s)

theorem document_replace : (d.replace σ).document = d.document.replace σ := by
  rw [document, document, replace, Structure.replace_eq_mapTypes, Structure.replace_eq_mapTypes]
  rfl

theorem names_types_replace : Keyed.names (d.replace σ).types = Keyed.names d.types := by
  rw [types_replace]
  simp [Keyed.names]

/-- Replacing in the declarations is replacing in their table. -/
theorem table_check_replace (h : (Keyed.names d.types).Nodup) :
    (d.replace σ).check.table = d.check.table.replace σ := by
  have h' : (Keyed.names (d.replace σ).types).Nodup := by
    rw [names_types_replace]
    exact h
  have htable : d.check.table = d.table h := table_draft h
  have htable' : (d.replace σ).check.table = (d.replace σ).table h' := table_draft h'
  rw [htable, htable']
  exact Table.eq_of_entries_of_root types_replace document_replace

/-- Checking after some rounds gives the table after these rounds. -/
theorem table_check_unaliased (h : (Keyed.names d.types).Nodup) (rounds : Nat) :
    (d.unaliased rounds).check.table =
      (Table.replace d.check.table.aliasNode?)^[rounds] d.check.table := by
  have hnames : ∀ k, Keyed.names ((replace d.check.table.aliasNode?)^[k] d).types =
      Keyed.names d.types := by
    intro k
    induction k with
    | zero => rfl
    | succ k ih => rw [Function.iterate_succ_apply', names_types_replace, ih]
  unfold unaliased
  induction rounds with
  | zero => rfl
  | succ rounds ih =>
    rw [Function.iterate_succ_apply', Function.iterate_succ_apply', ← ih]
    refine table_check_replace ?_
    rw [hnames]
    exact h

end Declarations

end ReactiveSpace
