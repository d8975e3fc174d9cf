import ReactiveSpace.Proofs.Space.Unaliasing
import ReactiveSpace.Proofs.Target.Definitions

/-!
# What aliases mean to generated source

Generated source depends on a type through its shape, through what it comes down to, and through the
record it leads to. Each of them follows references on its own and has its own guard against aliases
that lead back into themselves. When all aliases can be replaced there are no such aliases
(`Unaliases.ends`), and none of the three tells a reference to an alias from a copy of its type:
`WellFormed.expand_replace`, `WellFormed.exists_concrete` and `WellFormed.link?_replace`.
-/

namespace ReactiveSpace

open Relation

namespace Table

variable {t : Table} {σ : String → Option Node} {scope : Option (Structure Node)} {n : Node}

/-- No alias leads back into itself, if all can be replaced. -/
theorem Unaliases.ends (hσ : t.Unaliases σ) (n : Node) : t.Ends n := by
  -- The measure is the size after replacement; a reference has that of the alias it is replaced by.
  induction hsize : sizeOf (n.replace σ) using Nat.strong_induction_on generalizing n with
  | _ size ih =>
    have hother : ∀ m, m.reference? = none → sizeOf (m.replace σ) = size → t.Ends m := by
      intro m hm hsize'
      refine Acc.intro _ fun part hpart => ?_
      rcases hpart with hpart | ⟨name, href, -⟩
      · have hmem : part.replace σ ∈ (m.replace σ).parts := by
          rw [Node.parts_replace hm]
          exact List.mem_map_of_mem hpart
        exact ih _ (hsize' ▸ Node.sizeOf_lt_of_mem_parts hmem) part rfl
      · simp [hm] at href
    cases hn : n.reference? with
    | none => exact hother n hn hsize
    | some name =>
      refine Acc.intro _ fun target htarget => ?_
      rcases htarget with hpart | ⟨name', href, hnames⟩
      · simp [Node.parts, Node.reference?_eq_some_iff.1 hn] at hpart
      · cases hs : target.structure? with
        | some s => exact ends_of_structure? hs
        | none =>
          refine hother target hnames.reference?_eq_none ?_
          rw [← hsize, hσ.replace_ref href hnames hs]

/-! ### Single types -/

theorem expand_of_structure? {opened opened' : List String} {site site' : Site} {t' : Table}
    {s : Structure Node} (hn : n.reference? = none) (hs : n.structure? = some s) :
    Shape.expand t' opened' site' (n.replace σ) = Shape.expand t opened site n := by
  rw [Node.replace_eq hn]
  obtain ⟨position, notes, kind⟩ := n
  cases kind <;> simp [Node.structure?] at hs
  all_goals
    rw [Kind.mapTypes, Shape.expand, Shape.expand]
    rfl

namespace WellFormed

/-! ### Shapes -/

/-- The shape of a type stays when aliases are replaced. What was the type of an alias, outside all
structures, may now stand inside one: no projection is among them, and nothing else can tell. -/
theorem expand_replace (ht : t.WellFormed) (hσ : t.Unaliases σ) {opened opened' : List String}
    {scope' : Option (Structure Node)} (hn : t.Occurs (.type scope n))
    (hscope : scope = none ∨ scope' = scope.map (Structure.replace σ))
    (hopened : ∀ key ∈ opened, ∀ node, t.get? key = some node → ReflTransGen t.Opens node n) :
    Shape.expand (t.replace σ) opened' (.declared scope') (n.replace σ) =
      Shape.expand t opened (.declared scope) n := by
  -- Along what the type opens: its parts, or the type that a reference stands for. Which aliases
  -- are open need not agree: no type comes back to one that is open, and with aliases replaced,
  -- what is still referred to are structures.
  induction hσ.ends n generalizing scope scope' opened opened' with
  | intro n hacc ih =>
    have hnext : ∀ {m}, t.Opens n m → ∀ key ∈ opened, ∀ node, t.get? key = some node →
        ReflTransGen t.Opens node m :=
      fun hm key hkey node hget => (hopened key hkey node hget).tail hm
    have hpart : ∀ m ∈ n.parts,
        Shape.expand (t.replace σ) opened' (.declared scope') (m.replace σ) =
          Shape.expand t opened (.declared scope) m :=
      fun m hm => ih m (Or.inl hm) (.part hn hm) hscope (hnext (Or.inl hm))
    cases href : n.reference? with
    | some name =>
      obtain ⟨target, hnames⟩ := ht.exists_names hn href
      have hopens : t.Opens n target := Or.inr ⟨name, href, hnames⟩
      obtain ⟨key', hkey'⟩ := hnames.exists_entry
      rcases expand_ref opened href hnames with ⟨s, hs, heq⟩ | ⟨hs, key, hkey, heq⟩
      · have hs' : (target.replace σ).structure? = some (s.replace σ) := by
          rw [hσ.structure?_replace, hs, Option.map_some]
        rw [hσ.replace_ref_of_structure? href hnames hs, heq]
        rcases @expand_ref _ scope' _ opened' _ _ href (hnames.replace hσ) with
          ⟨_, -, heq'⟩ | ⟨hnone, -⟩
        · rw [heq']
          exact ih target hopens (.of_get? hkey') (Or.inl rfl) (hnext hopens)
        · simp [hs'] at hnone
      · -- An open alias leads to the reference, and the reference would lead back to it.
        have hopen : key ∉ opened := by
          intro hmem
          have hends : t.Ends n := Acc.intro n hacc
          exact hends.not_transGen (TransGen.head' hopens (hopened key hmem target hkey))
        rw [hσ.replace_ref href hnames hs, heq, if_neg hopen]
        refine ih target hopens (.of_get? hkey) (Or.inl rfl) fun other hother node hget => ?_
        rcases List.mem_cons.1 hother with rfl | hother
        · obtain rfl := Option.some.inj (hkey.symm.trans hget)
          exact .refl
        · exact hnext hopens other hother node hget
    | none =>
      obtain ⟨position, notes, kind⟩ := n
      have hreplace : (⟨position, notes, kind⟩ : Node).replace σ =
          ⟨position, notes, kind.mapTypes (Node.replace σ)⟩ := Node.replace_eq href
      cases kind with
      | ref name => simp [Node.reference?] at href
      | record s | message s => exact expand_of_structure? href rfl
      | scalar | text | replication =>
        rw [hreplace, Kind.mapTypes, Shape.expand, Shape.expand]
      | list element | maybe element =>
        rw [hreplace, Kind.mapTypes, Shape.expand, Shape.expand,
          hpart element (by simp [Node.parts])]
      | lazy computed =>
        rw [hreplace, Kind.mapTypes, Shape.expand, Shape.expand,
          hpart computed (by simp [Node.parts])]
      | map domain range =>
        rw [hreplace, Kind.mapTypes, Shape.expand, Shape.expand,
          hpart domain (by simp [Node.parts]), hpart range (by simp [Node.parts])]
      | table name =>
        obtain ⟨s, hs⟩ := ht.exists_rows hn rfl
        rw [expand_table rfl hs, expand_table (hreplace ▸ rfl) (hs.replace hσ)]
        rfl
      | holder name =>
        obtain ⟨s, hs⟩ := ht.exists_held hn rfl
        rw [expand_holder rfl hs, expand_holder (hreplace ▸ rfl) (hs.replace hσ)]
        rfl
      | projection table field =>
        obtain ⟨owner, _, _, s, k, rfl, -, -, -, -, hresolve⟩ := ht.exists_projection hn rfl
        have hscope' := hscope.resolve_left (by simp)
        have hresolve' := resolveProjection_replace hσ hresolve
        rw [← hscope'] at hresolve'
        rw [expand_projection rfl hresolve, expand_projection (hreplace ▸ rfl) hresolve']

/-! ### What types come down to -/

/-- What a type comes down to stays, with aliases replaced in it. -/
theorem exists_concrete (ht : t.WellFormed) (hσ : t.Unaliases σ) (hn : t.Occurs (.type scope n)) :
    ∃ target, t.ComesTo n target ∧ n.concrete t = target ∧
      (n.replace σ).concrete (t.replace σ) = target.replace σ := by
  obtain ⟨target, hcomes⟩ := ht.settled.comesTo scope n hn
  refine ⟨target, hcomes, ?_, ?_⟩
  · rw [Node.concrete, follow?_eq_some_iff.2 hcomes, Option.getD_some]
  · rw [Node.concrete, follow?_eq_some_iff.2 (hcomes.replace hσ), Option.getD_some]

/-! ### Records that types lead to -/

/-- The record that a type leads to stays when aliases are replaced. -/
theorem link?_replace (ht : t.WellFormed) (hσ : t.Unaliases σ) {seen seen' : List String}
    {direct : Bool} (hn : t.Occurs (.type scope n))
    (hseen : ∀ name ∈ seen, ∀ target, t.Names name target → ReflTransGen t.Opens target n) :
    (t.replace σ).link? seen' direct (n.replace σ) = t.link? seen direct n := by
  induction hσ.ends n generalizing scope seen seen' direct with
  | intro n hacc ih =>
    have hnext : ∀ {m}, t.Opens n m → ∀ name ∈ seen, ∀ target, t.Names name target →
        ReflTransGen t.Opens target m :=
      fun hm name hname target hnames => (hseen name hname target hnames).tail hm
    have hpart : ∀ m ∈ n.parts, (t.replace σ).link? seen' false (m.replace σ) =
        t.link? seen false m :=
      fun m hm => ih m (Or.inl hm) (.part hn hm) (hnext (Or.inl hm))
    cases href : n.reference? with
    | some name =>
      obtain ⟨target, hnames⟩ := ht.exists_names hn href
      have hopens : t.Opens n target := Or.inr ⟨name, href, hnames⟩
      cases hs : target.structure? with
      | some s =>
        have hs' : (target.replace σ).structure? = some (s.replace σ) := by
          rw [hσ.structure?_replace, hs, Option.map_some]
        rw [hσ.replace_ref_of_structure? href hnames hs, link?_ref href hnames,
          link?_ref href (hnames.replace hσ), hs, hs', hσ.record?_replace, Option.map_map]
        simp only [Function.comp_def, Structure.replace_name]
      | none =>
        -- A name that was passed leads to the reference, and the reference would lead back to it.
        have hfresh : name ∉ seen := by
          intro hmem
          have hends : t.Ends n := Acc.intro n hacc
          exact hends.not_transGen (TransGen.head' hopens (hseen name hmem target hnames))
        obtain ⟨key, hkey⟩ := hnames.exists_entry
        rw [hσ.replace_ref href hnames hs, link?_ref href hnames, hs]
        dsimp only
        rw [if_neg hfresh]
        refine ih target hopens (.of_get? hkey) fun other hother target' hnames' => ?_
        rcases List.mem_cons.1 hother with rfl | hother
        · obtain rfl := hnames.unique hnames'
          exact .refl
        · exact hnext hopens other hother target' hnames'
    | none =>
      obtain ⟨position, notes, kind⟩ := n
      have hreplace : (⟨position, notes, kind⟩ : Node).replace σ =
          ⟨position, notes, kind.mapTypes (Node.replace σ)⟩ := Node.replace_eq href
      cases kind with
      | ref name => simp [Node.reference?] at href
      | scalar | text | replication | holder | projection | message =>
        rw [hreplace, Kind.mapTypes, link?, link?]
        all_goals simp
      | record s =>
        rw [hreplace, Kind.mapTypes, link?, link?]
        rfl
      | list element | maybe element =>
        rw [hreplace, Kind.mapTypes, link?, link?, hpart element (by simp [Node.parts])]
      | lazy computed =>
        rw [hreplace, Kind.mapTypes, link?, link?, hpart computed (by simp [Node.parts])]
      | map domain range =>
        rw [hreplace, Kind.mapTypes, link?, link?, hpart range (by simp [Node.parts])]
      | table name =>
        obtain ⟨s, hs⟩ := ht.exists_rows hn rfl
        rw [hreplace, Kind.mapTypes, link?, link?, followRecord?_eq_some_iff.2 hs,
          followRecord?_eq_some_iff.2 (hs.replace hσ)]
        rfl

end WellFormed

end Table

end ReactiveSpace
