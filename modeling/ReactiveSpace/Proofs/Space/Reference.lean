import Mathlib.Logic.Relation
import ReactiveSpace.Check.Resolve

/-!
# What references come down to

`Table.ComesTo` is the relation between a type and what it stands for in the end: a type that is no
reference stands for itself, and a reference stands for what the node declared under its name stands
for. A name is related to its target by `Table.Names`. Following a type finds exactly this target
(`follow?_eq_some_iff`, `followName?_eq_some_iff`): a chain of names that ends never passes one name
twice, so the names already seen do not cut it off.
-/

namespace ReactiveSpace

open Relation

/-- What can be followed backwards only for a while is not followed by itself. -/
theorem not_transGen_of_acc {α : Type} {r : α → α → Prop} {a : α} (h : Acc (fun b a => r a b) a) :
    ¬ TransGen r a a := by
  have hacc := h.transGen
  clear h
  intro hcycle
  induction hacc with
  | intro x _ ih => exact ih x (transGen_swap.1 hcycle) hcycle

/-- A node is a reference if it is written as one. -/
theorem Node.reference?_eq_some_iff {n : Node} {name : String} :
    n.reference? = some name ↔ n.kind = .ref name := by
  unfold reference?
  split
  · simp_all
  · rename_i h
    exact iff_of_false (by simp) (h name)

theorem Node.reference?_eq_none_iff {n : Node} :
    n.reference? = none ↔ ∀ name, n.kind ≠ .ref name := by
  rw [Option.eq_none_iff_forall_ne_some]
  simp [reference?_eq_some_iff]

/-- A node that is no record and no message has no structure. -/
theorem Node.structure?_eq_none {n : Node} (hrecord : ∀ s, n.kind ≠ .record s)
    (hmessage : ∀ s, n.kind ≠ .message s) : n.structure? = none := by
  unfold structure?
  cases hk : n.kind with
  | record s => exact absurd hk (hrecord s)
  | message s => exact absurd hk (hmessage s)
  | _ => rfl

namespace Table

/-- The type `target` is what a type stands for in the end. -/
inductive ComesTo (t : Table) : Node → Node → Prop
  | self {n : Node} : n.reference? = none → ComesTo t n n
  | step {n next target : Node} {name : String} :
    n.reference? = some name → t.get? name = some next → ComesTo t next target → ComesTo t n target

/-- The type `target` is what a name stands for in the end. -/
def Names (t : Table) (name : String) (target : Node) : Prop :=
  ∃ node, t.get? name = some node ∧ t.ComesTo node target

variable {t : Table} {n target : Node} {name : String}

theorem ComesTo.reference?_eq_none (h : t.ComesTo n target) : target.reference? = none := by
  induction h with
  | self h => exact h
  | step _ _ _ ih => exact ih

theorem Names.reference?_eq_none (h : t.Names name target) : target.reference? = none := by
  obtain ⟨_, -, hnode⟩ := h
  exact hnode.reference?_eq_none

/-- A reference comes to what its name stands for. -/
theorem comesTo_iff_names (hn : n.reference? = some name) :
    t.ComesTo n target ↔ t.Names name target := by
  constructor
  · intro h
    cases h with
    | self hself => simp [hn] at hself
    | step hname hget hnext =>
      rw [hn, Option.some.injEq] at hname
      exact ⟨_, hname ▸ hget, hnext⟩
  · rintro ⟨node, hget, hnode⟩
    exact .step hn hget hnode

/-- A type that is no reference comes to itself alone. -/
theorem comesTo_iff_eq (hn : n.reference? = none) : t.ComesTo n target ↔ target = n := by
  constructor
  · intro h
    cases h with
    | self _ => rfl
    | step hname _ _ => simp [hn] at hname
  · rintro rfl
    exact .self hn

/-! ### Chains of names -/

/-- The name `next` is what `name` was declared to stand for. -/
def Next (t : Table) (name next : String) : Prop :=
  ∃ node, t.get? name = some node ∧ node.reference? = some next

/-- A chain of names that ends does not come back to where it was. -/
theorem Names.acc (h : t.Names name target) : Acc (fun b a => t.Next a b) name := by
  obtain ⟨node, hget, hnode⟩ := h
  induction hnode generalizing name with
  | self hself =>
    -- The entry is no reference, so no name follows.
    refine Acc.intro _ fun next hnext => ?_
    obtain ⟨node', hget', href⟩ := hnext
    rw [hget, Option.some.injEq] at hget'
    simp [← hget', hself] at href
  | step hname hnext _ ih =>
    refine Acc.intro _ fun next hstep => ?_
    obtain ⟨node', hget', href⟩ := hstep
    rw [hget, Option.some.injEq] at hget'
    rw [← hget', hname, Option.some.injEq] at href
    exact ih (href ▸ hnext)

/-- A name with a target does not lead back to itself. -/
theorem Names.not_transGen (h : t.Names name target) : ¬ TransGen t.Next name name :=
  not_transGen_of_acc h.acc

/-- The step of a resolution at a declared name that was not passed before. -/
theorem resolveFrom_of_get? {seen : List String} {node : Node} (hfresh : name ∉ seen)
    (hget : t.get? name = some node) :
    t.resolveFrom seen name =
      match node.kind with
      | .record _ => .ok (.record name)
      | .message _ => .ok (.message name)
      | .ref next => t.resolveFrom (name :: seen) next
      | _ => .ok (.aliased name) := by
  rw [resolveFrom, dif_neg hfresh]
  split
  · rename_i hnone
    simp [hget] at hnone
  · rename_i node' hget'
    obtain rfl := Option.some.inj (hget.symm.trans hget')
    rfl

/-- The names after `seen` are found, if none of those leads back. -/
theorem resolveFrom_of_names {seen : List String} (h : t.Names name target)
    (hseen : ∀ a ∈ seen, TransGen t.Next a name) :
    ∃ r, t.resolveFrom seen name = .ok r ∧ t.target? r = some target := by
  have hfresh : name ∉ seen := fun hm => h.not_transGen (hseen name hm)
  obtain ⟨node, hget, hnode⟩ := h
  -- The induction follows the chain, while the names seen grow by those it has passed.
  induction hnode generalizing name seen with
  | @self node hself =>
    rw [resolveFrom_of_get? hfresh hget]
    cases hk : node.kind with
    | ref next => simp [Node.reference?, hk] at hself
    | _ => exact ⟨_, rfl, hget⟩
  | @step node next target ref hname hnext hrest ih =>
    have hstep : t.Next name ref := ⟨_, hget, hname⟩
    have hnames : t.Names ref target := ⟨next, hnext, hrest⟩
    have hseen' : ∀ a ∈ name :: seen, TransGen t.Next a ref := by
      intro a ha
      rcases List.mem_cons.1 ha with rfl | ha
      · exact TransGen.single hstep
      · exact (hseen a ha).tail hstep
    rw [resolveFrom_of_get? hfresh hget, Node.reference?_eq_some_iff.1 hname]
    exact ih hseen' (fun hm => hnames.not_transGen (hseen' ref hm)) hnext

/-- What is found is the last entry of the chain of names, told apart by its kind. -/
theorem names_of_resolveFrom {seen : List String} {r : Resolution}
    (h : t.resolveFrom seen name = .ok r) :
    ∃ key target, t.get? key = some target ∧ t.target? r = some target ∧ t.Names name target ∧
      ((∃ s, target.kind = .record s ∧ r = .record key) ∨
        (∃ s, target.kind = .message s ∧ r = .message key) ∨
        target.structure? = none ∧ r = .aliased key) := by
  fun_induction resolveFrom t seen name with
  | case1 => simp at h
  | case2 => simp at h
  | case3 seen name hs node hg s hk =>
    obtain rfl : Resolution.record name = r := by simpa using h
    refine ⟨name, node, hg, hg, ⟨node, hg, .self ?_⟩, Or.inl ⟨s, hk, rfl⟩⟩
    exact Node.reference?_eq_none_iff.2 (by simp [hk])
  | case4 seen name hs node hg s hk =>
    obtain rfl : Resolution.message name = r := by simpa using h
    refine ⟨name, node, hg, hg, ⟨node, hg, .self ?_⟩, Or.inr (Or.inl ⟨s, hk, rfl⟩)⟩
    exact Node.reference?_eq_none_iff.2 (by simp [hk])
  -- A reference has the target of the name it leads to.
  | case5 seen name hs node hg next hk ih =>
    obtain ⟨key, target, hkey, htarget, ⟨node', hget, hcomes⟩, hcases⟩ := ih h
    refine ⟨key, target, hkey, htarget, ⟨node, hg, ?_⟩, hcases⟩
    exact .step (Node.reference?_eq_some_iff.2 hk) hget hcomes
  | case6 seen name hs node hg hrecord hmessage href =>
    obtain rfl : Resolution.aliased name = r := by simpa using h
    refine ⟨name, node, hg, hg, ⟨node, hg, .self (Node.reference?_eq_none_iff.2 href)⟩, ?_⟩
    refine Or.inr (Or.inr ⟨?_, rfl⟩)
    exact Node.structure?_eq_none hrecord hmessage

/-! ### Following -/

/-- A name resolves to its target and to nothing else. -/
theorem resolve_eq_ok_iff_names : (∃ r, t.resolve name = .ok r ∧ t.target? r = some target) ↔
    t.Names name target := by
  constructor
  · rintro ⟨r, hr, htarget⟩
    obtain ⟨key, target', -, htarget', hnames, -⟩ := names_of_resolveFrom hr
    rw [htarget, Option.some.injEq] at htarget'
    exact htarget' ▸ hnames
  · intro h
    exact resolveFrom_of_names h (by simp)

/-- Either resolving a name fails and it stands for nothing, or it gives what the name stands
for. -/
theorem resolve_cases (t : Table) (name : String) :
    (∃ e, t.resolve name = .error e ∧ ∀ target, ¬ t.Names name target) ∨
      ∃ r target, t.resolve name = .ok r ∧ t.target? r = some target ∧ t.Names name target := by
  cases hr : t.resolve name with
  | error e =>
    refine Or.inl ⟨e, rfl, fun target hnames => ?_⟩
    obtain ⟨r, hok, -⟩ := resolve_eq_ok_iff_names.2 hnames
    simp [hr] at hok
  | ok r =>
    obtain ⟨key, target, -, htarget, hnames, -⟩ := names_of_resolveFrom hr
    exact Or.inr ⟨r, target, rfl, htarget, hnames⟩

theorem followName?_eq_some_iff : t.followName? name = some target ↔ t.Names name target := by
  rw [← resolve_eq_ok_iff_names]
  unfold followName?
  cases t.resolve name <;> simp

/-- Following a type finds what it comes to. -/
theorem follow?_eq_some_iff : t.follow? n = some target ↔ t.ComesTo n target := by
  unfold follow?
  split
  · rename_i name hk
    rw [followName?_eq_some_iff, comesTo_iff_names (Node.reference?_eq_some_iff.2 hk)]
  · rename_i hk
    rw [comesTo_iff_eq (Node.reference?_eq_none_iff.2 hk), Option.some.injEq, eq_comm]

theorem ComesTo.unique {other : Node} (h : t.ComesTo n target) (h' : t.ComesTo n other) :
    target = other := by
  rw [← follow?_eq_some_iff] at h h'
  rw [h, Option.some.injEq] at h'
  exact h'

theorem Names.unique {other : Node} (h : t.Names name target) (h' : t.Names name other) :
    target = other := by
  rw [← followName?_eq_some_iff] at h h'
  rw [h, Option.some.injEq] at h'
  exact h'

/-- What a name stands for is an entry of the table. -/
theorem Names.exists_entry (h : t.Names name target) : ∃ key, t.get? key = some target := by
  obtain ⟨r, -, htarget⟩ := resolve_eq_ok_iff_names.2 h
  cases r with
  | record key => exact ⟨key, htarget⟩
  | message key => exact ⟨key, htarget⟩
  | aliased key => exact ⟨key, htarget⟩
  | projection => simp [target?] at htarget

end Table

end ReactiveSpace
