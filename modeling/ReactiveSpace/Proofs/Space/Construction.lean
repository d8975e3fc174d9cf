import Mathlib.Data.Set.Finite.List
import Mathlib.Logic.Function.Iterate
import Mathlib.Order.Preorder.Finite
import Mathlib.Tactic.Choose
import Mathlib.Tactic.Set
import ReactiveSpace.Proofs.Space.Checking

/-!
# When structures can be built

A structure that embeds a second one, which embeds a third, and so on without end can never be
built. Checking looks for this in the graph of embeddings, which has an edge only for a record that
a record of the table embeds (`Table.Tracked`); it has none for what a message, an inline structure
or a record with the name of a later one embeds. So a space without diagnostics is free of endless
embeddings exactly when no embedding without an edge lies on a cycle
(`Declarations.no_endless_embedding_iff`).

An endless chain comes back to an entry of the table again and again, because an inline structure is
smaller than the one around it. There are finitely many entries, so the chain closes a cycle
(`Table.exists_cycle`); if all its embeddings have edges, the cycle is one of the graph.
-/

namespace ReactiveSpace

open Relation

namespace Table

variable {t : Table} {s r : Structure Node}

/-- The graph of embeddings has an edge for this embedding. -/
def Tracked (t : Table) (s r : Structure Node) : Prop :=
  t.Latest s ∧ t.EmbedsRecord s r

theorem Occurs.embeds (hs : t.Occurs (.body s)) (h : t.Embeds s r) : t.Occurs (.body r) := by
  obtain ⟨f, hf, target, hcomes, hr⟩ := h
  have hmem : f.type ∈ s.types := List.mem_append_left _ (List.mem_map_of_mem hf)
  rcases hcomes.eq_or_occurs with rfl | htarget
  · exact .body (.member hs hmem) hr
  · exact .body htarget hr

/-- What a structure embeds is inside of it or an entry of the table. -/
theorem Embeds.sizeOf_lt_or_mem (h : t.Embeds s r) :
    sizeOf r < sizeOf s ∨ r ∈ t.entries.filterMap fun e => e.2.structure? := by
  obtain ⟨f, hf, target, hcomes, hr⟩ := h
  cases href : f.type.reference? with
  | none =>
    rw [comesTo_iff_eq href] at hcomes
    have hmem : f.type ∈ s.types := List.mem_append_left _ (List.mem_map_of_mem hf)
    have hsize := Structure.sizeOf_lt_of_mem_types hmem
    have hinner := Node.sizeOf_lt_of_structure? hr
    rw [hcomes] at hinner
    exact Or.inl (hinner.trans hsize)
  | some name =>
    obtain ⟨key, hkey⟩ := ((comesTo_iff_names href).1 hcomes).exists_entry
    exact Or.inr (List.mem_filterMap.2 ⟨_, Keyed.mem_of_get? hkey, hr⟩)

/-! ### Chains -/

section Chain

variable {chain : ℕ → Structure Node} (hchain : ∀ i, t.Embeds (chain i) (chain (i + 1)))
include hchain

/-- A chain comes to an entry of the table after every place. -/
theorem exists_entry_after (i : ℕ) :
    ∃ j > i, chain j ∈ t.entries.filterMap fun e => e.2.structure? := by
  induction hsize : sizeOf (chain i) using Nat.strong_induction_on generalizing i with
  | _ size ih =>
    rcases (hchain i).sizeOf_lt_or_mem with hlt | hmem
    · obtain ⟨j, hj, hentry⟩ := ih _ (hsize ▸ hlt) (i + 1) rfl
      exact ⟨j, by omega, hentry⟩
    · exact ⟨i + 1, by omega, hmem⟩

/-- A chain comes to one structure twice. -/
theorem exists_cycle : ∃ i j, i < j ∧ chain i = chain j := by
  set entries := t.entries.filterMap fun e => e.2.structure?
  have hinfinite : {i | chain i ∈ entries}.Infinite :=
    Set.infinite_of_forall_exists_gt fun i =>
      (exists_entry_after hchain i).imp fun j hj => ⟨hj.2, hj.1⟩
  have hmaps : Set.MapsTo chain {i | chain i ∈ entries} {s | s ∈ entries} := fun i hi => hi
  obtain ⟨i, -, j, -, hne, heq⟩ :=
    hinfinite.exists_ne_map_eq_of_mapsTo hmaps (List.finite_toSet entries)
  rcases Nat.lt_or_gt_of_ne hne with hlt | hgt
  · exact ⟨i, j, hlt, heq⟩
  · exact ⟨j, i, hgt, heq.symm⟩

theorem reflTransGen_of_le {i j : ℕ} (hij : i ≤ j) : ReflTransGen t.Embeds (chain i) (chain j) := by
  induction j, hij using Nat.le_induction with
  | base => exact .refl
  | succ j _ ih => exact ih.tail (hchain j)

omit hchain in
/-- Where all embeddings have edges, the names are connected in the graph. -/
theorem transGen_embedsName {i j : ℕ} (hij : i < j)
    (htracked : ∀ k, i ≤ k → k < j → t.Tracked (chain k) (chain (k + 1))) :
    TransGen t.EmbedsName (chain i).name (chain j).name := by
  have hedge : ∀ k, i ≤ k → k < j → t.EmbedsName (chain k).name (chain (k + 1)).name := by
    intro k hik hkj
    obtain ⟨hlatest, hembeds⟩ := htracked k hik hkj
    exact ⟨chain k, chain (k + 1), hlatest, rfl, hembeds, rfl⟩
  induction j, hij using Nat.le_induction with
  | base => exact .single (hedge i le_rfl (Nat.lt_succ_self i))
  | succ j hle ih =>
    have hprefix := ih (fun k hik hkj => htracked k hik (by omega)) fun k hik hkj =>
      hedge k hik (by omega)
    exact hprefix.tail (hedge j (by omega) (Nat.lt_succ_self j))

end Chain

/-- A cycle can be run through without end. -/
theorem exists_chain_of_transGen (h : TransGen t.Embeds s s) :
    ∃ chain : ℕ → Structure Node, chain 0 = s ∧ ∀ i, t.Embeds (chain i) (chain (i + 1)) := by
  have hnext : ∀ a : { a // ReflTransGen t.Embeds a s }, ∃ b : { b // ReflTransGen t.Embeds b s },
      t.Embeds a b := by
    rintro ⟨a, ha⟩
    -- From `s` itself the way goes round once more.
    rcases ha.cases_head with rfl | ⟨b, hab, hb⟩
    · obtain ⟨b, hab, hb⟩ := TransGen.head'_iff.1 h
      exact ⟨⟨b, hb⟩, hab⟩
    · exact ⟨⟨b, hb⟩, hab⟩
  choose next hnext using hnext
  refine ⟨fun i => (next^[i] ⟨s, .refl⟩).1, rfl, fun i => ?_⟩
  simp only [Function.iterate_succ_apply']
  exact hnext _

end Table

namespace Declarations

/-- A space without diagnostics has no endless embeddings exactly when no embedding that the graph
has no edge for lies on a cycle. -/
theorem no_endless_embedding_iff {d : Declarations} (h : d.check.isDeployable = true) :
    (¬ ∃ chain : ℕ → Structure Node, d.check.table.Occurs (.body (chain 0)) ∧
        ∀ i, d.check.table.Embeds (chain i) (chain (i + 1))) ↔
      ∀ s r, d.check.table.Occurs (.body s) → d.check.table.Embeds s r →
        ¬ d.check.table.Tracked s r → ¬ ReflTransGen d.check.table.Embeds r s := by
  have hacyclic := (wellFormed_of_isDeployable h).constructible
  constructor
  · intro hendless s r hs hsr _ hrs
    obtain ⟨chain, rfl, hchain⟩ := Table.exists_chain_of_transGen (TransGen.head' hsr hrs)
    exact hendless ⟨chain, hs, hchain⟩
  · rintro huntracked ⟨chain, hstart, hchain⟩
    obtain ⟨i, j, hij, heq⟩ := Table.exists_cycle hchain
    have hoccurs : ∀ k, d.check.table.Occurs (.body (chain k)) := by
      intro k
      induction k with
      | zero => exact hstart
      | succ k ih => exact ih.embeds (hchain k)
    have htracked : ∀ k, i ≤ k → k < j → d.check.table.Tracked (chain k) (chain (k + 1)) := by
      intro k hik hkj
      refine Classical.not_not.1 fun hnot => ?_
      refine huntracked _ _ (hoccurs k) (hchain k) hnot ?_
      -- On from the embedding to the end of the cycle, and from its start back to the embedding.
      have hon := Table.reflTransGen_of_le hchain (Nat.succ_le_of_lt hkj)
      rw [← heq] at hon
      exact hon.trans (Table.reflTransGen_of_le hchain hik)
    refine hacyclic (chain i).name ?_
    have hcycle := Table.transGen_embedsName hij htracked
    rwa [← heq] at hcycle

/-- The inline record `B`, which holds the record `A`. -/
def innerRecord : Structure Node where
  name := "B"
  fields := [{ name := "id", type := .ofScalar .int }, { name := "a", type := .ofKind (.ref "A") }]

/-- The record `A`, which holds `B` inline. -/
def outerRecord : Structure Node where
  name := "A"
  fields := [{ name := "id", type := .ofScalar .int },
    { name := "b", type := .ofRecord innerRecord }]

/-- A record that holds itself inside of an inline record can never be built, and is deployable. -/
theorem endless_embedding_of_inline :
    let d : Declarations := { space := "s", records := [outerRecord] }
    d.check.isDeployable = true ∧
      ∃ chain : ℕ → Structure Node, d.check.table.Occurs (.body (chain 0)) ∧
        ∀ i, d.check.table.Embeds (chain i) (chain (i + 1)) := by
  intro d
  have hd : d.check.isDeployable = true :=
    isDeployable_of_isEmpty (by decide) (by decide +kernel +zetaReduce) (by cbv)
  have htable : d.check.table = d.table (by decide) := table_draft _
  have hentry : d.check.table.get? "A" = some (.ofRecord outerRecord) := by
    rw [htable]
    rfl
  have houter : d.check.table.Embeds outerRecord innerRecord :=
    ⟨_, List.mem_cons_of_mem _ List.mem_cons_self, _, .self rfl, rfl⟩
  have hinner : d.check.table.Embeds innerRecord outerRecord :=
    ⟨_, List.mem_cons_of_mem _ List.mem_cons_self, _, .step rfl hentry (.self rfl), rfl⟩
  have hoccurs : d.check.table.Occurs (.body innerRecord) :=
    Table.Occurs.embeds (.body (.of_get? hentry) rfl) houter
  -- The graph knows `A` only, and so has no edge for what `B` embeds.
  have huntracked : ¬ d.check.table.Tracked innerRecord outerRecord := by
    rintro ⟨hlatest, -⟩
    have hmem := hlatest.mem_records
    rw [htable] at hmem
    have heq : innerRecord = outerRecord := List.mem_singleton.1 hmem
    exact absurd (congrArg Structure.name heq) (by decide)
  refine ⟨hd, Classical.not_not.1 fun hnone => ?_⟩
  exact (no_endless_embedding_iff hd).1 hnone innerRecord outerRecord hoccurs hinner huntracked
    (.single houter)

end Declarations

end ReactiveSpace
