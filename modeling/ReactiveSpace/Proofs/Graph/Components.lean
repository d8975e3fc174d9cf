import Mathlib.Data.List.Flatten
import Mathlib.Data.List.Nodup
import ReactiveSpace.Proofs.Graph.Search

/-!
# Components of a graph

The components that the search finds are a partition of the names into the classes of names that
reach each other (`components_partition`). A graph has no cycles to report exactly when no name
leads back to itself (`cycles_eq_nil_iff`), and the names in its cycles are those that do
(`cycles_exact`).
-/

namespace ReactiveSpace.Graph

open Relation

/-! ### The partition -/

/-- No name is in two components, nor twice in one. -/
theorem nodup_flatten_components (g : Graph) : g.components.flatten.Nodup := by
  have h := (sound_search g).nodup
  rw [stack_search g, List.nil_append] at h
  exact h

/-- The names that occur among the components are those of the graph. -/
theorem mem_flatten_components {g : Graph} {n : String} :
    n ∈ g.components.flatten ↔ n ∈ g.names := by
  have h := (sound_search g).entered_iff n
  rw [mem_entered_search, stack_search] at h
  simpa [components] using h.symm

/-- A component is the class of each of its names. -/
theorem mem_component_iff {g : Graph} {c : List String} (hc : c ∈ g.components) {a : String}
    (ha : a ∈ c) {b : String} : b ∈ c ↔ g.Reaches a b ∧ g.Reaches b a :=
  ((sound_search g).classes c hc).2 a ha b

theorem component_ne_nil {g : Graph} {c : List String} (hc : c ∈ g.components) : c ≠ [] :=
  ((sound_search g).classes c hc).1

theorem mem_names_of_mem_component {g : Graph} {c : List String} (hc : c ∈ g.components)
    {a : String} (ha : a ∈ c) : a ∈ g.names :=
  mem_flatten_components.1 (List.mem_flatten.2 ⟨c, hc, ha⟩)

theorem exists_component {g : Graph} {a : String} (ha : a ∈ g.names) :
    ∃ c ∈ g.components, a ∈ c :=
  List.mem_flatten.1 (mem_flatten_components.2 ha)

/-- **Components**: they hold every name of the graph exactly once and nothing else, none of them is
empty, and two names are in one component exactly when each reaches the other. -/
theorem components_partition (g : Graph) :
    (∀ n, g.components.flatten.count n = if n ∈ g.names then 1 else 0) ∧
      (∀ c ∈ g.components, c ≠ []) ∧
      ∀ a b, (∃ c ∈ g.components, a ∈ c ∧ b ∈ c) ↔
        a ∈ g.names ∧ b ∈ g.names ∧ g.Reaches a b ∧ g.Reaches b a := by
  refine ⟨?_, fun c => component_ne_nil, ?_⟩
  · intro n
    rw [(nodup_flatten_components g).count]
    simp only [mem_flatten_components]
  · intro a b
    constructor
    · rintro ⟨c, hc, ha, hb⟩
      exact ⟨mem_names_of_mem_component hc ha, mem_names_of_mem_component hc hb,
        (mem_component_iff hc ha).1 hb⟩
    · rintro ⟨ha, -, hab⟩
      obtain ⟨c, hc, hac⟩ := exists_component ha
      exact ⟨c, hc, hac, (mem_component_iff hc hac).2 hab⟩

/-- A diamond with a way back and a target that is no name: one component of three names comes out
after the name they lead to. -/
example : Graph.components
    ⟨[("a", ["b", "c"]), ("b", ["d"]), ("c", ["a", "gone"]), ("d", ["d"]), ("e", ["a"])]⟩ =
      [["d"], ["b"], ["a", "c"], ["e"]] := by
  cbv

/-! ### Cycles -/

/-- What leads on is a name of the graph. -/
theorem Leads.mem_names_left {g : Graph} {a b : String} (h : g.Leads a b) : a ∈ g.names := by
  obtain ⟨targets, ht, -⟩ := h
  refine Classical.not_not.1 fun hn => ?_
  rw [targets?, (Keyed.get?_eq_none_iff a g.edges).2 hn] at ht
  exact absurd ht (by simp)

/-- A component that is not reported is a single name that does not lead to itself. -/
theorem mem_cycles_iff {g : Graph} {c : List String} :
    c ∈ g.cycles ↔ c ∈ g.components ∧ ∀ a, c = [a] → g.Leads a a := by
  unfold cycles
  rw [List.mem_filter]
  refine and_congr_right fun _ => ?_
  split
  · rename_i single
    simp [mem_next_iff]
  · rename_i hne
    refine iff_of_true rfl fun a ha => ?_
    exact absurd ha (hne a)

/-- A name is in a cycle that is reported exactly when a path that is not empty leads from it back
to it. -/
theorem exists_cycle_iff {g : Graph} {n : String} :
    (∃ c ∈ g.cycles, n ∈ c) ↔ TransGen g.Leads n n := by
  constructor
  · rintro ⟨c, hc, hnc⟩
    obtain ⟨hcc, hself⟩ := mem_cycles_iff.1 hc
    by_cases hsingle : c = [n]
    · exact TransGen.single (hself n hsingle)
    · -- Another name of the component lies on a path that is not empty.
      have hnodup : c.Nodup := (List.nodup_flatten.1 (nodup_flatten_components g)).1 c hcc
      obtain ⟨m, hmc, hmn⟩ :=
        ((hnodup.ne_singleton_iff n).1 hsingle).resolve_left (List.ne_nil_of_mem hnc)
      obtain ⟨hnm, hmn'⟩ := (mem_component_iff hcc hnc).1 hmc
      rcases reflTransGen_iff_eq_or_transGen.1 hnm with heq | hnm
      · exact absurd heq hmn
      · exact hnm.trans_left hmn'
  · intro h
    obtain ⟨m, hnm, hmn⟩ := TransGen.head'_iff.1 h
    obtain ⟨c, hc, hnc⟩ := exists_component hnm.mem_names_left
    refine ⟨c, mem_cycles_iff.2 ⟨hc, fun a hca => ?_⟩, hnc⟩
    -- In a component of one name, the next name on the way back is that name.
    have hmc : m ∈ c := (mem_component_iff hc hnc).2 ⟨ReflTransGen.single hnm, hmn⟩
    rw [hca, List.mem_singleton] at hnc hmc
    rw [hnc, hmc] at hnm
    exact hnm

/-- A graph has no cycles to report exactly when no name leads back to itself. -/
theorem cycles_eq_nil_iff {g : Graph} : g.cycles = [] ↔ ∀ n, ¬ TransGen g.Leads n n := by
  simp only [← exists_cycle_iff, List.eq_nil_iff_forall_not_mem]
  constructor
  · rintro h n ⟨c, hc, -⟩
    exact h c hc
  · intro h c hc
    obtain ⟨n, hn⟩ := List.exists_mem_of_ne_nil c (component_ne_nil (mem_cycles_iff.1 hc).1)
    exact h n ⟨c, hc, hn⟩

/-- **Cycles**: the names in them are those from which a path that is not empty leads back, none of
them twice, and there are no cycles exactly when the graph is acyclic. -/
theorem cycles_exact (g : Graph) :
    (∀ n, (∃ c ∈ g.cycles, n ∈ c) ↔ TransGen g.Leads n n) ∧ g.cycles.flatten.Nodup ∧
      (g.cycles = [] ↔ ∀ n, ¬ TransGen g.Leads n n) := by
  refine ⟨fun n => exists_cycle_iff, ?_, cycles_eq_nil_iff⟩
  have hsub : g.cycles.Sublist g.components := List.filter_sublist
  exact hsub.flatten.nodup (nodup_flatten_components g)

/-- A loop, a cycle of two, a name that only leads into it and a target that is no name. -/
example : Graph.cycles
    ⟨[("a", ["b"]), ("b", ["a", "gone"]), ("c", ["a"]), ("d", ["d"])]⟩ = [["a", "b"], ["d"]] := by
  cbv

end ReactiveSpace.Graph
