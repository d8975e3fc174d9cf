import ReactiveSpace.Proofs.Graph.Components

/-!
# Dependencies come first

The search lets a component out only after every component that it leads to. So along an edge the
place of the component never grows (`place_le_of_leads`), and neither does it along a path
(`place_le_of_reaches`). In the ordering of all names, a name that leads to a later one is therefore
reached from it in turn (`pairwise_ordering`), and what another name depends on stands before it
unless the two depend on each other (`dependencies_come_first`).
-/

namespace ReactiveSpace.Graph

open Relation

variable {g : Graph} {a b : String} {i j : Nat} {c d : List String}

/-! ### Places of components -/

/-- An edge leads to the same component or to one that came out before. -/
theorem place_le_of_leads (h : g.Leads a b) (hi : g.components[i]? = some c)
    (hj : g.components[j]? = some d) (ha : a ∈ c) (hb : b ∈ d) : j ≤ i := by
  obtain ⟨hilt, rfl⟩ := List.getElem?_eq_some_iff.1 hi
  obtain ⟨hjlt, rfl⟩ := List.getElem?_eq_some_iff.1 hj
  by_contra hlt
  have hordered := List.pairwise_iff_getElem.1 (sound_search g).ordered
  exact hordered i j hilt hjlt (Nat.lt_of_not_le hlt) a ha b hb h

/-- A name is in one component only. -/
theorem place_unique (hi : g.components[i]? = some c) (hj : g.components[j]? = some d)
    (hc : a ∈ c) (hd : a ∈ d) : i = j := by
  obtain ⟨hilt, rfl⟩ := List.getElem?_eq_some_iff.1 hi
  obtain ⟨hjlt, rfl⟩ := List.getElem?_eq_some_iff.1 hj
  have hdisjoint := List.pairwise_iff_getElem.1
    (List.nodup_flatten.1 (nodup_flatten_components g)).2
  rcases Nat.lt_trichotomy i j with hlt | heq | hgt
  · exact absurd hd (hdisjoint i j hilt hjlt hlt hc)
  · exact heq
  · exact absurd hc (hdisjoint j i hjlt hilt hgt hd)

/-- A path leads to the same component or to one that came out before. -/
theorem place_le_of_reaches (h : g.Reaches a b) (hi : g.components[i]? = some c)
    (hj : g.components[j]? = some d) (ha : a ∈ c) (hb : b ∈ d) : j ≤ i := by
  induction h generalizing j d with
  | refl => exact Nat.le_of_eq (place_unique hj hi hb ha)
  | @tail m b _ hmb ih =>
    -- The last edge starts at a name of the graph, which has a component of its own.
    obtain ⟨e, he, hme⟩ := exists_component hmb.mem_names_left
    obtain ⟨k, hk⟩ := List.mem_iff_getElem?.1 he
    exact Nat.le_trans (place_le_of_leads hmb hk hj hme hb) (ih hk hme)

/-! ### The ordering -/

/-- A name that reaches a later one in the ordering is reached from it. -/
theorem pairwise_ordering (g : Graph) :
    g.ordering.Pairwise fun a b => g.Reaches a b → g.Reaches b a := by
  refine List.pairwise_flatten.2 ⟨fun c hc => ?_, ?_⟩
  · refine List.pairwise_of_forall_mem_list fun a ha b hb _ => ?_
    exact ((mem_component_iff hc ha).1 hb).2
  · refine List.pairwise_iff_getElem.2 fun i j hi hj hlt a ha b hb hab => ?_
    have hle := place_le_of_reaches hab (List.getElem?_eq_getElem hi)
      (List.getElem?_eq_getElem hj) ha hb
    exact absurd hlt (Nat.not_lt.2 hle)

/-- What a name reaches stands before it, unless the name is reached in turn. -/
theorem lt_of_reaches (hi : g.ordering[i]? = some b) (hj : g.ordering[j]? = some a)
    (hab : g.Reaches a b) (hba : ¬ g.Reaches b a) : i < j := by
  obtain ⟨hilt, rfl⟩ := List.getElem?_eq_some_iff.1 hi
  obtain ⟨hjlt, rfl⟩ := List.getElem?_eq_some_iff.1 hj
  rcases Nat.lt_trichotomy i j with hlt | rfl | hgt
  · exact hlt
  · exact absurd ReflTransGen.refl hba
  · have hback := List.pairwise_iff_getElem.1 (pairwise_ordering g) j i hjlt hilt hgt hab
    exact absurd hback hba

/-- **Dependencies come first.** No edge leads to a component that comes out later than its own. In
the ordering, whatever a name depends on stands before it, directly or through other names, unless
it depends on that name too. -/
theorem dependencies_come_first (g : Graph) :
    (∀ a b, g.Leads a b → ∀ (i j : Nat) c d, g.components[i]? = some c → g.components[j]? = some d →
      a ∈ c → b ∈ d → j ≤ i) ∧
    ∀ a b, TransGen g.Leads a b → ¬ TransGen g.Leads b a →
      a ∈ g.ordering ∧ b ∈ g.ordering ∧
        ∀ i j : Nat, g.ordering[i]? = some b → g.ordering[j]? = some a → i < j := by
  refine ⟨fun a b hab i j c d hi hj ha hb => place_le_of_leads hab hi hj ha hb, ?_⟩
  intro a b hab hba
  obtain ⟨m, ham, -⟩ := TransGen.head'_iff.1 hab
  obtain ⟨n, -, hnb⟩ := TransGen.tail'_iff.1 hab
  refine ⟨mem_flatten_components.2 ham.mem_names_left,
    mem_flatten_components.2 hnb.mem_names_right, fun i j hi hj => ?_⟩
  refine lt_of_reaches hi hj hab.to_reflTransGen fun hreach => ?_
  -- The empty path back would make the two names one, which depends on itself.
  rcases reflTransGen_iff_eq_or_transGen.1 hreach with heq | hback
  · exact hba (heq ▸ hab)
  · exact hba hback

end ReactiveSpace.Graph
