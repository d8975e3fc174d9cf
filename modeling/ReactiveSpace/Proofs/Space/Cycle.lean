import Mathlib.Data.List.Chain
import ReactiveSpace.Proofs.Space.Checking

/-!
# Reported cycles of embeddings

A cycle of embeddings is reported as a list of names, and the diagnostic prints arrows between them
and one from the last back to the first. The list is a *ring* when there is an edge for each arrow
(`Graph.Ring`). What is reported is a component in the order in which the search entered its names,
so each name is embedded by an earlier one, but not always by the one just before it: from a name
that leads to two others the search goes on with the first and comes back for the second.

By `Graph.Traced`, a name leads to the next of its component exactly when it leads to any later one
(`Graph.Traced.leads_next_iff`). Hence the list is a ring exactly when no name before the last is a
dead end in it and the last leads to the first (`Table.reported_cycle_iff`).
-/

namespace ReactiveSpace

open Relation

/-- The last step of a path to another place comes from a place that is not its end. -/
theorem exists_last_step {α : Type} {r : α → α → Prop} {a b : α} (h : ReflTransGen r a b)
    (hab : a ≠ b) : ∃ z, z ≠ b ∧ ReflTransGen r a z ∧ r z b := by
  induction h with
  | refl => exact absurd rfl hab
  | @tail z b haz hzb ih =>
    by_cases hz : z = b
    · subst hz
      exact ih hab
    · exact ⟨z, hz, haz, hzb⟩

namespace Graph

variable {g : Graph} {c : List String}

/-- Each name of the list leads to the next, and the last to the first. -/
def Ring (g : Graph) (c : List String) : Prop :=
  (c ++ c.take 1).IsChain g.Leads

theorem ring_iff :
    g.Ring c ↔ c.IsChain g.Leads ∧ ∀ a ∈ c.getLast?, ∀ b ∈ c.head?, g.Leads a b := by
  unfold Ring
  rw [List.isChain_append]
  cases c with
  | nil => simp
  | cons first rest => simp

/-! ### Names in the order of a search -/

/-- A name leads to the next in the order of a search exactly when it leads to any later one. -/
theorem Traced.leads_next_iff (h : g.Traced c) {front later : List String} {a b : String}
    (hc : c = front ++ a :: b :: later) : g.Leads a b ↔ ∃ y ∈ b :: later, g.Leads a y := by
  refine ⟨fun hab => ⟨b, List.mem_cons_self, hab⟩, ?_⟩
  rintro ⟨y, hy, hay⟩
  obtain ⟨front', x, between, hsplit, hxb, hbetween⟩ :=
    h (front ++ [a]) b later (by rw [hc, List.append_assoc]; rfl) (by simp)
  -- The next name was entered from the latest name that leads to it or on, which is `a`.
  rcases between.eq_nil_or_concat with rfl | ⟨between', z, rfl⟩
  · obtain ⟨-, rfl⟩ := List.append_inj' hsplit rfl |>.imp_right List.singleton_inj.1
    exact hxb
  · have hz : front ++ [a] = (front' ++ x :: between') ++ [z] := by simpa using hsplit
    obtain rfl : a = z := List.singleton_inj.1 (List.append_inj' hz rfl).2
    exact absurd hay (hbetween a (by simp) y hy)

theorem Traced.isChain_iff (h : g.Traced c) :
    c.IsChain g.Leads ↔ ∀ front a later, c = front ++ a :: later → later ≠ [] →
      ∃ b ∈ later, g.Leads a b := by
  rw [List.isChain_iff_forall_rel_of_append_cons_cons]
  constructor
  · rintro hchain front a (_ | ⟨b, later⟩) hc hne
    · exact absurd rfl hne
    · exact ⟨b, List.mem_cons_self, hchain hc⟩
  · intro hleads a b front later hc
    exact (h.leads_next_iff hc).2 (hleads front a (b :: later) hc (by simp))

theorem Traced.exists_earlier (h : g.Traced c) {front later : List String} {b : String}
    (hc : c = front ++ b :: later) (hne : front ≠ []) : ∃ a ∈ front, g.Leads a b := by
  obtain ⟨front', a, between, rfl, hab, -⟩ := h front b later hc hne
  exact ⟨a, by simp, hab⟩

/-! ### Cycles -/

theorem traced_of_mem_cycles (hc : c ∈ g.cycles) : g.Traced c :=
  (sound_search g).traced c (mem_cycles_iff.1 hc).1

/-- Each name of a cycle is led to by another one, unless it is the only one and leads to itself. -/
theorem exists_leads_of_mem_cycle (hc : c ∈ g.cycles) {a b : String} (ha : a ∈ c) (hb : b ∈ c)
    (hab : a ≠ b) : ∃ z ∈ c, z ≠ b ∧ g.Leads z b := by
  have hcc := (mem_cycles_iff.1 hc).1
  obtain ⟨z, hzb, haz, hz⟩ := exists_last_step ((mem_component_iff hcc ha).1 hb).1 hab
  have hba := ((mem_component_iff hcc ha).1 hb).2
  refine ⟨z, (mem_component_iff hcc ha).2 ⟨haz, ?_⟩, hzb, hz⟩
  exact ReflTransGen.head hz hba

/-- A cycle of at most two names is a ring. -/
theorem ring_of_length_le_two (hc : c ∈ g.cycles) (hlength : c.length ≤ 2) : g.Ring c := by
  have hcc := (mem_cycles_iff.1 hc).1
  have hnodup : c.Nodup := (List.nodup_flatten.1 (nodup_flatten_components g)).1 c hcc
  match c, hlength with
  | [], _ => exact absurd rfl (component_ne_nil hcc)
  | [a], _ =>
    have haa := (mem_cycles_iff.1 hc).2 a rfl
    simpa [Ring] using haa
  -- Each of the two is led to from the component without itself, that is from the other.
  | [a, b], _ =>
    have hne : a ≠ b := by simpa using hnodup
    obtain ⟨z, hz, hzb, hleads⟩ := exists_leads_of_mem_cycle hc (by simp) (by simp) hne
    obtain ⟨y, hy, hya, hback⟩ := exists_leads_of_mem_cycle hc (by simp) (by simp) hne.symm
    have hza : z = a := by simpa [hzb] using hz
    have hyb : y = b := by simpa [hya] using hy
    rw [hza] at hleads
    rw [hyb] at hback
    simp [Ring, hleads, hback]

end Graph

namespace Table

variable {t : Table} {c : List String}

/-- Between names of a cycle that is reported, the edges are the embeddings. -/
theorem embeddings_leads_iff_of_mem_cycle (hc : c ∈ t.embeddings.cycles) {a b : String}
    (hb : b ∈ c) : t.embeddings.Leads a b ↔ t.EmbedsName a b := by
  rw [embeddings_leads_iff, and_iff_left]
  have hcc := (Graph.mem_cycles_iff.1 hc).1
  exact mem_names_embeddings.1 (Graph.mem_names_of_mem_component hcc hb)

/-- **Reported cycles**: there is an embedding for each arrow of a reported cycle exactly when every
name but the last embeds a later one and the last embeds the first. Every name but the first is
always embedded by an earlier one, and with one or two names all arrows are right. -/
theorem reported_cycle_iff (hc : c ∈ t.embeddings.cycles) :
    (t.embeddings.Ring c ↔
        (∀ front a later, c = front ++ a :: later → later ≠ [] → ∃ b ∈ later, t.EmbedsName a b) ∧
          ∀ a ∈ c.getLast?, ∀ b ∈ c.head?, t.EmbedsName a b) ∧
      (∀ front b later, c = front ++ b :: later → front ≠ [] → ∃ a ∈ front, t.EmbedsName a b) ∧
      (c.length ≤ 2 → t.embeddings.Ring c) := by
  have htraced := Graph.traced_of_mem_cycles hc
  have hedge : ∀ {a b : String}, b ∈ c → (t.embeddings.Leads a b ↔ t.EmbedsName a b) :=
    embeddings_leads_iff_of_mem_cycle hc
  refine ⟨?_, ?_, Graph.ring_of_length_le_two hc⟩
  · rw [Graph.ring_iff, htraced.isChain_iff]
    refine and_congr ?_ ?_
    · refine forall₅_congr fun front a later hsplit _ => exists_congr fun b => ?_
      refine and_congr_right fun hb => hedge ?_
      rw [hsplit]
      exact List.mem_append_right _ (List.mem_cons_of_mem _ hb)
    · exact forall₄_congr fun a _ b hb => hedge (List.mem_of_mem_head? hb)
  · intro front b later hsplit hne
    obtain ⟨a, ha, hab⟩ := htraced.exists_earlier hsplit hne
    exact ⟨a, ha, (hedge (by simp [hsplit])).1 hab⟩

end Table

namespace Declarations

/-- A record `A` that embeds `B` and `C`, of which `B` embeds `A` and `C` embeds `B`. -/
def detour : Declarations where
  space := "s"
  records :=
    [{ name := "A",
       fields := [{ name := "id", type := .ofScalar .int },
         { name := "b", type := .ofKind (.ref "B") },
         { name := "c", type := .ofKind (.ref "C") }] },
     { name := "B",
       fields := [{ name := "id", type := .ofScalar .int },
         { name := "a", type := .ofKind (.ref "A") }] },
     { name := "C",
       fields := [{ name := "id", type := .ofScalar .int },
         { name := "b", type := .ofKind (.ref "B") }] }]

theorem embeddings_detour :
    detour.check.table.embeddings = ⟨[("A", ["B", "C"]), ("B", ["A"]), ("C", ["B"])]⟩ := by
  have htable : detour.check.table = detour.table (by decide) := table_draft _
  have hrecords : detour.check.table.records = detour.records := by
    rw [htable]
    rfl
  -- Each field refers to a record directly, which is an embedding.
  have hlink : ∀ name ∈ ["A", "B", "C"],
      detour.check.table.link? [] true (.ofKind (.ref name)) = some ⟨name, true⟩ := by
    intro name hname
    obtain ⟨s, hget, rfl⟩ :
        ∃ s, detour.check.table.get? name = some (.ofRecord s) ∧ s.name = name := by
      rw [htable]
      simp only [List.mem_cons, List.not_mem_nil, or_false] at hname
      rcases hname with rfl | rfl | rfl <;> exact ⟨_, rfl, rfl⟩
    exact Table.link?_of_comesTo (.step rfl hget (.self rfl)) rfl
  generalize detour.check.table = t at hrecords hlink ⊢
  have hid : t.link? [] true (.ofScalar .int) = none := by
    simp [Node.ofScalar, Node.ofKind, Table.link?]
  rw [Table.embeddings, hrecords]
  simp [detour, Table.links, hid, hlink, firstPlaces, Keyed.ofPairs, Keyed.insert]

/-- The cycle reported for the detour has an arrow from `B` to `C`, and `B` embeds nothing that is
listed after it. The same names in another order would be a ring. -/
theorem detour_is_no_ring :
    detour.check.table.embeddings.cycles = [["A", "B", "C"]] ∧
      ¬ detour.check.table.embeddings.Ring ["A", "B", "C"] ∧
      detour.check.table.embeddings.Ring ["A", "C", "B"] := by
  have hcycles : detour.check.table.embeddings.cycles = [["A", "B", "C"]] := by
    rw [embeddings_detour]
    cbv
  have hmem : ["A", "B", "C"] ∈ detour.check.table.embeddings.cycles := by simp [hcycles]
  refine ⟨hcycles, fun hring => ?_, ?_⟩
  · obtain ⟨y, hy, hembeds⟩ :=
      ((Table.reported_cycle_iff hmem).1.1 hring).1 ["A"] "B" ["C"] rfl (by simp)
    obtain rfl : y = "C" := by simpa using hy
    have hleads := (Table.embeddings_leads_iff_of_mem_cycle hmem (by simp)).2 hembeds
    rw [← Graph.mem_next_iff, embeddings_detour] at hleads
    exact absurd hleads (by decide)
  · rw [embeddings_detour]
    simp only [Graph.Ring, ← Graph.mem_next_iff, List.take_succ_cons, List.take_zero,
      List.cons_append, List.nil_append, List.isChain_cons_cons, List.isChain_singleton, and_true]
    decide

end Declarations

end ReactiveSpace
