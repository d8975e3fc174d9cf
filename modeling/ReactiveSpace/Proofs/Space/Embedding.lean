import ReactiveSpace.Check.Checked
import ReactiveSpace.Proofs.Graph.Components
import ReactiveSpace.Proofs.Keyed
import ReactiveSpace.Proofs.Space.Kind

/-!
# Embeddings between structures

A structure *embeds* another when one of its fields, with references followed, is that
other structure (`Table.Embeds`): a value of the first then holds a value of the second.
The graph of embeddings knows records by their names only, and of two records of the table
with one name it knows the later (`Table.Latest`). Its edges are `Table.EmbedsName`
(`embeddings_leads_iff`), and a table has diagnostics about cycles unless no name embeds
itself (`cycleDiagnostics_eq_nil_iff`).
-/

namespace ReactiveSpace

open Relation

theorem mem_firstPlaces {n : String} {names : List String} : n ∈ firstPlaces names ↔ n ∈ names := by
  have hfold : ∀ kept, n ∈ names.foldl
      (fun kept n => if kept.contains n then kept else kept ++ [n]) kept ↔
        n ∈ kept ∨ n ∈ names := by
    induction names with
    | nil => simp
    | cons m names ih =>
      -- A name that is kept already is not lost when it comes again.
      intro kept
      rw [List.foldl_cons, ih]
      split
      · rename_i hm
        have hm : m ∈ kept := by simpa using hm
        simp only [List.mem_cons]
        constructor
        · rintro (h | h)
          · exact Or.inl h
          · exact Or.inr (Or.inr h)
        · rintro (h | rfl | h)
          · exact Or.inl h
          · exact Or.inl hm
          · exact Or.inr h
      · simp [or_assoc]
  unfold firstPlaces
  simpa using hfold []

namespace Table

variable {t : Table}

/-- The structure `r` is what a field of `s` comes down to. -/
def Embeds (t : Table) (s r : Structure Node) : Prop :=
  ∃ f ∈ s.fields, ∃ target, t.ComesTo f.type target ∧ target.structure? = some r

/-- The structure `r` of a record is what a field of `s` comes down to. -/
def EmbedsRecord (t : Table) (s r : Structure Node) : Prop :=
  ∃ f ∈ s.fields, ∃ target, t.ComesTo f.type target ∧ target.record? = some r

/-- The structure is that of a record of the table, and no later record has its name. -/
def Latest (t : Table) (s : Structure Node) : Prop :=
  ∃ before after, t.records = before ++ s :: after ∧ ∀ r ∈ after, r.name ≠ s.name

/-- The record known as `a` embeds a record of the name `b`. -/
def EmbedsName (t : Table) (a b : String) : Prop :=
  ∃ s r, t.Latest s ∧ s.name = a ∧ t.EmbedsRecord s r ∧ r.name = b

/-! ### Links -/

/-- A link embeds only the record that the type comes to. -/
theorem comesTo_of_link? {seen : List String} {direct : Bool} {n : Node} {l : Link}
    (h : t.link? seen direct n = some l) (hl : l.embeds = true) :
    direct = true ∧
      ∃ target s, t.ComesTo n target ∧ target.record? = some s ∧ s.name = l.record := by
  fun_induction link? t seen direct n with
  | case1 => simp at h
  | case2 seen direct position notes name target hf s hk =>
    obtain rfl := Option.some.inj h
    refine ⟨hl, target, s, ?_, Node.record?_eq_some_iff.2 hk, rfl⟩
    exact (comesTo_iff_names rfl).2 (followName?_eq_some_iff.1 hf)
  | case3 => simp at h
  | case4 => simp at h
  | case5 seen direct position notes name target hf hs hrecord hmessage ih =>
    -- An alias of something else than a record is followed no further as an embedding.
    obtain ⟨-, target', s, hcomes, hs', -⟩ := ih h
    have href := Names.reference?_eq_none (followName?_eq_some_iff.1 hf)
    have hself := (comesTo_iff_eq href).1 hcomes
    rw [hself, Node.record?_eq_some_iff] at hs'
    exact absurd hs' (hrecord s)
  | case6 seen direct position notes s =>
    obtain rfl := Option.some.inj h
    exact ⟨hl, _, s, .self rfl, rfl, rfl⟩
  | case7 seen direct position notes record =>
    obtain ⟨s, -, rfl⟩ := Option.map_eq_some_iff.1 h
    simp at hl
  | case8 seen direct position notes element ih => exact absurd (ih h).1 (by simp)
  | case9 seen direct position notes domain range ih => exact absurd (ih h).1 (by simp)
  | case10 seen direct position notes inner ih => exact absurd (ih h).1 (by simp)
  | case11 seen direct position notes computed formula cached ih => exact absurd (ih h).1 (by simp)
  | case12 => simp at h

/-- A reference leads to the record it stands for, and else where the type does that it stands
for. -/
theorem link?_ref {seen : List String} {direct : Bool} {n target : Node} {name : String}
    (hn : n.reference? = some name) (hnames : t.Names name target) :
    t.link? seen direct n = match target.structure? with
      | some _ => target.record?.map fun s => ⟨s.name, direct⟩
      | none => if name ∈ seen then none else t.link? (name :: seen) direct target := by
  obtain ⟨position, notes, kind⟩ := n
  obtain rfl : kind = .ref name := Node.reference?_eq_some_iff.1 hn
  have hfollow := followName?_eq_some_iff.2 hnames
  rw [link?]
  split
  · rename_i hnone
    simp [hfollow] at hnone
  · rename_i target' htarget
    obtain rfl := Option.some.inj (hfollow.symm.trans htarget)
    cases hk : target.kind <;> simp [Node.structure?, Node.record?, hk]

/-- A type that comes to a record is linked to it. -/
theorem link?_of_comesTo {seen : List String} {n target : Node} {s : Structure Node}
    (h : t.ComesTo n target) (hs : target.record? = some s) :
    t.link? seen true n = some ⟨s.name, true⟩ := by
  have hk := Node.record?_eq_some_iff.1 hs
  cases href : n.reference? with
  | some name =>
    rw [link?_ref href ((comesTo_iff_names href).1 h)]
    simp [Node.structure?, hk, hs]
  | none =>
    obtain rfl := (comesTo_iff_eq href).1 h
    obtain ⟨position, notes, kind⟩ := target
    obtain rfl : kind = .record s := hk
    rw [link?]

/-- The names of the embedding links of a structure are those of the records it embeds. -/
theorem mem_embedding_links {s : Structure Node} {b : String} :
    b ∈ ((t.links s).filter Link.embeds).map Link.record ↔
      ∃ r, t.EmbedsRecord s r ∧ r.name = b := by
  simp only [links, List.mem_map, List.mem_filter, List.mem_filterMap]
  constructor
  · rintro ⟨l, ⟨⟨f, hf, hlink⟩, hembeds⟩, rfl⟩
    obtain ⟨-, target, r, hcomes, hr, hname⟩ := comesTo_of_link? hlink hembeds
    exact ⟨r, ⟨f, hf, target, hcomes, hr⟩, hname⟩
  · rintro ⟨r, ⟨f, hf, target, hcomes, hr⟩, rfl⟩
    exact ⟨⟨r.name, true⟩, ⟨⟨f, hf, link?_of_comesTo hcomes hr⟩, rfl⟩, rfl⟩

/-! ### The graph of embeddings -/

/-- Of pairs made from the records under their names, those of the latest records count. -/
theorem get?_ofPairs_records {β : Type} {value : Structure Node → β} {a : String} {v : β} :
    Keyed.get? a (Keyed.ofPairs (t.records.map fun s => (s.name, value s))) = some v ↔
      ∃ s, t.Latest s ∧ s.name = a ∧ value s = v := by
  rw [Keyed.get?_ofPairs_eq_some_iff]
  constructor
  · -- The pair that counts splits the records where it splits the pairs.
    rintro ⟨before, after, heq, hafter⟩
    obtain ⟨front, rest, hrecords, -, hrest⟩ := List.map_eq_append_iff.1 heq
    obtain ⟨s, back, rfl, hs, rfl⟩ := List.map_eq_cons_iff.1 hrest
    obtain ⟨hname, hvalue⟩ := Prod.mk.inj hs
    refine ⟨s, ⟨front, back, hrecords, ?_⟩, hname, hvalue⟩
    intro r hr
    rw [hname]
    exact hafter _ (List.mem_map_of_mem hr)
  · rintro ⟨s, ⟨before, after, heq, hafter⟩, rfl, rfl⟩
    refine ⟨before.map fun s => (s.name, value s), after.map fun s => (s.name, value s), ?_, ?_⟩
    · rw [heq, List.map_append, List.map_cons]
    · intro p hp
      obtain ⟨r, hr, rfl⟩ := List.mem_map.1 hp
      exact hafter r hr

theorem Latest.mem_records {s : Structure Node} (h : t.Latest s) : s ∈ t.records := by
  obtain ⟨before, after, heq, -⟩ := h
  simp [heq]

theorem mem_names_embeddings {b : String} :
    b ∈ t.embeddings.names ↔ ∃ s ∈ t.records, s.name = b := by
  unfold Graph.names embeddings
  rw [Keyed.mem_names_ofPairs]
  simp

/-- The edges of the graph are the embeddings between names of records. -/
theorem embeddings_leads_iff {a b : String} :
    t.embeddings.Leads a b ↔ t.EmbedsName a b ∧ ∃ s ∈ t.records, s.name = b := by
  unfold Graph.Leads Graph.targets?
  simp only [mem_names_embeddings]
  unfold embeddings
  simp only [get?_ofPairs_records]
  constructor
  · rintro ⟨targets, ⟨s, hs, rfl, rfl⟩, hb, hmem⟩
    obtain ⟨r, hr, hname⟩ := mem_embedding_links.1 (mem_firstPlaces.1 hb)
    exact ⟨⟨s, r, hs, rfl, hr, hname⟩, hmem⟩
  · rintro ⟨⟨s, r, hs, rfl, hr, rfl⟩, hmem⟩
    exact ⟨_, ⟨s, hs, rfl, rfl⟩, mem_firstPlaces.2 (mem_embedding_links.2 ⟨r, hr, rfl⟩), hmem⟩

/-- On a way back to a name, every name is that of a record. -/
theorem transGen_embeddings_iff {n : String} :
    TransGen t.embeddings.Leads n n ↔ TransGen t.EmbedsName n n := by
  have hrecord : ∀ {a b : String}, t.EmbedsName a b → ∃ s ∈ t.records, s.name = a := by
    rintro a b ⟨s, r, hs, hname, -⟩
    exact ⟨s, hs.mem_records, hname⟩
  constructor
  · exact TransGen.mono (fun a b hab => (embeddings_leads_iff.1 hab).1) n n
  · intro h
    -- Whatever embeds something is a record, so only the last name on a way needs to be one.
    have hway : ∀ {a b : String}, TransGen t.EmbedsName a b → (∃ s ∈ t.records, s.name = b) →
        TransGen t.embeddings.Leads a b := by
      intro a b hab
      induction hab with
      | single hab => exact fun hb => TransGen.single (embeddings_leads_iff.2 ⟨hab, hb⟩)
      | tail _ hbc ih =>
        exact fun hc => (ih (hrecord hbc)).tail (embeddings_leads_iff.2 ⟨hbc, hc⟩)
    obtain ⟨m, hnm, -⟩ := TransGen.head'_iff.1 h
    exact hway h (hrecord hnm)

/-- There is no diagnostic about cycles exactly when no name embeds itself. -/
theorem cycleDiagnostics_eq_nil_iff :
    t.cycleDiagnostics = [] ↔ ∀ n, ¬ TransGen t.EmbedsName n n := by
  unfold cycleDiagnostics
  rw [List.map_eq_nil_iff, Graph.cycles_eq_nil_iff]
  simp only [transGen_embeddings_iff]

end Table

end ReactiveSpace
