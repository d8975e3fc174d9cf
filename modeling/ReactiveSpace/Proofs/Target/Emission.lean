import Mathlib.Data.List.Basic
import ReactiveSpace.Proofs.Graph.Ordering
import ReactiveSpace.Proofs.Target.Definitions
import ReactiveSpace.Proofs.Target.Source

/-!
# The order in which a unit is emitted

The source of a unit is a sequence of emissions between its header and its exports: one for each
message, one for each record that the graph of dependencies finds again in the table, and one for
the document (`unitCode_eq_emissions`). An emission remembers the key under which its structure was
found. No key is emitted twice as a message, for the names of a table are distinct, and none twice
as a record, for the components of the graph are disjoint. So in a deployable space every declared
message and every declared record is emitted once, as it was checked, and what a record depends on
comes before it unless the two depend on each other (`Declarations.generate_emits_in_order`).
-/

namespace ReactiveSpace

namespace Target

/-- One piece of the source of a unit, with the structure that it is made from and the key of
that structure. -/
inductive Emission where
  | message (key : String) (s : Structure Node)
  | record (key : String) (s : Structure Node)
  | document

namespace Emission

/-- The code of an emission, up to the empty line behind it. -/
def code (t : Table) (surface : Surface) : Emission → List Code
  | .message _ s => Target.message t s ++ [.blank]
  | .record _ s => Target.record t s ++ [.blank]
  | .document => Target.document t surface ++ [.blank]

/-- Messages come at the first stage, records at the second and the document at the last. -/
def stage : Emission → Nat
  | .message _ _ => 0
  | .record _ _ => 1
  | .document => 2

/-- Whether the message of this key is emitted. -/
def isMessage (name : String) : Emission → Bool
  | .message key _ => key == name
  | _ => false

/-- Whether the record of this key is emitted. -/
def isRecord (name : String) : Emission → Bool
  | .record key _ => key == name
  | _ => false

end Emission

/-- The emission of an entry that is a message. -/
def messageEmission? (e : String × Node) : Option Emission :=
  e.2.message?.map (.message e.1)

/-- The emission of the record that stands under a key. -/
def recordEmission? (t : Table) (key : String) : Option Emission :=
  ((t.structure? key).filter fun s => s.role == .record).map (.record key)

/-- The emissions of a unit, in order. -/
def emissions (t : Table) : List Emission :=
  t.entries.filterMap messageEmission? ++ t.dependencies.ordering.filterMap (recordEmission? t) ++
    [.document]

variable {t : Table}

/-! ### Code -/

/-- Emitting what is found for some elements of a list is emitting for each element what is found
for it. -/
theorem flatMap_filterMap {α β γ : Type} (f : α → Option β) (g : β → List γ) (l : List α) :
    (l.filterMap f).flatMap g = l.flatMap fun a => (f a).toList.flatMap g := by
  rw [List.filterMap_eq_flatMap_toList, List.flatMap_assoc]

/-- The source of a unit is that of its emissions, between the header and the exports. -/
theorem unitCode_eq_emissions (t : Table) (surface : Surface) (unitName : String) :
    unitCode t surface unitName =
      header unitName ++ (emissions t).flatMap (Emission.code t surface) ++
        exports unitName surface := by
  -- What is passed over on the way emits nothing.
  have hmessages : (t.entries.filterMap messageEmission?).flatMap (Emission.code t surface) =
      t.messages.flatMap fun s => message t s ++ [.blank] := by
    rw [Table.messages, flatMap_filterMap, flatMap_filterMap]
    congr 1
    funext e
    cases h : e.2.message? <;> simp [messageEmission?, h, Emission.code]
  have hrecords : (t.dependencies.ordering.filterMap (recordEmission? t)).flatMap
      (Emission.code t surface) =
      (orderedRecords t).flatMap fun s => record t s ++ [.blank] := by
    rw [orderedRecords, flatMap_filterMap, flatMap_filterMap]
    congr 1
    funext key
    cases h : (t.structure? key).filter fun s => s.role == .record <;>
      simp [recordEmission?, h, Emission.code]
  unfold unitCode emissions
  rw [List.flatMap_append, List.flatMap_append, hmessages, hrecords, List.flatMap_singleton]
  simp only [Emission.code, List.append_assoc]

/-! ### Emitted once -/

/-- If only one element of a list without repetition is found as something that is asked for, this
is all there is. -/
theorem filter_filterMap_eq_singleton {α β : Type} {l : List α} {f : α → Option β} {p : β → Bool}
    {a : α} {b : β} (hnodup : l.Nodup) (ha : a ∈ l) (hfound : f a = some b) (hb : p b = true)
    (honly : ∀ x ∈ l, ∀ y, f x = some y → p y = true → x = a) : (l.filterMap f).filter p = [b] := by
  obtain ⟨before, after, rfl⟩ := List.append_of_mem ha
  obtain ⟨-, hafter, hbefore⟩ := List.nodup_append.1 hnodup
  have hnone : ∀ part : List α, (∀ x ∈ part, x ∈ before ++ a :: after ∧ x ≠ a) →
      (part.filterMap f).filter p = [] := by
    intro part hpart
    refine List.filter_eq_nil_iff.2 fun y hy hyp => ?_
    obtain ⟨x, hx, hxy⟩ := List.mem_filterMap.1 hy
    exact (hpart x hx).2 (honly x (hpart x hx).1 y hxy hyp)
  rw [List.filterMap_append, List.filterMap_cons_some hfound, List.filter_append,
    List.filter_cons_of_pos hb,
    hnone before fun x hx => ⟨List.mem_append_left _ hx, hbefore x hx a List.mem_cons_self⟩,
    hnone after fun x hx => ⟨List.mem_append_right _ (List.mem_cons_of_mem _ hx), ?_⟩,
    List.nil_append]
  rintro rfl
  exact (List.nodup_cons.1 hafter).1 hx

theorem eq_of_messageEmission? {entry : String × Node} {e : Emission}
    (h : messageEmission? entry = some e) : ∃ s, e = .message entry.1 s := by
  obtain ⟨s, -, rfl⟩ := Option.map_eq_some_iff.1 h
  exact ⟨s, rfl⟩

theorem eq_of_recordEmission? {key : String} {e : Emission} (h : recordEmission? t key = some e) :
    ∃ s, e = .record key s := by
  obtain ⟨s, -, rfl⟩ := Option.map_eq_some_iff.1 h
  exact ⟨s, rfl⟩

theorem eq_message_of_mem {e : Emission} (h : e ∈ t.entries.filterMap messageEmission?) :
    ∃ key s, e = .message key s := by
  obtain ⟨entry, -, hentry⟩ := List.mem_filterMap.1 h
  exact ⟨_, eq_of_messageEmission? hentry⟩

theorem eq_record_of_mem {e : Emission}
    (h : e ∈ t.dependencies.ordering.filterMap (recordEmission? t)) :
    ∃ key s, e = .record key s := by
  obtain ⟨key, -, hkey⟩ := List.mem_filterMap.1 h
  exact ⟨_, eq_of_recordEmission? hkey⟩

/-- A message entry is emitted once. -/
theorem filter_isMessage_emissions {name : String} {n : Node} {s : Structure Node}
    (hentry : (name, n) ∈ t.entries) (hs : n.message? = some s) :
    (emissions t).filter (Emission.isMessage name) = [.message name s] := by
  have hmessages : (t.entries.filterMap messageEmission?).filter (Emission.isMessage name) =
      [.message name s] := by
    refine filter_filterMap_eq_singleton (List.Nodup.of_map _ t.distinct) hentry
      (by simp [messageEmission?, hs]) (by simp [Emission.isMessage]) ?_
    intro other hother e he hkey
    obtain ⟨_, rfl⟩ := eq_of_messageEmission? he
    rw [Emission.isMessage, beq_iff_eq] at hkey
    exact List.inj_on_of_nodup_map t.distinct hother hentry hkey
  have hrecords : (t.dependencies.ordering.filterMap (recordEmission? t)).filter
      (Emission.isMessage name) = [] := by
    refine List.filter_eq_nil_iff.2 fun e he => ?_
    obtain ⟨_, _, rfl⟩ := eq_record_of_mem he
    simp [Emission.isMessage]
  rw [emissions, List.filter_append, List.filter_append, hmessages, hrecords]
  rfl

/-- A record that stands under its own name is emitted once. -/
theorem filter_isRecord_emissions {s : Structure Node} (hs : s ∈ t.records)
    (hkey : t.structure? s.name = some s) (hrole : s.role = .record) :
    (emissions t).filter (Emission.isRecord s.name) = [.record s.name s] := by
  have hmessages : (t.entries.filterMap messageEmission?).filter (Emission.isRecord s.name) =
      [] := by
    refine List.filter_eq_nil_iff.2 fun e he => ?_
    obtain ⟨_, _, rfl⟩ := eq_message_of_mem he
    simp [Emission.isRecord]
  have hrecords : (t.dependencies.ordering.filterMap (recordEmission? t)).filter
      (Emission.isRecord s.name) = [.record s.name s] := by
    refine filter_filterMap_eq_singleton (Graph.nodup_flatten_components _)
      (mem_ordering_dependencies_iff.2 ⟨s, hs, rfl⟩) ?_ (by simp [Emission.isRecord]) ?_
    · simp [recordEmission?, hkey, hrole]
    · intro key _ e he hname
      obtain ⟨_, rfl⟩ := eq_of_recordEmission? he
      exact beq_iff_eq.1 hname
  rw [emissions, List.filter_append, List.filter_append, hmessages, hrecords]
  rfl

/-! ### In order -/

/-- Messages come first, then records, then the document. -/
theorem pairwise_stage_emissions (t : Table) :
    (emissions t).Pairwise fun e e' => e.stage ≤ e'.stage := by
  -- Messages are in stage 0, records in stage 1 and the document comes last.
  have hmessage : ∀ e ∈ t.entries.filterMap messageEmission?, e.stage = 0 := by
    intro e he
    obtain ⟨_, _, rfl⟩ := eq_message_of_mem he
    rfl
  have hrecord : ∀ e ∈ t.dependencies.ordering.filterMap (recordEmission? t), e.stage = 1 := by
    intro e he
    obtain ⟨_, _, rfl⟩ := eq_record_of_mem he
    rfl
  unfold emissions
  rw [List.pairwise_append, List.pairwise_append]
  refine ⟨⟨?_, ?_, ?_⟩, List.pairwise_singleton _ _, ?_⟩
  · exact List.pairwise_of_forall_mem_list fun e he e' he' => by rw [hmessage e he, hmessage e' he']
  · exact List.pairwise_of_forall_mem_list fun e he e' he' => by rw [hrecord e he, hrecord e' he']
  · intro e he e' he'
    rw [hmessage e he]
    exact Nat.zero_le _
  · intro e he e' he'
    rw [List.mem_singleton.1 he']
    rcases List.mem_append.1 he with he | he
    · rw [hmessage e he]
      exact Nat.zero_le _
    · rw [hrecord e he]
      decide

/-- A record that leads to a later one is led to by it. -/
theorem pairwise_reaches_emissions (t : Table) :
    (emissions t).Pairwise fun e e' => ∀ a s b r, e = .record a s → e' = .record b r →
      t.dependencies.Reaches a b → t.dependencies.Reaches b a := by
  unfold emissions
  rw [List.pairwise_append, List.pairwise_append]
  refine ⟨⟨?_, ?_, ?_⟩, List.pairwise_singleton _ _, ?_⟩
  · refine List.pairwise_of_forall_mem_list fun e he e' _ a s b r hrecord => ?_
    obtain ⟨_, _, rfl⟩ := eq_message_of_mem he
    cases hrecord
  · refine List.pairwise_filterMap.2 ((Graph.pairwise_ordering _).imp ?_)
    -- Between records it is the order of the graph.
    rintro key key' hreach e he e' he' a s b r rfl rfl
    obtain ⟨_, hkey⟩ := eq_of_recordEmission? he
    obtain ⟨_, hkey'⟩ := eq_of_recordEmission? he'
    cases hkey
    cases hkey'
    exact hreach
  · intro e he e' _ a s b r hrecord
    obtain ⟨_, _, rfl⟩ := eq_message_of_mem he
    cases hrecord
  · intro e _ e' he' a s b r _ hrecord
    rw [List.mem_singleton.1 he'] at hrecord
    cases hrecord

/-- What a record reaches is emitted before it, unless the record is reached in turn. -/
theorem lt_of_reaches_emissions {i j : Nat} {a b : String} {s r : Structure Node}
    (hi : (emissions t)[i]? = some (.record b r)) (hj : (emissions t)[j]? = some (.record a s))
    (hab : t.dependencies.Reaches a b) (hba : ¬ t.dependencies.Reaches b a) : i < j := by
  obtain ⟨hilt, hir⟩ := List.getElem?_eq_some_iff.1 hi
  obtain ⟨hjlt, hjs⟩ := List.getElem?_eq_some_iff.1 hj
  rcases Nat.lt_trichotomy i j with hlt | rfl | hgt
  · exact hlt
  · cases hir.symm.trans hjs
    exact absurd Relation.ReflTransGen.refl hba
  · have hback := List.pairwise_iff_getElem.1 (pairwise_reaches_emissions t) j i hjlt hilt hgt
    exact absurd (hback a s b r hjs hir hab) hba

end Target

namespace Declarations

open Target (Emission)

/-- What is promised of the emissions of a space: every declared message and record is among them
once, in its role; messages come before records and records before the document; and what a record
depends on comes before it, unless that depends on the record too. -/
structure EmittedInOrder (d : Declarations) (es : List Emission) : Prop where
  messages : ∀ m ∈ d.messages,
    es.filter (Emission.isMessage m.name) = [.message m.name { m with role := .message }]
  records : ∀ r ∈ d.records,
    es.filter (Emission.isRecord r.name) = [.record r.name { r with role := .record }]
  document : ∃ front, es = front ++ [.document] ∧ .document ∉ front
  stages : es.Pairwise fun e e' => e.stage ≤ e'.stage
  dependencies : ∀ a targets, d.check.dependencies.targets? a = some targets → ∀ b ∈ targets,
    (∃ r ∈ d.records, r.name = b) → ¬ d.check.dependencies.Reaches b a →
      ∀ (i j : Nat) r s, es[i]? = some (.record b r) → es[j]? = some (.record a s) → i < j

variable {d : Declarations}

theorem entries_check (h : d.check.isDeployable = true) : d.check.table.entries = d.types := by
  obtain ⟨⟨-, hdistinct⟩, -⟩ := names_of_isDeployable h
  rw [show d.check.table = d.table hdistinct from table_draft hdistinct]
  rfl

/-- A declared record stands in the table of a deployable space under its name. -/
theorem record_mem_entries (h : d.check.isDeployable = true) {r : Structure Node}
    (hr : r ∈ d.records) :
    (r.name, .ofRecord { r with role := .record }) ∈ d.check.table.entries := by
  rw [entries_check h, types, List.append_assoc]
  exact List.mem_append_left _ (List.mem_map_of_mem hr)

/-- A declared message stands in the table of a deployable space under its name. -/
theorem message_mem_entries (h : d.check.isDeployable = true) {m : Structure Node}
    (hm : m ∈ d.messages) :
    (m.name, .ofMessage { m with role := .message }) ∈ d.check.table.entries := by
  rw [entries_check h, types, List.append_assoc]
  exact List.mem_append_right _ (List.mem_append_left _ (List.mem_map_of_mem hm))

theorem record_mem_records (h : d.check.isDeployable = true) {r : Structure Node}
    (hr : r ∈ d.records) : { r with role := .record } ∈ d.check.table.records :=
  List.mem_filterMap.2 ⟨_, record_mem_entries h hr, rfl⟩

/-- **Everything is emitted once and in order.** The source of a deployable space is that of its
emissions between the header and the exports, and these emit every declared structure once, in
order. Types are spelled in the emissions as they expand, so with an alias that contains itself, for
which spelling has no end (`spelling_ends_iff`), they stop where the alias is cut off. -/
theorem generate_emits_in_order (d : Declarations) (h : d.check.isDeployable = true) :
    d.generate = .ok ⟨d.unitName,
      Code.source (Target.header d.unitName ++
        (Target.emissions d.check.table).flatMap (Emission.code d.check.table d.surface) ++
        Target.exports d.unitName d.surface),
      Reflection.ofTable d.check.table⟩ ∧
    d.EmittedInOrder (Target.emissions d.check.table) := by
  refine ⟨?_, fun m hm => ?_, fun r hr => ?_, ?_, Target.pairwise_stage_emissions _, ?_⟩
  · rw [generate_eq_ok h, Target.unitCode_eq_emissions]
  · exact Target.filter_isMessage_emissions (message_mem_entries h hm) rfl
  · have hget : d.check.table.get? r.name = some (.ofRecord { r with role := .record }) :=
      Keyed.get?_of_mem d.check.table.distinct (record_mem_entries h hr)
    refine Target.filter_isRecord_emissions (record_mem_records h hr) ?_ rfl
    rw [Table.structure?, hget]
    rfl
  · refine ⟨_, rfl, fun hmem => ?_⟩
    rcases List.mem_append.1 hmem with hmem | hmem
    · obtain ⟨_, _, hdocument⟩ := Target.eq_message_of_mem hmem
      cases hdocument
    · obtain ⟨_, _, hdocument⟩ := Target.eq_record_of_mem hmem
      cases hdocument
  · rintro a targets htargets b hb ⟨r, hr, rfl⟩ hback i j _ _ hi hj
    -- A declared record is a name of the graph, so the edge to it counts.
    have hname : r.name ∈ d.check.dependencies.names :=
      Graph.mem_flatten_components.1
        (Target.mem_ordering_dependencies_iff.2 ⟨_, record_mem_records h hr, rfl⟩)
    have hleads : d.check.dependencies.Leads a r.name := ⟨targets, htargets, hb, hname⟩
    exact Target.lt_of_reaches_emissions hi hj (Relation.ReflTransGen.single hleads) hback

/-- A stockroom whose orders have tables of items that are declared after them, with an alias that
carries a second structure of the name `Item`. -/
def stockroom : Declarations where
  space := "stockroom"
  records :=
    [{ name := "Order",
       fields :=
        [{ name := "id", type := .ofScalar .int },
         { name := "items", type := .ofKind (.table "Item") }] },
     { name := "Item", fields := [{ name := "id", type := .ofScalar .int }] }]
  messages := [{ name := "Placed", fields := [{ name := "count", type := .ofScalar .int }] }]
  aliases :=
    [("Spare", .ofKind (.record
      { name := "Item", fields := [{ name := "id", type := .ofScalar .int }] }))]

/-- The items of a stockroom are emitted once, before its orders. -/
theorem stockroom_emits_in_order :
    stockroom.check.isDeployable = true ∧
      stockroom.EmittedInOrder (Target.emissions stockroom.check.table) ∧
      ∀ (i j : Nat) r s, (Target.emissions stockroom.check.table)[i]? = some (.record "Item" r) →
        (Target.emissions stockroom.check.table)[j]? = some (.record "Order" s) → i < j := by
  have htable : stockroom.draft.table = stockroom.table (by decide) := table_draft _
  have hrecords : stockroom.draft.table.records = stockroom.records ++ [stockroom.records[1]] := by
    rw [htable]
    rfl
  obtain ⟨item, hitem, hname⟩ :
      ∃ s, stockroom.draft.table.followRecord? "Item" = some s ∧ s.name = "Item" := by
    rw [htable]
    exact ⟨_, Table.followRecord?_eq_some_iff.2 ⟨_, ⟨_, rfl, .self rfl⟩, rfl⟩, rfl⟩
  -- The graphs are those of every table with these records and items.
  have hgraphs : ∀ t : Table, t.records = stockroom.records ++ [stockroom.records[1]] →
      t.followRecord? "Item" = some item →
      t.embeddings = ⟨[("Order", []), ("Item", [])]⟩ ∧
        t.dependencies = ⟨[("Order", ["Item"]), ("Item", [])]⟩ := by
    intro t hrecords hitem
    simp [Table.embeddings, Table.dependencies, hrecords, stockroom, Node.ofKind, Node.ofScalar,
      Table.links, Table.link?, hitem, hname, firstPlaces, Keyed.ofPairs, Keyed.insert]
  obtain ⟨hembeddings, hdependencies⟩ := hgraphs _ hrecords hitem
  have h : stockroom.check.isDeployable = true := by
    refine isDeployable_of_isEmpty (by decide) (by decide +kernel) ?_
    rw [← htable, hembeddings]
    cbv
  obtain ⟨-, horder⟩ := generate_emits_in_order stockroom h
  refine ⟨h, horder, ?_⟩
  have htargets : ∀ name, stockroom.check.dependencies.targets? name =
      Keyed.get? name [("Order", ["Item"]), ("Item", [])] := fun name =>
    congrArg (fun g => Graph.targets? g name) hdependencies
  refine horder.dependencies "Order" ["Item"] (htargets _) "Item" List.mem_cons_self
    ⟨_, List.mem_cons_of_mem _ List.mem_cons_self, rfl⟩ fun hreach => ?_
  -- Items lead nowhere.
  rcases Relation.ReflTransGen.cases_head hreach with heq | ⟨next, ⟨targets, hitems, hmem, -⟩, -⟩
  · exact absurd heq (by decide)
  · rw [htargets] at hitems
    cases hitems
    cases hmem

end Declarations

end ReactiveSpace
