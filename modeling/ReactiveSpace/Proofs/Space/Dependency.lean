import ReactiveSpace.Proofs.Space.Embedding

/-!
# What a record depends on

A type *leads on* to another (`Table.LeadsOn`): a reference to the type it stands for, a container
to the type in it, and a table to the record of its rows. Since a type leads on to one other at
most, the way from a field is a single one, and it either arrives at a record or at nothing, or goes
round for ever through an alias that contains itself.

The dependencies of a record are found by walking this way (`Walk.advance`), and a reference to an
alias that was passed before ends the walk. So every walk ends (`Walk.exists_run`), and nothing is
lost by it: a way that arrives at a record never passes one alias twice
(`exists_link?_of_reaches`). Hence the edges of the graph are exactly the ways to records, and the
embeddings among them exactly the ways along references alone (`dependencies_exact`).
-/

namespace ReactiveSpace

open Relation

/-- Every name is kept at one place only. -/
theorem nodup_firstPlaces (names : List String) : (firstPlaces names).Nodup := by
  unfold firstPlaces
  suffices ∀ kept : List String, kept.Nodup →
      (names.foldl (fun kept n => if kept.contains n then kept else kept ++ [n]) kept).Nodup from
    this [] List.nodup_nil
  induction names with
  | nil => exact fun kept hkept => hkept
  | cons n names ih =>
    intro kept hkept
    rw [List.foldl_cons]
    refine ih _ ?_
    split
    · exact hkept
    · rename_i hn
      have hn : n ∉ kept := by simpa using hn
      exact List.nodup_append.2 ⟨hkept, List.nodup_singleton n, by grind⟩

namespace Table

/-- A type leads on to another in one step. -/
inductive LeadsOn (t : Table) : Node → Node → Prop
  /-- A reference leads to the type that its name stands for. -/
  | ref {n target : Node} {name : String} :
    n.reference? = some name → t.followName? name = some target → LeadsOn t n target
  /-- A list, a map, a maybe or a formula leads to the type in it, which for a map is the range. -/
  | inner {n inner : Node} : n.embedded? = some inner → LeadsOn t n inner
  /-- A table leads to the record of its rows. -/
  | rows {n target : Node} {record : String} {s : Structure Node} :
    n.kind = .table record → t.followName? record = some target → target.record? = some s →
      LeadsOn t n target

/-- A reference leads to the type that its name stands for. -/
def RefersTo (t : Table) (n target : Node) : Prop :=
  ∃ name, n.reference? = some name ∧ t.followName? name = some target

variable {t : Table} {n m target : Node} {s : Structure Node} {seen : List String} {direct : Bool}

/-! ### The way from a type -/

/-- There is one step at most. -/
theorem LeadsOn.unique (h : t.LeadsOn n m) (h' : t.LeadsOn n target) : m = target := by
  have hkind : ∀ {n : Node} {name : String}, n.reference? = some name → n.kind = .ref name :=
    Node.reference?_eq_some_iff.1
  -- The kind of the type decides which of the three ways there is.
  cases h with
  | ref hname hfollow =>
    have hk := hkind hname
    cases h' with
    | ref hname' hfollow' =>
      obtain rfl := Option.some.inj (hname.symm.trans hname')
      exact Option.some.inj (hfollow.symm.trans hfollow')
    | inner hinner => simp [Node.embedded?, hk] at hinner
    | rows hk' => simp [hk] at hk'
  | inner hinner =>
    cases h' with
    | ref hname' => simp [Node.embedded?, hkind hname'] at hinner
    | inner hinner' => exact Option.some.inj (hinner.symm.trans hinner')
    | rows hk' => simp [Node.embedded?, hk'] at hinner
  | rows hk hfollow =>
    cases h' with
    | ref hname' => simp [hkind hname'] at hk
    | inner hinner' => simp [Node.embedded?, hk] at hinner'
    | rows hk' hfollow' =>
      obtain rfl : _ = _ := Kind.table.inj (hk.symm.trans hk')
      exact Option.some.inj (hfollow.symm.trans hfollow')

/-- The way ends at a structure. -/
theorem not_leadsOn_of_structure? (hs : n.structure? = some s) : ¬ t.LeadsOn n m := by
  intro h
  unfold Node.structure? at hs
  cases h with
  | ref hname => simp [Node.reference?_eq_some_iff.1 hname] at hs
  | inner hinner =>
    unfold Node.embedded? at hinner
    cases hk : n.kind <;> simp_all
  | rows hk => simp [hk] at hs

/-- A structure leads nowhere, so what it reaches is itself. -/
theorem eq_of_reaches (h : ReflTransGen t.LeadsOn n target) (hs : n.structure? = some s) :
    n = target := by
  rcases h.cases_head with heq | ⟨m, hstep, -⟩
  · exact heq
  · exact absurd hstep (not_leadsOn_of_structure? hs)

theorem structure?_of_record? (hs : n.record? = some s) : n.structure? = some s := by
  rw [Node.structure?, Node.record?_eq_some_iff.1 hs]

theorem acc_of_reaches (h : ReflTransGen t.LeadsOn n target) (hend : ∀ m, ¬ t.LeadsOn target m) :
    Acc (fun b a => t.LeadsOn a b) n := by
  induction h using ReflTransGen.head_induction_on with
  | refl => exact Acc.intro _ fun m hm => absurd hm (hend m)
  | head hstep _ ih => exact Acc.intro _ fun m hm => hstep.unique hm ▸ ih

/-- A type from which the way arrives at a record does not lead back to itself. -/
theorem not_transGen_of_reaches (h : ReflTransGen t.LeadsOn n target)
    (hs : target.record? = some s) : ¬ TransGen t.LeadsOn n n :=
  not_transGen_of_acc
    (acc_of_reaches h fun _ => not_leadsOn_of_structure? (structure?_of_record? hs))

/-! ### Links -/

theorem link?_of_record? (hs : n.record? = some s) :
    t.link? seen direct n = some ⟨s.name, direct⟩ := by
  obtain ⟨position, notes, kind⟩ := n
  obtain rfl : kind = .record s := Node.record?_eq_some_iff.1 hs
  rw [link?]

/-- A container links to what the type in it links to, and not as an embedding any more. -/
theorem link?_of_embedded? (h : n.embedded? = some m) :
    t.link? seen direct n = t.link? seen false m := by
  obtain ⟨position, notes, kind⟩ := n
  cases kind with
  | list | map | maybe | lazy =>
    obtain rfl := Option.some.inj h
    rw [link?]
  | _ => cases h

/-- A table links to the record of its rows without embedding it. -/
theorem link?_of_rows {record : String} (hn : n.kind = .table record)
    (hfollow : t.followName? record = some target) (hs : target.record? = some s) :
    t.link? seen direct n = some ⟨s.name, false⟩ := by
  obtain ⟨position, notes, kind⟩ := n
  obtain rfl : kind = .table record := hn
  have hrecord : t.followRecord? record = some s := by
    rw [followRecord?, hfollow, Option.bind_some, hs]
  rw [link?, hrecord, Option.map_some]

/-- A link is to a record that the way from the type arrives at. -/
theorem exists_reaches_of_link? {l : Link} (h : t.link? seen direct n = some l) :
    ∃ target s, ReflTransGen t.LeadsOn n target ∧ target.record? = some s ∧ s.name = l.record := by
  fun_induction link? t seen direct n with
  | case1 | case3 | case4 | case12 => cases h
  -- The reference stands for a record.
  | case2 seen direct position notes name target hf s hk =>
    obtain rfl := Option.some.inj h
    exact ⟨target, s, .single (.ref rfl hf), Node.record?_eq_some_iff.2 hk, rfl⟩
  -- It stands for an alias, whose link is the link.
  | case5 seen direct position notes name target hf hs hrecord hmessage ih =>
    obtain ⟨last, s, hreach, hlast⟩ := ih h
    exact ⟨last, s, .head (.ref rfl hf) hreach, hlast⟩
  | case6 seen direct position notes s =>
    obtain rfl := Option.some.inj h
    exact ⟨_, s, .refl, rfl, rfl⟩
  | case7 seen direct position notes record =>
    obtain ⟨s, hs, rfl⟩ := Option.map_eq_some_iff.1 h
    obtain ⟨target, hf, hs⟩ := Option.bind_eq_some_iff.1 hs
    exact ⟨target, s, .single (.rows rfl hf hs), hs, rfl⟩
  | case8 seen direct position notes inner ih | case9 seen direct position notes domain inner ih
  | case10 seen direct position notes inner ih
  | case11 seen direct position notes inner formula cached ih =>
    obtain ⟨last, s, hreach, hlast⟩ := ih h
    exact ⟨last, s, .head (.inner rfl) hreach, hlast⟩

/-- A way that arrives at a record is walked to its end: of the aliases passed so far, all of which
have led here, it passes none again. -/
theorem exists_link?_of_reaches (h : ReflTransGen t.LeadsOn n target)
    (hs : target.record? = some s)
    (hseen : ∀ a ∈ seen, ∀ m, t.followName? a = some m → ReflTransGen t.LeadsOn m n) :
    ∃ embeds, t.link? seen direct n = some ⟨s.name, embeds⟩ := by
  induction h using ReflTransGen.head_induction_on generalizing seen direct with
  | refl => exact ⟨direct, link?_of_record? hs⟩
  | @head n m hstep hrest ih =>
    have hseen' : ∀ a ∈ seen, ∀ k, t.followName? a = some k → ReflTransGen t.LeadsOn k m :=
      fun a ha k hk => (hseen a ha k hk).tail hstep
    cases hstep with
    | inner hinner =>
      rw [link?_of_embedded? hinner]
      exact ih hseen'
    | rows hk hfollow hrecord =>
      obtain rfl := eq_of_reaches hrest (structure?_of_record? hrecord)
      exact ⟨false, link?_of_rows hk hfollow hs⟩
    | @ref name hname hfollow =>
      rw [link?_ref hname (followName?_eq_some_iff.1 hfollow)]
      cases hstructure : m.structure? with
      | some r =>
        obtain rfl := eq_of_reaches hrest hstructure
        exact ⟨direct, by simp [hs]⟩
      | none =>
        have hstep : t.LeadsOn n m := .ref hname hfollow
        -- An alias that was passed leads here, and from here to itself once more.
        have hnew : name ∉ seen := fun hold =>
          not_transGen_of_reaches (.head hstep hrest) hs
            (TransGen.head' hstep (hseen name hold m hfollow))
        simp only [hnew, if_false]
        refine ih fun a ha k hk => ?_
        rcases List.mem_cons.1 ha with rfl | ha
        · obtain rfl := Option.some.inj (hfollow.symm.trans hk)
          exact .refl
        · exact hseen' a ha k hk

/-- The names of the links of a structure are those of the records that its fields lead to. -/
theorem mem_links {b : String} :
    b ∈ (t.links s).map Link.record ↔ ∃ f ∈ s.fields, ∃ target r,
      ReflTransGen t.LeadsOn f.type target ∧ target.record? = some r ∧ r.name = b := by
  simp only [links, List.mem_map, List.mem_filterMap]
  constructor
  · rintro ⟨l, ⟨f, hf, hlink⟩, rfl⟩
    exact ⟨f, hf, exists_reaches_of_link? hlink⟩
  · rintro ⟨f, hf, target, r, hreach, hr, rfl⟩
    have hlink : ∃ embeds, t.link? [] true f.type = some ⟨r.name, embeds⟩ :=
      exists_link?_of_reaches hreach hr (by simp)
    obtain ⟨embeds, hlink⟩ := hlink
    exact ⟨_, ⟨f, hf, hlink⟩, rfl⟩

/-- Along references alone, a type leads to the record that it comes to. -/
theorem reflTransGen_refersTo_iff (hs : target.record? = some s) :
    ReflTransGen t.RefersTo n target ↔ t.ComesTo n target := by
  constructor
  · intro h
    rcases h.cases_head with rfl | ⟨m, ⟨name, hname, hfollow⟩, hrest⟩
    · refine .self (Node.reference?_eq_none_iff.2 ?_)
      simp [Node.record?_eq_some_iff.1 hs]
    · have hnames := followName?_eq_some_iff.1 hfollow
      -- What a name stands for is no reference, so there is no second step.
      rcases hrest.cases_head with rfl | ⟨k, ⟨other, hother, -⟩, -⟩
      · exact (comesTo_iff_names hname).2 hnames
      · simp [hnames.reference?_eq_none] at hother
  · intro h
    cases hname : n.reference? with
    | none =>
      obtain rfl := (comesTo_iff_eq hname).1 h
      exact .refl
    | some name =>
      exact .single ⟨name, hname, followName?_eq_some_iff.2 ((comesTo_iff_names hname).1 h)⟩

/-! ### Walks -/

/-- A walk to the record that a field leads to. -/
structure Walk where
  /-- The aliases that references have named so far. -/
  seen : List String := []
  /-- Whether the way went along references alone so far. -/
  direct : Bool := true
  /-- The type that the walk has come to. -/
  type : Node

namespace Walk

/-- The answer of a walk that ends, or the walk one step further. -/
def advance (t : Table) (w : Walk) : Option Link ⊕ Walk :=
  match w.type.kind with
  | .ref name =>
    match t.followName? name with
    | none => .inl none
    | some target =>
      match target.kind with
      | .record s => .inl (some ⟨s.name, w.direct⟩)
      | .message _ => .inl none
      | _ => if name ∈ w.seen then .inl none else .inr ⟨name :: w.seen, w.direct, target⟩
  | .record s => .inl (some ⟨s.name, w.direct⟩)
  | .table record => .inl ((t.followRecord? record).map fun s => ⟨s.name, false⟩)
  | _ =>
    match w.type.embedded? with
    | some inner => .inr ⟨w.seen, false, inner⟩
    | none => .inl none

/-- The answer of a walk, if it ends in the given number of rounds. -/
def run (t : Table) : ℕ → Walk → Option (Option Link)
  | 0, _ => none
  | rounds + 1, w =>
    match w.advance t with
    | .inl answer => some answer
    | .inr next => run t rounds next

theorem exists_run_of_stop {w : Walk} {answer : Option Link} (h : w.advance t = .inl answer) :
    ∃ rounds, w.run t rounds = some answer :=
  ⟨1, by rw [run, h]⟩

theorem exists_run_of_step {w next : Walk} {answer : Option Link} (h : w.advance t = .inr next)
    (hnext : ∃ rounds, next.run t rounds = some answer) :
    ∃ rounds, w.run t rounds = some answer := by
  obtain ⟨rounds, hrun⟩ := hnext
  exact ⟨rounds + 1, by rw [run, h]; exact hrun⟩

/-- **Walks end**, even where aliases contain themselves, and their answer is the link. -/
theorem exists_run (t : Table) (w : Walk) :
    ∃ rounds, w.run t rounds = some (t.link? w.seen w.direct w.type) := by
  obtain ⟨seen, direct, type⟩ := w
  fun_induction link? t seen direct type with
  | case1 seen direct position notes name hf => exact exists_run_of_stop (by simp [advance, hf])
  | case2 seen direct position notes name target hf s hk
  | case3 seen direct position notes name target hf s hk =>
    exact exists_run_of_stop (by simp [advance, hf, hk])
  | case4 seen direct position notes name target hf hs hrecord hmessage =>
    exact exists_run_of_stop (by simp [advance, hf, hs])
  | case5 seen direct position notes name target hf hs hrecord hmessage ih =>
    exact exists_run_of_step (by simp [advance, hf, hs]) ih
  | case6 | case7 => exact exists_run_of_stop rfl
  | case8 seen direct position notes inner ih | case9 seen direct position notes domain inner ih
  | case10 seen direct position notes inner ih
  | case11 seen direct position notes inner formula cached ih => exact exists_run_of_step rfl ih
  -- What is left are the kinds without a link.
  | case12 seen direct n href hrecord htable hlist hmap hmaybe hlazy =>
    obtain ⟨position, notes, kind⟩ := n
    cases kind with
    | ref => exact (href _ _ _ rfl).elim
    | record => exact (hrecord _ _ _ rfl).elim
    | table => exact (htable _ _ _ rfl).elim
    | list => exact (hlist _ _ _ rfl).elim
    | map => exact (hmap _ _ _ _ rfl).elim
    | maybe => exact (hmaybe _ _ _ rfl).elim
    | lazy => exact (hlazy _ _ _ _ _ rfl).elim
    | _ => exact exists_run_of_stop rfl

/-- From an alias that contains itself, the walk ends where the alias comes up again. -/
example : run { entries := [("L", .ofKind (.list (.ofKind (.ref "L"))))], distinct := by decide } 3
    { type := .ofKind (.ref "L") } = some none := by
  cbv

end Walk

/-! ### Edges -/

/-- A record whose name no other record has is the one that its name stands for in the graph. -/
theorem latest_of_get? {key : String} {node : Node} (hget : t.get? key = some node)
    (hs : node.record? = some s)
    (hunique : ∀ other node' r, t.get? other = some node' → node'.record? = some r →
      r.name = s.name → other = key) : t.Latest s := by
  obtain ⟨before, after, hsplit⟩ := List.append_of_mem (Keyed.mem_of_get? hget)
  refine ⟨before.filterMap fun e => e.2.record?, after.filterMap fun e => e.2.record?, ?_, ?_⟩
  · simp [records, hsplit, hs]
  · intro r hr hname
    obtain ⟨⟨other, node'⟩, hmem, hr⟩ := List.mem_filterMap.1 hr
    have hother : t.get? other = some node' :=
      Keyed.get?_of_mem t.distinct (by rw [hsplit]; simp [hmem])
    obtain rfl := hunique other node' r hother hr hname
    -- The name of an entry does not come again after it.
    have hdistinct := t.distinct
    rw [hsplit, Keyed.names, List.map_append, List.map_cons] at hdistinct
    have hfresh := (List.nodup_cons.1 (List.nodup_append.1 hdistinct).2.1).1
    exact hfresh (List.mem_map.2 ⟨_, hmem, rfl⟩)

/-- The dependencies of a record are the records of its links, each once. -/
theorem targets?_dependencies (h : t.Latest s) :
    t.dependencies.targets? s.name = some (firstPlaces ((t.links s).map Link.record)) :=
  get?_ofPairs_records.2 ⟨s, h, rfl, rfl⟩

theorem targets?_embeddings (h : t.Latest s) :
    t.embeddings.targets? s.name =
      some (firstPlaces (((t.links s).filter Link.embeds).map Link.record)) :=
  get?_ofPairs_records.2 ⟨s, h, rfl, rfl⟩

/-- **Edges of the graph.** Every walk ends. For a record whose name no other record has, the graph
lists exactly the records that its fields lead to, each once, and of those the graph of embeddings
lists exactly the ones that its fields lead to along references alone. -/
theorem dependencies_exact (t : Table) :
    (∀ w : Walk, ∃ rounds, w.run t rounds = some (t.link? w.seen w.direct w.type)) ∧
    ∀ key node s, t.get? key = some node → node.record? = some s →
      (∀ other node' r, t.get? other = some node' → node'.record? = some r →
        r.name = s.name → other = key) →
      ∃ edges embedded, t.dependencies.targets? s.name = some edges ∧
        t.embeddings.targets? s.name = some embedded ∧ edges.Nodup ∧ embedded.Nodup ∧
        (∀ b, b ∈ edges ↔ ∃ f ∈ s.fields, ∃ target r,
          ReflTransGen t.LeadsOn f.type target ∧ target.record? = some r ∧ r.name = b) ∧
        (∀ b, b ∈ embedded ↔ ∃ f ∈ s.fields, ∃ target r,
          ReflTransGen t.RefersTo f.type target ∧ target.record? = some r ∧ r.name = b) ∧
        embedded ⊆ edges := by
  refine ⟨Walk.exists_run t, fun key node s hget hs hunique => ?_⟩
  have hlatest := latest_of_get? hget hs hunique
  refine ⟨_, _, targets?_dependencies hlatest, targets?_embeddings hlatest, nodup_firstPlaces _,
    nodup_firstPlaces _, fun b => mem_firstPlaces.trans mem_links, fun b => ?_, fun b hb => ?_⟩
  · rw [mem_firstPlaces, mem_embedding_links]
    constructor
    · rintro ⟨r, ⟨f, hf, target, hcomes, hr⟩, rfl⟩
      exact ⟨f, hf, target, r, (reflTransGen_refersTo_iff hr).2 hcomes, hr, rfl⟩
    · rintro ⟨f, hf, target, r, hreach, hr, rfl⟩
      exact ⟨r, ⟨f, hf, target, (reflTransGen_refersTo_iff hr).1 hreach, hr⟩, rfl⟩
  · rw [mem_firstPlaces] at hb ⊢
    exact List.map_subset _ (List.filter_subset_self _) hb

end Table

end ReactiveSpace
