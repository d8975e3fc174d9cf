import ReactiveSpace.Proofs.Schema.Rearrangement
import ReactiveSpace.Proofs.Space.Checking

/-!
# The order of declarations does not matter

Declarations are rearranged (`Declarations.Rearranged`) when their records, messages and tests come
in another order, and so do the fields, indices, methods and rules of structures at any depth. The
order of aliases stays. Tables are rearranged with their declarations (`Table.Rearranged`), and then
types come down to the same (`ComesTo.rearranged`), structures stay well formed and types
admissible.

The one place where an order counts is the graph of embeddings, in which a later record hides an
earlier one of its name. Declared records have names of their own, so a record can be hidden only by
an alias, and aliases keep their order (`Rearranged.exists_latest`). So rearranged declarations are
well formed alike, and deployable alike (`isDeployable_of_rearranged`).
-/

namespace ReactiveSpace

open Relation

/-! ### Tables -/

/-- Two entries have one name and rearranged types. -/
def Table.RearrangedEntry (e e' : String × Node) : Prop :=
  e.1 = e'.1 ∧ e.2.Rearranged e'.2

/-- The second table has the entries of the first in another order, rearranged, and its root
rearranged. -/
structure Table.Rearranged (t t' : Table) : Prop where
  entries : Shuffled Table.RearrangedEntry t.entries t'.entries
  root : t.root.Rearranged t'.root

/-- The types or the structures are rearranged, and so are the structures around types. -/
inductive Part.Rearranged : Part → Part → Prop
  | type {scope scope' : Option (Structure Node)} {n n' : Node} :
    Option.Rel Structure.Rearranged scope scope' → n.Rearranged n' →
      Rearranged (.type scope n) (.type scope' n')
  | body {s s' : Structure Node} : s.Rearranged s' → Rearranged (.body s) (.body s')

namespace Table

variable {t t' : Table} {n n' target : Node} {name : String}

theorem Rearranged.symm (h : t.Rearranged t') : t'.Rearranged t where
  entries := h.entries.symm fun _ _ _ he => ⟨he.1.symm, he.2.symm⟩
  root := Structure.Rearranged.symm h.root

/-- A name leads to the same type, rearranged. Names are distinct, so the order of entries has no
part in it. -/
theorem Rearranged.exists_get? (h : t.Rearranged t') (hget : t.get? name = some n) :
    ∃ n', t'.get? name = some n' ∧ n.Rearranged n' := by
  obtain ⟨⟨name', n'⟩, hmem, hname, hn⟩ := h.entries.exists_right (Keyed.mem_of_get? hget)
  obtain rfl : name = name' := hname
  exact ⟨n', Keyed.get?_of_mem t'.distinct hmem, hn⟩

/-! ### What types come down to -/

/-- Types come down to the same, rearranged. By induction on the references that are passed. -/
theorem ComesTo.rearranged (h : t.Rearranged t') (hn : n.Rearranged n')
    (hcomes : t.ComesTo n target) :
    ∃ target', t'.ComesTo n' target' ∧ target.Rearranged target' := by
  induction hcomes generalizing n' with
  | self href => exact ⟨n', .self (hn.reference?_eq ▸ href), hn⟩
  | step href hget _ ih =>
    obtain ⟨next', hget', hnext⟩ := h.exists_get? hget
    obtain ⟨target', hcomes', htarget⟩ := ih hnext
    exact ⟨target', .step (hn.reference?_eq ▸ href) hget' hcomes', htarget⟩

/-- A name stands for the same type, rearranged. -/
theorem Names.rearranged (h : t.Rearranged t') (hnames : t.Names name target) :
    ∃ target', t'.Names name target' ∧ target.Rearranged target' := by
  obtain ⟨node, hget, hcomes⟩ := hnames
  obtain ⟨node', hget', hnode⟩ := h.exists_get? hget
  obtain ⟨target', hcomes', htarget⟩ := hcomes.rearranged h hnode
  exact ⟨target', ⟨node', hget', hcomes'⟩, htarget⟩

theorem HasKind.rearranged (h : t.Rearranged t') (hn : n.Rearranged n') {kind : Kind Node}
    (hk : t.HasKind n kind) : ∃ kind', t'.HasKind n' kind' ∧ kind.Rel Node.Rearranged kind' := by
  obtain ⟨target, hcomes, rfl⟩ := hk
  obtain ⟨target', hcomes', htarget⟩ := hcomes.rearranged h hn
  exact ⟨target'.kind, ⟨target', hcomes', rfl⟩, htarget.kind⟩

theorem NamesKind.rearranged (h : t.Rearranged t') {kind : Kind Node}
    (hk : t.NamesKind name kind) :
    ∃ kind', t'.NamesKind name kind' ∧ kind.Rel Node.Rearranged kind' := by
  obtain ⟨target, hnames, rfl⟩ := hk
  obtain ⟨target', hnames', htarget⟩ := hnames.rearranged h
  exact ⟨target'.kind, ⟨target', hnames', rfl⟩, htarget.kind⟩

theorem HasKind.scalar_rearranged (h : t.Rearranged t') (hn : n.Rearranged n') {k : Scalar}
    (hk : t.HasKind n (.scalar k)) : t'.HasKind n' (.scalar k) := by
  obtain ⟨kind', hk', hrel⟩ := hk.rearranged h hn
  cases hrel
  exact hk'

theorem HasKind.table_rearranged (h : t.Rearranged t') (hn : n.Rearranged n') {record : String}
    (hk : t.HasKind n (.table record)) : t'.HasKind n' (.table record) := by
  obtain ⟨kind', hk', hrel⟩ := hk.rearranged h hn
  cases hrel
  exact hk'

theorem NamesKind.record_rearranged (h : t.Rearranged t') {s : Structure Node}
    (hk : t.NamesKind name (.record s)) :
    ∃ s', t'.NamesKind name (.record s') ∧ s.Rearranged s' := by
  obtain ⟨kind', hk', hrel⟩ := hk.rearranged h
  cases hrel with
  | record hs => exact ⟨_, hk', hs⟩

theorem NamesKind.message_rearranged (h : t.Rearranged t') {s : Structure Node}
    (hk : t.NamesKind name (.message s)) :
    ∃ s', t'.NamesKind name (.message s') ∧ s.Rearranged s' := by
  obtain ⟨kind', hk', hrel⟩ := hk.rearranged h
  cases hrel with
  | message hs => exact ⟨_, hk', hs⟩

/-- What may be a key comes down to a scalar, and scalars stay. -/
theorem IsKey.rearranged (h : t.Rearranged t') (hn : n.Rearranged n') (hkey : t.IsKey n) :
    t'.IsKey n' := by
  obtain ⟨k, hk, hdomain⟩ := hkey
  exact ⟨k, hk.scalar_rearranged h hn, hdomain⟩

theorem not_isRows_rearranged (h : t.Rearranged t') (hn : n.Rearranged n') (hrows : ¬ t.IsRows n) :
    ¬ t'.IsRows n' := by
  rintro ⟨record, hrecord⟩
  exact hrows ⟨record, hrecord.table_rearranged h.symm hn.symm⟩

/-! ### What occurs -/

/-- Whatever occurs in a table occurs in the other, rearranged: by induction on how it is come upon.
-/
theorem Occurs.rearranged (h : t.Rearranged t') {p : Part} (hp : t.Occurs p) :
    ∃ p', t'.Occurs p' ∧ p.Rearranged p' := by
  induction hp with
  | entry hmem =>
    obtain ⟨⟨name', n'⟩, hmem', -, hn⟩ := h.entries.exists_right hmem
    exact ⟨_, .entry hmem', .type .none hn⟩
  | root => exact ⟨_, .root, .body h.root⟩
  -- Steps inside a type or a structure are taken in what it was rearranged to.
  | part _ hm ih =>
    obtain ⟨_, hp', hrel⟩ := ih
    cases hrel with
    | type hscope hn =>
      obtain ⟨m', hm', hrel⟩ := hn.exists_part hm
      exact ⟨_, .part hp' hm', .type hscope hrel⟩
  | body _ hs ih =>
    obtain ⟨_, hp', hrel⟩ := ih
    cases hrel with
    | type _ hn =>
      obtain ⟨s', hs', hrel⟩ := hn.exists_structure? hs
      exact ⟨_, .body hp' hs', .body hrel⟩
  | member _ hn ih =>
    obtain ⟨_, hp', hrel⟩ := ih
    cases hrel with
    | body hs =>
      obtain ⟨n', hn', hrel⟩ := Structure.Rel.exists_type hs hn
      exact ⟨_, .member hp' hn', .type (.some hs) hrel⟩

end Table

/-! ### Structures and types -/

section WellFormed

variable {t t' : Table} {s s' : Structure Node} {n n' : Node}

/-- What can be stored in a message still can. -/
theorem Node.Storable.rearranged (h : n.Storable) (hn : n.Rearranged n') : n'.Storable := by
  induction h generalizing n' with
  | scalar hk =>
    obtain ⟨hkind⟩ := hn
    cases hk
    cases hkind
    exact .scalar rfl
  | message hk =>
    obtain ⟨hkind⟩ := hn
    cases hk
    cases hkind
    exact .message rfl
  | ref hk =>
    obtain ⟨hkind⟩ := hn
    cases hk
    cases hkind
    exact .ref rfl
  | list hk _ ih =>
    obtain ⟨hkind⟩ := hn
    cases hk
    cases hkind with
    | list helement => exact .list rfl (ih helement)
  | maybe hk _ ih =>
    obtain ⟨hkind⟩ := hn
    cases hk
    cases hkind with
    | maybe hinner => exact .maybe rfl (ih hinner)

/-- A well-formed structure stays well formed when it is rearranged. -/
theorem Structure.WellFormed.rearranged (ht : t.Rearranged t') (hs : s.Rearranged s')
    (h : s.WellFormed t) : s'.WellFormed t' := by
  -- Every member of the second structure comes from one of the first.
  have hfield : ∀ f' ∈ s'.fields, ∃ f ∈ s.fields, f.Rel Node.Rearranged f' := by
    intro f' hf'
    obtain ⟨f, hf, ⟨htype⟩⟩ := (Structure.Rearranged.symm hs).fields.exists_right hf'
    exact ⟨_, hf, .mk htype.symm⟩
  have hmethod : ∀ m' ∈ s'.methods, ∃ m ∈ s.methods, m'.Rel Node.Rearranged m := fun m' hm' =>
    (Structure.Rearranged.symm hs).methods.exists_right hm'
  constructor
  case field_names =>
    intro f' hf'
    obtain ⟨f, hf, hrel⟩ := hfield f' hf'
    exact hrel.name_eq ▸ h.field_names f hf
  case method_names =>
    intro m' hm'
    obtain ⟨m, hm, hrel⟩ := hmethod m' hm'
    exact hrel.name_eq ▸ h.method_names m hm
  case parameter_names =>
    intro m' hm' p' hp'
    obtain ⟨m, hm, ⟨hparameters, -⟩⟩ := hmethod m' hm'
    obtain ⟨p, hp, hrel⟩ := (Shuffled.of_forall₂ hparameters).exists_right hp'
    exact hrel.name_eq ▸ h.parameter_names _ hm p hp
  -- Rules and indices are not changed themselves, only put in another order.
  case rule_names => exact fun r hr => h.rule_names r (hs.rules.mem_iff.2 hr)
  case fields_nodup =>
    exact (hs.fields.map_perm fun _ _ hrel => hrel.name_eq).nodup_iff.1 h.fields_nodup
  case methods_nodup =>
    exact (hs.methods.map_perm fun _ _ hrel => hrel.name_eq).nodup_iff.1 h.methods_nodup
  case method_ne_field =>
    intro m' hm' f' hf'
    obtain ⟨m, hm, hrel⟩ := hmethod m' hm'
    obtain ⟨f, hf, hrel'⟩ := hfield f' hf'
    rw [hrel.name_eq, ← hrel'.name_eq]
    exact h.method_ne_field m hm f hf
  -- What is asked to be there is looked for in the first structure and found again.
  case identity =>
    intro hrole
    obtain ⟨f, hf, hname, hk⟩ := h.identity (hs.role_eq.trans hrole)
    obtain ⟨f', hf', ⟨htype⟩⟩ := hs.fields.exists_right hf
    exact ⟨_, hf', hname, hk.scalar_rearranged ht htype⟩
  case indices =>
    intro i hi
    obtain ⟨f, hf, hname, k, hk, hindexable⟩ := h.indices i (hs.indices.mem_iff.2 hi)
    obtain ⟨f', hf', ⟨htype⟩⟩ := hs.fields.exists_right hf
    exact ⟨_, hf', hname, k, hk.scalar_rearranged ht htype, hindexable⟩
  case viewers =>
    intro f' hf' viewer hprivacy
    obtain ⟨f, hf, ⟨-⟩⟩ := hfield f' hf'
    obtain ⟨v, hv, hname, hk⟩ := h.viewers _ hf viewer hprivacy
    obtain ⟨v', hv', ⟨htype⟩⟩ := hs.fields.exists_right hv
    exact ⟨_, hv', hname, hk.scalar_rearranged ht htype⟩
  case customs =>
    intro f' hf' rule hprivacy
    obtain ⟨f, hf, ⟨-⟩⟩ := hfield f' hf'
    obtain ⟨r, hr, hname⟩ := h.customs _ hf rule hprivacy
    exact ⟨r, hs.rules.mem_iff.1 hr, hname⟩
  case tables =>
    intro f' hf' hprivacy
    obtain ⟨f, hf, ⟨htype⟩⟩ := hfield f' hf'
    exact Table.not_isRows_rearranged ht htype (h.tables _ hf hprivacy)
  -- A field written as a projection was one before.
  case projections =>
    intro f' hf' table field hk
    obtain ⟨f, hf, ⟨⟨hkind⟩⟩⟩ := hfield f' hf'
    cases hk
    cases hkind
    exact h.projections _ hf table field rfl
  case storable =>
    intro hrole f' hf'
    obtain ⟨f, hf, ⟨htype⟩⟩ := hfield f' hf'
    exact (h.storable (hs.role_eq.trans hrole) _ hf).rearranged htype

/-- Rearranged structures have one role, so a type stands in a message in both tables or in neither.
-/
theorem inMessage_iff_of_rel {scope scope' : Option (Structure Node)}
    (h : Option.Rel Structure.Rearranged scope scope') : InMessage scope ↔ InMessage scope' := by
  cases h with
  | none => exact Iff.rfl
  | some hs => simp [InMessage, hs.role_eq]

/-- An admissible type stays admissible when it and the structure around it are rearranged. -/
theorem Node.Admissible.rearranged (ht : t.Rearranged t') {scope scope' : Option (Structure Node)}
    (hscope : Option.Rel Structure.Rearranged scope scope') (hn : n.Rearranged n')
    (h : n.Admissible t scope) : n'.Admissible t' scope' := by
  obtain ⟨hkind⟩ := hn
  unfold Node.Admissible at h ⊢
  cases hkind with
  | scalar | text | maybe | record | message => trivial
  | replication => exact h
  | list helement => exact Table.not_isRows_rearranged ht helement h
  | map hdomain hrange =>
    exact ⟨h.1.rearranged ht hdomain, Table.not_isRows_rearranged ht hrange h.2⟩
  | lazy hcomputed => exact ⟨h.1, Table.not_isRows_rearranged ht hcomputed h.2⟩
  | table =>
    obtain ⟨s, hs⟩ := h
    obtain ⟨s', hs', -⟩ := hs.record_rearranged ht
    exact ⟨s', hs'⟩
  | holder =>
    obtain ⟨s, hs⟩ := h
    obtain ⟨s', hs', -⟩ := hs.message_rearranged ht
    exact ⟨s', hs'⟩
  | projection =>
    -- The variable, its record and the projected field are found again one after the other.
    obtain ⟨owner, rfl, v, hv, hname, record, hrows, r, hr, p, hp, hfield, hkey⟩ := h
    cases hscope with
    | some howner =>
      obtain ⟨v', hv', ⟨hvtype⟩⟩ := howner.fields.exists_right hv
      obtain ⟨r', hr', hrel⟩ := hr.record_rearranged ht
      obtain ⟨p', hp', ⟨hptype⟩⟩ := hrel.fields.exists_right hp
      exact ⟨_, rfl, _, hv', hname, record, hrows.table_rearranged ht hvtype, r', hr', _, hp',
        hfield, hkey.rearranged ht hptype⟩
  -- What a reference may lead to depends on the role of the structure around it.
  | ref =>
    obtain ⟨kind, hk, hmessage, hrecord⟩ := h
    obtain ⟨kind', hk', hrel⟩ := hk.rearranged ht
    have hin := inMessage_iff_of_rel hscope
    refine ⟨kind', hk', ?_, ?_⟩
    · rintro s' rfl
      cases hrel
      exact hin.1 (hmessage _ rfl)
    · rintro s' rfl
      cases hrel
      exact fun hin' => hrecord _ rfl (hin.2 hin')

end WellFormed

/-! ### Embeddings -/

/-- The structure is in the list, and none of its name comes later. -/
def Structure.LastIn (l : List (Structure Node)) (s : Structure Node) : Prop :=
  ∃ before after, l = before ++ s :: after ∧ ∀ r ∈ after, r.name ≠ s.name

namespace Structure

variable {l l' m m' : List (Structure Node)} {s : Structure Node}

/-- The last of its name in two lists together: in the second, or in the first and none of its name
in the second. -/
theorem lastIn_append_iff :
    LastIn (l ++ m) s ↔ LastIn m s ∨ LastIn l s ∧ ∀ r ∈ m, r.name ≠ s.name := by
  constructor
  · rintro ⟨before, after, hsplit, hafter⟩
    rcases List.append_eq_append_iff.1 hsplit with ⟨front, -, hm⟩ | ⟨back, hl, hback⟩
    · exact .inl ⟨front, after, hm, hafter⟩
    · cases back with
      | nil => exact .inl ⟨[], after, hback.symm, hafter⟩
      | cons b back =>
        obtain ⟨rfl, rfl⟩ := List.cons.inj hback
        exact .inr ⟨⟨before, back, hl, fun r hr => hafter r (List.mem_append_left _ hr)⟩,
          fun r hr => hafter r (List.mem_append_right _ hr)⟩
  · rintro (⟨before, after, rfl, hafter⟩ | ⟨⟨before, after, rfl, hafter⟩, hm⟩)
    · exact ⟨l ++ before, after, by simp, hafter⟩
    · refine ⟨before, after ++ m, by simp, fun r hr => ?_⟩
      exact (List.mem_append.1 hr).elim (hafter r) (hm r)

/-- Where names are distinct, every structure is the last of its name. -/
theorem lastIn_of_mem (hnodup : (l.map name).Nodup) (hs : s ∈ l) : LastIn l s := by
  obtain ⟨before, after, rfl⟩ := List.append_of_mem hs
  refine ⟨before, after, rfl, fun r hr heq => ?_⟩
  rw [List.map_append, List.map_cons] at hnodup
  have hnotMem := (List.nodup_cons.1 (List.nodup_append.1 hnodup).2.1).1
  exact hnotMem (heq ▸ List.mem_map_of_mem hr)

/-- The last of a name stays the last when structures are rearranged in place. -/
theorem LastIn.rearranged (h : List.Forall₂ Rearranged l l') (hs : LastIn l s) :
    ∃ s', LastIn l' s' ∧ s.Rearranged s' := by
  obtain ⟨before, after, rfl, hafter⟩ := hs
  induction before generalizing l' with
  | nil =>
    obtain ⟨s', after', hrel, hrest, rfl⟩ := List.forall₂_cons_left_iff.1 h
    refine ⟨s', ⟨[], after', rfl, fun r' hr' => ?_⟩, hrel⟩
    have hback : List.Forall₂ Rearranged after' after :=
      forall₂_symm hrest fun _ _ _ hr => Rearranged.symm hr
    obtain ⟨r, hr, hr'⟩ := (Shuffled.of_forall₂ hback).exists_right hr'
    rw [hr'.name_eq, ← hrel.name_eq]
    exact hafter r hr
  | cons b before ih =>
    obtain ⟨b', l', -, hrest, rfl⟩ := List.forall₂_cons_left_iff.1 h
    obtain ⟨s', ⟨before', after', rfl, hafter'⟩, hrel⟩ := ih hrest
    exact ⟨s', ⟨b' :: before', after', rfl, hafter'⟩, hrel⟩

/-- The last of a name stays the last when structures with distinct names are shuffled, and those
after them are rearranged in place. -/
theorem LastIn.shuffled (hl : Shuffled Rearranged l l') (hnodup : (l'.map name).Nodup)
    (hm : List.Forall₂ Rearranged m m') (hs : LastIn (l ++ m) s) :
    ∃ s', LastIn (l' ++ m') s' ∧ s.Rearranged s' := by
  rcases lastIn_append_iff.1 hs with hs | ⟨⟨before, after, rfl, -⟩, hother⟩
  · obtain ⟨s', hs', hrel⟩ := hs.rearranged hm
    exact ⟨s', lastIn_append_iff.2 (.inl hs'), hrel⟩
  · obtain ⟨s', hs', hrel⟩ := hl.exists_right (List.mem_append_right _ List.mem_cons_self)
    refine ⟨s', lastIn_append_iff.2 (.inr ⟨lastIn_of_mem hnodup hs', fun r' hr' => ?_⟩), hrel⟩
    have hback : List.Forall₂ Rearranged m' m :=
      forall₂_symm hm fun _ _ _ hr => Rearranged.symm hr
    obtain ⟨r, hr, hr'⟩ := (Shuffled.of_forall₂ hback).exists_right hr'
    rw [hr'.name_eq, ← hrel.name_eq]
    exact hother r hr

end Structure

namespace Table

variable {t t' : Table}

/-- A structure embeds the same record, rearranged. -/
theorem EmbedsRecord.rearranged (h : t.Rearranged t') {s s' r : Structure Node}
    (hs : s.Rearranged s') (hembeds : t.EmbedsRecord s r) :
    ∃ r', t'.EmbedsRecord s' r' ∧ r.Rearranged r' := by
  obtain ⟨f, hf, target, hcomes, hr⟩ := hembeds
  obtain ⟨f', hf', ⟨htype⟩⟩ := hs.fields.exists_right hf
  obtain ⟨target', hcomes', htarget⟩ := hcomes.rearranged h htype
  obtain ⟨r', hr', hrel⟩ := htarget.exists_record? hr
  exact ⟨r', ⟨_, hf', target', hcomes', hr'⟩, hrel⟩

/-- A well-formed table stays well formed when it is rearranged, if of the records with one name the
latest stays the latest. -/
theorem WellFormed.rearranged (h : t.Rearranged t') (ht : t.WellFormed)
    (hlatest : ∀ s', t'.Latest s' → ∃ s, t.Latest s ∧ s'.Rearranged s) : t'.WellFormed := by
  have hoccurs : ∀ p', t'.Occurs p' → ∃ p, t.Occurs p ∧ p'.Rearranged p :=
    fun p' hp' => hp'.rearranged h.symm
  constructor
  case structures =>
    intro s' hs'
    obtain ⟨_, hp, hrel⟩ := hoccurs _ hs'
    cases hrel with
    | body hs => exact (ht.structures _ hp).rearranged h (Structure.Rearranged.symm hs)
  case types =>
    intro scope' n' hn'
    obtain ⟨_, hp, hrel⟩ := hoccurs _ hn'
    cases hrel with
    | type hscope hn =>
      refine (ht.types _ _ hp).rearranged h ?_ hn.symm
      cases hscope with
      | none => exact .none
      | some hs => exact .some (Structure.Rearranged.symm hs)
  -- A cycle among the new embeddings would be one among the old.
  case constructible =>
    have hembeds : ∀ a b, t'.EmbedsName a b → t.EmbedsName a b := by
      rintro _ _ ⟨s', r', hs', rfl, hembeds, rfl⟩
      obtain ⟨s, hs, hrel⟩ := hlatest s' hs'
      obtain ⟨r, hr, hrel'⟩ := hembeds.rearranged h.symm hrel
      exact ⟨s, r, hs, hrel.name_eq.symm, hr, hrel'.name_eq.symm⟩
    exact fun name hcycle => ht.constructible name (TransGen.mono hembeds _ _ hcycle)

end Table

namespace Declarations

/-- The second declarations are the first with their records, messages and tests in another order,
and with the fields, indices, methods and rules of structures in another order, at any depth.
Aliases keep their order. -/
structure Rearranged (d d' : Declarations) : Prop where
  space : d.space = d'.space
  records : Shuffled Structure.Rearranged d.records d'.records
  messages : Shuffled Structure.Rearranged d.messages d'.messages
  aliases : List.Forall₂ Table.RearrangedEntry d.aliases d'.aliases
  root : d.root.Rearranged d'.root
  tests : d.surface.tests.Perm d'.surface.tests
  surface : { d.surface with tests := [] } = { d'.surface with tests := [] }

variable {d d' : Declarations}

/-- Declarations that were rearranged can be rearranged back. -/
theorem Rearranged.symm (h : d.Rearranged d') : d'.Rearranged d where
  space := h.space.symm
  records := h.records.symm fun _ _ _ hs => Structure.Rearranged.symm hs
  messages := h.messages.symm fun _ _ _ hs => Structure.Rearranged.symm hs
  aliases := forall₂_symm h.aliases fun _ _ _ he => ⟨he.1.symm, he.2.symm⟩
  root := Structure.Rearranged.symm h.root
  tests := h.tests.symm
  surface := h.surface.symm

/-- The named types are rearranged with the declarations. -/
theorem Rearranged.types (h : d.Rearranged d') :
    Shuffled Table.RearrangedEntry d.types d'.types := by
  refine ((h.records.map ?_).append (h.messages.map ?_)).append (.of_forall₂ h.aliases)
  · rintro _ _ ⟨hfields, hindices, hmethods, hrules⟩
    exact ⟨rfl, .mk (.record (.mk hfields hindices hmethods hrules))⟩
  · rintro _ _ ⟨hfields, hindices, hmethods, hrules⟩
    exact ⟨rfl, .mk (.message (.mk hfields hindices hmethods hrules))⟩

theorem Rearranged.document (h : d.Rearranged d') : d.document.Rearranged d'.document :=
  Structure.Rel.renamed h.root Structure.rootName .root

/-- The records of a table are the declared ones and those that stand under an alias. -/
theorem records_table (hnodup : (Keyed.names d.types).Nodup) :
    (d.table hnodup).records =
      d.records.map (fun s => { s with role := .record }) ++ d.aliases.filterMap (·.2.record?) := by
  have hrecords : (d.records.map fun s =>
      (s.name, Node.ofRecord { s with role := .record })).filterMap (·.2.record?) =
      d.records.map fun s => { s with role := .record } := by
    rw [List.filterMap_map]
    exact congrFun List.filterMap_eq_map d.records
  have hmessages : (d.messages.map fun s =>
      (s.name, Node.ofMessage { s with role := .message })).filterMap (·.2.record?) = [] := by
    rw [List.filterMap_map, List.filterMap_eq_nil_iff]
    exact fun _ _ => rfl
  show d.types.filterMap (·.2.record?) = _
  rw [types, List.filterMap_append, List.filterMap_append, hrecords, hmessages, List.append_nil]

/-- Of the records with one name the latest is rearranged to the latest. Declared records have names
of their own, and what stands under aliases comes after them in its order. -/
theorem Rearranged.exists_latest (h : d.Rearranged d') (hnodup : (Keyed.names d.types).Nodup)
    (hnodup' : (Keyed.names d'.types).Nodup) {s : Structure Node} (hs : (d.table hnodup).Latest s) :
    ∃ s', (d'.table hnodup').Latest s' ∧ s.Rearranged s' := by
  have hdeclared : Shuffled Structure.Rearranged
      (d.records.map fun s => { s with role := .record })
      (d'.records.map fun s => { s with role := .record }) :=
    h.records.map fun s s' hs => hs.name_eq ▸ hs.renamed s.name .record
  -- The declared records are distinct, so their order does not matter.
  have hdistinct : ((d'.records.map fun s => { s with role := .record }).map
      Structure.name).Nodup := by
    have hnames : (d'.records.map fun s => { s with role := .record }).map Structure.name =
        Keyed.names
          (d'.records.map fun s => (s.name, Node.ofRecord { s with role := .record })) := by
      simp [Keyed.names]
    rw [hnames]
    refine List.Nodup.sublist (List.Sublist.map _ ?_) hnodup'
    rw [Declarations.types, List.append_assoc]
    exact List.sublist_append_left _ _
  -- Records behind aliases keep their order, and one of them may be the latest of its name.
  have haliased : List.Forall₂ Structure.Rearranged (d.aliases.filterMap (·.2.record?))
      (d'.aliases.filterMap (·.2.record?)) :=
    List.rel_filterMap (fun _ _ he => he.2.record?) h.aliases
  have hlast : Structure.LastIn (d.table hnodup).records s := hs
  rw [records_table] at hlast
  obtain ⟨s', hs', hrel⟩ := hlast.shuffled hdeclared hdistinct haliased
  rw [← records_table hnodup'] at hs'
  exact ⟨s', hs', hrel⟩

/-- Deployable declarations are deployable after they have been rearranged. -/
theorem Rearranged.isDeployable (h : d.Rearranged d') (hd : d.check.isDeployable = true) :
    d'.check.isDeployable = true := by
  obtain ⟨⟨htypes, hnodup⟩, htests, htestsNodup⟩ := names_of_isDeployable hd
  have hnames : (Keyed.names d.types).Perm (Keyed.names d'.types) :=
    h.types.map_perm fun _ _ he => he.1
  have hnodup' : (Keyed.names d'.types).Nodup := hnames.nodup_iff.1 hnodup
  have hwellFormed := wellFormed_of_isDeployable hd
  rw [show d.check.table = d.table hnodup from table_draft hnodup] at hwellFormed
  rw [Checked.isDeployable, List.isEmpty_iff, diagnostics_check_eq_nil_iff,
    diagnostics_draft_eq_nil_iff, show d'.check.table = d'.table hnodup' from table_draft hnodup']
  refine ⟨⟨⟨fun name hname => htypes name (hnames.mem_iff.2 hname), hnodup'⟩,
    fun test htest => htests test (h.tests.mem_iff.2 htest),
    (h.tests.map _).nodup_iff.1 htestsNodup⟩, ?_⟩
  exact hwellFormed.rearranged ⟨h.types, h.document⟩ fun s' hs' =>
    h.symm.exists_latest hnodup' hnodup hs'

/-- **The order of declarations does not matter.** Declarations with records, messages and tests in
another order, and with fields, indices, methods and rules in another order in structures at any
depth, are deployable alike. -/
theorem isDeployable_of_rearranged (h : d.Rearranged d') :
    d.check.isDeployable = d'.check.isDeployable := by
  rw [Bool.eq_iff_iff]
  exact ⟨h.isDeployable, h.symm.isDeployable⟩

/-- A workshop with the given records and tests, and a list of drafts with the given fields. -/
def workshop (records : List (Structure Node)) (draft : List (Field Node)) (tests : List Test) :
    Declarations where
  space := "workshop"
  records := records
  aliases := [("Drafts", .ofKind (.list (.ofKind (.record { name := "Draft", fields := draft }))))]
  surface := { tests := tests }

/-- A workshop is deployable with its tools before its jobs or after them, with an owner of a secret
before the secret or after it, and with the fields of drafts and its tests in either order. -/
theorem workshop_deployable :
    let id : Field Node := { name := "id", type := .ofScalar .int }
    let owner : Field Node := { name := "owner", type := .ofScalar .principal }
    let secret : Field Node :=
      { name := "secret", type := .ofScalar .string, privacy := some (.viewerIs "owner") }
    let tool (fields : List (Field Node)) : Structure Node := { name := "Tool", fields := fields }
    let job : Structure Node := { name := "Job", fields := [id], indices := [{ field := "id" }] }
    let d := workshop [tool [id, owner, secret], job] [id, secret, owner] [⟨"a", ""⟩, ⟨"b", ""⟩]
    let d' := workshop [job, tool [secret, id, owner]] [owner, secret, id] [⟨"b", ""⟩, ⟨"a", ""⟩]
    d.Rearranged d' ∧ d.check.isDeployable = true ∧ d'.check.isDeployable = true := by
  intro id owner secret tool job d d'
  -- Fields in another order, and all the rest as it was.
  have hstructure : ∀ {s s' : Structure Node}, s.fields.Perm s'.fields →
      { s with fields := [] } = { s' with fields := [] } → s.Rearranged s' := by
    intro s s' hfields heq
    obtain ⟨hname, hrole, -, hindices, hmethods, hrules, hposition⟩ := Structure.mk.inj heq
    exact .of_perm hname hrole hposition hfields (.of_eq hindices) (.of_eq hmethods)
      (.of_eq hrules) fun n _ => .refl n
  have htool : (tool [id, owner, secret]).Rearranged (tool [secret, id, owner]) :=
    hstructure ((List.Perm.swap _ _ [] |>.cons _).trans (.swap _ _ _)) rfl
  have hdraft : Structure.Rearranged { name := "Draft", fields := [id, secret, owner] }
      { name := "Draft", fields := [owner, secret, id] } :=
    hstructure (List.reverse_perm [owner, secret, id]) rfl
  have hjob : job.Rearranged job := hstructure (.refl _) rfl
  have h : d.Rearranged d' :=
    { space := rfl
      records := @Shuffled.cons _ _ _ _ _ [job] [job] [] htool
        (@Shuffled.cons _ _ _ _ _ [] [] [] hjob .nil)
      messages := .nil
      aliases := .cons ⟨rfl, .mk (.list (.mk (.record hdraft)))⟩ .nil
      root := hstructure (.refl _) rfl
      tests := .swap _ _ _
      surface := rfl }
  have hd : d.check.isDeployable = true :=
    isDeployable_of_isEmpty (by decide) (by decide +kernel +zetaReduce) (by cbv)
  exact ⟨h, hd, isDeployable_of_rearranged h ▸ hd⟩

end Declarations

end ReactiveSpace
