import ReactiveSpace.Proofs.Target.Expansion

/-!
# What the types of fields include

A type *includes* itself, what its containers are made of and what its references stand for, at any
depth (`Table.Includes`). Two rules of checking are about all that a type includes, and checking
looks at a part of it only.

A message is meant to hold plain values. What is written in the field of a message is checked, but
an alias is judged where it is declared, outside of every message, and so is a message node in
another role. What a field of a message includes is native exactly when these fit a message as well
(`Declarations.native_message_field_iff`).

Tables and projections are meant to be private. A field that states a privacy is no table and no
projection, and a table is rejected as the range of a list, a map or a formula. What is left are
tables in a maybe and projections in any container (`Declarations.exposes_rows_iff`).
-/

namespace ReactiveSpace

open Relation

namespace Table

variable {t : Table} {scope : Option (Structure Node)} {n m : Node}

/-- The type `m` is the type `n`, or a container in `n` is made of it, or a reference in `n` stands
for it, at any depth. A type includes a structure, but not the types of its fields. -/
def Includes (t : Table) (n m : Node) : Prop :=
  ReflTransGen t.Opens n m

/-- What a reference stands for occurs outside of every structure. -/
theorem Names.occurs {name : String} (h : t.Names name m) : t.Occurs (.type none m) := by
  obtain ⟨key, hkey⟩ := h.exists_entry
  exact .of_get? hkey

/-- What something includes occurs if that does. -/
theorem Includes.occurs (h : t.Includes n m) (hn : t.Occurs (.type scope n)) :
    ∃ place, t.Occurs (.type place m) := by
  induction h with
  | refl => exact ⟨scope, hn⟩
  | tail _ hopens ih =>
    obtain ⟨place, hplace⟩ := ih
    rcases hopens with hpart | ⟨name, -, hnames⟩
    · exact ⟨place, hplace.part hpart⟩
    · exact ⟨none, hnames.occurs⟩

/-- A type includes what it comes to. -/
theorem ComesTo.includes (h : t.ComesTo n m) : t.Includes n m := by
  cases hn : n.reference? with
  | none =>
    rw [(comesTo_iff_eq hn).1 h]
    exact .refl
  | some name => exact .single (.inr ⟨name, hn, (comesTo_iff_names hn).1 h⟩)

end Table

/-! ### Messages -/

/-- A kind of which plain values are made. -/
def Node.isNative (n : Node) : Bool :=
  match n.kind with
  | .scalar _ | .message _ | .list _ | .maybe _ | .ref _ => true
  | _ => false

namespace Table

variable {t : Table} {scope : Option (Structure Node)} {n m a : Node}

/-- All that the type includes is of a native kind. -/
def Native (t : Table) (n : Node) : Prop :=
  ∀ m, t.Includes n m → m.isNative = true

/-- A type that a message can hold and that refers to no record. What its references to aliases
stand for is not looked at. -/
inductive FitsMessage (t : Table) : Node → Prop
  | scalar {n : Node} {k : Scalar} : n.kind = .scalar k → FitsMessage t n
  | message {n : Node} {s : Structure Node} : n.kind = .message s → FitsMessage t n
  | list {n element : Node} : n.kind = .list element → FitsMessage t element → FitsMessage t n
  | maybe {n inner : Node} : n.kind = .maybe inner → FitsMessage t inner → FitsMessage t n
  | ref {n : Node} {name : String} :
    n.kind = .ref name → (∀ s, ¬ t.NamesKind name (.record s)) → FitsMessage t n

/-- The type `n` is a reference that stands for the alias `a`. -/
def RefersToAlias (t : Table) (n a : Node) : Prop :=
  ∃ name, n.reference? = some name ∧ t.Names name a ∧ a.structure? = none

theorem Native.of_includes (h : t.Native n) (hm : t.Includes n m) : t.Native m :=
  fun _ hk => h _ (hm.trans hk)

/-- A native type may stand in a message. -/
theorem Native.fitsMessage (h : t.Native n) : t.FitsMessage n := by
  induction n using Node.induction with
  | h n hparts _ =>
    have hnative : n.isNative = true := h n .refl
    have hpart : ∀ m ∈ n.parts, t.FitsMessage m := fun m hm =>
      hparts m hm (h.of_includes (.single (.inl hm)))
    cases hk : n.kind with
    | scalar k => exact .scalar hk
    | message s => exact .message hk
    | list element => exact .list hk (hpart element (by simp [Node.parts, hk]))
    | maybe inner => exact .maybe hk (hpart inner (by simp [Node.parts, hk]))
    -- What a reference opens is included too, so it is no record.
    | ref name =>
      refine .ref hk ?_
      rintro s ⟨record, hnames, hrecord⟩
      have hopens : t.Opens n record :=
        .inr ⟨name, Node.reference?_eq_some_iff.2 hk, hnames⟩
      have hnative := h record (.single hopens)
      simp [Node.isNative, hrecord] at hnative
    | _ => simp [Node.isNative, hk] at hnative

theorem FitsMessage.isNative (h : t.FitsMessage n) : n.isNative = true := by
  cases h <;> simp_all [Node.isNative]

/-- Going on from a type that fits a message leads to one that fits as well, unless it leads to an
alias. -/
theorem FitsMessage.of_opens (h : t.FitsMessage n) (hm : t.Opens n m) :
    t.FitsMessage m ∨ t.RefersToAlias n m := by
  rcases hm with hpart | ⟨name, href, hnames⟩
  · left
    cases h <;> simp_all [Node.parts]
  · have hk := Node.reference?_eq_some_iff.1 href
    -- A reference leads to an alias or to a structure, and a structure was looked at already.
    cases hs : m.structure? with
    | none => exact .inr ⟨name, href, hnames, hs⟩
    | some s =>
      left
      cases hkind : m.kind with
      | message s => exact .message hkind
      | record s =>
        cases h with
        | @ref _ name' hk' hrecord =>
          obtain rfl : name = name' := by simpa [hk] using hk'
          exact absurd ⟨m, hnames, hkind⟩ (hrecord s)
        | _ => simp_all
      | _ => simp [Node.structure?, hkind] at hs

/-- A type is native exactly when it fits a message and so does every alias it refers to. -/
theorem native_iff :
    t.Native n ↔ t.FitsMessage n ∧
      ∀ m a, t.Includes n m → t.RefersToAlias m a → t.FitsMessage a := by
  constructor
  · intro h
    refine ⟨h.fitsMessage, fun m a hm hma => ?_⟩
    obtain ⟨name, href, hnames, -⟩ := hma
    exact (h.of_includes (hm.tail (.inr ⟨name, href, hnames⟩))).fitsMessage
  · rintro ⟨hfits, haliases⟩ m hm
    suffices hm : t.FitsMessage m from hm.isNative
    induction hm with
    | refl => exact hfits
    | tail hm hopens ih => exact (ih.of_opens hopens).elim id (haliases _ _ hm)

/-- In a message, what can be stored refers to no record. -/
theorem WellFormed.fitsMessage (ht : t.WellFormed) (hscope : InMessage scope)
    (hn : t.Occurs (.type scope n)) (h : n.Storable) : t.FitsMessage n := by
  induction h with
  | scalar hk => exact .scalar hk
  | message hk => exact .message hk
  | list hk _ ih => exact .list hk (ih (hn.part (by simp [Node.parts, hk])))
  | maybe hk _ ih => exact .maybe hk (ih (hn.part (by simp [Node.parts, hk])))
  | ref hk =>
    have hadmissible := ht.types scope _ hn
    simp only [Node.Admissible, hk] at hadmissible
    obtain ⟨kind, hnames, -, hrecord⟩ := hadmissible
    exact .ref hk fun s hs => hrecord s (hnames.unique hs) hscope

end Table

namespace Declarations

variable {d : Declarations}

/-- **Messages**: in a deployable space, all that the type of a field of a message includes is
native exactly when every alias on the way fits a message, and so does the type itself unless the
message has its own role, in which it always does. -/
theorem native_message_field_iff (h : d.check.isDeployable = true)
    {scope : Option (Structure Node)} {n : Node} {s : Structure Node} {f : Field Node}
    (hn : d.check.table.Occurs (.type scope n)) (hs : n.kind = .message s) (hf : f ∈ s.fields) :
    d.check.table.Native f.type ↔
      (s.role ≠ .message → d.check.table.FitsMessage f.type) ∧
        ∀ m a, d.check.table.Includes f.type m → d.check.table.RefersToAlias m a →
          d.check.table.FitsMessage a := by
  have ht := wellFormed_of_isDeployable h
  have hbody : d.check.table.Occurs (.body s) := hn.body (by simp [Node.structure?, hs])
  have hfield : d.check.table.Occurs (.type (some s) f.type) :=
    hbody.member (Structure.type_mem_types hf)
  rw [Table.native_iff]
  refine and_congr_left fun _ => ⟨fun hfits _ => hfits, fun hfits => ?_⟩
  by_cases hrole : s.role = .message
  · exact ht.fitsMessage ⟨s, rfl, hrole⟩ hfield ((ht.structures s hbody).storable hrole f hf)
  · exact hfits hrole

/-- A message with a field of an alias of text, and an alias of a message in the role of a record,
which holds text as it is. -/
def parcel : Declarations where
  space := "s"
  messages := [{ name := "Parcel", fields := [{ name := "note", type := .ofKind (.ref "Note") }] }]
  aliases :=
    [("Note", .ofKind .text),
     ("Label", .ofKind (.message
      { name := "Label",
        fields := [{ name := "id", type := .ofScalar .int },
          { name := "text", type := .ofKind .text }] }))]

/-- Both messages of the parcel include text, and the space is deployable. -/
theorem parcel_not_native :
    parcel.check.isDeployable = true ∧
      ∀ name ∈ ["Parcel", "Label"], ∃ n s, parcel.check.table.get? name = some n ∧
        n.kind = .message s ∧ ∃ f ∈ s.fields, ¬ parcel.check.table.Native f.type := by
  have h : parcel.check.isDeployable = true :=
    isDeployable_of_isEmpty (by decide) (by decide +kernel +zetaReduce) (by cbv)
  have htable : parcel.check.table = parcel.table (by decide) := table_draft _
  have hget : ∀ name, parcel.check.table.get? name = (parcel.table (by decide)).get? name := by
    rw [htable]
    exact fun _ => rfl
  have htext : ∀ {n : Node}, n.kind = .text → ¬ parcel.check.table.FitsMessage n := by
    rintro n hk hfits
    cases hfits <;> simp_all
  refine ⟨h, ?_⟩
  simp only [List.forall_mem_cons, List.not_mem_nil, false_imp_iff, implies_true, and_true]
  constructor
  · -- The alias was declared outside of every message.
    have hparcel := (hget "Parcel").trans rfl
    refine ⟨_, _, hparcel, rfl, _, List.mem_cons_self, fun hnative => ?_⟩
    have haliases := ((native_message_field_iff h (.of_get? hparcel) rfl List.mem_cons_self).1
      hnative).2
    have hnote : parcel.check.table.Names "Note" (.ofKind .text) :=
      ⟨_, (hget "Note").trans rfl, .self rfl⟩
    exact htext rfl (haliases _ _ .refl ⟨"Note", rfl, hnote, rfl⟩)
  · -- Here the text stands in the message itself.
    have hlabel := (hget "Label").trans rfl
    have hmem : ∀ {a b : Field Node}, b ∈ [a, b] := by simp
    refine ⟨_, _, hlabel, rfl, _, hmem, fun hnative => ?_⟩
    exact htext rfl (((native_message_field_iff h (.of_get? hlabel) rfl hmem).1 hnative).1
      (by simp))

end Declarations

/-! ### Tables and projections -/

namespace Table

variable {t : Table} {scope : Option (Structure Node)} {n m : Node}

/-- The type is a table or a projection, with references followed. -/
def ShowsRows (t : Table) (n : Node) : Prop :=
  t.IsRows n ∨ n.isProjection = true

/-- The type is a container in which checking lets rows pass: a maybe of a table, or any container
of a projection. -/
def LetsRowsPass (t : Table) (n : Node) : Prop :=
  (∃ inner, n.kind = .maybe inner ∧ t.IsRows inner) ∨ ∃ m ∈ n.parts, m.isProjection = true

/-- A table may not be in a container other than a maybe. -/
theorem WellFormed.letsRowsPass_of_part (ht : t.WellFormed) (hn : t.Occurs (.type scope n))
    (hm : m ∈ n.parts) (h : t.ShowsRows m) : t.LetsRowsPass n := by
  rcases h with hrows | hprojection
  · left
    have hadmissible := ht.types scope n hn
    obtain ⟨position, notes, kind⟩ := n
    cases kind with
    | maybe inner =>
      obtain rfl : m = inner := by simpa [Node.parts] using hm
      exact ⟨m, rfl, hrows⟩
    -- A key is a scalar, and rows are rejected as a range.
    | map domain range =>
      obtain ⟨⟨k, hdomain, -⟩, hrange⟩ := hadmissible
      obtain ⟨record, htable⟩ := hrows
      have hm : m = domain ∨ m = range := by simpa [Node.parts] using hm
      rcases hm with rfl | rfl
      · exact absurd (hdomain.unique htable) (by simp)
      · exact absurd ⟨record, htable⟩ hrange
    | list element =>
      obtain rfl : m = element := by simpa [Node.parts] using hm
      exact absurd hrows hadmissible
    | lazy computed formula cached =>
      obtain rfl : m = computed := by simpa [Node.parts] using hm
      exact absurd hrows hadmissible.2
    | _ => simp [Node.parts] at hm
  · exact .inr ⟨m, hm, hprojection⟩

/-- No reference stands for a projection, for a projection needs the structure around it. -/
theorem WellFormed.not_isProjection_of_names (ht : t.WellFormed) {name : String}
    (h : t.Names name m) : m.isProjection ≠ true := by
  intro hprojection
  obtain ⟨table, field, hk⟩ := Node.isProjection_iff.1 hprojection
  have hadmissible := ht.types none m h.occurs
  simp [Node.Admissible, hk] at hadmissible

/-- Rows that a type includes are the type itself or in a container that lets them pass. -/
theorem WellFormed.showsRows_or_letsRowsPass (ht : t.WellFormed) (hn : t.Occurs (.type scope n))
    (hm : t.Includes n m) (h : t.ShowsRows m) :
    t.ShowsRows n ∨ ∃ k, t.Includes n k ∧ t.LetsRowsPass k := by
  induction hm with
  | refl => exact .inl h
  | @tail k m hk hopens ih =>
    rcases hopens with hpart | ⟨name, href, hnames⟩
    · obtain ⟨place, hplace⟩ := Includes.occurs hk hn
      exact .inr ⟨k, hk, ht.letsRowsPass_of_part hplace hpart h⟩
    · -- A reference shows the rows that it stands for.
      refine ih (.inl ?_)
      obtain ⟨record, htable⟩ := h.resolve_right (ht.not_isProjection_of_names hnames)
      obtain ⟨target, hcomes, hkind⟩ := htable
      obtain rfl := (comesTo_iff_eq hnames.reference?_eq_none).1 hcomes
      exact ⟨record, target, (comesTo_iff_names href).2 hnames, hkind⟩

theorem LetsRowsPass.exists_part (h : t.LetsRowsPass n) : ∃ m ∈ n.parts, t.ShowsRows m := by
  rcases h with ⟨inner, hk, hrows⟩ | ⟨m, hm, hprojection⟩
  · exact ⟨inner, by simp [Node.parts, hk], .inl hrows⟩
  · exact ⟨m, hm, .inr hprojection⟩

/-- A type that shows rows includes a table or a projection. -/
theorem ShowsRows.exists_includes (h : t.ShowsRows n) :
    ∃ m, t.Includes n m ∧ ((∃ record, m.kind = .table record) ∨ m.isProjection = true) := by
  rcases h with ⟨record, target, hcomes, hk⟩ | hprojection
  · exact ⟨target, hcomes.includes, .inl ⟨record, hk⟩⟩
  · exact ⟨n, .refl, .inr hprojection⟩

end Table

namespace Declarations

variable {d : Declarations}

/-- **Rows**: in a deployable space, the type of a field that states a privacy includes a table or a
projection exactly when it includes a maybe of a table or a container of a projection. -/
theorem exposes_rows_iff (h : d.check.isDeployable = true) {s : Structure Node} {f : Field Node}
    (hs : d.check.table.Occurs (.body s)) (hf : f ∈ s.fields) (hp : f.privacy ≠ none) :
    (∃ m, d.check.table.Includes f.type m ∧
        ((∃ record, m.kind = .table record) ∨ m.isProjection = true)) ↔
      ∃ n, d.check.table.Includes f.type n ∧
        ((∃ inner, n.kind = .maybe inner ∧ d.check.table.IsRows inner) ∨
          ∃ m ∈ n.parts, m.isProjection = true) := by
  have ht := wellFormed_of_isDeployable h
  constructor
  · rintro ⟨m, hm, hrows⟩
    have hshows : d.check.table.ShowsRows m := by
      rcases hrows with ⟨record, hk⟩ | hprojection
      · refine .inl ⟨record, m, .self ?_, hk⟩
        exact Node.reference?_eq_none_iff.2 (by simp [hk])
      · exact .inr hprojection
    have hfield := hs.member (Structure.type_mem_types hf)
    refine (ht.showsRows_or_letsRowsPass hfield hm hshows).resolve_left ?_
    -- The type of the field itself has been checked.
    rintro (htable | hprojection)
    · exact (ht.structures s hs).tables f hf hp htable
    · obtain ⟨table, field, hk⟩ := Node.isProjection_iff.1 hprojection
      exact hp ((ht.structures s hs).projections f hf table field hk).2
  · rintro ⟨n, hn, hpass⟩
    obtain ⟨m, hm, hshows⟩ := Table.LetsRowsPass.exists_part hpass
    obtain ⟨k, hk, hrows⟩ := hshows.exists_includes
    exact ⟨k, (hn.tail (.inl hm)).trans hk, hrows⟩

/-- A document with drawers that everyone may see as a maybe of a table and, by their labels, as a
list of projections. -/
def cabinet : Declarations where
  space := "s"
  records :=
    [{ name := "Drawer",
       fields := [{ name := "id", type := .ofScalar .int },
         { name := "label", type := .ofScalar .string }] }]
  root := { Structure.emptyRoot with
    fields :=
      [{ name := "drawers", type := .ofKind (.table "Drawer") },
       { name := "spare", type := .ofKind (.maybe (.ofKind (.table "Drawer"))),
         privacy := some .everyone },
       { name := "labels",
         type := .ofKind (.list (.ofKind (.projection "drawers" "label"))),
         privacy := some .everyone }] }

/-- Everyone may see rows of the cabinet in two ways, and the space is deployable. -/
theorem cabinet_exposes_rows :
    cabinet.check.isDeployable = true ∧
      ∀ f ∈ cabinet.check.table.root.fields, f.privacy ≠ none →
        ∃ m, cabinet.check.table.Includes f.type m ∧
          ((∃ record, m.kind = .table record) ∨ m.isProjection = true) := by
  have h : cabinet.check.isDeployable = true :=
    isDeployable_of_isEmpty (by decide) (by decide +kernel +zetaReduce) (by cbv)
  have htable : cabinet.check.table = cabinet.table (by decide) := table_draft _
  refine ⟨h, fun f hf hp => (exposes_rows_iff h .root hf hp).2 ⟨f.type, .refl, ?_⟩⟩
  rw [htable] at hf
  simp only [table, document, cabinet, List.mem_cons, List.not_mem_nil, or_false] at hf
  rcases hf with rfl | rfl | rfl
  · exact absurd rfl hp
  · exact .inl ⟨_, rfl, "Drawer", _, .self rfl, rfl⟩
  · exact .inr ⟨_, List.mem_cons_self, rfl⟩

end Declarations

end ReactiveSpace
