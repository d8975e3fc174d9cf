import ReactiveSpace.Proofs.Space.Recording
import ReactiveSpace.Proofs.Target.Expansion
import ReactiveSpace.Reflection
import ReactiveSpace.Target.View

/-!
# Reading what was recorded

Source and reflection are written from what a type stands for at its site. Who looks the type up by
its identity instead finds the same (`View.agrees`). In a deployable space every type that has to
stand for something does, so who looks it up never falls back on anything
(`Table.WellFormed.serves`). `Draft.check_records_resolutions` puts these together.
-/

namespace ReactiveSpace

variable {t : Table} {scope : Option (Structure Node)} {n : Node} {v : View} {id : Nat}

/-! ### Readers -/

/-- A resolution that leads to an entry is read as this entry. -/
theorem View.target?_eq {r : Resolution} {target : Node} (written : String)
    (hr : v.resolution? id = some r) (htarget : v.table.target? r = some target) :
    v.target? id written = some target := by
  unfold target?
  rw [hr]
  cases r with
  | projection table record domain => cases htarget
  | _ => exact htarget

theorem Table.shape_of_hasKind_scalar {k : Scalar} (h : t.HasKind n (.scalar k)) :
    n.shape t (.declared scope) = .scalar k :=
  expand_of_hasKind_scalar h (by simp)

/-- Keys are spelled alike by their scalar and by their shape. -/
theorem View.keyType_eq :
    v.keyType (.declared scope) n = (n.shape v.table (.declared scope)).nativeType := by
  unfold keyType
  cases hkey : v.table.domainOf? n with
  | none => rfl
  | some key =>
    have hscalar := Table.scalarOf?_eq_some_iff.1 (Option.filter_eq_some_iff.1 hkey).1
    rw [Table.shape_of_hasKind_scalar hscalar]
    rfl

/-! ### Readers and writers -/

/-- What is written for a type is what is found under its identity. -/
def View.Agrees (v : View) (id : Nat) (scope : Option (Structure Node)) (n : Node) : Prop :=
  match n.kind with
  | .table record =>
    n.shape v.table (.declared scope) = .table (v.recordName id record) ∧
      Reflection.resolvedName v.table (.declared scope) n record =
        .string (v.recordName id record)
  | .holder message =>
    n.shape v.table (.declared scope) = .holder (v.messageName id message) ∧
      Reflection.resolvedName v.table (.declared scope) n message =
        .string (v.messageName id message)
  | .projection _ field => n.shape v.table (.declared scope) = .projection field (v.source? id)
  | .ref name =>
    match v.target? id name with
    | some target =>
      ∃ opened, n.shape v.table (.declared scope) =
        Shape.expand v.table opened (.declared none) target
    | none => n.shape v.table (.declared scope) = .unresolved name
  | .map domain _ =>
    (domain.shape v.table (.declared scope)).nativeType = v.keyType (.declared scope) domain
  | _ => True

/-- Who finds under the identity of a type what the type stands for agrees with the writers. -/
theorem View.agrees (hid : v.resolution? id = n.resolution? v.table (.declared scope)) :
    v.Agrees id scope n := by
  obtain ⟨position, notes, kind⟩ := n
  unfold Agrees Node.shape
  -- Where nothing was recorded, readers and writers fall back on the same name.
  cases kind with
  | table record =>
    unfold recordName Reflection.resolvedName
    rw [Shape.expand, hid]
    cases hr : Node.resolution? v.table (.declared scope) ⟨position, notes, .table record⟩ with
    | none => exact ⟨rfl, rfl⟩
    | some r =>
      obtain ⟨s, -, rfl⟩ := Table.resolution?_eq_some_iff.1 hr
      exact ⟨rfl, rfl⟩
  | holder message =>
    unfold messageName Reflection.resolvedName
    rw [Shape.expand, hid]
    cases hr : Node.resolution? v.table (.declared scope) ⟨position, notes, .holder message⟩ with
    | none => exact ⟨rfl, rfl⟩
    | some r =>
      obtain ⟨s, -, rfl⟩ := Table.resolution?_eq_some_iff.1 hr
      exact ⟨rfl, rfl⟩
  | projection table field =>
    unfold source?
    rw [Shape.expand, hid]
    cases hr : Node.resolution? v.table (.declared scope)
        ⟨position, notes, .projection table field⟩ with
    | none => rfl
    | some r =>
      obtain ⟨-, -, -, s, -, k, -, -, -, -, -, -, -, rfl⟩ := Table.resolution?_eq_some_iff.1 hr
      rfl
  | ref name =>
    rcases v.table.resolve_cases name with ⟨e, hr, hnone⟩ | ⟨r, target, hr, htarget, hnames⟩
    · have hmissing : v.target? id name = none := by
        simp [target?, hid, Node.resolution?, hr, Except.toOption, Table.followName?]
      simp only [hmissing]
      rw [Shape.expand, hr]
    · have hfound : v.target? id name = some target :=
        target?_eq name (by simp [hid, Node.resolution?, hr, Except.toOption]) htarget
      simp only [hfound]
      rcases Table.expand_ref (n := ⟨position, notes, .ref name⟩) [] rfl hnames with
        ⟨-, -, heq⟩ | ⟨-, key, -, heq⟩
      · exact ⟨[], heq⟩
      · exact ⟨[key], heq.trans (if_neg List.not_mem_nil)⟩
  | map domain range => exact keyType_eq.symm
  | _ => trivial

/-- Who reads a type finds what was recorded for it, and falls back on nothing. -/
def View.Serves (v : View) (id : Nat) (scope : Option (Structure Node)) (n : Node) : Prop :=
  match n.kind with
  | .table record =>
    ∃ s, v.table.NamesKind record (.record s) ∧ v.resolution? id = some (.record s.name) ∧
      v.recordName id record = s.name
  | .holder message =>
    ∃ s, v.table.NamesKind message (.message s) ∧ v.resolution? id = some (.message s.name) ∧
      v.messageName id message = s.name
  | .projection table _ =>
    ∃ record domain, v.resolution? id = some (.projection table record domain) ∧
      v.source? id = some (record, domain)
  | .ref name =>
    ∃ r target, v.resolution? id = some r ∧ v.table.target? r = some target ∧
      v.target? id name = some target ∧ v.table.followName? name = some target
  | .map domain _ =>
    ∃ key, v.table.domainOf? domain = some key ∧
      v.keyType (.declared scope) domain = key.nativeType
  | _ => True

/-- In a well-formed table everybody who looks up a type is served. -/
theorem Table.WellFormed.serves (ht : v.table.WellFormed) (hn : v.table.Occurs (.type scope n))
    (hid : v.resolution? id = n.resolution? v.table (.declared scope)) : v.Serves id scope n := by
  unfold View.Serves
  cases hk : n.kind with
  | table record =>
    obtain ⟨s, hs⟩ := ht.exists_rows hn hk
    have hfound := hid.trans (resolution?_of_table hk hs)
    exact ⟨s, hs, hfound, by simp [View.recordName, hfound]⟩
  | holder message =>
    obtain ⟨s, hs⟩ := ht.exists_held hn hk
    have hfound := hid.trans (resolution?_of_holder hk hs)
    exact ⟨s, hs, hfound, by simp [View.messageName, hfound]⟩
  -- The record is resolved together with its key.
  | projection table field =>
    obtain ⟨_, _, _, s, k, -, -, -, -, -, hresolve⟩ := ht.exists_projection hn hk
    have hfound : v.resolution? id = some (.projection table s.name k) := by
      simp [hid, Node.resolution?, hk, hresolve, Outcome.resolution?]
    exact ⟨s.name, k, hfound, by simp [View.source?, hfound]⟩
  | ref name =>
    obtain ⟨target, hnames⟩ := ht.exists_names hn (Node.reference?_eq_some_iff.2 hk)
    obtain ⟨r, hr, htarget⟩ := resolve_eq_ok_iff_names.2 hnames
    have hfound : v.resolution? id = some r := by
      simp [hid, Node.resolution?, hk, hr, Except.toOption]
    exact ⟨r, target, hfound, htarget, View.target?_eq name hfound htarget,
      followName?_eq_some_iff.2 hnames⟩
  | map domain range =>
    obtain ⟨key, hkey⟩ := domainOf?_isSome_iff.2 (ht.isKey_domain hn hk)
    exact ⟨key, hkey, by simp [View.keyType, hkey]⟩
  | _ => trivial

/-! ### Checked spaces -/

namespace Draft

/-- **Resolutions** are right and complete. Under the identities of the types that occur stands what
these types stand for, and nothing else was recorded; source and reflection are written from what is
recorded. In a deployable space nobody who reads a type falls back on anything. -/
theorem check_records_resolutions (draft : Draft) (ids : draft.check.table.Identities) :
    (∀ scope n, draft.check.table.Occurs (.type scope n) ↔
      ∃ a, draft.check.table.at? a = some (.type scope n)) ∧
    (∀ a scope n, draft.check.table.at? a = some (.type scope n) →
      (∀ r, (draft.check.view ids).resolution? (ids.of a) = some r ↔
        draft.check.table.ResolvesTo scope n r) ∧
      (draft.check.view ids).Agrees (ids.of a) scope n) ∧
    (∀ id r, (draft.check.view ids).resolution? id = some r →
      ∃ a scope n, draft.check.table.at? a = some (.type scope n) ∧ ids.of a = id ∧
        draft.check.table.ResolvesTo scope n r) ∧
    (draft.check.isDeployable = true →
      ∀ a scope n, draft.check.table.at? a = some (.type scope n) →
        (draft.check.view ids).Serves (ids.of a) scope n) := by
  have hlookup : ∀ a scope n, draft.check.table.at? a = some (.type scope n) →
      (draft.check.view ids).resolution? (ids.of a) =
        n.resolution? draft.check.table (.declared scope) :=
    fun a scope n ha => Table.lookup_resolutions ids ha
  refine ⟨fun scope n => Table.occurs_iff_exists_at?, fun a scope n ha => ⟨fun r => ?_, ?_⟩,
    fun id r hr => ?_, fun hdeployable a scope n ha => ?_⟩
  · rw [hlookup a scope n ha]
    exact Table.resolution?_eq_some_iff
  · exact View.agrees (hlookup a scope n ha)
  · obtain ⟨v, hv, hid, hresolution⟩ :=
      (records_foldl _ ids.of draft.check.table.visits).sound id r hr
    exact ⟨v.address, v.scope, v.node, Table.mem_visits_iff.1 hv, hid,
      Table.resolution?_eq_some_iff.1 hresolution⟩
  · have ht : (draft.check.view ids).table.WellFormed := wellFormed_of_isDeployable hdeployable
    exact ht.serves (Table.occurs_of_at? ha) (hlookup a scope n ha)

end Draft

/-- A table whose rows are named by an alias, its rows by their identity, and a message that may be
missing. -/
def market : Declarations where
  space := "market"
  records := [{ name := "Item", fields := [{ name := "id", type := .ofScalar .int }] }]
  messages := [{ name := "Note", role := .message }]
  aliases := [("Row", .ofKind (.ref "Item"))]
  root := { Structure.emptyRoot with
    fields := [{ name := "all", type := .ofKind (.table "Row") },
      { name := "by", type := .ofKind (.projection "all" "id") },
      { name := "top", type := .ofKind (.maybe (.ofKind (.holder "Note"))) }] }

/-- The readers of the market find the item behind the alias, the record and the keys of the
projection, the message, and what the alias stands for. -/
theorem market_resolutions :
    let c := market.draft.check
    let ids := c.table.numbered
    c.isDeployable = true ∧
      (c.view ids).recordName (ids.of ⟨none, [.field 0]⟩) "Row" = "Item" ∧
      ((c.view ids).source? (ids.of ⟨none, [.field 1]⟩)).isSome = true ∧
      (c.view ids).messageName (ids.of ⟨none, [.inner, .field 2]⟩) "Note" = "Note" ∧
      (c.view ids).target? (ids.of ⟨some "Row", []⟩) "Item" = c.table.followName? "Item" := by
  intro c ids
  have hdeployable : c.isDeployable = true :=
    Declarations.isDeployable_of_isEmpty (by decide) (by decide +kernel +zetaReduce) (by cbv)
  -- Each of these nodes is served by what was recorded at its address.
  have hserves := (market.draft.check_records_resolutions ids).2.2.2 hdeployable
  have htable : c.table.at? ⟨none, [.field 0]⟩ =
      some (.type (some market.document) (.ofKind (.table "Row"))) := rfl
  have hprojection : c.table.at? ⟨none, [.field 1]⟩ =
      some (.type (some market.document) (.ofKind (.projection "all" "id"))) := rfl
  have hholder : c.table.at? ⟨none, [.inner, .field 2]⟩ =
      some (.type (some market.document) (.ofKind (.holder "Note"))) := rfl
  have hrow : c.table.at? ⟨some "Row", []⟩ = some (.type none (.ofKind (.ref "Item"))) := rfl
  have hdeclared : c.table = market.table (by decide) := Declarations.table_draft _
  have hrecords : c.table.followName? "Row" = market.records.head?.map .ofRecord := by
    rw [hdeclared]
    cbv
  have hmessages : c.table.followName? "Note" = market.messages.head?.map .ofMessage := by
    rw [hdeclared]
    cbv
  obtain ⟨item, hitem, -, hrecordName⟩ := hserves _ _ _ htable
  obtain ⟨record, domain, -, hsource⟩ := hserves _ _ _ hprojection
  obtain ⟨note, hnote, -, hmessageName⟩ := hserves _ _ _ hholder
  obtain ⟨r, target, -, -, htarget, hfollow⟩ := hserves _ _ _ hrow
  obtain rfl := Kind.record.inj
    (hitem.unique ⟨_, Table.followName?_eq_some_iff.1 hrecords, rfl⟩)
  obtain rfl := Kind.message.inj
    (hnote.unique ⟨_, Table.followName?_eq_some_iff.1 hmessages, rfl⟩)
  exact ⟨hdeployable, hrecordName, by rw [hsource]; rfl, hmessageName, htarget.trans hfollow.symm⟩

end ReactiveSpace
