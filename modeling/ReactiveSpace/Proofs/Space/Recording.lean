import ReactiveSpace.Proofs.Space.Address
import ReactiveSpace.Proofs.Space.Kind

/-!
# What is recorded is right

Whatever the identities of the nodes are, what is recorded under the identity of a type is what this
type stands for (`Table.lookup_resolutions`): passing a type records for no other
(`Records.step`), and in the end all types have been passed. `Table.ResolvesTo` says what a type
stands for without the functions that find it (`Table.resolution?_eq_some_iff`).
-/

namespace ReactiveSpace

/-! ### The pass -/

/-- What has been recorded when some types have been passed: what one of them stands for, and
something for each of them that stands for something. -/
structure Records (t : Table) (identity : Address → Nat) (passed : List Visit)
    (found : Resolutions) : Prop where
  sound : ∀ id r, found.lookup id = some r →
    ∃ v ∈ passed, identity v.address = id ∧ v.resolution? t = some r
  complete : ∀ v ∈ passed, ∀ r, v.resolution? t = some r →
    ∃ r', found.lookup (identity v.address) = some r'

variable {t : Table}

/-- Passing one more type. -/
theorem Records.step {identity : Address → Nat} {passed : List Visit} {found : Resolutions}
    (h : Records t identity passed found) (v : Visit) :
    Records t identity (passed ++ [v]) (v.record t identity found) := by
  unfold Visit.record
  cases hv : v.resolution? t with
  -- Nothing is recorded, and nothing was to be.
  | none =>
    refine ⟨fun id r hr => ?_, fun w hw r hr => ?_⟩
    · obtain ⟨w, hw, hid⟩ := h.sound id r hr
      exact ⟨w, List.mem_append_left _ hw, hid⟩
    · rcases List.mem_append.1 hw with hw | hw
      · exact h.complete w hw r hr
      · rw [List.mem_singleton.1 hw, hv] at hr
        cases hr
  -- The new entry hides what was recorded under the identity before.
  | some r =>
    refine ⟨fun id r' hr' => ?_, fun w hw r' hr' => ?_⟩
    · rw [List.lookup_cons] at hr'
      split at hr'
      · rename_i hid
        exact ⟨v, by simp, (beq_iff_eq.1 hid).symm, hv.trans hr'⟩
      · obtain ⟨w, hw, hid⟩ := h.sound id r' hr'
        exact ⟨w, List.mem_append_left _ hw, hid⟩
    · rw [List.lookup_cons]
      split
      · exact ⟨r, rfl⟩
      · rename_i hid
        rcases List.mem_append.1 hw with hw | hw
        · exact h.complete w hw r' hr'
        · rw [List.mem_singleton.1 hw] at hid
          simp at hid

theorem records_foldl (t : Table) (identity : Address → Nat) (passed : List Visit) :
    Records t identity passed (passed.foldl (Visit.record t identity) []) := by
  induction passed using List.reverseRecOn with
  | nil => exact ⟨fun id r hr => (by cases hr), fun v hv => (by cases hv)⟩
  | append_singleton passed v ih =>
    rw [List.foldl_concat]
    exact ih.step v

/-- **Recording**: under the identity of a type stands what this type stands for. -/
theorem Table.lookup_resolutions (ids : t.Identities) {a : Address}
    {scope : Option (Structure Node)} {n : Node} (h : t.at? a = some (.type scope n)) :
    (t.resolutions ids).lookup (ids.of a) = n.resolution? t (.declared scope) := by
  have hv : ⟨a, scope, n⟩ ∈ t.visits := mem_visits_iff.2 h
  have hrecords := records_foldl t ids.of t.visits
  have hsound : ∀ r, (t.resolutions ids).lookup (ids.of a) = some r →
      n.resolution? t (.declared scope) = some r := by
    intro r hr
    obtain ⟨w, hw, hid, hresolution⟩ := hrecords.sound _ r hr
    -- Nothing else has the identity of this type, so what was recorded is its own resolution.
    obtain rfl := visit_unique hw hv (ids.distinct w hw _ hv hid)
    exact hresolution
  refine Option.ext fun r => ⟨hsound r, fun hresolution => ?_⟩
  obtain ⟨r', hr'⟩ := hrecords.complete _ hv r hresolution
  have hr : some r' = some r := (hsound r' hr').symm.trans hresolution
  exact hr'.trans hr

/-- Identities in the order in which the types are passed. -/
def Table.numbered (t : Table) : t.Identities where
  of a := (t.visits.map Visit.address).idxOf a
  distinct _ hv _ _ h := (List.idxOf_inj (List.mem_map_of_mem hv)).1 h

/-! ### What types stand for -/

/-- What a type stands for inside the structure `scope`. -/
def Table.ResolvesTo (t : Table) (scope : Option (Structure Node)) (n : Node) (r : Resolution) :
    Prop :=
  match n.kind with
  | .ref name => t.resolve name = .ok r
  | .table record => ∃ s, t.NamesKind record (.record s) ∧ r = .record s.name
  | .holder message => ∃ s, t.NamesKind message (.message s) ∧ r = .message s.name
  -- The table is a variable of the structure, the field one of the record of its rows.
  | .projection table field =>
    ∃ owner v record s p k, scope = some owner ∧ owner.field? table = some v ∧
      t.HasKind v.type (.table record) ∧ t.NamesKind record (.record s) ∧
      s.field? field = some p ∧ t.HasKind p.type (.scalar k) ∧ k.isMapDomain = true ∧
      r = .projection table s.name k
  | _ => False

theorem Outcome.resolution?_eq_some_iff {o : Outcome} {r : Resolution} :
    o.resolution? = some r ↔ o = .ok r := by
  cases o <;> simp [resolution?]

theorem Table.resolution?_eq_some_iff {scope : Option (Structure Node)} {n : Node}
    {r : Resolution} :
    n.resolution? t (.declared scope) = some r ↔ t.ResolvesTo scope n r := by
  unfold Node.resolution? ResolvesTo
  cases n.kind with
  | ref name => cases hname : t.resolve name <;> simp [hname, Except.toOption]
  | table record => rw [Outcome.resolution?_eq_some_iff, resolveTable_eq_ok_iff]
  | holder message => rw [Outcome.resolution?_eq_some_iff, resolveHolder_eq_ok_iff]
  | projection table field =>
    rw [Outcome.resolution?_eq_some_iff, resolveProjection_eq_ok_iff]
    simp only [domainOf?, Option.filter_eq_some_iff, scalarOf?_eq_some_iff, and_assoc]
  | _ => simp

end ReactiveSpace
