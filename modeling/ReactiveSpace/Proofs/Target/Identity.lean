import ReactiveSpace.Proofs.Target.View

/-!
# Types read by identity

Who goes through a checked space with the recorded resolutions alone looks every type up by the
identity of its node, goes on to the parts of a type at their addresses, and to the type of an alias
at the address of its entry. `View.expand` reads the shape of a type in this way and `View.mention`
its reflection. Whatever the identities are, both find what source and reflection are written from
(`Checked.expand_view`, `Checked.mention_view`).
-/

namespace ReactiveSpace

namespace View

/-- The shape of the type `n` at an address, below the aliases `opened`. -/
def expand (v : View) (identity : Address → Nat) (opened : List String) (a : Address) (n : Node) :
    Shape :=
  match n with
  | ⟨_, _, .scalar s⟩ => .scalar s
  | ⟨_, _, .text⟩ => .text
  | ⟨_, _, .replication service method⟩ => .replication service method
  | ⟨_, _, .list element⟩ => .list (expand v identity opened (a.below .element) element)
  | ⟨_, _, .map domain range⟩ =>
    .map (expand v identity opened (a.below .domain) domain)
      (expand v identity opened (a.below .range) range)
  | ⟨_, _, .maybe inner⟩ => .maybe (expand v identity opened (a.below .inner) inner)
  | ⟨_, _, .table row⟩ => .table (v.recordName (identity a) row)
  | ⟨_, _, .holder held⟩ => .holder (v.messageName (identity a) held)
  | ⟨_, _, .projection _ field⟩ => .projection field (v.source? (identity a))
  | ⟨_, _, .lazy computed formula cached⟩ =>
    .lazy (expand v identity opened (a.below .computed) computed) formula cached
  | ⟨_, _, .record s⟩ => .record s.name
  | ⟨_, _, .message s⟩ => .message s.name
  | ⟨_, _, .ref name⟩ =>
    match v.resolution? (identity a) with
    | some (.record key) =>
      match (v.table.get? key).bind Node.record? with
      | some s => .record s.name
      | none => .unresolved name
    | some (.message key) =>
      match (v.table.get? key).bind Node.message? with
      | some s => .message s.name
      | none => .unresolved name
    | some (.aliased key) =>
      match _hg : v.table.get? key with
      | some target =>
        if _ho : key ∈ opened then .unresolved name
        else expand v identity (key :: opened) ⟨some key, []⟩ target
      | none => .unresolved name
    | _ => .unresolved name
termination_by ((remaining v.table.names opened).length, sizeOf n)
decreasing_by
  all_goals first
    | exact Prod.Lex.left _ _ (length_remaining_cons_lt _ho (Table.mem_names_of_get? _hg))
    | exact Prod.Lex.right _ (by simp; omega)

/-- The reflection of the type `n` at an address. -/
def mention (v : View) (identity : Address → Nat) (a : Address) : Node → Json
  | ⟨position, notes, .scalar s⟩ =>
    .object (Reflection.header ⟨position, notes, .scalar s⟩ ++ [("type", .string s.name)])
  | ⟨position, notes, .text⟩ => .object (Reflection.header ⟨position, notes, .text⟩)
  | ⟨position, notes, .replication service method⟩ =>
    .object (Reflection.header ⟨position, notes, .replication service method⟩)
  | ⟨position, notes, .list element⟩ =>
    .object (Reflection.header ⟨position, notes, .list element⟩ ++
      [("type", mention v identity (a.below .element) element)])
  | ⟨position, notes, .map domain range⟩ =>
    .object (Reflection.header ⟨position, notes, .map domain range⟩ ++
      [("domain", mention v identity (a.below .domain) domain),
        ("range", mention v identity (a.below .range) range)])
  | ⟨position, notes, .maybe inner⟩ =>
    .object (Reflection.header ⟨position, notes, .maybe inner⟩ ++
      [("type", mention v identity (a.below .inner) inner)])
  | ⟨position, notes, .table record⟩ =>
    .object (Reflection.header ⟨position, notes, .table record⟩ ++
      [("record_name", .string (v.recordName (identity a) record))])
  | ⟨position, notes, .holder message⟩ =>
    .object (Reflection.header ⟨position, notes, .holder message⟩ ++
      [("message_name", .string (v.messageName (identity a) message))])
  | ⟨position, notes, .projection table field⟩ =>
    .object (Reflection.header ⟨position, notes, .projection table field⟩ ++
      [("table", .string table), ("field", .string field),
        ("domain", match v.source? (identity a) with
          | some (_, domain) =>
            .object [("nature", .string "reactive_value"), ("type", .string domain.name)]
          | none => .null)])
  | ⟨position, notes, .lazy computed formula cached⟩ =>
    .object (Reflection.header ⟨position, notes, .lazy computed formula cached⟩ ++
      [("type", mention v identity (a.below .computed) computed)])
  | ⟨_, _, .record s⟩ => Reflection.ofName s.name
  | ⟨_, _, .message s⟩ => Reflection.ofName s.name
  | ⟨position, notes, .ref name⟩ =>
    .object (Reflection.header ⟨position, notes, .ref name⟩ ++ [("ref", .string name)])

end View

/-- A reference to an alias is read like the type of the alias, unless the alias is open. -/
theorem View.expand_aliased {v : View} {identity : Address → Nat} {opened : List String}
    {a : Address} {position : Position} {notes : List Note} {name key : String} {target : Node}
    (hr : v.resolution? (identity a) = some (.aliased key))
    (hkey : v.table.get? key = some target) :
    v.expand identity opened a ⟨position, notes, .ref name⟩ =
      if key ∈ opened then .unresolved name
      else v.expand identity (key :: opened) ⟨some key, []⟩ target := by
  rw [View.expand, hr]
  dsimp only
  split
  · rename_i target' hget
    obtain rfl := Option.some.inj (hkey.symm.trans hget)
    split <;> simp_all
  · rename_i hnone
    simp [hkey] at hnone

variable {t : Table} {a : Address} {scope : Option (Structure Node)} {n : Node}

theorem Table.at?_part {step : Step} {m : Node} (h : t.at? a = some (.type scope n))
    (hm : n.part? step = some m) : t.at? (a.below step) = some (.type scope m) :=
  at?_below h (Part.below?_eq_some_iff.2 (Or.inr ⟨scope, n, m, rfl, hm, rfl⟩))

theorem Table.at?_entry {key : String} {target : Node} (h : t.get? key = some target) :
    t.at? ⟨some key, []⟩ = some (.type none target) := by
  simp [at?, h, Part.walk?]

namespace Checked

variable {c : Checked} (ids : c.table.Identities)

theorem resolution?_view (h : c.table.at? a = some (.type scope n)) :
    (c.view ids).resolution? (ids.of a) = n.resolution? c.table (.declared scope) :=
  Table.lookup_resolutions ids h

/-- What was recorded for a reference is what its name stands for. -/
theorem resolution?_view_ref {position : Position} {notes : List Note} {name : String}
    (h : c.table.at? a = some (.type scope ⟨position, notes, .ref name⟩)) {r : Resolution} :
    (c.view ids).resolution? (ids.of a) = some r ↔ c.table.resolve name = .ok r := by
  rw [resolution?_view ids h]
  show (c.table.resolve name).toOption = some r ↔ _
  cases c.table.resolve name <;> simp [Except.toOption]

/-- **Shapes** are the same by identity and by site, whatever the identities are. -/
theorem expand_view (opened : List String) (h : c.table.at? a = some (.type scope n)) :
    (c.view ids).expand ids.of opened a n = Shape.expand c.table opened (.declared scope) n := by
  -- The invariant is that the address leads to the type: parts are one step further, and the type
  -- of an alias stands in no structure, at the address of its entry.
  induction opened, a, n using View.expand.induct (c.view ids) ids.of generalizing scope with
  | case1 opened a position notes | case2 opened a position notes
  | case3 opened a position notes => rw [View.expand, Shape.expand]
  | case4 opened a position notes _ ih | case6 opened a position notes _ ih =>
    rw [View.expand, Shape.expand, ih (Table.at?_part h rfl)]
  | case5 opened a position notes domain range ihdomain ihrange =>
    rw [View.expand, Shape.expand, ihdomain (Table.at?_part h rfl),
      ihrange (Table.at?_part h rfl)]
  | case7 opened a position notes row =>
    rw [View.expand, Shape.expand, View.recordName, resolution?_view ids h]
    cases Node.resolution? c.table (.declared scope) ⟨position, notes, .table row⟩ with
    | none => rfl
    | some r => cases r <;> rfl
  | case8 opened a position notes held =>
    rw [View.expand, Shape.expand, View.messageName, resolution?_view ids h]
    cases Node.resolution? c.table (.declared scope) ⟨position, notes, .holder held⟩ with
    | none => rfl
    | some r => cases r <;> rfl
  | case9 opened a position notes rows field =>
    rw [View.expand, Shape.expand, View.source?, resolution?_view ids h]
    cases Node.resolution? c.table (.declared scope) ⟨position, notes, .projection rows field⟩ with
    | none => rfl
    | some r => cases r <;> rfl
  | case10 opened a position notes _ _ _ ih =>
    rw [View.expand, Shape.expand, ih (Table.at?_part h rfl)]
  | case11 opened a position notes s | case12 opened a position notes s =>
    rw [View.expand, Shape.expand]
  | case13 opened a position notes name key hr | case14 opened a position notes name key hr
  | case15 opened a position notes name key hr | case16 opened a position notes name key hr =>
    rw [View.expand, Shape.expand, hr, (resolution?_view_ref ids h).1 hr]
    rfl
  | case17 opened a position notes name key hr target hkey hopened =>
    rw [View.expand_aliased hr hkey, if_pos hopened,
      Table.expand_aliased _ rfl ((resolution?_view_ref ids h).1 hr) hkey, if_pos hopened]
  | case18 opened a position notes name key hr target hkey hopened ih =>
    rw [View.expand_aliased hr hkey, if_neg hopened,
      Table.expand_aliased _ rfl ((resolution?_view_ref ids h).1 hr) hkey, if_neg hopened]
    exact ih (Table.at?_entry hkey)
  | case19 opened a position notes name key hr hkey =>
    -- An alias that names resolve to is declared.
    obtain ⟨_, target, -, htarget, -⟩ :=
      Table.names_of_resolveFrom ((resolution?_view_ref ids h).1 hr)
    simp [Table.target?, show c.table.get? key = none from hkey] at htarget
  | case20 opened a position notes name hrecord hmessage haliased =>
    rw [View.expand, Shape.expand]
    cases hr : c.table.resolve name with
    | error e =>
      have hnone : (c.view ids).resolution? (ids.of a) = none := by
        refine Option.eq_none_iff_forall_ne_some.2 fun r hfound => ?_
        rw [resolution?_view_ref ids h, hr] at hfound
        cases hfound
      rw [hnone]
    | ok r =>
      have hfound := (resolution?_view_ref ids h).2 hr
      rw [hfound]
      cases r with
      | record key => exact (hrecord key hfound).elim
      | message key => exact (hmessage key hfound).elim
      | aliased key => exact (haliased key hfound).elim
      | projection => rfl

/-- **Reflections** are the same by identity and by site, whatever the identities are. -/
theorem mention_view (h : c.table.at? a = some (.type scope n)) :
    (c.view ids).mention ids.of a n = Reflection.mention c.table (.declared scope) n := by
  induction a, n using View.mention.induct generalizing scope with
  | case1 a position notes | case2 a position notes | case3 a position notes
  | case11 a position notes | case12 a position notes | case13 a position notes =>
    rw [View.mention, Reflection.mention]
  | case4 a position notes _ ih | case6 a position notes _ ih | case10 a position notes _ _ _ ih =>
    rw [View.mention, Reflection.mention, ih (Table.at?_part h rfl)]
  | case5 a position notes domain range ihdomain ihrange =>
    rw [View.mention, Reflection.mention, ihdomain (Table.at?_part h rfl),
      ihrange (Table.at?_part h rfl)]
  -- The name of the rows was recorded under the identity of the table.
  | case7 a position notes record =>
    have hname := (View.agrees (resolution?_view ids h)).2
    rw [View.mention, Reflection.mention]
    exact hname ▸ rfl
  | case8 a position notes message =>
    have hname := (View.agrees (resolution?_view ids h)).2
    rw [View.mention, Reflection.mention]
    exact hname ▸ rfl
  | case9 a position notes table field =>
    rw [View.mention, Reflection.mention, Reflection.projectionDomain, View.source?,
      resolution?_view ids h]
    cases Node.resolution? c.table (.declared scope) ⟨position, notes, .projection table field⟩ with
    | none => rfl
    | some r => cases r <;> rfl

end Checked

end ReactiveSpace
