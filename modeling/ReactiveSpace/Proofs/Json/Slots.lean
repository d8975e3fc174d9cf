import Mathlib.Data.List.Nodup
import ReactiveSpace.Proofs.Json.Parts

/-!
# Slots of structures

A structure with fixed fields has a `Slot` for each of them. Whoever reads the parts of a structure
looks at what stands in each slot (`Tree.partAt?`), so two structures are read alike if their slots
agree (`Tree.Agree`): the same stands in both, or something that is read alike, or nothing in one
and the default in the other. Slots of objects agree if the values under each name do
(`Tree.known?_agree`), in whatever order they are written and whatever else is written beside them,
and an object that has its first fields in order agrees with the array of these (`Tree.parts?_zip`).
-/

namespace ReactiveSpace

namespace Json

/-- A field of a structure: its name, the form of what stands there, and what may be written when
nothing else would be. -/
structure Slot (F : Type) where
  name : String
  form : F
  default : Option Tree := none

namespace Tree

variable {F α β : Type} {t t' : Tree}

/-- What stands under a name. -/
def partAt? (parts : List (String × Part t)) (name : String) : Option Tree :=
  (Keyed.get? name parts).map Subtype.val

/-- All that stands under a name, in order. -/
def valuesAt (name : String) (ms : List (String × Tree)) : List Tree :=
  (ms.filter fun m => m.1 == name).map Prod.snd

/-- The same stands in a slot, or something related, or the default where nothing stands. -/
inductive Agree (R : Tree → Tree → Prop) (default : Option Tree) : Option Tree → Option Tree → Prop
  | same (o : Option Tree) : Agree R default o o
  | related {v v' : Tree} : R v v' → Agree R default (some v) (some v')
  | written {d : Tree} : default = some d → Agree R default none (some d)

/-- The values under a name agree as the value of a slot, or there is more than one both times. -/
inductive AgreeAll (R : Tree → Tree → Prop) (default : Option Tree) : List Tree → List Tree → Prop
  | same (l : List Tree) : AgreeAll R default l l
  | many {l l' : List Tree} : 1 < l.length → 1 < l'.length → AgreeAll R default l l'
  | related {v v' : Tree} : R v v' → AgreeAll R default [v] [v']
  | written {d : Tree} : default = some d → AgreeAll R default [] [d]

namespace AgreeAll

variable {R : Tree → Tree → Prop} {default : Option Tree} {l l' : List Tree}

/-- A name is written twice on one side if it is on the other. -/
theorem one_lt_length_iff (h : AgreeAll R default l l') : 1 < l.length ↔ 1 < l'.length := by
  cases h with
  | same => exact Iff.rfl
  | many h h' => exact iff_of_true h h'
  | related => exact Iff.rfl
  | written => exact iff_of_false (Nat.not_lt_zero 1) (Nat.lt_irrefl 1)

/-- A single value agrees. -/
theorem head? (h : AgreeAll R default l l') (hone : l.length ≤ 1) :
    Agree R default l.head? l'.head? := by
  cases h with
  | same => exact .same _
  | many h => exact absurd h (Nat.not_lt.2 hone)
  | related hv => exact .related hv
  | written hd => exact .written hd

end AgreeAll

/-- Two structures can not be taken apart, or each of their slots agrees. -/
def PartsAgree (R : Slot F → Tree → Tree → Prop) (slots : List (Slot F))
    (parts : Option (List (String × Part t))) (parts' : Option (List (String × Part t'))) : Prop :=
  parts = none ∧ parts' = none ∨ ∃ p p', parts = some p ∧ parts' = some p' ∧
    ∀ s ∈ slots, Agree (R s) s.default (partAt? p s.name) (partAt? p' s.name)

/-- What is read from slots that agree is the same, failure included. -/
theorem PartsAgree.bind_eq {R : Slot F → Tree → Tree → Prop} {slots : List (Slot F)}
    {parts : Option (List (String × Part t))} {parts' : Option (List (String × Part t'))}
    (h : PartsAgree R slots parts parts') {g : List (String × Part t) → Option β}
    {g' : List (String × Part t') → Option β}
    (hg : ∀ p p', parts = some p →
      (∀ s ∈ slots, Agree (R s) s.default (partAt? p s.name) (partAt? p' s.name)) → g p = g' p') :
    parts.bind g = parts'.bind g' := by
  obtain ⟨rfl, rfl⟩ | ⟨p, p', rfl, rfl, hslots⟩ := h
  · rfl
  · exact hg p p' rfl hslots

/-! ### Reading slots -/

/-- A part that has to be there is what stands under its name, decoded. -/
theorem required_eq_bind (parts : List (String × Part t)) (name : String) {f : Part t → Option β}
    {g : Tree → Option β} (hf : ∀ p, f p = g p.1) :
    required parts name f = (partAt? parts name).bind g := by
  rw [required, partAt?]
  cases Keyed.get? name parts with
  | none => rfl
  | some p => exact hf p

namespace Agree

variable {R : Tree → Tree → Prop} {name : String} {parts : List (String × Part t)}
  {parts' : List (String × Part t')} {f : Part t → Option β} {f' : Part t' → Option β}

/-- A slot that must be filled is read alike on both sides. -/
theorem required_eq (h : Agree R none (partAt? parts name) (partAt? parts' name))
    (g : Tree → Option β) (hg : ∀ v v', R v v' → g v = g v') (hf : ∀ p, f p = g p.1)
    (hf' : ∀ p, f' p = g p.1) : required parts name f = required parts' name f' := by
  rw [required_eq_bind parts name hf, required_eq_bind parts' name hf']
  generalize partAt? parts name = o at h
  generalize partAt? parts' name = o' at h
  cases h with
  | same => rfl
  | related hv => exact hg _ _ hv
  | written hd => cases hd

/-- A slot with a default is read alike, as the default itself is read as the value that stands in.
-/
theorem orElse_eq {d : Tree} {b : β}
    (h : Agree R (some d) (partAt? parts name) (partAt? parts' name)) (g : Tree → Option β)
    (hg : ∀ v v', R v v' → g v = g v') (hd : g d = some b) (hf : ∀ p, f p = g p.1)
    (hf' : ∀ p, f' p = g p.1) : orElse parts name b f = orElse parts' name b f' := by
  -- Put this way, the slot is read as a tree that is always there.
  have hvalue : ∀ {t : Tree} (parts : List (String × Part t)) (f : Part t → Option β),
      (∀ p, f p = g p.1) → orElse parts name b f = ((partAt? parts name).getD d |> g) := by
    intro t parts f hf
    rw [orElse, partAt?]
    cases Keyed.get? name parts with
    | none => exact hd.symm
    | some p => exact hf p
  rw [hvalue parts f hf, hvalue parts' f' hf']
  generalize partAt? parts name = o at h
  generalize partAt? parts' name = o' at h
  cases h with
  | same => rfl
  | related hv => exact hg _ _ hv
  | written hd =>
    obtain rfl := Option.some.inj hd
    rfl

/-- What a slot holds that may also be left out or be `null`. -/
def optionalAt (g : Tree → Option β) : Option Tree → Option (Option β)
  | none | some .null => some none
  | some v => (g v).map some

/-- An optional slot is read alike, as null is read as nothing. -/
theorem optional_eq (h : Agree R (some .null) (partAt? parts name) (partAt? parts' name))
    (g : Tree → Option β) (hg : ∀ v v', R v v' → (v = .null ↔ v' = .null) ∧ g v = g v')
    (hf : ∀ p, f p = g p.1) (hf' : ∀ p, f' p = g p.1) :
    optional parts name f = optional parts' name f' := by
  have hvalue : ∀ {t : Tree} (parts : List (String × Part t)) (f : Part t → Option β),
      (∀ p, f p = g p.1) → optional parts name f = optionalAt g (partAt? parts name) := by
    intro t parts f hf
    rw [optional, partAt?]
    cases Keyed.get? name parts with
    | none => rfl
    | some p =>
      obtain ⟨v, hv⟩ := p
      cases v <;> simp [optionalAt, hf]
  rw [hvalue parts f hf, hvalue parts' f' hf']
  generalize partAt? parts name = o at h
  generalize partAt? parts' name = o' at h
  cases h with
  | same => rfl
  | @related v v' hv =>
    obtain ⟨hnull, hread⟩ := hg v v' hv
    -- If one of the two is null, so is the other.
    by_cases hv : v = .null
    · rw [hv, hnull.1 hv]
    · have hvalue : ∀ {w : Tree}, w ≠ .null → optionalAt g (some w) = (g w).map some := by
        intro w hw
        cases w <;> first | rfl | exact absurd rfl hw
      rw [hvalue hv, hvalue (mt hnull.2 hv), hread]
  | written hd =>
    obtain rfl := Option.some.inj hd
    rfl

end Agree

/-! ### Slots of objects and of arrays -/

/-- The first value under a name is the one that looking it up finds. -/
theorem head?_valuesAt (name : String) (ms : List (String × Tree)) :
    (valuesAt name ms).head? = Keyed.get? name ms := by
  induction ms with
  | nil => rfl
  | cons m ms ih =>
    obtain ⟨n, v⟩ := m
    rw [Keyed.get?_cons, valuesAt, List.filter_cons]
    by_cases hn : n = name
    · rw [if_pos (beq_iff_eq.2 hn), if_pos hn]
      rfl
    · rw [if_neg (mt beq_iff_eq.1 hn), if_neg hn]
      exact ih

theorem partAt?_memberParts (name : String) (ms : List (String × Tree)) :
    partAt? (memberParts ms) name = (valuesAt name ms).head? := by
  rw [head?_valuesAt, partAt?, ← Keyed.get?_map, map_val_memberParts]

theorem length_valuesAt (name : String) (ms : List (String × Tree)) :
    (valuesAt name ms).length = (ms.map Prod.fst).count name := by
  rw [valuesAt, List.length_map, ← List.countP_eq_length_filter, List.count, List.countP_map]
  rfl

/-- An object can be taken apart if no slot has more than one value. -/
theorem known?_memberParts (names : List String) (ms : List (String × Tree)) :
    (∃ name ∈ names, 1 < (valuesAt name ms).length) ∧ known? names (memberParts ms) = none ∨
      ∃ parts, known? names (memberParts ms) = some parts ∧
        ∀ name ∈ names, (valuesAt name ms).length ≤ 1 ∧
          partAt? parts name = (valuesAt name ms).head? := by
  have hnames : (memberParts ms).map Prod.fst = ms.map Prod.fst := by
    have hfst := congrArg (List.map Prod.fst) (map_val_memberParts ms)
    rwa [List.map_map] at hfst
  have hfilter : ((memberParts ms).filter fun m => names.contains m.1).map Prod.fst =
      (ms.map Prod.fst).filter names.contains := by
    rw [← hnames, List.filter_map]
    rfl
  rw [known?, hfilter]
  split
  · rename_i hnodup
    refine Or.inr ⟨_, rfl, fun name hname => ⟨?_, ?_⟩⟩
    · rw [length_valuesAt, ← List.count_filter (List.contains_iff_mem.2 hname)]
      exact List.nodup_iff_count_le_one.1 hnodup name
    · rw [← partAt?_memberParts, partAt?, partAt?,
        Keyed.get?_filter (List.contains_iff_mem.2 hname)]
  · -- Some name of a slot is repeated.
    rename_i hnodup
    rw [List.nodup_iff_count_le_one, not_forall] at hnodup
    obtain ⟨name, hmany⟩ := hnodup
    have hmany := Nat.lt_of_not_le hmany
    have hname : name ∈ names :=
      List.contains_iff_mem.1 (List.mem_filter.1 (List.count_pos_iff.1 (Nat.zero_lt_of_lt hmany))).2
    rw [List.count_filter (List.contains_iff_mem.2 hname), ← length_valuesAt] at hmany
    exact Or.inl ⟨⟨name, hname, hmany⟩, rfl⟩

/-- Among the known members, each name has the value it has in the object. -/
theorem partAt?_of_known? {names : List String} {ms : List (String × Tree)}
    {parts : List (String × Part (.object ms))} (h : known? names (memberParts ms) = some parts)
    {name : String} (hname : name ∈ names) : partAt? parts name = Keyed.get? name ms := by
  rcases known?_memberParts names ms with ⟨-, hnone⟩ | ⟨parts', hparts, hvalue⟩
  · rw [h] at hnone
    cases hnone
  · obtain rfl := Option.some.inj (h.symm.trans hparts)
    rw [(hvalue name hname).2, head?_valuesAt]

/-- The items of an array stand under the names in their order. -/
theorem partAt?_zip (names : List String) (items : List Tree) (name : String) :
    partAt? (names.zip (itemParts items)) name = Keyed.get? name (names.zip items) := by
  have hzip : (names.zip (itemParts items)).map (fun e => (e.1, e.2.1)) = names.zip items := by
    rw [← congrArg names.zip (map_val_itemParts items), List.zip_map_right]
    rfl
  rw [partAt?, ← Keyed.get?_map, hzip]

/-! ### Changes of an object -/

section Changes

variable {R : Tree → Tree → Prop} {default : Option Tree} {name other : String} {v v' : Tree}
  {ms ms' before after : List (String × Tree)}

/-- Members in another order leave single values as they are. -/
theorem agreeAll_of_perm (h : ms.Perm ms') :
    AgreeAll R default (valuesAt name ms) (valuesAt name ms') := by
  have hvalues : (valuesAt name ms).Perm (valuesAt name ms') := (h.filter _).map _
  -- Their order shows if there are several, and then the object is not read at all.
  rcases Nat.lt_or_ge 1 (valuesAt name ms).length with hmany | hone
  · exact .many hmany (hvalues.length_eq ▸ hmany)
  · have heq : valuesAt name ms = valuesAt name ms' := by
      revert hvalues hone
      generalize valuesAt name ms = l
      intro hvalues hone
      match l with
      | [] => exact hvalues.nil_eq
      | [_] => exact (List.perm_singleton.1 hvalues.symm).symm
      | _ :: _ :: _ => exact absurd hone (by simp)
    rw [heq]
    exact .same _

theorem valuesAt_cons_of_ne (h : name ≠ other) (v : Tree) (ms : List (String × Tree)) :
    valuesAt other ((name, v) :: ms) = valuesAt other ms := by
  rw [valuesAt, List.filter_cons, if_neg (mt beq_iff_eq.1 h), valuesAt]

theorem valuesAt_cons_self (name : String) (v : Tree) (ms : List (String × Tree)) :
    valuesAt name ((name, v) :: ms) = v :: valuesAt name ms := by
  rw [valuesAt, List.filter_cons, if_pos (beq_self_eq_true name), List.map_cons, valuesAt]

theorem valuesAt_eq_nil (h : name ∉ ms.map Prod.fst) : valuesAt name ms = [] := by
  rw [← List.length_eq_zero_iff, length_valuesAt, List.count_eq_zero]
  exact h

theorem valuesAt_append (name : String) (ms ms' : List (String × Tree)) :
    valuesAt name (ms ++ ms') = valuesAt name ms ++ valuesAt name ms' := by
  rw [valuesAt, List.filter_append, List.map_append, valuesAt, valuesAt]

/-- A value that is replaced by a related one agrees, or is not the only one. -/
theorem agreeAll_of_related (h : R v v') :
    AgreeAll R default (valuesAt name (before ++ (name, v) :: after))
      (valuesAt name (before ++ (name, v') :: after)) := by
  rw [valuesAt_append, valuesAt_append, valuesAt_cons_self, valuesAt_cons_self]
  cases valuesAt name before with
  | nil =>
    cases valuesAt name after with
    | nil => exact .related h
    | cons w ws => exact .many (by simp) (by simp)
  | cons w ws =>
    refine .many ?_ ?_ <;> rw [List.length_append, List.length_cons, List.length_cons] <;> omega

theorem valuesAt_replace (h : name ≠ other) :
    valuesAt other (before ++ (name, v) :: after) =
      valuesAt other (before ++ (name, v') :: after) := by
  rw [valuesAt_append, valuesAt_append, valuesAt_cons_of_ne h, valuesAt_cons_of_ne h]

end Changes

/-! ### Slots that agree -/

/-- Slots of objects agree if the values under their names do. -/
theorem known?_agree {R : Slot F → Tree → Tree → Prop} {slots : List (Slot F)}
    {ms ms' : List (String × Tree)}
    (h : ∀ s ∈ slots, AgreeAll (R s) s.default (valuesAt s.name ms) (valuesAt s.name ms')) :
    PartsAgree R slots (known? (slots.map Slot.name) (memberParts ms))
      (known? (slots.map Slot.name) (memberParts ms')) := by
  rcases known?_memberParts (slots.map Slot.name) ms with
    ⟨⟨name, hname, hmany⟩, hparts⟩ | ⟨parts, hparts, hvalue⟩
  · rcases known?_memberParts (slots.map Slot.name) ms' with
      ⟨-, hparts'⟩ | ⟨parts', hparts', hvalue'⟩
    · exact Or.inl ⟨hparts, hparts'⟩
    · obtain ⟨s, hs, rfl⟩ := List.mem_map.1 hname
      exact absurd ((h s hs).one_lt_length_iff.1 hmany) (Nat.not_lt.2 (hvalue' _ hname).1)
  · rcases known?_memberParts (slots.map Slot.name) ms' with
      ⟨⟨name, hname, hmany⟩, hparts'⟩ | ⟨parts', hparts', hvalue'⟩
    · obtain ⟨s, hs, rfl⟩ := List.mem_map.1 hname
      exact absurd ((h s hs).one_lt_length_iff.2 hmany) (Nat.not_lt.2 (hvalue _ hname).1)
    · refine Or.inr ⟨parts, parts', hparts, hparts', fun s hs => ?_⟩
      obtain ⟨hone, hpart⟩ := hvalue s.name (List.mem_map_of_mem hs)
      rw [hpart, (hvalue' s.name (List.mem_map_of_mem hs)).2]
      exact (h s hs).head? hone

/-- An array may be shorter than the list of slots; it fills the first of them. -/
theorem sublist_map_fst_zip (names : List String) (items : List Tree) :
    ((names.zip items).map Prod.fst).Sublist names := by
  induction names generalizing items with
  | nil => exact List.Sublist.refl _
  | cons name names ih =>
    cases items with
    | nil => exact List.nil_sublist _
    | cons item items => exact (ih items).cons_cons name

/-- An object that has its first fields in order agrees with the array of these. -/
theorem parts?_zip {R : Slot F → Tree → Tree → Prop} {slots : List (Slot F)} {items : List Tree}
    (hnodup : (slots.map Slot.name).Nodup) (hlength : items.length ≤ slots.length) :
    PartsAgree R slots
      ((Tree.object ((slots.map Slot.name).zip items)).parts? (slots.map Slot.name))
      ((Tree.array items).parts? (slots.map Slot.name)) := by
  have hone : ∀ name, (valuesAt name ((slots.map Slot.name).zip items)).length ≤ 1 := by
    intro name
    rw [length_valuesAt]
    exact List.nodup_iff_count_le_one.1 ((sublist_map_fst_zip _ items).nodup hnodup) name
  rcases known?_memberParts (slots.map Slot.name) ((slots.map Slot.name).zip items) with
    ⟨⟨name, -, hmany⟩, -⟩ | ⟨parts, hparts, hvalue⟩
  · exact absurd hmany (Nat.not_lt.2 (hone name))
  · refine Or.inr ⟨parts, (slots.map Slot.name).zip (itemParts items), hparts, ?_, fun s hs => ?_⟩
    · rw [parts?, if_pos (by rwa [List.length_map])]
    · rw [(hvalue s.name (List.mem_map_of_mem hs)).2, head?_valuesAt, partAt?_zip]
      exact .same _

end Tree

end Json

end ReactiveSpace
