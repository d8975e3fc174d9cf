import ReactiveSpace.Proofs.Json.Reading
import ReactiveSpace.Schema.Encode

/-!
# Taking apart what was written

The tree of an object with distinct names has its members as parts (`exists_known`): a look-up among
the parts finds the tree of the member of that name, and nothing if the object has none. So a part
that was written is read again, a part that was left out gets its default, and a list or a map is
read if its items are.
-/

namespace ReactiveSpace

/-! ### Members of objects -/

namespace Keyed

variable {β γ : Type}

@[simp] theorem get?_cons (name n : String) (v : β) (entries : List (String × β)) :
    get? name ((n, v) :: entries) = if n = name then some v else get? name entries :=
  rfl

/-- What is found in front is not looked for behind. -/
@[simp] theorem get?_append (name : String) (xs ys : List (String × β)) :
    get? name (xs ++ ys) = (get? name xs).or (get? name ys) := by
  induction xs with
  | nil => rfl
  | cons x xs ih =>
    obtain ⟨n, v⟩ := x
    rw [List.cons_append, get?, get?]
    split
    · rfl
    · exact ih

/-- Entries keep their names under a map of their values. -/
theorem get?_map (name : String) (f : β → γ) (entries : List (String × β)) :
    get? name (entries.map fun e => (e.1, f e.2)) = (get? name entries).map f := by
  induction entries with
  | nil => rfl
  | cons e entries ih =>
    obtain ⟨n, v⟩ := e
    rw [List.map_cons, get?, get?]
    split
    · rfl
    · exact ih

/-- Members that are written in groups keep to the names of the groups. This and the lemmas on
optional members are how names are shown to be distinct, without a look at what is left out. -/
theorem names_append {xs ys : List (String × β)} {names₁ names₂ : List String}
    (hxs : (names xs).Sublist names₁) (hys : (names ys).Sublist names₂) :
    (names (xs ++ ys)).Sublist (names₁ ++ names₂) := by
  rw [names, List.map_append]
  exact hxs.append hys

end Keyed

namespace Json

@[simp] theorem get?_listMember (name other : String) (vs : List Json) :
    Keyed.get? other (listMember name vs) =
      if name = other ∧ vs ≠ [] then some (.array vs) else none := by
  cases vs with
  | nil => simp [listMember]
  | cons v vs => simp [listMember, Keyed.get?]

@[simp] theorem get?_optionalMember (name other : String) (v : Option Json) :
    Keyed.get? other (optionalMember name v) = if name = other then v else none := by
  cases v with
  | none => simp [optionalMember]
  | some v => simp [optionalMember, Keyed.get?]

/-- A member for a list is one or none, of the one name. -/
theorem names_listMember (name : String) (vs : List Json) :
    (Keyed.names (listMember name vs)).Sublist [name] := by
  cases vs with
  | nil => exact List.nil_sublist _
  | cons v vs => exact List.Sublist.refl _

theorem names_optionalMember (name : String) (v : Option Json) :
    (Keyed.names (optionalMember name v)).Sublist [name] := by
  cases v with
  | none => exact List.nil_sublist _
  | some v => exact List.Sublist.refl _

/-! ### Legible members -/

@[simp] theorem legible_string (s : String) : (Json.string s).Legible := .string s

@[simp] theorem legible_bool (b : Bool) : (Json.bool b).Legible := .bool b

@[simp] theorem legible_array_iff {items : List Json} :
    (Json.array items).Legible ↔ ∀ v ∈ items, v.Legible :=
  ⟨fun | .array h => h, .array⟩

/-- The values of the members are legible. -/
def AllLegible (ms : List (String × Json)) : Prop :=
  ∀ m ∈ ms, m.2.Legible

@[simp] theorem legible_object_iff {ms : List (String × Json)} :
    (Json.object ms).Legible ↔ AllLegible ms :=
  ⟨fun | .object h => h, .object⟩

@[simp] theorem allLegible_nil : AllLegible [] :=
  List.forall_mem_nil _

@[simp] theorem allLegible_cons_iff {name : String} {v : Json} {ms : List (String × Json)} :
    AllLegible ((name, v) :: ms) ↔ v.Legible ∧ AllLegible ms :=
  List.forall_mem_cons

@[simp] theorem allLegible_append_iff {ms ms' : List (String × Json)} :
    AllLegible (ms ++ ms') ↔ AllLegible ms ∧ AllLegible ms' :=
  List.forall_mem_append

/-- Members that were encoded one by one are legible if each of them is. -/
theorem allLegible_map_iff {β : Type} {bs : List (String × β)} (encode : β → Json) :
    AllLegible (bs.map fun b => (b.1, encode b.2)) ↔ ∀ b ∈ bs, (encode b.2).Legible :=
  List.forall_mem_map

@[simp] theorem allLegible_listMember_iff {name : String} {vs : List Json} :
    AllLegible (listMember name vs) ↔ ∀ v ∈ vs, v.Legible := by
  cases vs <;> simp [listMember]

@[simp] theorem allLegible_optionalMember_iff {name : String} {v : Option Json} :
    AllLegible (optionalMember name v) ↔ ∀ w ∈ v, w.Legible := by
  cases v <;> simp [optionalMember]

namespace Tree

/-! ### Parts of objects -/

/-- Under the given names, the parts of a tree are the trees of the members of an object. -/
def Carries {t : Tree} (parts : List (String × Part t)) (names : List String)
    (ms : List (String × Json)) : Prop :=
  ∀ name ∈ names, (Keyed.get? name parts).map Subtype.val = (Keyed.get? name ms).map toTree

/-- As parts, members are paired with the tree they stand in, and nothing else is changed. -/
theorem map_val_memberParts (ts : List (String × Tree)) :
    ((memberParts ts).map fun m => (m.1, m.2.1)) = ts := by
  rw [memberParts, List.map_map]
  exact List.attach_map_subtype_val ts

theorem map_val_itemParts (ts : List Tree) : (itemParts ts).map Subtype.val = ts := by
  rw [itemParts, List.map_map]
  exact List.attach_map_subtype_val ts

/-- An object whose names are distinct has its members as parts. -/
theorem exists_known {ms : List (String × Json)} (hms : (Keyed.names ms).Nodup)
    (names : List String) :
    ∃ parts, known? names (memberParts (memberTrees ms)) = some parts ∧ Carries parts names ms := by
  have hval := map_val_memberParts (memberTrees ms)
  have hnames : (memberParts (memberTrees ms)).map Prod.fst = Keyed.names ms := by
    have hfst := congrArg (List.map Prod.fst) hval
    rw [List.map_map, memberTrees_eq_map, List.map_map] at hfst
    rw [memberTrees_eq_map]
    exact hfst
  refine ⟨(memberParts (memberTrees ms)).filter fun m => names.contains m.1, ?_, ?_⟩
  · rw [known?]
    apply if_pos
    exact (List.filter_sublist.map Prod.fst).nodup (hnames ▸ hms)
  · intro name hname
    rw [Keyed.get?_filter (List.contains_iff_mem.2 hname), ← Keyed.get?_map, hval,
      memberTrees_eq_map, Keyed.get?_map]

/-- Fields that are written in their order, though some may be left out, are found. -/
theorem exists_parts (v : Json) (names : List String) {ms : List (String × Json)}
    (hv : v = .object ms) (hms : (Keyed.names ms).Sublist names) (hnames : names.Nodup) :
    ∃ parts, v.toTree.parts? names = some parts ∧ Carries parts names ms := by
  subst hv
  exact exists_known (hms.nodup hnames) names

namespace Carries

variable {t : Tree} {β : Type} {parts : List (String × Part t)} {names : List String}
  {ms : List (String × Json)} {v : Json} {f : Part t → Option β} {b : β}

theorem congr {ms' : List (String × Json)} (h : Carries parts names ms)
    (hms : ∀ name ∈ names, Keyed.get? name ms = Keyed.get? name ms') : Carries parts names ms' := by
  intro name hname
  rw [h name hname, hms name hname]

/-- A part that was written is found under its name, as the tree of its value. -/
theorem exists_part (h : Carries parts names ms) {name : String} (hname : name ∈ names)
    (hv : Keyed.get? name ms = some v) :
    ∃ hlt, Keyed.get? name parts = some ⟨v.toTree, hlt⟩ := by
  have hp := h name hname
  rw [hv, Option.map_some, Option.map_eq_some_iff] at hp
  obtain ⟨⟨s, hlt⟩, hs, rfl⟩ := hp
  exact ⟨hlt, hs⟩

theorem get?_eq_none (h : Carries parts names ms) {name : String} (hname : name ∈ names)
    (hv : Keyed.get? name ms = none) : Keyed.get? name parts = none := by
  have hp := h name hname
  rw [hv, Option.map_none, Option.map_eq_none_iff] at hp
  exact hp

theorem required_eq (h : Carries parts names ms) {name : String} (hname : name ∈ names)
    (hv : Keyed.get? name ms = some v) (hf : ∀ hlt, f ⟨v.toTree, hlt⟩ = some b) :
    required parts name f = some b := by
  obtain ⟨hlt, hp⟩ := h.exists_part hname hv
  rw [required, hp, Option.bind_some, hf hlt]

/-- A part with a default is read if it was written. -/
theorem orElse_eq (h : Carries parts names ms) {name : String} {default : β}
    (hname : name ∈ names) (hv : Keyed.get? name ms = some v)
    (hf : ∀ hlt, f ⟨v.toTree, hlt⟩ = some b) :
    orElse parts name default f = some b := by
  obtain ⟨hlt, hp⟩ := h.exists_part hname hv
  rw [orElse, hp]
  exact hf hlt

theorem required_string {s : String} (h : Carries parts names ms) {name : String}
    (hname : name ∈ names) (hv : Keyed.get? name ms = some (.string s)) :
    required parts name (·.1.string?) = some s :=
  h.required_eq hname hv fun _ => rfl

theorem orElse_bool {b default : Bool} (h : Carries parts names ms) {name : String}
    (hname : name ∈ names) (hv : Keyed.get? name ms = some (.bool b)) :
    orElse parts name default (·.1.bool?) = some b :=
  h.orElse_eq hname hv fun _ => rfl

/-- A list that is left out when it is empty is read. -/
theorem orElse_eq_list {bs : List β} {encode : β → Json} {f : Part t → Option (List β)}
    (h : Carries parts names ms) {name : String} (hname : name ∈ names)
    (hv : Keyed.get? name ms = Keyed.get? name (listMember name (bs.map encode)))
    (hf : ∀ hlt, f ⟨(Json.array (bs.map encode)).toTree, hlt⟩ = some bs) :
    orElse parts name [] f = some bs := by
  rw [get?_listMember] at hv
  cases bs with
  | nil => rw [orElse, h.get?_eq_none hname (by simpa using hv)]
  | cons b bs => exact h.orElse_eq hname (by simpa using hv) hf

/-- A part that may be missing is read, whether it was written or not. -/
theorem optional_eq {o : Option β} {encode : β → Json} (h : Carries parts names ms)
    {name : String} (hname : name ∈ names)
    (hv : Keyed.get? name ms = Keyed.get? name (optionalMember name (o.map encode)))
    (hnull : ∀ b, (encode b).toTree ≠ .null)
    (hf : ∀ b ∈ o, ∀ hlt, f ⟨(encode b).toTree, hlt⟩ = some b) :
    optional parts name f = some o := by
  rw [get?_optionalMember, if_pos rfl] at hv
  -- What is not there is left out, and then found missing.
  cases o with
  | none => rw [optional, h.get?_eq_none hname hv]
  | some b =>
    obtain ⟨hlt, hp⟩ := h.exists_part hname hv
    rw [optional, hp]
    split
    · rename_i hnone
      exact absurd (congrArg Subtype.val (Option.some.inj hnone)) (hnull b)
    · rename_i hsome
      obtain rfl := Option.some.inj hsome
      rw [hf b rfl hlt, Option.map_some]
    · rename_i hnone
      cases hnone

theorem optional_string {o : Option String} (h : Carries parts names ms) {name : String}
    (hname : name ∈ names)
    (hv : Keyed.get? name ms = Keyed.get? name (optionalMember name (o.map .string))) :
    optional parts name (·.1.string?) = some o :=
  h.optional_eq hname hv (fun _ => Tree.noConfusion) fun _ _ _ => rfl

end Carries

/-! ### Lists and maps -/

variable {α β γ : Type}

/-- A list is read if what was written for each of its items is. -/
theorem mapM_eq_some {f : α → Option β} {view : α → γ} {encode : β → γ} {xs : List α} {bs : List β}
    (hxs : xs.map view = bs.map encode) (hf : ∀ b ∈ bs, ∀ x, view x = encode b → f x = some b) :
    xs.mapM f = some bs := by
  induction bs generalizing xs with
  | nil =>
    obtain rfl := List.map_eq_nil_iff.1 hxs
    rfl
  | cons b bs ih =>
    obtain ⟨hb, hbs⟩ := List.forall_mem_cons.1 hf
    obtain ⟨x, xs, rfl, hx, hxs⟩ := List.map_eq_cons_iff.1 hxs
    rw [List.mapM_cons, hb x hx, ih hxs hbs]
    rfl

/-- The list in a part is read if each item is. The reader gets the items as parts of the list,
because recursion is on these. -/
theorem bind_items?_mapM {bs : List β} {encode : β → Json}
    {f : Part (Json.array (bs.map encode)).toTree → Option β}
    (hf : ∀ b ∈ bs, ∀ hlt, f ⟨(encode b).toTree, hlt⟩ = some b) :
    ((Json.array (bs.map encode)).toTree.items?.bind fun items => items.mapM f) = some bs := by
  have hitems : (itemParts (itemTrees (bs.map encode))).map Subtype.val =
      bs.map fun b => (encode b).toTree := by
    rw [map_val_itemParts, itemTrees_eq_map, List.map_map]
    rfl
  refine mapM_eq_some hitems ?_
  rintro b hb ⟨_, hlt⟩ rfl
  exact hf b hb hlt

/-- A list is read if each item is. -/
theorem listOf?_eq_some {bs : List β} {encode : β → Json} {f : Tree → Option β}
    (hf : ∀ b ∈ bs, f (encode b).toTree = some b) :
    (Json.array (bs.map encode)).toTree.listOf? f = some bs := by
  rw [toTree, itemTrees_eq_map, List.map_map, listOf?]
  refine mapM_eq_some (List.map_id _) ?_
  rintro b hb _ rfl
  exact hf b hb

/-- A map is read if each value is, and if no name is given twice. -/
theorem mapOf?_eq_some {bs : List (String × β)} (encode : β → Json) {f : Tree → Option β}
    (hbs : (Keyed.names bs).Nodup) (hf : ∀ b ∈ bs, f (encode b.2).toTree = some b.2) :
    (Json.object (bs.map fun b => (b.1, encode b.2))).toTree.mapOf? f = some bs := by
  rw [toTree, memberTrees_eq_map, List.map_map, mapOf?]
  have hread : (List.map ((fun m => (m.1, m.2.toTree)) ∘ fun b => (b.1, encode b.2)) bs).mapM
      (fun m => (f m.2).map fun v => (m.1, v)) = some bs := by
    refine mapM_eq_some (List.map_id _) ?_
    rintro b hb _ rfl
    show (f (encode b.2).toTree).map (fun v => (b.1, v)) = some b
    rw [hf b hb, Option.map_some]
  rw [hread, Option.map_some, Keyed.ofPairs_eq_self hbs]

end Tree

end Json

end ReactiveSpace
