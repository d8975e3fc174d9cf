import ReactiveSpace.Document.Settings
import ReactiveSpace.Proofs.Json.Reading

/-!
# What settings keep of a configuration

A value becomes a setting unless it holds a `null` at any depth (`Setting.ofJson?_eq_none_iff`),
and the setting stands for the same value if its integers fit 64 bits with a sign
(`Setting.map_toJson_ofJson?`). An object has the settings of its members, one by one.
-/

namespace ReactiveSpace

namespace Json

mutual

/-- Whether a value is `null` or holds one. -/
def holdsNull : Json → Bool
  | .null => true
  | .bool _ | .number _ | .string _ => false
  | .array items => itemsHoldNull items
  | .object members => membersHoldNull members

/-- Whether one of the items of an array holds a `null`. -/
def itemsHoldNull : List Json → Bool
  | [] => false
  | v :: vs => v.holdsNull || itemsHoldNull vs

/-- Whether one of the members of an object holds a `null`. -/
def membersHoldNull : List (String × Json) → Bool
  | [] => false
  | (_, v) :: vs => v.holdsNull || membersHoldNull vs

end

end Json

namespace Setting

open Json (itemsHoldNull membersHoldNull)

/-! ### Values without a setting -/

/-- A list has no setting when one of its items has none. -/
theorem ofItems?_eq_none_iff {vs : List Json}
    (h : ∀ v ∈ vs, ofJson? v = none ↔ v.holdsNull = true) :
    ofItems? vs = none ↔ itemsHoldNull vs = true := by
  induction vs with
  | nil => simp [ofItems?, itemsHoldNull]
  | cons v vs ih =>
    obtain ⟨hv, hvs⟩ := List.forall_mem_cons.1 h
    rw [ofItems?, itemsHoldNull, Bool.or_eq_true, ← hv, ← ih hvs]
    cases ofJson? v <;> cases ofItems? vs <;> simp

/-- An object has no setting when one of its members has none. -/
theorem ofMembers?_eq_none_iff {ms : List (String × Json)}
    (h : ∀ m ∈ ms, ofJson? m.2 = none ↔ m.2.holdsNull = true) :
    ofMembers? ms = none ↔ membersHoldNull ms = true := by
  induction ms with
  | nil => simp [ofMembers?, membersHoldNull]
  | cons m ms ih =>
    obtain ⟨name, v⟩ := m
    obtain ⟨hv, hms⟩ := List.forall_mem_cons.1 h
    rw [ofMembers?, membersHoldNull, Bool.or_eq_true, ← hv, ← ih hms]
    cases ofJson? v <;> cases ofMembers? ms <;> simp

/-- Only a value that holds a `null` has no setting. -/
theorem ofJson?_eq_none_iff (v : Json) : ofJson? v = none ↔ v.holdsNull = true := by
  induction v using Json.induction with
  | null | bool | string => simp [ofJson?, Json.holdsNull]
  | number n => cases n <;> simp [ofJson?, Json.holdsNull]
  | array items ih =>
    rw [ofJson?, Option.map_eq_none_iff, Json.holdsNull, ofItems?_eq_none_iff ih]
  | object members ih =>
    rw [ofJson?, Option.map_eq_none_iff, Json.holdsNull, ofMembers?_eq_none_iff ih]

/-! ### Values of settings -/

mutual

/-- The value that a setting stands for. -/
def toJson : Setting → Json
  | .bool b => .bool b
  | .int n | .long n => .number (.integer n)
  | .double d => .number (.double d)
  | .text s => .string s
  | .list items => .array (itemsToJson items)
  | .map entries => .object (membersToJson entries)

/-- The values of the items of a list. -/
def itemsToJson : List Setting → List Json
  | [] => []
  | s :: ss => s.toJson :: itemsToJson ss

/-- The values of the entries of a map. -/
def membersToJson : List (String × Setting) → List (String × Json)
  | [] => []
  | (name, s) :: ss => (name, s.toJson) :: membersToJson ss

end

/-- An integer within 64 bits is kept as it is. -/
theorem toJson_ofInt {n : Int} (hlow : -2 ^ 63 ≤ n) (hhigh : n < 2 ^ 63) :
    (ofInt n).toJson = .number (.integer n) := by
  have hfits : fits 64 n = true := by
    rw [fits, Bool.and_eq_true, decide_eq_true_iff, decide_eq_true_iff]
    exact ⟨hlow, hhigh⟩
  rw [ofInt, if_pos hfits]
  split <;> rfl

/-- A list is kept when its items are. -/
theorem map_itemsToJson_ofItems? {vs : List Json}
    (h : ∀ v ∈ vs, (ofJson? v).map toJson = some v) :
    (ofItems? vs).map itemsToJson = some vs := by
  induction vs with
  | nil => rfl
  | cons v vs ih =>
    obtain ⟨hv, hvs⟩ := List.forall_mem_cons.1 h
    obtain ⟨s, hs, rfl⟩ := Option.map_eq_some_iff.1 hv
    obtain ⟨ss, hss, rfl⟩ := Option.map_eq_some_iff.1 (ih hvs)
    rw [ofItems?, hs, hss, Option.map_some, itemsToJson]

/-- An object is kept when its members are. -/
theorem map_membersToJson_ofMembers? {ms : List (String × Json)}
    (h : ∀ m ∈ ms, (ofJson? m.2).map toJson = some m.2) :
    (ofMembers? ms).map membersToJson = some ms := by
  induction ms with
  | nil => rfl
  | cons m ms ih =>
    obtain ⟨name, v⟩ := m
    obtain ⟨hv, hms⟩ := List.forall_mem_cons.1 h
    obtain ⟨s, hs, rfl⟩ := Option.map_eq_some_iff.1 hv
    obtain ⟨ss, hss, rfl⟩ := Option.map_eq_some_iff.1 (ih hms)
    rw [ofMembers?, hs, hss, Option.map_some, membersToJson]

/-- A list without null has no item with it. -/
theorem forall_mem_of_itemsHoldNull {vs : List Json} (h : itemsHoldNull vs = false) :
    ∀ v ∈ vs, v.holdsNull = false := by
  induction vs with
  | nil => exact List.forall_mem_nil _
  | cons v vs ih =>
    rw [itemsHoldNull, Bool.or_eq_false_iff] at h
    exact List.forall_mem_cons.2 ⟨h.1, ih h.2⟩

/-- An object without null has no member with it. -/
theorem forall_mem_of_membersHoldNull {ms : List (String × Json)}
    (h : membersHoldNull ms = false) : ∀ m ∈ ms, m.2.holdsNull = false := by
  induction ms with
  | nil => exact List.forall_mem_nil _
  | cons m ms ih =>
    rw [membersHoldNull, Bool.or_eq_false_iff] at h
    exact List.forall_mem_cons.2 ⟨h.1, ih h.2⟩

/-- The setting of a value stands for this value, if its integers are below `2^63`. -/
theorem map_toJson_ofJson? {v : Json} (h : v.Proper) (hnull : v.holdsNull = false)
    (hbelow : ∀ n, .integer n ∈ v.numbers → n < 2 ^ 63) : (ofJson? v).map toJson = some v := by
  induction h with
  | null => cases hnull
  | bool | string | double => rfl
  | @integer n hlow _ =>
    rw [ofJson?, Option.map_some, toJson_ofInt hlow (hbelow n List.mem_cons_self)]
  -- What is asked of the list is asked of its items, which is where the integers are.
  | array _ ih =>
    have hitems := map_itemsToJson_ofItems? fun v hv =>
      ih v hv (forall_mem_of_itemsHoldNull hnull v hv) fun n hn =>
        hbelow n (Json.numbers_subset_itemNumbers hv hn)
    obtain ⟨ss, hss, rfl⟩ := Option.map_eq_some_iff.1 hitems
    rw [ofJson?, hss, Option.map_some, Option.map_some, toJson]
  | object _ _ ih =>
    have hmembers := map_membersToJson_ofMembers? fun m hm =>
      ih m hm (forall_mem_of_membersHoldNull hnull m hm) fun n hn =>
        hbelow n (Json.numbers_subset_memberNumbers hm hn)
    obtain ⟨ss, hss, rfl⟩ := Option.map_eq_some_iff.1 hmembers
    rw [ofJson?, hss, Option.map_some, Option.map_some, toJson]

end Setting

namespace Settings

/-! ### The settings of an object -/

/-- The names of the settings are those of the members without a `null`, in order. -/
theorem names_mapOfMembers (ms : List (String × Json)) :
    Keyed.names (mapOfMembers ms) = Keyed.names (ms.filter fun m => !m.2.holdsNull) := by
  rw [Keyed.names, Keyed.names, mapOfMembers, List.map_filterMap, ← List.filterMap_eq_map,
    List.filterMap_filter]
  refine List.filterMap_congr fun m _ => ?_
  have hnone := Setting.ofJson?_eq_none_iff m.2
  cases hm : Setting.ofJson? m.2 <;> simp_all

/-- What a member of an object with distinct names becomes is found under its name. -/
theorem get?_mapOfMembers {ms : List (String × Json)} (hd : (Keyed.names ms).Nodup)
    {name : String} {v : Json} {s : Setting} (hv : (name, v) ∈ ms)
    (hs : Setting.ofJson? v = some s) : Keyed.get? name (mapOfMembers ms) = some s := by
  have hnames : (Keyed.names (mapOfMembers ms)).Nodup := by
    rw [names_mapOfMembers]
    exact (List.filter_sublist.map Prod.fst).nodup hd
  have hmem : (name, s) ∈ mapOfMembers ms :=
    List.mem_filterMap.2 ⟨(name, v), hv, by simp [hs]⟩
  exact Keyed.get?_of_mem hnames hmem

/-- A member without a `null` is kept as it is. -/
theorem map_toJson_get?_mapOfMembers {ms : List (String × Json)} (h : (Json.object ms).Proper)
    {name : String} {v : Json} (hv : (name, v) ∈ ms) (hnull : v.holdsNull = false)
    (hbelow : ∀ n, .integer n ∈ v.numbers → n < 2 ^ 63) :
    (Keyed.get? name (mapOfMembers ms)).map Setting.toJson = some v := by
  cases h with
  | object hnames hproper =>
    have hkept := Setting.map_toJson_ofJson? (hproper (name, v) hv) hnull hbelow
    obtain ⟨s, hs, hvalue⟩ := Option.map_eq_some_iff.1 hkept
    rw [get?_mapOfMembers hnames hv hs, Option.map_some, hvalue]

end Settings

end ReactiveSpace
