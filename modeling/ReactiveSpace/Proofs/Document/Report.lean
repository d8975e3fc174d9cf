import ReactiveSpace.Document.TestRun
import ReactiveSpace.Proofs.Json.Slots

/-!
# What a report states

A unit reports on a test by a value. `TestResult.StatedBy` says which results a value states, field
by field and without reading it: a report is an object, in which a field may be left out but not
repeated, or the array of the first fields. A result is read from a report exactly if the report
states it (`TestResult.ofTree?_toTree_eq_some_iff`), so a report that states nothing is not read.
-/

namespace ReactiveSpace

open Json (Tree)
open Json.Tree (orElse partAt?)

/-! ### Statements -/

/-- The number that a field states; a field that is not there states zero. -/
def Json.StatesWord : Option Json → UInt32 → Prop
  | none, w => w = 0
  | some v, w => v = .ofNat w.toNat

/-- The texts that a field states; a field that is not there states none. -/
def Json.StatesTexts : Option Json → List String → Prop
  | none, texts => texts = []
  | some v, texts => v = .array (texts.map .string)

/-- The fields of a result, in their order. -/
def TestResult.names : List String := ["assertions", "failures", "log"]

/-- A result is stated by an object, where a field may be left out but not repeated and members of
other names do not count, or by the array of the first fields. -/
inductive TestResult.StatedBy (r : TestResult) : Json → Prop where
  | object {ms : List (String × Json)}
    (honce : ∀ name ∈ TestResult.names, (Keyed.names ms).count name ≤ 1)
    (hassertions : Json.StatesWord (Keyed.get? "assertions" ms) r.assertions)
    (hfailures : Json.StatesTexts (Keyed.get? "failures" ms) r.failures)
    (hlog : Json.StatesTexts (Keyed.get? "log" ms) r.log) : StatedBy r (.object ms)
  | array {items : List Json} (hlength : items.length ≤ 3)
    (hassertions : Json.StatesWord items[0]? r.assertions)
    (hfailures : Json.StatesTexts items[1]? r.failures)
    (hlog : Json.StatesTexts items[2]? r.log) : StatedBy r (.array items)

/-! ### Fields -/

namespace Json

/-- A number of 32 bits is read from the value that is this number. -/
theorem word?_toTree_eq_some_iff {v : Json} {w : UInt32} :
    v.toTree.word? = some w ↔ v = .ofNat w.toNat := by
  constructor
  · intro h
    cases v with
    | number n =>
      cases n with
      -- A number in the range is the word that it is read as, since it is below the bound.
      | integer n =>
        simp only [toTree, Tree.word?, Option.ite_none_right_eq_some, Option.some.injEq] at h
        obtain ⟨⟨hn, hlt⟩, rfl⟩ := h
        have hpow : Nat.pow 2 32 = 4294967296 := rfl
        have hbound : n.toNat < 4294967296 := by omega
        rw [ofNat, UInt32.toNat_ofNat_of_lt' hbound, Int.toNat_of_nonneg hn]
      | double x => simp [toTree, Tree.word?] at h
    | null | bool | string | array | object => simp [toTree, Tree.word?] at h
  · rintro rfl
    have hlt : w.toNat < 2 ^ 32 := w.toNat_lt
    have hfits : (0 : Int) ≤ (w.toNat : Int) ∧ (w.toNat : Int) < (Nat.pow 2 32 : Int) :=
      ⟨Int.natCast_nonneg _, by exact_mod_cast hlt⟩
    rw [ofNat, toTree, Tree.word?, if_pos hfits, Int.toNat_natCast, UInt32.ofNat_toNat]

/-- A text is read from the value that is this text. -/
theorem string?_toTree_eq_some_iff {v : Json} {text : String} :
    v.toTree.string? = some text ↔ v = .string text := by
  cases v <;> simp [toTree, Tree.string?]

/-- Texts are read from the array of these texts. -/
theorem listOf?_string?_toTree_eq_some_iff {v : Json} {texts : List String} :
    v.toTree.listOf? Tree.string? = some texts ↔ v = .array (texts.map .string) := by
  constructor
  · intro h
    cases v with
    | array items =>
      rw [toTree, Tree.listOf?, itemTrees_eq_map] at h
      -- The items are read one by one, and each has to be a text.
      induction items generalizing texts with
      | nil =>
        obtain rfl : [] = texts := Option.some.inj h
        rfl
      | cons v items ih =>
        rw [List.map_cons, List.mapM_cons] at h
        obtain ⟨text, htext, h⟩ := Option.bind_eq_some_iff.1 h
        obtain ⟨rest, hrest, h⟩ := Option.bind_eq_some_iff.1 h
        obtain rfl : text :: rest = texts := Option.some.inj h
        obtain rfl := string?_toTree_eq_some_iff.1 htext
        rw [Json.array.inj (ih hrest), List.map_cons]
    | null | bool | number | string | object => simp [toTree, Tree.listOf?] at h
  · rintro rfl
    exact Tree.listOf?_eq_some fun _ _ => rfl

/-- A field with a default is read as what stands there, or as the default where nothing does. -/
theorem orElse_eq_some_iff {t : Tree} {β : Type} {parts : List (String × Tree.Part t)}
    {name : String} {b x : β} {g : Tree → Option β} :
    orElse parts name b (fun p => g p.1) = some x ↔
      match partAt? parts name with
      | none => x = b
      | some v => g v = some x := by
  rw [orElse, partAt?]
  cases Keyed.get? name parts with
  | none => simp [eq_comm]
  | some p => rfl

/-- A field with a number is read as it states. -/
theorem orElse_word?_eq_some_iff {t : Tree} {parts : List (String × Tree.Part t)} {name : String}
    {o : Option Json} {w : UInt32} (ho : partAt? parts name = o.map toTree) :
    orElse parts name 0 (·.1.word?) = some w ↔ StatesWord o w := by
  rw [orElse_eq_some_iff (g := Tree.word?), ho]
  cases o with
  | none => exact Iff.rfl
  | some v => exact word?_toTree_eq_some_iff

/-- A field with texts is read as it states. -/
theorem orElse_texts_eq_some_iff {t : Tree} {parts : List (String × Tree.Part t)} {name : String}
    {o : Option Json} {texts : List String} (ho : partAt? parts name = o.map toTree) :
    orElse parts name [] (·.1.listOf? Tree.string?) = some texts ↔ StatesTexts o texts := by
  rw [orElse_eq_some_iff (g := Tree.listOf? Tree.string?), ho]
  cases o with
  | none => exact Iff.rfl
  | some v => exact listOf?_string?_toTree_eq_some_iff

end Json

/-! ### Reports -/

namespace TestResult

/-- What is read from a tree that can be taken apart. -/
theorem ofTree?_eq_some_iff {t : Tree} {parts : List (String × Tree.Part t)} {r : TestResult}
    (hparts : t.parts? names = some parts) {o : String → Option Json}
    (ho : ∀ name ∈ names, partAt? parts name = (o name).map Json.toTree) :
    ofTree? t = some r ↔ Json.StatesWord (o "assertions") r.assertions ∧
      Json.StatesTexts (o "failures") r.failures ∧ Json.StatesTexts (o "log") r.log := by
  rw [← Json.orElse_word?_eq_some_iff (ho "assertions" (by decide)),
    ← Json.orElse_texts_eq_some_iff (ho "failures" (by decide)),
    ← Json.orElse_texts_eq_some_iff (ho "log" (by decide)), ofTree?]
  rw [names] at hparts
  simp only [hparts, Option.bind_eq_bind, Option.bind_some, Option.bind_eq_some_iff,
    Option.pure_def, Option.some.injEq]
  constructor
  · rintro ⟨assertions, hassertions, failures, hfailures, log, hlog, rfl⟩
    exact ⟨hassertions, hfailures, hlog⟩
  · rintro ⟨hassertions, hfailures, hlog⟩
    exact ⟨_, hassertions, _, hfailures, _, hlog, rfl⟩

/-- Nothing is read from a tree that can not be taken apart. -/
theorem ofTree?_eq_none {t : Tree} (h : t.parts? names = none) : ofTree? t = none := by
  rw [names] at h
  simp [ofTree?, h]

/-- A result is read from an object exactly if the object states it. -/
theorem ofTree?_object_eq_some_iff {r : TestResult} (ms : List (String × Json)) :
    ofTree? (Json.object ms).toTree = some r ↔ r.StatedBy (.object ms) := by
  rw [Json.toTree]
  have hcount : ∀ name, (Tree.valuesAt name (Json.memberTrees ms)).length =
      (Keyed.names ms).count name := by
    intro name
    rw [Tree.length_valuesAt, Json.memberTrees_eq_map, List.map_map]
    rfl
  rcases Tree.known?_memberParts names (Json.memberTrees ms) with
    ⟨⟨name, hname, hmany⟩, hnone⟩ | ⟨parts, hparts, hvalue⟩
  · -- A field that is repeated can not be read, and states nothing.
    rw [ofTree?_eq_none (t := .object (Json.memberTrees ms)) hnone]
    refine iff_of_false (by simp) ?_
    rintro ⟨honce, -, -, -⟩
    have hone := honce name hname
    rw [hcount] at hmany
    omega
  · have hpart : ∀ name ∈ names, Tree.partAt? parts name =
        (Keyed.get? name ms).map Json.toTree := by
      intro name hname
      rw [(hvalue name hname).2, Tree.head?_valuesAt, Json.memberTrees_eq_map, Keyed.get?_map]
    rw [ofTree?_eq_some_iff (t := .object (Json.memberTrees ms)) hparts hpart]
    constructor
    · rintro ⟨hassertions, hfailures, hlog⟩
      exact .object (fun name hname => hcount name ▸ (hvalue name hname).1) hassertions hfailures
        hlog
    · rintro ⟨-, hassertions, hfailures, hlog⟩
      exact ⟨hassertions, hfailures, hlog⟩

/-- A result is read from an array exactly if the array states it. -/
theorem ofTree?_array_eq_some_iff {r : TestResult} (items : List Json) :
    ofTree? (Json.array items).toTree = some r ↔ r.StatedBy (.array items) := by
  rw [Json.toTree, Json.itemTrees_eq_map]
  by_cases hlength : items.length ≤ 3
  · have hparts : (Tree.array (items.map Json.toTree)).parts? names =
        some (names.zip (Tree.itemParts (items.map Json.toTree))) := by
      rw [Tree.parts?, if_pos (by rwa [List.length_map])]
    have hpart : ∀ name ∈ names, Tree.partAt?
        (names.zip (Tree.itemParts (items.map Json.toTree))) name =
          (Keyed.get? name (names.zip items)).map Json.toTree := by
      intro name _
      rw [Tree.partAt?_zip, List.zip_map_right, ← Keyed.get?_map]
      rfl
    -- The fields take the items in their order.
    have hfirst : Keyed.get? "assertions" (names.zip items) = items[0]? := by
      rcases items with _ | ⟨a, items⟩ <;> rfl
    have hsecond : Keyed.get? "failures" (names.zip items) = items[1]? := by
      rcases items with _ | ⟨a, _ | ⟨b, items⟩⟩ <;> rfl
    have hthird : Keyed.get? "log" (names.zip items) = items[2]? := by
      rcases items with _ | ⟨a, _ | ⟨b, _ | ⟨c, items⟩⟩⟩ <;> rfl
    rw [ofTree?_eq_some_iff hparts hpart, hfirst, hsecond, hthird]
    constructor
    · rintro ⟨hassertions, hfailures, hlog⟩
      exact .array hlength hassertions hfailures hlog
    · rintro (_ | ⟨-, hassertions, hfailures, hlog⟩)
      exact ⟨hassertions, hfailures, hlog⟩
  · -- There are more items than fields.
    have hparts : (Tree.array (items.map Json.toTree)).parts? names = none := by
      rw [Tree.parts?, if_neg (by rwa [List.length_map])]
    rw [ofTree?_eq_none hparts]
    refine iff_of_false (by simp) ?_
    rintro (_ | ⟨hfits, -, -, -⟩)
    exact hlength hfits

/-- A result is read from a report exactly if the report states it. -/
theorem ofTree?_toTree_eq_some_iff {r : TestResult} {report : Json} :
    ofTree? report.toTree = some r ↔ r.StatedBy report := by
  cases report with
  | object ms => exact ofTree?_object_eq_some_iff ms
  | array items => exact ofTree?_array_eq_some_iff items
  | null | bool | number | string =>
    rw [ofTree?_eq_none rfl]
    refine iff_of_false (by simp) ?_
    rintro ⟨⟩

/-- A result with a failure, without a log, and with a member that no field reads. -/
example : StatedBy ⟨2, ["too late"], []⟩ (.object [("failures", .array [.string "too late"]),
    ("elapsed", .null), ("assertions", .ofNat 2)]) :=
  .object (by decide) rfl rfl rfl

end TestResult

end ReactiveSpace
