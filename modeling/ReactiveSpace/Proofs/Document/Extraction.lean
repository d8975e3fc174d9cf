import ReactiveSpace.Proofs.Document.Settings
import ReactiveSpace.Proofs.Json.Depth
import ReactiveSpace.Proofs.Json.Literal
import ReactiveSpace.Proofs.Json.Parts

/-!
# Configurations key by key

The text of a configuration has an object, or it has no settings at all. If it has one, the last
value of a key decides alone what the key comes to: whether there is a setting, and which value the
host takes if it knows the key (`Settings.extracted_per_key`).
-/

namespace ReactiveSpace

namespace Json

/-- The members of the object that a text writes, repeated names included. -/
def membersOfText? (text : String) : Option (List (String × Json)) :=
  match Tree.ofText? text with
  | some (.object members) => ofMembers? members
  | _ => none

/-- The last value of a repeated name counts. -/
theorem ofText?_eq_object_iff {text : String} {entries : List (String × Json)} :
    ofText? text = some (.object entries) ↔
      (membersOfText? text).map Keyed.ofPairs = some entries := by
  rw [ofText?, membersOfText?]
  cases Tree.ofText? text with
  | none => simp
  | some t =>
    cases t with
    | object members => simp [ofTree?, Option.map_eq_some_iff]
    | _ => simp [ofTree?]

/-- The value of an integer of so many bits, and a default for every other value. -/
def intOr (bits : Nat) (default : Int) : Option Json → Int
  | some (.number (.integer n)) =>
    if -2 ^ (bits - 1) ≤ n ∧ n < 2 ^ (bits - 1) then n else default
  | _ => default

/-- The value of a boolean, and a default for every other value. -/
def boolOr (default : Bool) : Option Json → Bool
  | some (.bool b) => b
  | _ => default

end Json

namespace Settings

open Json

/-- The known settings when `value?` gives the value of each key. -/
def ofValues (value? : String → Option Json) : Settings where
  maximumHistory := intOr 32 1000 (value? "maximum_history")
  deleteOnClose := boolOr false (value? "delete_on_close")
  readonly := boolOr false (value? "readonly")
  frequency := intOr 32 0 (value? "frequency")
  temporalResolution := intOr 32 0 (value? "temporal_resolution_ms")
  sweepExportDelay := intOr 64 0 (value? "sweep_export_delay")

/-! ### Settings seen as values -/

theorem fits_iff {bits : Nat} {n : Int} :
    Setting.fits bits n = true ↔ -2 ^ (bits - 1) ≤ n ∧ n < 2 ^ (bits - 1) := by
  simp [Setting.fits]

/-- An integer is found again with 32 bits exactly if it fits them. -/
theorem int?_ofInt (n : Int) :
    (Setting.ofInt n).int? = if Setting.fits 32 n then some n else none := by
  unfold Setting.ofInt
  split
  · rfl
  · rename_i hfits
    split
    · rw [Setting.int?, if_neg hfits]
    · rfl

theorem long?_ofInt (n : Int) :
    (Setting.ofInt n).long? = if Setting.fits 64 n then some n else none := by
  unfold Setting.ofInt
  split
  · rename_i hfits
    have hwide : Setting.fits 64 n = true := by
      rw [fits_iff] at hfits ⊢
      omega
    rw [if_pos hwide]
    rfl
  · split <;> rfl

/-- A view that no setting other than those of numbers has is the view of an integer. -/
theorem getD_eq_intOr {view : Setting → Option Int} {bits : Nat}
    (hint : ∀ n, view (Setting.ofInt n) = if Setting.fits bits n then some n else none)
    (hbool : ∀ b, view (.bool b) = none) (hdouble : ∀ d, view (.double d) = none)
    (htext : ∀ s, view (.text s) = none) (hlist : ∀ ss, view (.list ss) = none)
    (hmap : ∀ ss, view (.map ss) = none) (v : Option Json) (default : Int) :
    ((v.bind Setting.ofJson?).bind view).getD default = intOr bits default v := by
  cases v with
  | none => rfl
  | some v =>
    rw [Option.bind_some]
    cases v with
    | null => rfl
    | bool b => rw [Setting.ofJson?, Option.bind_some, hbool]; rfl
    | string s => rw [Setting.ofJson?, Option.bind_some, htext]; rfl
    -- A list or an object may come to no setting at all, so both ways out are looked at.
    | array items =>
      rw [Setting.ofJson?]
      cases Setting.ofItems? items with
      | none => rfl
      | some ss => rw [Option.map_some, Option.bind_some, hlist]; rfl
    | object members =>
      rw [Setting.ofJson?]
      cases Setting.ofMembers? members with
      | none => rfl
      | some ss => rw [Option.map_some, Option.bind_some, hmap]; rfl
    | number n =>
      cases n with
      | double d => rw [Setting.ofJson?, Option.bind_some, hdouble]; rfl
      | integer n =>
        rw [Setting.ofJson?, Option.bind_some, hint, intOr]
        -- Only here does the width matter: an integer that does not fit is passed over.
        by_cases hfits : Setting.fits bits n = true
        · rw [if_pos hfits, if_pos (fits_iff.1 hfits), Option.getD_some]
        · rw [if_neg hfits, if_neg (mt fits_iff.2 hfits), Option.getD_none]

/-- The host takes the integer that was written, or its default. -/
theorem getD_int? (v : Option Json) (default : Int) :
    ((v.bind Setting.ofJson?).bind Setting.int?).getD default = intOr 32 default v :=
  getD_eq_intOr int?_ofInt (fun _ => rfl) (fun _ => rfl) (fun _ => rfl) (fun _ => rfl)
    (fun _ => rfl) v default

theorem getD_long? (v : Option Json) (default : Int) :
    ((v.bind Setting.ofJson?).bind Setting.long?).getD default = intOr 64 default v :=
  getD_eq_intOr long?_ofInt (fun _ => rfl) (fun _ => rfl) (fun _ => rfl) (fun _ => rfl)
    (fun _ => rfl) v default

/-- A switch is on if it was written so, or else as by default. -/
theorem getD_bool? (v : Option Json) (default : Bool) :
    ((v.bind Setting.ofJson?).bind Setting.bool?).getD default = boolOr default v := by
  cases v with
  | none => rfl
  | some v =>
    rw [Option.bind_some]
    cases v with
    | null | bool | string => rfl
    | array items =>
      rw [Setting.ofJson?]
      cases Setting.ofItems? items <;> rfl
    | object members =>
      rw [Setting.ofJson?]
      cases Setting.ofMembers? members <;> rfl
    | number n =>
      cases n with
      | double d => rfl
      | integer n =>
        -- Whatever an integer becomes, it is no switch.
        rw [Setting.ofJson?, Option.bind_some, Setting.ofInt]
        split
        · rfl
        · split <;> rfl

/-! ### Settings by key -/

/-- The setting of a key is that of its value. -/
theorem get?_mapOfMembers_eq {ms : List (String × Json)} (hd : (Keyed.names ms).Nodup)
    (key : String) :
    Keyed.get? key (mapOfMembers ms) = (Keyed.get? key ms).bind Setting.ofJson? := by
  induction ms with
  | nil => rfl
  | cons m ms ih =>
    obtain ⟨name, v⟩ := m
    obtain ⟨hname, hd⟩ := List.nodup_cons.1 hd
    have htail : mapOfMembers ((name, v) :: ms) =
        (((Setting.ofJson? v).map (Prod.mk name)).toList ++ mapOfMembers ms) := by
      rw [mapOfMembers, List.filterMap_cons]
      dsimp only
      cases Setting.ofJson? v <;> rfl
    rw [htail, Keyed.get?_append, ih hd, Keyed.get?_cons]
    cases hv : Setting.ofJson? v with
    | none =>
      -- A member is dropped for its value. No other one of its name comes up instead.
      split
      · rename_i hkey
        rw [← hkey, (Keyed.get?_eq_none_iff name ms).2 hname, Option.bind_some, hv]
        rfl
      · rfl
    | some setting =>
      rw [Option.map_some, Option.toList_some, Keyed.get?_cons]
      split
      · rw [Option.bind_some, hv, Option.some_or]
      · rfl

/-- The last value of a key decides which setting it has. -/
theorem get?_mapOfText {text : String} {members : List (String × Json)}
    (h : membersOfText? text = some members) (key : String) :
    Keyed.get? key (mapOfText text) = (Keyed.last? key members).bind Setting.ofJson? := by
  have htext : ofText? text = some (.object (Keyed.ofPairs members)) :=
    ofText?_eq_object_iff.2 (by rw [h, Option.map_some])
  rw [mapOfText, htext]
  dsimp only
  rw [get?_mapOfMembers_eq (Keyed.nodup_names_ofPairs members), Keyed.get?_ofPairs]

/-- A text without an object has no settings. -/
theorem mapOfText_eq_nil {text : String} (h : membersOfText? text = none) :
    mapOfText text = [] := by
  rw [mapOfText]
  split
  · rename_i entries htext
    rw [ofText?_eq_object_iff, h] at htext
    cases htext
  · rfl

/-- A text that nests too deep has no object. -/
theorem membersOfText?_eq_none_of_depth {text : String} {tokens : List Token}
    (htokens : Token.scan? text = some tokens) (hdepth : Tree.levels < Token.depth tokens) :
    membersOfText? text = none := by
  rw [membersOfText?]
  split
  · rename_i members ht
    have hnone := ofTree?_eq_none_of_depth htokens hdepth ht
    rwa [ofTree?, Option.map_eq_none_iff] at hnone
  · rfl

/-- The settings of a map depend on the values under their keys alone. -/
theorem ofMap_eq {map : List (String × Setting)} {value? : String → Option Json}
    (h : ∀ key, Keyed.get? key map = (value? key).bind Setting.ofJson?) :
    ofMap map = ofValues value? := by
  simp only [ofMap, ofValues, getD, h, getD_int?, getD_long?, getD_bool?]

/-- **A configuration is extracted key by key.** A text that writes no object, because it is
malformed, writes another value or nests too deep, has no settings and leaves the defaults. In an
object the last value of a key counts: the key has a setting if this value holds no `null` at any
depth, and a known setting is this value, or its default if the value is of another kind or does not
fit. Integers are the literals without fraction and exponent that fit 64 bits, with or without a
sign, save `-0`. A document ticks if its frequency is positive. -/
theorem extracted_per_key (text : String) :
    (∀ tokens, Token.scan? text = some tokens → Tree.levels < Token.depth tokens →
      membersOfText? text = none) ∧
    (membersOfText? text = none → mapOfText text = [] ∧ ofText text = {}) ∧
    (∀ members, membersOfText? text = some members →
      (∀ key, key ∈ Keyed.names (mapOfText text) ↔
        ∃ v, Keyed.last? key members = some v ∧ v.holdsNull = false) ∧
      ofText text = ofValues fun key => Keyed.last? key members) ∧
    (∀ cs n, Token.ofNumber? cs = some (.number (.integer n)) ↔ WritesInteger cs n) ∧
    ∀ n, (ofText text).tick? = some n ↔ (ofText text).frequency = n ∧ 0 < n := by
  refine ⟨fun tokens => membersOfText?_eq_none_of_depth, fun h => ?_, fun members h => ⟨?_, ?_⟩,
    fun cs n => ofNumber?_eq_integer_iff, fun n => ?_⟩
  · -- Without an object the map is empty, and everything is as by default.
    have hmap := mapOfText_eq_nil h
    exact ⟨hmap, by rw [ofText, hmap]; rfl⟩
  · -- A key has a setting when its last value does.
    intro key
    rw [← not_iff_not, ← Keyed.get?_eq_none_iff, get?_mapOfText h]
    cases Keyed.last? key members with
    | none => simp
    | some v => simp [Setting.ofJson?_eq_none_iff]
  · exact ofMap_eq (get?_mapOfText h)
  · rw [tick?]
    split
    · rename_i hpos
      rw [Option.some.injEq]
      exact ⟨fun hn => ⟨hn, hn ▸ hpos⟩, And.left⟩
    · rename_i hpos
      refine ⟨nofun, fun ⟨hn, hpos'⟩ => absurd (hn ▸ hpos') hpos⟩

end Settings

end ReactiveSpace
