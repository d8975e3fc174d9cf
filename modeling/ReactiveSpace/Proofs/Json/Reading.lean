import ReactiveSpace.Proofs.Json.Scanning
import ReactiveSpace.Json.Parts
import ReactiveSpace.Proofs.Keyed

/-!
# Reading what was written

The text of a value is read as the tree of the value (`Tree.ofText?_compact`), if its numbers are
found again and its containers do not lie too deep in one another. The tree stands for the value
itself (`ofTree?_toTree`) if the value is `Proper`: the names of each of its objects are distinct.

The reader has a stack of open containers. What it does with the tokens of a value is to hand the
tree of the value to the innermost of them (`run?_tokens`), whatever the others are, as long as
there is room for the containers of the value.
-/

namespace ReactiveSpace.Json

/-! ### Values by their parts -/

/-- What arrays and objects have from their items and members holds of every value. -/
theorem induction {P : Json → Prop} (null : P .null) (bool : ∀ b, P (.bool b))
    (number : ∀ n, P (.number n)) (string : ∀ s, P (.string s))
    (array : ∀ items, (∀ v ∈ items, P v) → P (.array items))
    (object : ∀ members, (∀ m ∈ members, P m.2) → P (.object members)) (v : Json) : P v :=
  @Json.rec P (fun items => ∀ v ∈ items, P v) (fun members => ∀ m ∈ members, P m.2)
    (fun m => P m.2) null bool number string array object
    (List.forall_mem_nil _) (fun _ _ hv hvs => List.forall_mem_cons.2 ⟨hv, hvs⟩)
    (List.forall_mem_nil _) (fun _ _ hm hms => List.forall_mem_cons.2 ⟨hm, hms⟩)
    (fun _ _ hv => hv) v

theorem itemTrees_eq_map (vs : List Json) : itemTrees vs = vs.map toTree := by
  induction vs with
  | nil => rfl
  | cons v vs ih => rw [itemTrees, ih, List.map_cons]

/-- Members become trees under their names. -/
theorem memberTrees_eq_map (ms : List (String × Json)) :
    memberTrees ms = ms.map fun m => (m.1, m.2.toTree) := by
  induction ms with
  | nil => rfl
  | cons m ms ih =>
    obtain ⟨name, v⟩ := m
    rw [memberTrees, ih, List.map_cons]

mutual

/-- How many containers lie in one another at the deepest place of a value. -/
def nesting : Json → Nat
  | .null | .bool _ | .number _ | .string _ => 0
  | .array items => itemNesting items + 1
  | .object members => memberNesting members + 1

/-- The nesting of the deepest item. -/
def itemNesting : List Json → Nat
  | [] => 0
  | v :: vs => max v.nesting (itemNesting vs)

/-- The nesting of the deepest member. -/
def memberNesting : List (String × Json) → Nat
  | [] => 0
  | (_, v) :: vs => max v.nesting (memberNesting vs)

end

/-- Items are no deeper than the deepest of them. -/
theorem itemNesting_le {vs : List Json} {n : Nat} (h : ∀ v ∈ vs, v.nesting ≤ n) :
    itemNesting vs ≤ n := by
  induction vs with
  | nil => exact Nat.zero_le n
  | cons v vs ih =>
    obtain ⟨hv, hvs⟩ := List.forall_mem_cons.1 h
    exact Nat.max_le.2 ⟨hv, ih hvs⟩

/-- Members are no deeper than the deepest of them. -/
theorem memberNesting_le {ms : List (String × Json)} {n : Nat} (h : ∀ m ∈ ms, m.2.nesting ≤ n) :
    memberNesting ms ≤ n := by
  induction ms with
  | nil => exact Nat.zero_le n
  | cons m ms ih =>
    obtain ⟨hm, hms⟩ := List.forall_mem_cons.1 h
    exact Nat.max_le.2 ⟨hm, ih hms⟩

/-! ### The reader -/

namespace Tree

/-- Tokens may be read in two goes. -/
theorem run?_append (r : Reader) (ts us : List Token) :
    r.run? (ts ++ us) = (r.run? ts).bind fun r' => r'.run? us := by
  induction ts generalizing r with
  | nil => rfl
  | cons t ts ih =>
    rw [List.cons_append, Reader.run?, Reader.run?]
    cases r.step? t with
    | none => rfl
    | some next => exact ih next

theorem run?_cons {r next : Reader} {t : Token} (h : r.step? t = some next) (ts : List Token) :
    r.run? (t :: ts) = next.run? ts := by
  rw [Reader.run?, h]

theorem run?_append_of {r next : Reader} {ts : List Token} (h : r.run? ts = some next)
    (us : List Token) : r.run? (ts ++ us) = next.run? us := by
  rw [run?_append, h, Option.bind_some]

/-- The reader takes the tokens of a value for its tree, if there is room for its containers. -/
def Takes (v : Json) : Prop :=
  ∀ frames : List Frame, frames.length + v.nesting ≤ levels →
    Reader.run? (.value frames) v.tokens = some (deliver v.toTree frames)

/-- The first token of a value does not end the array that was just opened. -/
theorem run?_firstItem (v : Json) (frames : List Frame) :
    Reader.run? (.firstItem frames) v.tokens =
      Reader.run? (.value (.array [] :: frames)) v.tokens := by
  cases v with
  | array items => cases items <;> rfl
  | object members => cases members <;> rfl
  | _ => rfl

/-- Within an array, the items are collected in order. -/
theorem run?_itemTokens {vs : List Json} (h : ∀ v ∈ vs, Takes v) (items : List Tree)
    (frames : List Frame) (hroom : frames.length + 1 + itemNesting vs ≤ levels) :
    Reader.run? (.afterItem items frames) (itemTokens vs) =
      some (.afterItem ((itemTrees vs).reverse ++ items) frames) := by
  induction vs generalizing items with
  | nil => rfl
  | cons v vs ih =>
    rw [itemNesting] at hroom
    have hv : Reader.run? (.value (.array items :: frames)) v.tokens =
        some (.afterItem (v.toTree :: items) frames) :=
      h v List.mem_cons_self _ (by rw [List.length_cons]; omega)
    have hvs := ih (fun w hw => h w (List.mem_cons_of_mem v hw)) (v.toTree :: items) (by omega)
    rw [itemTokens, run?_cons rfl, run?_append_of hv, hvs]
    simp [itemTrees]

/-- Within an object, the members are collected in order, each under its name. -/
theorem run?_memberTokens {ms : List (String × Json)} (h : ∀ m ∈ ms, Takes m.2)
    (members : List (Option String × Tree)) (frames : List Frame)
    (hroom : frames.length + 1 + memberNesting ms ≤ levels) :
    Reader.run? (.afterMember members frames) (memberTokens ms) =
      some (.afterMember (((memberTrees ms).map fun m => (some m.1, m.2)).reverse ++ members)
        frames) := by
  induction ms generalizing members with
  | nil => rfl
  | cons m ms ih =>
    obtain ⟨name, v⟩ := m
    rw [memberNesting] at hroom
    have hv : Reader.run? (.value (.object members (some name) :: frames)) v.tokens =
        some (.afterMember ((some name, v.toTree) :: members) frames) :=
      h (name, v) List.mem_cons_self _ (by rw [List.length_cons]; dsimp only; omega)
    have hms := ih (fun m' hm => h m' (List.mem_cons_of_mem _ hm))
      ((some name, v.toTree) :: members) (by omega)
    rw [memberTokens, run?_cons rfl, run?_cons rfl, run?_cons rfl]
    rw [run?_append_of hv, hms]
    simp [memberTrees]

/-- Members whose names are all texts can be used. -/
theorem usableMembers?_map_some (ms : List (String × Tree)) :
    usableMembers? (ms.map fun m => (some m.1, m.2)) = some ms := by
  induction ms with
  | nil => rfl
  | cons m ms ih =>
    obtain ⟨name, t⟩ := m
    rw [List.map_cons, usableMembers?, ih, Option.map_some]

/-- **Values**: the reader hands the tree of a value to the innermost open container. -/
theorem run?_tokens (v : Json) : Takes v := by
  -- What stands on the stack is arbitrary, so a part is read inside its container by the same
  -- statement.
  induction v using Json.induction with
  | null | bool | number | string =>
    intro frames _
    rfl
  | array items ih =>
    intro frames hroom
    rw [nesting] at hroom
    -- There is room for the array itself, so it can be used once it is closed.
    have hclose : closeArray (itemTrees items).reverse frames = (Json.array items).toTree := by
      rw [closeArray, if_pos (by omega), List.reverse_reverse, toTree]
    cases items with
    | nil =>
      show some (deliver (closeArray [] frames) frames) = _
      rw [← hclose]
      rfl
    | cons v vs =>
      rw [itemNesting] at hroom
      have hv : Reader.run? (.value (.array [] :: frames)) v.tokens =
          some (.afterItem [v.toTree] frames) :=
        ih v List.mem_cons_self _ (by rw [List.length_cons]; omega)
      have hvs := run?_itemTokens (fun w hw => ih w (List.mem_cons_of_mem v hw)) [v.toTree]
        frames (by omega)
      rw [← run?_firstItem] at hv
      rw [tokens, run?_cons rfl, run?_append_of hv, run?_append_of hvs, ← hclose, itemTrees,
        List.reverse_cons]
      rfl
  -- As for arrays, with the name read before each value.
  | object members ih =>
    intro frames hroom
    rw [nesting] at hroom
    have hclose : closeObject ((memberTrees members).map fun m => (some m.1, m.2)).reverse frames =
        (Json.object members).toTree := by
      rw [closeObject, if_pos (by omega), List.reverse_reverse, usableMembers?_map_some, toTree]
    cases members with
    | nil =>
      show some (deliver (closeObject [] frames) frames) = _
      rw [← hclose]
      rfl
    | cons m ms =>
      obtain ⟨name, v⟩ := m
      rw [memberNesting] at hroom
      have hv : Reader.run? (.value (.object [] (some name) :: frames)) v.tokens =
          some (.afterMember [(some name, v.toTree)] frames) :=
        ih (name, v) List.mem_cons_self _ (by rw [List.length_cons]; dsimp only; omega)
      have hms := run?_memberTokens (fun m hm => ih m (List.mem_cons_of_mem _ hm))
        [(some name, v.toTree)] frames (by omega)
      rw [tokens, run?_cons rfl, run?_cons rfl, run?_cons rfl, run?_append_of hv,
        run?_append_of hms, ← hclose, memberTrees, List.map_cons, List.reverse_cons]
      rfl

/-- The text of a value is read as its tree. -/
theorem ofText?_compact {v : Json} (hv : v.Legible) (hroom : v.nesting ≤ levels) :
    ofText? v.compact = some v.toTree := by
  have hrun : Reader.run? (.value []) v.tokens = some (.complete v.toTree) :=
    run?_tokens v [] (by rw [List.length_nil]; omega)
  rw [ofText?, scan?_compact hv, Option.bind_some, ofTokens?, hrun]

end Tree

/-! ### What a tree stands for -/

/-- A value can be used throughout. -/
theorem isUsable_toTree (v : Json) : v.toTree.isUsable = true := by
  induction v using Json.induction with
  | null | bool | number | string => rfl
  | array items ih =>
    show Tree.itemsUsable (itemTrees items) = true
    induction items with
    | nil => rfl
    | cons v vs ihvs =>
      obtain ⟨hv, hvs⟩ := List.forall_mem_cons.1 ih
      rw [itemTrees, Tree.itemsUsable, hv, ihvs hvs, Bool.and_self]
  | object members ih =>
    show Tree.membersUsable (memberTrees members) = true
    induction members with
    | nil => rfl
    | cons m ms ihms =>
      obtain ⟨name, v⟩ := m
      obtain ⟨hv, hms⟩ := List.forall_mem_cons.1 ih
      rw [memberTrees, Tree.membersUsable, hv, ihms hms, Bool.and_self]

/-- A value that a text can write: integers fit 64 bits, and the names of an object are distinct. -/
inductive Proper : Json → Prop
  | null : Proper .null
  | bool (b : Bool) : Proper (.bool b)
  | integer {n : Int} : -2 ^ 63 ≤ n → n < 2 ^ 64 → Proper (.number (.integer n))
  | double (d : Double) : Proper (.number (.double d))
  | string (s : String) : Proper (.string s)
  | array {items : List Json} : (∀ v ∈ items, Proper v) → Proper (.array items)
  | object {members : List (String × Json)} :
    (Keyed.names members).Nodup → (∀ m ∈ members, Proper m.2) → Proper (.object members)

/-- Items are found again if each of them is. -/
theorem ofItems?_itemTrees {vs : List Json} (h : ∀ v ∈ vs, ofTree? v.toTree = some v) :
    ofItems? (itemTrees vs) = some vs := by
  induction vs with
  | nil => rfl
  | cons v vs ih =>
    obtain ⟨hv, hvs⟩ := List.forall_mem_cons.1 h
    rw [itemTrees, ofItems?, hv, ih hvs]

/-- Members are found again if the value of each of them is. -/
theorem ofMembers?_memberTrees {ms : List (String × Json)}
    (h : ∀ m ∈ ms, ofTree? m.2.toTree = some m.2) : ofMembers? (memberTrees ms) = some ms := by
  induction ms with
  | nil => rfl
  | cons m ms ih =>
    obtain ⟨name, v⟩ := m
    obtain ⟨hv, hms⟩ := List.forall_mem_cons.1 h
    rw [memberTrees, ofMembers?, hv, ih hms]

/-- The tree of a proper value stands for this value. -/
theorem ofTree?_toTree {v : Json} (h : v.Proper) : ofTree? v.toTree = some v := by
  induction h with
  | null | bool | integer | double | string => rfl
  | array _ ih => rw [toTree, ofTree?, ofItems?_itemTrees ih, Option.map_some]
  | object hnames _ ih =>
    rw [toTree, ofTree?, ofMembers?_memberTrees ih, Option.map_some, Keyed.ofPairs_eq_self hnames]

/-! ### Numbers -/

mutual

/-- The numbers of a value, in the order they are written. -/
def numbers : Json → List Number
  | .null | .bool _ | .string _ => []
  | .number n => [n]
  | .array items => itemNumbers items
  | .object members => memberNumbers members

/-- The numbers of the items of an array. -/
def itemNumbers : List Json → List Number
  | [] => []
  | v :: vs => v.numbers ++ itemNumbers vs

/-- The numbers of the members of an object. -/
def memberNumbers : List (String × Json) → List Number
  | [] => []
  | (_, v) :: vs => v.numbers ++ memberNumbers vs

end

/-- The numbers of an item are among those of the list. -/
theorem numbers_subset_itemNumbers {v : Json} {vs : List Json} (h : v ∈ vs) :
    v.numbers ⊆ itemNumbers vs := by
  induction h with
  | head vs => exact List.subset_append_left _ _
  | tail w _ ih => exact List.subset_append_of_subset_right _ ih

/-- The numbers of a member are among those of the object. -/
theorem numbers_subset_memberNumbers {m : String × Json} {ms : List (String × Json)} (h : m ∈ ms) :
    m.2.numbers ⊆ memberNumbers ms := by
  induction h with
  | head ms => exact List.subset_append_left _ _
  | tail w _ ih => exact List.subset_append_of_subset_right _ ih

/-- A proper value is legible if its doubles are found again. -/
theorem Proper.legible {v : Json} (h : v.Proper)
    (hdoubles : ∀ d, .double d ∈ v.numbers → (Number.double d).ReadsBack) : v.Legible := by
  induction h with
  | null => exact .null
  | bool b => exact .bool b
  | integer hlow hhigh => exact .number (Number.readsBack_integer hlow hhigh)
  | double d => exact .number (hdoubles d List.mem_cons_self)
  | string s => exact .string s
  | array _ ih =>
    exact .array fun v hv =>
      ih v hv fun d hd => hdoubles d (numbers_subset_itemNumbers hv hd)
  | object _ _ ih =>
    exact .object fun m hm =>
      ih m hm fun d hd => hdoubles d (numbers_subset_memberNumbers hm hd)

/-- The text of a value is read as this value. -/
theorem ofText?_compact {v : Json} (hv : v.Proper) (hlegible : v.Legible)
    (hroom : v.nesting ≤ Tree.levels) : ofText? v.compact = some v := by
  rw [ofText?, Tree.ofText?_compact hlegible hroom, Option.bind_some, ofTree?_toTree hv]

end ReactiveSpace.Json
