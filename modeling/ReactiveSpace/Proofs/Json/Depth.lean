import ReactiveSpace.Json.Parts

/-!
# How deep a text nests

A text opens and closes containers token by token, and `Token.depth` is how many of them are open at
once at most. A container that lies inside `Tree.levels` others is unusable, and so is everything
around it: a text that opens more containers than that stands for no value
(`ofTree?_eq_none_of_depth`). The reader is spoilt when too many containers are open or it holds a
tree that is not usable; no token mends that (`Tree.Reader.Spoilt.step`).
-/

namespace ReactiveSpace.Json

/-! ### Usable trees -/

namespace Tree

/-- What arrays and objects have from their items and members holds of every tree. -/
theorem induction {P : Tree → Prop} (null : P .null) (bool : ∀ b, P (.bool b))
    (number : ∀ n, P (.number n)) (string : ∀ s, P (.string s))
    (array : ∀ items, (∀ t ∈ items, P t) → P (.array items))
    (object : ∀ members, (∀ m ∈ members, P m.2) → P (.object members)) (unusable : P .unusable)
    (t : Tree) : P t :=
  @Tree.rec P (fun items => ∀ t ∈ items, P t) (fun members => ∀ m ∈ members, P m.2)
    (fun m => P m.2) null bool number string array object unusable
    (List.forall_mem_nil _) (fun _ _ ht hts => List.forall_mem_cons.2 ⟨ht, hts⟩)
    (List.forall_mem_nil _) (fun _ _ hm hms => List.forall_mem_cons.2 ⟨hm, hms⟩)
    (fun _ _ ht => ht) t

theorem itemsUsable_eq_all (items : List Tree) : itemsUsable items = items.all isUsable := by
  induction items with
  | nil => rfl
  | cons t ts ih => rw [itemsUsable, ih, List.all_cons]

/-- Members are usable if each of their values is. -/
theorem membersUsable_eq_all (members : List (String × Tree)) :
    membersUsable members = members.all fun m => m.2.isUsable := by
  induction members with
  | nil => rfl
  | cons m ms ih =>
    obtain ⟨name, t⟩ := m
    rw [membersUsable, ih, List.all_cons]

end Tree

/-- Items that stand for values do so one by one. -/
theorem forall_mem_of_ofItems? {ts : List Tree} {vs : List Json} (h : ofItems? ts = some vs) :
    ∀ t ∈ ts, ∃ v, ofTree? t = some v := by
  induction ts generalizing vs with
  | nil => exact List.forall_mem_nil _
  | cons t ts ih =>
    rw [ofItems?] at h
    split at h
    · rename_i v vs ht hts
      exact List.forall_mem_cons.2 ⟨⟨v, ht⟩, ih hts⟩
    · cases h

theorem forall_mem_of_ofMembers? {ts : List (String × Tree)} {vs : List (String × Json)}
    (h : ofMembers? ts = some vs) : ∀ m ∈ ts, ∃ v, ofTree? m.2 = some v := by
  induction ts generalizing vs with
  | nil => exact List.forall_mem_nil _
  | cons m ts ih =>
    obtain ⟨name, t⟩ := m
    rw [ofMembers?] at h
    split at h
    · rename_i v vs ht hts
      exact List.forall_mem_cons.2 ⟨⟨v, ht⟩, ih hts⟩
    · cases h

/-- A tree that stands for a value is usable. -/
theorem isUsable_of_ofTree? {t : Tree} {v : Json} (h : ofTree? t = some v) : t.isUsable = true := by
  induction t using Tree.induction generalizing v with
  | null | bool | number | string => rfl
  | array items ih =>
    obtain ⟨vs, hvs, -⟩ := Option.map_eq_some_iff.1 h
    rw [Tree.isUsable, Tree.itemsUsable_eq_all, List.all_eq_true]
    intro t ht
    obtain ⟨v, hv⟩ := forall_mem_of_ofItems? hvs t ht
    exact ih t ht hv
  | object members ih =>
    obtain ⟨vs, hvs, -⟩ := Option.map_eq_some_iff.1 h
    rw [Tree.isUsable, Tree.membersUsable_eq_all, List.all_eq_true]
    intro m hm
    obtain ⟨v, hv⟩ := forall_mem_of_ofMembers? hvs m hm
    exact ih m hm hv
  | unusable => cases h

/-! ### Containers that are open -/

namespace Token

/-- How many containers are open after a token. -/
def openedAfter (opened : Nat) : Token → Nat
  | .openBrace | .openBracket => opened + 1
  | .closeBrace | .closeBracket => opened - 1
  | _ => opened

/-- How many containers are open at once at most, when some are open before the first token. -/
def depthFrom (opened : Nat) : List Token → Nat
  | [] => opened
  | t :: ts => max opened (depthFrom (t.openedAfter opened) ts)

/-- How many containers are open at once at most. -/
def depth (tokens : List Token) : Nat :=
  depthFrom 0 tokens

end Token

namespace Tree

/-- The trees that an open container holds. -/
def Frame.trees : Frame → List Tree
  | .array items => items
  | .object members _ => members.map Prod.snd

namespace Reader

/-- How many containers are open. -/
def opened : Reader → Nat
  | .value frames => frames.length
  | .firstItem frames | .afterItem _ frames | .firstName frames | .nextName _ frames
  | .colon _ _ frames | .afterMember _ frames => frames.length + 1
  | .complete _ => 0

/-- The trees that the reader holds. -/
def trees : Reader → List Tree
  | .value frames | .firstItem frames | .firstName frames => frames.flatMap Frame.trees
  | .afterItem items frames => items ++ frames.flatMap Frame.trees
  | .nextName members frames | .colon members _ frames | .afterMember members frames =>
    members.map Prod.snd ++ frames.flatMap Frame.trees
  | .complete t => [t]

/-- Too many containers are open, or one of the trees is not usable. -/
def Spoilt (r : Reader) : Prop :=
  levels < r.opened ∨ ∃ t ∈ r.trees, t.isUsable = false

end Reader

variable {r next : Reader} {frames : List Frame} {t : Tree} {token : Token}

theorem opened_deliver (t : Tree) (frames : List Frame) :
    (deliver t frames).opened = frames.length := by
  match frames with
  | [] | .array _ :: _ | .object _ _ :: _ => rfl

theorem trees_deliver (t : Tree) (frames : List Frame) :
    (deliver t frames).trees = t :: frames.flatMap Frame.trees := by
  match frames with
  | [] | .array _ :: _ | .object _ _ :: _ => rfl

/-- An array is not usable if it lies too deep or one of its items is not. -/
theorem isUsable_closeArray {items : List Tree}
    (h : levels ≤ frames.length ∨ ∃ t ∈ items, t.isUsable = false) :
    (closeArray items frames).isUsable = false := by
  unfold closeArray
  split
  · rename_i hroom
    obtain ⟨t, ht, hspoilt⟩ := h.resolve_left (Nat.not_le.2 hroom)
    rw [isUsable, itemsUsable_eq_all, List.all_eq_false]
    exact ⟨t, List.mem_reverse.2 ht, by simp [hspoilt]⟩
  · rfl

/-- Usable members are all members, with their names told. -/
theorem map_usableMembers? {members : List (Option String × Tree)} {ms : List (String × Tree)}
    (h : usableMembers? members = some ms) : ms.map Prod.snd = members.map Prod.snd := by
  induction members generalizing ms with
  | nil =>
    cases h
    rfl
  | cons m members ih =>
    obtain ⟨name, t⟩ := m
    cases name with
    | none => cases h
    | some name =>
      obtain ⟨rest, hrest, rfl⟩ := Option.map_eq_some_iff.1 h
      rw [List.map_cons, List.map_cons, ih hrest]

/-- An object is not usable if it lies too deep or one of its members is not. -/
theorem isUsable_closeObject {members : List (Option String × Tree)}
    (h : levels ≤ frames.length ∨ ∃ t ∈ members.map Prod.snd, t.isUsable = false) :
    (closeObject members frames).isUsable = false := by
  unfold closeObject
  split
  · rename_i hroom
    obtain ⟨t, ht, hspoilt⟩ := h.resolve_left (Nat.not_le.2 hroom)
    split
    · rename_i ms hms
      have hmem : t ∈ ms.map Prod.snd := by
        rw [map_usableMembers? hms, List.map_reverse]
        exact List.mem_reverse.2 ht
      obtain ⟨m, hm, rfl⟩ := List.mem_map.1 hmem
      rw [isUsable, membersUsable_eq_all, List.all_eq_false]
      exact ⟨m, hm, by simp [hspoilt]⟩
    · rfl
  · rfl

namespace Reader

/-- A reader with more containers open and more trees is spoilt too. -/
theorem Spoilt.mono (h : r.Spoilt) (hopened : r.opened ≤ next.opened)
    (htrees : r.trees ⊆ next.trees) : next.Spoilt :=
  h.imp (fun hlevels => Nat.lt_of_lt_of_le hlevels hopened) fun ⟨t, ht, hspoilt⟩ =>
    ⟨t, htrees ht, hspoilt⟩

/-- A container that closes passes on what spoils it. -/
theorem spoilt_deliver {held : List Tree}
    (hclose : (levels ≤ frames.length ∨ ∃ s ∈ held, s.isUsable = false) → t.isUsable = false)
    (h : levels < frames.length + 1 ∨
      ∃ s ∈ held ++ frames.flatMap Frame.trees, s.isUsable = false) :
    (deliver t frames).Spoilt := by
  refine Or.inr ?_
  rw [trees_deliver]
  rcases h with hlevels | ⟨s, hs, hspoilt⟩
  · exact ⟨t, List.mem_cons_self, hclose (Or.inl (Nat.lt_succ_iff.1 hlevels))⟩
  · rcases List.mem_append.1 hs with hs | hs
    · exact ⟨t, List.mem_cons_self, hclose (Or.inr ⟨s, hs, hspoilt⟩)⟩
    · exact ⟨s, List.mem_cons_of_mem t hs, hspoilt⟩

/-- Where a value has to come, a token opens a container or delivers a value. -/
theorem startValue?_cases (h : startValue? frames token = some next) :
    (∃ t, next = deliver t frames ∧ token.openedAfter frames.length = frames.length) ∨
      (next = .firstItem frames ∨ next = .firstName frames) ∧
        token.openedAfter frames.length = frames.length + 1 := by
  cases token <;> cases h
  case openBracket => exact Or.inr ⟨Or.inl rfl, rfl⟩
  case openBrace => exact Or.inr ⟨Or.inr rfl, rfl⟩
  all_goals exact Or.inl ⟨_, rfl, rfl⟩

/-- A value opens a container exactly if its first token does. -/
theorem opened_startValue? (h : startValue? frames token = some next) :
    next.opened = token.openedAfter frames.length := by
  rcases startValue?_cases h with ⟨t, rfl, heq⟩ | ⟨rfl | rfl, heq⟩
  · rw [opened_deliver, heq]
  · exact heq.symm
  · exact heq.symm

/-- To start a value forgets none of the trees that are held. -/
theorem trees_startValue? (h : startValue? frames token = some next) :
    frames.flatMap Frame.trees ⊆ next.trees := by
  rcases startValue?_cases h with ⟨t, rfl, -⟩ | ⟨rfl | rfl, -⟩
  · rw [trees_deliver]
    exact List.subset_cons_self t _
  · exact List.Subset.refl _
  · exact List.Subset.refl _

/-- Where a name has to come, a token does not change what is open or held. -/
theorem startName?_eq {members : List (Option String × Tree)}
    (h : startName? members frames token = some next) :
    ∃ name, next = .colon members name frames ∧ ∀ n, token.openedAfter n = n := by
  cases token <;> cases h
  all_goals exact ⟨_, rfl, fun _ => rfl⟩

/-- A token opens and closes the containers that it says. -/
theorem opened_step (h : r.step? token = some next) : next.opened = token.openedAfter r.opened := by
  cases r with
  | value frames => exact opened_startValue? h
  | firstItem frames =>
    rw [step?] at h
    split at h
    · -- An empty array is closed at once.
      rename_i hclose
      obtain rfl := Option.some.inj h
      rw [opened_deliver, hclose]
      rfl
    · exact opened_startValue? h
  | afterItem items frames =>
    cases token <;> cases h
    · exact opened_deliver _ _
    · rfl
  | firstName frames =>
    rw [step?] at h
    split at h
    · rename_i hclose
      obtain rfl := Option.some.inj h
      rw [opened_deliver, hclose]
      rfl
    · obtain ⟨name, rfl, heq⟩ := startName?_eq h
      exact (heq _).symm
  | nextName members frames =>
    obtain ⟨name, rfl, heq⟩ := startName?_eq h
    exact (heq _).symm
  | colon members name frames =>
    cases token <;> cases h
    rfl
  | afterMember members frames =>
    cases token <;> cases h
    · exact opened_deliver _ _
    · rfl
  | complete => cases h

/-- Where a value has to come, a token closes nothing. -/
theorem Spoilt.startValue? (hr : (Reader.value frames).Spoilt)
    (h : startValue? frames token = some next) : next.Spoilt := by
  refine hr.mono ?_ (trees_startValue? h)
  rw [opened_startValue? h]
  rcases startValue?_cases h with ⟨-, -, heq⟩ | ⟨-, heq⟩
  · exact Nat.le_of_eq heq.symm
  · exact Nat.le_trans (Nat.le_succ _) (Nat.le_of_eq heq.symm)

/-- **No token mends** a spoilt reader. -/
theorem Spoilt.step (hr : r.Spoilt) (h : r.step? token = some next) : next.Spoilt := by
  cases r with
  | value frames => exact hr.startValue? h
  | firstItem frames =>
    rw [step?] at h
    split at h
    · obtain rfl := Option.some.inj h
      exact spoilt_deliver isUsable_closeArray hr
    · -- The first item is read with the array open and empty.
      have hopen : (Reader.value (.array [] :: frames)).Spoilt := hr
      exact hopen.startValue? h
  | afterItem items frames =>
    cases token <;> cases h
    · exact spoilt_deliver isUsable_closeArray hr
    · exact hr
  | firstName frames =>
    rw [step?] at h
    split at h
    · obtain rfl := Option.some.inj h
      exact spoilt_deliver isUsable_closeObject hr
    · obtain ⟨name, rfl, -⟩ := startName?_eq h
      exact hr
  | nextName members frames =>
    obtain ⟨name, rfl, -⟩ := startName?_eq h
    exact hr
  | colon members name frames =>
    cases token <;> cases h
    exact hr
  | afterMember members frames =>
    cases token <;> cases h
    · exact spoilt_deliver isUsable_closeObject hr
    · exact hr
  | complete => cases h

/-- Tokens that open too many containers, or that follow something unusable, write nothing of
use. -/
theorem isUsable_of_run? {tokens : List Token} (h : r.run? tokens = some (.complete t))
    (hr : r.Spoilt ∨ levels < Token.depthFrom r.opened tokens) : t.isUsable = false := by
  -- By induction on the tokens: the reader is spoilt, or the depth still lies ahead.
  induction tokens generalizing r with
  | nil =>
    obtain rfl := Option.some.inj h
    rcases hr with (hlevels | ⟨s, hs, hspoilt⟩) | hlevels
    · cases hlevels
    · rwa [List.mem_singleton.1 hs] at hspoilt
    · cases hlevels
  | cons token tokens ih =>
    rw [run?] at h
    split at h
    · rename_i next hnext
      refine ih h ?_
      rcases hr with hr | hlevels
      · exact Or.inl (hr.step hnext)
      · rw [Token.depthFrom] at hlevels
        have hwhere : levels < r.opened ∨
            levels < Token.depthFrom (token.openedAfter r.opened) tokens := by omega
        rcases hwhere with hlevels | hlevels
        · exact Or.inl (Spoilt.step (Or.inl hlevels) hnext)
        · exact Or.inr (by rwa [opened_step hnext])
    · cases h

end Reader

end Tree

/-- **A text that nests too deep stands for no value.** -/
theorem ofTree?_eq_none_of_depth {text : String} {tokens : List Token} {t : Tree}
    (htokens : Token.scan? text = some tokens) (hdepth : Tree.levels < Token.depth tokens)
    (ht : Tree.ofText? text = some t) : ofTree? t = none := by
  rw [Tree.ofText?, htokens, Option.bind_some, Tree.ofTokens?] at ht
  split at ht
  · rename_i s hrun
    obtain rfl := Option.some.inj ht
    rw [Option.eq_none_iff_forall_ne_some]
    intro v hv
    have husable := isUsable_of_ofTree? hv
    rw [Tree.Reader.isUsable_of_run? hrun (Or.inr hdepth)] at husable
    cases husable
  · cases ht

end ReactiveSpace.Json
