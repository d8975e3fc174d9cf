import Mathlib.Data.Finset.Card
import Mathlib.Data.List.Chain
import Mathlib.Data.List.Nodup
import ReactiveSpace.Proofs.Space.Reference

/-!
# Chains of names

A name that was declared as a reference is followed by the name written there. `Table.chain` lists
the names that follow each other from a given one on. Such a chain ends at a name that was declared
as something else or not at all (`Table.EndsAt`), or it goes on for ever (`Table.Endless`); then it
comes back to a name that it has passed, because all of them are declared (`Table.FirstReturn`).

Resolving a name walks along its chain, and stops at the end or at the first return. The names it
has seen are the front of the chain (`Table.Walked`), so what it answers is told by the chain alone:
`resolve_eq_iff` says for each possible answer when it is given, and `resolve_exact` puts together
what this means for each kind of answer, for the length of the walk and for names that were reached.
-/

namespace ReactiveSpace.Table

/-- The name of the reference that a name was declared as. -/
def next? (t : Table) (name : String) : Option String :=
  (t.get? name).bind Node.reference?

/-- The name at a place of the chain that starts at `name`. -/
def chain (t : Table) (name : String) : ℕ → Option String
  | 0 => some name
  | i + 1 => (t.chain name i).bind t.next?

/-- The chain ends, and `last` is its last name. -/
def EndsAt (t : Table) (name last : String) : Prop :=
  ∃ i, t.chain name i = some last ∧ t.chain name (i + 1) = none

/-- The chain has a name at every place. -/
def Endless (t : Table) (name : String) : Prop :=
  ∀ i, ∃ n, t.chain name i = some n

/-- The names are those of the chain up to the first one that it has passed before. -/
structure FirstReturn (t : Table) (name : String) (names : List String) : Prop where
  chain_eq : ∀ i < names.length, t.chain name i = names[i]?
  linked : names.IsChain t.Next
  distinct : names.dropLast.Nodup
  returned : ∃ last ∈ names.dropLast, names.getLast? = some last

/-- What the chain says about the answer for a name. -/
def Settles (t : Table) (name : String) : Except ResolveError Resolution → Prop
  | .ok (.record last) =>
    t.EndsAt name last ∧ ∃ node s, t.get? last = some node ∧ node.kind = .record s
  | .ok (.message last) =>
    t.EndsAt name last ∧ ∃ node s, t.get? last = some node ∧ node.kind = .message s
  | .ok (.aliased last) =>
    t.EndsAt name last ∧ ∃ node, t.get? last = some node ∧ node.structure? = none
  | .ok (.projection _ _ _) => False
  | .error (.notFound last) => t.EndsAt name last ∧ t.get? last = none
  | .error (.aliasCycle names) => t.FirstReturn name names

variable {t : Table} {name : String}

/-! ### Places in a chain -/

/-- The next name is the one that a name was declared as a reference to. -/
theorem next?_eq_some_iff {next : String} : t.next? name = some next ↔ t.Next name next := by
  unfold next? Next
  rw [Option.bind_eq_some_iff]

theorem mem_names_of_next {next : String} (h : t.Next name next) : name ∈ t.names := by
  obtain ⟨node, hget, -⟩ := h
  exact mem_names_of_get? hget

theorem chain_succ {i : ℕ} {n : String} (h : t.chain name i = some n) :
    t.chain name (i + 1) = t.next? n := by
  rw [chain, h, Option.bind_some]

/-- A chain has no gaps. -/
theorem exists_chain_of_le {i j : ℕ} {n : String} (hij : i ≤ j) (h : t.chain name j = some n) :
    ∃ m, t.chain name i = some m := by
  induction j, hij using Nat.le_induction generalizing n with
  | base => exact ⟨n, h⟩
  | succ j _ ih =>
    rw [chain, Option.bind_eq_some_iff] at h
    obtain ⟨m, hm, -⟩ := h
    exact ih hm

/-- What comes after a name does not depend on where the name stands. -/
theorem chain_add_congr {i j : ℕ} (h : t.chain name i = t.chain name j) (d : ℕ) :
    t.chain name (i + d) = t.chain name (j + d) := by
  induction d with
  | zero => exact h
  | succ d ih => rw [← Nat.add_assoc, ← Nat.add_assoc, chain, chain, ih]

/-- A chain that comes back goes round for ever. -/
theorem endless_of_repeat {i j : ℕ} {n : String} (hij : i < j) (hi : t.chain name i = some n)
    (hj : t.chain name j = some n) : t.Endless name := by
  intro k
  induction k using Nat.strong_induction_on with
  | _ k ih =>
    by_cases hk : k ≤ j
    · exact exists_chain_of_le hk hj
    · -- Past the second place, the name is the same as one round earlier.
      obtain ⟨d, rfl⟩ : ∃ d, k = j + d := ⟨k - j, by omega⟩
      rw [← chain_add_congr (hi.trans hj.symm) d]
      exact ih (i + d) (by omega)

/-- A chain ends at one place. -/
theorem place_of_end_unique {i j : ℕ} {m n : String} (hi : t.chain name i = some m)
    (hi' : t.chain name (i + 1) = none) (hj : t.chain name j = some n)
    (hj' : t.chain name (j + 1) = none) : i = j := by
  have hle : ∀ {i j : ℕ} {n : String}, t.chain name (i + 1) = none → t.chain name j = some n →
      j ≤ i := by
    intro i j n hend hsome
    by_contra hlt
    obtain ⟨m, hm⟩ := exists_chain_of_le (Nat.lt_of_not_le hlt) hsome
    rw [hend] at hm
    cases hm
  exact Nat.le_antisymm (hle hj' hi) (hle hi' hj)

/-- A chain has one end at most. -/
theorem EndsAt.unique {m n : String} (hm : t.EndsAt name m) (hn : t.EndsAt name n) : m = n := by
  obtain ⟨i, hi, hi'⟩ := hm
  obtain ⟨j, hj, hj'⟩ := hn
  obtain rfl := place_of_end_unique hi hi' hj hj'
  rw [hi, Option.some.injEq] at hj
  exact hj

/-- A chain that ends does not go on. -/
theorem EndsAt.not_endless {last : String} (h : t.EndsAt name last) : ¬ t.Endless name := by
  intro hendless
  obtain ⟨i, -, hend⟩ := h
  obtain ⟨n, hn⟩ := hendless (i + 1)
  rw [hend] at hn
  cases hn

/-- Every name but the last is declared, so there are no more different ones than declared names. -/
theorem le_length_names {i : ℕ} {n : String} (hi : t.chain name i = some n)
    (hdistinct : Set.InjOn (t.chain name) (Set.Iio i)) : i ≤ t.names.length := by
  have hmaps : ∀ j ∈ Finset.range i, t.chain name j ∈ t.names.toFinset.image some := by
    intro j hj
    rw [Finset.mem_range] at hj
    obtain ⟨next, hnext⟩ := exists_chain_of_le (Nat.succ_le_of_lt hj) hi
    obtain ⟨m, hm⟩ := exists_chain_of_le (Nat.le_of_lt hj) hi
    rw [chain_succ hm, next?_eq_some_iff] at hnext
    rw [hm, Finset.mem_image]
    exact ⟨m, List.mem_toFinset.2 (mem_names_of_next hnext), rfl⟩
  calc i = (Finset.range i).card := (Finset.card_range i).symm
    _ ≤ (t.names.toFinset.image some).card :=
      Finset.card_le_card_of_injOn (t.chain name) hmaps (by rwa [Finset.coe_range])
    _ ≤ t.names.toFinset.card := Finset.card_image_le
    _ ≤ t.names.length := t.names.toFinset_card_le

/-- A chain that ends has no more names than there are declared, but for the last. -/
theorem place_of_end_le {i : ℕ} {last : String} (hi : t.chain name i = some last)
    (hend : t.chain name (i + 1) = none) : i ≤ t.names.length := by
  refine le_length_names hi fun a ha b hb heq => ?_
  have hnot : ¬ t.Endless name := EndsAt.not_endless ⟨i, hi, hend⟩
  obtain ⟨n, hn⟩ := exists_chain_of_le (Nat.le_of_lt ha) hi
  rcases Nat.lt_trichotomy a b with hlt | rfl | hgt
  · exact absurd (endless_of_repeat hlt hn (heq ▸ hn)) hnot
  · rfl
  · exact absurd (endless_of_repeat hgt (heq ▸ hn) hn) hnot

/-- The last name of a chain is a chain of its own. -/
theorem EndsAt.last {last : String} (h : t.EndsAt name last) : t.EndsAt last last := by
  obtain ⟨i, hi, hend⟩ := h
  refine ⟨0, rfl, ?_⟩
  rw [chain_succ hi] at hend
  exact hend

/-! ### The first return -/

namespace FirstReturn

variable {names : List String}

/-- The last name stands at an earlier place too. -/
theorem exists_earlier (h : t.FirstReturn name names) :
    ∃ i j last, i < j ∧ j + 1 = names.length ∧ t.chain name i = some last ∧
      t.chain name j = some last := by
  obtain ⟨last, hmem, hlast⟩ := h.returned
  obtain ⟨i, hi, hget⟩ := List.getElem_of_mem hmem
  rw [List.length_dropLast] at hi
  refine ⟨i, names.length - 1, last, hi, by omega, ?_, ?_⟩
  · rw [h.chain_eq i (by omega), ← hget, List.getElem_dropLast, List.getElem?_eq_getElem]
  · rw [h.chain_eq _ (by omega), ← List.getLast?_eq_getElem?, hlast]

theorem endless (h : t.FirstReturn name names) : t.Endless name := by
  obtain ⟨i, j, last, hij, -, hi, hj⟩ := h.exists_earlier
  exact endless_of_repeat hij hi hj

/-- Before the last place, different places have different names. -/
theorem injOn (h : t.FirstReturn name names) :
    Set.InjOn (t.chain name) (Set.Iio (names.length - 1)) := by
  intro i hi j hj heq
  rw [Set.mem_Iio, ← List.length_dropLast] at hi hj
  have hlength := names.length_dropLast
  rw [h.chain_eq i (by omega), h.chain_eq j (by omega), List.getElem?_eq_getElem (by omega),
    List.getElem?_eq_getElem (by omega), Option.some.injEq] at heq
  have hdrop : names.dropLast[i] = names.dropLast[j] := by
    rw [List.getElem_dropLast, List.getElem_dropLast, heq]
  exact (List.Nodup.getElem_inj_iff h.distinct).1 hdrop

/-- All names but the last are different and declared, so there is one more at most than names in
the table. -/
theorem length_le (h : t.FirstReturn name names) : names.length ≤ t.names.length + 1 := by
  obtain ⟨-, j, last, -, hj, -, hlast⟩ := h.exists_earlier
  obtain rfl : j = names.length - 1 := by omega
  have hle := le_length_names hlast h.injOn
  omega

/-- The names of one return are no more than those of another. -/
theorem length_le_length {others : List String} (h : t.FirstReturn name names)
    (h' : t.FirstReturn name others) : others.length ≤ names.length := by
  by_contra hlt
  obtain ⟨i, j, last, hij, hj, hi, hjlast⟩ := h.exists_earlier
  -- The return of `names` would be a repetition among the distinct names of `others`.
  have hplace : i = j := h'.injOn (by rw [Set.mem_Iio]; omega) (by rw [Set.mem_Iio]; omega)
    (hi.trans hjlast.symm)
  omega

/-- A chain first returns in one place only. -/
theorem unique {others : List String} (h : t.FirstReturn name names)
    (h' : t.FirstReturn name others) : names = others := by
  have hlength : names.length = others.length :=
    Nat.le_antisymm (h'.length_le_length h) (h.length_le_length h')
  refine List.ext_getElem? fun i => ?_
  by_cases hi : i < names.length
  · rw [← h.chain_eq i hi, ← h'.chain_eq i (hlength ▸ hi)]
  · rw [List.getElem?_eq_none (by omega), List.getElem?_eq_none (by omega)]

end FirstReturn

/-! ### Walking along the chain -/

/-- The names seen so far, with the one that comes next, are the front of a chain, and none of those
seen came twice. -/
structure Walked (t : Table) (start : String) (seen : List String) (name : String) : Prop where
  chain_eq : ∀ i < seen.length + 1, t.chain start i = (seen.reverse ++ [name])[i]?
  linked : (seen.reverse ++ [name]).IsChain t.Next
  distinct : seen.Nodup

namespace Walked

variable {start : String} {seen : List String}

theorem nil (t : Table) (name : String) : t.Walked name [] name := by
  refine ⟨fun i hi => ?_, List.isChain_singleton _, List.nodup_nil⟩
  obtain rfl : i = 0 := by simpa using hi
  rfl

theorem chain_length (h : t.Walked start seen name) : t.chain start seen.length = some name := by
  rw [h.chain_eq _ (Nat.lt_succ_self _), List.getElem?_append_right (by simp)]
  simp

/-- The walk goes on to the name that follows. -/
theorem step {next : String} (h : t.Walked start seen name) (hfresh : name ∉ seen)
    (hnext : t.Next name next) : t.Walked start (name :: seen) next := by
  refine ⟨fun i hi => ?_, ?_, List.nodup_cons.2 ⟨hfresh, h.distinct⟩⟩
  · rw [List.length_cons] at hi
    rw [List.reverse_cons]
    by_cases hlt : i < seen.length + 1
    · have hfront : i < (seen.reverse ++ [name]).length := by simpa using hlt
      rw [h.chain_eq i hlt, List.getElem?_append_left hfront]
    · obtain rfl : i = seen.length + 1 := by omega
      rw [chain_succ h.chain_length, next?_eq_some_iff.2 hnext,
        List.getElem?_append_right (by simp)]
      simp
  · rw [List.reverse_cons, List.isChain_append]
    refine ⟨h.linked, List.isChain_singleton _, ?_⟩
    simpa using hnext

/-- A name that was seen before is the first return. -/
theorem firstReturn (h : t.Walked start seen name) (hseen : name ∈ seen) :
    t.FirstReturn start (seen.reverse ++ [name]) where
  chain_eq i hi := h.chain_eq i (by simpa using hi)
  linked := h.linked
  distinct := by simpa [List.nodup_reverse] using h.distinct
  returned := ⟨name, by simpa using hseen, by simp⟩

theorem endsAt (h : t.Walked start seen name) (hend : t.next? name = none) :
    t.EndsAt start name :=
  ⟨seen.length, h.chain_length, by rw [chain_succ h.chain_length, hend]⟩

/-- The answer of the walk is what the chain says. -/
theorem settles (h : t.Walked start seen name) : t.Settles start (t.resolveFrom seen name) := by
  fun_induction resolveFrom t seen name with
  | case1 seen name hs => exact h.firstReturn hs
  | case2 seen name hs hg => exact ⟨h.endsAt (by simp [next?, hg]), hg⟩
  | case3 seen name hs node hg s hk =>
    exact ⟨h.endsAt (by simp [next?, hg, Node.reference?, hk]), node, s, hg, hk⟩
  | case4 seen name hs node hg s hk =>
    exact ⟨h.endsAt (by simp [next?, hg, Node.reference?, hk]), node, s, hg, hk⟩
  | case5 seen name hs node hg next hk ih =>
    exact ih (h.step hs ⟨node, hg, Node.reference?_eq_some_iff.2 hk⟩)
  | case6 seen name hs node hg hrecord hmessage href =>
    refine ⟨h.endsAt ?_, node, hg, Node.structure?_eq_none hrecord hmessage⟩
    simp [next?, hg, Node.reference?_eq_none_iff.2 href]

end Walked

/-! ### Answers -/

theorem settles_resolve (t : Table) (name : String) : t.Settles name (t.resolve name) :=
  (Walked.nil t name).settles

/-- At the end of the chain, what its last name was declared as decides. -/
theorem resolve_of_endsAt {last : String} (h : t.EndsAt name last) :
    t.resolve name = match t.get? last with
      | none => .error (.notFound last)
      | some node => match node.kind with
        | .record _ => .ok (.record last)
        | .message _ => .ok (.message last)
        | _ => .ok (.aliased last) := by
  have hsettles := t.settles_resolve name
  -- Whatever the answer is, it settles the name, and a chain has one end.
  generalize t.resolve name = r at hsettles ⊢
  match r, hsettles with
  | .ok (.record m), ⟨hm, node, s, hget, hk⟩ =>
    obtain rfl := h.unique hm
    simp [hget, hk]
  | .ok (.message m), ⟨hm, node, s, hget, hk⟩ =>
    obtain rfl := h.unique hm
    simp [hget, hk]
  | .ok (.aliased m), ⟨hm, node, hget, hs⟩ =>
    obtain rfl := h.unique hm
    cases hk : node.kind <;> simp_all [Node.structure?]
  | .error (.notFound m), ⟨hm, hget⟩ =>
    obtain rfl := h.unique hm
    simp [hget]
  | .error (.aliasCycle names), hreturn => exact absurd hreturn.endless h.not_endless

/-- A chain that does not end is cut off at its first return. -/
theorem resolve_of_endless (h : t.Endless name) :
    ∃ names, t.resolve name = .error (.aliasCycle names) := by
  have hsettles := t.settles_resolve name
  generalize t.resolve name = r at hsettles ⊢
  match r, hsettles with
  | .ok (.record m), ⟨hm, _⟩ => exact absurd h hm.not_endless
  | .ok (.message m), ⟨hm, _⟩ => exact absurd h hm.not_endless
  | .ok (.aliased m), ⟨hm, _⟩ => exact absurd h hm.not_endless
  | .error (.notFound m), ⟨hm, _⟩ => exact absurd h hm.not_endless
  | .error (.aliasCycle names), _ => exact ⟨names, rfl⟩

/-- The chain of a name says what its answer is. -/
theorem resolve_eq_iff {r : Except ResolveError Resolution} :
    t.resolve name = r ↔ t.Settles name r := by
  constructor
  · rintro rfl
    exact t.settles_resolve name
  · intro h
    match r, h with
    | .ok (.record m), ⟨hm, node, s, hget, hk⟩ => simp [resolve_of_endsAt hm, hget, hk]
    | .ok (.message m), ⟨hm, node, s, hget, hk⟩ => simp [resolve_of_endsAt hm, hget, hk]
    | .ok (.aliased m), ⟨hm, node, hget, hs⟩ =>
      rw [resolve_of_endsAt hm, hget]
      cases hk : node.kind <;> simp_all [Node.structure?]
    | .error (.notFound m), ⟨hm, hget⟩ => simp [resolve_of_endsAt hm, hget]
    -- The chain first returns in one place, so the names are those.
    | .error (.aliasCycle names), hreturn =>
      obtain ⟨others, hothers⟩ := resolve_of_endless hreturn.endless
      have hsettles := t.settles_resolve name
      rw [hothers] at hsettles ⊢
      rw [hreturn.unique hsettles]

/-- A name that resolves leads to the last name of its chain, which has a node. -/
theorem exists_last_of_resolve {r : Resolution} (h : t.resolve name = .ok r) :
    ∃ last node, (r = .record last ∨ r = .message last ∨ r = .aliased last) ∧
      t.EndsAt name last ∧ t.get? last = some node := by
  have hsettles := resolve_eq_iff.1 h
  match r, hsettles with
  | .record last, ⟨hlast, node, _, hget, _⟩ => exact ⟨last, node, .inl rfl, hlast, hget⟩
  | .message last, ⟨hlast, node, _, hget, _⟩ => exact ⟨last, node, .inr (.inl rfl), hlast, hget⟩
  | .aliased last, ⟨hlast, node, hget, _⟩ => exact ⟨last, node, .inr (.inr rfl), hlast, hget⟩

/-- **Resolving names.** A name resolves to the record, the message or the other type that the last
name of its chain was declared as; that name is not found exactly when it is not declared; and there
is a cycle exactly when the chain never ends, which is then told up to its first return. A walk
along the chain passes at most one name more than there are declared. The name that a resolution
leads to resolves in the same way, and its node is what the first name stands for. -/
theorem resolve_exact (t : Table) (name : String) :
    (∀ last, t.resolve name = .ok (.record last) ↔
      t.EndsAt name last ∧ ∃ node s, t.get? last = some node ∧ node.kind = .record s) ∧
    (∀ last, t.resolve name = .ok (.message last) ↔
      t.EndsAt name last ∧ ∃ node s, t.get? last = some node ∧ node.kind = .message s) ∧
    (∀ last, t.resolve name = .ok (.aliased last) ↔
      t.EndsAt name last ∧ ∃ node, t.get? last = some node ∧ node.structure? = none) ∧
    (∀ last, t.resolve name = .error (.notFound last) ↔
      t.EndsAt name last ∧ t.get? last = none) ∧
    ((∃ names, t.resolve name = .error (.aliasCycle names)) ↔ t.Endless name) ∧
    (∀ names, t.resolve name = .error (.aliasCycle names) ↔ t.FirstReturn name names) ∧
    (∀ i last, t.chain name i = some last → t.chain name (i + 1) = none → i ≤ t.names.length) ∧
    (∀ names, t.FirstReturn name names → names.length ≤ t.names.length + 1) ∧
    ∀ r, t.resolve name = .ok r →
      ∃ last node, (r = .record last ∨ r = .message last ∨ r = .aliased last) ∧
        t.resolve last = .ok r ∧ t.get? last = some node ∧ t.followName? name = some node := by
  refine ⟨fun _ => resolve_eq_iff, fun _ => resolve_eq_iff, fun _ => resolve_eq_iff,
    fun _ => resolve_eq_iff, ⟨?_, resolve_of_endless⟩, fun _ => resolve_eq_iff,
    fun _ _ => place_of_end_le, fun _ => FirstReturn.length_le, ?_⟩
  · rintro ⟨names, hnames⟩
    exact (resolve_eq_iff.1 hnames).endless
  · intro r hr
    obtain ⟨last, node, hcases, hlast, hget⟩ := exists_last_of_resolve hr
    refine ⟨last, node, hcases, ?_, hget, ?_⟩
    · rw [resolve_of_endsAt hlast.last, ← resolve_of_endsAt hlast, hr]
    · rw [followName?, hr]
      rcases hcases with rfl | rfl | rfl <;> exact hget

/-- A chain that runs into a cycle is told from its start, which need not lie on the cycle. -/
example : Table.resolve { entries := [("a", .ofKind (.ref "b")), ("b", .ofKind (.ref "c")),
    ("c", .ofKind (.ref "b"))], distinct := by decide } "a" =
      .error (.aliasCycle ["a", "b", "c", "b"]) := by
  cbv

end ReactiveSpace.Table
