import Mathlib.Data.List.Basic
import Mathlib.Data.List.Induction
import ReactiveSpace.Keyed

/-!
# Maps that are filled pair by pair

When pairs are inserted one after the other, the names of the map are those of the pairs, and of two
pairs with one name the later counts (`get?_ofPairs_eq_some_iff`). Pairs with distinct names are the
map as they stand (`ofPairs_eq_self`).
-/

namespace ReactiveSpace.Keyed

variable {β : Type}

/-- A value that is found stands under its name. -/
theorem mem_of_get? {name : String} {entries : List (String × β)} {value : β}
    (h : get? name entries = some value) : (name, value) ∈ entries := by
  induction entries with
  | nil => simp at h
  | cons e rest ih =>
    obtain ⟨n, v⟩ := e
    by_cases hn : n = name
    · rw [get?, if_pos hn, Option.some.injEq] at h
      simp [hn, h]
    · rw [get?, if_neg hn] at h
      exact List.mem_cons_of_mem _ (ih h)

/-- If names are distinct, what stands under a name is found. -/
theorem get?_of_mem {name : String} {entries : List (String × β)} {value : β}
    (hd : (names entries).Nodup) (h : (name, value) ∈ entries) :
    get? name entries = some value := by
  induction entries with
  | nil => cases h
  | cons e rest ih =>
    obtain ⟨n, v⟩ := e
    obtain ⟨hn, hrest⟩ := List.nodup_cons.1 hd
    rw [get?]
    rcases List.mem_cons.1 h with heq | hmem
    · obtain ⟨rfl, rfl⟩ := Prod.mk.inj heq
      rw [if_pos rfl]
    · have hname : name ∈ names rest := List.mem_map_of_mem (f := Prod.fst) hmem
      have hne : n ≠ name := by
        rintro rfl
        exact hn hname
      rw [if_neg hne, ih hrest hmem]

/-- A name that is kept keeps its value. -/
theorem get?_filter {name : String} {keep : String → Bool} (hname : keep name = true)
    (entries : List (String × β)) :
    get? name (entries.filter fun e => keep e.1) = get? name entries := by
  induction entries with
  | nil => rfl
  | cons e entries ih =>
    obtain ⟨n, v⟩ := e
    by_cases hn : n = name
    · have hkeep : keep n = true := hn ▸ hname
      rw [List.filter_cons, if_pos hkeep, get?, get?, if_pos hn, if_pos hn]
    · rw [List.filter_cons, get?, if_neg hn]
      split
      · rw [get?, if_neg hn, ih]
      · exact ih

theorem mem_names_insert {name other : String} {value : β} {entries : List (String × β)} :
    other ∈ names (insert name value entries) ↔ other = name ∨ other ∈ names entries := by
  rw [names_insert]
  split
  · rename_i h
    exact ⟨Or.inr, fun ho => ho.elim (fun e => e ▸ h) id⟩
  · simp [or_comm]

theorem ofPairs_concat (pairs : List (String × β)) (p : String × β) :
    ofPairs (pairs ++ [p]) = insert p.1 p.2 (ofPairs pairs) := by
  simp [ofPairs, List.foldl_append]

theorem insert_of_notMem {name : String} {value : β} {entries : List (String × β)}
    (h : name ∉ names entries) : insert name value entries = entries ++ [(name, value)] := by
  induction entries with
  | nil => rfl
  | cons e rest ih =>
    obtain ⟨n, v⟩ := e
    obtain ⟨hn, hrest⟩ := not_or.1 (List.mem_cons.not.1 h)
    rw [insert, if_neg (Ne.symm hn), ih hrest, List.cons_append]

/-- The names of a map are those of the pairs inserted. -/
theorem mem_names_ofPairs {name : String} {pairs : List (String × β)} :
    name ∈ names (ofPairs pairs) ↔ name ∈ pairs.map Prod.fst := by
  induction pairs using List.reverseRecOn with
  | nil => simp [ofPairs, names]
  | append_singleton pairs p ih =>
    rw [ofPairs_concat, mem_names_insert, ih]
    simp [or_comm]

/-- The names of a map are distinct. -/
theorem nodup_names_ofPairs (pairs : List (String × β)) : (names (ofPairs pairs)).Nodup := by
  induction pairs using List.reverseRecOn with
  | nil => exact List.nodup_nil
  | append_singleton pairs p ih =>
    rw [ofPairs_concat]
    by_cases hp : p.1 ∈ names (ofPairs pairs)
    · rwa [names_insert, if_pos hp]
    · rw [insert_of_notMem hp]
      exact nodup_names_append p.2 ih hp

/-- The value of the last pair named `name`. -/
def last? (name : String) (pairs : List (String × β)) : Option β :=
  get? name pairs.reverse

/-- The map has the last value of each name. -/
theorem get?_ofPairs (name : String) (pairs : List (String × β)) :
    get? name (ofPairs pairs) = last? name pairs := by
  induction pairs using List.reverseRecOn with
  | nil => rfl
  | append_singleton pairs p ih =>
    rw [ofPairs_concat, get?_insert, ih, last?, last?, List.reverse_append]
    rfl

/-- If names are distinct, every pair goes to the end. -/
theorem ofPairs_eq_self {pairs : List (String × β)} (hd : (names pairs).Nodup) :
    ofPairs pairs = pairs := by
  induction pairs using List.reverseRecOn with
  | nil => rfl
  | append_singleton pairs p ih =>
    rw [names, List.map_append] at hd
    obtain ⟨hpairs, -, hne⟩ := List.nodup_append.1 hd
    have hp : p.1 ∉ names pairs := fun hmem => hne p.1 hmem p.1 (by simp) rfl
    rw [ofPairs_concat, ih hpairs, insert_of_notMem hp]

/-- Of two pairs with one name the later counts. -/
theorem get?_ofPairs_eq_some_iff {name : String} {pairs : List (String × β)} {value : β} :
    get? name (ofPairs pairs) = some value ↔
      ∃ before after, pairs = before ++ (name, value) :: after ∧ ∀ p ∈ after, p.1 ≠ name := by
  induction pairs using List.reverseRecOn with
  | nil => simp [ofPairs]
  | append_singleton pairs p ih =>
    obtain ⟨n, v⟩ := p
    rw [ofPairs_concat, get?_insert]
    split
    · rename_i hn
      subst hn
      constructor
      · intro h
        exact ⟨pairs, [], by simpa using h, by simp⟩
      · rintro ⟨before, after, heq, hafter⟩
        -- The last pair has the name, so nothing comes after the pair that counts.
        rcases List.eq_nil_or_concat' after with rfl | ⟨front, last, rfl⟩
        · have hlast := List.append_inj_right' heq rfl
          simpa using hlast
        · rw [← List.cons_append, ← List.append_assoc] at heq
          have hlast := List.append_inj_right' heq rfl
          exact absurd (by rw [← List.singleton_inj.1 hlast]) (hafter last (by simp))
    · rename_i hn
      rw [ih]
      constructor
      · rintro ⟨before, after, heq, hafter⟩
        refine ⟨before, after ++ [(n, v)], by simp [heq], ?_⟩
        intro p hp
        rcases List.mem_append.1 hp with hp | hp
        · exact hafter p hp
        · rw [List.mem_singleton.1 hp]
          exact hn
      · rintro ⟨before, after, heq, hafter⟩
        rcases List.eq_nil_or_concat' after with rfl | ⟨front, last, rfl⟩
        · have hlast := List.append_inj_right' heq rfl
          exact absurd (congrArg Prod.fst (List.singleton_inj.1 hlast)) hn
        · rw [← List.cons_append, ← List.append_assoc] at heq
          exact ⟨before, front, List.append_inj_left' heq rfl, fun p hp => hafter p (by simp [hp])⟩

end ReactiveSpace.Keyed
