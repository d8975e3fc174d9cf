/-!
# Maps that keep the order of insertion

A map from names is a list of pairs with distinct names. A new name goes to the end; a name that is
already there keeps its place and takes the new value. The laws of `get?` and `insert` stand beside
them: a look-up sees the last value inserted, and the names of the map only ever grow at the end.
-/

namespace ReactiveSpace.Keyed

variable {β γ : Type}

/-- The value of the first pair named `name`. -/
def get? (name : String) : List (String × β) → Option β
  | [] => none
  | (n, v) :: rest => if n = name then some v else get? name rest

/-- The map with `value` under `name`. -/
def insert (name : String) (value : β) : List (String × β) → List (String × β)
  | [] => [(name, value)]
  | (n, v) :: rest => if n = name then (n, value) :: rest else (n, v) :: insert name value rest

/-- The names of the map, in order. -/
def names (entries : List (String × β)) : List String :=
  entries.map Prod.fst

/-- The map that results when the pairs are inserted one after the other. -/
def ofPairs (pairs : List (String × β)) : List (String × β) :=
  pairs.foldl (fun entries p => insert p.1 p.2 entries) []

/-- Whether two maps hold the same names with values related by `same`, in any order. -/
def sameBy (same : β → β → Bool) (xs ys : List (String × β)) : Bool :=
  xs.length == ys.length &&
    xs.all fun x => match get? x.1 ys with
      | some y => same x.2 y
      | none => false

@[simp] theorem get?_nil (name : String) : get? name ([] : List (String × β)) = none := rfl

theorem get?_insert (name other : String) (value : β) (entries : List (String × β)) :
    get? other (insert name value entries) =
      if name = other then some value else get? other entries := by
  induction entries with
  | nil => simp [insert, get?]
  | cons e rest ih =>
    obtain ⟨n, v⟩ := e
    by_cases hn : n = name <;> by_cases ho : n = other <;> by_cases hno : name = other <;>
      simp_all [insert, get?]

theorem get?_eq_none_iff (name : String) (entries : List (String × β)) :
    get? name entries = none ↔ name ∉ names entries := by
  induction entries with
  | nil => simp [names]
  | cons e rest ih =>
    obtain ⟨n, v⟩ := e
    by_cases hn : n = name <;> simp_all [get?, names, eq_comm]

/-- A name that is not there yet keeps the names distinct. -/
theorem nodup_names_append {name : String} {entries : List (String × β)} (value : β)
    (hd : (names entries).Nodup) (hn : name ∉ names entries) :
    (names (entries ++ [(name, value)])).Nodup := by
  simp only [names, List.map_append, List.map_cons, List.map_nil] at hd hn ⊢
  rw [List.nodup_append]
  refine ⟨hd, by simp, ?_⟩
  intro a ha b hb
  simp only [List.mem_singleton] at hb
  subst hb
  exact fun e => hn (e ▸ ha)

/-- Inserting a name that is there keeps the names; a new one goes to the end. -/
theorem names_insert (name : String) (value : β) (entries : List (String × β)) :
    names (insert name value entries) =
      if name ∈ names entries then names entries else names entries ++ [name] := by
  induction entries with
  | nil => simp [insert, names]
  | cons e rest ih =>
    obtain ⟨n, v⟩ := e
    by_cases hn : n = name
    · simp [insert, names, hn]
    · have hn' : ¬ name = n := fun h => hn h.symm
      simp only [names] at ih
      by_cases hm : name ∈ rest.map Prod.fst <;>
        simp only [hm, if_true, if_false] at ih <;>
        simp [insert, names, hn, hn', ih, hm]

end ReactiveSpace.Keyed
