import ReactiveSpace.Schema.Name

/-!
# Names that can be written

A name without a problem consists of letters, digits and underscores (`isPart_of_typeProblem?`), and
one that can name a member does not start as generated members do (`isReserved_of_memberProblem?`),
not even when something is written behind it (`isReserved_append`).
-/

namespace ReactiveSpace.Name

variable {name : String}

/-- What may begin a name may stand anywhere in it. -/
theorem isPart_of_isStart {c : Char} (h : isStart c = true) : isPart c = true := by
  rw [isStart, Bool.or_eq_true] at h
  rw [isPart, Bool.or_eq_true, Char.isAlphanum, Bool.or_eq_true]
  exact h.imp_left Or.inl

/-- A name can name a type when it is an identifier other than the underscore. -/
theorem typeProblem?_eq_none_iff : typeProblem? name = none ↔
    (∃ c cs, name.toList = c :: cs ∧ isStart c = true ∧ ∀ x ∈ cs, isPart x = true) ∧
      name ≠ "_" := by
  unfold typeProblem?
  split
  · -- An empty name has no first character.
    rename_i h
    simp [h]
  · rename_i c cs h
    have hparts : (∃ c' cs', name.toList = c' :: cs' ∧ isStart c' = true ∧
        ∀ x ∈ cs', isPart x = true) ↔ isStart c = true ∧ cs.all isPart = true := by
      rw [List.all_eq_true, h]
      constructor
      · rintro ⟨_, _, ⟨⟩, hc, hcs⟩
        exact ⟨hc, hcs⟩
      · rintro ⟨hc, hcs⟩
        exact ⟨c, cs, rfl, hc, hcs⟩
    rw [hparts]
    cases isStart c <;> cases cs.all isPart <;> by_cases hunderscore : name = "_" <;>
      simp [hunderscore]

/-- All characters of a well-formed name may stand in one. -/
theorem isPart_of_typeProblem? (h : typeProblem? name = none) :
    ∀ c ∈ name.toList, isPart c = true := by
  obtain ⟨⟨c, cs, hname, hstart, hparts⟩, -⟩ := typeProblem?_eq_none_iff.1 h
  intro x hx
  rw [hname] at hx
  rcases List.mem_cons.1 hx with rfl | hx
  · exact isPart_of_isStart hstart
  · exact hparts x hx

theorem isPart_append {a b : String} (ha : ∀ c ∈ a.toList, isPart c = true)
    (hb : ∀ c ∈ b.toList, isPart c = true) : ∀ c ∈ (a ++ b).toList, isPart c = true := by
  intro c hc
  rw [String.toList_append, List.mem_append] at hc
  exact hc.elim (ha c) (hb c)

/-- A name can name a member when it can name a type and is neither kept by the language nor
reserved for generated members. -/
theorem memberProblem?_eq_none_iff : memberProblem? name = none ↔
    typeProblem? name = none ∧ name ∉ keywords ∧ isReserved name = false := by
  unfold memberProblem?
  cases typeProblem? name with
  | some problem => simp
  | none => by_cases hkeyword : name ∈ keywords <;> simp [hkeyword]

/-- The rules for members are those for types and more. -/
theorem typeProblem?_of_memberProblem? (h : memberProblem? name = none) :
    typeProblem? name = none :=
  (memberProblem?_eq_none_iff.1 h).1

theorem isPart_of_memberProblem? (h : memberProblem? name = none) :
    ∀ c ∈ name.toList, isPart c = true :=
  isPart_of_typeProblem? (typeProblem?_of_memberProblem? h)

/-- No member has a reserved name. -/
theorem isReserved_of_memberProblem? (h : memberProblem? name = none) : isReserved name = false :=
  (memberProblem?_eq_none_iff.1 h).2.2

/-- A name is reserved if it begins with two underscores. -/
theorem isReserved_iff : isReserved name = true ↔ ∃ rest, name.toList = '_' :: '_' :: rest := by
  unfold isReserved
  split
  · rename_i rest h
    exact ⟨fun _ => ⟨rest, h⟩, fun _ => rfl⟩
  · rename_i h
    refine ⟨by simp, fun ⟨rest, hrest⟩ => absurd hrest (h rest)⟩

/-- A member with something behind its name does not start as generated members do. The underscore
alone would, but it is no name. -/
theorem isReserved_append (h : memberProblem? name = none) (tail : String) :
    isReserved (name ++ tail) = false := by
  obtain ⟨⟨c, cs, hname, -, -⟩, hunderscore⟩ :=
    typeProblem?_eq_none_iff.1 (typeProblem?_of_memberProblem? h)
  rw [← Bool.not_eq_true, isReserved_iff]
  rintro ⟨rest, hrest⟩
  rw [String.toList_append, hname, List.cons_append, List.cons.injEq] at hrest
  obtain ⟨rfl, htail⟩ := hrest
  cases cs with
  | nil => exact hunderscore (String.toList_injective hname)
  | cons c' cs =>
    rw [List.cons_append, List.cons.injEq] at htail
    obtain ⟨rfl, -⟩ := htail
    have hreserved := isReserved_of_memberProblem? h
    rw [← Bool.not_eq_true, isReserved_iff] at hreserved
    exact hreserved ⟨cs, hname⟩

end ReactiveSpace.Name
