import ReactiveSpace.Proofs.Target.Expansion
import ReactiveSpace.Proofs.Target.Phrases

/-!
# The names in the shape of a type

In a well-formed table the shape of a type names the structures that the type uses, all of them
(`mem_typeNames_shape_of_uses`): an alias that leads back into itself is opened once, and once is
enough. Besides those it names types of the table (`mem_names_of_missing`), and it projects fields
of records (`memberProblem?_of_projected`).
-/

namespace ReactiveSpace.Table.WellFormed

variable {t : Table} {scope : Option (Structure Node)} {n : Node} {opened : List String}

/-! ### Structures -/

/-- With fewer aliases open, an expansion has more structures. -/
theorem mem_typeNames_of_subset (ht : t.WellFormed) (hn : t.Occurs (.type scope n))
    {name : TypeName} (hname : ∀ x, name ≠ .missing x) {fewer : List String}
    (hfewer : fewer ⊆ opened)
    (h : name ∈ (Shape.expand t opened (.declared scope) n).typeNames) :
    name ∈ (Shape.expand t fewer (.declared scope) n).typeNames := by
  revert hfewer h
  refine hn.expanding (P := fun opened scope n => ∀ fewer : List String, fewer ⊆ opened →
    name ∈ (Shape.expand t opened (.declared scope) n).typeNames →
      name ∈ (Shape.expand t fewer (.declared scope) n).typeNames) ?_ fewer
  intro opened scope n hn ihparts ihref fewer hfewer h
  -- A type is a container, a reference, or spelled on its own whatever is open.
  by_cases hparts : n.parts = []
  · cases href : n.reference? with
    | none =>
      obtain ⟨used, huses, heq⟩ := ht.exists_used hn opened hparts href
      rw [heq, Option.mem_toList, Option.bind_eq_some_iff] at h
      obtain ⟨kind, hused, hkind⟩ := h
      exact ht.mem_typeNames_of_leaf ((huses kind).2 hused) hkind hn hparts href
    | some ref =>
      obtain ⟨target, hnames⟩ := ht.exists_names hn href
      rcases exists_expand_ref href hnames with ⟨s, hs, heq⟩ | ⟨-, key, hkey, heq⟩
      · obtain ⟨other, hother, heq'⟩ := typeNames_expand_of_structure? hs
        rw [heq, heq', List.mem_singleton] at h
        obtain ⟨other', hother', heq'⟩ := typeNames_expand_of_structure? hs
        rw [heq, heq', List.mem_singleton, h]
        exact Option.some.inj (hother.symm.trans hother')
      · rw [heq] at h ⊢
        by_cases hopen : key ∈ opened
        · rw [if_pos hopen] at h
          exact absurd (List.mem_singleton.1 h) (hname ref)
        · rw [if_neg hopen] at h
          rw [if_neg fun hkey' => hopen (hfewer hkey')]
          exact ihref key target hkey hopen _ (List.cons_subset_cons key hfewer) h
  · rw [typeNames_expand_of_parts _ hparts, List.mem_flatMap] at h ⊢
    obtain ⟨m, hm, h⟩ := h
    exact ⟨m, hm, ihparts m hm fewer hfewer h⟩

/-- A structure that a type uses is in its expansion, or in that of an alias that is open. -/
theorem mem_typeNames_or_open (ht : t.WellFormed) {kind : Kind Node} {name : TypeName}
    (huses : t.Uses scope n kind) (hkind : kind.typeName? = some name)
    (hn : t.Occurs (.type scope n)) (opened : List String) :
    name ∈ (Shape.expand t opened (.declared scope) n).typeNames ∨
      ∃ key ∈ opened, ∃ target, t.get? key = some target ∧
        name ∈ (Shape.expand t opened (.declared none) target).typeNames := by
  have hname : ∀ x, name ≠ .missing x := by
    rintro x rfl
    exact typeName?_ne_missing hkind
  induction huses generalizing opened with
  | @self _ n _ hs =>
    refine .inl (ht.mem_typeNames_of_leaf (.self hs) hkind hn ?_ ?_)
    · cases hk : n.kind <;> simp_all [Node.structure?, Node.parts]
    · cases hk : n.kind <;> simp_all [Node.structure?, Node.reference?]
  | table hk hs =>
    exact .inl (ht.mem_typeNames_of_leaf (.table hk hs) hkind hn (by simp [Node.parts, hk])
      (by simp [Node.reference?, hk]))
  | holder hk hs =>
    exact .inl (ht.mem_typeNames_of_leaf (.holder hk hs) hkind hn (by simp [Node.parts, hk])
      (by simp [Node.reference?, hk]))
  | projection hk hv hname hrows hs =>
    exact .inl (ht.mem_typeNames_of_leaf (.projection hk hv hname hrows hs) hkind hn
      (by simp [Node.parts, hk]) (by simp [Node.reference?, hk]))
  | part hm _ ih =>
    rw [typeNames_expand_of_parts _ (List.ne_nil_of_mem hm)]
    exact (ih hkind (.part hn hm) opened).imp_left fun h => List.mem_flatMap.2 ⟨_, hm, h⟩
  | @ref scope n target _ _ href hnames huses ih =>
    rcases expand_ref opened href hnames with ⟨s, -, heq⟩ | ⟨-, key, hkey, heq⟩
    · obtain ⟨key, hkey⟩ := hnames.exists_entry
      rw [heq]
      exact ih hkind (.of_get? hkey) opened
    · -- An alias that is not open is opened here. What is then found under it is in the expansion
      -- of the reference; what is found under another open alias was there before.
      by_cases hopen : key ∈ opened
      · rcases ih hkind (.of_get? hkey) opened with h | h
        · exact .inr ⟨key, hopen, target, hkey, h⟩
        · exact .inr h
      · rw [heq, if_neg hopen]
        rcases ih hkind (.of_get? hkey) (key :: opened) with h | ⟨other, hother, node, hget, h⟩
        · exact .inl h
        · rcases List.mem_cons.1 hother with rfl | hother
          · obtain rfl := Option.some.inj (hkey.symm.trans hget)
            exact .inl h
          · refine .inr ⟨other, hother, node, hget, ?_⟩
            exact ht.mem_typeNames_of_subset (.of_get? hget) hname (List.subset_cons_self _ _) h

theorem mem_typeNames_shape_of_uses (ht : t.WellFormed) {kind : Kind Node} {name : TypeName}
    (huses : t.Uses scope n kind) (hkind : kind.typeName? = some name)
    (hn : t.Occurs (.type scope n)) :
    name ∈ (n.shape t (.declared scope)).typeNames := by
  rcases ht.mem_typeNames_or_open huses hkind hn [] with h | ⟨_, hopen, _⟩
  · exact h
  · simp at hopen

/-- A name that leads to no type, where an alias leads back into itself, is that of an entry. -/
theorem mem_names_of_missing (ht : t.WellFormed) (hn : t.Occurs (.type scope n)) {x : String}
    (h : .missing x ∈ (Shape.expand t opened (.declared scope) n).typeNames) : x ∈ t.names := by
  revert h
  refine hn.expanding (P := fun opened scope n =>
    .missing x ∈ (Shape.expand t opened (.declared scope) n).typeNames → x ∈ t.names) ?_
  intro opened scope n hn ihparts ihref h
  by_cases hparts : n.parts = []
  · cases href : n.reference? with
    | none =>
      obtain ⟨used, -, heq⟩ := ht.exists_used hn opened hparts href
      rw [heq, Option.mem_toList, Option.bind_eq_some_iff] at h
      obtain ⟨kind, -, hkind⟩ := h
      exact absurd hkind typeName?_ne_missing
    | some ref =>
      obtain ⟨target, hnames⟩ := ht.exists_names hn href
      rcases expand_ref opened href hnames with ⟨s, hs, heq⟩ | ⟨-, key, hkey, heq⟩
      · obtain ⟨other, hother, hnames'⟩ := typeNames_expand_of_structure? hs
        rw [heq, hnames', List.mem_singleton] at h
        exact absurd (h ▸ hother) typeName?_ne_missing
      · rw [heq] at h
        -- Only an alias that is open leaves its name, and it is declared.
        by_cases hopen : key ∈ opened
        · rw [if_pos hopen] at h
          obtain rfl := TypeName.missing.inj (List.mem_singleton.1 h)
          obtain ⟨node, hget, -⟩ := hnames
          exact mem_names_of_get? hget
        · rw [if_neg hopen] at h
          exact ihref key target hkey hopen h
  · rw [typeNames_expand_of_parts _ hparts, List.mem_flatMap] at h
    obtain ⟨m, hm, h⟩ := h
    exact ihparts m hm h

/-! ### Projected fields -/

/-- Building a container projects the fields that building its parts does. -/
theorem exists_part_of_projected {site : Site} (hparts : n.parts ≠ []) {link field : String}
    (h : .member field ∈ (Shape.expand t opened site n).constructionPhrase link) :
    ∃ m ∈ n.parts, ∃ link',
      .member field ∈ (Shape.expand t opened site m).constructionPhrase link' := by
  obtain ⟨position, notes, kind⟩ := n
  cases kind <;> simp [Node.parts] at hparts
  all_goals rw [Shape.expand] at h
  case lazy computed formula cached =>
    -- A formula is spelled with the type of its plain value, which names no fields.
    simp [Shape.constructionPhrase, Shape.nativePhrase, Phrase.member_notMem_ofPieces] at h
  case list inner | maybe inner =>
    simp only [Shape.constructionPhrase, List.cons_append, List.mem_cons, List.mem_append,
      reduceCtorEq, List.not_mem_nil, or_false, false_or] at h
    exact ⟨inner, List.mem_singleton.2 rfl, _, h⟩
  case map domain range =>
    simp only [Shape.constructionPhrase, List.cons_append, List.mem_cons, List.mem_append,
      reduceCtorEq, List.not_mem_nil, or_false, false_or] at h
    exact ⟨range, List.mem_cons_of_mem _ (List.mem_singleton.2 rfl), _, h⟩

/-- Of the types that are neither containers nor references, building projections names fields. -/
theorem exists_projection_of_projected {site : Site} (hparts : n.parts = [])
    (href : n.reference? = none) {link field : String}
    (h : .member field ∈ (Shape.expand t opened site n).constructionPhrase link) :
    ∃ table, n.kind = .projection table field := by
  obtain ⟨position, notes, kind⟩ := n
  cases kind <;> simp [Node.parts, Node.reference?] at hparts href
  all_goals rw [Shape.expand] at h
  case projection table field' =>
    split at h
    · obtain rfl : field = field' := by simpa [Shape.constructionPhrase] using h
      exact ⟨table, rfl⟩
    · simp [Shape.constructionPhrase] at h
  case table | holder => split at h <;> simp [Shape.constructionPhrase] at h
  all_goals simp [Shape.constructionPhrase] at h

/-- A field that building a type projects is one of a record. -/
theorem memberProblem?_of_projected (ht : t.WellFormed) (hn : t.Occurs (.type scope n))
    {link field : String}
    (h : .member field ∈ (Shape.expand t opened (.declared scope) n).constructionPhrase link) :
    Name.memberProblem? field = none := by
  revert h
  refine hn.expanding (P := fun opened scope n => ∀ link,
    .member field ∈ (Shape.expand t opened (.declared scope) n).constructionPhrase link →
      Name.memberProblem? field = none) ?_ link
  intro opened scope n hn ihparts ihref link h
  by_cases hparts : n.parts = []
  · cases href : n.reference? with
    | none =>
      obtain ⟨table, hk⟩ := exists_projection_of_projected hparts href h
      have hadmissible := ht.types scope n hn
      simp only [Node.Admissible, hk] at hadmissible
      obtain ⟨_, -, _, -, -, _, -, r, hr, f, hf, rfl, -⟩ := hadmissible
      exact (ht.structures r hr.occurs).field_names f hf
    | some ref =>
      obtain ⟨target, hnames⟩ := ht.exists_names hn href
      rcases expand_ref opened href hnames with ⟨s, hs, heq⟩ | ⟨-, key, hkey, heq⟩
      · rw [heq] at h
        obtain ⟨position, notes, kind⟩ := target
        cases kind <;> simp [Node.structure?] at hs
        all_goals
          rw [Shape.expand] at h
          simp [Shape.constructionPhrase] at h
      · rw [heq] at h
        by_cases hopen : key ∈ opened
        · rw [if_pos hopen] at h
          simp [Shape.constructionPhrase] at h
        · rw [if_neg hopen] at h
          exact ihref key target hkey hopen link h
  · obtain ⟨m, hm, link', h⟩ := exists_part_of_projected hparts h
    exact ihparts m hm link' h

end ReactiveSpace.Table.WellFormed
