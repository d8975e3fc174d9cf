import ReactiveSpace.Proofs.Target.Naming
import ReactiveSpace.Proofs.Target.Reached
import ReactiveSpace.Proofs.Target.Source

/-!
# The names that a unit writes

A unit writes names of the user outside of string literals and of source of the user, and each of
them had better be an identifier. Those of members always are: the checks of a space see to fields,
methods, parameters, rules and tests, and whatever else is named is one of these. Names of
structures are checked where types are declared, but written where structures stand, under the names
that these have themselves. `Declarations.written_names_iff` says exactly when all that is written
can be.
-/

namespace ReactiveSpace

/-- The name of the structure behind a generated type. -/
def TypeName.name : TypeName → String
  | .record name | .delta name | .message name | .missing name => name

@[simp] theorem TypeName.name_record (name : String) : (record name).name = name := rfl

@[simp] theorem TypeName.name_message (name : String) : (message name).name = name := rfl

/-- The names of members in a part can be written, and those of structures have a property. -/
def Fragment.Sound (p : String → Prop) : Fragment → Prop
  | .member name => Name.memberProblem? name = none
  | .type name => p name.name
  | .fixed _ | .literal _ | .snippet _ => True

variable {p : String → Prop}

namespace Fragment

@[simp] theorem sound_member {name : String} :
    (member name).Sound p ↔ Name.memberProblem? name = none :=
  Iff.rfl

@[simp] theorem sound_type {name : TypeName} : (type name).Sound p ↔ p name.name :=
  Iff.rfl

@[simp] theorem sound_fixed (text : String) : (fixed text).Sound p :=
  trivial

@[simp] theorem sound_literal (text : String) : (literal text).Sound p :=
  trivial

@[simp] theorem sound_snippet (text : String) : (snippet text).Sound p :=
  trivial

end Fragment

namespace Phrase

/-- All fragments of a phrase are sound. -/
def Sound (p : String → Prop) (phrase : Phrase) : Prop :=
  ∀ x ∈ phrase, x.Sound p

/-- All phrases are sound. -/
def AllSound (p : String → Prop) (phrases : List Phrase) : Prop :=
  ∀ phrase ∈ phrases, phrase.Sound p

@[simp] theorem sound_nil : Sound p [] := by
  simp [Sound]

@[simp] theorem sound_cons {x : Fragment} {phrase : Phrase} :
    Sound p (x :: phrase) ↔ x.Sound p ∧ Sound p phrase := by
  simp [Sound]

@[simp] theorem sound_append {phrase phrase' : Phrase} :
    Sound p (phrase ++ phrase') ↔ Sound p phrase ∧ Sound p phrase' := by
  simp [Sound, or_imp, forall_and]

/-- Between phrases stands nothing but separators, so it is the phrases that count. -/
theorem sound_intercalate_iff {separator : Phrase} {phrases : List Phrase}
    (hseparator : Sound p separator) :
    Sound p (separator.intercalate phrases) ↔ ∀ phrase ∈ phrases, Sound p phrase := by
  induction phrases with
  | nil => simp
  | cons phrase phrases ih =>
    -- No separator stands behind the last phrase.
    cases phrases with
    | nil => simp
    | cons =>
      rw [List.intercalate_cons_cons, sound_append, sound_append, ih, and_iff_left hseparator]
      exact List.forall_mem_cons.symm

@[simp] theorem allSound_nil : AllSound p [] := by
  simp [AllSound]

@[simp] theorem allSound_cons {phrase : Phrase} {phrases : List Phrase} :
    AllSound p (phrase :: phrases) ↔ Sound p phrase ∧ AllSound p phrases := by
  simp [AllSound]

@[simp] theorem allSound_append {phrases phrases' : List Phrase} :
    AllSound p (phrases ++ phrases') ↔ AllSound p phrases ∧ AllSound p phrases' := by
  simp [AllSound, or_imp, forall_and]

@[simp] theorem allSound_map {α : Type} {l : List α} {f : α → Phrase} :
    AllSound p (l.map f) ↔ ∀ a ∈ l, Sound p (f a) := by
  simp [AllSound]

@[simp] theorem allSound_flatMap {α : Type} {l : List α} {f : α → List Phrase} :
    AllSound p (l.flatMap f) ↔ ∀ a ∈ l, AllSound p (f a) := by
  unfold AllSound
  rw [List.forall_mem_flatMap]

/-- Phrases that are written for some of a list. Only one direction holds: of those that are passed
over nothing is known. -/
theorem allSound_filterMap {α : Type} {l : List α} {f : α → Option Phrase}
    (h : ∀ a ∈ l, ∀ phrase, f a = some phrase → Sound p phrase) :
    AllSound p (l.filterMap f) := by
  intro phrase hphrase
  obtain ⟨a, ha, hfa⟩ := List.mem_filterMap.1 hphrase
  exact h a ha phrase hfa

/-- Code that names nothing of the user is sound whatever is asked of names. -/
@[simp] theorem allSound_ofCode (cs : List Code) : AllSound p (ofCode cs) := by
  simp [ofCode]

@[simp] theorem allSound_block {header : Phrase} {body : List Phrase} {suffix : String} :
    AllSound p (block header body suffix) ↔ Sound p header ∧ AllSound p body := by
  simp [block]

@[simp] theorem allSound_nest {header : Phrase} {body : List Phrase} :
    AllSound p (nest header body) ↔ Sound p header ∧ AllSound p body :=
  allSound_block

/-- Phrases are sound when the names of members and those of structures are. -/
theorem allSound_iff {phrases : List Phrase} : AllSound p phrases ↔
    (∀ phrase ∈ phrases, ∀ name, .member name ∈ phrase → Name.memberProblem? name = none) ∧
      ∀ phrase ∈ phrases, ∀ name, .type name ∈ phrase → p name.name := by
  constructor
  · intro h
    exact ⟨fun phrase hphrase name hname => h phrase hphrase _ hname,
      fun phrase hphrase name hname => h phrase hphrase _ hname⟩
  · rintro ⟨hmembers, htypes⟩ phrase hphrase x hx
    cases x with
    | member name => exact hmembers phrase hphrase name hx
    | type name => exact htypes phrase hphrase name hx
    | fixed | literal | snippet => trivial

end Phrase

namespace Shape

/-- The names of a shape can be written: those of its structures have a property, and those of
projected fields can name members. -/
structure Writable (p : String → Prop) (s : Shape) : Prop where
  types : ∀ name ∈ s.typeNames, p name.name
  projected : ∀ link field, .member field ∈ s.constructionPhrase link →
    Name.memberProblem? field = none

variable {s : Shape}

/-- The type of a value is spelled in pieces, and these name nothing but types. -/
theorem sound_ofPieces_iff {ps : List Piece} :
    Phrase.Sound p (ps.map Fragment.ofPiece) ↔ ∀ name ∈ Piece.types ps, p name.name := by
  fun_induction Piece.types ps with
  | case1 => simp
  | case2 text ps ih => simp [Fragment.ofPiece, ← ih]
  | case3 name ps ih => simp [Fragment.ofPiece, ← ih]

theorem Writable.native (h : s.Writable p) : s.nativePhrase.Sound p :=
  sound_ofPieces_iff.2 h.types

/-- The storage of a type names the same structures as its plain value. -/
theorem Writable.runtime (h : s.Writable p) : s.runtimePhrase.Sound p := by
  refine sound_ofPieces_iff.2 ?_
  rw [types_runtimePieces]
  exact h.types

/-- The delta of a type names some of them. It may leave out those of a table, which has none. -/
theorem Writable.delta (h : s.Writable p) : s.deltaPhrase.Sound p := by
  refine sound_ofPieces_iff.2 fun name hname => ?_
  rcases mem_types_deltaPieces hname with hmem | ⟨record, rfl, hmem⟩
  · exact h.types name hmem
  · exact h.types (.record record) hmem

/-- The types named by a spelling are those of its pieces. -/
theorem type_mem_ofPieces_iff {ps : List Piece} {name : TypeName} :
    .type name ∈ ps.map Fragment.ofPiece ↔ name ∈ Piece.types ps := by
  fun_induction Piece.types ps with
  | case1 => simp
  | case2 text ps ih => simp [Fragment.ofPiece, ← ih]
  | case3 name' ps ih => simp [Fragment.ofPiece, ← ih, eq_comm]

/-- The expression that builds the storage names structures of the shape. -/
theorem mem_typeNames_of_mem_constructionPhrase {link : String} {name : TypeName}
    (h : .type name ∈ s.constructionPhrase link) : name ∈ s.typeNames := by
  unfold typeNames
  induction s generalizing link with
  -- A projection names its record only if its source is known.
  | projection field source =>
    rcases source with _ | ⟨row, domain⟩ <;>
      simp_all [constructionPhrase, nativePieces, Piece.types]
  | lazy computed formula cached ih =>
    simpa [constructionPhrase, nativePhrase, nativePieces, type_mem_ofPieces_iff] using h
  | list inner ih | maybe inner ih =>
    simp only [constructionPhrase, List.cons_append, List.mem_cons, List.mem_append, reduceCtorEq,
      List.not_mem_nil, or_false, false_or] at h
    simpa [nativePieces, Piece.types, Piece.types_append] using ih h
  -- The domain of a map is a scalar, so only its range is built.
  | map domain range _ ih =>
    simp only [constructionPhrase, List.cons_append, List.mem_cons, List.mem_append, reduceCtorEq,
      List.not_mem_nil, or_false, false_or] at h
    simpa [nativePieces, Piece.types, Piece.types_append] using Or.inr (ih h)
  | _ => simp_all [constructionPhrase, nativePieces, Piece.types]

/-- The expression that builds the storage is the only spelling that names members: the fields that
projections group by. -/
theorem Writable.construction (h : s.Writable p) (link : String) :
    (s.constructionPhrase link).Sound p := by
  intro x hx
  cases x with
  | member field => exact h.projected link field hx
  | type name => exact h.types name (mem_typeNames_of_mem_constructionPhrase hx)
  | fixed | literal | snippet => trivial

end Shape

namespace Target

variable {t : Table} {s : Structure Node}

/-- The names that the fields of a structure are written with can be written. -/
structure FieldsWritable (p : String → Prop) (t : Table) (s : Structure Node) : Prop where
  wellFormed : s.WellFormed t
  fields : ∀ f ∈ s.fields, (shapeIn t s f.type).Writable p
  /-- The table of a projection. -/
  bound : ∀ f ∈ s.fields, ∀ table field, f.type.kind = .projection table field →
    Name.memberProblem? table = none

variable (hs : FieldsWritable p t s)
include hs

/-- The storage of a field is a member with its type behind it. -/
theorem sound_storage : Phrase.AllSound p (storagePhrases t s) := by
  rw [storagePhrases, Phrase.allSound_map]
  intro f hf
  simp [hs.wellFormed.field_names f hf, (hs.fields f hf).runtime]

/-- Fields are built one by one, each from the expression for its type. -/
theorem sound_construction : Phrase.AllSound p (constructionPhrases t s) := by
  rw [constructionPhrases, Phrase.allSound_map]
  intro f hf
  have hbuilt := (hs.fields f hf).construction "__link.clone()"
  cases f.initial <;> simp [hs.wellFormed.field_names f hf, hbuilt]

/-- A projection is bound to the table that it names. That this is a field of the same structure is
checked where types are. -/
theorem sound_bindings : Phrase.AllSound p (bindingPhrases s) := by
  refine Phrase.allSound_filterMap fun f hf phrase hphrase => ?_
  unfold bindPhrase? at hphrase
  split at hphrase
  · rename_i table field hkind
    obtain rfl := Option.some.inj hphrase
    simp [hs.wellFormed.field_names f hf, hs.bound f hf table field hkind]
  · simp at hphrase

/-- A getter for every field, and a setter for those that can be written. -/
theorem sound_accessors : Phrase.AllSound p (accessorPhrases t s) := by
  rw [accessorPhrases, Phrase.allSound_flatMap]
  intro f hf
  have hname := hs.wellFormed.field_names f hf
  have hnative := (hs.fields f hf).native
  have hruntime := (hs.fields f hf).runtime
  have hread : Phrase.Sound p (readPhrase f.name (f.type.concrete t)) := by
    unfold readPhrase
    split <;> simp [hname]
  rw [Phrase.allSound_append]
  constructor
  · unfold getterPhrases
    -- The getter returns a value or a reference to the storage, by the access.
    cases haccess : (f.type.concrete t).access <;> simp [haccess, hname, hnative, hruntime, hread]
  · unfold setterPhrases
    dsimp only
    split
    · simp
    · cases (f.type.concrete t).access with
      | cell => simp [hname, hnative]
      | object =>
        dsimp only
        split <;> simp [hname, hruntime]
      | computed | plain => simp

/-- Only names of fields appear where fields settle. -/
theorem sound_settle : Phrase.AllSound p (settlePhrases t s) := by
  rw [settlePhrases, Phrase.allSound_nest]
  refine ⟨by simp, Phrase.allSound_filterMap fun f hf phrase hphrase => ?_⟩
  split at hphrase
  · obtain rfl := Option.some.inj hphrase
    simp [hs.wellFormed.field_names f hf]
  · simp at hphrase

/-- Commits, reverts, comparisons and the comparator name fields and nothing else. -/
theorem sound_state : Phrase.AllSound p (statePhrases t s) := by
  have hstored : ∀ f ∈ storedFields t s, Name.memberProblem? f.name = none :=
    fun f hf => hs.wellFormed.field_names f (List.mem_of_mem_filter hf)
  have hcommit : Phrase.AllSound p (commitPhrases t s) := by
    simpa [commitPhrases] using hstored
  have hrevert : Phrase.AllSound p (revertPhrases t s) := by
    simpa [revertPhrases] using hstored
  have hequality : Phrase.AllSound p (equalityPhrases t s) := by
    -- The terms of an equality are joined by a fixed text.
    have hterms : ∀ term ∈ (storedFields t s).map (equalityPhrase t), term.Sound p := by
      intro term hterm
      obtain ⟨f, hf, rfl⟩ := List.mem_map.1 hterm
      unfold equalityPhrase
      split <;> simp [hstored f hf]
    unfold equalityPhrases
    dsimp only
    split
    · simp
    · simpa using (Phrase.sound_intercalate_iff (by simp)).2 hterms
  have hcomparator : Phrase.AllSound p (comparatorPhrases t s) := by
    have hbranches : Phrase.AllSound p (s.fields.filterMap (comparatorPhrase? t)) := by
      refine Phrase.allSound_filterMap fun f hf phrase hphrase => ?_
      obtain ⟨k, -, hk⟩ := Option.bind_eq_some_iff.1 hphrase
      split at hk
      · obtain rfl := Option.some.inj hk
        simp [hs.wellFormed.field_names f hf]
      · simp at hk
    simp [comparatorPhrases, hbranches]
  simp [statePhrases, hcommit, hrevert, hequality, hcomparator]

/-- The delta of a structure, of a type that is spelled soundly. Its members are fields, and who may
see them is told by a field or by a rule of the same structure. -/
theorem sound_delta (type : Phrase) (htype : type.Sound p) :
    Phrase.AllSound p (deltaPhrases t type s) := by
  have hmembers : Phrase.AllSound p (deltaMemberPhrases t s) := by
    refine Phrase.allSound_filterMap fun f hf phrase hphrase => ?_
    have hf' := List.mem_of_mem_filter hf
    split at hphrase
    · simp at hphrase
    · simp at hphrase
    · obtain rfl := Option.some.inj hphrase
      simp [hs.wellFormed.field_names f hf', (hs.fields f hf').delta]
  have hshow : ∀ f ∈ s.fields, Phrase.AllSound p (showPhrases t f) := by
    intro f hf
    have hname := hs.wellFormed.field_names f hf
    have hshown : Phrase.Sound p (shownPhrase t f) := by
      unfold shownPhrase
      split <;> simp [hname]
    -- A field without a policy is seen by nobody, so a policy that shows it is one that it states.
    have hstated : ∀ privacy, f.effectivePrivacy = privacy → privacy ≠ .nobody →
        f.privacy = some privacy := by
      intro privacy hprivacy hsome
      cases h : f.privacy <;> simp_all [Field.effectivePrivacy]
    unfold showPhrases
    cases hprivacy : f.effectivePrivacy with
    | everyone => simp [showPhrase, hname, hshown]
    | nobody => simp
    -- The field that holds the viewer is one of the same structure, by well-formedness.
    | viewerIs viewer =>
      obtain ⟨v, hv, rfl, -⟩ := hs.wellFormed.viewers f hf viewer (hstated _ hprivacy (by simp))
      simp [showPhrase, hidePhrase, hname, hshown, hs.wellFormed.field_names v hv]
    | useCustom rule =>
      obtain ⟨r, hr, rfl⟩ := hs.wellFormed.customs f hf rule (hstated _ hprivacy (by simp))
      simp [showPhrase, hidePhrase, hname, hshown, hs.wellFormed.rule_names r hr]
  have hsynced : Phrase.AllSound p
      ((syncedFields t s).flatMap fun x => showPhrases t x.field) := by
    rw [Phrase.allSound_flatMap]
    intro x hx
    exact hshow x.field (syncedFields_sublist.subset (List.mem_map_of_mem hx))
  simp [deltaPhrases, htype, hmembers, hsynced]

omit hs

/-- A method names its parameters and spells the types of these and of its result. Its body is
source of the user, and nothing is said about that. -/
theorem sound_methods (hs : s.WellFormed t) (htypes : ∀ n ∈ s.types, (shapeIn t s n).Writable p) :
    Phrase.AllSound p (methodPhrases t s) := by
  rw [methodPhrases, Phrase.allSound_flatMap]
  intro m hm
  obtain ⟨hparameters, hresult⟩ := (Structure.forall_mem_types_iff.1 htypes).2 m hm
  -- The receiver is the first parameter, and has no name of the user.
  have hlist : Phrase.Sound p ([.fixed ", "].intercalate
      ([.fixed (if m.readonly then "&self" else "&mut self")] :: m.parameters.map fun q =>
        .member q.name :: .fixed ": " :: (shapeIn t s q.type).nativePhrase)) := by
    rw [Phrase.sound_intercalate_iff (by simp)]
    simp only [List.forall_mem_cons, List.forall_mem_map]
    refine ⟨by simp, fun q hq => ?_⟩
    simp [hs.parameter_names m hm q hq, (hparameters q hq).native]
  have hreturns : Phrase.Sound p (resultPhrase t s m.returns) := by
    cases h : m.returns with
    | none => simp [resultPhrase]
    | some type => simp [resultPhrase, (hresult type h).native]
  rw [Phrase.allSound_nest, methodPhrase]
  simp only [List.cons_append, Phrase.sound_cons, Phrase.sound_append, hlist, hreturns,
    Fragment.sound_fixed, Fragment.sound_member, hs.method_names m hm, Phrase.allSound_nil,
    and_self]

/-- The functions of rules are named after them, and checking sees to these names. -/
theorem sound_rules (hs : s.WellFormed t) : Phrase.AllSound p (rulePhrases s) := by
  rw [rulePhrases, Phrase.allSound_flatMap]
  intro r hr
  simp [hs.rule_names r hr]

/-- A column is named after a field that has an index. -/
theorem exists_field_of_mem_indexColumns {c : IndexColumn} (h : c ∈ indexColumns t s) :
    ∃ f ∈ s.fields, f.name = c.field := by
  obtain ⟨⟨i, number⟩, -, hc⟩ := List.mem_filterMap.1 h
  obtain ⟨f, hf, hc⟩ := Option.bind_eq_some_iff.1 hc
  obtain ⟨k, -, hc⟩ := Option.bind_eq_some_iff.1 hc
  obtain ⟨key, -, hc⟩ := Option.bind_eq_some_iff.1 hc
  obtain rfl := Option.some.inj hc
  exact ⟨f, List.mem_of_find?_eq_some hf, rfl⟩

/-- A record writes its own name, those of its members and those that its types are spelled with.
Each part of it is taken in turn; indices are named after fields. -/
theorem sound_record (hs : FieldsWritable p t s)
    (htypes : ∀ n ∈ s.types, (shapeIn t s n).Writable p) (hname : p s.name) :
    Phrase.AllSound p (recordPhrases t s) := by
  have hfields : Phrase.AllSound p (s.fields.map fun f => [.member f.name, .fixed ","]) := by
    simpa using hs.wellFormed.field_names
  have hindex : ∀ c ∈ indexColumns t s, Name.memberProblem? c.field = none := by
    intro c hc
    obtain ⟨f, hf, hfield⟩ := exists_field_of_mem_indexColumns hc
    exact hfield ▸ hs.wellFormed.field_names f hf
  have hwires : Phrase.AllSound p ((indexColumns t s).flatMap wirePhrases) := by
    rw [Phrase.allSound_flatMap]
    intro c hc
    simp [wirePhrases, indexPhrase, hindex c hc]
  have hcolumns : ∀ rest : Phrase, rest.Sound p →
      Phrase.AllSound p ((indexColumns t s).map fun c => indexPhrase c ++ rest) := by
    intro rest hrest
    rw [Phrase.allSound_map]
    intro c hc
    simp [indexPhrase, hindex c hc, hrest]
  have hconstructor : Phrase.AllSound p (recordConstructorPhrases t s (indexColumns t s)) := by
    have hlisted := hcolumns [.fixed ","] (by simp)
    simp [recordConstructorPhrases, sound_construction hs, sound_bindings hs, hwires, hfields,
      hlisted]
  have hhooks : Phrase.AllSound p (indexHookPhrases (indexColumns t s)) := by
    have heach : ∀ name call, Phrase.AllSound p
        (eachIndexPhrases name call (indexColumns t s)) := by
      intro name call
      simpa [eachIndexPhrases, indexPhrase] using hindex
    simp only [indexHookPhrases, Phrase.allSound_append, heach]
    simpa using hindex
  have hkill : Phrase.AllSound p (killPhrases t s) := by
    have hcalls : Phrase.AllSound p (s.fields.filterMap (killPhrase? t)) := by
      refine Phrase.allSound_filterMap fun f hf phrase hphrase => ?_
      unfold killPhrase? at hphrase
      -- What may be absent is deleted, a record dies, and other fields are passed over.
      split at hphrase
      · obtain rfl := Option.some.inj hphrase
        simp [hs.wellFormed.field_names f hf]
      · obtain rfl := Option.some.inj hphrase
        simp [hs.wellFormed.field_names f hf]
      · simp at hphrase
    simp [killPhrases, hcalls]
  have hdelta := sound_delta hs [.type (.record s.name)] (by simpa using hname)
  have hmembers := hcolumns [.fixed ": Option<IndexInvalidate<", .type (.record s.name),
    .fixed ">>,"] (by simpa using hname)
  simp [recordPhrases, sound_storage hs, hconstructor, hhooks, sound_accessors hs,
    sound_methods hs.wellFormed htypes, sound_rules hs.wellFormed, sound_state hs, sound_settle hs,
    hkill, hdelta, hmembers, hname]

/-- A message spells only the plain values of its fields. -/
theorem sound_message (hs : FieldsWritable p t s) (hname : p s.name) :
    Phrase.AllSound p (messagePhrases t s) := by
  have hfields := hs.wellFormed.field_names
  have hmembers : ∀ f ∈ s.fields, Name.memberProblem? f.name = none ∧
      Phrase.Sound p (shapeIn t s f.type).nativePhrase :=
    fun f hf => ⟨hfields f hf, (hs.fields f hf).native⟩
  have hwrite : Phrase.AllSound p (s.fields.map writePhrase) := by
    simpa [writePhrase] using hfields
  have hread : Phrase.AllSound p (s.fields.map readBranchPhrase) := by
    simpa [readBranchPhrase] using hfields
  simpa [messagePhrases, hwrite, hread, hname] using hmembers

/-- The document has the tests of the surface as well, whose names are checked where they are
declared. -/
theorem sound_document {surface : Surface} (hs : FieldsWritable p t t.root)
    (htypes : ∀ n ∈ t.root.types, (shapeIn t t.root n).Writable p)
    (htests : ∀ x ∈ surface.tests, Name.memberProblem? x.name = none) :
    Phrase.AllSound p (documentPhrases t surface) := by
  have hfields : Phrase.AllSound p (t.root.fields.map fun f => [.member f.name, .fixed ","]) := by
    simpa using hs.wellFormed.field_names
  have hconstructor : Phrase.AllSound p (documentConstructorPhrases t) := by
    simp [documentConstructorPhrases, sound_construction hs, sound_bindings hs, hfields]
  have htest : Phrase.AllSound p (testPhrases surface) := by
    have hnames : Phrase.Sound p ([.fixed ", "].intercalate
        (surface.tests.map fun x => [.literal (Text.quote x.name)])) :=
      (Phrase.sound_intercalate_iff (by simp)).2 (by simp)
    -- The name of a test appears in those of its functions, and elsewhere in literals only.
    have hfunctions : Phrase.AllSound p (surface.tests.flatMap fun x =>
        Phrase.nest [.fixed "fn __test_", .member x.name,
          .fixed "(&mut self, __report: &mut TestReport)"] []) := by
      simpa using htests
    have hbranches : Phrase.AllSound p (surface.tests.flatMap fun x =>
        Phrase.nest [.literal (Text.quote x.name), .fixed " =>"]
          [[.fixed "self.__test_", .member x.name, .fixed "(__report);"], [.fixed "true"]]) := by
      simpa using htests
    simp only [testPhrases, Phrase.allSound_append, Phrase.allSound_nest, Phrase.allSound_cons,
      List.cons_append, Phrase.sound_cons, Phrase.sound_append, hnames, hfunctions, hbranches]
    simp
  have hdelta := sound_delta hs [.fixed Structure.rootName] (by simp)
  simp [documentPhrases, staticPhrases, sound_storage hs, hconstructor, htest, sound_accessors hs,
    sound_methods hs.wellFormed htypes, sound_rules hs.wellFormed, sound_state hs, sound_settle hs,
    hdelta]

/-! ### What has to be written -/

/-- What a message is written with, it writes. -/
theorem sound_of_message (h : Phrase.AllSound p (messagePhrases t s)) :
    p s.name ∧ ∀ f ∈ s.fields, Phrase.Sound p (shapeIn t s f.type).nativePhrase := by
  simp only [messagePhrases, Phrase.allSound_append, Phrase.allSound_cons, Phrase.allSound_nest,
    Phrase.allSound_map, List.cons_append, Phrase.sound_cons, Phrase.sound_append,
    Fragment.sound_type, TypeName.name_message] at h
  exact ⟨h.2.1.1.2.1, fun f hf => (h.2.1.2 f hf).2.2.2.1⟩

/-- Storage and methods spell all types of a structure, so nothing that these use is left out. This
is where the condition comes from that names have to meet. -/
theorem sound_of_members (hstorage : Phrase.AllSound p (storagePhrases t s))
    (hmethods : Phrase.AllSound p (methodPhrases t s)) :
    ∀ n ∈ s.types, ∀ name ∈ (shapeIn t s n).typeNames, p name.name := by
  have hnative : ∀ n, Phrase.Sound p (shapeIn t s n).nativePhrase →
      ∀ name ∈ (shapeIn t s n).typeNames, p name.name :=
    fun n hn => Shape.sound_ofPieces_iff.1 hn
  refine Structure.forall_mem_types_iff.2 ⟨fun f hf => ?_, fun m hm => ?_⟩
  · rw [storagePhrases, Phrase.allSound_map] at hstorage
    have hruntime : Phrase.Sound p (shapeIn t s f.type).runtimePhrase := by
      have := hstorage f hf
      simp only [List.cons_append, Phrase.sound_cons, Phrase.sound_append] at this
      exact this.2.2.1
    -- The storage of a field is spelled with the same types as its value.
    rw [← Shape.types_runtimePieces]
    exact Shape.sound_ofPieces_iff.1 hruntime
  · rw [methodPhrases, Phrase.allSound_flatMap] at hmethods
    have hheader := (Phrase.allSound_nest.1 (hmethods m hm)).1
    simp only [methodPhrase, List.cons_append, Phrase.sound_cons, Phrase.sound_append] at hheader
    obtain ⟨-, -, -, hlist, -, hresult⟩ := hheader
    rw [Phrase.sound_intercalate_iff (by simp), List.forall_mem_cons, List.forall_mem_map] at hlist
    refine ⟨fun q hq => hnative q.type ?_, fun n hn => hnative n ?_⟩
    · -- Parameters come behind the receiver.
      have := hlist.2 q hq
      simp only [Phrase.sound_cons] at this
      exact this.2.2
    · rw [Option.mem_def.1 hn, resultPhrase, Phrase.sound_cons] at hresult
      exact hresult.2

/-- A record writes its name, and all that the types of its members use. -/
theorem sound_of_record (h : Phrase.AllSound p (recordPhrases t s)) :
    p s.name ∧ ∀ n ∈ s.types, ∀ name ∈ (shapeIn t s n).typeNames, p name.name := by
  have hheader : [.fixed "pub struct ", .type (.record s.name)] ∈ recordPhrases t s :=
    List.mem_cons_self
  have hstorage : storagePhrases t s ⊆ recordPhrases t s := by
    intro phrase hphrase
    simp [recordPhrases, Phrase.nest, Phrase.block, hphrase]
  have hmethods : methodPhrases t s ⊆ recordPhrases t s := by
    intro phrase hphrase
    simp [recordPhrases, Phrase.nest, Phrase.block, hphrase]
  refine ⟨by simpa using h _ hheader, sound_of_members ?_ ?_⟩
  · exact fun phrase hphrase => h phrase (hstorage hphrase)
  · exact fun phrase hphrase => h phrase (hmethods hphrase)

/-- The document has a name of its own, but it writes what its members use like a record. -/
theorem sound_of_document {surface : Surface} (h : Phrase.AllSound p (documentPhrases t surface)) :
    ∀ n ∈ t.root.types, ∀ name ∈ (shapeIn t t.root n).typeNames, p name.name := by
  have hstorage : storagePhrases t t.root ⊆ documentPhrases t surface := by
    intro phrase hphrase
    simp [documentPhrases, Phrase.nest, Phrase.block, hphrase]
  have hmethods : methodPhrases t t.root ⊆ documentPhrases t surface := by
    intro phrase hphrase
    simp [documentPhrases, Phrase.nest, Phrase.block, hphrase]
  refine sound_of_members ?_ ?_
  · exact fun phrase hphrase => h phrase (hstorage hphrase)
  · exact fun phrase hphrase => h phrase (hmethods hphrase)

/-! ### The unit -/

/-- In a well-formed table the names of fields are seen to, so of a type only those of structures
are left. -/
theorem writable_of_typeNames (ht : t.WellFormed) (hs : t.Occurs (.body s)) {n : Node}
    (hn : n ∈ s.types) (h : ∀ name ∈ (shapeIn t s n).typeNames, p name.name) :
    (shapeIn t s n).Writable p where
  types := h
  projected _ _ hfield := ht.memberProblem?_of_projected (.member hs hn) hfield

theorem fieldsWritable_of_typeNames (ht : t.WellFormed) (hs : t.Occurs (.body s))
    (h : ∀ f ∈ s.fields, ∀ name ∈ (shapeIn t s f.type).typeNames, p name.name) :
    FieldsWritable p t s where
  wellFormed := ht.structures s hs
  fields f hf := writable_of_typeNames ht hs (Structure.type_mem_types hf) (h f hf)
  bound f hf table field hk := by
    -- The projection resolves, so the table that it names is a field of this structure.
    obtain ⟨owner, v, _, _, _, howner, hv, rfl, -⟩ :=
      ht.exists_projection (.member hs (Structure.type_mem_types hf)) hk
    obtain rfl := Option.some.inj howner
    exact (ht.structures _ hs).field_names v hv

/-- The phrases of a unit are sound exactly when the names of its messages and records have the
property, and those that the types in its structures are spelled with. -/
theorem sound_unit_iff (ht : t.WellFormed) {surface : Surface} {unitName : String}
    (htests : ∀ x ∈ surface.tests, Name.memberProblem? x.name = none)
    (hunit : Name.memberProblem? unitName = none) :
    Phrase.AllSound p (unitPhrases t surface unitName) ↔
      (∀ s ∈ t.messages, p s.name ∧
        ∀ f ∈ s.fields, ∀ name ∈ (shapeIn t s f.type).typeNames, p name.name) ∧
      (∀ s ∈ orderedRecords t, p s.name ∧
        ∀ n ∈ s.types, ∀ name ∈ (shapeIn t s n).typeNames, p name.name) ∧
      ∀ n ∈ t.root.types, ∀ name ∈ (shapeIn t t.root n).typeNames, p name.name := by
  have hexports : Phrase.AllSound p (exportPhrases unitName surface) := by
    simp [exportPhrases, hunit]
  -- Header and exports name the unit only.
  have hparts : Phrase.AllSound p (unitPhrases t surface unitName) ↔
      (∀ s ∈ t.messages, Phrase.AllSound p (messagePhrases t s)) ∧
      (∀ s ∈ orderedRecords t, Phrase.AllSound p (recordPhrases t s)) ∧
      Phrase.AllSound p (documentPhrases t surface) := by
    simp [unitPhrases, hexports, hunit]
  have hmessage : ∀ s ∈ t.messages, t.Occurs (.body s) := fun s hs =>
    occurs_of_mem_emitted (List.mem_append_left _ (List.mem_append_left _ hs))
  have hrecord : ∀ s ∈ orderedRecords t, t.Occurs (.body s) := fun s hs =>
    occurs_of_mem_emitted (List.mem_append_left _ (List.mem_append_right _ hs))
  rw [hparts]
  constructor
  · rintro ⟨hmessages, hrecords, hdocument⟩
    refine ⟨fun s hs => ?_, fun s hs => sound_of_record (hrecords s hs),
      sound_of_document hdocument⟩
    obtain ⟨hname, hfields⟩ := sound_of_message (hmessages s hs)
    exact ⟨hname, fun f hf => Shape.sound_ofPieces_iff.1 (hfields f hf)⟩
  · rintro ⟨hmessages, hrecords, hroot⟩
    refine ⟨fun s hs => ?_, fun s hs => ?_, ?_⟩
    · obtain ⟨hname, hfields⟩ := hmessages s hs
      exact sound_message (fieldsWritable_of_typeNames ht (hmessage s hs) hfields) hname
    · obtain ⟨hname, htypes⟩ := hrecords s hs
      have hoccurs := hrecord s hs
      refine sound_record (fieldsWritable_of_typeNames ht hoccurs fun f hf => ?_)
        (fun n hn => writable_of_typeNames ht hoccurs hn (htypes n hn)) hname
      exact htypes f.type (Structure.type_mem_types hf)
    · refine sound_document (fieldsWritable_of_typeNames ht .root fun f hf => ?_)
        (fun n hn => writable_of_typeNames ht .root hn (hroot n hn)) htests
      exact hroot f.type (Structure.type_mem_types hf)

end Target

/-- The structures that a type uses have names that can name types. -/
def Table.UsesNamed (t : Table) (scope : Option (Structure Node)) (n : Node) : Prop :=
  ∀ kind name, t.Uses scope n kind → kind.typeName? = some name →
    Name.typeProblem? name.name = none

/-- The structures that a type uses are those that its shape names. A shape may also name an alias
that is cut off in itself, but that is a name of the table, and checking sees to these. -/
theorem Table.WellFormed.usesNamed_iff {t : Table} (ht : t.WellFormed)
    (hnames : ∀ name ∈ t.names, Name.typeProblem? name = none)
    {scope : Option (Structure Node)} {n : Node} (hn : t.Occurs (.type scope n)) :
    t.UsesNamed scope n ↔
      ∀ name ∈ (n.shape t (.declared scope)).typeNames, Name.typeProblem? name.name = none := by
  constructor
  · intro h name hname
    rcases ht.uses_of_mem_typeNames hn hname with ⟨kind, huses, hkind⟩ | ⟨x, rfl⟩
    · exact h kind name huses hkind
    · -- An alias that is cut off goes by the name of an entry.
      exact hnames x (ht.mem_names_of_missing hn hname)
  · intro h kind name huses hkind
    exact h name (ht.mem_typeNames_shape_of_uses huses hkind hn)

/-- The names of structures that a unit writes can name types: those of its messages and records,
and those of the structures that their fields, parameters and results use. -/
structure Target.StructuresNamed (t : Table) : Prop where
  messages : ∀ s ∈ t.messages, Name.typeProblem? s.name = none ∧
    ∀ f ∈ s.fields, t.UsesNamed (some s) f.type
  records : ∀ s ∈ orderedRecords t, Name.typeProblem? s.name = none ∧
    ∀ n ∈ s.types, t.UsesNamed (some s) n
  root : ∀ n ∈ t.root.types, t.UsesNamed (some t.root) n

/-- `StructuresNamed` is soundness of the phrases of a unit, for the property of being able to name
a type. -/
theorem Target.structuresNamed_iff {t : Table} (ht : t.WellFormed)
    (hnames : ∀ name ∈ t.names, Name.typeProblem? name = none) {surface : Surface}
    {unitName : String} (htests : ∀ x ∈ surface.tests, Name.memberProblem? x.name = none)
    (hunit : Name.memberProblem? unitName = none) :
    StructuresNamed t ↔ Phrase.AllSound (fun name => Name.typeProblem? name = none)
      (unitPhrases t surface unitName) := by
  -- What a type uses is what its shape names, so the two conditions agree type by type.
  have huses : ∀ s ∈ emitted t, ∀ n ∈ s.types, t.UsesNamed (some s) n ↔
      ∀ name ∈ (shapeIn t s n).typeNames, Name.typeProblem? name.name = none :=
    fun s hs n hn => ht.usesNamed_iff hnames (.member (occurs_of_mem_emitted hs) hn)
  have hmessage : ∀ s ∈ t.messages, s ∈ emitted t :=
    fun s hs => List.mem_append_left _ (List.mem_append_left _ hs)
  have hrecord : ∀ s ∈ orderedRecords t, s ∈ emitted t :=
    fun s hs => List.mem_append_left _ (List.mem_append_right _ hs)
  have hroot : t.root ∈ emitted t := List.mem_append_right _ (List.mem_singleton.2 rfl)
  rw [sound_unit_iff ht htests hunit]
  constructor
  · rintro ⟨hmessages, hrecords, hdocument⟩
    refine ⟨fun s hs => ⟨(hmessages s hs).1, fun f hf => ?_⟩,
      fun s hs => ⟨(hrecords s hs).1, fun n hn => ?_⟩, fun n hn => ?_⟩
    · exact (huses s (hmessage s hs) _ (Structure.type_mem_types hf)).1 ((hmessages s hs).2 f hf)
    · exact (huses s (hrecord s hs) n hn).1 ((hrecords s hs).2 n hn)
    · exact (huses _ hroot n hn).1 (hdocument n hn)
  · rintro ⟨hmessages, hrecords, hdocument⟩
    refine ⟨fun s hs => ⟨(hmessages s hs).1, fun f hf => ?_⟩,
      fun s hs => ⟨(hrecords s hs).1, fun n hn => ?_⟩, fun n hn => ?_⟩
    · exact (huses s (hmessage s hs) _ (Structure.type_mem_types hf)).2 ((hmessages s hs).2 f hf)
    · exact (huses s (hrecord s hs) n hn).2 ((hrecords s hs).2 n hn)
    · exact (huses _ hroot n hn).2 (hdocument n hn)

namespace Declarations

variable {d : Declarations}

/-- The name of a unit can be written whatever the name of the space. -/
theorem memberProblem?_unitName (d : Declarations) : Name.memberProblem? d.unitName = none := by
  have hlead : d.unitName.toList.take 8 = "livedoc_".toList := by
    simp [unitName]
  -- No keyword starts as every unit does.
  have hne : ∀ name ∈ "_" :: Name.keywords, name.toList.take 8 ≠ "livedoc_".toList := by
    decide
  rw [Name.memberProblem?_eq_none_iff, Name.typeProblem?_eq_none_iff]
  refine ⟨⟨?_, fun h => ?_⟩, fun h => ?_, ?_⟩
  · have hunit := d.isUnitName_unitName
    unfold Name.isUnitName at hunit
    split at hunit
    · simp at hunit
    · rename_i c cs hname
      rw [Bool.and_eq_true, List.all_eq_true] at hunit
      exact ⟨c, cs, hname, hunit⟩
  · exact hne d.unitName (h ▸ List.mem_cons_self) hlead
  · exact hne d.unitName (List.mem_cons_of_mem _ h) hlead
  · rw [← Bool.not_eq_true, Name.isReserved_iff]
    rintro ⟨rest, hrest⟩
    simp [hrest] at hlead

/-- **When all names that a unit writes are identifiers.** A deployable space has a unit. Its lines
and headers are spelled in fragments; the names of members among them can always name members, and
those of structures can name types exactly when `Target.StructuresNamed` holds. Where an alias
contains itself the unit is the one in which it is cut off (`Shape.expand`): spelled in full it has
no end (`spelling_ends_iff`), so the theorem is about what is written where types end. -/
theorem written_names_iff (d : Declarations) (h : d.check.isDeployable = true) :
    ∃ unit, d.generate = .ok unit ∧
      unit.source = Code.source (Target.unitCode d.check.table d.surface d.unitName) ∧
      Code.textsOf (Target.unitCode d.check.table d.surface d.unitName) =
        (Target.unitPhrases d.check.table d.surface d.unitName).map Phrase.spell ∧
      (∀ phrase ∈ Target.unitPhrases d.check.table d.surface d.unitName, ∀ name,
        .member name ∈ phrase → Name.memberProblem? name = none) ∧
      ((∀ phrase ∈ Target.unitPhrases d.check.table d.surface d.unitName, ∀ name,
        .type name ∈ phrase → Name.typeProblem? name.name = none) ↔
          Target.StructuresNamed d.check.table) := by
  have ht := wellFormed_of_isDeployable h
  obtain ⟨⟨hnames, hdistinct⟩, htests, -⟩ := names_of_isDeployable h
  have hentries : ∀ name ∈ d.check.table.names, Name.typeProblem? name = none := by
    rw [show d.check.table = d.table hdistinct from table_draft hdistinct]
    exact hnames
  -- For the members nothing has to be asked of structures, so the trivial property will do.
  have hmembers : Phrase.AllSound (fun _ => True)
      (Target.unitPhrases d.check.table d.surface d.unitName) :=
    (Target.sound_unit_iff ht htests d.memberProblem?_unitName).2 (by simp)
  refine ⟨_, generate_eq_ok h, rfl, Target.texts_unitCode _ _ _,
    (Phrase.allSound_iff.1 hmembers).1, ?_⟩
  rw [Target.structuresNamed_iff ht hentries htests d.memberProblem?_unitName,
    Phrase.allSound_iff, and_iff_right (Phrase.allSound_iff.1 hmembers).1]

/-- The document, with a record inline whose name is no identifier. -/
def misnamed : Declarations where
  space := "s"
  root :=
    { name := Structure.rootName, role := .root,
      fields :=
        [{ name := "b",
           type := .ofRecord
            { name := "x y", fields := [{ name := "id", type := .ofScalar .int }] } }] }

/-- An inline record is written under whatever name it has. -/
theorem misnamed_written :
    misnamed.check.isDeployable = true ∧
      ∃ phrase ∈ Target.unitPhrases misnamed.check.table misnamed.surface misnamed.unitName,
        ∃ name, .type name ∈ phrase ∧ Name.typeProblem? name.name ≠ none := by
  have h : misnamed.check.isDeployable = true :=
    isDeployable_of_isEmpty (by decide) (by decide +kernel) (by cbv)
  have htable : misnamed.check.table = misnamed.table (by decide) := table_draft _
  obtain ⟨_, -, -, -, -, hnamed⟩ := written_names_iff misnamed h
  refine ⟨h, ?_⟩
  by_contra! hall
  have hroot := (hnamed.1 hall).root
  rw [htable] at hroot
  -- The record stands in the type of the only field of the root.
  have huses := hroot _ List.mem_cons_self _ _ (.self rfl) rfl
  exact absurd huses (by decide)

end Declarations

end ReactiveSpace
