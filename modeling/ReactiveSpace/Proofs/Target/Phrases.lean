import ReactiveSpace.Proofs.Target.Mentions
import ReactiveSpace.Target.Source

/-!
# Where names stand in a unit

The lines and headers of a unit are texts. Each of them is spelled here as a phrase, in fragments
that tell what is fixed from what comes from the user: names of structures, names of members, string
literals and source. `Target.texts_unitCode` says that these phrases, spelled out, are the texts of
the unit, in order.
-/

namespace ReactiveSpace

/-! ### Fragments and phrases -/

/-- A piece of a line or of a header, by where it comes from. -/
inductive Fragment where
  /-- Text with nothing of the user in it. -/
  | fixed (text : String)
  /-- The generated type of a structure. -/
  | type (name : TypeName)
  /-- The name of a field, method, parameter, rule or test, or of the unit. -/
  | member (name : String)
  /-- A string literal, or what stands in one. -/
  | literal (text : String)
  /-- Source of the user. -/
  | snippet (text : String)

/-- The text of a fragment. -/
@[simp] def Fragment.spell : Fragment → String
  | .fixed text | .member text | .literal text | .snippet text => text
  | .type name => name.text

def Fragment.ofPiece : Piece → Fragment
  | .text text => .fixed text
  | .type name => .type name

/-- A line or a header, in fragments. -/
abbrev Phrase := List Fragment

namespace Phrase

/-- The text of a phrase. -/
@[simp] def spell : Phrase → String
  | [] => ""
  | p :: ps => p.spell ++ spell ps

@[simp] theorem spell_append (ps qs : Phrase) : spell (ps ++ qs) = spell ps ++ spell qs := by
  induction ps with
  | nil => simp [spell]
  | cons p ps ih => rw [List.cons_append, spell, spell, ih, String.append_assoc]

/-- Pieces of a type are spelled as they were before they became fragments. -/
theorem spell_ofPieces (ps : List Piece) : spell (ps.map Fragment.ofPiece) = Piece.spell ps := by
  induction ps with
  | nil => rfl
  | cons p ps ih => cases p <;> rw [List.map_cons, spell, ih] <;> rfl

/-- The spelling of a plain value names no members. -/
theorem member_notMem_ofPieces {ps : List Piece} {name : String} :
    .member name ∉ ps.map Fragment.ofPiece := by
  intro h
  obtain ⟨p, -, hp⟩ := List.mem_map.1 h
  cases p <;> simp [Fragment.ofPiece] at hp

/-- Separators are spelled in between. -/
theorem spell_intercalate (separator : Phrase) (ps : List Phrase) :
    spell (separator.intercalate ps) = (spell separator).intercalate (ps.map spell) := by
  induction ps with
  | nil => rfl
  | cons p ps ih =>
    cases ps with
    | nil => simp
    | cons q qs =>
      rw [List.intercalate_cons_cons, spell_append, spell_append, ih, List.map_cons, List.map_cons,
        List.map_cons, String.intercalate_cons_cons]

end Phrase

/-! ### Texts of code -/

namespace Code

mutual

/-- The lines and headers of a piece of code, in order. Source of the user is left out. -/
@[simp] def texts : Code → List String
  | .line text => [text]
  | .blank => []
  | .snippet _ => []
  | .block header body suffix => header :: textsOf body ++ [suffix]
  | .branch header yes no => header :: textsOf yes ++ textsOf no

/-- The lines and headers of pieces of code, in order. -/
@[simp] def textsOf : List Code → List String
  | [] => []
  | c :: cs => texts c ++ textsOf cs

end

/-- The texts of a list of code are those of each piece in turn. -/
theorem textsOf_eq_flatMap (cs : List Code) : textsOf cs = cs.flatMap texts := by
  induction cs with
  | nil => rfl
  | cons c cs ih => rw [textsOf, ih, List.flatMap_cons]

@[simp] theorem textsOf_append (cs ds : List Code) :
    textsOf (cs ++ ds) = textsOf cs ++ textsOf ds := by
  simp [textsOf_eq_flatMap]

/-- Code that is written for the entries of a list has its texts entry by entry. -/
@[simp] theorem textsOf_flatMap {α : Type} (l : List α) (f : α → List Code) :
    textsOf (l.flatMap f) = l.flatMap fun x => textsOf (f x) := by
  induction l with
  | nil => rfl
  | cons x l ih => rw [List.flatMap_cons, List.flatMap_cons, textsOf_append, ih]

theorem textsOf_map {α : Type} (l : List α) (f : α → Code) :
    textsOf (l.map f) = l.flatMap fun x => texts (f x) := by
  rw [textsOf_eq_flatMap, List.flatMap_map]

@[simp] theorem textsOf_lines {α : Type} (l : List α) (f : α → String) :
    textsOf (l.map fun x => .line (f x)) = l.map f := by
  rw [textsOf_map, List.map_eq_flatMap]
  rfl

/-- Lines for some entries of a list are the texts for these. -/
@[simp] theorem textsOf_filterMap_lines {α : Type} (l : List α) (f : α → Option String) :
    textsOf (l.filterMap fun x => (f x).map .line) = l.filterMap f := by
  induction l with
  | nil => rfl
  | cons x l ih => cases h : f x <;> simp [h, ih, textsOf, texts]

end Code

namespace Phrase

/-- The phrases of code with nothing of the user in it. -/
def ofCode (cs : List Code) : List Phrase :=
  (Code.textsOf cs).map fun text => [.fixed text]

/-- A block. -/
def block (header : Phrase) (body : List Phrase) (suffix : String) : List Phrase :=
  header :: body ++ [[.fixed suffix]]

/-- A block without a suffix. -/
def nest (header : Phrase) (body : List Phrase) : List Phrase :=
  block header body ""

/-- Code that names nothing of the user is spelled as its texts. -/
@[simp] theorem map_spell_ofCode (cs : List Code) : (ofCode cs).map spell = Code.textsOf cs := by
  rw [ofCode, List.map_map]
  refine (List.map_congr_left fun text _ => ?_).trans (List.map_id _)
  simp [spell, Fragment.spell]

@[simp] theorem map_spell_block (header : Phrase) (body : List Phrase) (suffix : String) :
    (block header body suffix).map spell = spell header :: body.map spell ++ [suffix] := by
  simp [block, spell, Fragment.spell]

@[simp] theorem map_spell_nest (header : Phrase) (body : List Phrase) :
    (nest header body).map spell = spell header :: body.map spell ++ [""] :=
  map_spell_block header body ""

end Phrase

/-! ### Shapes -/

namespace Shape

/-- The type of the plain value, in fragments. -/
def nativePhrase (s : Shape) : Phrase :=
  s.nativePieces.map Fragment.ofPiece

/-- The type of the storage, in fragments. -/
def runtimePhrase (s : Shape) : Phrase :=
  s.runtimePieces.map Fragment.ofPiece

/-- The type of the delta, in fragments. -/
def deltaPhrase (s : Shape) : Phrase :=
  s.deltaPieces.map Fragment.ofPiece

/-- The fragments of the expression that builds the storage under `link`. Besides structures, it
names the field of a projection, and it has the source of formulas. -/
def constructionPhrase (link : String) : Shape → Phrase
  | .scalar s => [.fixed (s.cellType ++ "::with_value(" ++ link ++ ", " ++ s.defaultValue ++ ")")]
  | .text => [.fixed ("RxText::link(" ++ link ++ ")")]
  | .replication service method =>
    [.fixed ("RxReplicationStatus::link(" ++ link ++ ", "), .literal (Text.quote service),
      .fixed ", ", .literal (Text.quote method), .fixed ")"]
  | .list element =>
    .fixed ("RxList::link(" ++ link ++ ", |__link| ") :: constructionPhrase "__link" element ++
      [.fixed ")"]
  | .map _ range =>
    .fixed ("RxMap::link(" ++ link ++ ", |__link| ") :: constructionPhrase "__link" range ++
      [.fixed ")"]
  | .maybe inner =>
    .fixed ("RxMaybe::link(" ++ link ++ ", |__link| ") :: constructionPhrase "__link" inner ++
      [.fixed ")"]
  | .table row =>
    [.fixed ("RxTable::link(" ++ link ++ ", "), .type (.record row), .fixed "::new)"]
  | .holder held =>
    [.fixed ("RxHolder::with_value(" ++ link ++ ", "), .type (.message held),
      .fixed "::default())"]
  | .projection field (some (row, _)) =>
    [.fixed ("RxProjectionMap::link(" ++ link ++ ", |__row: &"), .type (.record row),
      .fixed "| __row.", .member field, .fixed ".get())"]
  | .projection _ none => [.fixed ("RxProjectionMap::link(" ++ link ++ ", |_| ())")]
  | .lazy computed formula cached =>
    .fixed (lazyCell cached ++ "::link(" ++ link ++ ", |__this: &Self| -> ") ::
      computed.nativePhrase ++ [.fixed " \x7b ", .snippet (Text.trim formula), .fixed " \x7d)"]
  | .record name => [.type (.record name), .fixed ("::new(Owner::record(" ++ link ++ "))")]
  | .message name => [.type (.message name), .fixed "::default()"]
  | .unresolved name => [.type (.missing name), .fixed ("::new(Owner::record(" ++ link ++ "))")]

@[simp] theorem spell_nativePhrase (s : Shape) : Phrase.spell s.nativePhrase = s.nativeType := by
  rw [nativePhrase, Phrase.spell_ofPieces, spell_nativePieces]

@[simp] theorem spell_runtimePhrase (s : Shape) : Phrase.spell s.runtimePhrase = s.runtimeType := by
  rw [runtimePhrase, Phrase.spell_ofPieces, spell_runtimePieces]

@[simp] theorem spell_deltaPhrase (s : Shape) : Phrase.spell s.deltaPhrase = s.deltaType := by
  rw [deltaPhrase, Phrase.spell_ofPieces, spell_deltaPieces]

/-- The expression is spelled as it is generated, under any link. By induction on the shape, since
the links of inner expressions are other ones. -/
@[simp] theorem spell_constructionPhrase (link : String) (s : Shape) :
    Phrase.spell (s.constructionPhrase link) = s.construction link := by
  induction s generalizing link with
  | projection field source =>
    rcases source with _ | ⟨row, domain⟩ <;> unfold constructionPhrase construction <;>
      simp [TypeName.text, String.append_assoc]
  | _ =>
    unfold constructionPhrase construction
    simp_all [TypeName.text, String.append_assoc]

end Shape

namespace Target

variable {t : Table} {s : Structure Node}

/-! ### Members -/

/-- The members of a structure. -/
def storagePhrases (t : Table) (s : Structure Node) : List Phrase :=
  s.fields.map fun f =>
    .member f.name :: .fixed ": " :: (shapeIn t s f.type).runtimePhrase ++ [.fixed ","]

/-- The lines that build the storage of each field. -/
def constructionPhrases (t : Table) (s : Structure Node) : List Phrase :=
  s.fields.map fun f =>
    .fixed "let " :: .member f.name :: .fixed " = " ::
      (shapeIn t s f.type).constructionPhrase "__link.clone()" ++
      match f.initial with
      | some initial => [.fixed ".initialized(", .snippet (Text.trim initial), .fixed ");"]
      | none => [.fixed ";"]

/-- The line that binds a projection to its table. -/
def bindPhrase? (f : Field Node) : Option Phrase :=
  match f.type.kind with
  | .projection table _ =>
    some [.fixed "__self.", .member f.name, .fixed ".watch(&__self.", .member table, .fixed ");"]
  | _ => none

/-- The lines that bind projections. -/
def bindingPhrases (s : Structure Node) : List Phrase :=
  s.fields.filterMap bindPhrase?

/-- The expression with which an accessor reads a field. -/
def readPhrase (name : String) (target : Node) : Phrase :=
  match target.access, target.kind with
  | .computed, .lazy _ _ _ => [.fixed "self.", .member name, .fixed ".get(self)"]
  | .computed, _ | .cell, _ => [.fixed "self.", .member name, .fixed ".get()"]
  | .object, _ | .plain, _ => [.fixed "&self.", .member name]

/-- The header and the line of the function that reads a field. -/
def getterPhrases (t : Table) (s : Structure Node) (f : Field Node) : List Phrase :=
  let target := f.type.concrete t
  let shape := shapeIn t s f.type
  let result := match target.access with
    | .cell | .computed => shape.nativePhrase
    | .object => .fixed "&" :: shape.runtimePhrase
    | .plain => .fixed "&" :: shape.nativePhrase
  Phrase.nest (.fixed "pub fn " :: .member f.name :: .fixed "(&self) -> " :: result)
    [readPhrase f.name target]

/-- The header and the line of the function that changes a field, if there is one. -/
def setterPhrases (t : Table) (s : Structure Node) (f : Field Node) : List Phrase :=
  let target := f.type.concrete t
  let shape := shapeIn t s f.type
  if f.readonly then []
  else
    match target.access with
    | .cell =>
      Phrase.nest (.fixed "pub fn set_" :: .member f.name :: .fixed "(&mut self, value: " ::
          shape.nativePhrase ++ [.fixed ")"])
        [[.fixed "self.", .member f.name, .fixed ".set(value);"]]
    | .object =>
      if target.isProjection then []
      else Phrase.nest (.fixed "pub fn " :: .member f.name ::
          .fixed "_mut(&mut self) -> &mut " :: shape.runtimePhrase)
        [[.fixed "&mut self.", .member f.name]]
    | .computed | .plain => []

/-- The functions that read and change fields. -/
def accessorPhrases (t : Table) (s : Structure Node) : List Phrase :=
  s.fields.flatMap fun f => getterPhrases t s f ++ setterPhrases t s f

/-- The result in the header of a method. -/
def resultPhrase (t : Table) (s : Structure Node) : Option Node → Phrase
  | some type => .fixed " -> " :: (shapeIn t s type).nativePhrase
  | none => []

/-- The header of a method, with its parameters and its result. -/
def methodPhrase (t : Table) (s : Structure Node) (m : Method Node) : Phrase :=
  let receiver : Phrase := [.fixed (if m.readonly then "&self" else "&mut self")]
  let parameters := m.parameters.map fun p =>
    .member p.name :: .fixed ": " :: (shapeIn t s p.type).nativePhrase
  .fixed "pub fn " :: .member m.name :: .fixed "(" ::
    [.fixed ", "].intercalate (receiver :: parameters) ++ .fixed ")" :: resultPhrase t s m.returns

/-- The headers of methods. What stands in them is source of the user. -/
def methodPhrases (t : Table) (s : Structure Node) : List Phrase :=
  s.methods.flatMap fun m => Phrase.nest (methodPhrase t s m) []

/-- The headers of the functions of rules. -/
def rulePhrases (s : Structure Node) : List Phrase :=
  s.rules.flatMap fun r =>
    Phrase.nest [.fixed "pub fn __policy_", .member r.name,
      .fixed "(&self, __who: &NtPrincipal) -> bool"] []

/-- The function with which fields settle. -/
def settlePhrases (t : Table) (s : Structure Node) : List Phrase :=
  Phrase.nest [.fixed "pub fn __settle(&mut self)"]
    (s.fields.filterMap fun f =>
      if (f.type.concrete t).needsSettle then
        some [.fixed "self.", .member f.name, .fixed ".__settle();"]
      else none)

/-- The phrases of storage are its lines. Each emitter has such a lemma, and those of larger
emitters are put together from these. -/
theorem texts_storage : Code.textsOf (storage t s) = (storagePhrases t s).map Phrase.spell := by
  simp [storage, storagePhrases, String.append_assoc]

/-- A field may come with a value of its own, which is source of the user. -/
theorem texts_construction :
    Code.textsOf (construction t s) = (constructionPhrases t s).map Phrase.spell := by
  unfold construction constructionPhrases
  rw [Code.textsOf_lines, List.map_map]
  refine List.map_congr_left fun f _ => ?_
  cases h : f.initial <;> simp [h, String.append_assoc]

/-- Only a projection has a line where fields are bound. -/
theorem texts_bindings : Code.textsOf (bindings s) = (bindingPhrases s).map Phrase.spell := by
  unfold bindings bindingPhrases
  rw [Code.textsOf_filterMap_lines, List.map_filterMap]
  refine List.filterMap_congr fun f _ => ?_
  unfold Node.bindCall? bindPhrase?
  cases f.type.kind <;> simp [String.append_assoc, ToString.toString]

/-- A getter has the header and the line that its access asks for. -/
theorem texts_getter (f : Field Node) :
    (getter t s f).texts = (getterPhrases t s f).map Phrase.spell := by
  -- A formula is read with the structure as its argument.
  have hread : ∀ target : Node, Phrase.spell (readPhrase f.name target) =
      readExpression "self" f.name target := by
    intro target
    unfold readPhrase readExpression
    cases haccess : target.access with
    | computed => cases hkind : target.kind <;> simp [String.append_assoc, ToString.toString]
    | _ => simp [String.append_assoc, ToString.toString]
  unfold getter getterPhrases shortFunction Code.nest
  cases haccess : (f.type.concrete t).access <;> simp [haccess, hread, String.append_assoc]

/-- A setter has them too, or there is none. -/
theorem texts_setter (f : Field Node) :
    Code.textsOf (setter? t s f).toList = (setterPhrases t s f).map Phrase.spell := by
  unfold setter? setterPhrases
  dsimp only
  split
  · rfl
  · cases (f.type.concrete t).access with
    | cell => simp [shortFunction, Code.nest, String.append_assoc]
    | object =>
      dsimp only
      split <;> simp [shortFunction, Code.nest, String.append_assoc]
    | computed | plain => rfl

/-- The accessors of a structure, field by field. -/
theorem texts_accessors :
    Code.textsOf (accessors t s) = (accessorPhrases t s).map Phrase.spell := by
  unfold accessors accessorPhrases
  rw [Code.textsOf_flatMap, List.map_flatMap]
  refine List.flatMap_congr fun f _ => ?_
  have hsetter := texts_setter (t := t) (s := s) f
  rw [List.map_append, ← texts_getter, ← hsetter]
  cases setter? t s f <;> simp

/-- A method is spelled up to its body, which has no phrases. -/
theorem texts_methods : Code.textsOf (methods t s) = (methodPhrases t s).map Phrase.spell := by
  unfold methods methodPhrases
  rw [Code.textsOf_flatMap, List.map_flatMap]
  refine List.flatMap_congr fun m _ => ?_
  have hheader : Phrase.spell (methodPhrase t s m) = methodHeader t s m := by
    -- The receiver is one of the parameters, so that there is a separator behind it.
    have hparameters : ∀ receiver : String, Phrase.spell ([.fixed ", "].intercalate
        ([.fixed receiver] :: m.parameters.map fun p =>
          .member p.name :: .fixed ": " :: (shapeIn t s p.type).nativePhrase)) =
        ", ".intercalate (receiver :: m.parameters.map fun p =>
          p.name ++ ": " ++ (shapeIn t s p.type).nativeType) := by
      intro receiver
      rw [Phrase.spell_intercalate]
      simp [Function.comp_def, String.append_assoc]
    unfold methodPhrase methodHeader
    dsimp only
    rw [← hparameters]
    cases m.returns <;> simp only [resultPhrase, List.cons_append, Phrase.spell, Fragment.spell,
      Phrase.spell_append, Shape.spell_nativePhrase, String.append_assoc, String.append_empty]
  simp [Code.nest, hheader]

theorem texts_rules : Code.textsOf (rules s) = (rulePhrases s).map Phrase.spell := by
  simp [rules, rulePhrases, Code.nest, List.map_flatMap, String.append_assoc]

/-- Fields that settle have a line each. -/
theorem texts_settle : (settle t s).texts = (settlePhrases t s).map Phrase.spell := by
  unfold settle settlePhrases Code.nest
  have hcalls : (s.fields.filterMap fun f => (f.type.concrete t).settleCall? f.name) =
      (s.fields.filterMap fun f => if (f.type.concrete t).needsSettle then
        some [Fragment.fixed "self.", .member f.name, .fixed ".__settle();"] else none).map
          Phrase.spell := by
    rw [List.map_filterMap]
    refine List.filterMap_congr fun f _ => ?_
    unfold Node.settleCall?
    split <;> simp [String.append_assoc, ToString.toString]
  simp [hcalls]

/-! ### State -/

/-- The function that commits a structure. -/
def commitPhrases (t : Table) (s : Structure Node) : List Phrase :=
  Phrase.nest [.fixed ("pub fn __commit(&mut self, __name: &str, " ++
      "__forward: &mut JsonStreamWriter, __reverse: &mut JsonStreamWriter)")]
    (Phrase.nest [.fixed "if self.__owner.is_dirty()"]
      ([[.fixed "__forward.write_object_field_intro(__name);"],
        [.fixed "__forward.begin_object();"],
        [.fixed "__reverse.write_object_field_intro(__name);"],
        [.fixed "__reverse.begin_object();"]] ++
        (storedFields t s).map (fun f =>
          [.fixed "self.", .member f.name, .fixed ".__commit(\"", .literal f.name,
            .fixed "\", __forward, __reverse);"]) ++
        [[.fixed "__forward.end_object();"],
          [.fixed "__reverse.end_object();"],
          [.fixed "self.__owner.lower_dirty();"]]))

/-- The function that reverts a structure. -/
def revertPhrases (t : Table) (s : Structure Node) : List Phrase :=
  Phrase.nest [.fixed "pub fn __revert(&mut self)"]
    (Phrase.nest [.fixed "if self.__owner.is_dirty()"]
      ((storedFields t s).map (fun f =>
          [.fixed "self.", .member f.name, .fixed ".__revert();"]) ++
        [[.fixed "self.__owner.lower_dirty();"]]))

/-- What is compared of a field. -/
def equalityPhrase (t : Table) (f : Field Node) : Phrase :=
  match (f.type.concrete t).access with
  | .cell =>
    [.fixed "self.", .member f.name, .fixed ".get() == __other.", .member f.name, .fixed ".get()"]
  | _ =>
    [.fixed "self.", .member f.name, .fixed ".__structurally_equals(&__other.", .member f.name,
      .fixed ")"]

/-- The function that compares two structures. -/
def equalityPhrases (t : Table) (s : Structure Node) : List Phrase :=
  let terms := (storedFields t s).map (equalityPhrase t)
  Phrase.nest [.fixed "pub fn __structurally_equals(&self, __other: &Self) -> bool"]
    [if terms.isEmpty then [.fixed "true"] else [.fixed "\n        && "].intercalate terms]

/-- The branch that finds the order of a field by its name, if it can be ordered. -/
def comparatorPhrase? (t : Table) (f : Field Node) : Option Phrase :=
  (f.type.concrete t).scalar?.bind fun k =>
    if k.isOrderable then
      some [.fixed "\"", .literal f.name, .fixed "\" => Some(|__a: &Self, __b: &Self| ",
        .fixed "__a.", .member f.name,
        .fixed (if k = .double then ".get().total_cmp(&" else ".get().cmp(&"),
        .fixed "__b.", .member f.name, .fixed ".get())),"]
    else none

/-- The function that finds the order of a field by its name. -/
def comparatorPhrases (t : Table) (s : Structure Node) : List Phrase :=
  Phrase.nest
    [.fixed "pub fn __comparator(__field: &str) -> Option<fn(&Self, &Self) -> std::cmp::Ordering>"]
    (Phrase.nest [.fixed "match __field"]
      (s.fields.filterMap (comparatorPhrase? t) ++ [[.fixed "_ => None,"]]))

/-- The functions that deal with the state of a structure. -/
def statePhrases (t : Table) (s : Structure Node) : List Phrase :=
  commitPhrases t s ++ revertPhrases t s ++ equalityPhrases t s ++ comparatorPhrases t s

theorem texts_commit : (commit t s).texts = (commitPhrases t s).map Phrase.spell := by
  simp [commit, commitPhrases, commitStatement, Code.nest, String.append_assoc]

theorem texts_revert : (revert t s).texts = (revertPhrases t s).map Phrase.spell := by
  simp [revert, revertPhrases, revertStatement, Code.nest, String.append_assoc]

/-- The terms of an equality stand on one line of code, with line breaks in it. -/
theorem texts_equality : (equality t s).texts = (equalityPhrases t s).map Phrase.spell := by
  have hterms : ((storedFields t s).map (equalityPhrase t)).map Phrase.spell =
      (storedFields t s).map (equalityTerm t) := by
    rw [List.map_map]
    refine List.map_congr_left fun f _ => ?_
    rw [Function.comp_apply, equalityPhrase, equalityTerm]
    cases (f.type.concrete t).access <;> simp [String.append_assoc]
  have hjoined : Phrase.spell ([.fixed "\n        && "].intercalate
      ((storedFields t s).map (equalityPhrase t))) =
      "\n        && ".intercalate ((storedFields t s).map (equalityTerm t)) := by
    rw [Phrase.spell_intercalate, hterms]
    simp
  unfold equality equalityPhrases
  dsimp only
  rw [← hjoined]
  -- Without any terms the line is fixed.
  cases h : storedFields t s <;> simp [shortFunction, Code.nest]

/-- A field that can be ordered has an arm, in which it is named three times: once as a literal. -/
theorem texts_comparator : (comparator t s).texts = (comparatorPhrases t s).map Phrase.spell := by
  have hbranches : ∀ f : Field Node, ((orderExpression? t f).map fun e =>
      "\"" ++ f.name ++ "\" => Some(|__a: &Self, __b: &Self| " ++ e ++ "),") =
      (comparatorPhrase? t f).map Phrase.spell := by
    intro f
    unfold orderExpression? comparatorPhrase? Scalar.compare?
    cases (f.type.concrete t).scalar? with
    | none => rfl
    | some k => cases k <;> simp [Scalar.isOrderable, String.append_assoc, ToString.toString]
  -- As phrases the arms are found by the same fields.
  have hmap : (s.fields.filterMap fun f => (orderExpression? t f).map fun e =>
      Code.line ("\"" ++ f.name ++ "\" => Some(|__a: &Self, __b: &Self| " ++ e ++ "),")) =
      s.fields.filterMap fun f =>
        ((comparatorPhrase? t f).map Phrase.spell).map .line := by
    refine List.filterMap_congr fun f _ => ?_
    rw [← hbranches, Option.map_map]
    rfl
  have htexts : Code.textsOf (s.fields.filterMap fun f =>
      ((comparatorPhrase? t f).map Phrase.spell).map .line) =
      (s.fields.filterMap (comparatorPhrase? t)).map Phrase.spell := by
    rw [Code.textsOf_filterMap_lines, List.map_filterMap]
  unfold comparator comparatorPhrases Code.nest
  rw [hmap]
  simp only [Code.texts, Code.textsOf, Code.textsOf_append, htexts]
  simp

theorem texts_stateFunctions :
    Code.textsOf (stateFunctions t s) = (statePhrases t s).map Phrase.spell := by
  simp [stateFunctions, statePhrases, texts_commit, texts_revert, texts_equality, texts_comparator]

/-! ### Deltas -/

def shownPhrase (t : Table) (f : Field Node) : Phrase :=
  match (f.type.concrete t).access with
  | .cell | .computed => [.fixed "&__item.", .member f.name, .fixed ".get()"]
  | .object | .plain => [.fixed "&__item.", .member f.name]

def showPhrase (t : Table) (f : Field Node) : Phrase :=
  .fixed "self." :: .member f.name :: .fixed ".show(" :: shownPhrase t f ++
    [.fixed ", __obj.plan_field(\"", .literal f.name, .fixed "\"));"]

def hidePhrase (f : Field Node) : Phrase :=
  [.fixed "self.", .member f.name, .fixed ".hide(__obj.plan_field(\"", .literal f.name,
    .fixed "\"));"]

def showPhrases (t : Table) (f : Field Node) : List Phrase :=
  match f.effectivePrivacy with
  | .everyone => [showPhrase t f]
  | .viewerIs viewer =>
    [[.fixed "if ", .fixed "__item.", .member viewer, .fixed ".get() == __viewer"], showPhrase t f,
      hidePhrase f]
  | .useCustom rule =>
    [[.fixed "if ", .fixed "__item.__policy_", .member rule, .fixed "(&__viewer)"], showPhrase t f,
      hidePhrase f]
  | .nobody => []

/-- The fields that reach viewers, with the types of their deltas. -/
def deltaMemberPhrases (t : Table) (s : Structure Node) : List Phrase :=
  (s.fields.filter fun f => f.effectivePrivacy != .nobody).filterMap fun f =>
    match f.type.kind with
    | .table _ | .message _ => none
    | _ => some (.member f.name :: .fixed ": " :: (shapeIn t s f.type).deltaPhrase ++ [.fixed ","])

def deltaPhrases (t : Table) (type : Phrase) (s : Structure Node) : List Phrase :=
  [.fixed "#[derive(Default)]"] ::
    Phrase.nest (.fixed "pub struct " :: type ++ [.fixed "Delta"])
      ([.fixed "__emitted: bool,"] :: deltaMemberPhrases t s) ++
    Phrase.nest (.fixed "impl " :: type ++ [.fixed "Delta"])
      (Phrase.nest [.fixed "pub fn new() -> Self"] [[.fixed "Self::default()"]] ++
        Phrase.nest (.fixed "pub fn show(&mut self, __item: &" :: type ++
            [.fixed ", __writer: &mut PrivateLazyDeltaWriter)"])
          ([[.fixed "let __viewer = __writer.viewer().clone();"],
            [.fixed "let mut __obj = __writer.plan_object();"]] ++
            (syncedFields t s).flatMap (fun x => showPhrases t x.field) ++
            [[.fixed "__obj.end();"], [.fixed "self.__emitted = true;"]]) ++
        Phrase.nest [.fixed "pub fn hide(&mut self, __writer: &mut PrivateLazyDeltaWriter)"]
          (Phrase.nest [.fixed "if self.__emitted"]
            [[.fixed "self.__emitted = false;"], [.fixed "__writer.write_null();"]]))

/-- What shows a field, by its privacy. -/
theorem texts_showField (f : Field Node) :
    Code.textsOf (showField t f) = (showPhrases t f).map Phrase.spell := by
  have hshown : Phrase.spell (shownPhrase t f) = shownValue t f := by
    unfold shownPhrase shownValue
    cases (f.type.concrete t).access <;> simp [String.append_assoc]
  have hshow : Phrase.spell (showPhrase t f) = showStatement t f := by
    simp [showPhrase, showStatement, hshown, String.append_assoc]
  have hhide : Phrase.spell (hidePhrase f) = hideStatement f := by
    simp [hidePhrase, hideStatement, String.append_assoc]
  unfold showField showPhrases
  cases f.effectivePrivacy <;> simp [hshow, hhide, String.append_assoc]

/-- The delta of a structure, of a type that is spelled as it is in the code. -/
theorem texts_delta (type : Phrase) :
    Code.textsOf (delta t type.spell s) = (deltaPhrases t type s).map Phrase.spell := by
  have hmembers : ((syncedFields t s).map fun x =>
      x.field.name ++ (": " ++ (x.deltaType ++ ","))) =
      (deltaMemberPhrases t s).map Phrase.spell := by
    unfold syncedFields deltaMemberPhrases
    rw [List.map_filterMap, List.map_filterMap]
    refine List.filterMap_congr fun f _ => ?_
    unfold Node.deltaType?
    -- A table or a message has no delta, whatever it comes down to.
    cases f.type.kind <;> simp [shapeIn]
  have hshow := texts_showField (t := t)
  simp [delta, deltaOf, deltaPhrases, shortFunction, Code.nest, hmembers, hshow, List.map_flatMap,
    String.append_assoc]

/-! ### Records -/

/-- The member that invalidates an index. -/
def indexPhrase (c : IndexColumn) : Phrase :=
  [.fixed "__index_", .member c.field]

/-- The subscription of an index to its field. -/
def wirePhrases (c : IndexColumn) : List Phrase :=
  Phrase.block (.fixed "let " :: indexPhrase c ++ [.fixed " = match __owner.as_indexed_table()"])
    (Phrase.nest [.fixed "Some(__table) =>"]
        [[.fixed ("let __invalidate = IndexInvalidate::new(__table, " ++
            Decimal.digitText c.number ++ ", |__value: &" ++ c.native ++ "| " ++ c.key ++ ");")],
          [.member c.field, .fixed ".__subscribe(__invalidate.clone());"],
          [.fixed "Some(__invalidate)"]] ++
      [[.fixed "None => None,"]]) ";"

/-- The function that builds a record. -/
def recordConstructorPhrases (t : Table) (s : Structure Node) (columns : List IndexColumn) :
    List Phrase :=
  Phrase.nest [.fixed "pub fn new(__owner: Owner) -> Self"]
    ([.fixed "let __link = __owner.link();"] ::
      constructionPhrases t s ++
      columns.flatMap wirePhrases ++
      Phrase.block [.fixed "let mut __self = Self"]
        ([.fixed "__owner,"] ::
          s.fields.map (fun f => [.member f.name, .fixed ","]) ++
          columns.map (fun c => indexPhrase c ++ [.fixed ","])) ";" ++
      bindingPhrases s ++
      [[.fixed "__self"]])

/-- A function that calls each index. -/
def eachIndexPhrases (name call : String) (columns : List IndexColumn) : List Phrase :=
  Phrase.nest [.fixed "pub fn ", .fixed name, .fixed "(&mut self)"]
    (columns.flatMap fun c =>
      Phrase.nest (.fixed "if let Some(__index) = &self." :: indexPhrase c)
        [[.fixed "__index.", .fixed call, .fixed "();"]])

/-- The functions that keep the indices of a record. -/
def indexHookPhrases (columns : List IndexColumn) : List Phrase :=
  eachIndexPhrases "deindex" "deindex" columns ++
    eachIndexPhrases "reindex" "reindex" columns ++
    Phrase.nest [.fixed "pub fn invalidate_index(&self, __pubsub: &TablePubSub)"]
      ([.fixed "__pubsub.primary(self.__id());"] ::
        columns.flatMap fun c =>
          Phrase.nest []
            [[.fixed "let __value = &self.", .member c.field, .fixed ".get();"],
              [.fixed ("__pubsub.index(" ++ Decimal.digitText c.number ++ ", " ++ c.key ++
                ");")]]) ++
    Phrase.nest [.fixed "pub fn pump_index_events(&self, __pubsub: &TablePubSub)"]
      (columns.flatMap fun c =>
        [.fixed "let __watch = __pubsub.clone();"] ::
          Phrase.block [.fixed "self.", .member c.field, .fixed ".__subscribe(move |__value: &",
              .fixed c.native, .fixed "|"]
            [[.fixed ("__watch.index(" ++ Decimal.digitText c.number ++ ", " ++ c.key ++ ");")],
              [.fixed "true"]] ");")

/-- What ends a field when its record dies, if anything has to. -/
def killPhrase? (t : Table) (f : Field Node) : Option Phrase :=
  match (f.type.concrete t).kind with
  | .maybe _ => some [.fixed "self.", .member f.name, .fixed ".delete();"]
  | .record _ => some [.fixed "self.", .member f.name, .fixed ".__kill();"]
  | _ => none

/-- The function that ends a record. -/
def killPhrases (t : Table) (s : Structure Node) : List Phrase :=
  Phrase.nest [.fixed "pub fn __kill(&mut self)"]
    (s.fields.filterMap (killPhrase? t) ++
      [[.fixed "self.deindex();"], [.fixed "self.__owner.kill();"]])

/-- The structure of a record, its functions and its delta. -/
def recordPhrases (t : Table) (s : Structure Node) : List Phrase :=
  let type : Fragment := .type (.record s.name)
  let columns := indexColumns t s
  Phrase.nest [.fixed "pub struct ", type]
      ([.fixed "__owner: Owner,"] ::
        storagePhrases t s ++
        columns.map fun c =>
          indexPhrase c ++ [.fixed ": Option<IndexInvalidate<", type, .fixed ">>,"]) ++
    Phrase.nest [.fixed "impl ", type]
      ([.fixed "pub const __ID_FIELD: usize = ", .fixed (Decimal.digitText (idSlot s)),
          .fixed ";"] ::
        [.fixed "pub const __INDEX_COLUMNS: usize = ", .fixed (Decimal.digitText columns.length),
          .fixed ";"] ::
        recordConstructorPhrases t s columns ++
        indexHookPhrases columns ++
        Phrase.ofCode identityFunctions ++
        accessorPhrases t s ++ methodPhrases t s ++ rulePhrases s ++
        statePhrases t s ++ settlePhrases t s ++ killPhrases t s) ++
    deltaPhrases t [type] s

theorem spell_indexPhrase (c : IndexColumn) : Phrase.spell (indexPhrase c) = indexMember c := by
  simp [indexPhrase, indexMember]

theorem texts_wireColumn (c : IndexColumn) :
    (wireColumn c).texts = (wirePhrases c).map Phrase.spell := by
  simp [wireColumn, wirePhrases, spell_indexPhrase, Code.nest, String.append_assoc]

/-- The constructor of a record builds its fields, wires its indices and binds its projections. -/
theorem texts_recordConstructor (columns : List IndexColumn) :
    (recordConstructor t s columns).texts =
      (recordConstructorPhrases t s columns).map Phrase.spell := by
  have hwires : Code.textsOf (columns.map wireColumn) =
      (columns.flatMap wirePhrases).map Phrase.spell := by
    rw [Code.textsOf_map, List.map_flatMap]
    exact List.flatMap_congr fun c _ => texts_wireColumn c
  simp [recordConstructor, recordConstructorPhrases, hwires, texts_construction, texts_bindings,
    spell_indexPhrase, Code.nest, Function.comp_def]

/-- The hooks go through the columns, each in its own way. -/
theorem texts_indexHooks (columns : List IndexColumn) :
    Code.textsOf (indexHooks columns) = (indexHookPhrases columns).map Phrase.spell := by
  have heach : ∀ name call, (eachIndex name call columns).texts =
      (eachIndexPhrases name call columns).map Phrase.spell := by
    intro name call
    simp [eachIndex, eachIndexPhrases, Code.textsOf_map, List.map_flatMap, spell_indexPhrase,
      Code.nest, String.append_assoc]
  simp [indexHooks, indexHookPhrases, heach, Code.textsOf_map, List.map_flatMap, Code.nest,
    String.append_assoc]

/-- A record ends its fields before itself. -/
theorem texts_kill : (kill t s).texts = (killPhrases t s).map Phrase.spell := by
  have hcalls : (s.fields.filterMap fun f => (f.type.concrete t).killCall? f.name) =
      (s.fields.filterMap (killPhrase? t)).map Phrase.spell := by
    rw [List.map_filterMap]
    refine List.filterMap_congr fun f _ => ?_
    -- Only what may be absent and what is a record have to be ended.
    unfold Node.killCall? killPhrase?
    cases (f.type.concrete t).kind <;> simp [String.append_assoc, ToString.toString]
  simp [kill, killPhrases, hcalls, Code.nest]

/-- **Records.** The parts of a record are spelled one by one. -/
theorem texts_record : Code.textsOf (record t s) = (recordPhrases t s).map Phrase.spell := by
  have hdelta := texts_delta (t := t) (s := s) [.type (.record s.name)]
  rw [show Phrase.spell [.type (.record s.name)] = recordType s.name by simp [TypeName.text]]
    at hdelta
  simp [record, recordPhrases, hdelta, texts_storage, texts_recordConstructor, texts_indexHooks,
    texts_accessors, texts_methods, texts_rules, texts_stateFunctions, texts_settle, texts_kill,
    spell_indexPhrase, TypeName.text, Code.nest, Function.comp_def, String.append_assoc]

/-! ### Messages -/

/-- The statement that writes a field of a message. -/
def writePhrase (f : Field Node) : Phrase :=
  [.fixed "__writer.write_field(\"", .literal f.name, .fixed "\", &self.", .member f.name,
    .fixed ");"]

/-- The arm that reads a field of a message. -/
def readBranchPhrase (f : Field Node) : Phrase :=
  [.fixed "\"", .literal f.name, .fixed "\" => __msg.", .member f.name,
    .fixed " = __reader.read_value(),"]

/-- The structure of a message, and what writes and reads it. -/
def messagePhrases (t : Table) (s : Structure Node) : List Phrase :=
  let type : Fragment := .type (.message s.name)
  [.fixed "#[derive(Debug, Clone, Default, PartialEq)]"] ::
    Phrase.nest [.fixed "pub struct ", type]
      (s.fields.map fun f =>
        .fixed "pub " :: .member f.name :: .fixed ": " :: (shapeIn t s f.type).nativePhrase ++
          [.fixed ","]) ++
    Phrase.nest [.fixed "impl NtMessage for ", type]
      (Phrase.nest [.fixed "fn write(&self, __writer: &mut JsonStreamWriter)"]
          ([.fixed "__writer.begin_object();"] ::
            s.fields.map writePhrase ++
            [[.fixed "__writer.end_object();"]]) ++
        Phrase.nest [.fixed "fn read(__reader: &mut JsonStreamReader) -> Self"]
          ([.fixed "let mut __msg = Self::default();"] ::
            Phrase.nest [.fixed "while let Some(__key) = __reader.next_field()"]
              (Phrase.nest [.fixed "match __key.as_str()"]
                (s.fields.map readBranchPhrase ++ [[.fixed "_ => __reader.skip_value(),"]])) ++
            [[.fixed "__msg"]]))

/-- **Messages.** The name of a field stands in a literal and as a member, in both directions. -/
theorem texts_message : Code.textsOf (message t s) = (messagePhrases t s).map Phrase.spell := by
  have hwrite : ∀ f, Phrase.spell (writePhrase f) = writeStatement f := by
    intro f
    unfold writePhrase writeStatement
    simp [String.append_assoc]
  have hread : ∀ f, Phrase.spell (readBranchPhrase f) = readBranch f := by
    intro f
    unfold readBranchPhrase readBranch
    simp [String.append_assoc]
  simp [message, messagePhrases, hwrite, hread, TypeName.text, Code.nest, Function.comp_def,
    String.append_assoc]

/-! ### The document -/

/-- A function that returns a fixed JSON text. -/
def staticPhrases (name : String) (value : Json) : List Phrase :=
  Phrase.nest [.fixed "pub fn ", .fixed name, .fixed "() -> &'static str"]
    [[.literal (Text.quote value.compact)]]

/-- The function that builds the document. -/
def documentConstructorPhrases (t : Table) : List Phrase :=
  Phrase.nest [.fixed "pub fn new(__monitor: MonitorSink) -> Self"]
    ([[.fixed "let __owner = Owner::root(__monitor);"],
      [.fixed "let __link = __owner.link();"]] ++
      constructionPhrases t t.root ++
      Phrase.block [.fixed "let mut __self = Self"]
        ([[.fixed "__owner,"],
          [.fixed "__space: String::new(),"],
          [.fixed "__key: String::new(),"]] ++
          t.root.fields.map fun f => [.member f.name, .fixed ","]) ";" ++
      bindingPhrases t.root ++
      [[.fixed "__self"]])

/-- The names of tests, their functions and the one that runs them. -/
def testPhrases (surface : Surface) : List Phrase :=
  Phrase.nest [.fixed "pub fn __get_tests() -> &'static [&'static str]"]
      [.fixed "&[" :: [.fixed ", "].intercalate
        (surface.tests.map fun x => [.literal (Text.quote x.name)]) ++ [.fixed "]"]] ++
    surface.tests.flatMap (fun x =>
      Phrase.nest [.fixed "fn __test_", .member x.name,
        .fixed "(&mut self, __report: &mut TestReport)"] []) ++
    Phrase.nest
      [.fixed "pub fn __run_test(&mut self, __report: &mut TestReport, __name: &str) -> bool"]
      (Phrase.nest [.fixed "match __name"]
        (surface.tests.flatMap (fun x =>
            Phrase.nest [.literal (Text.quote x.name), .fixed " =>"]
              [[.fixed "self.__test_", .member x.name, .fixed "(__report);"], [.fixed "true"]]) ++
          [[.fixed "_ => false,"]]))

/-- The structure of the document, its functions and its delta. -/
def documentPhrases (t : Table) (surface : Surface) : List Phrase :=
  let type : Fragment := .fixed Structure.rootName
  Phrase.nest [.fixed "pub struct ", type]
      ([[.fixed "__owner: Owner,"],
        [.fixed "__space: String,"],
        [.fixed "__key: String,"]] ++
        storagePhrases t t.root) ++
    Phrase.nest [.fixed "impl ", type]
      (documentConstructorPhrases t ++
        -- The bodies of predicates and of the constructor are source of the user.
        Phrase.ofCode (predicate "__can_create" surface.predicates.canCreate ++
          predicate "__can_invent" surface.predicates.canInvent ++
          predicate "__can_send_while_disconnected"
            surface.predicates.canSendWhileDisconnected) ++
        staticPhrases "__config" surface.configJson ++
        staticPhrases "__services" surface.servicesJson ++
        staticPhrases "__generic_clients" surface.clientsJson ++
        Phrase.ofCode [constructTransaction surface.constructor, lateBinding] ++
        testPhrases surface ++
        accessorPhrases t t.root ++ methodPhrases t t.root ++ rulePhrases t.root ++
        statePhrases t t.root ++ settlePhrases t t.root) ++
    deltaPhrases t [type] t.root

theorem texts_staticJson (name : String) (value : Json) :
    Code.textsOf (staticJson name value) = (staticPhrases name value).map Phrase.spell := by
  simp [staticJson, staticPhrases, shortFunction, Code.nest, String.append_assoc]

/-- The constructor of the document builds and binds the fields of the root. -/
theorem texts_documentConstructor :
    (documentConstructor t).texts = (documentConstructorPhrases t).map Phrase.spell := by
  simp [documentConstructor, documentConstructorPhrases, texts_construction, texts_bindings,
    Code.nest, Function.comp_def]

/-- A test is named in its function, and as a literal where it is listed and run. -/
theorem texts_tests (surface : Surface) :
    Code.textsOf (tests surface) = (testPhrases surface).map Phrase.spell := by
  have hnames : Phrase.spell ([.fixed ", "].intercalate
      (surface.tests.map fun x => [.literal (Text.quote x.name)])) =
      ", ".intercalate (surface.tests.map fun x => Text.quote x.name) := by
    rw [Phrase.spell_intercalate]
    simp [Function.comp_def]
  simp [tests, testPhrases, hnames, shortFunction, Code.textsOf_map, List.map_flatMap, Code.nest,
    String.append_assoc]

/-- **The document.** Its own type has a fixed name; all other names in it are those of members. -/
theorem texts_document (surface : Surface) :
    Code.textsOf (document t surface) = (documentPhrases t surface).map Phrase.spell := by
  have hdelta := texts_delta (t := t) (s := t.root) [.fixed Structure.rootName]
  rw [show Phrase.spell [.fixed Structure.rootName] = Structure.rootName by simp] at hdelta
  simp [document, documentPhrases, hdelta, texts_storage, texts_documentConstructor,
    texts_staticJson, texts_tests, texts_accessors, texts_methods, texts_rules,
    texts_stateFunctions, texts_settle, Code.nest]

/-! ### The unit -/

/-- What a unit exports. Its own name stands in a comment, and the tests in a literal. -/
def exportPhrases (unitName : String) (surface : Surface) : List Phrase :=
  [.fixed "// ----------------------------------------------------------------------------"] ::
    [.fixed "// C-ABI surface of unit '", .member unitName, .fixed "'"] ::
    Phrase.ofCode ((exportHeader unitName).drop 2 ++ vtableType ++ vtable ++ exportHelpers ++
      lifetimeExports ++ predicateExports ++ (staticExports "").take 6) ++
    Phrase.nest [.fixed "unsafe extern \"C\" fn __glue_get_tests() -> *mut c_char"]
      [[.fixed "__glue_out(", .literal (Text.quote surface.testsJson.compact), .fixed ")"]] ++
    Phrase.ofCode documentExports

/-- The phrases of a unit, in order. -/
def unitPhrases (t : Table) (surface : Surface) (unitName : String) : List Phrase :=
  [.fixed "// Generated by livedoc for unit '", .member unitName, .fixed "'. Do not edit."] ::
    Phrase.ofCode ((header unitName).drop 1) ++
    t.messages.flatMap (messagePhrases t) ++
    (orderedRecords t).flatMap (recordPhrases t) ++
    documentPhrases t surface ++
    exportPhrases unitName surface

/-- The exports of a unit name nothing of the user but the unit and its tests. -/
theorem texts_exports (unitName : String) (surface : Surface) :
    Code.textsOf (exports unitName surface) =
      (exportPhrases unitName surface).map Phrase.spell := by
  simp [exports, exportPhrases, exportHeader, staticExports, entryPoint, Code.nest,
    String.append_assoc]

theorem texts_unitCode (t : Table) (surface : Surface) (unitName : String) :
    Code.textsOf (unitCode t surface unitName) =
      (unitPhrases t surface unitName).map Phrase.spell := by
  simp [unitCode, unitPhrases, header, texts_message, texts_record, texts_document,
    texts_exports, List.map_flatMap, String.append_assoc]

end Target

end ReactiveSpace
