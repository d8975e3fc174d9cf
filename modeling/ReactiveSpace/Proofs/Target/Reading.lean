import ReactiveSpace.Proofs.Target.Gating
import ReactiveSpace.Proofs.Target.State

/-!
# Reading a field in its accessor and in the delta

A field is read in two places: its accessor reads it from `self`, and the delta from the structure
it is shown from. Both choose the form of the expression by what the type of the field comes down
to. `Code.getters` and `Code.shownValues` read the expressions off the code, and `Text.rename` puts
one receiver in the place of another. The two forms are the same for every field but a formula,
whose accessor hands over the receiver while the delta does not (`Declarations.delta_reads_iff`).
-/

namespace ReactiveSpace

namespace Text

/-! ### Renaming -/

/-- Characters with each identifier `old` replaced by `new`. The identifier so far is `word`. -/
def renameFrom (old new word : List Char) : List Char → List Char
  | [] => if word = old then new else word
  | c :: cs =>
    if Name.isPart c then renameFrom old new (word ++ [c]) cs
    else (if word = old then new else word) ++ c :: renameFrom old new [] cs

/-- The text with each identifier `old` replaced by `new`. -/
def rename (old new text : String) : String :=
  String.ofList (renameFrom old.toList new.toList [] text.toList)

/-- The text without an ampersand at its start. -/
def dereferenced (text : String) : String :=
  match text.toList with
  | '&' :: rest => String.ofList rest
  | _ => text

/-- A word is read to its end before it is renamed. -/
theorem renameFrom_append {old new name : List Char} (hname : ∀ c ∈ name, Name.isPart c = true)
    (word rest : List Char) :
    renameFrom old new word (name ++ rest) = renameFrom old new (word ++ name) rest := by
  induction name generalizing word with
  | nil => simp
  | cons c name ih =>
    rw [List.forall_mem_cons] at hname
    rw [List.cons_append, renameFrom, if_pos hname.1, ih hname.2, List.append_assoc,
      List.singleton_append]

theorem renameFrom_name {old new name : List Char} (hname : ∀ c ∈ name, Name.isPart c = true)
    {stop : Char} (hstop : Name.isPart stop = false) (rest : List Char) :
    renameFrom old new [] (name ++ stop :: rest) =
      (if name = old then new else name) ++ stop :: renameFrom old new [] rest := by
  rw [renameFrom_append hname, List.nil_append, renameFrom, if_neg (by simp [hstop])]

theorem renameFrom_last {old new name : List Char} (hname : ∀ c ∈ name, Name.isPart c = true) :
    renameFrom old new [] name = if name = old then new else name := by
  rw [← List.append_nil name, renameFrom_append hname, renameFrom, List.nil_append]
  simp

/-! ### Values that are shown -/

/-- The member that a statement shows, and the expression for its value. -/
def shownValue? (text : String) : Option (String × String) :=
  (receiver? "show" text).map fun name =>
    (name, String.ofList (((text.toList.dropWhile (· != '(')).drop 1).takeWhile (· != ',')))

/-- A text with a call on a member begins as `self` does. -/
theorem receiver?_eq_none {method text : String} {c : Char} {rest : List Char}
    (htext : text.toList = c :: rest) (hc : c ≠ 's') : receiver? method text = none := by
  have hnone : "self.".toList.isPrefixOf? text.toList = none := by
    refine Option.eq_none_iff_forall_ne_some.2 fun tail htail => ?_
    rw [List.isPrefixOf?_eq_some_iff_append_eq, htext] at htail
    exact hc (List.cons.inj htail).1.symm
  rw [receiver?, hnone]

end Text

namespace Code

/-- A header of a function that reads without changing: its name. -/
def getterTemplate : Text.Template where
  lead := "pub fn "
  pieces := ["(&self) -> "]
  stops := by decide

/-- The name of a function that reads without changing, and the expression it answers. -/
def getter? : Code → Option (String × String)
  | .block header [.line text] _ =>
    ((getterTemplate.read? header).bind List.head?).map fun name => (name, text)
  | _ => none

/-- The functions that read, by their names. -/
def getters (code : List Code) : List (String × String) :=
  code.filterMap getter?

/-- The values that are shown, by the names of the members. -/
def shownValues (code : List Code) : List (String × String) :=
  (textsOf code).filterMap Text.shownValue?

/-- An accessor is read off as its name and what it hands back. -/
theorem getter?_shortFunction {name : String} (hname : ∀ c ∈ name.toList, Name.isPart c = true)
    (result text : String) :
    getter? (Target.shortFunction ("pub fn " ++ name ++ "(&self) -> " ++ result) text) =
      some (name, text) := by
  have hheader : getterTemplate.read? ("pub fn " ++ name ++ "(&self) -> " ++ result) =
      some [name] := by
    refine Text.Template.read?_eq result.toList ?_ rfl (by simpa using hname)
    rw [String.toList_append]
    rfl
  rw [Target.shortFunction, nest, getter?, hheader]
  rfl

/-- A function that changes something is no accessor. -/
theorem getter?_changer {header name : String} {rest : List Char}
    (hheader : header.toList = "pub fn ".toList ++ (name.toList ++ ("(&mut self".toList ++ rest)))
    (hname : ∀ c ∈ name.toList, Name.isPart c = true) (text : String) :
    getter? (Target.shortFunction header text) = none := by
  have hnone : getterTemplate.read? header = none :=
    Text.Template.read?_eq_none_of_piece rfl hheader hname rfl rfl
  rw [Target.shortFunction, nest, getter?, hnone]
  rfl

end Code

namespace Target

open Code

variable {t : Table} {s : Structure Node} {f : Field Node}

theorem getter?_setter (hname : ∀ c ∈ f.name.toList, Name.isPart c = true) {code : Code}
    (hcode : setter? t s f = some code) : getter? code = none := by
  obtain ⟨header, body, name, rest, rfl, hheader, rfl | rfl⟩ := exists_of_setter? hcode
  · exact getter?_changer hheader (Name.isPart_append (List.all_eq_true.1 rfl) hname) body
  · exact getter?_changer hheader (Name.isPart_append hname (List.all_eq_true.1 rfl)) body

/-- Each field has one function that reads it. -/
theorem getters_accessors (hs : s.WellFormed t) : getters (accessors t s) =
    s.fields.map fun f => (f.name, readExpression "self" f.name (f.type.concrete t)) := by
  unfold accessors getters
  rw [List.filterMap_flatMap, List.map_eq_flatMap]
  refine List.flatMap_congr fun f hf => ?_
  have hname := isPart_of_mem_fields hs hf
  have hgetter : getter? (getter t s f) =
      some (f.name, readExpression "self" f.name (f.type.concrete t)) :=
    getter?_shortFunction hname _ _
  have hblank : getter? .blank = none := rfl
  cases hcode : setter? t s f with
  | none => simp [hgetter, hblank]
  | some code => simp [hgetter, hblank, getter?_setter hname hcode]

/-! ### The delta -/

theorem shownValue?_eq_none {text : String} (h : Text.receiver? "show" text = none) :
    Text.shownValue? text = none := by
  rw [Text.shownValue?, h, Option.map_none]

/-- The value in a statement that shows a field ends with the first comma. -/
theorem shownValue?_showStatement (hname : ∀ c ∈ f.name.toList, Name.isPart c = true) :
    Text.shownValue? (showStatement t f) = some (f.name, shownValue t f) := by
  have hstop : ∀ stop, Name.isPart stop = false → ∀ c ∈ f.name.toList, c ≠ stop := by
    rintro stop hstop c hc rfl
    simp [hname c hc] at hstop
  -- The expression ends at the comma, since it has none itself.
  have hvalue : ∀ c ∈ (shownValue t f).toList, (c != ',') = true := by
    have hcomma := hstop ',' rfl
    unfold shownValue
    split <;> simp_all [or_imp]
  have hlead : ∀ c ∈ ("self." ++ f.name ++ ".show").toList, (c != '(') = true := by
    have hopen := hstop '(' rfl
    simp_all [or_imp]
  have htext : (showStatement t f).toList = ("self." ++ f.name ++ ".show").toList ++
      '(' :: ((shownValue t f).toList ++
        ',' :: (" __obj.plan_field(\"" ++ f.name ++ "\"));").toList) := by
    simp [showStatement]
  rw [Text.shownValue?, (receiver?_showStatement hname).1, htext,
    List.dropWhile_append_of_pos hlead, List.dropWhile_cons_of_neg (by simp), List.drop_one,
    List.tail_cons, List.takeWhile_append_of_pos hvalue, List.takeWhile_cons_of_neg (by simp)]
  simp

/-- Behind its gate, a field shows the one value that belongs to it. -/
theorem shownValues_showField (hname : ∀ c ∈ f.name.toList, Name.isPart c = true)
    (hf : f.isObservable = true) : shownValues (showField t f) = [(f.name, shownValue t f)] := by
  have hshow := shownValue?_showStatement (t := t) hname
  have hhide := shownValue?_eq_none (receiver?_hideStatement hname).1
  have hcondition : ∀ condition, Text.shownValue? ("if " ++ condition) = none := fun condition =>
    shownValue?_eq_none (Text.receiver?_eq_none (String.toList_append ..) (by decide))
  unfold showField shownValues
  cases hp : f.effectivePrivacy with
  | nobody => simp [Field.isObservable, hp] at hf
  | everyone => simp [hshow]
  | viewerIs viewer => simp [hshow, hhide, hcondition]
  | useCustom rule => simp [hshow, hhide, hcondition]

/-- A delta shows one value for each of its fields. -/
theorem shownValues_delta (hs : s.WellFormed t) (type : String) : shownValues (delta t type s) =
    s.shownFields.map fun f => (f.name, shownValue t f) := by
  -- Nothing in a delta but statements on fields starts with a receiver.
  have hstruct : Text.shownValue? ("pub struct " ++ type ++ "Delta") = none :=
    shownValue?_eq_none (Text.receiver?_eq_none (c := 'p') (by simp; rfl) (by decide))
  have himpl : Text.shownValue? ("impl " ++ type ++ "Delta") = none :=
    shownValue?_eq_none (Text.receiver?_eq_none (c := 'i') (by simp; rfl) (by decide))
  have hfunction : Text.shownValue? ("pub fn show(&mut self, __item: &" ++ type ++
      ", __writer: &mut PrivateLazyDeltaWriter)") = none :=
    shownValue?_eq_none (Text.receiver?_eq_none (c := 'p') (by simp; rfl) (by decide))
  -- A member of the delta has a name and a type, and no call.
  have hmembers : ((syncedFields t s).map fun x =>
      x.field.name ++ ": " ++ x.deltaType ++ ",").filterMap Text.shownValue? = [] := by
    rw [List.filterMap_map, List.filterMap_eq_nil_iff]
    intro x hx
    have hf : x.field ∈ s.fields := syncedFields_sublist.subset (List.mem_map_of_mem hx)
    have hmember := receiver?_member (isPart_of_mem_fields hs hf) "show" (x.deltaType ++ ",")
    rw [← String.append_assoc] at hmember
    exact shownValue?_eq_none hmember
  have hfields : ((syncedFields t s).flatMap fun x => textsOf (showField t x.field)).filterMap
      Text.shownValue? = s.shownFields.map fun f => (f.name, shownValue t f) := by
    rw [← map_field_syncedFields hs, List.filterMap_flatMap, List.map_map, List.map_eq_flatMap]
    refine List.flatMap_congr fun x hx => ?_
    have hshown : x.field ∈ s.shownFields := by
      rw [← map_field_syncedFields hs]
      exact List.mem_map_of_mem hx
    obtain ⟨hf, hshown⟩ := List.mem_filter.1 hshown
    exact shownValues_showField (isPart_of_mem_fields hs hf) (Bool.and_eq_true_iff.1 hshown).1
  have hfixed : ∀ text ∈ ["#[derive(Default)]", "__emitted: bool,", "pub fn new() -> Self",
      "Self::default()", "let __viewer = __writer.viewer().clone();",
      "let mut __obj = __writer.plan_object();", "__obj.end();", "self.__emitted = true;",
      "pub fn hide(&mut self, __writer: &mut PrivateLazyDeltaWriter)", "if self.__emitted",
      "self.__emitted = false;", "__writer.write_null();", ""], Text.shownValue? text = none := by
    decide
  unfold delta deltaOf shownValues
  simp [shortFunction, nest, hfixed, hmembers, hfields, hstruct, himpl, hfunction]

/-! ### Both -/

/-- A formula is the only type that is read in one form and shown in another. -/
theorem readExpression_cases (t : Table) (f : Field Node) :
    (∃ computed formula cached,
      (f.type.concrete t).kind = .lazy computed formula cached ∧
        readExpression "self" f.name (f.type.concrete t) = "self." ++ f.name ++ ".get(self)" ∧
        shownValue t f = "&__item." ++ f.name ++ ".get()") ∨
      (∀ computed formula cached, (f.type.concrete t).kind ≠ .lazy computed formula cached) ∧
        ((readExpression "self" f.name (f.type.concrete t) = "self." ++ f.name ++ ".get()" ∧
            shownValue t f = "&__item." ++ f.name ++ ".get()") ∨
          (readExpression "self" f.name (f.type.concrete t) = "&self." ++ f.name ∧
            shownValue t f = "&__item." ++ f.name)) := by
  have hvalue : ∀ receiver name : String,
      s!"{receiver}.{name}.get()" = receiver ++ "." ++ name ++ ".get()" := by simp [toString]
  have hformula : ∀ receiver name : String, s!"{receiver}.{name}.get({receiver})" =
      receiver ++ "." ++ name ++ ".get(" ++ receiver ++ ")" := by simp [toString]
  have hpart : ∀ receiver name : String,
      s!"&{receiver}.{name}" = "&" ++ receiver ++ "." ++ name := by simp [toString]
  unfold readExpression shownValue Node.access
  cases (f.type.concrete t).kind with
  | lazy computed formula cached =>
    refine .inl ⟨_, _, _, rfl, (hformula "self" _).trans ?_, rfl⟩
    simp [← String.toList_inj]
  | scalar _ | maybe _ | holder _ | replication _ _ =>
    exact .inr ⟨by simp, .inl ⟨hvalue "self" _, rfl⟩⟩
  | _ => exact .inr ⟨by simp, .inr ⟨hpart "self" _, rfl⟩⟩

/-- The receiver at the start of an expression is renamed. -/
theorem renameFrom_receiver (rest : List Char) :
    Text.renameFrom "self".toList "__item".toList [] ("self.".toList ++ rest) =
      "__item.".toList ++ Text.renameFrom "self".toList "__item".toList [] rest := by
  have hself : ∀ c ∈ "self".toList, Name.isPart c = true := List.all_eq_true.1 rfl
  have hstop : Name.isPart '.' = false := rfl
  exact (Text.renameFrom_name hself hstop rest).trans (by rw [if_pos rfl]; rfl)

/-- The member is left as it is, and what is called on it may name the receiver again. -/
theorem rename_call {name : String} (hname : ∀ c ∈ name.toList, Name.isPart c = true)
    (hself : name ≠ "self") {call renamed : String} {inner : List Char}
    (hcall : call.toList = '.' :: inner)
    (hrenamed : renamed.toList =
      '.' :: Text.renameFrom "self".toList "__item".toList [] inner) :
    Text.rename "self" "__item" ("self." ++ name ++ call) = "__item." ++ name ++ renamed := by
  have htext : ("self." ++ name ++ call).toList =
      "self.".toList ++ (name.toList ++ '.' :: inner) := by simp [hcall]
  rw [Text.rename, htext, renameFrom_receiver, Text.renameFrom_name hname rfl,
    if_neg (mt String.toList_inj.1 hself), ← hrenamed]
  simp [← String.toList_inj]

/-- A field with another name than the receiver is renamed at its receiver alone. -/
theorem rename_reference {name : String} (hname : ∀ c ∈ name.toList, Name.isPart c = true)
    (hself : name ≠ "self") :
    Text.rename "self" "__item" ("&self." ++ name) = "&__item." ++ name := by
  have htext : ("&self." ++ name).toList = [] ++ '&' :: ("self.".toList ++ name.toList) := by simp
  rw [Text.rename, htext, Text.renameFrom_name (by simp) rfl, renameFrom_receiver,
    Text.renameFrom_last hname, if_neg (mt String.toList_inj.1 hself)]
  simp [← String.toList_inj]

/-- The value that is shown is what the accessor reads from another receiver, unless it is that of a
formula. -/
theorem shownValue_eq_iff (hname : Name.memberProblem? f.name = none) :
    Text.dereferenced (shownValue t f) = Text.dereferenced
        (Text.rename "self" "__item" (readExpression "self" f.name (f.type.concrete t))) ↔
      ∀ computed formula cached, (f.type.concrete t).kind ≠ .lazy computed formula cached := by
  have hpart := Name.isPart_of_memberProblem? hname
  have hself : f.name ≠ "self" := fun h =>
    (Name.memberProblem?_eq_none_iff.1 hname).2.1 (h ▸ by decide)
  rcases readExpression_cases t f with ⟨_, _, _, hkind, hread, hvalue⟩ |
    ⟨hkind, ⟨hread, hvalue⟩ | ⟨hread, hvalue⟩⟩
  · -- A formula is handed the receiver by the accessor only.
    have hcall : Text.rename "self" "__item" ("self." ++ f.name ++ ".get(self)") =
        "__item." ++ f.name ++ ".get(__item)" := rename_call hpart hself rfl (by decide)
    refine iff_of_false ?_ fun h => h _ _ _ hkind
    rw [hread, hvalue, hcall]
    simp [Text.dereferenced, ← String.toList_inj]
  · have hcall : Text.rename "self" "__item" ("self." ++ f.name ++ ".get()") =
        "__item." ++ f.name ++ ".get()" := rename_call hpart hself rfl (by decide)
    refine iff_of_true ?_ hkind
    rw [hread, hvalue, hcall]
    simp [Text.dereferenced, ← String.toList_inj]
  · refine iff_of_true ?_ hkind
    rw [hread, hvalue, rename_reference hpart hself]

end Target

namespace Declarations

variable {d : Declarations}

/-- **Deltas read fields as accessors do**, formulas apart. In every structure of a deployable
space, each field has an accessor, and each field that viewers see is shown by one statement. The
value that is shown is what the accessor reads with `__item` for `self`, up to an ampersand at the
start, exactly if the field does not come down to a formula. -/
theorem delta_reads_iff (h : d.check.isDeployable = true) {s : Structure Node}
    (hs : d.check.table.Occurs (.body s)) (type : String) :
    ∃ read value : Field Node → String,
      Code.getters (Target.accessors d.check.table s) = s.fields.map (fun f => (f.name, read f)) ∧
      Code.shownValues (Target.delta d.check.table type s) =
        s.shownFields.map (fun f => (f.name, value f)) ∧
      ∀ f ∈ s.shownFields,
        Text.dereferenced (value f) =
            Text.dereferenced (Text.rename "self" "__item" (read f)) ↔
          ¬ ∃ computed formula cached,
            d.check.table.HasKind f.type (.lazy computed formula cached) := by
  have hwf := (wellFormed_of_isDeployable h).structures s hs
  refine ⟨_, _, Target.getters_accessors hwf, Target.shownValues_delta hwf type, fun f hf => ?_⟩
  have hkind : ∀ computed formula cached,
      (f.type.concrete d.check.table).kind = .lazy computed formula cached ↔
        d.check.table.HasKind f.type (.lazy computed formula cached) :=
    fun _ _ _ => Target.kind_concrete_eq_iff (by simp)
  rw [Target.shownValue_eq_iff (hwf.field_names f (List.mem_of_mem_filter hf))]
  simp only [ne_eq, hkind, not_exists]

/-- A purse where everyone may see the coins, and how much they are worth by a formula. -/
def purse : Declarations where
  space := "purse"
  root := { Structure.emptyRoot with
    fields :=
      [{ name := "coins", type := .ofScalar .int, privacy := some .everyone },
       { name := "worth", type := .ofKind (.lazy (.ofScalar .int) "__this.coins.get() * 2" false),
         privacy := some .everyone }] }

/-- A purse shows its coins as their accessor reads them. What the coins are worth it reads without
the receiver that the accessor hands over. -/
theorem purse_reads :
    let getters := Code.getters (Target.accessors purse.check.table purse.document)
    let values := Code.shownValues
      (Target.delta purse.check.table "LivingDocument" purse.document)
    purse.check.isDeployable = true ∧
      getters = [("coins", "self.coins.get()"), ("worth", "self.worth.get(self)")] ∧
      values = [("coins", "&__item.coins.get()"), ("worth", "&__item.worth.get()")] ∧
      Text.dereferenced "&__item.coins.get()" =
        Text.dereferenced (Text.rename "self" "__item" "self.coins.get()") ∧
      Text.dereferenced "&__item.worth.get()" ≠
        Text.dereferenced (Text.rename "self" "__item" "self.worth.get(self)") := by
  intro getters values
  have h : purse.check.isDeployable = true :=
    isDeployable_of_isEmpty (by decide) (by decide +kernel +zetaReduce) (by cbv)
  have htable : purse.check.table = purse.table (by decide) := table_draft _
  have hwf := (wellFormed_of_isDeployable h).structures purse.document .root
  obtain ⟨read, value, hread, hvalue, hiff⟩ :=
    delta_reads_iff h (s := purse.document) .root "LivingDocument"
  have hgetters : getters = [("coins", "self.coins.get()"), ("worth", "self.worth.get(self)")] := by
    refine (Target.getters_accessors hwf).trans ?_
    rw [htable]
    rfl
  have hvalues : values =
      [("coins", "&__item.coins.get()"), ("worth", "&__item.worth.get()")] := by
    refine (Target.shownValues_delta hwf _).trans ?_
    rw [htable]
    rfl
  -- The lists of the theorem are those that were read.
  let coins := purse.document.fields[0]
  let worth := purse.document.fields[1]
  obtain ⟨hcoins, hworth⟩ :
      read coins = "self.coins.get()" ∧ read worth = "self.worth.get(self)" := by
    have hlists : [("coins", read coins), ("worth", read worth)] =
        [("coins", "self.coins.get()"), ("worth", "self.worth.get(self)")] :=
      hread.symm.trans hgetters
    simpa using hlists
  obtain ⟨hcoins', hworth'⟩ :
      value coins = "&__item.coins.get()" ∧ value worth = "&__item.worth.get()" := by
    have hlists : [("coins", value coins), ("worth", value worth)] =
        [("coins", "&__item.coins.get()"), ("worth", "&__item.worth.get()")] :=
      hvalue.symm.trans hvalues
    simpa using hlists
  have hint : purse.check.table.HasKind coins.type (.scalar .int) := ⟨_, .self rfl, rfl⟩
  have hlazy : purse.check.table.HasKind worth.type
      (.lazy (.ofScalar .int) "__this.coins.get() * 2" false) := ⟨_, .self rfl, rfl⟩
  refine ⟨h, hgetters, hvalues, ?_, ?_⟩
  · rw [← hcoins, ← hcoins']
    refine (hiff coins List.mem_cons_self).2 ?_
    rintro ⟨computed, formula, cached, hkind⟩
    cases hkind.unique hint
  · rw [← hworth, ← hworth']
    exact fun heq => (hiff worth (List.mem_cons_of_mem _ List.mem_cons_self)).1 heq
      ⟨_, _, _, hlazy⟩

end Declarations

end ReactiveSpace
