import ReactiveSpace.Proofs.Target.Distinct
import ReactiveSpace.Proofs.Target.Identity

/-!
# What a delta shows

The delta of a structure is where the state of a document becomes visible to viewers, so it has to
keep two promises. It depends on no field for nobody: `View.delta` writes the delta of any list of
fields from what was recorded under the identities of their nodes, and lists with the same
observable fields give the delta of the structure. And it shows every other field once, behind its
gate: `Code.calls` reads off code which members a method is called on and under which headers, and
for the delta of a structure this is one call of `show` for each field with a delta, on the first
side of the gate, and one call of `hide` for each field with a gate, on its other side
(`Declarations.delta_gated`).
-/

namespace ReactiveSpace

/-! ### Reading calls off code -/

/-- A line of code with the headers around it, the outermost first. A condition comes with `false`
around its other branch. -/
structure Code.Statement where
  around : List (String × Bool)
  text : String

namespace Code

mutual

/-- The lines of a piece of code that stands under the given headers. -/
def statements (around : List (String × Bool)) : Code → List Statement
  | .line text => [⟨around, text⟩]
  | .blank => []
  | .snippet text => [⟨around, text⟩]
  | .block header body _ => statementsAll (around ++ [(header, true)]) body
  | .branch header yes no =>
    statementsAll (around ++ [(header, true)]) yes ++ statementsAll (around ++ [(header, false)]) no

/-- The lines of pieces of code that stand under the given headers. -/
def statementsAll (around : List (String × Bool)) : List Code → List Statement
  | [] => []
  | c :: cs => statements around c ++ statementsAll around cs

end

end Code

/-- The member that a statement calls the given method on. -/
def Text.receiver? (method text : String) : Option String :=
  match "self.".toList.isPrefixOf? text.toList with
  | some rest =>
    if ('.' :: method.toList ++ ['(']).isPrefixOf (rest.dropWhile Name.isPart) then
      some (String.ofList (rest.takeWhile Name.isPart))
    else none
  | none => none

/-- The members that code under the given headers calls a method on, in order, each with the headers
around the call. -/
def Code.callsUnder (around : List (String × Bool)) (method : String) (code : List Code) :
    List (String × List (String × Bool)) :=
  (statementsAll around code).filterMap fun s =>
    (Text.receiver? method s.text).map fun name => (name, s.around)

/-- The members that code calls a method on, in order, each with the headers around the call. -/
def Code.calls (method : String) (code : List Code) : List (String × List (String × Bool)) :=
  callsUnder [] method code

/-- A call on a member is read off by the name between `self` and the method. -/
theorem Text.receiver?_eq {method text name : String} {tail : List Char}
    (htext : text.toList = "self.".toList ++ (name.toList ++ '.' :: tail))
    (hname : ∀ c ∈ name.toList, Name.isPart c = true) :
    receiver? method text =
      if (method.toList ++ ['(']).isPrefixOf tail then some name else none := by
  have hstop : Name.isPart '.' = false := rfl
  have hrest : "self.".toList.isPrefixOf? ("self.".toList ++ (name.toList ++ '.' :: tail)) =
      some (name.toList ++ '.' :: tail) :=
    List.isPrefixOf?_eq_some_iff_append_eq.2 rfl
  rw [receiver?, htext, hrest]
  dsimp only
  rw [List.dropWhile_append_of_pos hname, List.takeWhile_append_of_pos hname,
    List.dropWhile_cons_of_neg (by simp [hstop]), List.takeWhile_cons_of_neg (by simp [hstop])]
  simp

namespace Code

variable {around : List (String × Bool)} {method : String}

@[simp] theorem callsUnder_nil : callsUnder around method [] = [] := rfl

@[simp] theorem callsUnder_append (first second : List Code) :
    callsUnder around method (first ++ second) =
      callsUnder around method first ++ callsUnder around method second := by
  induction first with
  | nil => rfl
  | cons c cs ih =>
    simp only [callsUnder, List.cons_append, statementsAll, List.filterMap_append] at ih ⊢
    rw [ih, List.append_assoc]

@[simp] theorem callsUnder_line (text : String) (code : List Code) :
    callsUnder around method (.line text :: code) =
      ((Text.receiver? method text).map fun name => (name, around)).toList ++
        callsUnder around method code := by
  rw [callsUnder, statementsAll, statements, List.filterMap_append, callsUnder]
  cases h : Text.receiver? method text <;> simp [h]

@[simp] theorem callsUnder_blank (code : List Code) :
    callsUnder around method (.blank :: code) = callsUnder around method code := rfl

@[simp] theorem callsUnder_nest (header : String) (body code : List Code) :
    callsUnder around method (.nest header body :: code) =
      callsUnder (around ++ [(header, true)]) method body ++ callsUnder around method code := by
  simp [callsUnder, statementsAll, nest, statements]

/-- Calls on the two sides of a branch stand under its header with the side they are on. -/
@[simp] theorem callsUnder_branch (header : String) (yes no code : List Code) :
    callsUnder around method (.branch header yes no :: code) =
      callsUnder (around ++ [(header, true)]) method yes ++
        callsUnder (around ++ [(header, false)]) method no ++ callsUnder around method code := by
  simp [callsUnder, statementsAll, statements]

/-- Code put together from pieces has their calls in order. -/
theorem callsUnder_flatMap {α : Type} (l : List α) (code : α → List Code) :
    callsUnder around method (l.flatMap code) =
      l.flatMap fun x => callsUnder around method (code x) := by
  induction l with
  | nil => rfl
  | cons x l ih => rw [List.flatMap_cons, callsUnder_append, ih, List.flatMap_cons]

end Code

/-! ### Fields -/

namespace Field

/-- Whether some viewer may observe the field. -/
def isObservable (f : Field Node) : Bool :=
  f.effectivePrivacy != .nobody

/-- The condition under which a field is shown, unless it is shown always or never: the field of the
privacy holds the viewer, or its rule admits the viewer. -/
def gate? (f : Field Node) : Option String :=
  match f.effectivePrivacy with
  | .viewerIs viewer => some ("__item." ++ viewer ++ ".get() == __viewer")
  | .useCustom rule => some ("__item.__policy_" ++ rule ++ "(&__viewer)")
  | .everyone | .nobody => none

end Field

/-- The observable fields of a structure that have a delta: all but those written as a message. -/
def Structure.shownFields (s : Structure Node) : List (Field Node) :=
  s.fields.filter fun f => f.isObservable && f.type.message?.isNone

namespace Target

variable {t : Table} {s : Structure Node} {f : Field Node}

/-- In a well-formed structure, the fields with a delta type are those that are shown, for no table
states a privacy. -/
theorem map_field_syncedFields (hs : s.WellFormed t) :
    (syncedFields t s).map SyncedField.field = s.shownFields := by
  have hdelta : ∀ f ∈ s.fields.filter Field.isObservable,
      ((f.type.deltaType? t (siteOf s)).map fun d => SyncedField.mk f d).map SyncedField.field =
        Option.guard (fun f : Field Node => f.type.message?.isNone) f := by
    intro f hf
    obtain ⟨hf, hobservable⟩ := List.mem_filter.1 hf
    unfold Node.deltaType? Option.guard Node.message?
    cases hk : f.type.kind with
    | table record =>
      -- The privacy of the field would be stated.
      have hstated : f.privacy ≠ none := by
        intro hnone
        simp [Field.isObservable, Field.effectivePrivacy, hnone] at hobservable
      have hself : f.type.reference? = none := Node.reference?_eq_none_iff.2 (by simp [hk])
      exact absurd ⟨record, f.type, .self hself, hk⟩ (hs.tables f hf hstated)
    | _ => simp [hk]
  show ((s.fields.filter Field.isObservable).filterMap _).map SyncedField.field = _
  rw [List.map_filterMap, List.filterMap_congr hdelta, List.filterMap_eq_filter, List.filter_filter]
  simp only [Structure.shownFields, Bool.and_comm]

/-! ### Statements of a delta -/

/-- The statement that shows a field calls `show` on its member and nothing else. -/
theorem receiver?_showStatement (hname : ∀ c ∈ f.name.toList, Name.isPart c = true) :
    Text.receiver? "show" (showStatement t f) = some f.name ∧
      Text.receiver? "hide" (showStatement t f) = none := by
  obtain ⟨rest, htext⟩ : ∃ rest, (showStatement t f).toList =
      "self.".toList ++ (f.name.toList ++ '.' :: ("show(".toList ++ rest)) := by
    simp only [showStatement, String.toList_append, List.append_assoc]
    exact ⟨_, rfl⟩
  rw [Text.receiver?_eq htext hname, Text.receiver?_eq htext hname]
  exact ⟨if_pos rfl, if_neg Bool.false_ne_true⟩

/-- The statement that hides a field calls `hide` on its member and nothing else. -/
theorem receiver?_hideStatement (hname : ∀ c ∈ f.name.toList, Name.isPart c = true) :
    Text.receiver? "show" (hideStatement f) = none ∧
      Text.receiver? "hide" (hideStatement f) = some f.name := by
  obtain ⟨rest, htext⟩ : ∃ rest, (hideStatement f).toList =
      "self.".toList ++ (f.name.toList ++ '.' :: ("hide(".toList ++ rest)) := by
    simp only [hideStatement, String.toList_append, List.append_assoc]
    exact ⟨_, rfl⟩
  rw [Text.receiver?_eq htext hname, Text.receiver?_eq htext hname]
  exact ⟨if_neg Bool.false_ne_true, if_pos rfl⟩

/-- A field is shown on the first side of its gate. -/
theorem calls_show_showField (hname : ∀ c ∈ f.name.toList, Name.isPart c = true)
    (hf : f.isObservable = true) (around : List (String × Bool)) :
    Code.callsUnder around "show" (showField t f) =
      [(f.name, around ++ f.gate?.toList.map fun gate => ("if " ++ gate, true))] := by
  have hshow := (receiver?_showStatement (t := t) hname).1
  have hhide := (receiver?_hideStatement hname).1
  unfold showField Field.gate?
  cases hp : f.effectivePrivacy with
  | nobody => simp [Field.isObservable, hp] at hf
  | _ => simp [hshow, hhide]

/-- A field with a gate is retracted on the other side of it. -/
theorem calls_hide_showField (hname : ∀ c ∈ f.name.toList, Name.isPart c = true)
    (around : List (String × Bool)) :
    Code.callsUnder around "hide" (showField t f) =
      f.gate?.toList.map fun gate => (f.name, around ++ [("if " ++ gate, false)]) := by
  have hshow := (receiver?_showStatement (t := t) hname).2
  have hhide := (receiver?_hideStatement hname).2
  unfold showField Field.gate?
  cases f.effectivePrivacy <;> simp [hshow, hhide]

/-- The headers around the statements of a delta that show fields. -/
def showHeaders (type : String) : List (String × Bool) :=
  [("impl " ++ type ++ "Delta", true),
    ("pub fn show(&mut self, __item: &" ++ type ++ ", __writer: &mut PrivateLazyDeltaWriter)",
      true)]

/-- The line of a member calls nothing. -/
theorem receiver?_member {name : String} (hname : ∀ c ∈ name.toList, Name.isPart c = true)
    (method rest : String) : Text.receiver? method (name ++ ": " ++ rest) = none := by
  have hnone : "self.".toList.isPrefixOf? (name ++ ": " ++ rest).toList = none := by
    refine Option.eq_none_iff_forall_ne_some.2 fun tail htail => ?_
    rw [List.isPrefixOf?_eq_some_iff_append_eq, String.toList_append, String.toList_append,
      List.append_assoc] at htail
    -- The name is longer than the prefix and has its dot, or the colon is in the prefix.
    rcases List.append_eq_append_iff.1 htail with ⟨more, hmore, -⟩ | ⟨more, hmore, hcolon⟩
    · have hdot := hname '.' (by simp [hmore])
      simp [Name.isPart] at hdot
    · cases more with
      | nil =>
        have hdot := hname '.' (by rw [← List.append_nil name.toList, ← hmore]; decide)
        simp [Name.isPart] at hdot
      | cons c more =>
        have hc : ':' = c := (List.cons.inj hcolon).1
        have hmem : ':' ∈ "self.".toList := by
          rw [hmore, hc]
          exact List.mem_append_right _ List.mem_cons_self
        exact absurd hmem (by decide)
  rw [Text.receiver?, hnone]

/-- A delta calls methods on members only where it shows fields. -/
theorem calls_delta (hs : s.WellFormed t) (method type : String) :
    Code.calls method (delta t type s) =
      ((syncedFields t s).map SyncedField.field).flatMap fun f =>
        Code.callsUnder (showHeaders type) method (showField t f) := by
  -- Members of the delta are no calls.
  have hmembers : ∀ around, Code.callsUnder around method ((syncedFields t s).map fun x =>
      .line (x.field.name ++ ": " ++ x.deltaType ++ ",")) = [] := by
    intro around
    rw [List.map_eq_flatMap, Code.callsUnder_flatMap, List.flatMap_eq_nil_iff]
    intro x hx
    have hf : x.field ∈ s.fields := syncedFields_sublist.subset (List.mem_map_of_mem hx)
    have hcall := receiver?_member (Name.isPart_of_memberProblem? (hs.field_names _ hf)) method
      (x.deltaType ++ ",")
    simp [String.append_assoc] at hcall ⊢
    simp [hcall]
  have hnone : ∀ text ∈ ["#[derive(Default)]", "__emitted: bool,", "Self::default()",
      "let __viewer = __writer.viewer().clone();", "let mut __obj = __writer.plan_object();",
      "__obj.end();", "self.__emitted = true;", "self.__emitted = false;",
      "__writer.write_null();"], Text.receiver? method text = none := by
    simp only [List.forall_mem_cons, List.not_mem_nil, false_imp_iff, implies_true, and_true]
    exact ⟨rfl, rfl, rfl, rfl, rfl, rfl, rfl, rfl, rfl⟩
  simp only [List.forall_mem_cons, List.not_mem_nil, false_imp_iff, implies_true, and_true] at hnone
  unfold delta deltaOf Code.calls
  simp [hnone, hmembers, shortFunction, Code.callsUnder_flatMap, List.flatMap_map, showHeaders]

end Target

/-! ### Deltas by identity -/

/-- A field with the address of its type. -/
structure PlacedField where
  address : Address
  field : Field Node

/-- The fields of a structure at an address. -/
def Structure.placedFields (s : Structure Node) (a : Address) : List PlacedField :=
  s.fields.zipIdx.map fun f => ⟨a.below (.field f.2), f.1⟩

namespace View

/-- The type of a field's delta, read by the identities of its nodes. -/
def deltaType? (v : View) (identity : Address → Nat) (a : Address) (n : Node) : Option String :=
  match n.kind with
  | .table _ | .message _ => none
  | _ => some (v.expand identity [] a n).deltaType

/-- The fields that reach viewers. -/
def syncedFields (v : View) (identity : Address → Nat) (fields : List PlacedField) :
    List Target.SyncedField :=
  (fields.filter fun x => x.field.isObservable).filterMap fun x =>
    (v.deltaType? identity x.address x.field.type).map fun d => ⟨x.field, d⟩

/-- The delta of a structure with the given fields. -/
def delta (v : View) (identity : Address → Nat) (type : String) (fields : List PlacedField) :
    List Code :=
  Target.deltaOf v.table type (v.syncedFields identity fields)

end View

namespace Checked

variable {c : Checked} (ids : c.table.Identities) {a : Address} {p : Part} {s : Structure Node}

/-- By identity and by site, the same fields reach viewers. -/
theorem syncedFields_view (hp : c.table.at? a = some p) (hs : p.structure? = some s) :
    (c.view ids).syncedFields ids.of (s.placedFields a) = Target.syncedFields c.table s := by
  have hdelta : ∀ x ∈ s.fields.zipIdx,
      (c.view ids).deltaType? ids.of (a.below (.field x.2)) x.1.type =
        x.1.type.deltaType? c.table (Target.siteOf s) := by
    rintro ⟨f, i⟩ hx
    have hfield : s.member? (.field i) = some f.type := by
      rw [Structure.member?, List.mk_mem_zipIdx_iff_getElem?.1 hx, Option.map_some]
    -- A field has the address of the structure and one step.
    have hat : c.table.at? (a.below (.field i)) = some (.type (some s) f.type) :=
      Table.at?_below hp (Part.below?_eq_some_iff.2 (.inl ⟨s, f.type, hs, hfield, rfl⟩))
    unfold View.deltaType? Node.deltaType? Node.shape
    rw [expand_view ids [] hat]
    rfl
  have hfields : s.fields = s.fields.zipIdx.map Prod.fst := by simp
  unfold View.syncedFields Target.syncedFields Structure.placedFields
  conv_rhs => rw [hfields]
  rw [List.filter_map, List.filterMap_map, List.filter_map, List.filterMap_map]
  refine List.filterMap_congr fun x hx => ?_
  have hx := hdelta x (List.mem_of_mem_filter hx)
  simp only [Function.comp_apply, hx]

end Checked

/-! ### Deployable spaces -/

namespace Declarations

variable {d : Declarations}

/-- **Deltas**: the delta of a structure of a deployable space is a function of its observable
fields, and has one member for each of them that is not written as a message. Each of these is
shown once, in the order of the fields: for everyone, or on the first side of its gate and retracted
on the other. -/
theorem delta_gated (h : d.check.isDeployable = true) (ids : d.check.table.Identities)
    {a : Address} {p : Part} {s : Structure Node} (hp : d.check.table.at? a = some p)
    (hs : p.structure? = some s) (type : String) :
    (∀ fields : List PlacedField,
        (fields.filter fun x => x.field.isObservable) =
            (s.placedFields a).filter (fun x => x.field.isObservable) →
          (d.check.view ids).delta ids.of type fields = Target.delta d.check.table type s) ∧
      ((Target.delta d.check.table type s).flatMap Code.memberNames).Nodup ∧
      (Target.delta d.check.table type s).flatMap Code.memberNames =
        "__emitted" :: s.shownFields.map Field.name ∧
      Code.calls "show" (Target.delta d.check.table type s) =
        s.shownFields.map (fun f =>
          (f.name, Target.showHeaders type ++
            f.gate?.toList.map fun gate => ("if " ++ gate, true))) ∧
      Code.calls "hide" (Target.delta d.check.table type s) =
        s.shownFields.filterMap (fun f =>
          f.gate?.map fun gate =>
            (f.name, Target.showHeaders type ++ [("if " ++ gate, false)])) := by
  have hbody : d.check.table.Occurs (.body s) := by
    cases p with
    | type scope n => exact (Table.occurs_of_at? hp).body hs
    | body r => exact Option.some.inj hs ▸ Table.occurs_of_at? hp
  have hwf := (wellFormed_of_isDeployable h).structures s hbody
  have hname : ∀ f ∈ s.shownFields, ∀ c ∈ f.name.toList, Name.isPart c = true := fun f hf =>
    Name.isPart_of_memberProblem? (hwf.field_names f (List.mem_of_mem_filter hf))
  have hobservable : ∀ f ∈ s.shownFields, f.isObservable = true := fun f hf => by
    have hf := (List.mem_filter.1 hf).2
    exact (Bool.and_eq_true_iff.1 hf).1
  refine ⟨fun fields hfields => ?_, Target.nodup_flatMap_memberNames_delta hwf type, ?_, ?_, ?_⟩
  · -- Fields that are not observable are dropped before anything is read of them.
    have hsynced := Checked.syncedFields_view ids hp hs
    rw [View.syncedFields, ← hfields] at hsynced
    rw [View.delta, View.syncedFields, hsynced]
    rfl
  · rw [Target.memberNames_delta hwf, ← List.map_map, Target.map_field_syncedFields hwf]
  · rw [Target.calls_delta hwf, Target.map_field_syncedFields hwf, List.map_eq_flatMap]
    refine List.flatMap_congr fun f hf => ?_
    exact Target.calls_show_showField (hname f hf) (hobservable f hf) _
  · rw [Target.calls_delta hwf, Target.map_field_syncedFields hwf, List.filterMap_eq_flatMap_toList]
    refine List.flatMap_congr fun f hf => ?_
    rw [Target.calls_hide_showField (hname f hf)]
    cases f.gate? <;> rfl

/-- A diary whose owner everyone may see. Its secret is for the owner, its notes are for friends,
and what is hidden is for nobody. -/
def diary : Declarations where
  space := "diary"
  root := { Structure.emptyRoot with
    fields :=
      [{ name := "hidden", type := .ofScalar .int },
       { name := "owner", type := .ofScalar .principal, privacy := some .everyone },
       { name := "secret", type := .ofScalar .string, privacy := some (.viewerIs "owner") },
       { name := "notes", type := .ofKind (.list (.ofScalar .string)),
         privacy := some (.useCustom "friends") }]
    rules := [{ name := "friends", body := "true" }] }

/-- The diary shows its owner to all, its secret and its notes behind their gates, and writes the
same delta without its hidden field. -/
theorem diary_gated :
    let t := diary.check.table
    let delta := Target.delta t "LivingDocument" diary.document
    let headers := Target.showHeaders "LivingDocument"
    diary.check.isDeployable = true ∧
      (diary.check.view t.numbered).delta t.numbered.of "LivingDocument"
        ((diary.document.placedFields ⟨none, []⟩).drop 1) = delta ∧
      Code.calls "show" delta =
        [("owner", headers),
         ("secret", headers ++ [("if __item.owner.get() == __viewer", true)]),
         ("notes", headers ++ [("if __item.__policy_friends(&__viewer)", true)])] ∧
      Code.calls "hide" delta =
        [("secret", headers ++ [("if __item.owner.get() == __viewer", false)]),
         ("notes", headers ++ [("if __item.__policy_friends(&__viewer)", false)])] := by
  intro t delta headers
  have h : diary.check.isDeployable = true :=
    isDeployable_of_isEmpty (by decide) (by decide +kernel +zetaReduce) (by cbv)
  have hroot : t.at? ⟨none, []⟩ = some (.body diary.document) := rfl
  obtain ⟨hsame, -, -, hshow, hhide⟩ := delta_gated h t.numbered hroot rfl "LivingDocument"
  exact ⟨h, hsame _ rfl, hshow, hhide⟩

end Declarations

end ReactiveSpace
