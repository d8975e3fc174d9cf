import Mathlib.Data.List.Basic
import ReactiveSpace.Proofs.Schema.Name
import ReactiveSpace.Text.Blank

/-!
# Reading names off a text

A `Template` is a text with places for names. What is filled into it can be read off the text again,
whatever comes behind, for no piece of a template goes on with the name before it
(`Template.read?_eq`). A text of several lines is first taken apart (`lines_joined`).
-/

namespace ReactiveSpace.Text

/-- A text with places for names. -/
structure Template where
  lead : String
  /-- What stands behind each of the names. -/
  pieces : List String
  /-- No piece starts with what may be part of a name. -/
  stops : ∀ p ∈ pieces, p.toList.head?.any (fun c => !Name.isPart c) = true

namespace Template

/-- The template with names in its places. -/
def fill (T : Template) (names : List String) : String :=
  (names.zip T.pieces).foldl (fun text p => text ++ p.1 ++ p.2) T.lead

/-- The names that stand before the pieces. -/
def readPieces? : List String → List Char → Option (List String)
  | [], _ => some []
  | piece :: pieces, text =>
    match piece.toList.isPrefixOf? (text.dropWhile Name.isPart) with
    | some rest => (readPieces? pieces rest).map (String.ofList (text.takeWhile Name.isPart) :: ·)
    | none => none

/-- The names that a text has in the places of the template, if the text starts like it. -/
def read? (T : Template) (text : String) : Option (List String) :=
  (T.lead.toList.isPrefixOf? text.toList).bind (readPieces? T.pieces)

theorem toList_fill (T : Template) (names : List String) : (T.fill names).toList =
    T.lead.toList ++ (names.zip T.pieces).flatMap fun p => p.1.toList ++ p.2.toList := by
  have hfold : ∀ (filled : List (String × String)) (lead : String),
      (filled.foldl (fun text p => text ++ p.1 ++ p.2) lead).toList =
        lead.toList ++ filled.flatMap fun p => p.1.toList ++ p.2.toList := by
    intro filled
    induction filled with
    | nil => simp
    | cons p filled ih => intro lead; simp [ih]
  exact hfold _ _

theorem readPieces?_zip {pieces names : List String} (rest : List Char)
    (hstops : ∀ p ∈ pieces, p.toList.head?.any (fun c => !Name.isPart c) = true)
    (hlength : names.length = pieces.length)
    (hnames : ∀ name ∈ names, ∀ c ∈ name.toList, Name.isPart c = true) :
    readPieces? pieces ((names.zip pieces).flatMap (fun p => p.1.toList ++ p.2.toList) ++ rest) =
      some names := by
  induction pieces generalizing names with
  | nil =>
    rw [List.length_nil, List.length_eq_zero_iff] at hlength
    rw [hlength]
    rfl
  | cons piece pieces ih =>
    obtain _ | ⟨name, names⟩ := names
    · simp at hlength
    rw [List.forall_mem_cons] at hstops hnames
    have hrest := ih hstops.2 (by simpa using hlength) hnames.2
    obtain ⟨c, cs, hpiece, hc⟩ : ∃ c cs, piece.toList = c :: cs ∧ Name.isPart c = false := by
      have hstop := hstops.1
      cases hpiece : piece.toList with
      | nil => simp [hpiece] at hstop
      | cons c cs => exact ⟨c, cs, rfl, by simpa [hpiece] using hstop⟩
    -- The name ends where its piece starts.
    let behind := (names.zip pieces).flatMap (fun p => p.1.toList ++ p.2.toList) ++ rest
    have htext : ((name :: names).zip (piece :: pieces)).flatMap
        (fun p => p.1.toList ++ p.2.toList) ++ rest = name.toList ++ c :: (cs ++ behind) := by
      simp [hpiece, behind]
    have hprefix : (c :: cs).isPrefixOf? (c :: (cs ++ behind)) = some behind :=
      List.isPrefixOf?_eq_some_iff_append_eq.2 rfl
    rw [readPieces?, htext, List.dropWhile_append_of_pos hnames.1,
      List.takeWhile_append_of_pos hnames.1, List.dropWhile_cons_of_neg (by simp [hc]),
      List.takeWhile_cons_of_neg (by simp [hc]), hpiece, hprefix, List.append_nil]
    simp [behind, hrest]

/-- What is filled into a template is read off a text that starts so. -/
theorem read?_eq {T : Template} {names : List String} {text : String} (rest : List Char)
    (htext : text.toList = (T.fill names).toList ++ rest) (hlength : names.length = T.pieces.length)
    (hnames : ∀ name ∈ names, ∀ c ∈ name.toList, Name.isPart c = true) :
    T.read? text = some names := by
  rw [toList_fill, List.append_assoc] at htext
  rw [read?, List.isPrefixOf?_eq_some_iff_append_eq.2 htext.symm, Option.bind_some]
  exact readPieces?_zip rest T.stops hlength hnames

/-- What is filled into a template is read off again. -/
theorem read?_fill {T : Template} {names : List String} {text : String}
    (htext : text = T.fill names) (hlength : names.length = T.pieces.length)
    (hnames : ∀ name ∈ names, ∀ c ∈ name.toList, Name.isPart c = true) :
    T.read? text = some names :=
  read?_eq [] (by rw [htext, List.append_nil]) hlength hnames

/-- A text where something other than the first piece stands behind the name is none of the
template. -/
theorem read?_eq_none_of_piece {T : Template} {text name piece : String} {pieces : List String}
    {rest : List Char} (hpieces : T.pieces = piece :: pieces)
    (htext : text.toList = T.lead.toList ++ (name.toList ++ rest))
    (hname : ∀ c ∈ name.toList, Name.isPart c = true)
    (hstop : rest.head?.any (fun c => !Name.isPart c) = true)
    (hpiece : piece.toList.isPrefixOf? rest = none) : T.read? text = none := by
  obtain ⟨c, cs, rfl⟩ : ∃ c cs, rest = c :: cs := by
    cases rest with
    | nil => simp at hstop
    | cons c cs => exact ⟨c, cs, rfl⟩
  have hc : Name.isPart c = false := by simpa using hstop
  rw [read?, List.isPrefixOf?_eq_some_iff_append_eq.2 htext.symm, Option.bind_some, hpieces,
    readPieces?, List.dropWhile_append_of_pos hname, List.dropWhile_cons_of_neg (by simp [hc]),
    hpiece]

end Template

/-! ### Lines -/

theorem splitAtChar_append {sep : Char} {first : List Char} (h : sep ∉ first) (rest : List Char) :
    splitAtChar sep (first ++ sep :: rest) = first :: splitAtChar sep rest := by
  induction first with
  | nil => simp [splitAtChar]
  | cons c cs ih =>
    rw [List.mem_cons, not_or] at h
    rw [List.cons_append, splitAtChar, if_neg (Ne.symm h.1), ih h.2]

theorem splitAtChar_eq_singleton {sep : Char} {cs : List Char} (h : sep ∉ cs) :
    splitAtChar sep cs = [cs] := by
  induction cs with
  | nil => rfl
  | cons c cs ih =>
    rw [List.mem_cons, not_or] at h
    rw [splitAtChar, if_neg (Ne.symm h.1), ih h.2]

/-- Texts that are joined by a line feed and an indentation are lines, all but the first of them
indented. -/
theorem lines_joined {indent : String} (hindent : '\n' ∉ indent.toList) (texts : List String) :
    ∀ text, (∀ x ∈ text :: texts, '\n' ∉ x.toList) →
      lines (("\n" ++ indent).intercalate (text :: texts)) = text :: texts.map (indent ++ ·) := by
  -- The induction needs a lead in front of the first line: behind a break it is the indent.
  have hlines : ∀ (texts : List String) (lead text : String), '\n' ∉ lead.toList →
      (∀ x ∈ text :: texts, '\n' ∉ x.toList) →
      lines (lead ++ ("\n" ++ indent).intercalate (text :: texts)) =
        (lead ++ text) :: texts.map (indent ++ ·) := by
    intro texts
    induction texts with
    | nil =>
      intro lead text hlead htexts
      have htext : '\n' ∉ (lead ++ text).toList := by
        have := htexts text List.mem_cons_self
        simp_all
      rw [String.intercalate_singleton, lines, splitAtChar_eq_singleton htext]
      simp
    | cons next texts ih =>
      intro lead text hlead htexts
      rw [List.forall_mem_cons] at htexts
      have htext : '\n' ∉ (lead ++ text).toList := by
        have := htexts.1
        simp_all
      have hnext := ih indent next hindent htexts.2
      have hsplit : (lead ++ ("\n" ++ indent).intercalate (text :: next :: texts)).toList =
          (lead ++ text).toList ++
            '\n' :: (indent ++ ("\n" ++ indent).intercalate (next :: texts)).toList := by
        rw [String.intercalate_cons_cons]
        simp
      rw [lines, hsplit, splitAtChar_append htext, List.map_cons, String.ofList_toList, ← lines,
        hnext, List.map_cons]
  intro text htexts
  simpa using hlines texts "" text (by simp) htexts

end ReactiveSpace.Text
