import ReactiveSpace.Proofs.Text.Quoted

/-!
# Quoted texts can not be broken out of

Whatever a text holds, `quote` makes one literal of it, on one line. Between its quotes all
characters are plain and none breaks the line, every quote is escaped and no backslash is left open
(`Enclosed`), so in front of any source the literal ends with its own closing quote and denotes the
text (`quote_sealed`).

`quoteChar_cases` says what is written for one character. The characters of a text follow each other
without a backslash left open in between, so a quote is escaped by the piece that it stands in.
-/

namespace ReactiveSpace.Text

/-! ### What closes a literal -/

/-- The characters after which a new line starts. -/
def lineBreaks : List Char :=
  ['\n', '\x0b', '\x0c', '\r', '\u0085', '\u2028', '\u2029']

/-- Whether a character is escaped, if the one before it is or is not and stands here. -/
def escapeStep (escaped : Bool) (c : Char) : Bool :=
  !escaped && c == '\\'

/-- Whether the character behind `cs` is escaped: `cs` ends with a backslash that is not escaped
itself. -/
def escapesNext (cs : List Char) : Bool :=
  cs.foldl escapeStep false

/-- What may stand between the quotes of a literal on one line. -/
structure Enclosed (cs : List Char) : Prop where
  plain : ∀ c ∈ cs, isPlain c = true
  one_line : ∀ c ∈ cs, c ∉ lineBreaks
  quotes_escaped : ∀ before after, cs = before ++ '"' :: after → escapesNext before = true
  closed : escapesNext cs = false

/-- What the literal in front of some source denotes, read from a place in it on, with the source
behind its closing quote. -/
def splitFrom? : Place → List Char → Option (List Char × List Char)
  | .after, rest => some ([], rest)
  | _, [] => none
  | p, c :: cs =>
    match p.step? c with
    | some (found, next) => (splitFrom? next cs).map fun split => (found ++ split.1, split.2)
    | none => none

/-- The text of the literal in front of some source, with the source behind it. -/
def splitLiteral? (source : List Char) : Option (List Char × List Char) :=
  splitFrom? .before source

theorem splitFrom?_after (rest : List Char) : splitFrom? .after rest = some ([], rest) := by
  cases rest <;> rfl

/-- A literal that is read to its end is read alike in front of any source. -/
theorem splitFrom?_append {p : Place} {cs text : List Char} (h : readFrom? p cs = some text)
    (rest : List Char) : splitFrom? p (cs ++ rest) = some (text, rest) := by
  induction cs generalizing p text with
  | nil =>
    cases p with
    | after =>
      obtain rfl : [] = text := Option.some.inj h
      exact splitFrom?_after rest
    | _ => cases h
  | cons c cs ih =>
    cases hstep : p.step? c with
    | none =>
      rw [readFrom?, hstep] at h
      cases h
    | some step =>
      obtain ⟨found, next⟩ := step
      rw [readFrom?_cons hstep] at h
      obtain ⟨behind, hbehind, rfl⟩ := Option.map_eq_some_iff.1 h
      -- The literal has not ended yet, as there is a step.
      have hafter : p ≠ .after := by
        rintro rfl
        cases hstep
      rw [List.cons_append, splitFrom?, hstep]
      · dsimp only
        rw [ih hbehind]
        rfl
      · exact hafter

/-! ### One character -/

/-- The digits of a number in hexadecimal are the sixteen digits. -/
theorem mem_hexDigits {n : Nat} {c : Char} (h : c ∈ hexDigits n) :
    ∃ d < 16, c = Nat.digitChar d := by
  induction n using Nat.strongRecOn with
  | ind n ih =>
    rw [hexDigits_eq_if] at h
    split at h
    · rename_i hlt
      exact ⟨n, hlt, List.mem_singleton.1 h⟩
    · rename_i hge
      rcases List.mem_append.1 h with h | h
      · exact ih (n / 16) (by omega) h
      · exact ⟨n % 16, Nat.mod_lt n (by decide), List.mem_singleton.1 h⟩

/-- What stands for a character: a backslash and a letter, the character itself, or its code
point. -/
theorem quoteChar_cases (c : Char) :
    (∃ letter, unescape? letter = some c ∧ quoteChar c = ['\\', letter]) ∨
    (isPlain c = true ∧ c ≠ '"' ∧ c ≠ '\\' ∧ quoteChar c = [c]) ∨
    quoteChar c = '\\' :: 'u' :: '\x7b' :: (hexDigits c.toNat ++ ['\x7d']) := by
  unfold quoteChar
  split
  iterate 5 exact .inl ⟨_, rfl, rfl⟩
  rename_i hquote hbackslash _ _ _
  split
  · rename_i hzero
    obtain rfl : c = '\x00' := Char.toNat_inj.1 hzero
    exact .inl ⟨'0', rfl, rfl⟩
  · split
    · rename_i hplain
      exact .inr (.inl ⟨hplain, hquote, hbackslash, rfl⟩)
    · exact .inr (.inr rfl)

/-- The letter of an escape is plain. -/
theorem isPlain_of_unescape? {letter c : Char} (h : unescape? letter = some c) :
    isPlain letter = true := by
  unfold unescape? at h
  split at h
  all_goals first
    | rfl
    | cases h

/-- Nothing but plain characters is written. -/
theorem isPlain_of_mem_quoteChar {c d : Char} (h : d ∈ quoteChar c) : isPlain d = true := by
  have hdigit : ∀ k < 16, isPlain (Nat.digitChar k) = true := by decide
  rcases quoteChar_cases c with ⟨letter, hletter, heq⟩ | ⟨hplain, -, -, heq⟩ | heq
  · rw [heq, List.mem_cons, List.mem_singleton] at h
    rcases h with rfl | rfl
    · rfl
    · exact isPlain_of_unescape? hletter
  · rw [heq, List.mem_singleton] at h
    rwa [h]
  · simp only [heq, List.mem_cons, List.mem_append, List.not_mem_nil, or_false] at h
    rcases h with rfl | rfl | rfl | h | rfl
    iterate 3 rfl
    · obtain ⟨k, hk, rfl⟩ := mem_hexDigits h
      exact hdigit k hk
    · rfl

/-- A plain character breaks no line. -/
theorem notMem_lineBreaks_of_isPlain {c : Char} (h : isPlain c = true) : c ∉ lineBreaks := by
  have hbreaks : lineBreaks.filter isPlain = [] := by decide
  intro hc
  have hplain : c ∈ lineBreaks.filter isPlain := List.mem_filter.2 ⟨hc, h⟩
  rw [hbreaks] at hplain
  cases hplain

/-! ### Escapes -/

theorem escapesNext_append_of_closed {cs : List Char} (h : escapesNext cs = false)
    (ds : List Char) : escapesNext (cs ++ ds) = escapesNext ds := by
  rw [escapesNext, List.foldl_append, show cs.foldl escapeStep false = false from h, escapesNext]

/-- Without a backslash nothing is escaped. -/
theorem escapesNext_of_notMem {cs : List Char} (h : '\\' ∉ cs) : escapesNext cs = false := by
  induction cs with
  | nil => rfl
  | cons c cs ih =>
    rw [List.mem_cons, not_or] at h
    have hfirst : escapesNext [c] = false := by
      simp [escapesNext, escapeStep, Ne.symm h.1]
    rw [← List.singleton_append, escapesNext_append_of_closed hfirst]
    exact ih h.2

/-- The digits of a code point and the brace behind them hold no character that matters to an
escape. -/
theorem notMem_code (n : Nat) : '\\' ∉ hexDigits n ++ ['\x7d'] ∧ '"' ∉ hexDigits n ++ ['\x7d'] := by
  have hdigit : ∀ k < 16, '\\' ≠ Nat.digitChar k ∧ '"' ≠ Nat.digitChar k := by decide
  constructor <;> intro h <;> rcases List.mem_append.1 h with h | h
  · obtain ⟨k, hk, heq⟩ := mem_hexDigits h
    exact (hdigit k hk).1 heq
  · exact absurd h (by decide)
  · obtain ⟨k, hk, heq⟩ := mem_hexDigits h
    exact (hdigit k hk).2 heq
  · exact absurd h (by decide)

/-- What stands for a character leaves no backslash open. -/
theorem escapesNext_quoteChar (c : Char) : escapesNext (quoteChar c) = false := by
  rcases quoteChar_cases c with ⟨letter, -, heq⟩ | ⟨-, -, hbackslash, heq⟩ | heq
  · rw [heq]
    rfl
  · rw [heq]
    exact escapesNext_of_notMem (by simpa using Ne.symm hbackslash)
  · -- The backslash escapes the letter, and none comes behind it.
    have hlead : escapesNext ['\\', 'u', '\x7b'] = false := rfl
    rw [heq]
    exact (escapesNext_append_of_closed hlead _).trans (escapesNext_of_notMem (notMem_code _).1)

/-- A quote in what stands for a character is escaped there. -/
theorem escapesNext_of_quoteChar_eq {c : Char} {before after : List Char}
    (h : quoteChar c = before ++ '"' :: after) : escapesNext before = true := by
  rcases quoteChar_cases c with ⟨letter, -, heq⟩ | ⟨-, hquote, -, heq⟩ | heq
  · -- Only the letter can be the quote.
    rw [heq] at h
    match before with
    | [] => cases h
    | [b] =>
      obtain rfl : '\\' = b := (List.cons.inj h).1
      rfl
    | _ :: _ :: _ => simp at h
  · have hmem : '"' ∈ quoteChar c := h ▸ List.mem_append_right _ List.mem_cons_self
    rw [heq, List.mem_singleton] at hmem
    exact absurd hmem.symm hquote
  · have hmem : '"' ∈ quoteChar c := h ▸ List.mem_append_right _ List.mem_cons_self
    rw [heq] at hmem
    simp only [List.mem_cons, Char.reduceEq, false_or] at hmem
    exact absurd hmem (notMem_code _).2

/-! ### Texts -/

/-- A quoted text leaves no backslash open. -/
theorem escapesNext_flatMap_quoteChar (cs : List Char) :
    escapesNext (cs.flatMap quoteChar) = false := by
  induction cs with
  | nil => rfl
  | cons c cs ih =>
    rw [List.flatMap_cons, escapesNext_append_of_closed (escapesNext_quoteChar c), ih]

/-- A quote in what stands for a text is escaped. -/
theorem escapesNext_of_flatMap_quoteChar_eq {cs before after : List Char}
    (h : cs.flatMap quoteChar = before ++ '"' :: after) : escapesNext before = true := by
  induction cs generalizing before with
  | nil => simp at h
  | cons c cs ih =>
    rw [List.flatMap_cons] at h
    -- The quote stands behind the piece of the first character, or in it.
    rcases List.append_eq_append_iff.1 h with ⟨behind, rfl, hbehind⟩ | ⟨tail, hpiece, htail⟩
    · rw [escapesNext_append_of_closed (escapesNext_quoteChar c)]
      exact ih hbehind
    · cases tail with
      | nil =>
        -- It is the first behind it, where nothing is escaped.
        have hfirst : escapesNext [] = true := ih htail.symm
        cases hfirst
      | cons q tail =>
        obtain rfl : '"' = q := (List.cons.inj htail).1
        exact escapesNext_of_quoteChar_eq hpiece

theorem isPlain_of_mem_flatMap_quoteChar {cs : List Char} {d : Char}
    (h : d ∈ cs.flatMap quoteChar) : isPlain d = true := by
  obtain ⟨c, -, hc⟩ := List.mem_flatMap.1 h
  exact isPlain_of_mem_quoteChar hc

theorem enclosed_flatMap_quoteChar (cs : List Char) : Enclosed (cs.flatMap quoteChar) where
  plain _ := isPlain_of_mem_flatMap_quoteChar
  one_line _ hd := notMem_lineBreaks_of_isPlain (isPlain_of_mem_flatMap_quoteChar hd)
  quotes_escaped _ _ := escapesNext_of_flatMap_quoteChar_eq
  closed := escapesNext_flatMap_quoteChar cs

/-- **Quoted texts are sealed.** A quoted text stands between two quotes, and what is between them
does not end the line or the literal. It is a literal that denotes the text, and so it is in front
of any source. -/
theorem quote_sealed (text : String) :
    (∃ body, (quote text).toList = '"' :: (body ++ ['"']) ∧ Enclosed body) ∧
      unquote? (quote text) = some text ∧
      ∀ rest, splitLiteral? ((quote text).toList ++ rest) = some (text.toList, rest) := by
  refine ⟨⟨text.toList.flatMap quoteChar, ?_, enclosed_flatMap_quoteChar _⟩,
    unquote?_quote text, fun rest => ?_⟩
  · rw [quote, String.toList_ofList]
  · obtain ⟨read, hread, heq⟩ := Option.map_eq_some_iff.1 (unquote?_quote text)
    rw [splitLiteral?, splitFrom?_append hread, ← heq, String.toList_ofList]

end ReactiveSpace.Text
