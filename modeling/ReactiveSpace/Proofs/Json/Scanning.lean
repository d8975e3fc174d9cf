import Mathlib.Algebra.Group.Int.Defs
import Mathlib.Algebra.Group.Nat.Defs
import Mathlib.Data.List.TakeWhile
import Mathlib.Data.Option.Basic
import ReactiveSpace.Json.Value

/-!
# Scanning what was written

The scanner finds the tokens of a value in the text of the value (`Json.scan?_compact`), provided
that its numbers are found again one by one (`Number.ReadsBack`). Integers of 64 bits are
(`Number.readsBack_integer`); whether a double is depends on the rounding of its literal.

A token that is scanned alone is scanned in the same way in front of other text, if the first
character there can not belong to it. This is `scanFrom?_append`, and what follows a token in the
text of a value always begins with such a character (`Ends`).
-/

namespace ReactiveSpace.Json

namespace Token

/-! ### Text in front of text -/

/-- The first character, if there is one, ends a word and a number. -/
def Ends (cs : List Char) : Prop :=
  ∀ c ∈ cs.head?, c.isAlpha = false ∧ isNumberChar c = false

theorem ends_nil : Ends [] := by
  simp [Ends]

theorem ends_cons {c : Char} (cs : List Char) (halpha : c.isAlpha = false)
    (hnumber : isNumberChar c = false) : Ends (c :: cs) := by
  simp [Ends, halpha, hnumber]

/-- Tokens found before do not matter to those found later. -/
theorem scanFrom?_eq_map (done : List Token) (p : Place) (cs : List Char) :
    scanFrom? done p cs = (scanFrom? [] p cs).map (done.reverse ++ ·) := by
  induction cs generalizing done p with
  | nil =>
    rw [scanFrom?, scanFrom?, Option.map_map]
    rfl
  | cons c cs ih =>
    rw [scanFrom?, scanFrom?]
    cases p.step? c with
    | none => rfl
    | some found =>
      obtain ⟨found, next⟩ := found
      show scanFrom? (found.reverse ++ done) next cs =
        (scanFrom? (found.reverse ++ []) next cs).map (done.reverse ++ ·)
      rw [ih, ih (found.reverse ++ []), Option.map_map]
      congr 1
      funext tokens
      simp

/-- A token that is complete is closed by whatever ends it. -/
theorem scanFrom?_of_close? {p : Place} {last : List Token} (hp : p.close? = some last)
    (done : List Token) {rest : List Char} (hrest : Ends rest) :
    scanFrom? done p rest = scanFrom? (last.reverse ++ done) .between rest := by
  cases rest with
  | nil =>
    rw [scanFrom?, scanFrom?, hp]
    simp [Place.close?]
  | cons c rest =>
    obtain ⟨halpha, hnumber⟩ := hrest c rfl
    -- Behind a token that may end here, the next one starts as it would from between two.
    have hstep : p.step? c = (start? c).map fun next => (last ++ next.1, next.2) := by
      cases p with
      | between =>
        obtain rfl : [] = last := by simpa [Place.close?] using hp
        simp [Place.step?]
      | word seen =>
        rw [Place.step?, halpha, hp]
        cases start? c <;> rfl
      | number seen =>
        rw [Place.step?, hnumber, hp]
        cases start? c <;> rfl
      | string | escape | unit => simp [Place.close?] at hp
    have hbetween : Place.between.step? c = start? c := rfl
    rw [scanFrom?, scanFrom?, hstep, hbetween]
    cases start? c with
    | none => rfl
    | some next => simp

/-- What is scanned alone is scanned in the same way in front of text that ends it. -/
theorem scanFrom?_append {p : Place} {cs : List Char} {tokens : List Token}
    (h : scanFrom? [] p cs = some tokens) (done : List Token) {rest : List Char}
    (hrest : Ends rest) :
    scanFrom? done p (cs ++ rest) = scanFrom? (tokens.reverse ++ done) .between rest := by
  induction cs generalizing p tokens done with
  | nil =>
    -- At the end of the first text its last token is closed by what follows.
    have hclose : p.close? = some tokens := by
      simpa [scanFrom?] using h
    exact scanFrom?_of_close? hclose done hrest
  | cons c cs ih =>
    rw [scanFrom?] at h
    rw [List.cons_append, scanFrom?]
    cases hstep : p.step? c with
    | none => simp [hstep] at h
    | some found =>
      obtain ⟨found, next⟩ := found
      rw [hstep] at h
      dsimp only at h
      rw [scanFrom?_eq_map, Option.map_eq_some_iff] at h
      obtain ⟨later, hlater, rfl⟩ := h
      dsimp only
      rw [ih hlater (found.reverse ++ done)]
      simp

theorem scanFrom?_cons {c : Char} {token : Token} (h : start? c = some ([token], .between))
    (done : List Token) (rest : List Char) :
    scanFrom? done .between (c :: rest) = scanFrom? (token :: done) .between rest := by
  rw [scanFrom?, Place.step?, h]
  rfl

/-! ### Strings -/

theorem not_surrogate (c : Char) :
    isHighSurrogate c.toNat = false ∧ isLowSurrogate c.toNat = false := by
  have hvalid : c.toNat < 0xD800 ∨ (0xDFFF < c.toNat ∧ c.toNat < 0x110000) := c.valid
  simp only [isHighSurrogate, isLowSurrogate, Bool.and_eq_false_iff, decide_eq_false_iff_not]
  omega

/-- The code points of characters stand for these characters. -/
theorem joinUnits_map_toNat (cs : List Char) : joinUnits (cs.map Char.toNat) = some cs := by
  induction cs with
  | nil => rfl
  | cons c cs ih =>
    obtain ⟨hhigh, hlow⟩ := not_surrogate c
    cases cs with
    | nil => simp [joinUnits, hhigh, hlow, Char.ofNat_toNat]
    | cons d cs =>
      rw [List.map_cons, List.map_cons, joinUnits, hhigh, hlow, ← List.map_cons, ih]
      simp [Char.ofNat_toNat]

theorem hexValue?_digitChar : ∀ d < 16, hexValue? (Nat.digitChar d) = some d := by
  decide

/-- The scanner finds a character in what a literal holds for it. -/
theorem scanFrom?_escape (done : List Token) (units : List Nat) (c : Char) (rest : List Char) :
    scanFrom? done (.string units) (escape c ++ rest) =
      scanFrom? done (.string (c.toNat :: units)) rest := by
  unfold escape
  split
  iterate 7 rfl
  rename_i hquote hbackslash _ _ _ _ _
  split
  · rename_i hcontrol
    have hhigh := hexValue?_digitChar (c.toNat / 16) (by omega)
    have hlow := hexValue?_digitChar (c.toNat % 16) (by omega)
    have hzero : hexValue? '0' = some 0 := rfl
    have hchar : c.toNat / 16 * 16 + c.toNat % 16 = c.toNat := by omega
    simp [scanFrom?, Place.step?, hzero, hhigh, hlow, hchar]
  · rename_i hcontrol
    have hq : (c == '"') = false := by simpa using hquote
    have hb : (c == '\\') = false := by simpa using hbackslash
    simp [scanFrom?, Place.step?, hq, hb, hcontrol]

/-- Characters that are escaped one by one are collected, the last of them in front. -/
theorem scanFrom?_escapes (done : List Token) (units : List Nat) (cs rest : List Char) :
    scanFrom? done (.string units) (cs.flatMap escape ++ rest) =
      scanFrom? done (.string ((cs.map Char.toNat).reverse ++ units)) rest := by
  induction cs generalizing units with
  | nil => rfl
  | cons c cs ih =>
    rw [List.flatMap_cons, List.append_assoc, scanFrom?_escape, ih]
    simp

/-- A string literal is scanned as its text. -/
theorem scan?_stringText (s : String) : scan? (stringText s) = some [.string s] := by
  have hopen : start? '"' = some ([], .string []) := rfl
  rw [scan?, stringText, String.toList_ofList, scanFrom?, Place.step?, hopen]
  dsimp only
  rw [scanFrom?_escapes, scanFrom?, List.append_nil]
  have hclose : (Place.string (s.toList.map Char.toNat).reverse).step? '"' =
      some ([.string s], .between) := by
    simp [Place.step?, ofUnits, joinUnits_map_toNat]
  rw [hclose]
  rfl

end Token

/-! ### Integers -/

namespace Number

open Token

/-- The scanner finds a number again in its text. -/
def ReadsBack (n : Number) : Prop :=
  scan? n.text = some [.number n]

theorem isNumberChar_of_isDigit {c : Char} (h : c.isDigit = true) : isNumberChar c = true := by
  simp [isNumberChar, h]

/-- A digit begins one. -/
theorem start?_of_isDigit {c : Char} (h : c.isDigit = true) :
    start? c = some ([], .number [c]) := by
  unfold start?
  split
  iterate 7 exact absurd h (by decide)
  have hspace : isSpace c = false := by
    simp only [isSpace, Bool.or_eq_false_iff, beq_eq_false_iff_ne]
    refine ⟨⟨⟨?_, ?_⟩, ?_⟩, ?_⟩
    all_goals
      rintro rfl
      exact absurd h (by decide)
  simp [hspace, h]

/-- All that can belong to a number does. -/
theorem scanFrom?_number (seen : List Char) {cs : List Char} (h : ∀ c ∈ cs, isNumberChar c = true) :
    scanFrom? [] (.number seen) cs = (ofNumber? (seen.reverse ++ cs)).map ([·]) := by
  induction cs generalizing seen with
  | nil =>
    rw [scanFrom?, Place.close?, List.append_nil, Option.map_map]
    rfl
  | cons c cs ih =>
    have hc := h c List.mem_cons_self
    have hcs : ∀ d ∈ cs, isNumberChar d = true := fun d hd => h d (List.mem_cons_of_mem c hd)
    rw [scanFrom?, Place.step?, if_pos hc]
    dsimp only
    rw [List.reverse_nil, List.nil_append, ih (c :: seen) hcs]
    simp

theorem scan?_of_isDigit {c : Char} {cs : List Char} (hc : c.isDigit = true)
    (hcs : ∀ d ∈ cs, d.isDigit = true) :
    scanFrom? [] .between (c :: cs) = (ofNumber? (c :: cs)).map ([·]) := by
  rw [scanFrom?, Place.step?, start?_of_isDigit hc]
  exact scanFrom?_number [c] fun d hd => isNumberChar_of_isDigit (hcs d hd)

/-! ### Digits -/

/-- Digits are taken as they stand, up to the end. -/
theorem digits?_of_isDigit {ds : List Char} (hne : ds ≠ []) (h : ∀ c ∈ ds, c.isDigit = true) :
    digits? ds = some (ds, []) := by
  have htake : ds.takeWhile Char.isDigit = ds := List.takeWhile_eq_self_iff.2 h
  have hdrop : ds.dropWhile Char.isDigit = [] := List.dropWhile_eq_nil_iff.2 h
  unfold digits?
  rw [htake, hdrop]
  cases ds with
  | nil => exact absurd rfl hne
  | cons c cs => rfl

/-- Only the digits of zero begin with a zero. -/
theorem head?_toDigits {n : Nat} (h : 0 < n) : (Nat.toDigits 10 n).head? ≠ some '0' := by
  induction n using Nat.strongRecOn with
  | ind n ih =>
    rw [Nat.toDigits_eq_if (by decide)]
    split
    · rename_i hlt
      have hdigit : ∀ d < 10, 0 < d → Nat.digitChar d ≠ '0' := by decide
      simpa using hdigit n hlt h
    · rename_i hge
      have hpos : 0 < n / 10 := by omega
      have hrest := ih (n / 10) (by omega) hpos
      obtain ⟨d, hd⟩ := List.ne_nil_iff_exists_cons.1 (Nat.toDigits_ne_nil (n := n / 10) (b := 10))
      obtain ⟨ds, hd⟩ := hd
      rw [hd] at hrest ⊢
      exact hrest

/-- More digits never make a number smaller. It is by this that a number is known to fit before all
of it is read. -/
theorem le_ofDigitChars (start : Nat) (cs : List Char) : start ≤ Nat.ofDigitChars 10 cs start := by
  rw [Nat.ofDigitChars_eq_ofDigitChars_zero]
  have hpos : 0 < 10 ^ cs.length := Nat.pow_pos (by decide)
  exact Nat.le_add_right_of_le (Nat.le_mul_of_pos_left start hpos)

/-- Digits whose number stays below `2^64` are all kept. -/
theorem keepDigits_eq (start : Nat) (cs : List Char) (h : Nat.ofDigitChars 10 cs start < 2 ^ 64) :
    keepDigits start cs = (Nat.ofDigitChars 10 cs start, cs.length) := by
  induction cs generalizing start with
  | nil => rfl
  | cons c cs ih =>
    have hnext : start * 10 + digitValue c = 10 * start + (c.toNat - '0'.toNat) := by
      rw [digitValue, Nat.mul_comm]
    rw [Nat.ofDigitChars_cons] at h ⊢
    have hle := le_ofDigitChars (10 * start + (c.toNat - '0'.toNat)) cs
    rw [keepDigits, hnext]
    simp only [ih _ h, List.length_cons]
    rw [if_pos]
    exact Nat.lt_of_le_of_lt hle h

/-- Digits without a needless zero are a literal, and so they are behind a sign. -/
theorem ofChars?_of_isDigit {ds : List Char} (hne : ds ≠ []) (h : ∀ c ∈ ds, c.isDigit = true)
    (hzero : ds.length = 1 ∨ ds.head? ≠ some '0') :
    Literal.ofChars? ds = some ⟨false, ds, none, none⟩ ∧
      Literal.ofChars? ('-' :: ds) = some ⟨true, ds, none, none⟩ := by
  have hdigits := digits?_of_isDigit hne h
  constructor
  · cases ds with
    | nil => exact absurd rfl hne
    | cons d ds =>
      have hminus : d ≠ '-' := by
        rintro rfl
        exact absurd (h '-' List.mem_cons_self) (by decide)
      have hzero' : ds = [] ∨ ¬ d = '0' := by simpa using hzero
      simp [Literal.ofChars?, hdigits, hminus, fraction?, power?, guard, hzero']
  · simp [Literal.ofChars?, hdigits, fraction?, power?, guard, hzero]

/-- The digits of a number are a literal without a fraction or an exponent, with or without a sign.
-/
theorem ofChars?_toDigits (n : Nat) :
    Literal.ofChars? (Nat.toDigits 10 n) = some ⟨false, Nat.toDigits 10 n, none, none⟩ ∧
      Literal.ofChars? ('-' :: Nat.toDigits 10 n) = some ⟨true, Nat.toDigits 10 n, none, none⟩ := by
  refine ofChars?_of_isDigit Nat.toDigits_ne_nil
    (fun c hc => Nat.isDigit_of_mem_toDigits (by decide) (by decide) hc) ?_
  rcases Nat.eq_zero_or_pos n with rfl | hpos
  · exact Or.inl rfl
  · exact Or.inr (head?_toDigits hpos)

/-- The integer of a literal that is the digits of a number. -/
theorem value?_toDigits (negative : Bool) {n : Nat} (h : n < 2 ^ 64) :
    Literal.value? ⟨negative, Nat.toDigits 10 n, none, none⟩ =
      if negative then
        if n = 0 ∨ 2 ^ 63 < n then some (.double ⟨true, Double.roundQuotient n 1⟩)
        else some (.integer (-n))
      else some (.integer n) := by
  have hkeep : keepDigits 0 (Nat.toDigits 10 n) = (n, (Nat.toDigits 10 n).length) := by
    have hvalue : Nat.ofDigitChars 10 (Nat.toDigits 10 n) 0 = n := Nat.ofDigitChars_ten_toDigits
    rw [keepDigits_eq 0 _ (by rw [hvalue]; exact h), hvalue]
  simp [Literal.value?, hkeep]

/-- **Integers** of 64 bits, with or without a sign, are found again. -/
theorem readsBack_integer {n : Int} (hlow : -2 ^ 63 ≤ n) (hhigh : n < 2 ^ 64) :
    ReadsBack (.integer n) := by
  have hdigit : ∀ c ∈ Nat.toDigits 10 n.natAbs, c.isDigit = true :=
    fun c hc => Nat.isDigit_of_mem_toDigits (by decide) (by decide) hc
  obtain ⟨hplain, hsigned⟩ := ofChars?_toDigits n.natAbs
  have hbound : n.natAbs < 2 ^ 64 := by omega
  by_cases hneg : n < 0
  · have htext : (Number.integer n).text.toList = '-' :: Nat.toDigits 10 n.natAbs := by
      simp [text, Decimal.intText, Decimal.digitText, hneg]
    -- The sign begins the number, and the digits follow it.
    have hstart : start? '-' = some ([], .number ['-']) := rfl
    have hn : -(n.natAbs : Int) = n := by omega
    have hvalue := value?_toDigits true hbound
    rw [if_pos rfl, if_neg (by omega), hn] at hvalue
    rw [ReadsBack, scan?, htext, scanFrom?, Place.step?, hstart]
    dsimp only
    rw [List.reverse_nil, List.nil_append,
      scanFrom?_number _ fun c hc => isNumberChar_of_isDigit (hdigit c hc)]
    simp [ofNumber?, hsigned, hvalue]
  · -- The first digit begins the number.
    obtain ⟨d, ds, hds⟩ :=
      List.ne_nil_iff_exists_cons.1 (Nat.toDigits_ne_nil (n := n.natAbs) (b := 10))
    have htext : (Number.integer n).text.toList = Nat.toDigits 10 n.natAbs := by
      simp [text, Decimal.intText, Decimal.digitText, hneg]
    have hn : (n.natAbs : Int) = n := by omega
    have hvalue := value?_toDigits false hbound
    rw [if_neg (by decide), hn] at hvalue
    rw [hds] at hdigit
    rw [ReadsBack, scan?, htext, hds,
      scan?_of_isDigit (hdigit d List.mem_cons_self) fun c hc =>
        hdigit c (List.mem_cons_of_mem d hc),
      ← hds]
    simp [ofNumber?, hplain, hvalue]

end Number

/-! ### Values -/

/-- The numbers of a value are found again, one by one. -/
inductive Legible : Json → Prop
  | null : Legible .null
  | bool (b : Bool) : Legible (.bool b)
  | number {n : Number} : n.ReadsBack → Legible (.number n)
  | string (s : String) : Legible (.string s)
  | array {items : List Json} : (∀ v ∈ items, Legible v) → Legible (.array items)
  | object {members : List (String × Json)} :
    (∀ m ∈ members, Legible m.2) → Legible (.object members)

/-- The characters of tokens, one after the other. -/
def chars (tokens : List Token) : List Char :=
  tokens.flatMap fun t => t.text.toList

/-- The text of a value is that of its tokens, one behind the other. -/
theorem toList_compact (v : Json) : v.compact.toList = chars v.tokens := by
  unfold compact chars
  induction v.tokens with
  | nil => rfl
  | cons t ts ih =>
    rw [List.map_cons, String.join_cons, String.toList_append, ih]
    rfl

theorem chars_append (ts us : List Token) : chars (ts ++ us) = chars ts ++ chars us :=
  List.flatMap_append

open Token

/-- The scanner finds tokens in their characters, in front of text that ends the last of them. -/
def Scans (ts : List Token) : Prop :=
  ∀ done rest, Ends rest →
    scanFrom? done .between (chars ts ++ rest) = scanFrom? (ts.reverse ++ done) .between rest

theorem scans_nil : Scans [] :=
  fun _ _ _ => rfl

/-- A token that is scanned alone is scanned in front of text that ends it. -/
theorem scans_token {t : Token} (h : scan? t.text = some [t]) : Scans [t] := by
  intro done rest hrest
  have hchars : chars [t] = t.text.toList := by simp [chars]
  rw [hchars, scanFrom?_append h done hrest]

/-- Behind a token of one character anything may follow. -/
theorem scans_cons {t : Token} {c : Char} {ts : List Token} (htext : t.text.toList = [c])
    (hstart : start? c = some ([t], .between)) (h : Scans ts) : Scans (t :: ts) := by
  intro done rest hrest
  have hchars : chars (t :: ts) ++ rest = c :: (chars ts ++ rest) := by
    simp [chars, htext]
  rw [hchars, scanFrom?_cons hstart, h _ rest hrest]
  simp

/-- Tokens in a row are read one behind the other, if those behind begin with a character that ends
those in front. -/
theorem scans_append {ts us : List Token} (hts : Scans ts) (hus : Scans us)
    (hends : ∀ rest, Ends rest → Ends (chars us ++ rest)) : Scans (ts ++ us) := by
  intro done rest hrest
  rw [chars_append, List.append_assoc, hts done _ (hends rest hrest), hus _ rest hrest]
  simp

/-- A token of one character that is no letter and belongs to no number ends what stands before it.
-/
theorem ends_chars {t : Token} {c : Char} {us : List Token} (htext : t.text.toList = [c])
    (halpha : c.isAlpha = false) (hnumber : isNumberChar c = false) (rest : List Char) :
    Ends (chars (t :: us) ++ rest) := by
  have hchars : chars (t :: us) ++ rest = c :: (chars us ++ rest) := by
    simp [chars, htext]
  rw [hchars]
  exact ends_cons _ halpha hnumber

/-- A name and its colon, in front of the tokens of a member. -/
theorem scans_member (name : String) {ts : List Token} (h : Scans ts) :
    Scans (.string name :: .colon :: ts) := by
  have hname : Scans [.string name] := scans_token (scan?_stringText name)
  have hcolon : Scans (.colon :: ts) := scans_cons rfl rfl h
  have hends : ∀ rest, Ends rest → Ends (chars (.colon :: ts) ++ rest) :=
    fun rest _ => ends_chars rfl rfl rfl rest
  rw [← List.singleton_append]
  exact scans_append hname hcolon hends

theorem scans_closeBracket : Scans [.closeBracket] :=
  scans_cons rfl rfl scans_nil

theorem scans_closeBrace : Scans [.closeBrace] :=
  scans_cons rfl rfl scans_nil

/-- The items after the first, up to the end of the array. -/
theorem scans_itemTokens {vs : List Json} (h : ∀ v ∈ vs, Scans v.tokens) :
    Scans (itemTokens vs ++ [.closeBracket]) ∧
      ∀ rest, Ends rest → Ends (chars (itemTokens vs ++ [.closeBracket]) ++ rest) := by
  induction vs with
  | nil => exact ⟨scans_closeBracket, fun rest _ => ends_chars rfl rfl rfl rest⟩
  | cons v vs ih =>
    obtain ⟨hscans, hends⟩ := ih fun w hw => h w (List.mem_cons_of_mem v hw)
    rw [itemTokens, List.cons_append, List.append_assoc]
    refine ⟨scans_cons rfl rfl ?_, fun rest _ => ends_chars rfl rfl rfl rest⟩
    exact scans_append (h v List.mem_cons_self) hscans hends

/-- The members after the first, up to the end of the object. -/
theorem scans_memberTokens {ms : List (String × Json)} (h : ∀ m ∈ ms, Scans m.2.tokens) :
    Scans (memberTokens ms ++ [.closeBrace]) ∧
      ∀ rest, Ends rest → Ends (chars (memberTokens ms ++ [.closeBrace]) ++ rest) := by
  induction ms with
  | nil => exact ⟨scans_closeBrace, fun rest _ => ends_chars rfl rfl rfl rest⟩
  | cons m ms ih =>
    obtain ⟨name, v⟩ := m
    obtain ⟨hscans, hends⟩ := ih fun m' hm => h m' (List.mem_cons_of_mem _ hm)
    simp only [memberTokens, List.cons_append, List.append_assoc]
    refine ⟨scans_cons rfl rfl ?_, fun rest _ => ends_chars rfl rfl rfl rest⟩
    exact scans_member name (scans_append (h (name, v) List.mem_cons_self) hscans hends)

/-- **Values**: the scanner finds the tokens of a value whose numbers it finds. -/
theorem scans_tokens {v : Json} (h : v.Legible) : Scans v.tokens := by
  induction h with
  | null => exact scans_token rfl
  | bool b => cases b <;> exact scans_token rfl
  | number hn => exact scans_token hn
  | string s => exact scans_token (scan?_stringText s)
  | @array items _ ih =>
    cases items with
    | nil => exact scans_cons rfl rfl scans_closeBracket
    | cons v vs =>
      -- Behind an item stands a comma or the closing bracket, and both end it.
      obtain ⟨hscans, hends⟩ := scans_itemTokens fun w hw => ih w (List.mem_cons_of_mem v hw)
      exact scans_cons rfl rfl (scans_append (ih v List.mem_cons_self) hscans hends)
  | @object members _ ih =>
    match members with
    | [] => exact scans_cons rfl rfl scans_closeBrace
    | (name, v) :: ms =>
      obtain ⟨hscans, hends⟩ := scans_memberTokens fun m hm => ih m (List.mem_cons_of_mem _ hm)
      refine scans_cons rfl rfl (scans_member name ?_)
      exact scans_append (ih (name, v) List.mem_cons_self) hscans hends

/-- **The text of a value is scanned as the tokens of the value**, if its numbers are found again.
-/
theorem scan?_compact {v : Json} (h : v.Legible) : scan? v.compact = some v.tokens := by
  have hscan := scans_tokens h [] [] ends_nil
  rw [List.append_nil, List.append_nil] at hscan
  rw [scan?, toList_compact, hscan]
  simp [scanFrom?, Place.close?]

end ReactiveSpace.Json
