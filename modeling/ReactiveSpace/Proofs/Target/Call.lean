import Mathlib.Data.List.Basic
import ReactiveSpace.Target.Writer

/-!
# Calls on a writer

An emitter calls its writer line by line, and what opens a block is one call and what closes it is
another. Nothing in a list of calls says which of them belong together, and a writer that is at
depth zero takes a close for nothing. `Balanced` says what is asked of the calls of an emitter:
they lead back to the depth that they found, they only append, and no block is closed that they did
not open.

`climb?` follows the depth above the start and stops at a close that belongs to nobody. It is taken
one call at a time (`climb?_openBlock`, `climb?_closeWith`), and calls that climb from zero to zero
are balanced in every writer (`balanced_of_climb?`).
-/

namespace ReactiveSpace

namespace Writer

/-- A call on a writer. -/
inductive Call where
  | line (text : String)
  | blank
  | snippet (text : String)
  | openBlock (header : String)
  | closeWith (suffix : String)

/-- The call that closes a block with nothing behind its brace. -/
def Call.closeBlock : Call :=
  .closeWith ""

/-- One call. -/
def call (w : Writer) : Call → Writer
  | .line text => w.line text
  | .blank => w.blank
  | .snippet text => w.snippet text
  | .openBlock header => w.openBlock header
  | .closeWith suffix => w.closeWith suffix

/-- Calls one after the other. -/
def run (w : Writer) (calls : List Call) : Writer :=
  calls.foldl call w

/-- The writer with some source in front of its own. -/
def prepend (source : String) (w : Writer) : Writer :=
  { w with text := source ++ w.text }

variable {α : Type} {w : Writer}

/-! ### Running -/

@[simp] theorem call_line (text : String) : w.call (.line text) = w.line text := rfl

@[simp] theorem call_blank : w.call .blank = w.blank := rfl

@[simp] theorem call_snippet (text : String) : w.call (.snippet text) = w.snippet text := rfl

@[simp] theorem call_openBlock (header : String) :
    w.call (.openBlock header) = w.openBlock header := rfl

@[simp] theorem call_closeWith (suffix : String) :
    w.call (.closeWith suffix) = w.closeWith suffix := rfl

@[simp] theorem call_closeBlock : w.call .closeBlock = w.closeWith "" := rfl

@[simp] theorem run_nil : w.run [] = w := rfl

@[simp] theorem run_cons (c : Call) (calls : List Call) :
    w.run (c :: calls) = (w.call c).run calls := rfl

/-- Calls run in two goes are run in one. -/
@[simp] theorem run_append (first second : List Call) :
    w.run (first ++ second) = (w.run first).run second :=
  List.foldl_append

/-- A loop with one call in each pass. -/
theorem run_map (l : List α) (f : α → Call) :
    w.run (l.map f) = l.foldl (fun w x => w.call (f x)) w :=
  List.foldl_map

/-- A loop that writes a line in some passes and nothing in the others. -/
theorem run_filterMap_line (l : List α) (f : α → Option String) :
    w.run (l.filterMap fun x => (f x).map .line) = (l.filterMap f).foldl line w := by
  rw [← List.map_filterMap, run_map]
  rfl

/-- A loop with several calls in each pass is a fold over the passes, each of which starts with the
writer that the one before it left. -/
theorem run_flatMap (l : List α) (f : α → List Call) :
    w.run (l.flatMap f) = l.foldl (fun w x => w.run (f x)) w :=
  List.foldl_flatMap

/-! ### Depth -/

/-- A line is written at the depth where it stands, and so is all but what opens or closes a block.
-/
@[simp] theorem depth_line (text : String) : (w.line text).depth = w.depth := by
  unfold line
  split <;> rfl

@[simp] theorem depth_blank : w.blank.depth = w.depth := rfl

/-- Lines in a row do not change the depth. -/
theorem depth_foldl_line (texts : List String) : (texts.foldl line w).depth = w.depth := by
  induction texts generalizing w with
  | nil => rfl
  | cons text texts ih => rw [List.foldl_cons, ih, depth_line]

@[simp] theorem depth_snippet (text : String) : (w.snippet text).depth = w.depth :=
  depth_foldl_line _

@[simp] theorem depth_openBlock (header : String) : (w.openBlock header).depth = w.depth + 1 := by
  rw [openBlock, depth_line]

/-- At depth zero a close is taken for nothing: the subtraction stops there. -/
@[simp] theorem depth_closeWith (suffix : String) : (w.closeWith suffix).depth = w.depth - 1 :=
  depth_line _

/-! ### Appending -/

/-- Every writer is one of its depth, behind what was written so far. -/
theorem prepend_eq (w : Writer) : prepend w.text { depth := w.depth } = w := by
  rw [prepend, String.append_empty]

/-- A line does not look at what stands before it, and neither does any other call. -/
theorem line_prepend (source text : String) :
    (w.prepend source).line text = (w.line text).prepend source := by
  unfold line
  split <;> simp [prepend, String.append_assoc]

theorem blank_prepend (source : String) :
    (w.prepend source).blank = w.blank.prepend source := by
  simp [blank, prepend, String.append_assoc]

theorem snippet_prepend (source text : String) :
    (w.prepend source).snippet text = (w.snippet text).prepend source := by
  unfold snippet
  induction snippetLines text generalizing w with
  | nil => rfl
  | cons text texts ih => rw [List.foldl_cons, line_prepend, ih, List.foldl_cons]

theorem openBlock_prepend (source header : String) :
    (w.prepend source).openBlock header = (w.openBlock header).prepend source := by
  rw [openBlock, line_prepend]
  rfl

theorem closeWith_prepend (source suffix : String) :
    (w.prepend source).closeWith suffix = (w.closeWith suffix).prepend source :=
  line_prepend (w := { w with depth := w.depth - 1 }) source _

/-- No call looks at what was written, whichever it is. -/
theorem call_prepend (source : String) (c : Call) :
    (w.prepend source).call c = (w.call c).prepend source := by
  -- One lemma for each of the five calls.
  cases c with
  | line text => exact line_prepend source text
  | blank => exact blank_prepend source
  | snippet text => exact snippet_prepend source text
  | openBlock header => exact openBlock_prepend source header
  | closeWith suffix => exact closeWith_prepend source suffix

/-- Calls do not touch what was written before them. -/
theorem run_prepend (source : String) (calls : List Call) :
    (w.prepend source).run calls = (w.run calls).prepend source := by
  induction calls generalizing w with
  | nil => rfl
  | cons c calls ih => rw [run_cons, call_prepend, ih, run_cons]

/-- Calls append what they write into an empty writer of the same depth. -/
theorem text_run (w : Writer) (calls : List Call) :
    (w.run calls).text = w.text ++ (({ depth := w.depth } : Writer).run calls).text := by
  conv_lhs => rw [← prepend_eq w, run_prepend]
  rfl

/-! ### Climbing -/

/-- The number of open blocks after a call, unless it closes one that is not open. -/
def Call.climb? : Nat → Call → Option Nat
  | d, .line _ | d, .blank | d, .snippet _ => some d
  | d, .openBlock _ => some (d + 1)
  | 0, .closeWith _ => none
  | d + 1, .closeWith _ => some d

/-- The number of open blocks after calls, when `d` of them are open before, unless one is closed
that is not open. -/
def climb? (d : Nat) : List Call → Option Nat
  | [] => some d
  | c :: calls => (c.climb? d).bind fun e => climb? e calls

@[simp] theorem climb?_nil (d : Nat) : climb? d [] = some d := rfl

@[simp] theorem climb?_line (d : Nat) (text : String) (calls : List Call) :
    climb? d (.line text :: calls) = climb? d calls := by
  cases d <;> rfl

@[simp] theorem climb?_blank (d : Nat) (calls : List Call) :
    climb? d (.blank :: calls) = climb? d calls := by
  cases d <;> rfl

@[simp] theorem climb?_snippet (d : Nat) (text : String) (calls : List Call) :
    climb? d (.snippet text :: calls) = climb? d calls := by
  cases d <;> rfl

@[simp] theorem climb?_openBlock (d : Nat) (header : String) (calls : List Call) :
    climb? d (.openBlock header :: calls) = climb? (d + 1) calls := by
  cases d <;> rfl

/-- A close leads back to where the block was opened. There is no rule for a close at zero, which is
what makes the climb partial. -/
@[simp] theorem climb?_closeWith (d : Nat) (suffix : String) (calls : List Call) :
    climb? (d + 1) (.closeWith suffix :: calls) = climb? d calls := rfl

@[simp] theorem climb?_closeBlock (d : Nat) (calls : List Call) :
    climb? (d + 1) (.closeBlock :: calls) = climb? d calls := rfl

/-- Calls climb in two goes as in one, if the first go ends. -/
@[simp] theorem climb?_append (d : Nat) (first second : List Call) :
    climb? d (first ++ second) = (climb? d first).bind fun e => climb? e second := by
  induction first generalizing d with
  | nil => rfl
  | cons c calls ih =>
    rw [List.cons_append, climb?, climb?, Option.bind_assoc]
    congr 1
    funext e
    exact ih e

/-- A loop whose passes lead back to where they start does so too. -/
theorem climb?_flatMap {l : List α} {f : α → List Call} (d : Nat)
    (h : ∀ x, climb? d (f x) = some d) : climb? d (l.flatMap f) = some d := by
  induction l with
  | nil => rfl
  | cons x l ih => rw [List.flatMap_cons, climb?_append, h, Option.bind_some, ih]

/-- Lines for all of a list climb nowhere. -/
@[simp] theorem climb?_map_line (d : Nat) (l : List α) (f : α → String) :
    climb? d (l.map fun x => .line (f x)) = some d := by
  rw [List.map_eq_flatMap]
  exact climb?_flatMap d fun x => climb?_line d (f x) []

/-- Lines for some of a list climb nowhere either. -/
@[simp] theorem climb?_filterMap_line (d : Nat) (l : List α) (f : α → Option String) :
    climb? d (l.filterMap fun x => (f x).map .line) = some d := by
  rw [List.filterMap_eq_flatMap_toList]
  refine climb?_flatMap d fun x => ?_
  cases f x with
  | none => rfl
  | some text => exact climb?_line d text []

/-- A call changes the depth by as much as it climbs. -/
theorem depth_call {c : Call} {base d e : Nat} (h : c.climb? d = some e)
    (hw : w.depth = base + d) : (w.call c).depth = base + e := by
  cases c with
  | closeWith suffix =>
    -- The climb stops at a close at zero, so there is a block to close.
    cases d with
    | zero => cases h
    | succ d =>
      obtain rfl : d = e := Option.some.inj h
      rw [call, depth_closeWith, hw]
      omega
  | openBlock header =>
    obtain rfl : d + 1 = e := by cases d <;> exact Option.some.inj h
    rw [call, depth_openBlock, hw, Nat.add_assoc]
  -- All other calls stay where they are.
  | line text | blank | snippet text =>
    obtain rfl : d = e := by cases d <;> exact Option.some.inj h
    simp [call, hw]

/-- Calls change the depth by as much as they climb. -/
theorem depth_run {calls : List Call} {base d e : Nat} (h : climb? d calls = some e)
    (hw : w.depth = base + d) : (w.run calls).depth = base + e := by
  induction calls generalizing w d with
  | nil =>
    obtain rfl : d = e := Option.some.inj h
    exact hw
  | cons c calls ih =>
    obtain ⟨next, hc, hcalls⟩ := Option.bind_eq_some_iff.1 h
    exact ih hcalls (depth_call hc hw)

/-! ### Balance -/

/-- What is asked of the calls of an emitter. -/
structure Balanced (calls : List Call) : Prop where
  /-- They leave the writer at the depth that they found. -/
  depth_run : ∀ w : Writer, (w.run calls).depth = w.depth
  /-- They only append, and what they append depends on the depth alone. -/
  text_run : ∀ w : Writer,
    (w.run calls).text = w.text ++ (({ depth := w.depth } : Writer).run calls).text
  /-- They close a block only above the depth that they found. -/
  lt_depth : ∀ (w : Writer) before suffix after, calls = before ++ .closeWith suffix :: after →
    w.depth < (w.run before).depth

/-- Calls that climb from zero to zero are balanced. -/
theorem balanced_of_climb? {calls : List Call} (h : climb? 0 calls = some 0) :
    Balanced calls where
  depth_run _ := depth_run h rfl
  text_run w := text_run w calls
  lt_depth w before suffix after hcalls := by
    rw [hcalls, climb?_append] at h
    obtain ⟨d, hbefore, hafter⟩ := Option.bind_eq_some_iff.1 h
    -- The close would stop the climb at zero.
    have hd : d ≠ 0 := by
      rintro rfl
      cases hafter
    rw [depth_run hbefore (Nat.add_zero _).symm]
    omega

example : climb? 0 [.openBlock "if a", .closeBlock, .closeBlock] = none := rfl

end Writer

/-! ### Code and calls -/

namespace Code

open Writer (Call prepend)

variable {α : Type} {w : Writer}

@[simp] theorem write_line (text : String) : write w (.line text) = w.line text := rfl

@[simp] theorem write_blank : write w .blank = w.blank := rfl

@[simp] theorem write_snippet (text : String) : write w (.snippet text) = w.snippet text := rfl

/-- A block opens one deeper, writes its body there and comes back to close. -/
@[simp] theorem write_block (header : String) (body : List Code) (suffix : String) :
    write w (.block header body suffix) =
      (writeAll (w.openBlock header) body).closeWith suffix := rfl

@[simp] theorem write_nest (header : String) (body : List Code) :
    write w (nest header body) = (writeAll (w.openBlock header) body).closeWith "" := rfl

@[simp] theorem writeAll_nil : writeAll w [] = w := rfl

@[simp] theorem writeAll_cons (c : Code) (cs : List Code) :
    writeAll w (c :: cs) = writeAll (write w c) cs := rfl

/-- Code is written in two goes as in one. -/
@[simp] theorem writeAll_append (cs ds : List Code) :
    writeAll w (cs ++ ds) = writeAll (writeAll w cs) ds := by
  induction cs generalizing w with
  | nil => rfl
  | cons c cs ih => exact ih

/-- The recursion over a list of code is a fold, like the run of a list of calls. This is what lets
the two be compared loop by loop. -/
theorem writeAll_eq_foldl (cs : List Code) : writeAll w cs = cs.foldl write w := by
  induction cs generalizing w with
  | nil => rfl
  | cons c cs ih => exact ih

/-- The code of a list, with one piece for each entry, is written entry by entry. -/
theorem writeAll_map (l : List α) (f : α → Code) :
    writeAll w (l.map f) = l.foldl (fun w x => write w (f x)) w := by
  rw [writeAll_eq_foldl, List.foldl_map]

/-- A line for some entries of a list and none for the others. -/
theorem writeAll_filterMap_line (l : List α) (f : α → Option String) :
    writeAll w (l.filterMap fun x => (f x).map .line) = (l.filterMap f).foldl Writer.line w := by
  rw [← List.map_filterMap, writeAll_map]
  rfl

/-- The code of a list, with several pieces for each entry, is written entry by entry. -/
theorem writeAll_flatMap (l : List α) (f : α → List Code) :
    writeAll w (l.flatMap f) = l.foldl (fun w x => writeAll w (f x)) w := by
  rw [writeAll_eq_foldl, List.foldl_flatMap]
  simp only [writeAll_eq_foldl]

mutual

/-- One piece of code is written alike behind any source, by recursion on the piece and on the list
of those in it. -/
theorem write_prepend (source : String) : ∀ (w : Writer) (c : Code),
    write (w.prepend source) c = (write w c).prepend source
  | w, .line text => Writer.line_prepend source text
  | w, .blank => Writer.blank_prepend source
  | w, .snippet text => Writer.snippet_prepend source text
  | w, .block header body suffix => by
    rw [write, write, Writer.openBlock_prepend, writeAll_prepend source _ body,
      Writer.closeWith_prepend]
  | w, .branch header yes no => by
    have hreopen : ∀ w : Writer, (w.prepend source).reopen "else" =
        (w.reopen "else").prepend source := by
      intro w
      rw [Writer.reopen, Writer.closeWith_prepend]
      rfl
    rw [write, write, Writer.openBlock_prepend, writeAll_prepend source _ yes, hreopen,
      writeAll_prepend source _ no]
    exact Writer.closeWith_prepend source ""

/-- Code is written alike behind any source. -/
theorem writeAll_prepend (source : String) : ∀ (w : Writer) (cs : List Code),
    writeAll (w.prepend source) cs = (writeAll w cs).prepend source
  | _, [] => rfl
  | w, c :: cs => by
    rw [writeAll, writeAll, write_prepend source w c, writeAll_prepend source _ cs]

end

end Code

end ReactiveSpace
