import ReactiveSpace.Keyed
import ReactiveSpace.Remaining

/-!
# Graphs of names

A graph lists the targets of each of its names. Targets that are not names of the graph do not
count. The components of a graph are the classes of names that reach each other, and one depth-first
search finds them. It numbers the names in the order in which it enters them and keeps them on a
stack; the *low* of a name is the least number on the stack that has been found from it. A name
whose low is its own number when it is left is the first of its component, and the component is what
has come on the stack since. So a component comes out after every component it leads to, and lists
its names in the order they were entered.
-/

namespace ReactiveSpace

/-- Names with their targets, in order. -/
structure Graph where
  edges : List (String × List String) := []
deriving Inhabited, DecidableEq

/-- The course of a search so far. -/
structure Search where
  /-- The number of the name that is entered next. -/
  next : Nat := 0
  /-- The names entered so far, with their numbers. -/
  numbers : List (String × Nat) := []
  /-- The names entered so far, with their lows. -/
  lows : List (String × Nat) := []
  /-- The names whose component has not come out, last first. -/
  stack : List String := []
  /-- The components that have come out, in order. -/
  components : List (List String) := []

namespace Search

/-- The names entered so far. -/
def entered (s : Search) : List String :=
  Keyed.names s.numbers

/-- The number of a name that has been entered. -/
def number (s : Search) (name : String) : Nat :=
  (Keyed.get? name s.numbers).getD 0

/-- The low of a name that has been entered. -/
def low (s : Search) (name : String) : Nat :=
  (Keyed.get? name s.lows).getD 0

/-- Gives a name the next number, which is also its first low, and puts it on the stack. -/
def enter (s : Search) (name : String) : Search where
  next := s.next + 1
  numbers := Keyed.insert name s.next s.numbers
  lows := Keyed.insert name s.next s.lows
  stack := name :: s.stack
  components := s.components

/-- Lowers the low of a name to `bound`, unless it is lower already. -/
def lowerTo (s : Search) (name : String) (bound : Nat) : Search :=
  { s with lows := Keyed.insert name (min bound (s.low name)) s.lows }

/-- What is above `name` on a stack, with `name` itself, and what is below. -/
def popThrough (name : String) : List String → List String × List String
  | [] => ([], [])
  | n :: stack =>
    if n = name then ([n], stack)
    else
      let (popped, kept) := popThrough name stack
      (n :: popped, kept)

/-- Leaves a name. Its component comes out if the name is the first of it. -/
def leave (s : Search) (name : String) : Search :=
  if s.low name = s.number name then
    let (popped, kept) := popThrough name s.stack
    { s with stack := kept, components := s.components ++ [popped.reverse] }
  else s

/-- Entering a new name adds it to those entered. -/
theorem entered_enter {s : Search} {name : String} (h : name ∉ s.entered) :
    (s.enter name).entered = s.entered ++ [name] := by
  simp only [entered] at h ⊢
  simp [enter, Keyed.names_insert, h]

/-- Leaving a name enters none. -/
theorem entered_leave (s : Search) (name : String) : (s.leave name).entered = s.entered := by
  unfold leave
  split <;> rfl

end Search

namespace Graph

/-- The names of the graph. -/
def names (g : Graph) : List String :=
  Keyed.names g.edges

/-- The targets of a name, if it is a name of the graph. -/
def targets? (g : Graph) (name : String) : Option (List String) :=
  Keyed.get? name g.edges

/-- The targets of a name that are names of the graph. -/
def next (g : Graph) (name : String) : List String :=
  ((g.targets? name).getD []).filter fun n => g.names.contains n

/-- What is left to do in a search. -/
inductive Task where
  /-- Enter a name, unless that has been done. -/
  | start (name : String)
  /-- Follow the edge from a name to one of its targets. -/
  | follow (source target : String)
  /-- Lower the low of a name to the low of a target that was entered from it and left again. -/
  | lower (source target : String)
  /-- Leave a name, all its edges having been followed. -/
  | leave (name : String)

/-- What there is to do for a name that has just been entered. -/
def visit (g : Graph) (name : String) : List Task :=
  (g.next name).map (.follow name) ++ [.leave name]

/-- Entering a name of the graph leaves fewer names to enter. -/
theorem length_remaining_enter_lt {g : Graph} {s : Search} {name : String}
    (h : name ∉ s.entered ∧ name ∈ g.names) :
    (remaining g.names (s.enter name).entered).length < (remaining g.names s.entered).length := by
  refine length_remaining_lt ?_ h.1 ?_ h.2
  · intro n hn
    simp [Search.entered_enter h.1, hn]
  · simp [Search.entered_enter h.1]

/-- Carries out the tasks, depth first. -/
def run (g : Graph) (s : Search) : List Task → Search
  | [] => s
  | .start name :: tasks =>
    if _h : name ∉ s.entered ∧ name ∈ g.names then
      g.run (s.enter name) (g.visit name ++ tasks)
    else g.run s tasks
  | .follow source target :: tasks =>
    if _h : target ∉ s.entered ∧ target ∈ g.names then
      g.run (s.enter target) (g.visit target ++ .lower source target :: tasks)
    else if s.stack.contains target then g.run (s.lowerTo source (s.number target)) tasks
    else g.run s tasks
  | .lower source target :: tasks => g.run (s.lowerTo source (s.low target)) tasks
  | .leave name :: tasks => g.run (s.leave name) tasks
termination_by tasks => ((remaining g.names s.entered).length, tasks.length)
decreasing_by
  · exact Prod.Lex.left _ _ (length_remaining_enter_lt _h)
  · exact Prod.Lex.right _ (by simp)
  · exact Prod.Lex.left _ _ (length_remaining_enter_lt _h)
  · exact Prod.Lex.right _ (by simp)
  · exact Prod.Lex.right _ (by simp)
  · exact Prod.Lex.right _ (by simp)
  · rw [Search.entered_leave]
    exact Prod.Lex.right _ (by simp)

/-- The search over all names, in order. -/
def search (g : Graph) : Search :=
  g.run {} (g.names.map .start)

/-- The classes of names that reach each other, each after all those it leads to. -/
def components (g : Graph) : List (List String) :=
  g.search.components

/-- The names, those that others depend on first. -/
def ordering (g : Graph) : List String :=
  g.components.flatten

/-- The components in which a name leads back to itself. -/
def cycles (g : Graph) : List (List String) :=
  g.components.filter fun
    | [single] => (g.next single).contains single
    | _ => true

end Graph

end ReactiveSpace
