import Mathlib.Logic.Relation
import Mathlib.Tactic.Set
import ReactiveSpace.Check.Graph

/-!
# The search for components

The search keeps a *path* of names that are entered and not yet left. `Search.Sound` is what holds
between any two steps: the names that came out form whole classes of names that reach each other,
and no edge leads out of them; on the stack an earlier name reaches every later one, and every name
reaches one on the path that is no later than itself. It also says from where each name was entered
(`Graph.Traced`): from the latest name before it that still had somewhere to go.

`connects` is what entering a name and following all that can be entered from it comes to, for a
search that is sound on some path: the search is sound on that path again, and the low of the
name bounds every edge from what has come on the stack since to what was there before. The proof
is by induction on the names that remain, and for one name by induction on the targets that are
followed (`follow_targets`). When the name is left, its low decides whether the new part of the
stack is a class (`Following.leave_first`) or waits for an earlier name
(`Following.leave_later`).
-/

namespace ReactiveSpace

open Relation

/-! ### Reachability -/

namespace Graph

/-- One name *leads* to another when the other is among its targets and a name of the graph. -/
def Leads (g : Graph) (a b : String) : Prop :=
  ∃ targets, g.targets? a = some targets ∧ b ∈ targets ∧ b ∈ g.names

/-- One name *reaches* another when the other is at the end of a path of edges, which may be
empty. -/
def Reaches (g : Graph) : String → String → Prop :=
  ReflTransGen g.Leads

/-- Names in the order in which a depth-first search entered them: each but the first is a target of
the latest name before it that leads to it or to any name after it. -/
def Traced (g : Graph) (c : List String) : Prop :=
  ∀ earlier b later, c = earlier ++ b :: later → earlier ≠ [] →
    ∃ front a between, earlier = front ++ a :: between ∧ g.Leads a b ∧
      ∀ z ∈ between, ∀ y ∈ b :: later, ¬ g.Leads z y

/-- The targets of a name are those that it leads to. -/
theorem mem_next_iff {g : Graph} {a b : String} : b ∈ g.next a ↔ g.Leads a b := by
  unfold next Leads
  cases g.targets? a <;> simp

/-- An edge leads to a name of the graph. -/
theorem Leads.mem_names_right {g : Graph} {a b : String} (h : g.Leads a b) : b ∈ g.names := by
  obtain ⟨_, _, _, hb⟩ := h
  exact hb

end Graph

/-! ### The parts of a search -/

namespace Search

variable {s : Search} {name : String}

/-- The names that were entered are the new one and those before it. -/
theorem mem_entered_enter (hn : name ∉ s.entered) {n : String} :
    n ∈ (s.enter name).entered ↔ n = name ∨ n ∈ s.entered := by
  rw [entered_enter hn]
  simp [or_comm]

/-- Entering a name numbers it with the next number, and no other name. -/
theorem number_enter (s : Search) (name n : String) :
    (s.enter name).number n = if name = n then s.next else s.number n := by
  simp only [number, enter, Keyed.get?_insert]
  split <;> rfl

theorem low_enter (s : Search) (name n : String) :
    (s.enter name).low n = if name = n then s.next else s.low n := by
  simp only [low, enter, Keyed.get?_insert]
  split <;> rfl

/-- Only the low of the name that is lowered changes. -/
theorem low_lowerTo (s : Search) (name : String) (bound : Nat) (n : String) :
    (s.lowerTo name bound).low n = if name = n then min bound (s.low name) else s.low n := by
  simp only [low, lowerTo, Keyed.get?_insert]
  split <;> rfl

/-- Popping through a name takes what stands above it and the name itself, in this order. -/
theorem popThrough_append (name : String) (above below : List String) (h : name ∉ above) :
    popThrough name (above ++ name :: below) = (above ++ [name], below) := by
  induction above with
  | nil => simp [popThrough]
  | cons n above ih =>
    have hn : n ≠ name := fun e => h (by simp [e])
    have ha : name ∉ above := fun e => h (by simp [e])
    simp [popThrough, hn, ih ha]

end Search

/-! ### Running tasks -/

namespace Graph

/-- Tasks may be carried out in two portions. -/
theorem run_append (g : Graph) (s : Search) (first second : List Task) :
    g.run s (first ++ second) = g.run (g.run s first) second := by
  fun_induction run g s first with
  | case1 s => rfl
  | case2 s name tasks h ih =>
    rw [List.cons_append, run, dif_pos h, ← ih, List.append_assoc]
  | case3 s name tasks h ih =>
    rw [List.cons_append, run, dif_neg h, ih]
  | case4 s source target tasks h ih =>
    rw [List.cons_append, run, dif_pos h, ← ih, List.append_assoc, List.cons_append]
  | case5 s source target tasks h hs ih =>
    rw [List.cons_append, run, dif_neg h, if_pos hs, ih]
  | case6 s source target tasks h hs ih =>
    rw [List.cons_append, run, dif_neg h, if_neg hs, ih]
  | case7 s source target tasks ih => rw [List.cons_append, run, ih]
  | case8 s name tasks ih => rw [List.cons_append, run, ih]

/-- The search after a name has been entered and left, with all that was entered from it. -/
def connect (g : Graph) (s : Search) (name : String) : Search :=
  g.run (s.enter name) (g.visit name)

/-- A start that is not entered yet is connected, and the search goes on from there. -/
theorem run_start_new (g : Graph) (s : Search) (name : String) (tasks : List Task)
    (h : name ∉ s.entered ∧ name ∈ g.names) :
    g.run s (.start name :: tasks) = g.run (g.connect s name) tasks := by
  rw [run, dif_pos h, run_append, connect]

/-- A new target is searched at once, and its low is passed on to the name that it was followed
from. -/
theorem run_follow_new (g : Graph) (s : Search) (source target : String) (tasks : List Task)
    (h : target ∉ s.entered ∧ target ∈ g.names) :
    g.run s (.follow source target :: tasks) =
      g.run ((g.connect s target).lowerTo source ((g.connect s target).low target)) tasks := by
  rw [run, dif_pos h, run_append, run, connect]

end Graph

/-! ### The invariant -/

/-- What holds of a search between two steps, `path` being the names entered and not yet left. -/
structure Search.Sound (g : Graph) (path : List String) (s : Search) : Prop where
  names : ∀ n ∈ s.entered, n ∈ g.names
  number_lt : ∀ n ∈ s.entered, s.number n < s.next
  /-- What was entered later stands higher on the stack. -/
  sorted : s.stack.Pairwise fun a b => s.number b < s.number a
  /-- What was entered is on the stack or has come out, and only once. -/
  entered_iff : ∀ n, n ∈ s.entered ↔ n ∈ s.stack ∨ n ∈ s.components.flatten
  nodup : (s.stack ++ s.components.flatten).Nodup
  path_sub : ∀ n ∈ path, n ∈ s.stack
  /-- The path is last first, like the stack. -/
  path_sorted : path.Pairwise fun a b => s.number b < s.number a
  /-- A component that came out is a class of names that reach each other. -/
  classes : ∀ c ∈ s.components, c ≠ [] ∧ ∀ a ∈ c, ∀ b, b ∈ c ↔ g.Reaches a b ∧ g.Reaches b a
  /-- What came out leads only to what came out. -/
  closed : ∀ a ∈ s.components.flatten, ∀ b, g.Leads a b → b ∈ s.components.flatten
  /-- No component leads to one that came out after it. -/
  ordered : s.components.Pairwise fun c d => ∀ a ∈ c, ∀ b ∈ d, ¬ g.Leads a b
  /-- Off the path, every edge has been followed. -/
  followed : ∀ a ∈ s.entered, a ∉ path → ∀ b, g.Leads a b → b ∈ s.entered
  /-- A name on the stack was entered from one below it. Those between the two have been left and
  lead to nothing from there up. -/
  entered_from : ∀ upper b under, s.stack = upper ++ b :: under → under ≠ [] →
    ∃ between a rest, under = between ++ a :: rest ∧ g.Leads a b ∧
      ∀ z ∈ between, z ∉ path ∧ ∀ c ∈ upper ++ [b], ¬ g.Leads z c
  /-- A component that came out lists its names in the order in which they were entered. -/
  traced : ∀ c ∈ s.components, g.Traced c
  /-- On the stack, an earlier name reaches every later one. -/
  up : ∀ a ∈ s.stack, ∀ b ∈ s.stack, s.number a ≤ s.number b → g.Reaches a b
  /-- Every name on the stack reaches one on the path that is no later than itself. -/
  down : ∀ b ∈ s.stack, ∃ a ∈ path, s.number a ≤ s.number b ∧ g.Reaches b a

/-- What a later state of a search keeps of an earlier one. -/
structure Search.Extends (s r : Search) : Prop where
  entered : ∀ n ∈ s.entered, n ∈ r.entered
  number : ∀ n ∈ s.entered, r.number n = s.number n
  next_le : s.next ≤ r.next

/-- What entering `name` in the state `s` and leaving it again comes to. -/
structure Search.Connected (g : Graph) (s : Search) (name : String) (r : Search) : Prop where
  extends_ : s.Extends r
  low_eq : ∀ n ∈ s.entered, r.low n = s.low n
  mem_entered : name ∈ r.entered
  /-- The low bounds the edges from what has come on the stack to what was there before. -/
  above : ∃ above, r.stack = above ++ s.stack ∧
    ∀ a ∈ above, ∀ b ∈ s.stack, g.Leads a b → r.low name ≤ r.number b
  /-- The low is the number of a name that is reached, unless the name's component came out. -/
  low_found : (∃ z ∈ r.stack, r.number z = r.low name ∧ g.Reaches name z) ∨ s.next ≤ r.low name

/-- What following the edges from `name` to the targets `done` comes to, `name` having been entered
in the state `s`. -/
structure Search.Following (g : Graph) (path : List String) (s : Search) (name : String)
    (done : List String) (r : Search) : Prop where
  sound : r.Sound g (name :: path)
  extends_ : (s.enter name).Extends r
  low_eq : ∀ n ∈ s.entered, r.low n = s.low n
  mem_entered : ∀ b ∈ done, b ∈ r.entered
  low_le : r.low name ≤ s.next
  low_found : ∃ z ∈ r.stack, r.number z = r.low name ∧ g.Reaches name z
  /-- The low bounds the edges followed so far that lead below `name` on the stack. -/
  above : ∃ above, r.stack = above ++ name :: s.stack ∧
    ∀ b ∈ s.stack, (b ∈ done ∨ ∃ a ∈ above, g.Leads a b) → r.low name ≤ r.number b

namespace Search

variable {g : Graph} {path : List String} {s r : Search} {name : String}

/-- What a search only adds to, it adds to in two goes. -/
theorem Extends.trans {q : Search} (hsr : s.Extends r) (hrq : r.Extends q) : s.Extends q where
  entered n hn := hrq.entered n (hsr.entered n hn)
  number n hn := by rw [hrq.number n (hsr.entered n hn), hsr.number n hn]
  next_le := Nat.le_trans hsr.next_le hrq.next_le

/-- Lowering adds nothing and takes nothing away. -/
theorem Extends.lowerTo (h : s.Extends r) (n : String) (bound : Nat) :
    s.Extends (r.lowerTo n bound) :=
  ⟨h.entered, h.number, h.next_le⟩

/-- Entering a new name adds to the search. -/
theorem extends_enter (hn : name ∉ s.entered) : s.Extends (s.enter name) where
  entered n h := (mem_entered_enter hn).2 (Or.inr h)
  number n h := by
    have hne : name ≠ n := fun e => hn (e ▸ h)
    rw [number_enter, if_neg hne]
  next_le := Nat.le_succ s.next

/-- What stands on the stack was entered. -/
theorem Sound.mem_entered_of_mem_stack (h : s.Sound g path) {n : String} (hn : n ∈ s.stack) :
    n ∈ s.entered :=
  (h.entered_iff n).2 (Or.inl hn)

/-- A low does not matter to soundness. -/
theorem Sound.lowerTo (h : s.Sound g path) (n : String) (bound : Nat) :
    (s.lowerTo n bound).Sound g path :=
  ⟨h.names, h.number_lt, h.sorted, h.entered_iff, h.nodup, h.path_sub, h.path_sorted, h.classes,
    h.closed, h.ordered, h.followed, h.entered_from, h.traced, h.up, h.down⟩

/-! ### Entering a name -/

/-- Names wait on the stack only while there is a path. -/
theorem Sound.exists_head (h : s.Sound g path) (hs : s.stack ≠ []) :
    ∃ last, path.head? = some last := by
  obtain ⟨b, hb⟩ := List.exists_mem_of_ne_nil _ hs
  obtain ⟨a, ha, -⟩ := h.down b hb
  cases path with
  | nil => simp at ha
  | cons last rest => exact ⟨last, rfl⟩

/-- What the last name on the path leads to, the whole path reaches. -/
theorem Sound.reaches_of_head (h : s.Sound g path) (hp : ∀ a ∈ path.head?, g.Leads a name)
    {a : String} (ha : a ∈ path) : g.Reaches a name := by
  cases path with
  | nil => simp at ha
  | cons last rest =>
    have hlast : g.Reaches last name := ReflTransGen.single (hp last rfl)
    rcases List.mem_cons.1 ha with rfl | hrest
    · exact hlast
    · have hlt := (List.pairwise_cons.1 h.path_sorted).1 a hrest
      refine (h.up a (h.path_sub a ha) last (h.path_sub last List.mem_cons_self) ?_).trans hlast
      exact Nat.le_of_lt hlt

/-- On the stack, nothing above the last name on the path is on the path. -/
theorem Sound.notMem_path_of_above (h : s.Sound g path) {last : String}
    (hl : path.head? = some last) {upper under : List String}
    (hstack : s.stack = upper ++ last :: under) : ∀ z ∈ upper, z ∉ path := by
  obtain ⟨rest, rfl⟩ : ∃ rest, path = last :: rest := by
    cases path with
    | nil => simp at hl
    | cons p rest => exact ⟨rest, by rw [Option.some.inj hl]⟩
  intro z hz hzp
  have hsorted := h.sorted
  rw [hstack, List.pairwise_append] at hsorted
  have hlt := hsorted.2.2 z hz last List.mem_cons_self
  rcases List.mem_cons.1 hzp with rfl | hzp
  · exact Nat.lt_irrefl _ hlt
  · exact Nat.lt_asymm hlt ((List.pairwise_cons.1 h.path_sorted).1 z hzp)

/-- A name that has been left leads to nothing new. -/
theorem Sound.not_leads_of_left (h : s.Sound g path) (hn : name ∉ s.entered) {z : String}
    (hz : z ∈ s.stack) (hzp : z ∉ path) : ¬ g.Leads z name := fun hl =>
  hn (h.followed z (h.mem_entered_of_mem_stack hz) hzp name hl)

/-- A new name is entered from the last name on the path. What is above that on the stack has been
left. -/
theorem Sound.exists_source (h : s.Sound g path) (hp : ∀ a ∈ path.head?, g.Leads a name)
    (hs : s.stack ≠ []) :
    ∃ between a rest, s.stack = between ++ a :: rest ∧ g.Leads a name ∧
      ∀ z ∈ between, z ∉ path := by
  obtain ⟨last, hlast⟩ := h.exists_head hs
  obtain ⟨between, rest, hsplit⟩ := List.append_of_mem (h.path_sub last (List.mem_of_head? hlast))
  exact ⟨between, last, rest, hsplit, hp last hlast, h.notMem_path_of_above hlast hsplit⟩

/-- With a new name on top of the stack, it is still known from where each was entered. -/
theorem Sound.entered_from_enter (h : s.Sound g path) (hn : name ∉ s.entered)
    (hp : ∀ a ∈ path.head?, g.Leads a name) {upper under : List String} {b : String}
    (heq : name :: s.stack = upper ++ b :: under) (hne : under ≠ []) :
    ∃ between a rest, under = between ++ a :: rest ∧ g.Leads a b ∧
      ∀ z ∈ between, z ∉ name :: path ∧ ∀ c ∈ upper ++ [b], ¬ g.Leads z c := by
  have hnew : ∀ z ∈ s.stack, z ∉ path → z ∉ name :: path := by
    intro z hz hzp
    rw [List.mem_cons, not_or]
    exact ⟨fun e => hn (e ▸ h.mem_entered_of_mem_stack hz), hzp⟩
  cases upper with
  -- The name has just been entered, and its source stands on the path.
  | nil =>
    obtain ⟨rfl, rfl⟩ : name = b ∧ s.stack = under := by simpa using heq
    obtain ⟨between, a, rest, hsplit, hab, hbetween⟩ := h.exists_source hp hne
    refine ⟨between, a, rest, hsplit, hab, fun z hz => ?_⟩
    have hzs : z ∈ s.stack := by rw [hsplit]; exact List.mem_append_left _ hz
    refine ⟨hnew z hzs (hbetween z hz), ?_⟩
    simpa using h.not_leads_of_left hn hzs (hbetween z hz)
  -- Below it the stack is as it was; what was left there does not lead to the new name either.
  | cons top upper =>
    obtain ⟨rfl, hold⟩ : name = top ∧ s.stack = upper ++ b :: under := by simpa using heq
    obtain ⟨between, a, rest, hsplit, hab, hbetween⟩ := h.entered_from upper b under hold hne
    refine ⟨between, a, rest, hsplit, hab, fun z hz => ?_⟩
    obtain ⟨hzp, hzc⟩ := hbetween z hz
    have hzs : z ∈ s.stack := by rw [hold, hsplit]; simp [hz]
    refine ⟨hnew z hzs hzp, ?_⟩
    rw [List.cons_append, List.forall_mem_cons]
    exact ⟨h.not_leads_of_left hn hzs hzp, hzc⟩

/-- A target of the last name on the path can be entered. -/
theorem Sound.enter (h : s.Sound g path) (hn : name ∉ s.entered) (hg : name ∈ g.names)
    (hp : ∀ a ∈ path.head?, g.Leads a name) : (s.enter name).Sound g (name :: path) := by
  have hnum : ∀ n ∈ s.entered, (s.enter name).number n = s.number n := (extends_enter hn).number
  have hself : (s.enter name).number name = s.next := by rw [number_enter, if_pos rfl]
  have hstack : ∀ n ∈ s.stack, n ∈ s.entered := fun n => h.mem_entered_of_mem_stack
  -- Every name on the old stack reaches the path, so its last name, and so the new name.
  have hreach : ∀ a ∈ s.stack, g.Reaches a name := by
    intro a ha
    obtain ⟨p, hpp, -, hap⟩ := h.down a ha
    exact hap.trans (h.reaches_of_head hp hpp)
  refine ⟨?_, ?_, ?_, ?_, ?_, ?_, ?_, h.classes, h.closed, h.ordered, ?_,
    fun _ _ _ => h.entered_from_enter hn hp, h.traced, ?_, ?_⟩
  · intro n hm
    rcases (mem_entered_enter hn).1 hm with rfl | hm
    · exact hg
    · exact h.names n hm
  · intro n hm
    rcases (mem_entered_enter hn).1 hm with rfl | hm
    · rw [hself]; exact Nat.lt_succ_self _
    · rw [hnum n hm]; exact Nat.lt_succ_of_lt (h.number_lt n hm)
  -- The new name has the greatest number and stands on top.
  · refine List.pairwise_cons.2 ⟨?_, ?_⟩
    · intro b hb
      rw [hself, hnum b (hstack b hb)]
      exact h.number_lt b (hstack b hb)
    · refine h.sorted.imp_of_mem ?_
      intro a b ha hb hab
      rw [hnum a (hstack a ha), hnum b (hstack b hb)]
      exact hab
  · intro n
    rw [mem_entered_enter hn, h.entered_iff n]
    simp [Search.enter, or_assoc]
  · have hout : name ∉ s.stack ++ s.components.flatten := by
      intro hm
      exact hn ((h.entered_iff name).2 (List.mem_append.1 hm))
    exact List.nodup_cons.2 ⟨hout, h.nodup⟩
  · intro n hm
    rcases List.mem_cons.1 hm with rfl | hm
    · exact List.mem_cons_self
    · exact List.mem_cons_of_mem _ (h.path_sub n hm)
  · refine List.pairwise_cons.2 ⟨?_, h.path_sorted.imp_of_mem ?_⟩
    · intro a ha
      rw [hself, hnum a (hstack a (h.path_sub a ha))]
      exact h.number_lt a (hstack a (h.path_sub a ha))
    · intro a b ha hb hab
      rw [hnum a (hstack a (h.path_sub a ha)), hnum b (hstack b (h.path_sub b hb))]
      exact hab
  -- The new name is on the path, so only the edges of old names count.
  · intro a ha hap b hab
    have hane : a ≠ name := fun e => hap (by simp [e])
    have haold : a ∈ s.entered := ((mem_entered_enter hn).1 ha).resolve_left hane
    have hanp : a ∉ path := fun e => hap (by simp [e])
    exact (mem_entered_enter hn).2 (Or.inr (h.followed a haold hanp b hab))
  · intro a ha b hb hle
    rcases List.mem_cons.1 ha with rfl | ha'
    · -- The new name has the greatest number, so the later name is itself.
      rcases List.mem_cons.1 hb with rfl | hb
      · exact ReflTransGen.refl
      · rw [hself, hnum b (hstack b hb)] at hle
        exact absurd (h.number_lt b (hstack b hb)) (Nat.not_lt.2 hle)
    · rcases List.mem_cons.1 hb with rfl | hb'
      · exact hreach a ha'
      · rw [hnum a (hstack a ha'), hnum b (hstack b hb')] at hle
        exact h.up a ha' b hb' hle
  · intro b hb
    rcases List.mem_cons.1 hb with rfl | hb
    · exact ⟨b, List.mem_cons_self, Nat.le_refl _, ReflTransGen.refl⟩
    · obtain ⟨a, hap, hle, hba⟩ := h.down b hb
      refine ⟨a, List.mem_cons_of_mem _ hap, ?_, hba⟩
      rw [hnum a (hstack a (h.path_sub a hap)), hnum b (hstack b hb)]
      exact hle

/-- A name that was just entered has followed none of its targets. -/
theorem Sound.following_nil (h : s.Sound g path) (hn : name ∉ s.entered) (hg : name ∈ g.names)
    (hp : ∀ a ∈ path.head?, g.Leads a name) : Following g path s name [] (s.enter name) where
  sound := h.enter hn hg hp
  extends_ := ⟨fun _ => id, fun _ _ => rfl, Nat.le_refl _⟩
  low_eq n hm := by
    have hne : name ≠ n := fun e => hn (e ▸ hm)
    rw [low_enter, if_neg hne]
  mem_entered := by simp
  low_le := Nat.le_of_eq (by rw [low_enter, if_pos rfl])
  low_found := by
    refine ⟨name, List.mem_cons_self, ?_, ReflTransGen.refl⟩
    rw [number_enter, low_enter, if_pos rfl, if_pos rfl]
  above := ⟨[], rfl, by simp⟩

/-! ### Following an edge -/

namespace Following

variable {done : List String} {target : String}

/-- The name whose targets are followed stays entered. -/
theorem name_mem_entered (h : Following g path s name done r) : name ∈ r.entered :=
  h.sound.mem_entered_of_mem_stack (h.sound.path_sub name List.mem_cons_self)

theorem number_name (h : Following g path s name done r) (hn : name ∉ s.entered) :
    r.number name = s.next := by
  rw [h.extends_.number name ((mem_entered_enter hn).2 (Or.inl rfl)), number_enter, if_pos rfl]

/-- The low of a name is below every number to come, so a target that is entered later never lowers
it by accident. -/
theorem low_lt_next (h : Following g path s name done r) (hn : name ∉ s.entered) :
    r.low name < r.next := by
  have hlt := h.sound.number_lt name h.name_mem_entered
  rw [h.number_name hn] at hlt
  exact Nat.lt_of_le_of_lt h.low_le hlt

/-- An edge to a new name: the target is entered and left, and its low counts for `name`. -/
theorem follow_new {q : Search} (h : Following g path s name done r) (hn : name ∉ s.entered)
    (ht : target ∉ r.entered) (hl : g.Leads name target) (hs : q.Sound g (name :: path))
    (hc : Connected g r target q) :
    Following g path s name (target :: done) (q.lowerTo name (q.low target)) := by
  have hne : ∀ n ∈ s.entered, name ≠ n := fun n hm e => hn (e ▸ hm)
  have hkept : ∀ n ∈ s.entered, n ∈ r.entered := fun n hm =>
    h.extends_.entered n ((mem_entered_enter hn).2 (Or.inr hm))
  have hlow : (q.lowerTo name (q.low target)).low name = min (q.low target) (r.low name) := by
    rw [low_lowerTo, if_pos rfl, hc.low_eq name h.name_mem_entered]
  obtain ⟨above, hstack, hbound⟩ := h.above
  obtain ⟨more, hmore, hmorebound⟩ := hc.above
  have hsub : ∀ n ∈ r.stack, n ∈ q.stack := fun n hm => by rw [hmore]; simp [hm]
  have hold : ∃ z ∈ q.stack, q.number z = r.low name ∧ g.Reaches name z := by
    obtain ⟨z, hz, hzl, hzr⟩ := h.low_found
    refine ⟨z, hsub z hz, ?_, hzr⟩
    rw [hc.extends_.number z (h.sound.mem_entered_of_mem_stack hz), hzl]
  refine ⟨hs.lowerTo _ _, ?_, ?_, ?_, ?_, ?_, ?_⟩
  · exact (h.extends_.trans hc.extends_).lowerTo _ _
  · intro n hm
    rw [low_lowerTo, if_neg (hne n hm), hc.low_eq n (hkept n hm), h.low_eq n hm]
  · intro b hb
    rcases List.mem_cons.1 hb with rfl | hb
    · exact hc.mem_entered
    · exact hc.extends_.entered b (h.mem_entered b hb)
  · rw [hlow]
    exact Nat.le_trans (Nat.min_le_right _ _) h.low_le
  · rw [hlow]
    rcases Nat.le_total (r.low name) (q.low target) with hle | hle
    · rw [Nat.min_eq_right hle]
      exact hold
    · rw [Nat.min_eq_left hle]
      rcases hc.low_found with ⟨z, hz, hzl, hzr⟩ | hbig
      · exact ⟨z, hz, hzl, ReflTransGen.head hl hzr⟩
      · -- The target's component came out, so its low is too great to count.
        exact absurd (Nat.lt_of_le_of_lt hle (h.low_lt_next hn)) (Nat.not_lt.2 hbig)
  -- What has come on the stack is what came with the target, on top of what was there.
  · refine ⟨more ++ above, ?_, ?_⟩
    · show q.stack = _
      rw [hmore, hstack, List.append_assoc]
    · intro b hb hcase
      have hbr : b ∈ r.stack := by rw [hstack]; simp [hb]
      have hbe : b ∈ r.entered := h.sound.mem_entered_of_mem_stack hbr
      have hnum : q.number b = r.number b := hc.extends_.number b hbe
      show _ ≤ q.number b
      rw [hlow]
      have hfinish : (r.low name ≤ r.number b ∨ q.low target ≤ q.number b) →
          min (q.low target) (r.low name) ≤ q.number b := by
        rw [hnum]
        omega
      refine hfinish ?_
      rcases hcase with hbd | ⟨a, ha, hab⟩
      · rcases List.mem_cons.1 hbd with rfl | hbd
        · exact absurd hbe ht
        · exact Or.inl (hbound b hb (Or.inl hbd))
      · rcases List.mem_append.1 ha with ha | ha
        · exact Or.inr (hmorebound a ha b hbr hab)
        · exact Or.inl (hbound b hb (Or.inr ⟨a, ha, hab⟩))

/-- An edge back to a name on the stack: its number counts for `name`. -/
theorem follow_stack (h : Following g path s name done r) (hn : name ∉ s.entered)
    (ht : target ∈ r.stack) (hl : g.Leads name target) :
    Following g path s name (target :: done) (r.lowerTo name (r.number target)) := by
  have hlow : (r.lowerTo name (r.number target)).low name =
      min (r.number target) (r.low name) := by
    rw [low_lowerTo, if_pos rfl]
  refine ⟨h.sound.lowerTo _ _, h.extends_.lowerTo _ _, ?_, ?_, ?_, ?_, ?_⟩
  · intro n hm
    have hne : name ≠ n := fun e => hn (e ▸ hm)
    rw [low_lowerTo, if_neg hne, h.low_eq n hm]
  · intro b hb
    rcases List.mem_cons.1 hb with rfl | hb
    · exact h.sound.mem_entered_of_mem_stack ht
    · exact h.mem_entered b hb
  · rw [hlow]
    exact Nat.le_trans (Nat.min_le_right _ _) h.low_le
  · rw [hlow]
    -- The target is where the new low comes from, unless an older one is lower.
    rcases Nat.le_total (r.low name) (r.number target) with hle | hle
    · rw [Nat.min_eq_right hle]
      exact h.low_found
    · rw [Nat.min_eq_left hle]
      exact ⟨target, ht, rfl, ReflTransGen.single hl⟩
  · obtain ⟨above, hstack, hbound⟩ := h.above
    refine ⟨above, hstack, ?_⟩
    intro b hb hcase
    rw [hlow]
    show _ ≤ r.number b
    rcases hcase with hbd | habove
    · rcases List.mem_cons.1 hbd with rfl | hbd
      · exact Nat.min_le_left _ _
      · exact Nat.le_trans (Nat.min_le_right _ _) (hbound b hb (Or.inl hbd))
    · exact Nat.le_trans (Nat.min_le_right _ _) (hbound b hb (Or.inr habove))

/-- An edge to a name that came out changes nothing. -/
theorem follow_out (h : Following g path s name done r) (ht : target ∈ r.entered)
    (hs : target ∉ r.stack) : Following g path s name (target :: done) r := by
  obtain ⟨above, hstack, hbound⟩ := h.above
  refine ⟨h.sound, h.extends_, h.low_eq, ?_, h.low_le, h.low_found, above, hstack, ?_⟩
  · intro b hb
    rcases List.mem_cons.1 hb with rfl | hb
    · exact ht
    · exact h.mem_entered b hb
  · intro b hb hcase
    rcases hcase with hbd | habove
    · rcases List.mem_cons.1 hbd with rfl | hbd
      · -- What came out is no longer on the stack, and so not below `name`.
        exact absurd (by rw [hstack]; simp [hb]) hs
      · exact hbound b hb (Or.inl hbd)
    · exact hbound b hb (Or.inr habove)

/-! ### Leaving a name -/

/-- What has come on the stack since `name` was entered has greater numbers. -/
theorem number_above {above : List String} (h : Following g path s name done r)
    (hstack : r.stack = above ++ name :: s.stack) (hn : name ∉ s.entered) {a : String}
    (ha : a ∈ above) : s.next < r.number a := by
  have hsorted := h.sound.sorted
  rw [hstack, List.pairwise_append] at hsorted
  rw [← h.number_name hn]
  exact hsorted.2.2 a ha name List.mem_cons_self

/-- What was on the stack before `name` was entered has kept its number. -/
theorem number_below (h : Following g path s name done r) (hs : s.Sound g path)
    (hn : name ∉ s.entered) {b : String} (hb : b ∈ s.stack) : r.number b = s.number b := by
  have hbe := hs.mem_entered_of_mem_stack hb
  rw [h.extends_.number b ((mem_entered_enter hn).2 (Or.inr hbe)), (extends_enter hn).number b hbe]

/-- What was on the stack before has a lower number than the name. -/
theorem number_below_lt (h : Following g path s name done r) (hs : s.Sound g path)
    (hn : name ∉ s.entered) {b : String} (hb : b ∈ s.stack) : r.number b < s.next := by
  rw [h.number_below hs hn hb]
  exact hs.number_lt b (hs.mem_entered_of_mem_stack hb)

/-- All edges having been followed, no edge off the old path leads to a new name. -/
theorem followed_all (h : Following g path s name done r) (hall : ∀ b, g.Leads name b → b ∈ done) :
    ∀ a ∈ r.entered, a ∉ path → ∀ b, g.Leads a b → b ∈ r.entered := by
  intro a ha hap b hab
  by_cases hane : a = name
  · exact h.mem_entered b (hall b (hane ▸ hab))
  · exact h.sound.followed a ha (by simp [hane, hap]) b hab

/-- Once `name` is off the path, and with what is `above` off the stack, it is still known
from where each name was entered. -/
theorem entered_from_left (h : Following g path s name done r) (above : List String)
    {upper under : List String} {b : String} (hstack : r.stack = above ++ upper ++ b :: under)
    (hne : under ≠ []) :
    ∃ between a rest, under = between ++ a :: rest ∧ g.Leads a b ∧
      ∀ z ∈ between, z ∉ path ∧ ∀ c ∈ upper ++ [b], ¬ g.Leads z c := by
  obtain ⟨between, a, rest, hunder, hab, hbetween⟩ := h.sound.entered_from _ b under hstack hne
  refine ⟨between, a, rest, hunder, hab, fun z hz => ⟨fun hzp => ?_, fun c hc => ?_⟩⟩
  · exact (hbetween z hz).1 (List.mem_cons_of_mem _ hzp)
  · refine (hbetween z hz).2 c ?_
    rw [List.append_assoc]
    exact List.mem_append_right _ hc

/-- A name whose low is less than its number waits on the stack for an earlier name. -/
theorem leave_later (h : Following g path s name done r) (hs : s.Sound g path)
    (hn : name ∉ s.entered) (hall : ∀ b, g.Leads name b → b ∈ done) (hlow : r.low name < s.next) :
    r.Sound g path ∧ Connected g s name r := by
  obtain ⟨above, hstack, hbound⟩ := h.above
  obtain ⟨z, hz, hzl, hzr⟩ := h.low_found
  -- The name found is below `name` on the stack, since its number is less.
  have hzold : z ∈ s.stack := by
    rw [hstack, List.mem_append, List.mem_cons] at hz
    rcases hz with hz | rfl | hz
    · have := h.number_above hstack hn hz
      omega
    · have := h.number_name hn
      omega
    · exact hz
  have hsubold : ∀ b ∈ s.stack, b ∈ r.stack := fun b hb => by rw [hstack]; simp [hb]
  refine ⟨?_, ?_⟩
  · refine { h.sound with
      path_sub := ?_, path_sorted := (List.pairwise_cons.1 h.sound.path_sorted).2,
      followed := h.followed_all hall, entered_from := ?_, down := ?_ }
    · exact fun n hm => h.sound.path_sub n (List.mem_cons_of_mem _ hm)
    · exact fun _ _ _ => h.entered_from_left []
    · intro b hb
      obtain ⟨a, ha, hle, hba⟩ := h.sound.down b hb
      rcases List.mem_cons.1 ha with rfl | ha
      · -- `b` reaches `name`, then the name found, then the path.
        obtain ⟨p, hp, hpz, hzp⟩ := hs.down z hzold
        refine ⟨p, hp, ?_, hba.trans (hzr.trans hzp)⟩
        have hpnum := h.number_below hs hn (hs.path_sub p hp)
        have hznum := h.number_below hs hn hzold
        have hnum := h.number_name hn
        omega
      · exact ⟨a, ha, hle, hba⟩
  · refine ⟨(extends_enter hn).trans h.extends_, h.low_eq, h.name_mem_entered, ?_, ?_⟩
    · refine ⟨above ++ [name], by simp [hstack], ?_⟩
      intro a ha b hb hab
      rcases List.mem_append.1 ha with ha | ha
      · exact hbound b hb (Or.inr ⟨a, ha, hab⟩)
      · have hane : a = name := by simpa using ha
        exact hbound b hb (Or.inl (hall b (hane ▸ hab)))
    · exact Or.inl ⟨z, hz, hzl, hzr⟩

/-- What is left of the stack, and the component that comes out, when `name` is the first of it. -/
theorem leave_eq {above : List String} (h : Following g path s name done r)
    (hstack : r.stack = above ++ name :: s.stack) (hn : name ∉ s.entered)
    (hlow : r.low name = s.next) :
    r.leave name = { r with
      stack := s.stack, components := r.components ++ [(above ++ [name]).reverse] } := by
  have hname : name ∉ above := by
    intro hm
    have hlt := h.number_above hstack hn hm
    rw [h.number_name hn] at hlt
    exact Nat.lt_irrefl _ hlt
  unfold leave
  rw [if_pos (by rw [hlow, h.number_name hn]), hstack, popThrough_append name above s.stack hname]

/-- If `name` is the first of its component, an edge from what has come on the stack since leads
there or to what came out. -/
theorem leads_of_first {above : List String} (h : Following g path s name done r)
    (hs : s.Sound g path) (hn : name ∉ s.entered) (hall : ∀ b, g.Leads name b → b ∈ done)
    (hstack : r.stack = above ++ name :: s.stack)
    (hbound : ∀ b ∈ s.stack, (b ∈ done ∨ ∃ a ∈ above, g.Leads a b) → r.low name ≤ r.number b)
    (hlow : r.low name = s.next) {a b : String} (ha : a ∈ above ++ [name]) (hab : g.Leads a b) :
    b ∈ above ++ [name] ∨ b ∈ r.components.flatten := by
  have har : a ∈ r.entered := by
    refine h.sound.mem_entered_of_mem_stack ?_
    rw [hstack, List.append_cons]
    exact List.mem_append_left _ ha
  have hapath : a ∉ path := by
    intro hp
    have hlt := h.number_below_lt hs hn (hs.path_sub a hp)
    rcases List.mem_append.1 ha with ha | ha
    · have := h.number_above hstack hn ha
      omega
    · have hane : a = name := by simpa using ha
      rw [hane, h.number_name hn] at hlt
      exact Nat.lt_irrefl _ hlt
  rcases (h.sound.entered_iff b).1 (h.followed_all hall a har hapath b hab) with hb | hb
  · rw [hstack, List.mem_append, List.mem_cons] at hb
    rcases hb with hb | hb | hb
    · exact Or.inl (by simp [hb])
    · exact Or.inl (by simp [hb])
    · -- An edge below `name` would have lowered its low.
      have hlt := h.number_below_lt hs hn hb
      have hle : r.low name ≤ r.number b := by
        refine hbound b hb ?_
        rcases List.mem_append.1 ha with ha | ha
        · exact Or.inr ⟨a, ha, hab⟩
        · have hane : a = name := by simpa using ha
          exact Or.inl (hall b (hane ▸ hab))
      omega
  · exact Or.inr hb

/-- If `name` is the first of its component, what has come on the stack since is a class of names
that reach each other. -/
theorem class_of_first {above : List String} (h : Following g path s name done r)
    (hs : s.Sound g path) (hn : name ∉ s.entered)
    (hstack : r.stack = above ++ name :: s.stack)
    (hleads : ∀ a ∈ above ++ [name], ∀ b, g.Leads a b →
      b ∈ above ++ [name] ∨ b ∈ r.components.flatten) :
    ∀ a ∈ above ++ [name], ∀ b, b ∈ above ++ [name] ↔ g.Reaches a b ∧ g.Reaches b a := by
  have hon : ∀ a ∈ above ++ [name], a ∈ r.stack := by
    intro a ha
    rw [hstack, List.append_cons]
    exact List.mem_append_left _ ha
  have hname : name ∈ r.stack := hon name (by simp)
  -- `name` reaches everything since, for it is the first.
  have hfrom : ∀ a ∈ above ++ [name], g.Reaches name a := by
    intro a ha
    refine h.sound.up name hname a (hon a ha) ?_
    rcases List.mem_append.1 ha with ha | ha
    · rw [h.number_name hn]
      exact Nat.le_of_lt (h.number_above hstack hn ha)
    · have hane : a = name := by simpa using ha
      exact Nat.le_of_eq (by rw [hane])
  -- Everything since reaches the path, and the path reaches `name`.
  have hto : ∀ a ∈ above ++ [name], g.Reaches a name := by
    intro a ha
    obtain ⟨p, hp, -, hap⟩ := h.sound.down a (hon a ha)
    rcases List.mem_cons.1 hp with rfl | hp
    · exact hap
    · have hps := h.sound.path_sub p (List.mem_cons_of_mem _ hp)
      have hlt := h.number_below_lt hs hn (hs.path_sub p hp)
      refine hap.trans (h.sound.up p hps name hname ?_)
      rw [h.number_name hn]
      exact Nat.le_of_lt hlt
  -- What came out is closed under edges, so nothing there reaches the stack.
  have hout : ∀ a ∈ r.components.flatten, ∀ b, g.Reaches a b → b ∈ r.components.flatten := by
    intro a ha b hab
    induction hab with
    | refl => exact ha
    | tail _ hbc ih => exact h.sound.closed _ ih _ hbc
  have hreach : ∀ a ∈ above ++ [name], ∀ b, g.Reaches a b →
      b ∈ above ++ [name] ∨ b ∈ r.components.flatten := by
    intro a ha b hab
    induction hab with
    | refl => exact Or.inl ha
    | tail _ hbc ih =>
      rcases ih with ih | ih
      · exact hleads _ ih _ hbc
      · exact Or.inr (h.sound.closed _ ih _ hbc)
  intro a ha b
  refine ⟨fun hb => ⟨(hto a ha).trans (hfrom b hb), (hto b hb).trans (hfrom a ha)⟩, ?_⟩
  rintro ⟨hab, hba⟩
  rcases hreach a ha b hab with hb | hb
  · exact hb
  · exact absurd rfl ((List.nodup_append.1 h.sound.nodup).2.2 a (hon a ha) a (hout b hb a hba))

/-- What has come on the stack since `name` was entered, and `name` itself, are in the order in
which they were entered: none of them was entered from below `name`, which is on the path. -/
theorem traced_of_first {above : List String} (h : Following g path s name done r)
    (hstack : r.stack = above ++ name :: s.stack) : g.Traced (above ++ [name]).reverse := by
  intro earlier b later heq hne
  have hcomponent : above ++ [name] = later.reverse ++ b :: earlier.reverse := by
    have hreverse := congrArg List.reverse heq
    simpa using hreverse
  have hsplit : r.stack = later.reverse ++ b :: (earlier.reverse ++ s.stack) := by
    rw [hstack, List.append_cons, hcomponent]
    simp
  have hname : name ∈ earlier.reverse := by
    cases earlier with
    | nil => exact absurd rfl hne
    | cons first earlier =>
      have hfirst : name = first ∧ above.reverse = earlier ++ b :: later := by simpa using heq
      simp [hfirst.1]
  obtain ⟨between, a, rest, hunder, hab, hbetween⟩ :=
    h.sound.entered_from _ b _ hsplit (by simp [hne])
  have hlater : ∀ z ∈ between, ∀ y ∈ b :: later, ¬ g.Leads z y := by
    intro z hz y hy
    refine (hbetween z hz).2 y ?_
    simpa [or_comm] using hy
  rcases List.append_eq_append_iff.1 hunder with ⟨more, hmore, -⟩ | ⟨more, hmore, hrest⟩
  · -- Below the whole component, `name` would have been left.
    refine absurd List.mem_cons_self ((hbetween name ?_).1)
    rw [hmore]
    exact List.mem_append_left _ hname
  · cases more with
    | nil =>
      rw [List.append_nil] at hmore
      exact absurd List.mem_cons_self ((hbetween name (hmore ▸ hname)).1)
    | cons x more =>
      obtain ⟨rfl, -⟩ := List.cons.inj hrest
      refine ⟨more.reverse, a, between.reverse, ?_, hab, fun z hz => hlater z (by simpa using hz)⟩
      have hreverse := congrArg List.reverse hmore
      simpa using hreverse

/-- A name whose low is its number is the first of its component, which comes out. -/
theorem leave_first (h : Following g path s name done r) (hs : s.Sound g path)
    (hn : name ∉ s.entered) (hall : ∀ b, g.Leads name b → b ∈ done) (hlow : r.low name = s.next) :
    (r.leave name).Sound g path ∧ Connected g s name (r.leave name) := by
  obtain ⟨above, hstack, hbound⟩ := h.above
  have hleads : ∀ a ∈ above ++ [name], ∀ b, g.Leads a b →
      b ∈ above ++ [name] ∨ b ∈ r.components.flatten :=
    fun a ha b hab => h.leads_of_first hs hn hall hstack hbound hlow ha hab
  have hclass := h.class_of_first hs hn hstack hleads
  have hstack' : r.stack = (above ++ [name]) ++ s.stack := by rw [hstack, List.append_cons]
  have hnum : ∀ b ∈ s.stack, r.number b = s.number b := fun b => h.number_below hs hn
  have hold : ∀ b ∈ s.stack, b ∈ r.stack := fun b hb => by rw [hstack']; simp [hb]
  rw [h.leave_eq hstack hn hlow]
  set component := above ++ [name] with hcomponent
  refine ⟨⟨h.sound.names, h.sound.number_lt, ?_, ?_, ?_, hs.path_sub,
    (List.pairwise_cons.1 h.sound.path_sorted).2, ?_, ?_, ?_, h.followed_all hall, ?_, ?_, ?_, ?_⟩,
    ?_⟩
  · have hsorted := h.sound.sorted
    rw [hstack', List.pairwise_append] at hsorted
    exact hsorted.2.1
  · intro n
    show n ∈ r.entered ↔ _
    rw [h.sound.entered_iff n, hstack']
    simp only [List.flatten_append, List.flatten_singleton, List.mem_append, List.mem_reverse]
    rw [or_comm (a := n ∈ component), or_assoc, or_comm (a := n ∈ component)]
  -- The component goes from the top of the stack to the end of what came out.
  · have hnodup := h.sound.nodup
    rw [hstack', List.append_assoc] at hnodup
    simp only [List.flatten_append, List.flatten_singleton]
    have hperm : (component ++ (s.stack ++ r.components.flatten)).Perm
        (s.stack ++ (r.components.flatten ++ component.reverse)) := by
      rw [← List.append_assoc s.stack]
      exact List.perm_append_comm.trans (List.Perm.append_left _ component.reverse_perm.symm)
    exact hperm.nodup_iff.1 hnodup
  · intro c hc
    rcases List.mem_append.1 hc with hc | hc
    · exact h.sound.classes c hc
    · rw [List.mem_singleton.1 hc]
      refine ⟨by simp [hcomponent], fun a ha b => ?_⟩
      rw [List.mem_reverse] at ha ⊢
      exact hclass a ha b
  · intro a ha b hab
    simp only [List.flatten_append, List.flatten_singleton, List.mem_append,
      List.mem_reverse] at ha ⊢
    rcases ha with ha | ha
    · exact Or.inl (h.sound.closed a ha b hab)
    · exact (hleads a ha b hab).symm
  -- An earlier component is closed under edges, and the new one was on the stack until now.
  · refine List.pairwise_append.2 ⟨h.sound.ordered, List.pairwise_singleton _ _, ?_⟩
    intro c hc d hd a ha b hb hab
    rw [List.mem_singleton.1 hd, List.mem_reverse] at hb
    have hbout := h.sound.closed a (List.mem_flatten.2 ⟨c, hc, ha⟩) b hab
    have hbstack : b ∈ r.stack := by rw [hstack']; exact List.mem_append_left _ hb
    exact (List.nodup_append.1 h.sound.nodup).2.2 b hbstack b hbout rfl
  -- What stays on the stack had the component above it.
  · intro upper b under heq hne
    replace heq : s.stack = upper ++ b :: under := heq
    have hsplit : r.stack = component ++ upper ++ b :: under := by
      rw [hstack', heq, ← List.append_assoc]
    exact h.entered_from_left component hsplit hne
  · intro c hc
    rcases List.mem_append.1 hc with hc | hc
    · exact h.sound.traced c hc
    · rw [List.mem_singleton.1 hc]
      exact h.traced_of_first hstack
  · intro a ha b hb hle
    exact h.sound.up a (hold a ha) b (hold b hb) hle
  · intro b hb
    obtain ⟨a, hap, hle, hba⟩ := hs.down b hb
    refine ⟨a, hap, ?_, hba⟩
    show r.number a ≤ r.number b
    rw [hnum a (hs.path_sub a hap), hnum b hb]
    exact hle
  · have hext := (extends_enter hn).trans h.extends_
    refine ⟨⟨hext.entered, hext.number, hext.next_le⟩, h.low_eq, h.name_mem_entered, ?_, ?_⟩
    · exact ⟨[], rfl, by simp⟩
    · exact Or.inr (Nat.le_of_eq hlow.symm)

end Following

end Search

/-! ### The whole search -/

namespace Graph

open Search

variable {g : Graph} {path : List String} {s r : Search} {name : String}

/-- Entering a name and leaving it again keeps the search sound. -/
def Connects (g : Graph) (path : List String) (s : Search) (name : String) : Prop :=
  (g.connect s name).Sound g path ∧ Connected g s name (g.connect s name)

/-- All edges of a name are followed, if what can be entered on the way is connected. -/
theorem follow_targets (hn : name ∉ s.entered)
    (hconnect : ∀ (r : Search) (target : String), r.Sound g (name :: path) →
      (s.enter name).Extends r → target ∉ r.entered → g.Leads name target →
      g.Connects (name :: path) r target)
    (targets : List String) (hleads : ∀ b ∈ targets, g.Leads name b) {done : List String}
    (h : Following g path s name done r) :
    Following g path s name (targets.reverse ++ done) (g.run r (targets.map (.follow name))) := by
  induction targets generalizing r done with
  | nil => simpa [run] using h
  | cons target targets ih =>
    have hl := hleads target List.mem_cons_self
    have hrest : ∀ b ∈ targets, g.Leads name b := fun b hb => hleads b (List.mem_cons_of_mem _ hb)
    rw [List.reverse_cons, List.append_assoc, List.singleton_append, List.map_cons]
    by_cases hnew : target ∉ r.entered
    · -- A new target is searched before the next one is looked at.
      rw [run_follow_new g r name target _ ⟨hnew, hl.mem_names_right⟩]
      obtain ⟨hsound, hconnected⟩ := hconnect r target h.sound h.extends_ hnew hl
      exact ih hrest (h.follow_new hn hnew hl hsound hconnected)
    · rw [run, dif_neg (fun hc => hnew hc.1)]
      -- An old one only lowers, if it is on the stack, or else is done with.
      have hold : target ∈ r.entered := Classical.not_not.1 hnew
      by_cases hs : target ∈ r.stack
      · rw [if_pos (by simpa using hs)]
        exact ih hrest (h.follow_stack hn hs hl)
      · rw [if_neg (by simpa using hs)]
        exact ih hrest (h.follow_out hold hs)

/-- **Leaving a name.** Its low is its own number or less; in the first case a component comes out,
in the second the name waits on the stack. -/
theorem leave_name (hs : s.Sound g path) (hn : name ∉ s.entered) {done : List String}
    (h : Following g path s name done r) (hall : ∀ b, g.Leads name b → b ∈ done) :
    (r.leave name).Sound g path ∧ Connected g s name (r.leave name) := by
  rcases Nat.lt_or_eq_of_le h.low_le with hlow | hlow
  · have hwait : r.leave name = r := by
      unfold Search.leave
      rw [if_neg (by rw [h.number_name hn]; exact Nat.ne_of_lt hlow)]
    rw [hwait]
    exact h.leave_later hs hn hall hlow
  · exact h.leave_first hs hn hall hlow

/-- **Entering a name**: a search that is sound on a path whose last name leads to the name is sound
on that path again once the name has been left. -/
theorem connects (hs : s.Sound g path) (hn : name ∉ s.entered) (hg : name ∈ g.names)
    (hp : ∀ a ∈ path.head?, g.Leads a name) : g.Connects path s name := by
  induction hk : (remaining g.names s.entered).length using Nat.strongRecOn
    generalizing s path name with
  | ind k ih =>
  have hfollowed : Following g path s name ((g.next name).reverse ++ [])
      (g.run (s.enter name) ((g.next name).map (.follow name))) := by
    refine follow_targets hn ?_ (g.next name) (fun b => mem_next_iff.1) (hs.following_nil hn hg hp)
    intro r target hr hext ht hl
    -- `name` has been entered since, so fewer names remain.
    have hlt : (remaining g.names r.entered).length < k := by
      rw [← hk]
      refine length_remaining_lt ?_ hn (hext.entered name ?_) hg
      · exact fun n hm => hext.entered n ((mem_entered_enter hn).2 (Or.inr hm))
      · exact (mem_entered_enter hn).2 (Or.inl rfl)
    exact ih _ hlt hr ht hl.mem_names_right (by simpa using hl) rfl
  have hconnect : g.connect s name =
      (g.run (s.enter name) ((g.next name).map (.follow name))).leave name := by
    rw [connect, visit, run_append, run, run]
  unfold Connects
  rw [hconnect]
  refine leave_name hs hn hfollowed ?_
  intro b hb
  simpa using mem_next_iff.2 hb

/-- Starting at all of some names keeps a search sound, and enters them. -/
theorem run_start (hs : s.Sound g []) (starts : List String) (hstarts : ∀ n ∈ starts, n ∈ g.names) :
    (g.run s (starts.map .start)).Sound g [] ∧
      (∀ n ∈ s.entered, n ∈ (g.run s (starts.map .start)).entered) ∧
      ∀ n ∈ starts, n ∈ (g.run s (starts.map .start)).entered := by
  induction starts generalizing s with
  | nil => exact ⟨by simpa [run] using hs, by simp [run], by simp⟩
  | cons name starts ih =>
    have hname := hstarts name List.mem_cons_self
    have hrest : ∀ n ∈ starts, n ∈ g.names := fun n hm => hstarts n (List.mem_cons_of_mem _ hm)
    rw [List.map_cons]
    by_cases hnew : name ∉ s.entered
    · -- Nothing is open between two starts, so the search of the name ends with an empty path
      -- again.
      rw [run_start_new g s name _ ⟨hnew, hname⟩]
      obtain ⟨hsound, hconnected⟩ := connects hs hnew hname (by simp)
      obtain ⟨h1, h2, h3⟩ := ih hsound hrest
      refine ⟨h1, fun n hm => h2 n (hconnected.extends_.entered n hm), ?_⟩
      intro n hm
      rcases List.mem_cons.1 hm with rfl | hm
      · exact h2 n hconnected.mem_entered
      · exact h3 n hm
    · rw [run, dif_neg (fun hc => hnew hc.1)]
      obtain ⟨h1, h2, h3⟩ := ih hs hrest
      refine ⟨h1, h2, ?_⟩
      intro n hm
      rcases List.mem_cons.1 hm with rfl | hm
      · exact h2 n (Classical.not_not.1 hnew)
      · exact h3 n hm

/-- Before anything is entered the search is sound, on the empty path. -/
theorem sound_start (g : Graph) : Search.Sound g [] {} where
  names := by simp [Search.entered, Keyed.names]
  number_lt := by simp [Search.entered, Keyed.names]
  sorted := List.Pairwise.nil
  entered_iff := by simp [Search.entered, Keyed.names]
  nodup := by simp
  path_sub := by simp
  path_sorted := List.Pairwise.nil
  classes := by simp
  closed := by simp
  ordered := List.Pairwise.nil
  followed := by simp [Search.entered, Keyed.names]
  entered_from := by simp
  traced := by simp
  up := by simp
  down := by simp

/-- The search over all names is sound and has left every name. -/
theorem sound_search (g : Graph) : g.search.Sound g [] :=
  (run_start (sound_start g) g.names fun _ => id).1

/-- In the end every name was entered. -/
theorem mem_entered_search (g : Graph) {n : String} : n ∈ g.search.entered ↔ n ∈ g.names :=
  ⟨(sound_search g).names n, (run_start (sound_start g) g.names fun _ => id).2.2 n⟩

/-- No name waits on the stack at the end, for it would have to reach a name on the path. -/
theorem stack_search (g : Graph) : g.search.stack = [] := by
  refine List.eq_nil_iff_forall_not_mem.2 fun b hb => ?_
  obtain ⟨a, ha, -⟩ := (sound_search g).down b hb
  simp at ha

end Graph

end ReactiveSpace
