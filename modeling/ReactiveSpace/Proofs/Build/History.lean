import Mathlib.Algebra.GroupWithZero.Nat
import Mathlib.Data.List.Forall2
import ReactiveSpace.Build.Bundle
import ReactiveSpace.Proofs.Keyed

/-!
# The history of a bundle

A bundle answers from two collections, the files that can be taken and the names of those that were.
What it answers is already settled by what has happened to it: a file can be taken if, since it was
put there, nothing was put under its name and nothing was taken from it (`Loadable`); its name is
spent if, since it was taken, nothing was put under it (`Spent`). Both are of one form, an event of
one sort with none of another sort after it, and `sinceAt_concat` says what one more event does to
such a fact.

`Recorded` says that a bundle agrees with its history. One request keeps that (`Recorded.perform`),
so every run does (`Recorded.run`), and `history_exact` reads the answers off it.
-/

namespace ReactiveSpace.Bundle

variable {σ : Type}

/-! ### Requests and events -/

/-- What can be asked of a bundle. -/
inductive Request (σ : Type) where
  | insert (name : String) (image : Image σ)
  | take (name : String)
  | loadLibrary

/-- What a request did to a bundle. -/
inductive Event (σ : Type) where
  | inserted (name : String) (image : Image σ)
  | took (name : String) (image : Image σ)
  | refused (name : String) (error : LoadError)

namespace Event

/-- A file was put under the name. -/
def Inserts (name : String) (e : Event σ) : Prop :=
  ∃ image, e = .inserted name image

/-- The file of the name was taken. -/
def Takes (name : String) (e : Event σ) : Prop :=
  ∃ image, e = .took name image

@[simp] theorem inserts_inserted {name other : String} {image : Image σ} :
    Inserts name (.inserted other image) ↔ other = name := by
  simp [Inserts]

@[simp] theorem inserts_took {name other : String} {image : Image σ} :
    ¬ Inserts name (.took other image) := by
  simp [Inserts]

@[simp] theorem inserts_refused {name other : String} {error : LoadError} :
    ¬ Inserts name (.refused other error : Event σ) := by
  simp [Inserts]

@[simp] theorem takes_inserted {name other : String} {image : Image σ} :
    ¬ Takes name (.inserted other image) := by
  simp [Takes]

@[simp] theorem takes_took {name other : String} {image : Image σ} :
    Takes name (.took other image) ↔ other = name := by
  simp [Takes]

@[simp] theorem takes_refused {name other : String} {error : LoadError} :
    ¬ Takes name (.refused other error : Event σ) := by
  simp [Takes]

end Event

/-- What comes of taking a file. -/
def takeEvent (b : Bundle σ) (name : String) : Event σ :=
  match (b.take name).1 with
  | .ok image => .took name image
  | .error error => .refused name error

/-- What a request does. Loading the library takes it, whether or not its image opens. -/
def perform (b : Bundle σ) : Request σ → Event σ × Bundle σ
  | .insert name image => (.inserted name image, b.insert name image)
  | .take name => (b.takeEvent name, (b.take name).2)
  | .loadLibrary => (b.takeEvent b.libraryName, b.loadLibrary.2)

/-- What happens when requests are made one after the other, and the bundle that is left. -/
def run (b : Bundle σ) : List (Request σ) → List (Event σ) × Bundle σ
  | [] => ([], b)
  | r :: rest =>
    let (e, next) := b.perform r
    let (later, last) := next.run rest
    (e :: later, last)

/-- A bundle without its file of a name, which is spent. -/
def spend (b : Bundle σ) (name : String) : Bundle σ :=
  { b with
    files := b.files.filter fun f => f.1 != name
    taken := name :: b.taken }

/-- A file that was taken is gone, and all others stay. -/
theorem get?_files_spend (b : Bundle σ) (name other : String) :
    Keyed.get? other (b.spend name).files =
      if name = other then none else Keyed.get? other b.files := by
  split
  · rename_i ho
    rw [Keyed.get?_eq_none_iff]
    simp [spend, Keyed.names, ho]
  · rename_i ho
    have hkeep : (other != name) = true := bne_iff_ne.2 (Ne.symm ho)
    exact @Keyed.get?_filter _ other (fun n => n != name) hkeep b.files

theorem names_spend (b : Bundle σ) (name : String) :
    (b.spend name).names = b.names.filter fun n => n != name := by
  simp [spend, names, Keyed.names, List.filter_map, Function.comp_def]

/-- A file that is there is spent; else the error says whether it was taken, and nothing changes. -/
theorem take_cases (b : Bundle σ) (name : String) :
    (∃ image, Keyed.get? name b.files = some image ∧ b.take name = (.ok image, b.spend name)) ∨
    (Keyed.get? name b.files = none ∧ name ∈ b.taken ∧
      b.take name = (.error (.alreadyTaken name), b)) ∨
    (Keyed.get? name b.files = none ∧ name ∉ b.taken ∧
      b.take name = (.error (.notFound name), b)) := by
  rw [take]
  cases Keyed.get? name b.files with
  | some image => exact .inl ⟨image, rfl, rfl⟩
  | none =>
    by_cases ht : name ∈ b.taken
    · exact .inr (.inl ⟨rfl, ht, by simp [ht]⟩)
    · exact .inr (.inr ⟨rfl, ht, by simp [ht]⟩)

/-- A take that fails changes nothing. -/
theorem take_of_error {b : Bundle σ} {name : String} {error : LoadError}
    (h : (b.take name).1 = .error error) : b.take name = (.error error, b) := by
  rcases b.take_cases name with ⟨image, -, ht⟩ | ⟨-, -, ht⟩ | ⟨-, -, ht⟩
  · simp [ht] at h
  · rw [ht] at h ⊢
    exact Prod.ext h rfl
  · rw [ht] at h ⊢
    exact Prod.ext h rfl

/-- A file is put there, or one that is there is taken, or nothing changes. -/
theorem perform_cases (b : Bundle σ) (r : Request σ) :
    (∃ name image, b.perform r = (.inserted name image, b.insert name image)) ∨
    (∃ name image, Keyed.get? name b.files = some image ∧
      b.perform r = (.took name image, b.spend name)) ∨
    ∃ name error, b.perform r = (.refused name error, b) := by
  have htake : ∀ name,
      (∃ image, Keyed.get? name b.files = some image ∧
        (b.takeEvent name, (b.take name).2) = (.took name image, b.spend name)) ∨
      ∃ error, (b.takeEvent name, (b.take name).2) = (.refused name error, b) := by
    intro name
    rw [takeEvent]
    rcases b.take_cases name with ⟨image, hget, h⟩ | ⟨-, -, h⟩ | ⟨-, -, h⟩
    · exact .inl ⟨image, hget, by rw [h]⟩
    · exact .inr ⟨_, by rw [h]⟩
    · exact .inr ⟨_, by rw [h]⟩
  -- Loading the library is a take of its name.
  cases r with
  | insert name image => exact .inl ⟨name, image, rfl⟩
  | take name =>
    rcases htake name with ⟨image, hget, h⟩ | ⟨error, h⟩
    · exact .inr (.inl ⟨name, image, hget, h⟩)
    · exact .inr (.inr ⟨name, error, h⟩)
  | loadLibrary =>
    rcases htake b.libraryName with ⟨image, hget, h⟩ | ⟨error, h⟩
    · exact .inr (.inl ⟨b.libraryName, image, hget, h⟩)
    · exact .inr (.inr ⟨b.libraryName, error, h⟩)

/-! ### What a history says -/

section History

variable {p q : Event σ → Prop} {history : List (Event σ)} {name : String} {image : Image σ}
  {k : Nat}

/-- The event at place `k` is a `p`, and no later event is a `q`. -/
def SinceAt (p q : Event σ → Prop) (history : List (Event σ)) (k : Nat) : Prop :=
  (∃ e, history[k]? = some e ∧ p e) ∧ ∀ e ∈ history.drop (k + 1), ¬ q e

/-- Some event is a `p`, and no later event is a `q`. -/
def Since (p q : Event σ → Prop) (history : List (Event σ)) : Prop :=
  ∃ k, SinceAt p q history k

/-- The file is the last that was put under the name, and it was not taken since. -/
def Loadable (history : List (Event σ)) (name : String) (image : Image σ) : Prop :=
  Since (· = .inserted name image) (fun e => e.Inserts name ∨ e.Takes name) history

/-- A file was put under the name, and one was taken from it after the last that was put there. -/
def Spent (history : List (Event σ)) (name : String) : Prop :=
  (∃ e ∈ history, e.Inserts name) ∧ Since (Event.Takes name) (Event.Inserts name) history

/-- At place `k` a file was put under a name from which none could be taken, and since then none
was taken. -/
def LoadableSince (history : List (Event σ)) (name : String) (k : Nat) : Prop :=
  SinceAt (Event.Inserts name) (Event.Takes name) history k ∧
    ¬ ∃ image, Loadable (history.take k) name image

theorem SinceAt.lt (h : SinceAt p q history k) : k < history.length := by
  obtain ⟨⟨e, he, -⟩, -⟩ := h
  exact (List.getElem?_eq_some_iff.1 he).1

theorem LoadableSince.lt (h : LoadableSince history name k) : k < history.length :=
  h.1.lt

/-- **One more event.** It is what the fact is about, or the fact held before and the event does
not end it. All that is said of histories goes through this. -/
theorem sinceAt_concat {e : Event σ} :
    SinceAt p q (history ++ [e]) k ↔
      (k = history.length ∧ p e) ∨ (¬ q e ∧ SinceAt p q history k) := by
  constructor
  · intro h
    have hk : k < history.length + 1 := by simpa using h.lt
    obtain ⟨⟨x, hx, hpx⟩, hafter⟩ := h
    -- The place is one in the old history, or that of the new event.
    rcases Nat.lt_succ_iff_lt_or_eq.1 hk with hlt | rfl
    · rw [List.getElem?_append_left hlt] at hx
      rw [List.drop_append_of_le_length hlt] at hafter
      exact .inr ⟨hafter e (by simp), ⟨x, hx, hpx⟩, fun y hy => hafter y (by simp [hy])⟩
    · rw [List.getElem?_concat_length, Option.some.injEq] at hx
      exact .inl ⟨rfl, hx ▸ hpx⟩
  · rintro (⟨rfl, hp⟩ | ⟨hq, h⟩)
    · exact ⟨⟨e, List.getElem?_concat_length, hp⟩, by simp⟩
    · have hlt := h.lt
      obtain ⟨⟨x, hx, hpx⟩, hafter⟩ := h
      refine ⟨⟨x, by rwa [List.getElem?_append_left hlt], hpx⟩, ?_⟩
      rw [List.drop_append_of_le_length hlt]
      intro y hy
      rcases List.mem_append.1 hy with hy | hy
      · exact hafter y hy
      · rwa [List.mem_singleton.1 hy]

theorem since_concat {e : Event σ} :
    Since p q (history ++ [e]) ↔ p e ∨ (¬ q e ∧ Since p q history) := by
  simp only [Since, sinceAt_concat, exists_or, exists_and_right, exists_and_left, exists_eq,
    true_and]

@[simp] theorem not_since_nil : ¬ Since p q [] := by
  rintro ⟨k, h⟩
  exact absurd h.lt (by simp)

/-- A file can be taken if it is the one just put there, or could be before and has another name. -/
@[simp] theorem loadable_inserted {other : String} {new : Image σ} :
    Loadable (history ++ [.inserted other new]) name image ↔
      (other = name ∧ new = image) ∨ (other ≠ name ∧ Loadable history name image) := by
  simp [Loadable, since_concat]

@[simp] theorem loadable_took {other : String} {old : Image σ} :
    Loadable (history ++ [.took other old]) name image ↔
      other ≠ name ∧ Loadable history name image := by
  simp [Loadable, since_concat]

@[simp] theorem loadable_refused {other : String} {error : LoadError} :
    Loadable (history ++ [.refused other error]) name image ↔ Loadable history name image := by
  simp [Loadable, since_concat]

@[simp] theorem spent_inserted {other : String} {new : Image σ} :
    Spent (history ++ [.inserted other new]) name ↔ other ≠ name ∧ Spent history name := by
  by_cases h : other = name <;> simp [Spent, since_concat, h]

/-- A name is spent by a take, if there ever was a file of this name. -/
@[simp] theorem spent_took {other : String} {old : Image σ} :
    Spent (history ++ [.took other old]) name ↔
      (other = name ∧ ∃ e ∈ history, e.Inserts name) ∨ Spent history name := by
  by_cases h : other = name <;> simp [Spent, since_concat, h]
  tauto

@[simp] theorem spent_refused {other : String} {error : LoadError} :
    Spent (history ++ [.refused other error]) name ↔ Spent history name := by
  simp [Spent, since_concat]

/-- The place since which a name has a file is set by the first file after none, not by one that
replaces another. -/
theorem loadableSince_concat {e : Event σ} :
    LoadableSince (history ++ [e]) name k ↔
      (k = history.length ∧ e.Inserts name ∧ ¬ ∃ image, Loadable history name image) ∨
      (¬ e.Takes name ∧ LoadableSince history name k) := by
  rw [LoadableSince, sinceAt_concat, or_and_right]
  apply or_congr
  · constructor
    · rintro ⟨⟨rfl, he⟩, hno⟩
      exact ⟨rfl, he, by simpa using hno⟩
    · rintro ⟨rfl, he, hno⟩
      exact ⟨⟨rfl, he⟩, by simpa using hno⟩
  · rw [and_assoc]
    refine and_congr_right fun _ => and_congr_right fun h => ?_
    rw [List.take_append_of_le_length (Nat.le_of_lt h.lt)]

/-- A name under which a file was put, and from which none was taken since, has a file. -/
theorem Since.exists_loadable (h : Since (Event.Inserts name) (Event.Takes name) history) :
    ∃ image, Loadable history name image := by
  induction history using List.reverseRecOn with
  | nil => exact absurd h not_since_nil
  | append_singleton history e ih =>
    rw [since_concat] at h
    cases e with
    | inserted other new =>
      by_cases ho : other = name
      · -- A newer file of the same name takes the place of the old one.
        exact ⟨new, by simp [ho]⟩
      · obtain ⟨image, himage⟩ := ih (by simpa [ho] using h)
        exact ⟨image, by simp [ho, himage]⟩
    | took other old =>
      by_cases ho : other = name
      · simp [ho] at h
      · obtain ⟨image, himage⟩ := ih (by simpa [ho] using h)
        exact ⟨image, by simp [ho, himage]⟩
    | refused other error => simpa using ih (by simpa using h)

/-- A name has a file exactly if there is a place since which it has had one. -/
theorem exists_loadableSince_iff :
    (∃ k, LoadableSince history name k) ↔ ∃ image, Loadable history name image := by
  constructor
  · rintro ⟨k, h, -⟩
    exact Since.exists_loadable ⟨k, h⟩
  · intro h
    induction history using List.reverseRecOn with
    | nil => simp [Loadable] at h
    | append_singleton history e ih =>
      simp only [loadableSince_concat]
      -- If the name had a file already, nothing has ended it since.
      by_cases hold : ∃ image, Loadable history name image
      · obtain ⟨k, hk⟩ := ih hold
        refine ⟨k, .inr ⟨?_, hk⟩⟩
        rintro ⟨old, rfl⟩
        simp at h
      · -- The name had no file, so the event put one there.
        refine ⟨history.length, .inl ⟨rfl, ?_, hold⟩⟩
        obtain ⟨image, himage⟩ := h
        rcases since_concat.1 himage with rfl | ⟨-, h⟩
        · exact ⟨image, rfl⟩
        · exact absurd ⟨image, h⟩ hold

/-- No name is both spent and has a file: the take that spent it would have ended the file, and the
insert that gave it the file would have unspent it. -/
theorem Loadable.not_spent (h : Loadable history name image) : ¬ Spent history name := by
  induction history using List.reverseRecOn with
  | nil => simp [Loadable] at h
  | append_singleton history e ih =>
    cases e with
    | inserted other new =>
      rw [loadable_inserted] at h
      rw [spent_inserted]
      rintro ⟨hne, hspent⟩
      rcases h with ⟨he, -⟩ | ⟨-, h⟩
      · exact hne he
      · exact ih h hspent
    | took other old =>
      obtain ⟨hne, h⟩ := loadable_took.1 h
      simp [hne, ih h]
    | refused other error => simpa using ih (by simpa using h)

/-- A name under which a file was put has one or is spent. -/
theorem exists_inserts_iff :
    (∃ e ∈ history, e.Inserts name) ↔
      (∃ image, Loadable history name image) ∨ Spent history name := by
  constructor
  · intro h
    induction history using List.reverseRecOn with
    | nil => simp at h
    | append_singleton history e ih =>
      have hmem : (∃ x ∈ history, x.Inserts name) ∨ e.Inserts name := by simpa [or_comm] using h
      cases e with
      | inserted other new =>
        by_cases ho : other = name
        · exact .inl ⟨new, by simp [ho]⟩
        · simpa [ho] using ih (by simpa [ho] using hmem)
      | took other old =>
        have hold : ∃ x ∈ history, x.Inserts name := by simpa using hmem
        by_cases ho : other = name
        · -- The name had a file at some time, so this take has spent it.
          exact .inr (by simpa [ho] using .inl hold)
        · simpa [ho] using ih hold
      | refused other error => simpa using ih (by simpa using hmem)
  · rintro (⟨image, k, ⟨e, he, rfl⟩, -⟩ | ⟨h, -⟩)
    · exact ⟨_, List.mem_of_getElem? he, image, rfl⟩
    · exact h

end History

/-! ### The bundle agrees with its history -/

/-- The files of a bundle, the spent names and the order of the files are what its history says. -/
structure Recorded (history : List (Event σ)) (b : Bundle σ) : Prop where
  get?_files_iff : ∀ name image, Keyed.get? name b.files = some image ↔ Loadable history name image
  mem_taken_iff : ∀ name, name ∈ b.taken ↔ Spent history name
  ordered : b.names.Pairwise fun a c =>
    ∀ k l, LoadableSince history a k → LoadableSince history c l → k < l

namespace Recorded

variable {history : List (Event σ)} {b : Bundle σ} {name : String}

theorem mem_names_iff (h : Recorded history b) :
    name ∈ b.names ↔ ∃ k, LoadableSince history name k := by
  rw [exists_loadableSince_iff, ← not_iff_not, names, ← Keyed.get?_eq_none_iff,
    Option.eq_none_iff_forall_ne_some]
  simp only [ne_eq, h.get?_files_iff, not_exists]

/-- No name is listed twice. -/
theorem nodup_names (h : Recorded history b) : b.names.Nodup := by
  refine h.ordered.imp_of_mem ?_
  rintro a c ha - hlt rfl
  obtain ⟨k, hk⟩ := h.mem_names_iff.1 ha
  exact absurd (hlt k k hk hk) (Nat.lt_irrefl k)

theorem new (unitName : String) : Recorded (σ := σ) [] { unitName } where
  get?_files_iff := by simp [Loadable]
  mem_taken_iff := by simp [Spent]
  ordered := List.Pairwise.nil

/-- Putting a file in keeps the agreement. A new name comes last, and a name that had a file keeps
its place. -/
theorem inserted (h : Recorded history b) (name : String) (image : Image σ) :
    Recorded (history ++ [.inserted name image]) (b.insert name image) where
  get?_files_iff := by
    intro other old
    rw [insert, Keyed.get?_insert, loadable_inserted]
    split
    · simp [*]
    · simp [*, h.get?_files_iff]
  mem_taken_iff := by
    intro other
    rw [spent_inserted, ← h.mem_taken_iff, insert, List.mem_filter, bne_iff_ne, and_comm,
      ne_comm]
  ordered := by
    -- A name that has a file has it since the same place as before.
    have hkept : ∀ a k, a ∈ b.names → LoadableSince (history ++ [.inserted name image]) a k →
        LoadableSince history a k := by
      intro a k ha hk
      rcases loadableSince_concat.1 hk with ⟨-, -, hno⟩ | ⟨-, hk⟩
      · exact absurd (exists_loadableSince_iff.1 (h.mem_names_iff.1 ha)) hno
      · exact hk
    have hold : b.names.Pairwise fun a c => ∀ k l,
        LoadableSince (history ++ [.inserted name image]) a k →
        LoadableSince (history ++ [.inserted name image]) c l → k < l :=
      h.ordered.imp_of_mem fun ha hc hlt k l hk hl => hlt k l (hkept _ k ha hk) (hkept _ l hc hl)
    show (Keyed.names (Keyed.insert name image b.files)).Pairwise _
    rw [Keyed.names_insert]
    split
    · exact hold
    · rename_i hname
      refine List.pairwise_append.2 ⟨hold, by simp, ?_⟩
      intro a ha c hc k l hk hl
      obtain rfl := List.mem_singleton.1 hc
      rcases loadableSince_concat.1 hl with ⟨rfl, -, -⟩ | ⟨-, hl⟩
      · exact (hkept a k ha hk).lt
      · exact absurd (h.mem_names_iff.2 ⟨l, hl⟩) hname

/-- Taking a file keeps the agreement. The names that are left stay in order. -/
theorem took {image : Image σ} (h : Recorded history b)
    (hget : Keyed.get? name b.files = some image) :
    Recorded (history ++ [.took name image]) (b.spend name) where
  get?_files_iff := by
    intro other old
    rw [loadable_took, ← h.get?_files_iff, get?_files_spend]
    split <;> simp [*]
  mem_taken_iff := by
    intro other
    -- What could be taken was put there.
    have hinserted : ∃ e ∈ history, e.Inserts name :=
      exists_inserts_iff.2 (.inl ⟨image, (h.get?_files_iff name image).1 hget⟩)
    rw [spent_took, ← h.mem_taken_iff, spend, List.mem_cons]
    refine or_congr_left ⟨?_, fun ho => ho.1.symm⟩
    rintro rfl
    exact ⟨rfl, hinserted⟩
  ordered := by
    -- A take sets no place.
    have hkept : ∀ a k, LoadableSince (history ++ [.took name image]) a k →
        LoadableSince history a k := by
      intro a k hk
      rcases loadableSince_concat.1 hk with ⟨-, hinserts, -⟩ | ⟨-, hk⟩
      · exact absurd hinserts Event.inserts_took
      · exact hk
    rw [names_spend]
    exact (h.ordered.filter _).imp fun hlt k l hk hl => hlt k l (hkept _ k hk) (hkept _ l hl)

/-- A refusal is no change, in the history and in the bundle. -/
theorem refused {error : LoadError} (h : Recorded history b) :
    Recorded (history ++ [.refused name error]) b where
  get?_files_iff := by simpa using h.get?_files_iff
  mem_taken_iff := by simpa using h.mem_taken_iff
  ordered := by simpa [loadableSince_concat] using h.ordered

/-- A request keeps a bundle and its history together. -/
theorem perform (h : Recorded history b) (r : Request σ) :
    Recorded (history ++ [(b.perform r).1]) (b.perform r).2 := by
  rcases b.perform_cases r with ⟨name, image, hr⟩ | ⟨name, image, hget, hr⟩ | ⟨name, error, hr⟩
  · rw [hr]
    exact h.inserted name image
  · rw [hr]
    exact h.took hget
  · rw [hr]
    exact h.refused

theorem run (h : Recorded history b) (requests : List (Request σ)) :
    Recorded (history ++ (b.run requests).1) (b.run requests).2 := by
  induction requests generalizing history b with
  | nil => simpa [Bundle.run] using h
  | cons r rest ih => simpa [Bundle.run] using ih (h.perform r)

/-- What a history says of a name is what taking its file answers. -/
theorem take_answers (h : Recorded history b) (name : String) :
    (∀ image, (b.take name).1 = .ok image ↔ Loadable history name image) ∧
    ((b.take name).1 = .error (.alreadyTaken name) ↔ Spent history name) ∧
    ((b.take name).1 = .error (.notFound name) ↔ ∀ e ∈ history, ¬ e.Inserts name) := by
  have hinserts : (∀ e ∈ history, ¬ e.Inserts name) ↔
      ¬ ((∃ image, Keyed.get? name b.files = some image) ∨ name ∈ b.taken) := by
    simp only [h.get?_files_iff, h.mem_taken_iff, ← exists_inserts_iff, not_exists, not_and]
  simp only [← h.get?_files_iff, ← h.mem_taken_iff, hinserts]
  rcases b.take_cases name with ⟨image, hget, ht⟩ | ⟨hget, hmem, ht⟩ | ⟨hget, hmem, ht⟩
  · have hmem : name ∉ b.taken := by
      rw [h.mem_taken_iff]
      exact ((h.get?_files_iff name image).1 hget).not_spent
    simp [ht, hget, hmem]
  · simp [ht, hget, hmem]
  · simp [ht, hget, hmem]

/-- The bytes that are resident are those of the files that can be taken. -/
theorem residentBytes_eq (h : Recorded history b) :
    ∃ images, List.Forall₂ (Loadable history) b.names images ∧
      b.residentBytes = (images.map Image.size).sum := by
  refine ⟨b.files.map Prod.snd, ?_, ?_⟩
  · rw [names, Keyed.names, List.forall₂_map_left_iff, List.forall₂_map_right_iff,
      List.forall₂_same]
    rintro ⟨name, image⟩ hmem
    exact (h.get?_files_iff name image).1 (Keyed.get?_of_mem h.nodup_names hmem)
  · rw [residentBytes, List.sum_eq_foldr, List.map_map, List.foldr_map]
    rfl

end Recorded

/-- **The history of a bundle.** Whatever was asked of a new bundle, taking a file gives the last
one put under its name, unless that one was taken already; it says that the file was taken if that
was after the last one was put there, and that there is none if there never was. A failure to take a
file, also the library, changes nothing, and no name is at once listed and spent. The names are
listed in the order in which they came to have a file, which a new file for a name that has one
does not change, and the bytes are those of the files that can be taken. -/
theorem history_exact (unitName : String) (requests : List (Request σ)) :
    let (history, b) := Bundle.run { unitName } requests
    (∀ name image, (b.take name).1 = .ok image ↔ Loadable history name image) ∧
    (∀ name, (b.take name).1 = .error (.alreadyTaken name) ↔ Spent history name) ∧
    (∀ name, (b.take name).1 = .error (.notFound name) ↔ ∀ e ∈ history, ¬ e.Inserts name) ∧
    (∀ name error, (b.take name).1 = .error error → (b.take name).2 = b) ∧
    (∀ error, (b.take b.libraryName).1 = .error error → b.loadLibrary = (.error error, b)) ∧
    (∀ name, ¬ (name ∈ b.names ∧ name ∈ b.taken)) ∧
    (∀ name, name ∈ b.names ↔ ∃ k, LoadableSince history name k) ∧
    (b.names.Pairwise fun a c =>
      ∀ k l, LoadableSince history a k → LoadableSince history c l → k < l) ∧
    ∃ images, List.Forall₂ (Loadable history) b.names images ∧
      b.residentBytes = (images.map Image.size).sum := by
  have h := (Recorded.new (σ := σ) unitName).run requests
  rw [List.nil_append] at h
  revert h
  -- All that counts of the run is that its history and its bundle agree.
  generalize Bundle.run { unitName } requests = result
  obtain ⟨history, b⟩ := result
  intro h
  refine ⟨fun name => (h.take_answers name).1, fun name => (h.take_answers name).2.1,
    fun name => (h.take_answers name).2.2, ?_, ?_, ?_, fun name => h.mem_names_iff, h.ordered,
    h.residentBytes_eq⟩
  · intro name error herror
    rw [take_of_error herror]
  · intro error herror
    rw [loadLibrary, take_of_error herror]
    rfl
  · -- A name that is both has a file and is spent.
    rintro name ⟨hname, htaken⟩
    obtain ⟨image, himage⟩ := exists_loadableSince_iff.1 (h.mem_names_iff.1 hname)
    exact himage.not_spent ((h.mem_taken_iff name).1 htaken)

/-- A file that is replaced keeps its place; one that is put back after it was taken goes to
the end. -/
example : (Bundle.run (σ := Unit) { unitName := "demo" }
    [.insert "a" (.data "x"), .insert "b" (.data "y"), .insert "c" (.data "z"), .take "a",
      .insert "b" (.data "yy"), .insert "a" (.data "x")]).2.names = ["b", "c", "a"] := by
  decide

end ReactiveSpace.Bundle
