import Mathlib.Logic.Function.Basic
import Mathlib.Tactic.Choose
import ReactiveSpace.Document.Factory
import ReactiveSpace.Proofs.Document.Registry

/-!
# Calls that share a factory

Calls for the clients of one factory run side by side. Each looks whether the factory keeps a
registry; if not, it hands a new one to the unit, which registers clients in it one by one and then
succeeds or fails; and a registry that was filled is offered to the factory, which keeps the first.
A step of one call can come between any two steps of another.

A registry is known by the call that made it, so that two calls return the same registry exactly if
they return that of the same call. `Course` lists what a call can have done by the time it is at a
stage. `Sound` says that every call is on its course and that the factory keeps what was published
first; one step keeps that (`Sound.step`), so every run does (`Sound.run`).
-/

namespace ReactiveSpace.Factory

/-! ### Steps of calls -/

/-- A step of a call for the clients. -/
inductive Action where
  /-- The call looks for the registry that the factory keeps. -/
  | look
  /-- The call hands a new registry to the unit. -/
  | ask
  /-- The unit registers a client. -/
  | register (client : ServiceClient)
  /-- The unit is done. -/
  | finish (outcome : Except InvokeError Unit)
  /-- The call offers its registry to the factory. -/
  | publish

/-- How far a call has come. -/
inductive Stage (ι : Type) where
  | waiting
  /-- There was no registry. -/
  | missed
  | filling
  | filled
  | failed (error : FactoryError)
  /-- The call returned the registry that the call `owner` made. -/
  | answered (owner : ι)
deriving DecidableEq

variable {ι : Type}

/-- The stage after a step of call `i`, if the call can take the step now. -/
def Stage.next (i : ι) (kept : Option ι) : Stage ι → Action → Option (Stage ι)
  | .waiting, .look =>
    match kept with
    | some owner => some (.answered owner)
    | none => some .missed
  | .missed, .ask => some .filling
  | .filling, .register _ => some .filling
  | .filling, .finish (.ok ()) => some .filled
  | .filling, .finish (.error e) => some (.failed (.bind e))
  | .filled, .publish => some (.answered (kept.getD i))
  | _, _ => none

namespace Action

/-- The registry of a call after a step of the call. -/
def fill : Action → Registry → Registry
  | .ask, _ => {}
  | .register client, r => r.register client
  | .look, r | .finish _, r | .publish, r => r

/-- Whose registry the factory keeps after a step of call `i`. -/
def keep (i : ι) : Action → Option ι → Option ι
  | .publish, kept => some (kept.getD i)
  | .look, kept | .ask, kept | .register _, kept | .finish _, kept => kept

/-- The steps of a call whose unit has registered the clients so far. -/
def asked (clients : List ServiceClient) : List Action :=
  .look :: .ask :: clients.map .register

end Action

/-- Calls that share a factory: the registry that each has made, whose registry the factory keeps,
and how far each has come. -/
structure Sharing (ι : Type) where
  registries : ι → Registry := fun _ => {}
  kept : Option ι := none
  stage : ι → Stage ι := fun _ => .waiting

namespace Sharing

/-- A step of call `i`. -/
def step [DecidableEq ι] (s : Sharing ι) (i : ι) (action : Action) : Option (Sharing ι) :=
  ((s.stage i).next i s.kept action).map fun stage =>
    { registries := Function.update s.registries i (action.fill (s.registries i))
      kept := action.keep i s.kept
      stage := Function.update s.stage i stage }

/-- Steps of calls, one after the other. -/
def run [DecidableEq ι] (s : Sharing ι) : List (ι × Action) → Option (Sharing ι)
  | [] => some s
  | (i, action) :: rest => (s.step i action).bind fun next => next.run rest

end Sharing

/-- The steps of call `i`. -/
def actionsOf [DecidableEq ι] (i : ι) (steps : List (ι × Action)) : List Action :=
  (steps.filter fun x => x.1 = i).map Prod.snd

/-- The registry in which clients were registered one after the other. -/
def registryOf (clients : List ServiceClient) : Registry :=
  clients.foldl Registry.register {}

/-- What a call at a stage has done, and what its registry then holds. -/
inductive Course : List Action → Stage ι → Registry → Prop where
  | waiting : Course [] .waiting {}
  | missed : Course [.look] .missed {}
  | told (owner : ι) : Course [.look] (.answered owner) {}
  | filling (clients : List ServiceClient) :
    Course (Action.asked clients) .filling (registryOf clients)
  | filled (clients : List ServiceClient) :
    Course (Action.asked clients ++ [.finish (.ok ())]) .filled (registryOf clients)
  | failed (clients : List ServiceClient) (e : InvokeError) :
    Course (Action.asked clients ++ [.finish (.error e)]) (.failed (.bind e)) (registryOf clients)
  | published (clients : List ServiceClient) (owner : ι) :
    Course (Action.asked clients ++ [.finish (.ok ()), .publish]) (.answered owner)
      (registryOf clients)

/-! ### One call -/

@[simp] theorem Action.keep_some (i a : ι) (action : Action) : action.keep i (some a) = some a := by
  cases action <;> rfl

theorem Action.keep_of_ne_publish {action : Action} (h : action ≠ .publish) (i : ι)
    (kept : Option ι) : action.keep i kept = kept := by
  cases action with
  | publish => exact absurd rfl h
  | look | ask | register | finish => rfl

/-- What is kept was kept before, or is the registry that is being published. -/
theorem Action.keep_eq_some {i a : ι} {action : Action} {kept : Option ι}
    (h : action.keep i kept = some a) : kept = some a ∨ (a = i ∧ action = .publish) := by
  cases action with
  | publish =>
    cases kept with
    | some owner => exact .inl h
    | none => exact .inr ⟨(Option.some.inj h).symm, rfl⟩
  | look | ask | register | finish => exact .inl h

theorem Stage.next_answered (i owner : ι) (kept : Option ι) (action : Action) :
    (Stage.answered owner).next i kept action = none := by
  cases action <;> rfl

/-- A call returns the registry that the factory keeps after the step. -/
theorem Stage.keep_of_next_answered {stage : Stage ι} {i owner : ι} {kept : Option ι}
    {action : Action} (h : stage.next i kept action = some (.answered owner)) :
    action.keep i kept = some owner := by
  cases action with
  | look =>
    cases stage <;> simp [Stage.next] at h
    cases kept <;> simp at h
    rw [Action.keep, h]
  | publish =>
    cases stage <;> simp [Stage.next] at h
    rw [Action.keep, h]
  | finish outcome => cases outcome <;> cases stage <;> simp [Stage.next] at h
  | ask | register => cases stage <;> simp [Stage.next] at h

/-- A look at a factory that keeps a registry ends the call with that one. -/
theorem Stage.of_next_look {stage next : Stage ι} {i owner : ι} {kept : Option ι}
    (h : stage.next i kept .look = some next) (hkept : kept = some owner) :
    stage = .waiting ∧ next = .answered owner := by
  cases stage <;> simp [Stage.next, hkept] at h
  exact ⟨rfl, h.symm⟩

namespace Course

variable {actions : List Action} {stage next : Stage ι} {r : Registry} {i : ι} {kept : Option ι}
  {action : Action}

/-- A call stays on course. -/
theorem step (h : Course actions stage r) (hnext : stage.next i kept action = some next) :
    Course (actions ++ [action]) next (action.fill r) := by
  cases h with
  -- A call that waits can only look at what the factory keeps.
  | waiting =>
    cases action <;> simp [Stage.next] at hnext
    cases kept <;> simp at hnext <;> subst hnext
    · exact .missed
    · exact .told _
  | missed =>
    cases action <;> simp [Stage.next] at hnext
    subst hnext
    exact .filling []
  | told owner => simp [Stage.next_answered] at hnext
  -- While it fills, it registers one client more or finishes.
  | filling clients =>
    cases action with
    | register client =>
      simp [Stage.next] at hnext
      subst hnext
      simpa [Action.asked, registryOf, Action.fill] using Course.filling (clients ++ [client])
    | finish outcome =>
      cases outcome <;> simp [Stage.next] at hnext <;> subst hnext
      · exact .failed clients _
      · exact .filled clients
    | look | ask | publish => simp [Stage.next] at hnext
  -- Only a registry that was filled is published.
  | filled clients =>
    cases action <;> simp [Stage.next] at hnext
    subst hnext
    simpa [Action.fill] using Course.published clients (kept.getD i)
  | failed clients e => cases action <;> simp [Stage.next] at hnext
  | published clients owner => simp [Stage.next_answered] at hnext

theorem eq_nil_of_waiting (h : Course actions (.waiting : Stage ι) r) : actions = [] := by
  cases h
  rfl

/-- A call that published its registry had a unit that succeeded, and returned. -/
theorem of_publish (h : Course actions stage r) (hmem : .publish ∈ actions) :
    ∃ clients owner, actions = Action.asked clients ++ [.finish (.ok ()), .publish] ∧
      stage = .answered owner ∧ r = registryOf clients := by
  cases h with
  | published clients owner => exact ⟨clients, owner, rfl, rfl, rfl⟩
  | waiting | missed | told | filling | filled | failed => simp [Action.asked] at hmem

theorem failed_iff {error : FactoryError} (h : Course actions stage r) :
    stage = .failed error ↔ ∃ e, error = .bind e ∧ .finish (.error e) ∈ actions := by
  cases h with
  | failed clients e => simp [Action.asked, eq_comm]
  | waiting | missed | told | filling | filled | published => simp [Action.asked]

/-- A call that failed published nothing. -/
theorem publish_notMem_of_failed {error : FactoryError} (h : Course actions stage r)
    (hstage : stage = .failed error) : .publish ∉ actions := by
  intro hmem
  obtain ⟨clients, owner, -, hanswered, -⟩ := h.of_publish hmem
  rw [hstage] at hanswered
  cases hanswered

end Course

/-! ### All calls -/

section Steps

variable [DecidableEq ι] {i j : ι} {action : Action} {steps : List (ι × Action)}

@[simp] theorem actionsOf_nil : actionsOf i [] = [] := rfl

@[simp] theorem actionsOf_append (later : List (ι × Action)) :
    actionsOf i (steps ++ later) = actionsOf i steps ++ actionsOf i later := by
  simp [actionsOf]

theorem actionsOf_cons (j : ι) (action : Action) (later : List (ι × Action)) :
    actionsOf i ((j, action) :: later) =
      if j = i then action :: actionsOf i later else actionsOf i later := by
  by_cases h : j = i <;> simp [actionsOf, h]

theorem mem_actionsOf : action ∈ actionsOf i steps ↔ (i, action) ∈ steps := by
  simp [actionsOf]

end Steps

namespace Sharing

variable [DecidableEq ι] {s next last : Sharing ι} {i j a : ι} {action : Action}
  {steps later : List (ι × Action)}

/-- A step moves its own call along, fills the registry of that call at most, and leaves all other
calls as they are. -/
theorem step_cases (h : s.step i action = some next) :
    (s.stage i).next i s.kept action = some (next.stage i) ∧
    next.registries i = action.fill (s.registries i) ∧
    next.kept = action.keep i s.kept ∧
    ∀ j, j ≠ i → next.stage j = s.stage j ∧ next.registries j = s.registries j := by
  rw [step, Option.map_eq_some_iff] at h
  obtain ⟨stage, hstage, rfl⟩ := h
  refine ⟨by simpa using hstage, by simp, rfl, ?_⟩
  intro j hj
  exact ⟨Function.update_of_ne hj _ _, Function.update_of_ne hj _ _⟩

/-- A call takes every step that its stage allows. -/
theorem exists_step {stage : Stage ι} (h : (s.stage i).next i s.kept action = some stage) :
    ∃ next, s.step i action = some next ∧ next.stage i = stage ∧
      next.registries i = action.fill (s.registries i) ∧ next.kept = action.keep i s.kept := by
  have hsome : (s.step i action).isSome := by simp [step, h]
  obtain ⟨next, hstep⟩ := Option.isSome_iff_exists.1 hsome
  obtain ⟨hnext, hfill, hkeep, -⟩ := step_cases hstep
  refine ⟨next, hstep, ?_, hfill, hkeep⟩
  exact Option.some.inj (hnext.symm.trans h)

theorem run_cons : s.run ((i, action) :: later) = some last ↔
    ∃ next, s.step i action = some next ∧ next.run later = some last := by
  simp [run, Option.bind_eq_some_iff]

/-- A run may be cut anywhere. -/
theorem run_append : s.run (steps ++ later) = some last ↔
    ∃ mid, s.run steps = some mid ∧ mid.run later = some last := by
  induction steps generalizing s with
  | nil => simp [run]
  | cons x rest ih =>
    obtain ⟨i, action⟩ := x
    simp only [List.cons_append, run_cons, ih]
    constructor
    · rintro ⟨next, hstep, mid, hrest, hlater⟩
      exact ⟨mid, ⟨next, hstep, hrest⟩, hlater⟩
    · rintro ⟨mid, ⟨next, hstep, hrest⟩, hlater⟩
      exact ⟨next, hstep, mid, hrest, hlater⟩

/-- A call that returned takes no more steps. -/
theorem stage_of_answered (hstage : s.stage i = .answered a) (hrun : s.run later = some last) :
    last.stage i = .answered a ∧ actionsOf i later = [] := by
  induction later generalizing s with
  | nil =>
    simp only [run, Option.some.injEq] at hrun
    exact ⟨hrun ▸ hstage, rfl⟩
  | cons x rest ih =>
    obtain ⟨j, action⟩ := x
    obtain ⟨next, hstep, hrest⟩ := run_cons.1 hrun
    obtain ⟨hnext, -, -, hother⟩ := step_cases hstep
    have hji : j ≠ i := by
      rintro rfl
      rw [hstage, Stage.next_answered] at hnext
      cases hnext
    rw [actionsOf_cons, if_neg hji]
    exact ih ((hother i hji.symm).1.trans hstage) hrest

/-- Every call is on its course, and the factory keeps a registry that was published, which is the
one that calls return. -/
structure Sound (steps : List (ι × Action)) (s : Sharing ι) : Prop where
  course : ∀ i, Course (actionsOf i steps) (s.stage i) (s.registries i)
  kept_of_answered : ∀ i a, s.stage i = .answered a → s.kept = some a
  published_of_kept : ∀ a, s.kept = some a → (a, .publish) ∈ steps
  kept_of_published : ∀ i, (i, .publish) ∈ steps → ∃ a, s.kept = some a

namespace Sound

/-- At the start no call has taken a step. -/
theorem start : Sound [] ({} : Sharing ι) where
  course := fun _ => .waiting
  kept_of_answered := by simp
  published_of_kept := by simp
  kept_of_published := by simp

/-- One step of any call keeps all calls on their courses and the first registry in its place. -/
theorem step (h : Sound steps s) (hstep : s.step i action = some next) :
    Sound (steps ++ [(i, action)]) next := by
  obtain ⟨hnext, hfill, hkeep, hother⟩ := step_cases hstep
  refine ⟨?_, ?_, ?_, ?_⟩
  · -- The call that takes the step goes on, and all others stay where they are.
    intro j
    rw [actionsOf_append, actionsOf_cons]
    by_cases hij : i = j
    · subst hij
      rw [hfill, if_pos rfl]
      exact (h.course i).step hnext
    · obtain ⟨hstage, hregistry⟩ := hother j (Ne.symm hij)
      rw [hstage, hregistry, if_neg hij, actionsOf_nil, List.append_nil]
      exact h.course j
  · intro j a hj
    by_cases hji : j = i
    · subst hji
      rw [hj] at hnext
      rw [hkeep, Stage.keep_of_next_answered hnext]
    · have hold := h.kept_of_answered j a ((hother j hji).1.symm.trans hj)
      rw [hkeep, hold, Action.keep_some]
  · -- What is kept was kept before, or it is what this step publishes.
    intro a ha
    rw [hkeep] at ha
    rcases Action.keep_eq_some ha with hold | ⟨rfl, rfl⟩
    · exact List.mem_append_left _ (h.published_of_kept a hold)
    · simp
  · intro j hj
    rw [hkeep]
    rcases List.mem_append.1 hj with hold | hnew
    · obtain ⟨a, ha⟩ := h.kept_of_published j hold
      exact ⟨a, by rw [ha, Action.keep_some]⟩
    · obtain ⟨rfl, rfl⟩ := Prod.mk.inj (List.mem_singleton.1 hnew)
      exact ⟨s.kept.getD j, rfl⟩

theorem run (h : Sound steps s) (hrun : s.run later = some last) : Sound (steps ++ later) last := by
  induction later generalizing steps s with
  | nil =>
    simp only [Sharing.run, Option.some.injEq] at hrun
    rw [List.append_nil, ← hrun]
    exact h
  | cons x rest ih =>
    obtain ⟨i, action⟩ := x
    obtain ⟨next, hstep, hrest⟩ := run_cons.1 hrun
    simpa using ih (h.step hstep) hrest

/-- The call whose registry is kept has returned it, after its unit succeeded. -/
theorem exists_clients (h : Sound steps s) (hkept : s.kept = some a) :
    ∃ clients, actionsOf a steps = Action.asked clients ++ [.finish (.ok ()), .publish] ∧
      s.stage a = .answered a ∧ s.registries a = registryOf clients := by
  have hmem := mem_actionsOf.2 (h.published_of_kept a hkept)
  obtain ⟨clients, owner, hactions, hstage, hregistry⟩ := (h.course a).of_publish hmem
  have howner := h.kept_of_answered a owner hstage
  rw [hkept, Option.some.injEq] at howner
  exact ⟨clients, hactions, howner ▸ hstage, hregistry⟩

/-- A registry that is kept stays, as it is. -/
theorem lasting (h : Sound steps s) (hkept : s.kept = some a) (hrun : s.run later = some last) :
    last.kept = some a ∧ last.registries a = s.registries a := by
  induction later generalizing steps s with
  | nil =>
    simp only [Sharing.run, Option.some.injEq] at hrun
    exact hrun ▸ ⟨hkept, rfl⟩
  | cons x rest ih =>
    obtain ⟨i, action⟩ := x
    obtain ⟨next, hstep, hrest⟩ := run_cons.1 hrun
    obtain ⟨hnext, -, hkeep, hother⟩ := step_cases hstep
    -- The call that made the registry has returned, so the step is that of another call.
    have hai : a ≠ i := by
      rintro rfl
      obtain ⟨-, -, hstage, -⟩ := h.exists_clients hkept
      rw [hstage, Stage.next_answered] at hnext
      cases hnext
    have hkept' : next.kept = some a := by rw [hkeep, hkept, Action.keep_some]
    rw [← (hother a hai).2]
    exact ih (h.step hstep) hkept' hrest

/-- A call that looks while a registry is kept returns it, and does nothing else. -/
theorem told (h : Sound steps s) (hkept : s.kept = some a) (hstep : s.step i .look = some next)
    (hrun : next.run later = some last) :
    actionsOf i (steps ++ (i, .look) :: later) = [.look] ∧ last.stage i = .answered a := by
  obtain ⟨hnext, -⟩ := step_cases hstep
  obtain ⟨hwaiting, hanswered⟩ := Stage.of_next_look hnext hkept
  have hbefore : actionsOf i steps = [] := by
    have hcourse := h.course i
    rw [hwaiting] at hcourse
    exact hcourse.eq_nil_of_waiting
  obtain ⟨hlast, hafter⟩ := stage_of_answered hanswered hrun
  refine ⟨?_, hlast⟩
  rw [actionsOf_append, actionsOf_cons, if_pos rfl, hbefore, hafter, List.nil_append]

end Sound

/-! ### A call that is not interrupted -/

section Alone

variable {m : Type → Type} {σ : Type}

/-- A factory that keeps what the calls have made it keep. -/
def seen (s : Sharing ι) (f : Factory m σ) : Factory m σ :=
  { f with registry := s.kept.map s.registries }

/-- What a call has returned. -/
def result? (s : Sharing ι) (i : ι) : Option (Except FactoryError Registry) :=
  match s.stage i with
  | .answered owner => some (.ok (s.registries owner))
  | .failed error => some (.error error)
  | .waiting | .missed | .filling | .filled => none

/-- The steps of a call that finds no registry, if the unit gives the answer. -/
def alone (i : ι) (decrypt : Decryptor) (answer : Except InvokeError (List Client)) :
    List (ι × Action) :=
  [(i, .look), (i, .ask)] ++
    match answer with
    | .ok clients =>
      clients.map (fun c => (i, .register ⟨c, decrypt⟩)) ++ [(i, .finish (.ok ())), (i, .publish)]
    | .error e => [(i, .finish (.error e))]

/-- What a call makes of the answer of the unit. -/
def outcome (decrypt : Decryptor) :
    Except InvokeError (List Client) → Except FactoryError Registry
  | .ok clients => .ok (Registry.ofClients decrypt clients)
  | .error e => .error (.bind e)

/-- A call that no other call interrupts returns what `clients` returns, and leaves the factory as
`clients` leaves it. -/
def ActsAlone [Monad m] (s : Sharing ι) (f : Factory m σ) (decrypt : Decryptor) (i : ι) : Prop :=
  match s.kept with
  | some owner => ∃ last, s.run [(i, .look)] = some last ∧
      last.result? i = some (.ok (s.registries owner)) ∧
      (s.seen f).clients decrypt = pure (.ok (s.registries owner), last.seen f)
  | none => ∃ last : Except InvokeError (List Client) → Sharing ι,
      (∀ answer, s.run (alone i decrypt answer) = some (last answer) ∧
        (last answer).result? i = some (outcome decrypt answer)) ∧
      (s.seen f).clients decrypt =
        (fun answer => (outcome decrypt answer, (last answer).seen f)) <$> f.unit.clients

/-- The unit registers clients one after the other. -/
theorem run_register (hstage : s.stage i = .filling) (clients : List ServiceClient) :
    ∃ last, s.run (clients.map fun c => (i, .register c)) = some last ∧
      last.stage i = .filling ∧
      last.registries i = clients.foldl Registry.register (s.registries i) ∧
      last.kept = s.kept := by
  induction clients generalizing s with
  | nil => exact ⟨s, rfl, hstage, rfl, rfl⟩
  | cons c rest ih =>
    have hallowed : (s.stage i).next i s.kept (.register c) = some .filling := by
      rw [hstage, Stage.next]
    obtain ⟨next, hstep, hnext, hfill, hkeep⟩ := exists_step hallowed
    obtain ⟨last, hrun, hlast, hregistry, hkept⟩ := ih hnext
    refine ⟨last, run_cons.2 ⟨next, hstep, hrun⟩, hlast, ?_, hkept.trans hkeep⟩
    rw [hregistry, hfill, List.foldl_cons, Action.fill]

/-- A call that finds no registry hands a new one to the unit. -/
theorem run_ask (hstage : s.stage i = .waiting) (hkept : s.kept = none) :
    ∃ last, s.run [(i, .look), (i, .ask)] = some last ∧ last.stage i = .filling ∧
      last.registries i = {} ∧ last.kept = none := by
  have hlook : (s.stage i).next i s.kept .look = some .missed := by
    rw [hstage, hkept, Stage.next]
  obtain ⟨next, hstep, hnext, -, hkeep⟩ := exists_step hlook
  have hask : (next.stage i).next i next.kept .ask = some .filling := by
    rw [hnext, Stage.next]
  obtain ⟨last, hstep', hlast, hfill, hkeep'⟩ := exists_step hask
  refine ⟨last, ?_, hlast, hfill, ?_⟩
  · exact run_cons.2 ⟨next, hstep, run_cons.2 ⟨last, hstep', rfl⟩⟩
  · rw [hkeep', Action.keep, hkeep, Action.keep, hkept]

/-- A call that nobody interrupts, of a factory that keeps nothing, gives the registry it made and
leaves it to the factory, or fails and leaves nothing. -/
theorem run_alone (hstage : s.stage i = .waiting) (hkept : s.kept = none) (decrypt : Decryptor)
    (answer : Except InvokeError (List Client)) :
    ∃ last, s.run (alone i decrypt answer) = some last ∧
      last.result? i = some (outcome decrypt answer) ∧
      last.kept.map last.registries = (outcome decrypt answer).toOption := by
  -- Nobody else takes a step, so nothing is kept when the call comes to publish.
  obtain ⟨mid, hask, hmid, hregistry, hnone⟩ := run_ask hstage hkept
  cases answer with
  -- A call that fails never comes to publish.
  | error e =>
    have hfinish : (mid.stage i).next i mid.kept (.finish (.error e)) =
        some (.failed (.bind e)) := by
      rw [hmid, Stage.next]
    obtain ⟨last, hstep, hlast, -, hkeep⟩ := exists_step hfinish
    refine ⟨last, run_append.2 ⟨mid, hask, run_cons.2 ⟨last, hstep, rfl⟩⟩, ?_, ?_⟩
    · rw [result?, hlast, outcome]
    · rw [hkeep, Action.keep, hnone, outcome]
      rfl
  -- Registering, finishing and publishing follow on the question.
  | ok clients =>
    obtain ⟨full, hrun, hfull, hfullRegistry, hfullKept⟩ :=
      run_register hmid (clients.map fun c => ⟨c, decrypt⟩)
    rw [List.map_map] at hrun
    have hfinish : (full.stage i).next i full.kept (.finish (.ok ())) = some .filled := by
      rw [hfull, Stage.next]
    obtain ⟨done, hstep, hdone, hdoneRegistry, hdoneKept⟩ := exists_step hfinish
    have hpublish : (done.stage i).next i done.kept .publish = some (.answered i) := by
      rw [hdone, hdoneKept, Action.keep, hfullKept, hnone, Stage.next, Option.getD_none]
    obtain ⟨last, hstep', hlast, hlastRegistry, hlastKept⟩ := exists_step hpublish
    have hof : last.registries i = Registry.ofClients decrypt clients := by
      rw [hlastRegistry, Action.fill, hdoneRegistry, Action.fill, hfullRegistry, hregistry,
        List.foldl_map, Registry.ofClients]
    refine ⟨last, ?_, ?_, ?_⟩
    · have hends : full.run [(i, .finish (.ok ())), (i, .publish)] = some last :=
        run_cons.2 ⟨done, hstep, run_cons.2 ⟨last, hstep', rfl⟩⟩
      exact run_append.2 ⟨mid, hask, run_append.2 ⟨full, hrun, hends⟩⟩
    · rw [result?, hlast, outcome, ← hof]
    · rw [hlastKept, Action.keep, hdoneKept, Action.keep, hfullKept, hnone, Option.getD_none,
        Option.map_some, hof]
      rfl

/-- Only what the unit does changes a registry. -/
theorem registries_of_step (h : s.step i action = some next) (haction : ∀ r, action.fill r = r) :
    next.registries = s.registries := by
  obtain ⟨-, hfill, -, hother⟩ := step_cases h
  funext j
  by_cases hji : j = i
  · rw [hji, hfill, haction]
  · exact (hother j hji).2

/-- A call that looks returns the registry of the factory, if it has one. -/
theorem look_seen (h : s.step i .look = some next) (f : Factory m σ) :
    next.result? i = (s.seen f).registry.map .ok ∧ next.seen f = s.seen f := by
  have hsame := registries_of_step h fun _ => rfl
  obtain ⟨hnext, -, hkeep, -⟩ := step_cases h
  rw [Action.keep] at hkeep
  refine ⟨?_, by rw [seen, seen, hsame, hkeep]⟩
  cases hkept : s.kept with
  | some owner =>
    obtain ⟨-, hanswered⟩ := Stage.of_next_look hnext hkept
    simp [result?, seen, hanswered, hkept, hsame]
  | none =>
    cases hstage : s.stage i <;> simp [Stage.next, hstage, hkept] at hnext
    simp [result?, seen, ← hnext, hkept]

/-- A call that publishes its registry returns what `publish` returns. -/
theorem publish_seen (h : s.step i .publish = some next) (f : Factory m σ) :
    ∃ r, next.result? i = some (.ok r) ∧
      (s.seen f).publish (s.registries i) = (r, next.seen f) := by
  have hsame := registries_of_step h fun _ => rfl
  obtain ⟨hnext, -, hkeep, -⟩ := step_cases h
  cases hstage : s.stage i <;> simp [Stage.next, hstage] at hnext
  refine ⟨s.registries (s.kept.getD i), by rw [result?, ← hnext, hsame], ?_⟩
  cases hkept : s.kept with
  | some owner => simp [publish, seen, hkept, hkeep, hsame]
  | none => simp [publish, seen, hkept, hkeep, hsame, Action.keep]

/-- A call that has not begun acts as `clients` if no other call interrupts it. -/
theorem actsAlone [Monad m] [LawfulMonad m] (hstage : s.stage i = .waiting) (f : Factory m σ)
    (decrypt : Decryptor) : s.ActsAlone f decrypt i := by
  unfold ActsAlone
  split
  · -- With a registry kept, the look is the whole call.
    rename_i owner hkept
    have hlook : (s.stage i).next i s.kept .look = some (.answered owner) := by
      rw [hstage, hkept, Stage.next]
    obtain ⟨last, hstep, -⟩ := exists_step hlook
    have hregistry : (s.seen f).registry = some (s.registries owner) := by
      rw [seen, hkept, Option.map_some]
    obtain ⟨hresult, hseen⟩ := look_seen hstep f
    refine ⟨last, run_cons.2 ⟨last, hstep, rfl⟩, ?_, ?_⟩
    · rw [hresult, hregistry, Option.map_some]
    · rw [clients, hregistry, hseen]
  · rename_i hkept
    choose last hrun hresult hseen using run_alone hstage hkept decrypt
    refine ⟨last, fun answer => ⟨hrun answer, hresult answer⟩, ?_⟩
    -- Both sides ask the unit; what remains is what is made of its answer.
    have hempty : (s.seen f).registry = none := by rw [seen, hkept, Option.map_none]
    rw [clients, hempty, fill, map_eq_pure_bind]
    simp only [bind_assoc]
    refine bind_congr fun answer => ?_
    cases answer with
    | error e => simp [outcome, seen, hseen, hkept, Except.toOption]
    | ok clients => simp [outcome, seen, hseen, hkept, publish, Except.toOption]

/-- What a call `i` does next is what the functions of a factory do that keeps the same. -/
structure ActsAs [Monad m] (s : Sharing ι) (f : Factory m σ) (i : ι) : Prop where
  look : ∀ next, s.step i .look = some next →
    next.result? i = (s.seen f).registry.map .ok ∧ next.seen f = s.seen f
  publish : ∀ next, s.step i .publish = some next →
    ∃ r, next.result? i = some (.ok r) ∧
      (s.seen f).publish (s.registries i) = (r, next.seen f)
  alone : ∀ decrypt, s.stage i = .waiting → s.ActsAlone f decrypt i

end Alone

/-! ### Agreement -/

/-- What holds of calls that share a factory, when the steps have been taken. -/
structure Agreed (steps : List (ι × Action)) (s : Sharing ι) : Prop where
  /-- Calls that succeed return the same registry. -/
  same : ∀ i j a b, s.stage i = .answered a → s.stage j = .answered b → a = b
  /-- It is kept, and holds the clients that the unit registered in one call before it succeeded:
  for each service the one registered last, and for no other service any. -/
  filled_once : ∀ i a, s.stage i = .answered a → s.kept = some a ∧ ∃ clients,
    actionsOf a steps = Action.asked clients ++ [.finish (.ok ()), .publish] ∧
      s.registries a = registryOf clients ∧ (s.registries a).Holds clients
  /-- A call that publishes returns a registry. -/
  returned : ∀ i, (i, .publish) ∈ steps → ∃ a, s.stage i = .answered a
  /-- A registry that is kept is kept from then on, and never changes. -/
  lasting : ∀ earlier later mid a, steps = earlier ++ later →
    Sharing.run {} earlier = some mid → mid.kept = some a →
      s.kept = some a ∧ s.registries a = mid.registries a
  /-- A call that looks after a registry was published returns one, without asking the unit. -/
  told : ∀ earlier later i j, steps = earlier ++ (i, .look) :: later → (j, .publish) ∈ earlier →
    actionsOf i steps = [.look] ∧ ∃ a, s.stage i = .answered a
  /-- A call fails exactly if its unit does, with the error of that. -/
  failed : ∀ i error, s.stage i = .failed error ↔
    ∃ e, error = .bind e ∧ (i, .finish (.error e)) ∈ steps
  /-- No step of a call that fails changes what the factory keeps. -/
  unchanged : ∀ i error, s.stage i = .failed error →
    ∀ earlier later action mid next, steps = earlier ++ (i, action) :: later →
      Sharing.run {} earlier = some mid → mid.step i action = some next → next.kept = mid.kept

/-- **Clients are resolved once and agreed on.** However the steps of calls for the clients of one
factory interleave, and whichever of them fail: all calls that succeed return the same registry,
which holds what the unit registered in one call that succeeded, and which never changes once it is
kept; a call that looks later does not ask the unit; and a call that fails says why the unit failed
and leaves what the factory keeps. Looking and publishing are what the factory's own functions do,
and so is a whole call that no other call interrupts. -/
theorem clients_agree (steps : List (ι × Action)) (s : Sharing ι)
    (h : Sharing.run {} steps = some s) :
    Agreed steps s ∧
    ∀ (m : Type → Type) [Monad m] [LawfulMonad m] (σ : Type) (f : Factory m σ) (i : ι),
      s.ActsAs f i := by
  have hsound : Sound steps s := by simpa using Sound.start.run h
  refine ⟨⟨?_, ?_, ?_, ?_, ?_, ?_, ?_⟩, ?_⟩
  · -- Both answers are what the factory keeps.
    intro i j a b hi hj
    have hab := (hsound.kept_of_answered i a hi).symm.trans (hsound.kept_of_answered j b hj)
    exact Option.some.inj hab
  · intro i a hi
    have hkept := hsound.kept_of_answered i a hi
    obtain ⟨clients, hactions, -, hregistry⟩ := hsound.exists_clients hkept
    have hholds : (s.registries a).Holds clients := by
      rw [hregistry]
      exact Registry.holds_register clients
    exact ⟨hkept, clients, hactions, hregistry, hholds⟩
  · intro i hi
    obtain ⟨-, a, -, hstage, -⟩ := (hsound.course i).of_publish (mem_actionsOf.2 hi)
    exact ⟨a, hstage⟩
  · -- The run is cut where the registry was kept; what comes later leaves it there.
    rintro earlier later mid a rfl hmid hkept
    obtain ⟨mid', hmid', hlater⟩ := run_append.1 h
    obtain rfl := Option.some.inj (hmid.symm.trans hmid')
    exact (Sound.start.run hmid).lasting hkept hlater
  · -- Somebody has published before the look, so the look finds something.
    rintro earlier later i j rfl hj
    obtain ⟨mid, hmid, hlater⟩ := run_append.1 h
    obtain ⟨next, hstep, hrest⟩ := run_cons.1 hlater
    have hearlier : Sound earlier mid := by simpa using Sound.start.run hmid
    obtain ⟨a, hkept⟩ := hearlier.kept_of_published j hj
    obtain ⟨hactions, hstage⟩ := hearlier.told hkept hstep hrest
    exact ⟨hactions, a, hstage⟩
  · intro i error
    simp only [(hsound.course i).failed_iff, mem_actionsOf]
  · rintro i error hi earlier later action mid next rfl - hstep
    have hpublish := (hsound.course i).publish_notMem_of_failed hi
    have haction : action ≠ .publish := by
      rintro rfl
      exact hpublish (mem_actionsOf.2 (by simp))
    obtain ⟨-, -, hkeep, -⟩ := step_cases hstep
    rw [hkeep, Action.keep_of_ne_publish haction]
  · intro m _ _ σ f i
    exact ⟨fun _ hstep => look_seen hstep f, fun _ hstep => publish_seen hstep f,
      fun decrypt hstage => actsAlone hstage f decrypt⟩

/-- Three calls find no registry. The unit fails the first of them after it has registered a client
for it; the third is filled before the second is, but publishes after it; a fourth comes late. -/
def rush : List (Nat × Action) :=
  let billing : Client := { service := "billing", clientClass := "http" }
  let mail : Client := { service := "mail", clientClass := "smtp" }
  [(0, .look), (1, .look), (0, .ask), (2, .look), (1, .ask),
    (0, .register ⟨billing, Decryptor.refusing⟩), (2, .ask),
    (1, .register ⟨billing, fun text => some text⟩), (2, .register ⟨mail, Decryptor.refusing⟩),
    (0, .finish (.error (.reported "down"))), (2, .finish (.ok ())), (1, .finish (.ok ())),
    (1, .publish), (3, .look), (2, .publish)]

/-- The first call fails, and all others return the registry of the second, which has a client for
billing only. -/
theorem rush_agrees : ∃ s, Sharing.run {} rush = some s ∧
    s.stage 0 = .failed (.bind (.reported "down")) ∧
    (s.stage 1 = .answered 1 ∧ s.stage 2 = .answered 1 ∧ s.stage 3 = .answered 1) ∧
    (∃ c, (s.registries 1).get? "billing" = some c ∧ c.clientClass = "http") ∧
    (s.registries 1).get? "mail" = none ∧ Agreed rush s := by
  have hstages : (Sharing.run {} rush).map (fun s => (s.stage 0, s.stage 1, s.stage 2, s.stage 3)) =
      some (.failed (.bind (.reported "down")), .answered 1, .answered 1, .answered 1) := by
    decide
  obtain ⟨s, hrun, hs⟩ := Option.map_eq_some_iff.1 hstages
  simp only [Prod.mk.injEq] at hs
  have hagreed : Agreed rush s := (clients_agree rush s hrun).1
  obtain ⟨-, clients, hactions, -, hholds⟩ := hagreed.filled_once 1 1 hs.2.1
  -- The steps of the second call show which clients its registry was filled with.
  let billing : ServiceClient := ⟨{ service := "billing", clientClass := "http" }, some⟩
  have hasked : actionsOf 1 rush = Action.asked [billing] ++ [.finish (.ok ()), .publish] := rfl
  obtain rfl : clients = [billing] := by
    have hsame := List.append_cancel_right (hasked.symm.trans hactions)
    simpa [Action.asked] using hsame.symm
  refine ⟨s, hrun, hs.1, hs.2, ⟨billing, ?_, rfl⟩, ?_, hagreed⟩
  · rw [hholds.client]
    rfl
  · rw [hholds.client]
    rfl

end Sharing

end ReactiveSpace.Factory
