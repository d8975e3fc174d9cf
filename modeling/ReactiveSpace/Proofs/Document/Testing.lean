import ReactiveSpace.Proofs.Document.Report

/-!
# Tests do not know of each other

A unit whose entry points are functions is a unit in the identity monad. A test of such a unit goes
through at most four stages (`DocumentUnit.Runs`), each in the state that the one before left.
Behind the first that fails come no more of them, but a document that was constructed is destroyed
in any case. The report on the test follows from these stages (`TestCase.Describes`). No stage reads
which other tests there are, so all tests of a unit are reported as each would be alone
(`DocumentUnit.tests_isolated`).
-/

namespace ReactiveSpace

/-- The stages of a test. -/
inductive Stage where
  | construct
  | transact
  | bind
  | run
  /-- The end of a document that was constructed. -/
  | destroy
deriving DecidableEq

namespace DocumentUnit

variable {σ : Type}

/-- A test goes through the stages, each of which reports patches, and gives the answer. -/
inductive Runs (u : DocumentUnit Id σ) (space key name : String) :
    List (Stage × List String) → Except InvokeError Json → Prop
  | construct {p : List String} {e : InvokeError}
    (hconstruct : u.construct = (⟨p, .error e⟩ : Reply σ)) :
    Runs u space key name [(.construct, p)] (.error e)
  | transact {p q z : List String} {s₁ s₂ : σ} {e : InvokeError}
    (hconstruct : u.construct = (⟨p, .ok s₁⟩ : Reply σ))
    (htransact : u.transactConstruct Principal.system "\x7b\x7d" s₁ =
      ((⟨q, .error e⟩, s₂) : Reply String × σ))
    (hdestroy : u.destroy s₂ = (z : List String)) :
    Runs u space key name [(.construct, p), (.transact, q), (.destroy, z)] (.error e)
  | bind {p q r z : List String} {s₁ s₂ s₃ : σ} {patch : String} {e : InvokeError}
    (hconstruct : u.construct = (⟨p, .ok s₁⟩ : Reply σ))
    (htransact : u.transactConstruct Principal.system "\x7b\x7d" s₁ =
      ((⟨q, .ok patch⟩, s₂) : Reply String × σ))
    (hbind : u.lateBind space key s₂ = ((⟨r, .error e⟩, s₃) : Reply Unit × σ))
    (hdestroy : u.destroy s₃ = (z : List String)) :
    Runs u space key name [(.construct, p), (.transact, q), (.bind, r), (.destroy, z)] (.error e)
  | run {p q r t z : List String} {s₁ s₂ s₃ s₄ : σ} {patch : String}
    {answer : Except InvokeError Json}
    (hconstruct : u.construct = (⟨p, .ok s₁⟩ : Reply σ))
    (htransact : u.transactConstruct Principal.system "\x7b\x7d" s₁ =
      ((⟨q, .ok patch⟩, s₂) : Reply String × σ))
    (hbind : u.lateBind space key s₂ = ((⟨r, .ok ()⟩, s₃) : Reply Unit × σ))
    (hrun : u.runTest name s₃ = ((⟨t, answer⟩, s₄) : Reply Json × σ))
    (hdestroy : u.destroy s₄ = (z : List String)) :
    Runs u space key name
      [(.construct, p), (.transact, q), (.bind, r), (.run, t), (.destroy, z)] answer

end DocumentUnit

/-- The report on a test that went through the stages and gave the answer. -/
structure TestCase.Describes (c : TestCase) (name : String) (stages : List (Stage × List String))
    (answer : Except InvokeError Json) : Prop where
  name : c.name = name
  /-- The patches of all stages count, those of the end of the document included. -/
  patches : c.patches = (stages.flatMap Prod.snd).length
  aborted : ∀ e, answer = .error e → c.outcome = .aborted e.message ∧ c.result = {}
  /-- A report that states no result aborts the test. -/
  unreadable : ∀ report, answer = .ok report → (∀ result : TestResult, ¬ result.StatedBy report) →
    c.outcome = .aborted "unreadable report: it has another form" ∧ c.result = {}
  /-- The result that a report states is passed on, and the test passed if it has no failures. -/
  read : ∀ report (result : TestResult), answer = .ok report → result.StatedBy report →
    c.outcome = (if result.failures = [] then .passed else .failed) ∧ c.result = result

/-- A report that is built from the answer describes it. -/
theorem TestCase.describes_ofAnswer (name : String) {stages : List (Stage × List String)}
    {patches : Nat} (hpatches : patches = (stages.flatMap Prod.snd).length)
    (answer : Except InvokeError Json) :
    (TestCase.ofAnswer name patches answer).Describes name stages answer := by
  cases answer with
  | error e =>
    exact ⟨rfl, hpatches, fun _ h => by cases h; exact ⟨rfl, rfl⟩, nofun, nofun⟩
  | ok report =>
    rw [ofAnswer]
    split
    · -- The report can not be read, so no result is stated by it.
      rename_i hread
      refine ⟨rfl, hpatches, nofun, fun _ _ _ => ⟨rfl, rfl⟩, fun report' result h hstated => ?_⟩
      obtain rfl := Except.ok.inj h
      rw [← TestResult.ofTree?_toTree_eq_some_iff, hread] at hstated
      cases hstated
    · -- What is read is the one result that the report states.
      rename_i result hread
      refine ⟨rfl, hpatches, nofun, fun report' h hnone => ?_, fun report' result' h hstated => ?_⟩
      · obtain rfl := Except.ok.inj h
        exact absurd (TestResult.ofTree?_toTree_eq_some_iff.1 hread) (hnone result)
      · obtain rfl := Except.ok.inj h
        have hresult := TestResult.ofTree?_toTree_eq_some_iff.2 hstated
        obtain rfl := Option.some.inj (hread.symm.trans hresult)
        exact ⟨by simp only [List.isEmpty_iff], rfl⟩

namespace DocumentUnit

variable {σ : Type} {u : DocumentUnit Id σ} {space key name : String}

/-- Every test comes to an end. -/
theorem exists_runs (u : DocumentUnit Id σ) (space key name : String) :
    ∃ stages answer, u.Runs space key name stages answer := by
  rcases hconstruct : (u.construct : Reply σ) with ⟨p, e | s₁⟩
  · exact ⟨_, _, .construct hconstruct⟩
  rcases htransact : (u.transactConstruct Principal.system "\x7b\x7d" s₁ : Reply String × σ)
    with ⟨⟨q, e | patch⟩, s₂⟩
  · exact ⟨_, _, .transact hconstruct htransact rfl⟩
  rcases hbind : (u.lateBind space key s₂ : Reply Unit × σ) with ⟨⟨r, e | _⟩, s₃⟩
  · exact ⟨_, _, .bind hconstruct htransact hbind rfl⟩
  rcases hrun : (u.runTest name s₃ : Reply Json × σ) with ⟨⟨t, answer⟩, s₄⟩
  exact ⟨_, _, .run hconstruct htransact hbind hrun rfl⟩

/-! ### One test -/

/-- A call that is answered leaves the state that came with the answer, and adds to the patches. -/
theorem call_eq {α : Type} {d : Document σ} {entry : σ → Id (Reply α × σ)} {reply : Reply α} {s : σ}
    (h : entry d.state = (reply, s)) :
    d.call entry = pure (reply.result, ⟨s, d.patches ++ reply.patches⟩) := by
  rw [Document.call, h]
  rfl

/-- The case of a document that was constructed counts what was reported up to its end. -/
theorem runCase_eq {p z : List String} {s : σ} {answer : Except InvokeError Json} {d : Document σ}
    (hconstruct : u.construct = (⟨p, .ok s⟩ : Reply σ))
    (hstages : u.runStages space key name ⟨s, p⟩ = pure (answer, d))
    (hdestroy : u.destroy d.state = (z : List String)) :
    u.runCase space key name = TestCase.ofAnswer name (d.patches ++ z).length answer := by
  have hcase : u.runCase space key name =
      u.runStages space key name ⟨s, p⟩ >>= fun x => x.2.close u >>= fun patches =>
        pure (TestCase.ofAnswer name patches.length x.1) := by
    rw [runCase, hconstruct]
    rfl
  have hclose : d.close u = pure (d.patches ++ z) := by
    rw [Document.close, hdestroy]
    rfl
  rw [hcase, hstages, pure_bind, hclose]
  rfl

/-- What the program reports on a test describes the stages of the test. -/
theorem Runs.describes {stages : List (Stage × List String)} {answer : Except InvokeError Json}
    (h : u.Runs space key name stages answer) :
    TestCase.Describes (u.runCase space key name) name stages answer := by
  cases h with
  -- Nothing was constructed, so nothing is destroyed.
  | construct hconstruct =>
    rw [runCase, hconstruct]
    exact TestCase.describes_ofAnswer name (by simp) _
  -- From here on the document is dropped in the end, with what it reports then.
  | @transact p q z s₁ s₂ e hconstruct htransact hdestroy =>
    have hstages : u.runStages space key name ⟨s₁, p⟩ = pure (.error e, ⟨s₂, p ++ q⟩) := by
      rw [runStages, call_eq (d := ⟨s₁, p⟩) htransact, pure_bind]
    rw [runCase_eq hconstruct hstages hdestroy]
    exact TestCase.describes_ofAnswer name (by simp) _
  | @bind p q r z s₁ s₂ s₃ patch e hconstruct htransact hbind hdestroy =>
    have hstages : u.runStages space key name ⟨s₁, p⟩ = pure (.error e, ⟨s₃, p ++ q ++ r⟩) := by
      rw [runStages, call_eq (d := ⟨s₁, p⟩) htransact, pure_bind]
      dsimp only
      rw [call_eq (d := ⟨s₂, p ++ q⟩) hbind, pure_bind]
    rw [runCase_eq hconstruct hstages hdestroy]
    exact TestCase.describes_ofAnswer name (by simp) _
  | @run p q r t z s₁ s₂ s₃ s₄ patch answer hconstruct htransact hbind hrun hdestroy =>
    have hstages : u.runStages space key name ⟨s₁, p⟩ =
        pure (answer, ⟨s₄, p ++ q ++ r ++ t⟩) := by
      rw [runStages, call_eq (d := ⟨s₁, p⟩) htransact, pure_bind]
      dsimp only
      rw [call_eq (d := ⟨s₂, p ++ q⟩) hbind, pure_bind]
      exact call_eq (d := ⟨s₃, p ++ q ++ r⟩) hrun
    rw [runCase_eq hconstruct hstages hdestroy]
    exact TestCase.describes_ofAnswer name (by simp) _

/-! ### All tests -/

/-- The unit with these tests in place of its own. -/
def listing (u : DocumentUnit Id σ) (tests : Except InvokeError (List String)) :
    DocumentUnit Id σ :=
  { u with tests := tests }

theorem runTests_of_error {e : InvokeError}
    (htests : u.tests = (.error e : Except InvokeError (List String))) :
    u.runTests space key = (.error (.test "*" e) : Except FactoryError TestReport) := by
  rw [runTests, htests]
  rfl

theorem runTests_of_ok {names : List String}
    (htests : u.tests = (.ok names : Except InvokeError (List String))) :
    u.runTests space key = (.ok ⟨space, names.map fun name => u.runCase space key name⟩ :
      Except FactoryError TestReport) := by
  have hcases : names.mapM (u.runCase space key) =
      pure (names.map fun name => (u.runCase space key name : TestCase)) :=
    List.mapM_pure
  have hrun : u.runTests space key =
      names.mapM (u.runCase space key) >>= fun cases => pure (.ok ⟨space, cases⟩) := by
    rw [runTests, htests]
    rfl
  rw [hrun, hcases]
  rfl

end DocumentUnit

/-- Every test passed or failed. -/
theorem TestReport.passed_add_failed (r : TestReport) : r.passed + r.failed = r.cases.length := by
  have hsplit := List.length_eq_countP_add_countP TestCase.isPassed (l := r.cases)
  rw [hsplit, passed, failed]
  simp

namespace DocumentUnit

variable {σ : Type}

/-- **Tests are isolated.** A test goes through its stages on a new document, up to the first that
fails and the end of the document, and its report describes these stages alone: whatever other tests
the unit lists, and however often, each of them is reported as it is by itself, in the order of the
names. So reordered names give reordered reports. Running the tests fails if listing them does, and
never otherwise; then the tests that passed and those that failed are all tests. -/
theorem tests_isolated (u : DocumentUnit Id σ) (space key : String) :
    ∃ caseOf : String → TestCase,
      (∀ name, (∃ stages answer, u.Runs space key name stages answer) ∧
        ∀ stages answer, u.Runs space key name stages answer →
          (caseOf name).Describes name stages answer) ∧
      (∀ names, (u.listing (.ok names)).runTests space key =
        (.ok ⟨space, names.map caseOf⟩ : Except FactoryError TestReport)) ∧
      (∀ e, (u.listing (.error e)).runTests space key =
        (.error (.test "*" e) : Except FactoryError TestReport)) ∧
      (∀ names names' report report', names.Perm names' →
        (u.listing (.ok names)).runTests space key = (.ok report : Except FactoryError TestReport) →
        (u.listing (.ok names')).runTests space key =
          (.ok report' : Except FactoryError TestReport) →
        report.cases.Perm report'.cases) ∧
      (∀ tests report, (u.listing tests).runTests space key =
          (.ok report : Except FactoryError TestReport) →
        report.passed ≤ report.cases.length ∧
          report.failed = report.cases.length - report.passed ∧
          report.passed + report.failed = report.cases.length) ∧
      u.listing u.tests = u := by
  -- The case of a name is run on `u` itself: no stage reads the list of tests.
  have hcases : ∀ names, (u.listing (.ok names)).runTests space key =
      (.ok ⟨space, names.map fun name => u.runCase space key name⟩ :
        Except FactoryError TestReport) :=
    fun names => runTests_of_ok (u := u.listing (.ok names)) rfl
  refine ⟨fun name => u.runCase space key name,
    fun name => ⟨exists_runs u space key name, fun _ _ => Runs.describes⟩, hcases,
    fun e => runTests_of_error rfl, ?_, ?_, rfl⟩
  · intro names names' report report' hperm hreport hreport'
    obtain rfl := Except.ok.inj ((hcases names).symm.trans hreport)
    obtain rfl := Except.ok.inj ((hcases names').symm.trans hreport')
    exact hperm.map _
  · intro tests report _
    have hall := report.passed_add_failed
    omega

end DocumentUnit

end ReactiveSpace
