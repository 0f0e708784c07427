import FableHarness.Tools.Registry

/-!
# Failures as data

A call of `execute` ends in one of six ways, and five of them are results.  The
handler has an `except Exception` around it and the gate only an
`except PermissionDenied`, so whatever else an approval callback raises is the
sixth way: it leaves `execute`.
-/

namespace FableHarness

open ExceptionState

variable {σ : Type}

/-! ## What a check can raise -/

/-- Where the policy asks the callback, it answers or denies: whatever it raises,
directly or when its answer is awaited, is a `PermissionDenied`. -/
def ApprovalGate.AnswersOrDenies (gate : ApprovalGate σ) (call : ToolCall)
    (tier : RiskTier) (env : σ) : Prop :=
  ∀ callback,
    gate.matrix.policyFor tier = .requireApproval →
      gate.onApprovalNeeded = some callback →
        ∀ exc after,
          (callback call tier >>= CallbackResult.get).run env =
              .error exc after →
            exc.isPermissionDenied = true

namespace ApprovalGate

variable {gate : ApprovalGate σ} {call : ToolCall} {tier : RiskTier} {env : σ}

/-- The end of a check denies or passes. -/
theorem isPermissionDenied_of_conclude {approved : Bool} {exc : PyExc}
    (refused : conclude call tier approved = .error exc) :
    exc.isPermissionDenied = true := by
  unfold conclude at refused
  cases approved with
  | true => cases refused
  | false =>
      cases refused
      rfl

/-- A check that asks its callback ends as the callback does, or concludes from
the answer. -/
theorem run_check_of_asked {callback : ApprovalCallback σ}
    (policy : gate.matrix.policyFor tier = .requireApproval)
    (present : gate.onApprovalNeeded = some callback)
    {asked : EStateM.Result PyExc σ Bool}
    (run : (callback call tier >>= CallbackResult.get).run env = asked) :
    (gate.check call tier).run env =
      resultOf (answer asked >>= conclude call tier) (finalState asked) := by
  rw [check_of_callback policy present, ← run]
  simp only [EStateM.run_bind]
  cases (callback call tier).run env with
  | error exc after => rfl
  | ok result middle =>
      dsimp only
      cases result.get.run middle with
      | error exc after => rfl
      | ok approved after => cases approved <;> rfl

/-- Where the callback answers or denies, only a denial leaves the check. -/
theorem AnswersOrDenies.denied {exc : PyExc} {after : σ}
    (denies : gate.AnswersOrDenies call tier env)
    (raised : (gate.check call tier).run env = .error exc after) :
    exc.isPermissionDenied = true := by
  cases policy : gate.matrix.policyFor tier with
  | autoAllow =>
      rw [check_of_autoAllow policy] at raised
      cases raised
  | deny =>
      rw [check_of_deny policy] at raised
      cases raised
      rfl
  | requireApproval =>
      cases present : gate.onApprovalNeeded with
      | none =>
          rw [check_of_no_callback policy present] at raised
          cases raised
          rfl
      | some callback =>
          cases asked : (callback call tier >>= CallbackResult.get).run env with
          | error other last =>
              have ends : (gate.check call tier).run env = .error other last :=
                run_check_of_asked policy present asked
              rw [ends] at raised
              cases raised
              exact denies callback policy present _ _ asked
          | ok approved last =>
              have ends :
                  (gate.check call tier).run env =
                    resultOf (conclude call tier approved) last :=
                run_check_of_asked policy present asked
              rw [ends] at raised
              cases refused : conclude call tier approved with
              | ok passed =>
                  rw [refused] at raised
                  cases raised
              | error other =>
                  rw [refused] at raised
                  cases raised
                  exact isPermissionDenied_of_conclude refused

/-- The callback answers or denies if nothing but a denial leaves the check: a
check that asks it does not catch what it raises. -/
theorem answersOrDenies_of_check
    (denied :
      ∀ exc after,
        (gate.check call tier).run env = .error exc after →
          exc.isPermissionDenied = true) :
    gate.AnswersOrDenies call tier env := by
  intro callback policy present exc after raised
  exact denied exc after (run_check_of_asked policy present raised)

end ApprovalGate

namespace InMemoryToolRegistry

/-! ## What a result accounts for -/

variable (registry : InMemoryToolRegistry σ) (call : ToolCall)
  (grants : PermissionGrants σ) (env : σ)

/-- The handler is entered, and it returns this value. -/
def HandlerReturns (output : String) : Prop :=
  ∃ spec middle after,
    registry.tools.get? call.toolName = some spec ∧
      (grants.gate.check call spec.riskTier).run env = .ok () middle ∧
      spec.handler.Accepts call.arguments ∧
      (spec.handler.body call.arguments).run middle = .ok output after

/-- What a result has to say about the call. -/
structure Accounts (result : ToolResult) : Prop where
  ok : result.ok = true ↔ ∃ output, HandlerReturns registry call grants env output
  output :
    ∀ output, HandlerReturns registry call grants env output →
      result.output = some output
  error :
    (¬ ∃ output, HandlerReturns registry call grants env output) →
      ∃ message, result.error = some message
  riskTier :
    ∀ spec, registry.tools.get? call.toolName = some spec →
      result.riskTier = some spec.riskTier

/-- `execute` returns, and the result accounts for the call. -/
def TurnsFailuresIntoData : Prop :=
  ∃ result after,
    (registry.execute call grants).run env = .ok result after ∧
      Accounts registry call grants env result

variable {registry call grants env}

theorem accounts_unknownTool
    (absent : registry.tools.get? call.toolName = none) :
    Accounts registry call grants env (unknownTool call) := by
  have unserved : ¬ ∃ output, HandlerReturns registry call grants env output := by
    rintro ⟨_, spec, _, _, found, _⟩
    rw [absent] at found
    cases found
  exact
    { ok := iff_of_false (by simp) unserved
      output := fun output returns => absurd ⟨output, returns⟩ unserved
      error := fun _ => ⟨_, rfl⟩
      riskTier := by
        intro spec found
        rw [absent] at found
        cases found }

theorem accounts_failed {spec : ToolSpec σ}
    (found : registry.tools.get? call.toolName = some spec)
    (unserved : ¬ ∃ output, HandlerReturns registry call grants env output)
    (message : String) :
    Accounts registry call grants env (failed spec message) :=
  { ok := iff_of_false (by simp) unserved
    output := fun output returns => absurd ⟨output, returns⟩ unserved
    error := fun _ => ⟨_, rfl⟩
    riskTier := by
      intro other same
      rw [found] at same
      cases same
      rfl }

theorem accounts_succeeded {spec : ToolSpec σ} {output : String}
    (found : registry.tools.get? call.toolName = some spec)
    (returns : HandlerReturns registry call grants env output)
    (only :
      ∀ other, HandlerReturns registry call grants env other → other = output) :
    Accounts registry call grants env (succeeded spec output) :=
  { ok := iff_of_true (by simp) ⟨output, returns⟩
    output := by
      intro other same
      rw [only other same]
      rfl
    error := fun unserved => absurd ⟨output, returns⟩ unserved
    riskTier := by
      intro other same
      rw [found] at same
      cases same
      rfl }

/-- Every result that `execute` returns accounts for the call. -/
theorem ExecuteEnds.accounts {verdict : Verdict} {result : ToolResult} {after : σ}
    (ends : ExecuteEnds registry call grants env (.ok (verdict, result) after)) :
    Accounts registry call grants env result := by
  cases ends with
  | unknownTool absent => exact accounts_unknownTool absent
  | denied spec message _ found checked =>
      apply accounts_failed found
      rintro ⟨_, other, _, _, same, passed, _⟩
      cases found.symm.trans same
      cases checked.symm.trans passed
  | unbound spec message _ found checked refused =>
      apply accounts_failed found
      rintro ⟨_, other, _, _, same, _, accepted, _⟩
      cases found.symm.trans same
      cases refused.symm.trans accepted
  | raised spec exc middle _ found checked accepted body =>
      apply accounts_failed found
      rintro ⟨_, other, _, _, same, passed, _, returned⟩
      cases found.symm.trans same
      cases checked.symm.trans passed
      cases body.symm.trans returned
  | returned spec output middle _ found checked accepted body =>
      apply accounts_succeeded found
        ⟨spec, middle, after, found, checked, accepted, body⟩
      rintro _ ⟨other, _, _, same, passed, _, returned⟩
      cases found.symm.trans same
      cases checked.symm.trans passed
      cases body.symm.trans returned
      rfl

/-- An exception leaves `execute` only from the gate, and it is no denial. -/
theorem ExecuteEnds.escaped_of_error {exc : PyExc} {after : σ}
    (ends : ExecuteEnds registry call grants env (.error exc after)) :
    exc.isPermissionDenied = false ∧
      ∃ spec,
        registry.tools.get? call.toolName = some spec ∧
          (grants.gate.check call spec.riskTier).run env = .error exc after := by
  cases ends with
  | escaped spec _ _ found checked foreign => exact ⟨foreign, spec, found, checked⟩

/-- Where `execute` returns, a check that raised has raised a denial. -/
theorem ExecuteEnds.denied_of_ok {observed : Verdict × ToolResult} {last : σ}
    {spec : ToolSpec σ} {exc : PyExc} {after : σ}
    (ends : ExecuteEnds registry call grants env (.ok observed last))
    (found : registry.tools.get? call.toolName = some spec)
    (checked :
      (grants.gate.check call spec.riskTier).run env = .error exc after) :
    exc.isPermissionDenied = true := by
  cases ends with
  | unknownTool absent => cases absent.symm.trans found
  | denied _ _ _ same denied =>
      cases found.symm.trans same
      cases checked.symm.trans denied
      rfl
  | unbound _ _ _ same passed =>
      cases found.symm.trans same
      cases checked.symm.trans passed
  | raised _ _ _ _ same passed =>
      cases found.symm.trans same
      cases checked.symm.trans passed
  | returned _ _ _ _ same passed =>
      cases found.symm.trans same
      cases checked.symm.trans passed

/-- `execute` turns every failure into data unless the approval callback raises
something that is not a `PermissionDenied`. -/
theorem turnsFailuresIntoData_iff (registry : InMemoryToolRegistry σ)
    (call : ToolCall) (grants : PermissionGrants σ) (env : σ) :
    TurnsFailuresIntoData registry call grants env ↔
      ∀ spec, registry.tools.get? call.toolName = some spec →
        grants.gate.AnswersOrDenies call spec.riskTier env := by
  have ends := ends_executeObserved registry call grants env
  unfold TurnsFailuresIntoData execute
  rw [run_map]
  cases observed : (registry.executeObserved call grants).run env with
  | ok answered last =>
      rw [observed] at ends
      refine iff_of_true ⟨_, last, rfl, ends.accounts⟩ ?_
      intro spec found
      exact
        ApprovalGate.answersOrDenies_of_check fun exc after checked =>
          ends.denied_of_ok found checked
  | error exc after =>
      rw [observed] at ends
      obtain ⟨foreign, spec, found, checked⟩ := ends.escaped_of_error
      refine iff_of_false ?_ ?_
      · rintro ⟨result, last, run, _⟩
        cases run
      · intro answers
        have denial := (answers spec found).denied checked
        rw [foreign] at denial
        cases denial

/-! ### An approval service that is down -/

def lookupSpec : ToolSpec Unit where
  name := "account_lookup"
  riskTier := .financial
  handler := ⟨fun _ => none, fun _ => pure "found"⟩

def lookupCall : ToolCall :=
  ⟨"account_lookup", [("client", .str "client-x")], "orchestrator"⟩

def lookupRegistry : InMemoryToolRegistry Unit :=
  register {} lookupSpec

/-- The callback is a coroutine function, so it raises when it is awaited. -/
def unreachableApproval : PermissionGrants Unit where
  gate := {
    onApprovalNeeded :=
      some fun _ _ =>
        pure (.awaitable (throw (.other "TimeoutError" "no approver"))) }

/-- The `TimeoutError` of the callback leaves `execute`. -/
theorem timeout_is_no_data :
    ¬ TurnsFailuresIntoData lookupRegistry lookupCall unreachableApproval () := by
  rintro ⟨result, after, run, _⟩
  cases run

end InMemoryToolRegistry

end FableHarness
