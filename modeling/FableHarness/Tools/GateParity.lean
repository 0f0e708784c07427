import FableHarness.Flows.Turn
import FableHarness.Tools.McpClient

/-!
# One gate, two enforcement paths

The hook in front of the MCP server and the registry's `execute` ask the same
gate about the same tool and arguments.  They part where there is no gate to ask
(the hook lets everything through, and the flows hand the registry a default
gate), where the gate lets a call pass whose arguments the handler refuses, and
where a callback tells the flows of the two calls apart.
-/

namespace FableHarness

open ExceptionState

variable {σ : Type}

/-- The hook forwards the call to the server. -/
def ForwardsToServer (toolset : RetrievalToolset σ) (callTool : CallToolFunc σ)
    (call : ToolCall) (env : σ) : Prop :=
  ∃ reply after,
    (toolset.processToolCallObserved callTool call.toolName call.arguments).run
      env = .ok (.forwarded, reply) after

/-- `execute` enters the handler of the tool. -/
def EntersHandler (registry : InMemoryToolRegistry σ) (call : ToolCall)
    (grants : PermissionGrants σ) (env : σ) : Prop :=
  ∃ result after,
    (registry.executeObserved call grants).run env =
      .ok (.entered, result) after

/-- The check of the gate returns. -/
def Passes (gate : ApprovalGate σ) (call : ToolCall) (tier : RiskTier)
    (env : σ) : Prop :=
  ∃ after, (gate.check call tier).run env = .ok () after

/-- The gate lets the call pass: by its matrix alone, or by the answer of its
callback. -/
def LetsPass (gate : ApprovalGate σ) (call : ToolCall) (tier : RiskTier)
    (env : σ) : Prop :=
  gate.matrix.policyFor tier = .autoAllow ∨
    gate.matrix.policyFor tier = .requireApproval ∧
      ∃ callback reply middle after,
        gate.onApprovalNeeded = some callback ∧
          (callback call tier).run env = .ok reply middle ∧
            reply.get.run middle = .ok true after

section Paths

variable {call : ToolCall} {tier : RiskTier} {env : σ}

theorem forwards_iff_admits {toolset : RetrievalToolset σ}
    {callTool : CallToolFunc σ} :
    ForwardsToServer toolset callTool call env ↔
      ∃ after,
        (toolset.checkCall call.toolName call.arguments).run env = .ok () after := by
  unfold ForwardsToServer RetrievalToolset.processToolCallObserved
  simp only [EStateM.run_bind, run_attempt]
  cases (toolset.checkCall call.toolName call.arguments).run env with
  | ok admitted after =>
      simp only [answer_ok, finalState_ok, EStateM.run_bind, run_attempt]
      constructor
      · intro _
        exact ⟨after, rfl⟩
      · intro _
        exact ⟨_, _, rfl⟩
  | error exc after =>
      constructor
      · intro forwarded
        obtain ⟨_, _, refused⟩ := forwarded
        cases refused
      · intro admitted
        obtain ⟨_, raised⟩ := admitted
        cases raised

theorem enters_iff_passes {registry : InMemoryToolRegistry σ}
    {spec : ToolSpec σ} {grants : PermissionGrants σ}
    (found : registry.tools.get? call.toolName = some spec)
    (accepted : spec.handler.Accepts call.arguments) :
    EntersHandler registry call grants env ↔
      Passes grants.gate call spec.riskTier env := by
  unfold EntersHandler Passes InMemoryToolRegistry.executeObserved
  simp only [found, EStateM.run_bind, run_attempt]
  cases (grants.gate.check call spec.riskTier).run env with
  | ok passed after =>
      have entered : ∃ result last,
          (InMemoryToolRegistry.enterHandler spec call.arguments).run after =
            .ok (.entered, result) last := by
        unfold InMemoryToolRegistry.enterHandler
        rw [accepted]
        simp only [EStateM.run_bind, run_attempt]
        cases (spec.handler.body call.arguments).run after with
        | ok output last => exact ⟨_, _, rfl⟩
        | error exc last => exact ⟨_, _, rfl⟩
      simp only [answer_ok, finalState_ok]
      exact ⟨fun _ => ⟨after, rfl⟩, fun _ => entered⟩
  | error exc after =>
      constructor
      · intro entered
        obtain ⟨_, _, denied⟩ := entered
        cases exc <;> cases denied
      · intro passed
        obtain ⟨_, raised⟩ := passed
        cases raised

/-- Arguments that do not bind never enter the handler. -/
theorem accepts_of_enters {registry : InMemoryToolRegistry σ}
    {spec : ToolSpec σ} {grants : PermissionGrants σ}
    (found : registry.tools.get? call.toolName = some spec)
    (entered : EntersHandler registry call grants env) :
    spec.handler.Accepts call.arguments := by
  obtain ⟨result, after, run⟩ := entered
  have ends := registry.ends_executeObserved call grants env
  rw [run] at ends
  cases ends with
  | raised other _ _ _ same _ accepted =>
      cases found.symm.trans same
      exact accepted
  | returned other _ _ _ same _ accepted =>
      cases found.symm.trans same
      exact accepted

theorem enters_iff {registry : InMemoryToolRegistry σ} {spec : ToolSpec σ}
    {grants : PermissionGrants σ}
    (found : registry.tools.get? call.toolName = some spec) :
    EntersHandler registry call grants env ↔
      spec.handler.Accepts call.arguments ∧
        Passes grants.gate call spec.riskTier env := by
  constructor
  · intro entered
    have accepted := accepts_of_enters found entered
    exact ⟨accepted, (enters_iff_passes found accepted).mp entered⟩
  · intro ⟨accepted, passes⟩
    exact (enters_iff_passes found accepted).mpr passes

/-- A callback passes a call exactly if it answers and its answer is true. -/
theorem passes_callback_iff {gate : ApprovalGate σ} {callback : ApprovalCallback σ}
    (policy : gate.matrix.policyFor tier = .requireApproval)
    (present : gate.onApprovalNeeded = some callback) :
    Passes gate call tier env ↔
      ∃ reply middle after,
        (callback call tier).run env = .ok reply middle ∧
          reply.get.run middle = .ok true after := by
  unfold Passes
  rw [ApprovalGate.check_of_callback policy present]
  constructor
  · intro ⟨after, checked⟩
    obtain ⟨reply, middle, asked, checked⟩ := run_bind_eq_ok.mp checked
    obtain ⟨approved, last, answered, concluded⟩ := run_bind_eq_ok.mp checked
    cases approved with
    | true => exact ⟨reply, middle, last, asked, answered⟩
    | false => cases concluded
  · intro ⟨reply, middle, after, asked, answered⟩
    refine ⟨after, run_bind_eq_ok.mpr ⟨reply, middle, asked, ?_⟩⟩
    exact run_bind_eq_ok.mpr ⟨true, after, answered, rfl⟩

theorem passes_iff_letsPass {gate : ApprovalGate σ} :
    Passes gate call tier env ↔ LetsPass gate call tier env := by
  unfold LetsPass
  cases policy : gate.matrix.policyFor tier with
  | autoAllow =>
      have passes : Passes gate call tier env := by
        unfold Passes
        rw [ApprovalGate.check_of_autoAllow policy]
        exact ⟨env, rfl⟩
      simp [passes]
  | deny =>
      unfold Passes
      rw [ApprovalGate.check_of_deny policy]
      simp
  | requireApproval =>
      cases present : gate.onApprovalNeeded with
      | none =>
          unfold Passes
          rw [ApprovalGate.check_of_no_callback policy present]
          simp
      | some callback =>
          rw [passes_callback_iff policy present]
          simp

/-- The default gate passes exactly what its matrix allows. -/
theorem passes_default_iff :
    Passes ({} : ApprovalGate σ) call tier env ↔
      ({} : PermissionMatrix).policyFor tier = .autoAllow := by
  rw [passes_iff_letsPass]
  simp [LetsPass]

end Paths

/-- When the hook, which asks about a call of its own flow, and the registry,
which alone binds the arguments, come to the same. -/
inductive PathsAgree (approvalGate : Option (ApprovalGate σ)) (spec : ToolSpec σ)
    (flow : String) (call : ToolCall) (env : σ) : Prop where
  | gated (gate : ApprovalGate σ) (present : approvalGate = some gate)
      (accepted : spec.handler.Accepts call.arguments)
      (alike :
        LetsPass gate { call with flow } spec.riskTier env ↔
          LetsPass gate call spec.riskTier env)
  | ungated (absent : approvalGate = none)
      (accepted : spec.handler.Accepts call.arguments)
      (allowed : ({} : PermissionMatrix).policyFor spec.riskTier = .autoAllow)
  | stopped (gate : ApprovalGate σ) (present : approvalGate = some gate)
      (unbound : ¬ spec.handler.Accepts call.arguments)
      (stopped : ¬ LetsPass gate { call with flow } spec.riskTier env)

theorem pathsAgree_some_iff {gate : ApprovalGate σ} {spec : ToolSpec σ}
    {flow : String} {call : ToolCall} {env : σ} :
    PathsAgree (some gate) spec flow call env ↔
      (LetsPass gate { call with flow } spec.riskTier env ↔
        spec.handler.Accepts call.arguments ∧
          LetsPass gate call spec.riskTier env) := by
  by_cases accepted : spec.handler.Accepts call.arguments
  · simp only [accepted, true_and]
    constructor
    · intro agree
      cases agree with
      | gated gate present accepted alike =>
          cases present
          exact alike
      | ungated absent accepted allowed => cases absent
      | stopped gate present unbound stopped => exact absurd accepted unbound
    · exact fun alike => .gated gate rfl accepted alike
  · simp only [accepted, false_and, iff_false]
    constructor
    · intro agree
      cases agree with
      | gated gate present accepted' alike => exact absurd accepted' accepted
      | ungated absent accepted allowed => cases absent
      | stopped gate present unbound stopped =>
          cases present
          exact stopped
    · exact fun stopped => .stopped gate rfl accepted stopped

theorem pathsAgree_none_iff {spec : ToolSpec σ} {flow : String} {call : ToolCall}
    {env : σ} :
    PathsAgree none spec flow call env ↔
      spec.handler.Accepts call.arguments ∧
        ({} : PermissionMatrix).policyFor spec.riskTier = .autoAllow := by
  constructor
  · intro agree
    cases agree with
    | gated gate present accepted alike => cases present
    | ungated absent accepted allowed => exact ⟨accepted, allowed⟩
    | stopped gate present unbound stopped => cases present
  · exact fun ⟨accepted, allowed⟩ => .ungated rfl accepted allowed

/-- The hook and the registry agree on a call exactly when the arguments bind and
the gate, if there is one, answers both calls alike, or else the default matrix
allows the tier; or when they do not bind and a gate stops the hook. -/
theorem mcp_hook_agrees_iff
    (approvalGate : Option (ApprovalGate σ)) (callTool : CallToolFunc σ)
    (registry : InMemoryToolRegistry σ) (spec : ToolSpec σ) (flow : String)
    (call : ToolCall) (env : σ)
    (found : registry.tools.get? call.toolName = some spec) :
    (ForwardsToServer ⟨approvalGate, spec.riskTier, flow⟩ callTool call env ↔
        EntersHandler registry call (grantsFor approvalGate) env) ↔
      PathsAgree approvalGate spec flow call env := by
  rw [forwards_iff_admits, enters_iff found]
  cases approvalGate with
  | some gate =>
      have sameQuestion :
          (∃ after,
            (RetrievalToolset.checkCall ⟨some gate, spec.riskTier, flow⟩
              call.toolName call.arguments).run env = .ok () after) ↔
            Passes gate { call with flow } spec.riskTier env :=
        Iff.rfl
      rw [sameQuestion, grantsFor, passes_iff_letsPass, passes_iff_letsPass,
        pathsAgree_some_iff]
  | none =>
      have forwards :
          ∃ after,
            (RetrievalToolset.checkCall
              (⟨none, spec.riskTier, flow⟩ : RetrievalToolset σ)
              call.toolName call.arguments).run env = .ok () after :=
        ⟨env, rfl⟩
      rw [grantsFor, passes_default_iff, iff_true_left forwards,
        pathsAgree_none_iff]

/-! ### A financial tool without a gate -/

def transferSpec : ToolSpec Unit where
  name := "transfer"
  riskTier := .financial
  handler := ⟨fun _ => none, fun _ => pure "done"⟩

def transferCall : ToolCall :=
  ⟨"transfer", [("amount", .int 100)], "orchestrator"⟩

def transferRegistry : InMemoryToolRegistry Unit :=
  InMemoryToolRegistry.register {} transferSpec

def transferServer : CallToolFunc Unit :=
  fun _ _ => pure (.value "done")

/-- With a gate that requires approval and has no callback, both paths refuse. -/
theorem gated_transfer_agrees :
    ForwardsToServer ⟨some {}, .financial, "orchestrator"⟩ transferServer
        transferCall () ↔
      EntersHandler transferRegistry transferCall (grantsFor (some {})) () :=
  (mcp_hook_agrees_iff (some {}) transferServer transferRegistry transferSpec
    "orchestrator" transferCall () rfl).mpr (.gated {} rfl rfl Iff.rfl)

/-- Without a gate the hook forwards a financial call whose in-process twin is
denied. -/
theorem ungated_transfer_disagrees :
    ForwardsToServer ⟨none, .financial, "orchestrator"⟩ transferServer
        transferCall () ∧
      ¬ EntersHandler transferRegistry transferCall (grantsFor none) () := by
  constructor
  · exact ⟨_, _, rfl⟩
  · intro entered
    obtain ⟨_, _, denied⟩ := entered
    cases denied

end FableHarness
