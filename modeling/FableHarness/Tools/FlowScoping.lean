import FableHarness.Tools.DemoTools
import FableHarness.Tools.GateParity

/-!
# What a flow is shown and what it can execute

`scoped` filters by the flow, and `execute` never looks at it: a call reaches
the handler of any registered tool, whatever flow it comes from.
-/

namespace FableHarness

variable {σ : Type}

/-- The tool is offered to the flow. -/
def ToolSpec.AvailableTo (spec : ToolSpec σ) (flow : String) : Prop :=
  spec.flows = [] ∨ flow ∈ spec.flows

namespace InMemoryToolRegistry

/-- `scoped(flow)` lists a tool of this name. -/
def Lists (registry : InMemoryToolRegistry σ) (flow name : String) : Prop :=
  ∃ spec ∈ registry.scopedFor flow, spec.name = name

theorem mem_scopedFor_iff {registry : InMemoryToolRegistry σ} {flow : String}
    {spec : ToolSpec σ} :
    spec ∈ registry.scopedFor flow ↔
      spec ∈ registry.tools.values ∧ spec.AvailableTo flow := by
  simp [scopedFor, ToolSpec.AvailableTo]

/-- A flow is shown a tool exactly if its last registration offers it. -/
theorem lists_registered_iff {history : List (ToolSpec σ)} {flow name : String} :
    (registered history).Lists flow name ↔
      ∃ spec, latest history name = some spec ∧ spec.AvailableTo flow := by
  constructor
  · intro listed
    obtain ⟨spec, member, named⟩ := listed
    obtain ⟨present, available⟩ := mem_scopedFor_iff.mp member
    obtain ⟨key, found⟩ := OrderedDict.mem_values_iff.mp present
    rw [get?_registered] at found
    have keyIsName : key = name := (name_of_latest found).symm.trans named
    rw [← keyIsName]
    exact ⟨spec, found, available⟩
  · intro offered
    obtain ⟨spec, found, available⟩ := offered
    have present : spec ∈ (registered history).tools.values := by
      apply OrderedDict.mem_values_iff.mpr
      exact ⟨name, by rw [get?_registered, found]⟩
    exact ⟨spec, mem_scopedFor_iff.mpr ⟨present, available⟩, name_of_latest found⟩

/-- With approving grants a call enters the handler of the last registration
whenever its arguments bind. -/
theorem enters_registered_iff {history : List (ToolSpec σ)} {call : ToolCall}
    {grants : PermissionGrants σ} {env : σ}
    (approves : ∀ tier, Passes grants.gate call tier env) :
    EntersHandler (registered history) call grants env ↔
      ∃ spec,
        latest history call.toolName = some spec ∧
          spec.handler.Accepts call.arguments := by
  cases found : latest history call.toolName with
  | none =>
      have unknown : (registered history).tools.get? call.toolName = none := by
        rw [get?_registered, found]
      constructor
      · intro entered
        obtain ⟨result, after, run⟩ := entered
        simp only [executeObserved, unknown] at run
        cases run
      · intro bound
        obtain ⟨spec, present, _⟩ := bound
        cases present
  | some spec =>
      have known : (registered history).tools.get? call.toolName = some spec := by
        rw [get?_registered, found]
      by_cases accepted : spec.handler.Accepts call.arguments
      · have entered := (enters_iff_passes known accepted).mpr (approves spec.riskTier)
        exact iff_of_true entered ⟨spec, rfl, accepted⟩
      · have unbound : ¬ EntersHandler (registered history) call grants env :=
          fun entered => accepted (accepts_of_enters known entered)
        apply iff_of_false unbound
        intro bound
        obtain ⟨other, present, fits⟩ := bound
        cases present
        exact accepted fits

end InMemoryToolRegistry

open InMemoryToolRegistry

/-- With approving grants, what a flow is shown and what it can execute agree on
a call exactly if the arguments bind just when the tool is offered. -/
theorem scoping_and_execution_agree_iff (history : List (ToolSpec σ))
    (call : ToolCall) (grants : PermissionGrants σ) (env : σ)
    (approves : ∀ tier, Passes grants.gate call tier env) :
    (EntersHandler (registered history) call grants env ↔
        (registered history).Lists call.flow call.toolName) ↔
      ∀ spec, latest history call.toolName = some spec →
        (spec.handler.Accepts call.arguments ↔ spec.AvailableTo call.flow) := by
  rw [enters_registered_iff approves, lists_registered_iff]
  cases latest history call.toolName with
  | none => simp
  | some spec => simp

/-! ### The account lookup of the demo -/

/-- The lookup alone is registered. -/
def accountHistory : List (ToolSpec Unit) :=
  [DemoTools.accountTool DemoTools.demoHost]

def accountCall (flow : String) : ToolCall :=
  ⟨"account_lookup", [("client", .str "client_x")], flow⟩

def approvingGrants : PermissionGrants Unit where
  gate := { onApprovalNeeded := some fun _ _ => pure (.value true) }

theorem approvingGrants_passes (call : ToolCall) (tier : RiskTier) :
    Passes approvingGrants.gate call tier () := by
  cases tier <;> exact ⟨(), rfl⟩

/-- In the flow it belongs to, the lookup is offered and can be executed. -/
theorem account_lookup_agrees_in_its_flow :
    EntersHandler (registered accountHistory) (accountCall "orchestrator")
        approvingGrants () ↔
      (registered accountHistory).Lists "orchestrator" "account_lookup" := by
  apply
    (scoping_and_execution_agree_iff accountHistory (accountCall "orchestrator")
      approvingGrants () (approvingGrants_passes _)).mpr
  intro spec found
  cases found
  exact iff_of_true rfl (Or.inr List.mem_cons_self)

/-- Another flow is not shown the lookup and executes it all the same. -/
theorem account_lookup_enters_for_single_agent :
    EntersHandler (registered accountHistory) (accountCall "single_agent")
        approvingGrants () ∧
      ¬ (registered accountHistory).Lists "single_agent" "account_lookup" := by
  constructor
  · exact ⟨_, _, rfl⟩
  · intro listed
    obtain ⟨spec, member, _⟩ := listed
    cases member

end FableHarness
