import FableHarness.Core.Python
import FableHarness.Library.ExceptionState
import FableHarness.Library.OrderedDict

/-!
# Risk-tiered tool permissions

The permission matrix maps a tool's risk tier to a policy, and the approval
gate turns the policy, and where the policy asks for it the answer of a
callback, into a verdict: `check` returns, or it raises.
-/

namespace FableHarness

inductive RiskTier where
  | readOnly
  | writesInternal
  | financial
  | destructive
deriving DecidableEq, Repr

def RiskTier.value : RiskTier → String
  | .readOnly => "read_only"
  | .writesInternal => "writes_internal"
  | .financial => "financial"
  | .destructive => "destructive"

inductive Policy where
  | autoAllow
  | requireApproval
  | deny
deriving DecidableEq, Repr

def defaultMatrix : OrderedDict RiskTier Policy :=
  .ofList [
    (.readOnly, .autoAllow),
    (.writesInternal, .autoAllow),
    (.financial, .requireApproval),
    (.destructive, .requireApproval)]

structure PermissionMatrix where
  policy : OrderedDict RiskTier Policy := defaultMatrix

/-- A tier missing from the matrix requires approval. -/
def PermissionMatrix.policyFor
    (matrix : PermissionMatrix) (tier : RiskTier) : Policy :=
  (matrix.policy.get? tier).getD .requireApproval

structure ToolCall where
  toolName : String
  arguments : Arguments
  flow : String := "default"

/-- What an approval callback returns: an answer read by its truth value, or
an awaitable that resolves to one. -/
inductive CallbackResult (σ : Type) where
  | value (approved : Bool)
  | awaitable (resolve : Py σ Bool)

def CallbackResult.get {σ : Type} : CallbackResult σ → Py σ Bool
  | .value approved => pure approved
  | .awaitable resolve => resolve

abbrev ApprovalCallback (σ : Type) :=
  ToolCall → RiskTier → Py σ (CallbackResult σ)

structure ApprovalGate (σ : Type) where
  matrix : PermissionMatrix := {}
  onApprovalNeeded : Option (ApprovalCallback σ) := none

namespace ApprovalGate

variable {σ : Type}

def notAllowed (call : ToolCall) (tier : RiskTier) : PyExc :=
  .permissionDenied <|
    "tool '" ++ call.toolName ++ "' denied: risk tier " ++ tier.value ++
      " is not allowed"

def noApprovalGate (call : ToolCall) (tier : RiskTier) : PyExc :=
  .permissionDenied <|
    "tool '" ++ call.toolName ++ "' requires approval (risk tier " ++
      tier.value ++
      ") but no approval gate is configured — failing closed"

def notApproved (call : ToolCall) (tier : RiskTier) : PyExc :=
  .permissionDenied <|
    "tool '" ++ call.toolName ++ "' (risk tier " ++ tier.value ++
      ") was not approved"

/-- The end of `check`, once the callback's answer is there. -/
def conclude (call : ToolCall) (tier : RiskTier) (approved : Bool) :
    Except PyExc Unit :=
  if approved then .ok () else .error (notApproved call tier)

def check (gate : ApprovalGate σ) (call : ToolCall) (tier : RiskTier) :
    Py σ Unit :=
  match gate.matrix.policyFor tier with
  | .autoAllow => pure ()
  | .deny => throw (notAllowed call tier)
  | .requireApproval =>
      match gate.onApprovalNeeded with
      | none => throw (noApprovalGate call tier)
      | some callback => do
          let result ← callback call tier
          let approved ← result.get
          match conclude call tier approved with
          | .ok () => pure ()
          | .error exc => throw exc

/-! ## What a matrix entry makes of a check -/

variable {gate : ApprovalGate σ} {call : ToolCall} {tier : RiskTier}

theorem check_of_autoAllow
    (policy : gate.matrix.policyFor tier = .autoAllow) :
    gate.check call tier = pure () := by
  unfold check
  rw [policy]

theorem check_of_deny
    (policy : gate.matrix.policyFor tier = .deny) :
    gate.check call tier = throw (notAllowed call tier) := by
  unfold check
  rw [policy]

theorem check_of_no_callback
    (policy : gate.matrix.policyFor tier = .requireApproval)
    (absent : gate.onApprovalNeeded = none) :
    gate.check call tier = throw (noApprovalGate call tier) := by
  unfold check
  rw [policy, absent]

theorem check_of_callback {callback : ApprovalCallback σ}
    (policy : gate.matrix.policyFor tier = .requireApproval)
    (present : gate.onApprovalNeeded = some callback) :
    gate.check call tier = (do
      let result ← callback call tier
      let approved ← result.get
      match conclude call tier approved with
      | .ok () => pure ()
      | .error exc => throw exc) := by
  unfold check
  rw [policy, present]

/-! ## A check up to its await point -/

/-- What a check comes to before it awaits anything: it is over, the callback has
answered, or there is an awaitable to await. -/
inductive CheckStart (σ : Type) where
  | concluded (outcome : Except PyExc Unit)
  | answered (outcome : EStateM.Result PyExc σ Bool)
  | suspended (resolve : Py σ Bool) (env : σ)

/-- The ways in which a check can start. -/
inductive Starts (gate : ApprovalGate σ) (call : ToolCall) (tier : RiskTier)
    (env : σ) : CheckStart σ → Prop where
  | allowed (policy : gate.matrix.policyFor tier = .autoAllow) :
      Starts gate call tier env (.concluded (.ok ()))
  | denied (policy : gate.matrix.policyFor tier = .deny) :
      Starts gate call tier env (.concluded (.error (notAllowed call tier)))
  | unasked (policy : gate.matrix.policyFor tier = .requireApproval)
      (absent : gate.onApprovalNeeded = none) :
      Starts gate call tier env (.concluded (.error (noApprovalGate call tier)))
  | failed (callback : ApprovalCallback σ) (exc : PyExc) (after : σ)
      (policy : gate.matrix.policyFor tier = .requireApproval)
      (present : gate.onApprovalNeeded = some callback)
      (asked : (callback call tier).run env = .error exc after) :
      Starts gate call tier env (.answered (.error exc after))
  | answered (callback : ApprovalCallback σ) (approved : Bool) (after : σ)
      (policy : gate.matrix.policyFor tier = .requireApproval)
      (present : gate.onApprovalNeeded = some callback)
      (asked : (callback call tier).run env = .ok (.value approved) after) :
      Starts gate call tier env (.answered (.ok approved after))
  | suspended (callback : ApprovalCallback σ) (resolve : Py σ Bool) (after : σ)
      (policy : gate.matrix.policyFor tier = .requireApproval)
      (present : gate.onApprovalNeeded = some callback)
      (asked : (callback call tier).run env = .ok (.awaitable resolve) after) :
      Starts gate call tier env (.suspended resolve after)

theorem exists_starts (gate : ApprovalGate σ) (call : ToolCall) (tier : RiskTier)
    (env : σ) : ∃ start, gate.Starts call tier env start := by
  cases policy : gate.matrix.policyFor tier with
  | autoAllow => exact ⟨_, .allowed policy⟩
  | deny => exact ⟨_, .denied policy⟩
  | requireApproval =>
      cases present : gate.onApprovalNeeded with
      | none => exact ⟨_, .unasked policy present⟩
      | some callback =>
          cases asked : (callback call tier).run env with
          | error exc after =>
              exact ⟨_, .failed callback exc after policy present asked⟩
          | ok result after =>
              cases result with
              | value approved =>
                  exact ⟨_, .answered callback approved after policy present asked⟩
              | awaitable resolve =>
                  exact ⟨_, .suspended callback resolve after policy present asked⟩

end ApprovalGate

end FableHarness
