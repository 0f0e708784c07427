import FableHarness.Cli.Run
import FableHarness.Flows.Unreachable

/-!
# The risk matrix of the policy overlay

`harness.yaml` names tiers and policies by their values, and the command line
builds its approval gate from it.  Its callback approves whatever it is asked, so
of a risk matrix only the denials are enforced.
-/

namespace FableHarness

open ExceptionState

variable {σ μ α : Type}

/-! ## Reading a risk matrix -/

/-- `className(text)`: the member of an enumeration that has this value. -/
def ofValue (runtime : PyRuntime) (className : String) (members : List α)
    (value : α → String) (text : String) : Except PyExc α :=
  match members.find? fun member => value member == text with
  | some member => .ok member
  | none =>
      .error
        (.other "ValueError"
          (runtime.repr (.str text) ++ " is not a valid " ++ className))

def RiskTier.members : List RiskTier :=
  [.readOnly, .writesInternal, .financial, .destructive]

def RiskTier.ofValue (runtime : PyRuntime) : String → Except PyExc RiskTier :=
  FableHarness.ofValue runtime "RiskTier" RiskTier.members RiskTier.value

def Policy.members : List Policy := [.autoAllow, .requireApproval, .deny]

def Policy.value : Policy → String
  | .autoAllow => "auto_allow"
  | .requireApproval => "require_approval"
  | .deny => "deny"

def Policy.ofValue (runtime : PyRuntime) : String → Except PyExc Policy :=
  FableHarness.ofValue runtime "Policy" Policy.members Policy.value

/-- The comprehension of `permission_matrix`: of each entry first the tier is
read, then the policy. -/
def readEntries (runtime : PyRuntime) :
    List (String × String) → Except PyExc (List (RiskTier × Policy))
  | [] => .ok []
  | (tierText, policyText) :: rest => do
      let tier ← RiskTier.ofValue runtime tierText
      let policy ← Policy.ofValue runtime policyText
      let entries ← readEntries runtime rest
      return (tier, policy) :: entries

/-- `HarnessConfig.permission_matrix` -/
def permissionMatrix (runtime : PyRuntime) (riskMatrix : OrderedDict String String) :
    Except PyExc PermissionMatrix := do
  let entries ← readEntries runtime riskMatrix.entries
  return ⟨.ofList entries⟩

theorem RiskTier.value_injective : Function.Injective RiskTier.value := by
  intro tier other same
  cases tier <;> cases other <;> first | rfl | exact absurd same (by decide)

theorem Policy.value_injective : Function.Injective Policy.value := by
  intro policy other same
  cases policy <;> cases other <;> first | rfl | exact absurd same (by decide)

theorem ofValue_eq_ok {runtime : PyRuntime} {className : String} {members : List α}
    {value : α → String} (injective : Function.Injective value)
    (every : ∀ member, member ∈ members) {text : String} {member : α} :
    ofValue runtime className members value text = .ok member ↔
      value member = text := by
  unfold ofValue
  cases found : members.find? fun member => value member == text with
  | none =>
      have absent := List.find?_eq_none.mp found member (every member)
      simp only [beq_iff_eq] at absent
      simp [absent]
  | some other =>
      have same : value other = text := by
        simpa using List.find?_some found
      constructor
      · intro read
        cases read
        exact same
      · intro wanted
        rw [injective (wanted.trans same.symm)]

theorem RiskTier.ofValue_eq_ok {runtime : PyRuntime} {text : String}
    {tier : RiskTier} :
    RiskTier.ofValue runtime text = .ok tier ↔ tier.value = text := by
  apply FableHarness.ofValue_eq_ok RiskTier.value_injective
  intro member
  cases member <;> decide

theorem Policy.ofValue_eq_ok {runtime : PyRuntime} {text : String}
    {policy : Policy} :
    Policy.ofValue runtime text = .ok policy ↔ policy.value = text := by
  apply FableHarness.ofValue_eq_ok Policy.value_injective
  intro member
  cases member <;> decide

/-- An entry is read from its own two texts. -/
theorem readEntries_cons_eq_ok {runtime : PyRuntime} {text : String × String}
    {rest : List (String × String)} {entries : List (RiskTier × Policy)} :
    readEntries runtime (text :: rest) = .ok entries ↔
      ∃ entry later,
        text = (entry.1.value, entry.2.value) ∧
          readEntries runtime rest = .ok later ∧ entries = entry :: later := by
  obtain ⟨tierText, policyText⟩ := text
  constructor
  · intro read
    unfold readEntries at read
    cases readTier : RiskTier.ofValue runtime tierText with
    | error exc =>
        rw [readTier] at read
        cases read
    | ok tier =>
        cases readPolicy : Policy.ofValue runtime policyText with
        | error exc =>
            rw [readTier, readPolicy] at read
            cases read
        | ok policy =>
            cases readRest : readEntries runtime rest with
            | error exc =>
                rw [readTier, readPolicy, readRest] at read
                cases read
            | ok later =>
                rw [readTier, readPolicy, readRest] at read
                cases read
                have named := RiskTier.ofValue_eq_ok.mp readTier
                have ruled := Policy.ofValue_eq_ok.mp readPolicy
                exact ⟨(tier, policy), later, by rw [named, ruled], rfl, rfl⟩
  · rintro ⟨⟨tier, policy⟩, later, same, readRest, rfl⟩
    cases same
    unfold readEntries
    rw [RiskTier.ofValue_eq_ok.mpr rfl, Policy.ofValue_eq_ok.mpr rfl, readRest]
    rfl

/-- The entries are read in their order, each once. -/
theorem readEntries_eq_ok {runtime : PyRuntime} {texts : List (String × String)}
    {entries : List (RiskTier × Policy)} :
    readEntries runtime texts = .ok entries ↔
      texts = entries.map fun entry => (entry.1.value, entry.2.value) := by
  induction texts generalizing entries with
  | nil =>
      cases entries with
      | nil => exact iff_of_true rfl rfl
      | cons entry rest =>
          exact iff_of_false (fun read => by cases read) fun same => by cases same
  | cons text rest inductionHypothesis =>
      rw [readEntries_cons_eq_ok]
      constructor
      · rintro ⟨entry, later, same, readRest, rfl⟩
        rw [List.map_cons, same, inductionHypothesis.mp readRest]
      · intro same
        cases entries with
        | nil => cases same
        | cons entry later =>
            obtain ⟨first, others⟩ := List.cons.inj same
            exact ⟨entry, later, first, inductionHypothesis.mpr others, rfl⟩

/-- The matrix has for each tier the policy that its text names. -/
theorem get?_of_permissionMatrix {runtime : PyRuntime}
    {riskMatrix : OrderedDict String String} {matrix : PermissionMatrix}
    (read : permissionMatrix runtime riskMatrix = .ok matrix) (tier : RiskTier) :
    (matrix.policy.get? tier).map Policy.value = riskMatrix.get? tier.value := by
  unfold permissionMatrix at read
  cases entriesRead : readEntries runtime riskMatrix.entries with
  | error exc =>
      rw [entriesRead] at read
      cases read
  | ok entries =>
      rw [entriesRead] at read
      cases read
      have texts := readEntries_eq_ok.mp entriesRead
      have nodup : (entries.map Prod.fst).Nodup := by
        have keys := riskMatrix.nodupKeys
        rw [texts, List.map_map] at keys
        apply List.Nodup.of_map RiskTier.value
        rw [List.map_map]
        exact keys
      show ((OrderedDict.setAll ∅ entries).get? tier).map Policy.value = _
      by_cases listed : tier ∈ entries.map Prod.fst
      · obtain ⟨entry, member, rfl⟩ := List.mem_map.mp listed
        rw [OrderedDict.get?_setAll_of_mem nodup member, Option.map_some]
        symm
        rw [← OrderedDict.mem_entries_iff, texts]
        exact List.mem_map_of_mem member
      · rw [OrderedDict.get?_setAll_of_not_mem listed, OrderedDict.get?_empty,
          Option.map_none]
        symm
        rw [Option.eq_none_iff_forall_ne_some]
        intro text found
        rw [← OrderedDict.mem_entries_iff, texts] at found
        obtain ⟨entry, member, same⟩ := List.mem_map.mp found
        have named : entry.1 = tier :=
          RiskTier.value_injective (congrArg Prod.fst same)
        exact listed (List.mem_map.mpr ⟨entry, member, named⟩)

/-- A tier is denied exactly if its text says so. -/
theorem policyFor_eq_deny_iff {runtime : PyRuntime}
    {riskMatrix : OrderedDict String String} {matrix : PermissionMatrix}
    (read : permissionMatrix runtime riskMatrix = .ok matrix) (tier : RiskTier) :
    matrix.policyFor tier = .deny ↔ riskMatrix.get? tier.value = some "deny" := by
  have named := get?_of_permissionMatrix read tier
  unfold PermissionMatrix.policyFor
  rw [← named]
  cases matrix.policy.get? tier with
  | none => decide
  | some policy => cases policy <;> decide

/-- Every key is the value of a tier and every value that of a policy. -/
def ReadableRiskMatrix (riskMatrix : OrderedDict String String) : Prop :=
  ∀ text ∈ riskMatrix.entries,
    (∃ tier : RiskTier, tier.value = text.1) ∧ ∃ policy : Policy, policy.value = text.2

theorem exists_permissionMatrix (runtime : PyRuntime)
    {riskMatrix : OrderedDict String String}
    (readable : ReadableRiskMatrix riskMatrix) :
    ∃ matrix, permissionMatrix runtime riskMatrix = .ok matrix := by
  have entriesRead :
      ∀ texts : List (String × String), (∀ text ∈ texts, text ∈ riskMatrix.entries) →
        ∃ entries, readEntries runtime texts = .ok entries := by
    intro texts own
    induction texts with
    | nil => exact ⟨[], rfl⟩
    | cons text rest inductionHypothesis =>
        obtain ⟨⟨tier, named⟩, policy, ruled⟩ := readable text (own text List.mem_cons_self)
        obtain ⟨later, readRest⟩ :=
          inductionHypothesis fun other member => own other (List.mem_cons_of_mem _ member)
        refine ⟨(tier, policy) :: later, readEntries_cons_eq_ok.mpr ?_⟩
        exact ⟨(tier, policy), later, by rw [named, ruled], readRest, rfl⟩
  obtain ⟨entries, read⟩ := entriesRead riskMatrix.entries fun _ member => member
  exact ⟨⟨.ofList entries⟩, by rw [permissionMatrix, read]; rfl⟩

end FableHarness
