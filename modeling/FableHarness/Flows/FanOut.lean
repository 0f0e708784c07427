import FableHarness.Flows.Denials

/-!
# What becomes of a failed worker

A lookup that fails is a result, and its slot says so.  The retrieval agent has
no result to fail with: whatever it raises leaves the fan-out, so the turn has
no synthesis at all.
-/

namespace FableHarness

open ExceptionState EventLog

variable {σ μ α : Type}

/-! ## Results of the registry -/

namespace InMemoryToolRegistry

/-- A result has an output or an error. -/
def Settled (result : ToolResult) : Prop :=
  if result.ok then result.output.isSome else result.error.isSome

theorem settled_failed (spec : ToolSpec σ) (message : String) :
    Settled (failed spec message) := by
  simp [Settled, failed, ToolResult.ok]

/-- What a call ends with: a settled result, or an exception that the gate
raised and that is not a denial. -/
def CallEnds (gate : ApprovalGate σ)
    (outcome : Except PyExc (Verdict × ToolResult)) : Prop :=
  match outcome with
  | .ok (_, result) => Settled result
  | .error exc =>
      exc.isPermissionDenied = false ∧
        ∃ call tier env after, (gate.check call tier).run env = .error exc after

theorem executeObserved_ends (registry : InMemoryToolRegistry σ)
    (call : ToolCall) (grants : PermissionGrants σ) (env : σ) :
    CallEnds grants.gate
      (answer ((registry.executeObserved call grants).run env)) := by
  have ends := ends_executeObserved registry call grants env
  cases ended : (registry.executeObserved call grants).run env with
  | error exc after =>
      rw [ended] at ends
      cases ends with
      | escaped spec _ _ _ checked foreign => exact ⟨foreign, _, _, _, _, checked⟩
  | ok observed after =>
      rw [ended] at ends
      cases ends with
      | unknownTool => simp [CallEnds, Settled, unknownTool, ToolResult.ok]
      | denied spec message => exact settled_failed spec message
      | unbound spec message => exact settled_failed spec message
      | raised spec exc => exact settled_failed spec exc.message
      | returned => simp [CallEnds, Settled, succeeded, ToolResult.ok]

end InMemoryToolRegistry

/-- All that the gate raises is a denial. -/
def ApprovalGate.OnlyDenies (gate : ApprovalGate σ) : Prop :=
  ∀ call tier env exc after,
    (gate.check call tier).run env = .error exc after →
      exc.isPermissionDenied = true

theorem ApprovalGate.onlyDenies_of_no_callback {gate : ApprovalGate σ}
    (absent : gate.onApprovalNeeded = none) : gate.OnlyDenies := by
  intro call tier env exc after checked
  cases policy : gate.matrix.policyFor tier with
  | autoAllow =>
      rw [check_of_autoAllow policy] at checked
      cases checked
  | deny =>
      rw [check_of_deny policy] at checked
      cases checked
      rfl
  | requireApproval =>
      rw [check_of_no_callback policy absent] at checked
      cases checked
      rfl

namespace OrchestratorFlow

/-! ## What the workers report -/

/-- What a worker comes back with, before it becomes the text of its slot. -/
inductive Report where
  | served (result : ToolResult)
  | retrieved (text : String)

def Report.text : Report → String
  | .served result => workerOutput result
  | .retrieved text => text

def lookupReport (flow : OrchestratorFlow σ) (services : HarnessServices σ μ)
    (grants : PermissionGrants σ) (toolName : String) : Turn σ μ Report := do
  let call : ToolCall :=
    ⟨toolName, [("client", .str flow.clientKey)], flowName⟩
  let (_, result) ← Turn.execute services call grants
  return .served result

def report (host : Host σ) (flow : OrchestratorFlow σ)
    (services : HarnessServices σ μ) (grants : PermissionGrants σ)
    (request : String) : Worker → Turn σ μ Report
  | .account => lookupReport flow services grants "account_lookup"
  | .meeting => lookupReport flow services grants "meeting_history"
  | .retrieval => Report.retrieved <$> retrievalWorker host flow services request

/-- The workers of the flow, with what they report instead of its text. -/
theorem work_eq (host : Host σ) (flow : OrchestratorFlow σ)
    (services : HarnessServices σ μ) (grants : PermissionGrants σ)
    (request : String) (worker : Worker) :
    work host flow services grants request worker =
      Report.text <$> report host flow services grants request worker := by
  cases worker with
  | account => simp [work, report, lookupReport, toolWorker, Report.text]
  | meeting => simp [work, report, lookupReport, toolWorker, Report.text]
  | retrieval => simp [work, report, Report.text]

/-- What the workers report when they finish in this order, and the world they
leave. -/
def fanOut (worker : Worker → Turn σ μ Report) :
    List Worker → World σ μ → List (Worker × Except TurnExc Report) × World σ μ
  | [], world => ([], world)
  | next :: rest, world =>
      let ended := (worker next).run world
      let later := fanOut worker rest (finalState ended)
      ((next, answer ended) :: later.1, later.2)

section Run

variable (host : Host σ) (flow : OrchestratorFlow σ) (request : String)
  (services : HarnessServices σ μ)

/-- The fan-out of a run: what its workers report, and the world they leave. -/
def fannedOut (before : World σ μ) :
    List (Worker × Except TurnExc Report) × World σ μ :=
  let ordered := flow.gatherOrder before.env
  fanOut (report host flow services (grantsFor services.approvalGate) request)
    ordered.1.workers { before with env := ordered.2 }

/-- The outcomes of the workers of a run. -/
def outcomes (before : World σ μ) : List (Worker × Except TurnExc Report) :=
  (fannedOut host flow request services before).1

end Run

/-- Every outcome is how its worker ended from some world. -/
theorem mem_fanOut {worker : Worker → Turn σ μ Report} {next : Worker}
    {outcome : Except TurnExc Report} :
    ∀ {order : List Worker} {world : World σ μ},
      (next, outcome) ∈ (fanOut worker order world).1 →
        ∃ started, outcome = answer ((worker next).run started)
  | first :: rest, world, member => by
      rcases List.mem_cons.mp member with own | later
      · cases own
        exact ⟨world, rfl⟩
      · exact mem_fanOut later

theorem keys_fanOut (worker : Worker → Turn σ μ Report) (order : List Worker)
    (world : World σ μ) : (fanOut worker order world).1.map Prod.fst = order := by
  induction order generalizing world with
  | nil => rfl
  | cons next rest inductionHypothesis =>
      rw [fanOut, List.map_cons, inductionHypothesis]

/-- The outcomes as `runWorkers` has them. -/
def texts (outcomes : List (Worker × Except TurnExc Report)) :
    List (Worker × Except TurnExc String) :=
  outcomes.map fun outcome => (outcome.1, outcome.2.map Report.text)

theorem run_runWorkers (worker : Worker → Turn σ μ Report) (order : List Worker)
    (world : World σ μ) :
    (runWorkers (fun next => Report.text <$> worker next) order).run world =
      .ok (texts (fanOut worker order world).1) (fanOut worker order world).2 := by
  induction order generalizing world with
  | nil => rfl
  | cons next rest inductionHypothesis =>
      have ended :
          answer ((Report.text <$> worker next).run world) =
              (answer ((worker next).run world)).map Report.text ∧
            finalState ((Report.text <$> worker next).run world) =
              finalState ((worker next).run world) := by
        rw [run_map]
        cases (worker next).run world with
        | ok own after => exact ⟨rfl, rfl⟩
        | error exc after => exact ⟨rfl, rfl⟩
      rw [runWorkers]
      simp only [EStateM.run_bind, run_attempt, ended.1, ended.2,
        inductionHypothesis]
      rfl

theorem firstFailure_eq_none_iff
    {outcomes : List (Worker × Except TurnExc Report)} :
    firstFailure (texts outcomes) = none ↔
      ∀ worker outcome, (worker, outcome) ∈ outcomes →
        ∃ own, outcome = .ok own := by
  induction outcomes with
  | nil => simp [firstFailure, texts]
  | cons first rest inductionHypothesis =>
      obtain ⟨worker, outcome⟩ := first
      cases outcome with
      | ok own =>
          have later : firstFailure (texts ((worker, .ok own) :: rest)) =
              firstFailure (texts rest) := rfl
          rw [later, inductionHypothesis]
          constructor
          · intro returned other outcome member
            rcases List.mem_cons.mp member with same | tail
            · cases same
              exact ⟨own, rfl⟩
            · exact returned other outcome tail
          · exact fun returned other outcome member =>
              returned other outcome (List.mem_cons_of_mem _ member)
      | error exc =>
          have raised : firstFailure (texts ((worker, .error exc) :: rest)) =
              some exc := rfl
          rw [raised]
          constructor
          · intro absent
            cases absent
          · intro returned
            obtain ⟨own, equal⟩ := returned worker (.error exc) List.mem_cons_self
            cases equal

/-- Each worker's own text reaches its own slot. -/
theorem outputOf_texts {outcomes : List (Worker × Except TurnExc Report)}
    {worker : Worker} {own : Report} (distinct : (outcomes.map Prod.fst).Nodup)
    (member : (worker, .ok own) ∈ outcomes) :
    outputOf (texts outcomes) worker = own.text := by
  induction outcomes with
  | nil => cases member
  | cons first rest inductionHypothesis =>
      rw [List.map_cons, List.nodup_cons] at distinct
      rcases List.mem_cons.mp member with same | later
      · cases same
        simp [outputOf, texts, Except.map]
      · have different : (worker == first.1) = false := by
          rw [beq_eq_false_iff_ne]
          intro same
          apply distinct.1
          rw [← same]
          exact List.mem_map_of_mem later
        have skipped :
            outputOf (texts (first :: rest)) worker =
              outputOf (texts rest) worker := by
          simp [outputOf, texts, List.lookup_cons, different]
        rw [skipped]
        exact inductionHypothesis distinct.2 later

/-- What a worker can come to: a lookup has a settled result unless the gate
raised something that is not a denial, and retrieval has a text unless anything
raised. -/
inductive Reported (gate : ApprovalGate σ) :
    Worker → Except TurnExc Report → Prop where
  | served (worker : Worker) (result : ToolResult)
      (lookup : worker ≠ .retrieval)
      (settled : InMemoryToolRegistry.Settled result) :
      Reported gate worker (.ok (.served result))
  | stopped (worker : Worker) (exc : PyExc) (lookup : worker ≠ .retrieval)
      (foreign : exc.isPermissionDenied = false)
      (raised :
        ∃ call tier env after, (gate.check call tier).run env = .error exc after) :
      Reported gate worker (.error (.outside exc))
  | retrieved (text : String) : Reported gate .retrieval (.ok (.retrieved text))
  | failed (exc : TurnExc) : Reported gate .retrieval (.error exc)

theorem reported_lookup (flow : OrchestratorFlow σ)
    (services : HarnessServices σ μ) (grants : PermissionGrants σ)
    (toolName : String) {worker : Worker} (lookup : worker ≠ .retrieval)
    (world : World σ μ) :
    Reported grants.gate worker
      (answer ((lookupReport flow services grants toolName).run world)) := by
  have ends :=
    services.tools.executeObserved_ends
      ⟨toolName, [("client", .str flow.clientKey)], flowName⟩ grants world.env
  unfold lookupReport Turn.execute
  simp only [EStateM.run_bind, Turn.run_outside]
  cases observed :
      (services.tools.executeObserved
        ⟨toolName, [("client", .str flow.clientKey)], flowName⟩ grants).run
          world.env with
  | error exc env =>
      rw [observed] at ends
      exact .stopped worker exc lookup ends.1 ends.2
  | ok observation env =>
      obtain ⟨verdict, result⟩ := observation
      rw [observed] at ends
      by_cases denied : verdict = .denied
      · simp only [denied, if_true]
        exact .served worker result lookup ends
      · simp only [denied, if_false]
        exact .served worker result lookup ends

theorem reported_report (host : Host σ) (flow : OrchestratorFlow σ)
    (services : HarnessServices σ μ) (grants : PermissionGrants σ)
    (request : String) (worker : Worker) (world : World σ μ) :
    Reported grants.gate worker
      (answer
        ((report host flow services grants request worker).run world)) := by
  cases worker with
  | account => exact reported_lookup flow services grants _ (by decide) world
  | meeting => exact reported_lookup flow services grants _ (by decide) world
  | retrieval =>
      rw [report, run_map]
      cases (retrievalWorker host flow services request).run world with
      | ok text after => exact .retrieved text
      | error exc after => exact .failed exc

/-- What the slot of a worker has to show for what the worker came to. -/
def Shows (slot : String) : Except TurnExc Report → Prop
  | .ok (.served result) =>
      if result.ok then
        result.output = some slot
      else
        ∃ error, result.error = some error ∧ slot = unavailable (some error)
  | .ok (.retrieved text) => slot = text
  | .error _ => ∃ error, slot = unavailable (some error)

theorem shows_of_reported {gate : ApprovalGate σ} {worker : Worker}
    {own : Report} (reported : Reported gate worker (.ok own)) :
    Shows own.text (.ok own) := by
  cases reported with
  | retrieved text => rfl
  | served worker result lookup settled =>
      unfold InMemoryToolRegistry.Settled at settled
      by_cases ok : result.ok = true
      · rw [if_pos ok] at settled
        obtain ⟨output, present⟩ := Option.isSome_iff_exists.mp settled
        simp [Shows, Report.text, workerOutput, ok, present]
      · rw [if_neg ok] at settled
        obtain ⟨error, present⟩ := Option.isSome_iff_exists.mp settled
        simp [Shows, Report.text, workerOutput, ok, present]

/-! ## The stages of a run -/

section Stages

variable (host : Host σ) (flow : OrchestratorFlow σ) (request : String)
  (ctx : RunContext) (services : HarnessServices σ μ)

/-- The summary of the gathered sources, reviewed. -/
def synthesize (gathered : Worker → String) : Turn σ μ SynthesisOutput := do
  let memory ← Turn.recallContext services ctx request
  let sources := sourcesBlock request gathered memory
  let draft ←
    runAgent host .synthesis flow.synthesisModel (Agent.noTools host) sources
      memory
  review host flow ctx draft sources memory

def succeeded (synthesis : SynthesisOutput) : FlowResult where
  output := some (.synthesis synthesis)
  success := true
  stopReason := "success"

/-- What follows the fan-out. -/
def conclude (gathered : Worker → String) : Turn σ μ FlowResult := do
  let synthesis ← synthesize host flow request ctx services gathered
  rememberTurn host flow ctx services request synthesis.summary
  return succeeded synthesis

/-- The workers, as `run` starts them. -/
def workers : Worker → Turn σ μ String :=
  work host flow services (grantsFor services.approvalGate) request

theorem run_eq :
    flow.run host request ctx services =
      gather flow (workers host flow request services) >>=
        conclude host flow request ctx services := by
  rw [run, workers]
  congr 1
  funext gathered
  simp [conclude, synthesize, succeeded]

end Stages

section Gather

variable {host : Host σ} {flow : OrchestratorFlow σ} {request : String}
  {services : HarnessServices σ μ} {before : World σ μ}

/-- The workers of a run have run to their ends before `gather` looks at them. -/
theorem run_gather :
    (gather flow (workers host flow request services)).run before =
      resultOf
        (((firstFailure (texts (outcomes host flow request services before))).map
          Except.error).getD
            (.ok (outputOf (texts (outcomes host flow request services before)))))
        (fannedOut host flow request services before).2 := by
  let ordered := flow.gatherOrder before.env
  have chosen :
      (Turn.outside (modifyGet flow.gatherOrder) :
          Turn σ μ GatherOrder).run before =
        .ok ordered.1 { before with env := ordered.2 } :=
    rfl
  have same :
      workers host flow request services =
        fun next =>
          Report.text <$>
            report host flow services (grantsFor services.approvalGate) request
              next :=
    funext (work_eq host flow services _ request)
  rw [gather, same, outcomes, fannedOut]
  simp only [EStateM.run_bind, chosen, run_runWorkers]
  cases firstFailure (texts (fanOut _ ordered.1.workers _).1) with
  | none => rfl
  | some exc => rfl

/-- The fan-out returns when no worker raises, with every report in its slot. -/
theorem gather_returns_iff {gathered : Worker → String} {after : World σ μ} :
    (gather flow (workers host flow request services)).run before =
        .ok gathered after ↔
      (∀ worker outcome,
        (worker, outcome) ∈ outcomes host flow request services before →
          ∃ own, outcome = .ok own) ∧
        gathered =
          outputOf (texts (outcomes host flow request services before)) ∧
        after = (fannedOut host flow request services before).2 := by
  rw [run_gather, ← firstFailure_eq_none_iff]
  cases firstFailure (texts (outcomes host flow request services before)) with
  | none =>
      simp only [Option.map_none, Option.getD_none, resultOf_ok, true_and]
      constructor
      · intro equal
        cases equal
        exact ⟨rfl, rfl⟩
      · rintro ⟨rfl, rfl⟩
        rfl
  | some exc =>
      constructor
      · intro equal
        cases equal
      · rintro ⟨absent, _⟩
        cases absent

/-- Every worker has exactly one outcome. -/
theorem keys_outcomes :
    ((outcomes host flow request services before).map Prod.fst).Perm
      [.account, .meeting, .retrieval] := by
  rw [outcomes, fannedOut, keys_fanOut]
  exact (flow.gatherOrder before.env).1.complete

theorem nodup_outcomes :
    ((outcomes host flow request services before).map Prod.fst).Nodup :=
  keys_outcomes.nodup_iff.mpr (by decide)

end Gather

/-! ## The synthesis is reached -/

section Reached

/-- Nothing is asked of the events. -/
theorem allows_anything :
    Allows (Only fun _ => True : World σ μ → _ → World σ μ → Prop) (fun _ => True)
      fun _ => True :=
  allows_only fun _ => trivial

theorem admits_anything : AdmitsFlow fun _ => True :=
  ⟨fun _ => ⟨fun _ _ => trivial, trivial, fun _ => trivial⟩, fun _ => trivial,
    fun _ _ => trivial⟩

variable (host : Host σ) (flow : OrchestratorFlow σ) (request : String)
  (ctx : RunContext) (services : HarnessServices σ μ)

theorem synthesize_reaches (gathered : Worker → String) (before : World σ μ) :
    Ends World.trace (synthesize host flow request ctx services gathered) before
      fun outcome events _ =>
        ∀ synthesis, outcome = .ok synthesis →
          ∃ memory,
            .agentStarted .synthesis (sourcesBlock request gathered memory)
              memory ∈ events := by
  have recalls :=
    Turn.confined_recallContext allows_anything
      (allowsMemory_only (fun _ => trivial) services.memory) ctx request before
  apply ends_bind recalls
  · intro exc events after _ synthesis equal
    cases equal
  · intro memory recalled middle _
    have starts :=
      runAgent_starts admits_anything allows_anything host .synthesis
        flow.synthesisModel (Agent.confined_noTools host)
        (sourcesBlock request gathered memory) memory middle
    apply ends_bind starts
    · intro exc events after _ synthesis equal
      cases equal
    · intro draft started drafted ⟨later, split, _⟩
      have member :
          .agentStarted .synthesis (sourcesBlock request gathered memory) memory ∈
            started := by
        rw [split]
        exact List.mem_cons_self
      have reviews :
          Confined (Only fun _ => True) (fun _ => True)
            (review host flow ctx draft (sourcesBlock request gathered memory)
              memory : Turn σ μ SynthesisOutput) :=
        confined_review allows_anything admits_anything host flow ctx draft _
          fun _ => trivial
      refine (reviews drafted).mono ?_
      intro outcome events after _ synthesis _
      refine ⟨memory, ?_⟩
      exact
        List.mem_append_right _ (List.mem_append_left _ member)

theorem conclude_reaches (gathered : Worker → String) (before : World σ μ) :
    Ends World.trace (conclude host flow request ctx services gathered) before
      fun outcome events _ =>
        ∀ result, outcome = .ok result →
          result.success = true ∧ result.stopReason = "success" ∧
            ∃ memory,
              .agentStarted .synthesis (sourcesBlock request gathered memory)
                memory ∈ events := by
  apply ends_bind (synthesize_reaches host flow request ctx services gathered before)
  · intro exc events after _ result equal
    cases equal
  · intro synthesis events middle reached
    obtain ⟨memory, member⟩ := reached synthesis rfl
    have remembers :=
      confined_rememberTurn allows_anything admits_anything host flow ctx
        (allowsMemory_only (fun _ => trivial) services.memory) request
        synthesis.summary (fun _ => trivial) middle
    apply ends_bind remembers
    · intro exc later after _ result equal
      cases equal
    · intro _ later after _
      apply ends_pure
      intro result equal
      cases equal
      exact ⟨rfl, rfl, memory, List.mem_append_left _ member⟩

end Reached

/-! ## Degrading gracefully -/

section Delivery

variable (host : Host σ) (flow : OrchestratorFlow σ) (request : String)
  (ctx : RunContext) (services : HarnessServices σ μ) (before : World σ μ)

/-- Memory, synthesis and critic do not raise on what the fan-out gathered. -/
def LaterStagesSucceed : Prop :=
  ∀ gathered after,
    (gather flow (workers host flow request services)).run before =
        .ok gathered after →
      ∃ result final,
        (conclude host flow request ctx services gathered).run after =
          .ok result final

/-- The run succeeds, and its synthesis is shown a slot for every worker that
fits what the worker came to. -/
def DegradesGracefully : Prop :=
  ∃ result after events slots memory,
    (flow.run host request ctx services).run before = .ok result after ∧
      after.trace = before.trace ++ events ∧
      result.success = true ∧ result.stopReason = "success" ∧
      .agentStarted .synthesis (sourcesBlock request slots memory) memory ∈
        events ∧
      ∀ worker outcome,
        (worker, outcome) ∈ outcomes host flow request services before →
          Shows (slots worker) outcome

variable {host flow request ctx services before}

theorem reported_outcome {worker : Worker} {outcome : Except TurnExc Report}
    (member : (worker, outcome) ∈ outcomes host flow request services before) :
    Reported (grantsFor services.approvalGate).gate worker outcome := by
  obtain ⟨started, rfl⟩ := mem_fanOut member
  exact reported_report host flow services _ request worker started

/-- One worker that raises is enough to lose the synthesis, and none is not. -/
theorem degrades_gracefully_iff_no_raise
    (succeed : LaterStagesSucceed host flow request ctx services before) :
    DegradesGracefully host flow request ctx services before ↔
      ∀ worker outcome,
        (worker, outcome) ∈ outcomes host flow request services before →
          ∃ own, outcome = .ok own := by
  constructor
  · rintro ⟨result, after, events, slots, memory, ran, _⟩
    rw [run_eq, run_bind_eq_ok] at ran
    obtain ⟨gathered, middle, fanned, _⟩ := ran
    exact (gather_returns_iff.mp fanned).1
  · intro returned
    have fanned := gather_returns_iff.mpr ⟨returned, rfl, rfl⟩
    obtain ⟨result, final, concluded⟩ := succeed _ _ fanned
    have gatherConfined :=
      confined_gather allows_anything flow
        (confined_work allows_anything admits_anything host flow services
          (grantsFor services.approvalGate) request fun _ => trivial)
    obtain ⟨earlier, gatheredTrace, _⟩ := gatherConfined.of_ok fanned
    obtain ⟨later, concludedTrace, reaches⟩ :=
      conclude_reaches host flow request ctx services _ _
    rw [concluded] at concludedTrace reaches
    obtain ⟨success, reason, memory, member⟩ := reaches result rfl
    refine ⟨result, final, earlier ++ later, _, memory, ?_, ?_, success, reason,
      List.mem_append_right _ member, ?_⟩
    · rw [run_eq, EStateM.run_bind, fanned]
      exact concluded
    · rw [← List.append_assoc, ← gatheredTrace]
      exact concludedTrace
    · intro worker outcome found
      obtain ⟨own, rfl⟩ := returned worker outcome found
      rw [outputOf_texts nodup_outcomes found]
      exact shows_of_reported (reported_outcome found)

/-- Where the gate only denies, all that can be missing is the retrieval. -/
theorem degrades_gracefully_iff
    (denies : (grantsFor services.approvalGate).gate.OnlyDenies)
    (succeed : LaterStagesSucceed host flow request ctx services before) :
    DegradesGracefully host flow request ctx services before ↔
      ∃ text,
        (.retrieval, .ok (.retrieved text)) ∈
          outcomes host flow request services before := by
  rw [degrades_gracefully_iff_no_raise succeed]
  constructor
  · intro returned
    have present :
        Worker.retrieval ∈
          (outcomes host flow request services before).map Prod.fst :=
      keys_outcomes.mem_iff.mpr (by decide)
    obtain ⟨⟨worker, outcome⟩, found, same⟩ := List.mem_map.mp present
    cases same
    obtain ⟨own, rfl⟩ := returned _ _ found
    cases reported_outcome found with
    | served same result lookup settled => exact absurd rfl lookup
    | retrieved text => exact ⟨text, found⟩
  · rintro ⟨text, retrieved⟩ worker outcome found
    cases reported_outcome found with
    | served same result lookup settled => exact ⟨_, rfl⟩
    | retrieved other => exact ⟨_, rfl⟩
    | stopped same exc lookup foreign raised =>
        obtain ⟨call, tier, env, after, checked⟩ := raised
        rw [denies call tier env exc after checked] at foreign
        cases foreign
    | failed exc =>
        -- Retrieval has one outcome, and it is a text.
        have same :=
          List.inj_on_of_nodup_map nodup_outcomes retrieved found rfl
        cases same

end Delivery

/-! ## Fan-outs in which workers fail -/

namespace SearchingFlow

/-- The retrieval model searches once and then answers. -/
def flow : OrchestratorFlow Unit :=
  { Idle.orchestrator with
    retrievalModel _ :=
      pure (.call {} "search" [] fun _ => .answer {} "context" []) }

/-- No lookup tool is registered. -/
def services (gate : Option (ApprovalGate Unit)) : HarnessServices Unit Unit where
  tools := {}
  memory := nullMemoryStore Unit
  budget := { budget := {}, modelId := "model", start := 0 }
  approvalGate := gate

theorem conclude_succeeds (gate : Option (ApprovalGate Unit))
    (gathered : Worker → String) (before : World Unit Unit) :
    ∃ result final,
      (conclude Idle.host flow "prep me" Idle.ctx (services gate) gathered).run
        before = .ok result final :=
  ⟨_, _, rfl⟩

end SearchingFlow

/-- The two lookups fail and leave markers. -/
theorem failed_lookups_degrade_gracefully :
    DegradesGracefully Idle.host SearchingFlow.flow "prep me" Idle.ctx
      (SearchingFlow.services none) Idle.world := by
  have denies :
      (grantsFor (SearchingFlow.services none).approvalGate).gate.OnlyDenies :=
    ApprovalGate.onlyDenies_of_no_callback rfl
  exact
    (degrades_gracefully_iff denies
      fun gathered after _ =>
        SearchingFlow.conclude_succeeds none gathered after).mpr
      ⟨"context", List.mem_of_getElem? (i := 2) rfl⟩

/-- The gate denies the search, and with it the whole turn, although everything
after the fan-out would have succeeded. -/
theorem denied_search_loses_synthesis :
    denyingGate.OnlyDenies ∧
      (∀ gathered before, ∃ result final,
        (conclude Idle.host SearchingFlow.flow "prep me" Idle.ctx
            (SearchingFlow.services (some denyingGate)) gathered).run before =
          .ok result final) ∧
      ¬ DegradesGracefully Idle.host SearchingFlow.flow "prep me" Idle.ctx
          (SearchingFlow.services (some denyingGate)) Idle.world := by
  refine
    ⟨ApprovalGate.onlyDenies_of_no_callback rfl,
      SearchingFlow.conclude_succeeds _, ?_⟩
  rintro ⟨result, after, events, slots, memory, ran, _⟩
  cases ran

end OrchestratorFlow

end FableHarness
