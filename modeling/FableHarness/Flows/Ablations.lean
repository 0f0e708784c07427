import FableHarness.Flows.MemoryFree

/-!
# What the ablation flags switch off

Without memory a flow asks the store nothing and extracts nothing, and apart
from that it does what it does over a store that never returns anything.
Without the critic it stops one agent run earlier.
-/

namespace FableHarness

open ExceptionState EventLog

variable {σ μ : Type}

/-! ## The two flags -/

def RunContext.withMemory (on : Bool) (ctx : RunContext) : RunContext :=
  { ctx with ablations := { ctx.ablations with memoryOn := on } }

def RunContext.withCritic (on : Bool) (ctx : RunContext) : RunContext :=
  { ctx with ablations := { ctx.ablations with criticOn := on } }

def HarnessServices.withStore (store : MemoryStore μ)
    (services : HarnessServices σ μ) : HarnessServices σ μ :=
  { services with memory := store }

/-- The agent runs of a flow itself; an extraction is made by the extractor. -/
def Interaction.agentPrompt : Interaction → Option (AgentRole × String)
  | .agentStarted .extraction _ _ => none
  | .agentStarted role prompt _ => some (role, prompt)
  | _ => none

/-- The agent runs of the flows of a trace, in order, with their prompts. -/
def agentPrompts (trace : List Interaction) : List (AgentRole × String) :=
  trace.filterMap Interaction.agentPrompt

def Interaction.Unprompted (event : Interaction) : Prop :=
  event.agentPrompt = none

theorem agentPrompts_append (earlier later : List Interaction) :
    agentPrompts (earlier ++ later) = agentPrompts earlier ++ agentPrompts later :=
  List.filterMap_append

theorem agentPrompts_of_unprompted {events : List Interaction}
    (unprompted : ∀ event ∈ events, event.Unprompted) :
    agentPrompts events = [] :=
  List.filterMap_eq_nil_iff.mpr unprompted

theorem allows_unprompted :
    Allows (Only Interaction.Unprompted : World σ μ → _ → World σ μ → Prop)
      (fun _ => True) Interaction.Unprompted :=
  allows_only fun _ => trivial

theorem admitsRuns_unprompted (role : AgentRole) :
    Agent.AdmitsRuns Interaction.Unprompted role :=
  ⟨fun _ _ => rfl, rfl, fun _ => rfl⟩

theorem admitsFlow_unprompted :
    OrchestratorFlow.AdmitsFlow Interaction.Unprompted :=
  ⟨admitsRuns_unprompted, fun _ => rfl, fun _ _ => rfl⟩

/-- A program that starts no agent of a flow adds no prompt. -/
theorem agentPrompts_of_confined {α : Type} {program : Turn σ μ α}
    {before after : World σ μ} {value : α}
    (confined : Confined (Only Interaction.Unprompted) (fun _ => True) program)
    (ran : program.run before = .ok value after) :
    agentPrompts after.trace = agentPrompts before.trace := by
  obtain ⟨events, appended, unprompted⟩ := confined.of_ok ran
  rw [appended, agentPrompts_append, agentPrompts_of_unprompted unprompted,
    List.append_nil]

/-! ## Extractions that do not raise -/

/-- Whatever it is given, the extractor returns. -/
def FactExtractor.Returns (host : Host σ) (extractor : FactExtractor σ)
    (μ : Type) : Prop :=
  ∀ request response source (world : World σ μ),
    ∃ facts after,
      (extractor.extract host request response source).run world =
        .ok facts after

/-- What is known of the extraction of a turn. -/
structure QuietExtraction (extract : Turn σ μ (List MemoryItem)) : Prop where
  returns : ∀ world, ∃ facts after, extract.run world = .ok facts after
  confined : Confined (Only Interaction.Unprompted) (fun _ => True) extract

theorem FactExtractor.quiet {host : Host σ} {extractor : FactExtractor σ}
    (returns : extractor.Returns host μ) (request response source : String) :
    QuietExtraction
      (extractor.extract host request response source :
        Turn σ μ (List MemoryItem)) where
  returns := returns request response source
  confined :=
    extractor.confined_extract allows_unprompted
      (admitsRuns_unprompted .extraction) host request response source
      fun _ => rfl

/-! ## Flows that recall once and remember last -/

/-- A flow in its stages: what it does before it recalls, how it answers to what
it recalled, and what it extracts from the answer.  Only the recall and the end
have to do with memory. -/
structure RecallingFlow (σ μ : Type) where
  host : Host σ
  Start : Type
  Response : Type
  start : HarnessServices σ μ → String → Turn σ μ Start
  respond :
    HarnessServices σ μ → RunContext → String → Start → List String →
      Turn σ μ Response
  extraction :
    Option (FactExtractor σ) → RunContext → String → Response →
      Option (Turn σ μ (List MemoryItem))
  result : Response → FlowResult
  start_store :
    ∀ store services request,
      start (services.withStore store) request = start services request
  start_free : ∀ services request, MemoryFree (start services request)
  respond_store :
    ∀ store services on (ctx : RunContext) request started memory,
      respond (services.withStore store) (ctx.withMemory on) request started
          memory =
        respond services ctx request started memory
  respond_free :
    ∀ services ctx request started memory,
      MemoryFree (respond services ctx request started memory)
  extraction_off :
    ∀ extractor (ctx : RunContext) request response,
      extraction extractor (ctx.withMemory false) request response = none
  extraction_quiet :
    ∀ extractor ctx request response,
      (∀ present, extractor = some present → present.Returns host μ) →
        ∀ extract, extraction extractor ctx request response = some extract →
          QuietExtraction extract

namespace RecallingFlow

def run (flow : RecallingFlow σ μ) (extractor : Option (FactExtractor σ)) :
    Flow σ μ :=
  fun request ctx services => do
    let started ← flow.start services request
    let memory ← Turn.recallContext services ctx request
    let response ← flow.respond services ctx request started memory
    finish services ctx (flow.extraction extractor ctx request response)
      (flow.result response)

variable (flow : RecallingFlow σ μ) (extractor : Option (FactExtractor σ))
  (request : String) (ctx : RunContext) (services : HarnessServices σ μ)

/-- A run up to its answer, with nothing recalled. -/
def unrecalled : Turn σ μ flow.Response := do
  let started ← flow.start services request
  flow.respond services ctx request started []

theorem unrecalled_free : MemoryFree (flow.unrecalled request ctx services) :=
  memoryFree_bind (flow.start_free services request) fun started =>
    flow.respond_free services ctx request started []

theorem unrecalled_store (store : MemoryStore μ) (on : Bool) :
    flow.unrecalled request (ctx.withMemory on) (services.withStore store) =
      flow.unrecalled request ctx services := by
  unfold unrecalled
  simp only [flow.start_store, flow.respond_store]

/-- A run that recalls nothing is its answer and the end. -/
theorem run_of_nothing_recalled
    (nothing : Turn.recallContext services ctx request = pure []) :
    flow.run extractor request ctx services =
      flow.unrecalled request ctx services >>= fun response =>
        finish services ctx (flow.extraction extractor ctx request response)
          (flow.result response) := by
  unfold run unrecalled
  simp only [nothing, pure_bind, bind_assoc]

/-- Without memory there is no end either. -/
theorem run_withoutMemory (store : MemoryStore μ) :
    flow.run extractor request (ctx.withMemory false) (services.withStore store) =
      flow.unrecalled request ctx services >>= fun response =>
        pure (flow.result response) := by
  rw [flow.run_of_nothing_recalled extractor request (ctx.withMemory false) _ rfl,
    flow.unrecalled_store]
  simp only [flow.extraction_off]
  rfl

/-- Nothing is recalled from a store that never returns anything. -/
theorem recallContext_null :
    Turn.recallContext (services.withStore (nullMemoryStore μ)) ctx request =
      pure [] := by
  unfold Turn.recallContext
  split
  · rfl
  · rfl

theorem confined_rememberFacts {extraction : Option (Turn σ μ (List MemoryItem))}
    (quiet : ∀ extract, extraction = some extract → QuietExtraction extract) :
    Confined (Only Interaction.Unprompted) (fun _ => True)
      (rememberFacts services ctx extraction) := by
  cases extraction with
  | none => exact confined_pure ()
  | some extract =>
      apply confined_bind (quiet extract rfl).confined
      intro facts
      split
      · exact
          Turn.confined_remember allows_unprompted
            (allowsMemory_only (fun _ => rfl) services.memory) facts _
      · exact confined_pure ()

/-- Over a store that takes everything, the end of a run adds nothing to its
answer. -/
theorem run_finish_null {extraction : Option (Turn σ μ (List MemoryItem))}
    (quiet : ∀ extract, extraction = some extract → QuietExtraction extract)
    (result : FlowResult) (settled : World σ μ) :
    ∃ after,
      (finish (services.withStore (nullMemoryStore μ)) ctx extraction
          result).run settled = .ok result after ∧
        agentPrompts after.trace = agentPrompts settled.trace := by
  have returns :
      PostTurnReturns (services.withStore (nullMemoryStore μ)) ctx extraction
        settled := by
    intro extract present
    obtain ⟨facts, extracted, ran⟩ := (quiet extract present).returns settled
    exact ⟨facts, extracted, ran, fun _ => ⟨extracted.memory, rfl⟩⟩
  have finishes :
      ∃ after,
        (finish (services.withStore (nullMemoryStore μ)) ctx extraction
          result).run settled = .ok result after :=
    finish_returns_iff.mpr returns
  obtain ⟨after, finished⟩ := finishes
  refine ⟨after, finished, ?_⟩
  have confined :
      Confined (Only Interaction.Unprompted) (fun _ => True)
        (finish (services.withStore (nullMemoryStore μ)) ctx extraction
          result) :=
    confined_bind (confined_rememberFacts ctx _ quiet) fun _ => confined_pure _
  exact agentPrompts_of_confined confined finished

end RecallingFlow

/-! ## Switching memory off -/

/-- What a flow, given its extractor, does with memory switched off. -/
structure MemoryAblation (host : Host σ)
    (flow : Option (FactExtractor σ) → Flow σ μ) (request : String)
    (ctx : RunContext) (services : HarnessServices σ μ) : Prop where
  /-- It is the same program for every store and every extractor, so it calls
  neither. -/
  uncalled :
    ∀ extractor other store,
      flow extractor request (ctx.withMemory false) (services.withStore store) =
        flow other request (ctx.withMemory false) services
  unchanged :
    ∀ extractor before,
      (finalState
        ((flow extractor request (ctx.withMemory false) services).run
          before)).memory = before.memory
  /-- It does what it would do over a store that never returns anything. -/
  asNull :
    ∀ extractor,
      (∀ present, extractor = some present → present.Returns host μ) →
        ∀ before,
          let off :=
            (flow extractor request (ctx.withMemory false) services).run before
          let on :=
            (flow extractor request (ctx.withMemory true)
              (services.withStore (nullMemoryStore μ))).run before
          answer off = answer on ∧
            agentPrompts (finalState off).trace =
              agentPrompts (finalState on).trace
  /-- Neither the store nor what it contains makes a difference. -/
  independent :
    ∀ extractor store before memory,
      answer
          ((flow extractor request (ctx.withMemory false)
            (services.withStore store)).run (before.withMemory memory)) =
        answer
          ((flow extractor request (ctx.withMemory false) services).run before)

namespace RecallingFlow

variable (flow : RecallingFlow σ μ) (request : String) (ctx : RunContext)
  (services : HarnessServices σ μ)

theorem run_off (extractor : Option (FactExtractor σ)) :
    flow.run extractor request (ctx.withMemory false) services =
      flow.unrecalled request ctx services >>= fun response =>
        pure (flow.result response) :=
  flow.run_withoutMemory extractor request ctx services services.memory

theorem run_off_free (extractor : Option (FactExtractor σ)) :
    MemoryFree (flow.run extractor request (ctx.withMemory false) services) := by
  rw [flow.run_off]
  apply memoryFree_bind (flow.unrecalled_free request ctx services)
  exact fun response => memoryFree_pure (flow.result response)

/-- The same answer, whether the flow stops there or goes on to remember it. -/
theorem run_off_eq_null {extractor : Option (FactExtractor σ)}
    (returns : ∀ present, extractor = some present → present.Returns flow.host μ)
    (before : World σ μ) :
    let off :=
      (flow.run extractor request (ctx.withMemory false) services).run before
    let on :=
      (flow.run extractor request (ctx.withMemory true)
        (services.withStore (nullMemoryStore μ))).run before
    answer off = answer on ∧
      agentPrompts (finalState off).trace = agentPrompts (finalState on).trace := by
  have nothing :=
    recallContext_null request (ctx.withMemory true) services
  rw [flow.run_off, flow.run_of_nothing_recalled _ _ _ _ nothing,
    flow.unrecalled_store]
  simp only [EStateM.run_bind]
  cases (flow.unrecalled request ctx services).run before with
  | error exc settled => exact ⟨rfl, rfl⟩
  | ok response settled =>
      obtain ⟨after, finished, same⟩ :=
        run_finish_null (ctx.withMemory true) services
          (flow.extraction_quiet extractor (ctx.withMemory true) request response
            returns)
          (flow.result response) settled
      simp only [finished]
      exact ⟨rfl, same.symm⟩

theorem memoryAblation :
    MemoryAblation flow.host flow.run request ctx services where
  uncalled extractor other store := by
    rw [flow.run_withoutMemory, flow.run_off]
  unchanged extractor before := by
    have free := flow.run_off_free request ctx services extractor before.memory
    have kept : World.withMemory before.memory before = before := rfl
    have same := free.finalState_eq kept
    exact (congrArg World.memory same).trans rfl
  asNull extractor returns := flow.run_off_eq_null request ctx services returns
  independent extractor store before memory := by
    have free := flow.run_off_free request ctx services extractor memory
    rw [flow.run_withoutMemory, ← flow.run_off request ctx services extractor]
    exact free.answer_eq before

end RecallingFlow

/-! ## The flows of the harness -/

namespace SingleAgentFlow

def withExtractor (flow : SingleAgentFlow σ) (extractor : Option (FactExtractor σ)) :
    SingleAgentFlow σ :=
  { flow with factExtractor := extractor }

theorem quiet_newMemoryItem (host : Host σ) (content scope source : String) :
    QuietExtraction
      (do
        let item ← newMemoryItem host content scope source
        return [item] : Turn σ μ (List MemoryItem)) where
  returns _ := ⟨_, _, rfl⟩
  confined := by
    apply confined_bind (confined_newMemoryItem allows_unprompted host _ _ _)
    exact fun _ => confined_pure _

/-- The single-agent flow in its stages. -/
def recalling (host : Host σ) (flow : SingleAgentFlow σ) (μ : Type) :
    RecallingFlow σ μ where
  host := host
  Start := PUnit
  Response := AgentResult String
  start _ _ := modify resetCounters
  respond services _ request _ memory := respondTo host flow request services memory
  extraction extractor ctx request result :=
    extraction host (flow.withExtractor extractor) request ctx result.output
  result := answered
  start_store _ _ _ := rfl
  start_free _ _ := memoryFree_modifyGet fun _ _ => rfl
  respond_store _ _ _ _ _ _ _ := rfl
  respond_free services _ request _ memory :=
    memoryFree_respondTo host flow request services memory
  extraction_off _ _ _ _ := rfl
  extraction_quiet extractor ctx request result returns extract present := by
    unfold extraction at present
    split at present
    · cases present
      cases extractor with
      | none => exact quiet_newMemoryItem host _ _ _
      | some extractor =>
          exact FactExtractor.quiet (returns extractor rfl) _ _ _
    · cases present

theorem run_recalling (host : Host σ) (flow : SingleAgentFlow σ)
    (extractor : Option (FactExtractor σ)) :
    (recalling host flow μ).run extractor =
      (flow.withExtractor extractor).run host := by
  funext request ctx services
  rw [run_eq_respond]
  simp only [respond, bind_assoc, pure_bind]
  simp only [recalling, RecallingFlow.run, respondTo, bind_assoc, pure_bind]
  rfl

end SingleAgentFlow

namespace OrchestratorFlow

def withExtractor (flow : OrchestratorFlow σ)
    (extractor : Option (FactExtractor σ)) : OrchestratorFlow σ :=
  { flow with factExtractor := extractor }

/-- The summary of sources that are gathered, with a memory that is recalled. -/
def synthesizeFrom (host : Host σ) (flow : OrchestratorFlow σ) (request : String)
    (ctx : RunContext) (gathered : Worker → String) (memory : List String) :
    Turn σ μ SynthesisOutput := do
  let sources := sourcesBlock request gathered memory
  let draft ←
    runAgent host .synthesis flow.synthesisModel (Agent.noTools host) sources
      memory
  review host flow ctx draft sources memory

/-- The orchestrator flow in its stages. -/
def recalling (host : Host σ) (flow : OrchestratorFlow σ) (μ : Type) :
    RecallingFlow σ μ where
  host := host
  Start := Worker → String
  Response := SynthesisOutput
  start services request := gather flow (workers host flow request services)
  respond _ ctx request gathered memory :=
    synthesizeFrom host flow request ctx gathered memory
  extraction extractor ctx request synthesis :=
    extraction host (flow.withExtractor extractor) request ctx synthesis.summary
  result := succeeded
  start_store _ _ _ := rfl
  start_free services request :=
    memoryFree_gather flow (memoryFree_work host flow services _ request)
  respond_store _ _ _ _ _ _ _ := rfl
  respond_free services ctx request gathered memory :=
    memoryFree_bind
      (memoryFree_runAgent host .synthesis flow.synthesisModel
        (Agent.memoryFree_noTools host) _ memory)
      fun draft => memoryFree_review host flow ctx draft _ memory
  extraction_off _ _ _ _ := rfl
  extraction_quiet extractor ctx request synthesis returns extract present := by
    unfold extraction at present
    split at present
    · cases extractor with
      | none => cases present
      | some extractor =>
          cases present
          exact FactExtractor.quiet (returns extractor rfl) _ _ _
    · cases present

theorem run_recalling (host : Host σ) (flow : OrchestratorFlow σ)
    (extractor : Option (FactExtractor σ)) :
    (recalling host flow μ).run extractor =
      (flow.withExtractor extractor).run host := by
  funext request ctx services
  rw [run_eq_respond]
  simp only [respond, synthesize, bind_assoc]
  simp only [recalling, RecallingFlow.run, synthesizeFrom, bind_assoc]
  rfl

/-! ## Switching the critic off -/

section Critic

variable (host : Host σ) (flow : OrchestratorFlow σ) (request : String)
  (ctx : RunContext) (services : HarnessServices σ μ)

/-- With the critic on, a run that completes makes the agent runs that it makes
without, and one of the critic after them. -/
def CriticAblation : Prop :=
  ∀ before plain plainEnd reviewed reviewedEnd,
    (flow.run host request (ctx.withCritic false) services).run before =
        .ok plain plainEnd →
      (flow.run host request (ctx.withCritic true) services).run before =
          .ok reviewed reviewedEnd →
        ∃ prompt,
          agentPrompts reviewedEnd.trace =
            agentPrompts plainEnd.trace ++ [(.critic, prompt)]

/-- A run up to its draft, with the sources and the memory it was made from. -/
def drafted : Turn σ μ (SynthesisOutput × String × List String) := do
  let gathered ← gather flow (workers host flow request services)
  let memory ← Turn.recallContext services ctx request
  let sources := sourcesBlock request gathered memory
  let draft ←
    runAgent host .synthesis flow.synthesisModel (Agent.noTools host) sources
      memory
  return (draft, sources, memory)

theorem run_eq_drafted :
    flow.run host request ctx services =
      drafted host flow request ctx services >>= fun made =>
        review host flow ctx made.1 made.2.1 made.2.2 >>= fun synthesis =>
          rememberTurn host flow ctx services request synthesis.summary >>=
            fun _ => pure (succeeded synthesis) := by
  rw [run_eq]
  unfold drafted conclude synthesize
  simp only [bind_assoc, pure_bind]

theorem confined_rememberTurn_unprompted (summary : String) :
    Confined (Only Interaction.Unprompted) (fun _ => True)
      (rememberTurn host flow ctx services request summary) :=
  confined_rememberTurn allows_unprompted admitsFlow_unprompted host flow ctx
    (allowsMemory_only (fun _ => rfl) services.memory) request summary
    fun _ => rfl

variable {host flow request ctx services}

/-- What follows the review starts no agent of the flow. -/
theorem prompts_of_remembered {summary : String} {result last : FlowResult}
    {before after : World σ μ}
    (ran :
      (rememberTurn host flow ctx services request summary >>= fun _ =>
        pure result : Turn σ μ FlowResult).run before = .ok last after) :
    agentPrompts after.trace = agentPrompts before.trace :=
  agentPrompts_of_confined
    (confined_bind
      (confined_rememberTurn_unprompted host flow request ctx services summary)
      fun _ => confined_pure result)
    ran

/-- The critic is one agent run. -/
theorem prompts_of_critic {prompt : String} {memory : List String}
    {before after : World σ μ} {synthesis : SynthesisOutput}
    (ran :
      (runAgent host .critic flow.criticModel (Agent.noTools host) prompt
        memory).run before = .ok synthesis after) :
    agentPrompts after.trace =
      agentPrompts before.trace ++ [(.critic, prompt)] := by
  obtain ⟨events, appended, later, split, unprompted⟩ :=
    runAgent_starts admitsFlow_unprompted allows_unprompted host .critic
      flow.criticModel (Agent.confined_noTools host) prompt memory before
  rw [ran] at appended
  have grown : after.trace = before.trace ++ events := appended
  have rest : agentPrompts later = [] := agentPrompts_of_unprompted unprompted
  have own :
      agentPrompts (.agentStarted .critic prompt memory :: later) =
        (.critic, prompt) :: agentPrompts later :=
    rfl
  rw [grown, agentPrompts_append, split, own, rest]

variable (host flow request ctx services)

theorem criticAblation : CriticAblation host flow request ctx services := by
  intro before plain plainEnd reviewed reviewedEnd plainRun reviewedRun
  rw [run_eq_drafted, run_bind_eq_ok] at plainRun reviewedRun
  -- Up to the draft the two runs are the same program.
  obtain ⟨made, draftEnd, drafts, plainRest⟩ := plainRun
  obtain ⟨again, againEnd, draftsAgain, reviewedRest⟩ := reviewedRun
  have same :
      (drafted host flow request (ctx.withCritic true) services).run before =
        .ok made draftEnd :=
    drafts
  rw [same] at draftsAgain
  cases draftsAgain
  obtain ⟨draft, middle, unreviewed, plainRemembers⟩ := run_bind_eq_ok.mp plainRest
  obtain ⟨synthesis, criticEnd, critic, reviewedRemembers⟩ :=
    run_bind_eq_ok.mp reviewedRest
  cases unreviewed
  refine ⟨criticPrompt host.runtime made.1 made.2.1, ?_⟩
  have criticRuns :
      agentPrompts criticEnd.trace =
        agentPrompts draftEnd.trace ++
          [(.critic, criticPrompt host.runtime made.1 made.2.1)] :=
    prompts_of_critic critic
  rw [prompts_of_remembered reviewedRemembers,
    prompts_of_remembered plainRemembers]
  exact criticRuns

end Critic

end OrchestratorFlow

/-- Each flag switches off its own feature and nothing else. -/
theorem ablations_toggle_own_feature (host : Host σ) (single : SingleAgentFlow σ)
    (orchestrator : OrchestratorFlow σ) (request : String) (ctx : RunContext)
    (services : HarnessServices σ μ) :
    MemoryAblation host (fun extractor => (single.withExtractor extractor).run host)
        request ctx services ∧
      MemoryAblation host
        (fun extractor => (orchestrator.withExtractor extractor).run host) request
        ctx services ∧
      OrchestratorFlow.CriticAblation host orchestrator request ctx services := by
  have singleRuns :
      (SingleAgentFlow.recalling host single μ).run =
        fun extractor => (single.withExtractor extractor).run host :=
    funext (single.run_recalling host)
  have orchestratorRuns :
      (OrchestratorFlow.recalling host orchestrator μ).run =
        fun extractor => (orchestrator.withExtractor extractor).run host :=
    funext (orchestrator.run_recalling host)
  refine ⟨?_, ?_, orchestrator.criticAblation host request ctx services⟩
  · rw [← singleRuns]
    exact (single.recalling host μ).memoryAblation request ctx services
  · rw [← orchestratorRuns]
    exact (orchestrator.recalling host μ).memoryAblation request ctx services

end FableHarness
