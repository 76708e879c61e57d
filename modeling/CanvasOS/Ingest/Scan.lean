/-
  The scans of the daily loop (`handlers/ingest.py`, `handlers/scanner.py`): ingest-signals and the
  eleven scanners of the fan-out.

  1. `ScanCall` — what a scan asks of the web, Vault, the gateway and the task store.
  2. `scan` — fetch, floors, the completion with its fallback, floors again, the schema, the batch.
  3. `ingestSignalsHandler`, `scannerHandler` — the two handlers around it.
  4. `Evidenced` — what is behind a batch: the texts it was asked from and the floors they met.
  5. `scans` — any number of scans next to each other, any of them more than once, with lost answers
     and crashes.  Every batch that is stored is evidenced (`stored_batches_are_evidenced`), and a
     task is completed only when its batch is stored (`completed_scans_have_their_batch`).
-/
import CanvasOS.Dispatch.ModelText
import CanvasOS.Ingest.Evidence
import CanvasOS.Lib.Assure

namespace CanvasOS.Ingest

open Interleave Python
open Dispatch (AgentRun Envelope agentName)
open Orchestrator (TaskId)
open Review (Object)
open Signals (Time)

/-! ## The calls -/

/-- A row of Vault's `signals`, as a scan sends it. -/
structure SignalIn where
  source : String
  signalType : String
  payload : Object
  campaignId : String
  functionId : String
deriving DecidableEq

/-- What a scan asks of others. -/
inductive ScanCall where
  /-- `_load_scan_profiles` -/
  | loadScanProfiles
  | fetchUrl (url : String)
  | getOrCreateCampaign (name functionId : String)
  /-- the ledger of agent runs and the completions -/
  | ingest (call : IngestCall)
  | readPrompt (functionId : String)
  | utcNow
  | listSignals (limit : Nat)
  /-- `_validate_function_output`: it raises, or the output fits the schema -/
  | validateFunctionOutput (functionId : String) (output : Object)
  | createSignal (signal : SignalIn)
  /-- `status="succeeded"` -/
  | updateAgentRun (agentRunId : String) (output : Object)
  | setResultRef (taskId : TaskId) (ref : Object)
  /-- to COMPLETED -/
  | transition (taskId : TaskId)
  | advanceDependents (taskId : TaskId)
deriving DecidableEq

/-- What each call answers with. -/
@[reducible] def ScanCall.Res : ScanCall → Type
  | .loadScanProfiles => Json
  | .fetchUrl _ => Object
  | .getOrCreateCampaign .. | .readPrompt _ | .createSignal _ => String
  | .ingest call => call.Res
  | .utcNow => Time
  | .listSignals _ => List Object
  | .validateFunctionOutput .. | .updateAgentRun .. | .setResultRef .. | .transition _
  | .advanceDependents _ => Unit

abbrev ScanM := Prog ScanCall ScanCall.Res IngestExc

/-- The replies to a scan. -/
abbrev ScanReplies := Replies ScanCall ScanCall.Res IngestExc

/-- One call, its exception propagated. -/
def ask (c : ScanCall) : ScanM c.Res := Prog.perform c

/-- A computation between two calls. -/
def raising {α : Type} : Except IngestExc α → ScanM α
  | .ok a => pure a
  | .error e => throw e

/-- The calls of the completion, as calls of the scan. -/
def during {α : Type} (x : IngestM α) : ScanM α := x.expand fun c => Prog.perform (.ingest c)

/-! ## A scan -/

/-- What the twelve scans differ in. -/
structure ScanKind where
  /-- the name that its errors begin with -/
  name : String
  functionId : String
  agentName : String
  batchType : String
deriving DecidableEq

/-- A task's envelope, `metadata=None` as the empty one. -/
structure ScanEnvelope where
  taskId : TaskId
  campaignId : String
  metadata : List (String × String)
deriving DecidableEq

/-- `_campaign_name` and `is_proof_circuit` -/
def ScanEnvelope.envelope (e : ScanEnvelope) : Envelope :=
  ⟨e.taskId, "run-" ++ e.campaignId, e.metadata.lookup "proof_circuit" = some "true"⟩

variable (T : ScanTools)

/-- The loop over the configured URLs: one bad source does not sink the scan. -/
def fetchSources (sourceChars : Int) : List String → ScanM (List FetchedSource)
  | [] => pure []
  | url :: urls => do
    let result ← tryCatch (do
      let result ← ask (.fetchUrl url)
      pure (some result)) fun _ => pure none
    match result with
    | none => fetchSources sourceChars urls
    | some result => do
      let body := shapeSourceEvidence T (textOf result "body") sourceChars
      let rest ← fetchSources sourceChars urls
      pure (⟨url, body⟩ :: rest)

/-- `sources["topic"]` and `sources["horizon_days"]` -/
def scanSources (sources : Object) : Except IngestExc ScanSources :=
  match Json.lookup sources "topic", Json.lookup sources "horizon_days" with
  | some (.str topic), some (.int horizonDays) => .ok ⟨topic, horizonDays⟩
  | _, _ => .error .raised

/-- `_already_captured`: without Vault's answer the scan runs cold. -/
def rememberedSignals (sources : ScanSources) : ScanM (List CapturedSignal) := do
  let now : Time ← ask .utcNow
  let rows ← tryCatch (do
    let rows : List Object ← ask (.listSignals recentSignalScanLimit)
    pure (some rows)) fun _ => pure none
  match rows with
  | none => pure []
  | some rows => raising (alreadyCaptured T sources.topic sources.horizonDays now rows)

/-- `_parse_json_content(response["content"])` -/
def parsedContent (response : Object) : Except IngestExc Object :=
  match Json.lookup response "content" with
  | some (.str content) =>
    match Dispatch.ModelText.parseJsonContent T.spell content.toList with
    | .ok output => .ok output
    | .error _ => .error .raised
  | _ => .error .raised

/-- The agent run of a scan. -/
def scanRun (K : ScanKind) (e : ScanEnvelope) (campaignId profileId : String)
    (sources : ScanSources) (fetched : List FetchedSource) (urls : List String) : AgentRun where
  agentName := agentName K.agentName e.envelope
  campaignId
  functionId := K.functionId
  status := "running"
  input := .obj [("topic", .str sources.topic), ("horizon_days", .int sources.horizonDays),
    ("source_urls", .arr (fetched.map fun item => .str item.url)),
    ("source_urls_configured", .arr (urls.map .str)), ("scan_profile_id", .str profileId),
    ("proof_circuit_tag", if e.envelope.proofCircuit then .str "loop-proof" else .null)]
  output := .null

/-- What the result reference is made of. -/
structure ScanOutcome where
  signalId : String
  agentRunId : String
  campaignId : String
  topic : String
  configured : Nat
  used : Nat
  repeatCount : Nat
  capturedCount : Nat
  items : Nat

/-- The row that a scan stores. -/
def ScanKind.signal (K : ScanKind) (campaignId : String) (payload : Object) : SignalIn :=
  ⟨"function-" ++ K.functionId, K.batchType, payload, campaignId, K.functionId⟩

/-- From the model's reply to the stored batch. -/
def storeBatch (K : ScanKind) (floors : ScanFloors) (campaignId agentRunId topic : String)
    (urls : List String) (captured : List CapturedSignal) (result : IngestResult) :
    ScanM ScanOutcome := do
  -- the fallback may have dropped sources
  let _ ← raising (assertIngestFloor T "the redaction fallback" result.remaining floors.minSources
    floors.minDomains floors.minSourceChars)
  let output ← raising (parsedContent T result.response)
  ask (.validateFunctionOutput K.functionId output)
  let available ← raising (distinctDomains T (result.remaining.map FetchedSource.url))
  raising (assertSignalDomainFloor T output floors.minDomains available.length)
  let items ← raising (batchItems output)
  let repeatCount ← raising (countRepeats T output captured)
  let signalId : String ← ask (.createSignal (K.signal campaignId output))
  ask (.updateAgentRun agentRunId output)
  pure ⟨signalId, agentRunId, campaignId, topic, urls.length, result.remaining.length, repeatCount,
    captured.length, items.length⟩

/-- From the resolved profile to the stored batch. -/
def scan (K : ScanKind) (e : ScanEnvelope) (profileId : String) (sources : Object) :
    ScanM ScanOutcome := do
  let urls ← raising (configuredUrls sources)
  let floors ← raising (scanFloors sources)
  let fetched ← fetchSources T floors.sourceChars urls
  if fetched = [] then
    throw (.dispatchError (K.name ++ ": every source configured for scan profile " ++
      Python.reprStr profileId ++ " failed to fetch"))
  else do
    -- before the model is asked
    let _ ← raising (assertIngestFloor T "retrieval" fetched floors.minSources floors.minDomains
      floors.minSourceChars)
    let campaignId : String ← ask (.getOrCreateCampaign e.envelope.campaignName K.functionId)
    let quoted ← raising (scanSources sources)
    let run := scanRun K e campaignId profileId quoted fetched urls
    let agentRunId ← during (createAgentRunIdempotent run)
    let systemPrompt : String ← ask (.readPrompt K.functionId)
    let captured ← rememberedSignals T quoted
    let result ← during
      (completeIngest ⟨quoted, fetched, captured, systemPrompt, run⟩ agentRunId fetched [])
    storeBatch T K floors campaignId agentRunId quoted.topic urls captured result

/-- The last three statements of every handler. -/
def complete (taskId : TaskId) (ref : Object) : ScanM Unit := do
  ask (.setResultRef taskId ref)
  ask (.transition taskId)
  ask (.advanceDependents taskId)

/-! ## The handlers -/

/-- `_envelope_scan_profile_id` -/
def envelopeScanProfileId (e : ScanEnvelope) : String :=
  match e.metadata.lookup "profile_id" with
  | none | some "" => "market-intelligence"
  | some profileId => profileId

/-- ingest-signals -/
def ingestKind : ScanKind where
  name := "ingest-signals"
  functionId := "09-market-intelligence-director"
  agentName := "market-intelligence-director"
  batchType := signalBatchType

/-- `QUIET_SCAN_STATUS` -/
def quietScanStatus : String := "quiet_scan"

/-- The `result_ref` of ingest-signals; an empty batch tells the brief chain to stand down. -/
def ingestRef (profileId : String) (x : ScanOutcome) : Object :=
  [("vault_signal_id", .str x.signalId), ("agent_run_id", .str x.agentRunId),
    ("campaign_id", .str x.campaignId), ("topic", .str x.topic),
    ("sources_configured", .int x.configured), ("sources_used", .int x.used),
    ("scan_profile_id", .str profileId), ("repeat_count", .int x.repeatCount),
    ("already_captured_count", .int x.capturedCount), ("signal_count", .int x.items)] ++
  if x.items = 0 then [("status", .str quietScanStatus)] else []

/-- `ingest_signals_handler` -/
def ingestSignalsHandler (e : ScanEnvelope) : ScanM Unit := do
  let profileId := envelopeScanProfileId e
  let document : Json ← ask .loadScanProfiles
  let sources ← raising (resolveScanProfile document profileId true)
  let done ← scan T ingestKind e profileId sources
  complete e.taskId (ingestRef profileId done)

/-- An entry of `SCANNER_TASKS`. -/
structure Scanner where
  taskType : String
  functionId : String
  profileId : String
  agentName : String
deriving DecidableEq

/-- `SCANNER_TASKS` -/
def scannerTasks : List Scanner :=
  [⟨"competitor-discovery-scan", "10-competitor-discovery-scanner", "competitor-discovery",
      "competitor-discovery-scanner"⟩,
    ⟨"competitor-change-monitor", "11-competitor-change-monitor", "competitor-change",
      "competitor-change-monitor"⟩,
    ⟨"competitive-positioning-analysis", "12-competitive-positioning-analyst",
      "competitive-positioning", "competitive-positioning-analyst"⟩,
    ⟨"competitor-content-performance-scout", "13-competitor-content-performance-scout",
      "competitor-content-performance", "competitor-content-performance-scout"⟩,
    ⟨"fabric-ecosystem-scout", "16-microsoft-fabric-ecosystem-scout", "fabric-ecosystem",
      "fabric-ecosystem-scout"⟩,
    ⟨"vertical-scan-logistics-fleet", "18-01-vertical-intel-logistics-fleet",
      "vertical-logistics-fleet", "vertical-intel-logistics-fleet"⟩,
    ⟨"vertical-scan-mining-industrial", "18-02-vertical-intel-mining-industrial",
      "vertical-mining-industrial", "vertical-intel-mining-industrial"⟩,
    ⟨"vertical-scan-manufacturing", "18-03-vertical-intel-manufacturing",
      "vertical-manufacturing", "vertical-intel-manufacturing"⟩,
    ⟨"vertical-scan-construction", "18-04-vertical-intel-construction", "vertical-construction",
      "vertical-intel-construction"⟩,
    ⟨"vertical-scan-fmcg-beverage", "18-05-vertical-intel-fmcg-beverage",
      "vertical-fmcg-beverage", "vertical-intel-fmcg-beverage"⟩,
    ⟨"vertical-scan-financial-services", "18-06-vertical-intel-financial-services",
      "vertical-financial-services", "vertical-intel-financial-services"⟩]

def Scanner.kind (s : Scanner) : ScanKind := ⟨s.taskType, s.functionId, s.agentName, cardBatchType⟩

/-- `resolved_profile_id`: metadata without the key gives the text of None. -/
def Scanner.resolvedProfileId (s : Scanner) (e : ScanEnvelope) : String :=
  match e.metadata, e.metadata.lookup "profile_id" with
  | [], _ => s.profileId
  | _ :: _, none => "None"
  | _ :: _, some "" => s.profileId
  | _ :: _, some profileId => profileId

/-- The `result_ref` of `_complete_unconfigured_scan`. -/
def unconfiguredRef (functionId profileId : String) : Object :=
  [("status", .str "not_configured"), ("profile_id", .str profileId),
    ("function_id", .str functionId),
    ("reason", .str ("scan profile " ++ Python.reprStr profileId ++ " has no source urls in " ++
      scanProfilesText))]

/-- The `result_ref` of a scanner. -/
def scannerRef (s : Scanner) (profileId : String) (x : ScanOutcome) : Object :=
  [("status", .str "scanned"), ("vault_signal_id", .str x.signalId),
    ("agent_run_id", .str x.agentRunId), ("campaign_id", .str x.campaignId),
    ("topic", .str x.topic), ("profile_id", .str profileId), ("function_id", .str s.functionId),
    ("card_count", .int x.items), ("sources_configured", .int x.configured),
    ("sources_used", .int x.used), ("repeat_count", .int x.repeatCount)]

/-- The handler that `_make_scanner_handler` builds. -/
def scannerHandler (s : Scanner) (e : ScanEnvelope) : ScanM Unit := do
  let profileId := s.resolvedProfileId e
  let document : Json ← ask .loadScanProfiles
  let sources ← raising (resolveScanProfile document profileId false)
  if (Json.get sources "urls").truthy then do
    let done ← scan T s.kind e profileId sources
    complete e.taskId (scannerRef s profileId done)
  -- `_complete_unconfigured_scan`
  else complete e.taskId (unconfiguredRef s.functionId profileId)

/-- A scan task. -/
inductive ScanTask where
  | ingest (e : ScanEnvelope)
  | scanner (s : Scanner) (e : ScanEnvelope)
deriving DecidableEq

namespace ScanTask

def taskId : ScanTask → TaskId
  | .ingest e => e.taskId
  | .scanner _ e => e.taskId

def kind : ScanTask → ScanKind
  | .ingest _ => ingestKind
  | .scanner s _ => s.kind

def profileId : ScanTask → String
  | .ingest e => envelopeScanProfileId e
  | .scanner s e => s.resolvedProfileId e

/-- The `result_ref` of the task, where its batch is stored. -/
def ref : ScanTask → ScanOutcome → Object
  | .ingest e, x => ingestRef (envelopeScanProfileId e) x
  | .scanner s e, x => scannerRef s (s.resolvedProfileId e) x

theorem get_ref (task : ScanTask) (x : ScanOutcome) :
    Json.get (task.ref x) "vault_signal_id" = .str x.signalId := by
  cases task with
  | ingest e => rfl
  | scanner s e => rfl

/-- The handler of the task. -/
def handler : ScanTask → ScanM Unit
  | .ingest e => ingestSignalsHandler T e
  | .scanner s e => scannerHandler T s e

end ScanTask

/-! ## What is behind a batch -/

/-- What a scan had at hand when it stored its batch. -/
structure ScanRecord where
  document : Json
  sources : Object
  floors : ScanFloors
  urls : List String
  /-- what was fetched, what is remembered, and the prompt -/
  attempt : IngestAttempt
  agentRunId : String
  response : Object
  skipped : List FetchedSource
  used : List FetchedSource

section Evidence

variable {T} {task : ScanTask} {l l' : ScanReplies} {x : ScanRecord} {payload : Object}

/-- The source was fetched, and this is what its text was shaped to. -/
def Fetched (T : ScanTools) (sourceChars : Int) (item : FetchedSource) (l : ScanReplies) : Prop :=
  ∃ result, ⟨.fetchUrl item.url, .ok result⟩ ∈ l ∧
    item.body = shapeSourceEvidence T (textOf result "body") sourceChars

/-- The signal is in a batch of the same topic and inside the horizon, on the page Vault listed. -/
def Recalled (T : ScanTools) (sources : ScanSources) (item : CapturedSignal) (l : ScanReplies) :
    Prop :=
  ∃ now rows, ⟨.utcNow, .ok now⟩ ∈ l ∧ ⟨.listSignals recentSignalScanLimit, .ok rows⟩ ∈ l ∧
    ∃ row ∈ rows, Remembers T sources.topic (now - sources.horizonDays * Signals.day) row item

/-- The firewall blocked the request while the first `n` sources were dropped one by one. -/
def Blocked (a : IngestAttempt) (agentRunId : String) (n : Nat) (l : ScanReplies) : Prop :=
  ∀ k < n, ∃ r, ⟨.ingest (.complete (a.completion agentRunId (a.fetched.drop k))), r⟩ ∈ l ∧
    r.out = .error (.gateway (some "REDACTION_BLOCKED"))

/-- What was asked, of which texts. -/
structure ScanRecord.Asked (x : ScanRecord) (T : ScanTools) (task : ScanTask) (l : ScanReplies) :
    Prop where
  document : ⟨.loadScanProfiles, .ok x.document⟩ ∈ l
  profile : ∃ requireUrls, resolveScanProfile x.document task.profileId requireUrls = .ok x.sources
  urls : configuredUrls x.sources = .ok x.urls
  floors : scanFloors x.sources = .ok x.floors
  order : (x.attempt.fetched.map FetchedSource.url).Sublist x.urls
  bodies : ∀ item ∈ x.attempt.fetched, Fetched T x.floors.sourceChars item l
  memory : x.attempt.captured.length ≤ recentSignalHeadlineCap ∧
    ∀ item ∈ x.attempt.captured, Recalled T x.attempt.sources item l
  parts : x.skipped ++ x.used = x.attempt.fetched
  blocked : Blocked x.attempt x.agentRunId x.skipped.length l
  /-- The model was asked with the texts of the used sources, and this is its answer. -/
  answered : ⟨.ingest (.complete (x.attempt.completion x.agentRunId x.used)), .ok x.response⟩ ∈ l

/-- The batch is the model's answer, it fits the schema, and both floors are met. -/
structure ScanRecord.Holds (x : ScanRecord) (T : ScanTools) (task : ScanTask) (l : ScanReplies)
    (payload : Object) : Prop extends x.Asked T task l where
  parsed : parsedContent T x.response = .ok payload
  valid : ⟨.validateFunctionOutput task.kind.functionId payload, .ok ()⟩ ∈ l
  floor : MeetsFloor T x.used x.floors.minSources x.floors.minDomains x.floors.minSourceChars
  cited : ∃ available, distinctDomains T (x.used.map FetchedSource.url) = .ok available ∧
    MeetsDomainFloor T payload (min x.floors.minDomains available.length)

/-- There is evidence for the batch that is stored. -/
def Evidenced (T : ScanTools) (task : ScanTask) (l : ScanReplies) (row : SignalIn) : Prop :=
  ∃ campaignId payload, row = task.kind.signal campaignId payload ∧
    ∃ x : ScanRecord, x.Holds T task l payload

/-- The profile has no URLs, and the result says so. -/
def Unconfigured (task : ScanTask) (l : ScanReplies) (ref : Object) : Prop :=
  ∃ document sources, ⟨.loadScanProfiles, .ok document⟩ ∈ l ∧
    resolveScanProfile document task.profileId false = .ok sources ∧
    (Json.get sources "urls").truthy = false ∧
    ref = unconfiguredRef task.kind.functionId task.profileId

/-- The result names a batch that Vault has answered with, or says that nothing is configured. -/
def Backed (T : ScanTools) (task : ScanTask) (l : ScanReplies) (ref : Object) : Prop :=
  (∃ x row, ref = task.ref x ∧ ⟨.createSignal row, .ok x.signalId⟩ ∈ l ∧ Evidenced T task l row) ∨
    Unconfigured task l ref

/-- What a scan may ask, given the replies so far. -/
def Allowed (T : ScanTools) (task : ScanTask) (l : ScanReplies) : ScanCall → Prop
  | .createSignal row => Evidenced T task l row
  | .setResultRef taskId ref => taskId = task.taskId ∧ Backed T task l ref
  | .transition taskId => taskId = task.taskId ∧ ∃ ref, ⟨.setResultRef taskId ref, .ok ()⟩ ∈ l
  | _ => True

theorem Fetched.mono {n : Int} {item : FetchedSource} (hl : l ⊆ l') (h : Fetched T n item l) :
    Fetched T n item l' := by
  obtain ⟨result, hmem, hbody⟩ := h
  exact ⟨result, hl hmem, hbody⟩

theorem Recalled.mono {sources : ScanSources} {item : CapturedSignal} (hl : l ⊆ l')
    (h : Recalled T sources item l) : Recalled T sources item l' := by
  obtain ⟨now, rows, hnow, hrows, hrow⟩ := h
  exact ⟨now, rows, hl hnow, hl hrows, hrow⟩

theorem Blocked.mono {a : IngestAttempt} {agentRunId : String} {n : Nat} (hl : l ⊆ l')
    (h : Blocked a agentRunId n l) : Blocked a agentRunId n l' := by
  intro k hk
  obtain ⟨r, hmem, hout⟩ := h k hk
  exact ⟨r, hl hmem, hout⟩

theorem ScanRecord.Asked.mono (hl : l ⊆ l') (h : x.Asked T task l) : x.Asked T task l' :=
  ⟨hl h.document, h.profile, h.urls, h.floors, h.order,
    fun item hitem => (h.bodies item hitem).mono hl,
    ⟨h.memory.1, fun item hitem => (h.memory.2 item hitem).mono hl⟩,
    h.parts, h.blocked.mono hl, hl h.answered⟩

theorem Evidenced.mono {row : SignalIn} (hl : l ⊆ l') (h : Evidenced T task l row) :
    Evidenced T task l' row := by
  obtain ⟨campaignId, payload, hrow, x, hx⟩ := h
  exact ⟨campaignId, payload, hrow, x, hx.toAsked.mono hl, hx.parsed, hl hx.valid, hx.floor,
    hx.cited⟩

/-! ## Step by step -/

variable {α β : Type} {P : ScanReplies → ScanCall → Prop} {Q : α → ScanReplies → Prop}

theorem sure_raising {y : Except IngestExc β} {f : β → ScanM α}
    (hf : ∀ b, y = .ok b → (f b).Sure P Q (fun _ _ => True) l) :
    ((raising y).bind f).Sure P Q (fun _ _ => True) l := by
  cases y with
  | ok b => exact hf b rfl
  | error e => trivial

/-- What happens in the ledger is of no interest. -/
theorem sure_during (hP : ∀ l c, P l (.ingest c)) (y : IngestM β) :
    (during y).Sure P (fun _ _ => True) (fun _ _ => True) l := by
  unfold during
  induction y generalizing l with
  | pure b => trivial
  | throw e => trivial
  | op o k ih =>
    refine ⟨hP l o, fun r => ?_⟩
    cases r with
    | ok b => exact ih (.ok b)
    | failed e | lost b e => exact ih (.error e)

/-- The loop over the URLs. -/
theorem sure_fetchSources (sourceChars : Int) (urls : List String) :
    (fetchSources T sourceChars urls).Sure (Allowed T task) (fun fetched l' =>
      (fetched.map FetchedSource.url).Sublist urls ∧
        ∀ item ∈ fetched, Fetched T sourceChars item l') (fun _ _ => True) l := by
  induction urls generalizing l with
  | nil => exact ⟨List.Sublist.refl _, fun item hitem => absurd hitem List.not_mem_nil⟩
  | cons url urls ih =>
    have hone : (((Prog.perform (ScanCall.fetchUrl url)).bind fun result =>
        (Prog.pure (some result) : ScanM (Option Object))).tryCatch fun _ => .pure none).Sure
        (Allowed T task) (fun result l' => ∀ found ∈ result, ⟨.fetchUrl url, .ok found⟩ ∈ l')
        (fun _ _ => True) l := by
      refine Prog.Sure.tryCatch (F := fun _ _ => True) (Prog.Sure.step trivial fun result => ?_)
        fun _ l' _ _ => ?_
      · intro found hfound
        obtain rfl := Option.some.inj hfound
        exact List.mem_append_right _ List.mem_cons_self
      · intro found hfound
        cases hfound
    refine hone.bind fun result l₁ _ hresult => ?_
    cases result with
    | none =>
      exact ih.mono (fun _ _ h => h)
        (fun fetched l' _ h => ⟨h.1.cons _, h.2⟩) fun _ _ _ h => h
    | some result =>
      refine (ih (l := l₁)).bind fun rest l₂ hl h => ?_
      refine ⟨h.1.cons_cons _, fun item hitem => ?_⟩
      rcases List.mem_cons.1 hitem with rfl | hitem
      · exact ⟨result, hl.subset (hresult result rfl), rfl⟩
      · exact h.2 item hitem

/-- What Vault remembers. -/
theorem sure_rememberedSignals (sources : ScanSources) :
    (rememberedSignals T sources).Sure (Allowed T task) (fun captured l' =>
      captured.length ≤ recentSignalHeadlineCap ∧ ∀ item ∈ captured, Recalled T sources item l')
      (fun _ _ => True) l := by
  refine Prog.Sure.step trivial fun now => ?_
  have hone : (((Prog.perform (ScanCall.listSignals recentSignalScanLimit)).bind fun rows =>
      (Prog.pure (some rows) : ScanM (Option (List Object)))).tryCatch fun _ => .pure none).Sure
      (Allowed T task) (fun rows l' => ∀ found ∈ rows,
        ⟨.listSignals recentSignalScanLimit, .ok found⟩ ∈ l') (fun _ _ => True)
      (l ++ [⟨.utcNow, .ok now⟩]) := by
    refine Prog.Sure.tryCatch (F := fun _ _ => True) (Prog.Sure.step trivial fun rows => ?_)
      fun _ l' _ _ => ?_
    · intro found hfound
      obtain rfl := Option.some.inj hfound
      exact List.mem_append_right _ List.mem_cons_self
    · intro found hfound
      cases hfound
  refine hone.bind fun rows l₁ hl hrows => ?_
  have hnow : ⟨.utcNow, .ok now⟩ ∈ l₁ :=
    hl.subset (List.mem_append_right _ List.mem_cons_self)
  cases rows with
  | none => exact ⟨Nat.zero_le _, fun item hitem => absurd hitem List.not_mem_nil⟩
  | some rows =>
    dsimp only
    cases hcaptured : alreadyCaptured T sources.topic sources.horizonDays now rows with
    | error e => trivial
    | ok captured =>
      obtain ⟨hle, hall⟩ := alreadyCaptured_spec hcaptured
      exact ⟨hle, fun item hitem => ⟨now, rows, hnow, hrows rows rfl, hall item hitem⟩⟩

/-- One completion: an exception is the one that the gateway raised. -/
theorem sure_completeAndMeter (completion : Dispatch.Completion) :
    (during (completeAndMeter completion)).Sure (Allowed T task)
      (fun out l' => ⟨.ingest (.complete completion), .ok out.1⟩ ∈ l')
      (fun e l' => ∃ r, ⟨.ingest (.complete completion), r⟩ ∈ l' ∧ r.out = .error e) l := by
  unfold during completeAndMeter request
  simp only [Prog.bind_eq, Prog.expand_bind, Prog.expand_perform]
  refine (Prog.Sure.perform (Q := fun response (l' : ScanReplies) =>
    ⟨.ingest (.complete completion), .ok response⟩ ∈ l') trivial
      (fun _ => List.mem_append_right _ List.mem_cons_self)
      fun r e hr => ⟨r, List.mem_append_right _ List.mem_cons_self, hr⟩).bind
        fun response l₁ _ hresponse => ?_
  split
  · -- the cost is read back, or counted as nothing
    simp only [Prog.tryCatch_eq, Prog.expand_tryCatch, Prog.expand_bind, Prog.expand_perform]
    refine Prog.Sure.tryCatch (F := fun _ _ => True) (Prog.Sure.step trivial fun cost => ?_)
      fun _ l' hl _ => hl.subset hresponse
    exact List.mem_append_left _ hresponse
  · exact hresponse

/-- The fallback: what it returns is the answer to the sources that it returns, and each dropped
    source was the first of a request that the firewall blocked. -/
theorem sure_completeIngest (a : IngestAttempt) (agentRunId : String)
    (remaining : List FetchedSource) : ∀ (skipped : List FetchedSource) {l : ScanReplies},
    skipped ++ remaining = a.fetched → Blocked a agentRunId skipped.length l →
    (during (completeIngest a agentRunId remaining skipped)).Sure (Allowed T task)
      (fun result l' => result.skipped ++ result.remaining = a.fetched ∧
        Blocked a agentRunId result.skipped.length l' ∧
        ⟨.ingest (.complete (a.completion agentRunId result.remaining)), .ok result.response⟩ ∈ l')
      (fun _ _ => True) l := by
  induction remaining with
  | nil =>
    intro skipped l _ _
    trivial
  | cons dropped rest ih =>
    intro skipped l hparts hblocked
    rw [completeIngest]
    unfold during
    simp only [Prog.tryCatch_eq, Prog.bind_eq, Prog.expand_tryCatch, Prog.expand_bind]
    refine Prog.Sure.tryCatch (F := fun e (l' : ScanReplies) => l <+: l' ∧ ∃ r, ⟨.ingest (.complete
      (a.completion agentRunId (dropped :: rest))), r⟩ ∈ l' ∧ r.out = .error e) ?_ ?_
    · refine (sure_completeAndMeter (a.completion agentRunId (dropped :: rest))).extending.bind
        fun out l₁ _ hout => ?_
      obtain ⟨response, cost⟩ := out
      exact ⟨hparts, hblocked.mono hout.1.subset, hout.2⟩
    · rintro e l₁ - ⟨hl, r, hmem, hr⟩
      split
      · -- the oldest source is dropped
        refine ih _ (by rw [List.append_assoc]; exact hparts) fun k hk => ?_
        rw [List.length_append, List.length_singleton] at hk
        rcases Nat.lt_succ_iff_lt_or_eq.1 hk with hk | rfl
        · exact hblocked.mono hl.subset k hk
        · refine ⟨r, ?_, hr⟩
          rw [← hparts, List.drop_left]
          exact hmem
      · trivial

/-- From an answer to the batch. -/
theorem sure_storeBatch {document : Json} {sources : Object} {floors : ScanFloors}
    {urls : List String} {a : IngestAttempt} {agentRunId : String} {result : IngestResult}
    (campaignId topic : String) (captured : List CapturedSignal)
    (hx : ScanRecord.Asked ⟨document, sources, floors, urls, a, agentRunId, result.response,
      result.skipped, result.remaining⟩ T task l) :
    (storeBatch T task.kind floors campaignId agentRunId topic urls captured result).Sure
      (Allowed T task)
      (fun out l' => ∃ row, ⟨.createSignal row, .ok out.signalId⟩ ∈ l' ∧ Evidenced T task l' row)
      (fun _ _ => True) l := by
  unfold storeBatch
  refine sure_raising fun _ hfloor => sure_raising fun output hparsed => ?_
  refine Prog.Sure.step trivial fun u => ?_
  refine sure_raising fun available havailable => sure_raising fun _ hcited => ?_
  refine sure_raising fun items _ => sure_raising fun repeatCount _ => ?_
  have hrow : Evidenced T task
      (l ++ [⟨.validateFunctionOutput task.kind.functionId output, .ok u⟩])
      (task.kind.signal campaignId output) :=
    ⟨campaignId, output, rfl, _, hx.mono (List.subset_append_left _ _), hparsed,
      List.mem_append_right _ List.mem_cons_self, meetsFloor_of_assert hfloor, available,
      havailable, meetsDomainFloor_of_assert hcited⟩
  refine Prog.Sure.step hrow fun signalId => ?_
  refine Prog.Sure.step trivial fun _ => ?_
  refine ⟨_, List.mem_append_left _ (List.mem_append_right _ List.mem_cons_self), ?_⟩
  exact hrow.mono (by rw [List.append_assoc]; exact List.subset_append_left _ _)

variable (task) in
theorem sure_scan {document : Json} {sources : Object} {requireUrls : Bool} (e : ScanEnvelope)
    (hdocument : ⟨.loadScanProfiles, .ok document⟩ ∈ l)
    (hprofile : resolveScanProfile document task.profileId requireUrls = .ok sources) :
    (scan T task.kind e task.profileId sources).Sure (Allowed T task)
      (fun out l' => ∃ row, ⟨.createSignal row, .ok out.signalId⟩ ∈ l' ∧ Evidenced T task l' row)
      (fun _ _ => True) l := by
  unfold scan
  refine sure_raising fun urls hurls => sure_raising fun floors hfloors => ?_
  refine (sure_fetchSources floors.sourceChars urls).bind fun fetched l₁ hl₁ hfetched => ?_
  split
  · trivial
  refine sure_raising fun _ _ => Prog.Sure.step trivial fun campaignId => ?_
  refine sure_raising fun quoted _ => ?_
  refine (sure_during (fun _ _ => trivial) _).bind fun agentRunId l₂ hl₂ _ => ?_
  refine Prog.Sure.step trivial fun systemPrompt => ?_
  refine (sure_rememberedSignals quoted).bind fun captured l₃ hl₃ hcaptured => ?_
  refine (sure_completeIngest ⟨quoted, fetched, captured, systemPrompt, scanRun task.kind e
    campaignId task.profileId quoted fetched urls⟩ agentRunId fetched [] rfl
      fun k hk => absurd hk (Nat.not_lt_zero k)).bind fun result l₄ hl₄ hresult => ?_
  have hlater : l₁ ⊆ l₄ := fun y hy => hl₄.subset (hl₃.subset (List.mem_append_left _
    (hl₂.subset (List.mem_append_left _ hy))))
  have hasked : ScanRecord.Asked ⟨document, sources, floors, urls, ⟨quoted, fetched, captured,
      systemPrompt, scanRun task.kind e campaignId task.profileId quoted fetched urls⟩, agentRunId,
      result.response, result.skipped, result.remaining⟩ T task l₄ :=
    { document := hlater (hl₁.subset hdocument)
      profile := ⟨requireUrls, hprofile⟩
      urls := hurls
      floors := hfloors
      order := hfetched.1
      bodies := fun item hitem => (hfetched.2 item hitem).mono hlater
      memory := ⟨hcaptured.1, fun item hitem => (hcaptured.2 item hitem).mono hl₄.subset⟩
      parts := hresult.1
      blocked := hresult.2.1
      answered := hresult.2.2 }
  exact sure_storeBatch campaignId quoted.topic captured hasked

theorem sure_complete {taskId : TaskId} {ref : Object} (htask : taskId = task.taskId)
    (hbacked : Backed T task l ref) :
    (complete taskId ref).Sure (Allowed T task) (fun _ _ => True) (fun _ _ => True) l := by
  refine Prog.Sure.step ⟨htask, hbacked⟩ fun _ => ?_
  refine Prog.Sure.step ⟨htask, ref, List.mem_append_right _ List.mem_cons_self⟩ fun _ => ?_
  exact Prog.Sure.perform trivial (fun _ => trivial) fun _ _ _ => trivial

/-- Whatever it is answered, a scan stores only what it has evidence for, and completes its task
    only behind a result that is backed. -/
theorem sure_handler (T : ScanTools) (task : ScanTask) :
    (task.handler T).Sure (Allowed T task) (fun _ _ => True) (fun _ _ => True) [] := by
  cases task with
  | ingest e =>
    refine Prog.Sure.step trivial fun document => sure_raising fun sources hsources => ?_
    refine (sure_scan (.ingest e) e List.mem_cons_self hsources).bind fun out l₁ _ h => ?_
    obtain ⟨row, hrow, hevidenced⟩ := h
    exact sure_complete rfl (.inl ⟨out, row, rfl, hrow, hevidenced⟩)
  | scanner s e =>
    refine Prog.Sure.step trivial fun document => sure_raising fun sources hsources => ?_
    split
    · refine (sure_scan (.scanner s e) e List.mem_cons_self hsources).bind
        fun out l₁ _ h => ?_
      obtain ⟨row, hrow, hevidenced⟩ := h
      exact sure_complete rfl (.inl ⟨out, row, rfl, hrow, hevidenced⟩)
    · next hurls =>
      exact sure_complete rfl (.inr ⟨document, sources, List.mem_cons_self, hsources,
        Bool.eq_false_iff.2 hurls, rfl⟩)

end Evidence

/-! ## Any number of scans -/

/-- What the scans leave behind: the batches with their ids, the result references, and the tasks
    that are COMPLETED, the latest first. -/
structure ScanWorld where
  signals : List (String × SignalIn)
  results : List (TaskId × Object)
  completed : List TaskId

/-- Before the first scan. -/
def ScanWorld.empty : ScanWorld := ⟨[], [], []⟩

/-- One call against the state. -/
def scanExec : (c : ScanCall) → c.Res → ScanWorld → Option (c.Res × ScanWorld)
  | .createSignal row, signalId, w => some (signalId, { w with
      signals := (signalId, row) :: w.signals })
  | .setResultRef taskId ref, u, w => some (u, { w with results := (taskId, ref) :: w.results })
  | .transition taskId, u, w => some (u, { w with completed := taskId :: w.completed })
  | _, answer, w => some (answer, w)

/-- Scans next to each other. -/
def scans (T : ScanTools) (ι : Type) [DecidableEq ι] :
    Sys ScanCall ScanCall.Res IngestExc ScanWorld ι ScanTask Unit Empty where
  body task := task.handler T
  enter _ _ w := some w
  run _ c answer w := scanExec c answer w
  env e _ := e.elim

section Run

variable {ι : Type} [DecidableEq ι] {T : ScanTools}
  {acts : List (Act ScanCall ScanCall.Res IngestExc ι ScanTask Empty)}

/-- The world after a run of scans. -/
def scansAfter (T : ScanTools)
    (acts : List (Act ScanCall ScanCall.Res IngestExc ι ScanTask Empty)) : ScanWorld :=
  (acts.foldl (scans T ι).exec (.idle .empty)).shared

/-- Scan `i` is one of `task`, and these are the replies to it so far. -/
def ScanRan (T : ScanTools) (acts : List (Act ScanCall ScanCall.Res IngestExc ι ScanTask Empty))
    (i : ι) (task : ScanTask) (l : ScanReplies) : Prop :=
  (∃ q, (acts.foldl (scans T ι).exec (.idle .empty)).thread i = some (task, q)) ∧
    (scans T ι).replies i (.idle .empty) acts = l

/-- What was replied to was allowed. -/
theorem allowed_of_reply {i : ι} {y : (c : ScanCall) × Reply IngestExc c.Res}
    (hy : y ∈ (scans T ι).replies i (.idle .empty) acts) :
    ∃ task l₁ l₂, ScanRan T acts i task (l₁ ++ y :: l₂) ∧ Allowed T task l₁ y.1 := by
  obtain ⟨l₁, l₂, hl⟩ := List.append_of_mem hy
  obtain ⟨task, q, hthread, hasks⟩ := Sys.asks_of_replies hl
  exact ⟨task, l₁, l₂, ⟨⟨q, hthread⟩, hl⟩, (sure_handler T task).asks hasks⟩

/-- A call stores this row under this id. -/
def StoresRow (x : String × SignalIn) : (c : ScanCall) → c.Res → Prop
  | .createSignal row, signalId => x = (signalId, row)
  | _, _ => False

/-- A call sets this result. -/
def StoresResult (x : TaskId × Object) : (c : ScanCall) → c.Res → Prop
  | .setResultRef taskId ref, _ => x = (taskId, ref)
  | _, _ => False

/-- A call completes this task. -/
def CompletesTask (taskId : TaskId) : (c : ScanCall) → c.Res → Prop
  | .transition other, _ => taskId = other
  | _, _ => False

theorem enter_scans {i : ι} {task : ScanTask} {w w' : ScanWorld}
    (h : (scans T ι).enter i task w = some w') : w' = w := (Option.some.inj h).symm

theorem records_signals : (scans T ι).Records (fun x w => x ∈ w.signals) StoresRow where
  enter _ _ _ _ _ h := by rw [enter_scans h]
  env _ e := e.elim
  run x _ c a b w w' h := by
    change scanExec c a w = some (b, w') at h
    cases c <;> obtain ⟨rfl, rfl⟩ := Prod.mk.inj (Option.some.inj h) <;> simp [StoresRow, or_comm]

theorem records_results : (scans T ι).Records (fun x w => x ∈ w.results) StoresResult where
  enter _ _ _ _ _ h := by rw [enter_scans h]
  env _ e := e.elim
  run x _ c a b w w' h := by
    change scanExec c a w = some (b, w') at h
    cases c <;> obtain ⟨rfl, rfl⟩ := Prod.mk.inj (Option.some.inj h) <;>
      simp [StoresResult, or_comm]

theorem records_completed :
    (scans T ι).Records (fun taskId w => taskId ∈ w.completed) CompletesTask where
  enter _ _ _ _ _ h := by rw [enter_scans h]
  env _ e := e.elim
  run x _ c a b w w' h := by
    change scanExec c a w = some (b, w') at h
    cases c <;> obtain ⟨rfl, rfl⟩ := Prod.mk.inj (Option.some.inj h) <;>
      simp [CompletesTask, or_comm]

/-- Behind every batch in Vault is a scan that had evidence for it when it stored it. -/
theorem stored_batches_are_evidenced {signalId : String} {row : SignalIn}
    (hrow : (signalId, row) ∈ (scansAfter T acts).signals) :
    ∃ i task l₁ r l₂, ScanRan T acts i task (l₁ ++ ⟨.createSignal row, r⟩ :: l₂) ∧
      Evidenced T task l₁ row := by
  rcases (records_signals.has_iff _ _).1 hrow with hnone | ⟨i, ⟨c, r⟩, hy, answer, -, hstores⟩
  · exact absurd hnone List.not_mem_nil
  obtain ⟨task, l₁, l₂, hran, hallowed⟩ := allowed_of_reply hy
  cases c with
  | createSignal other =>
    obtain ⟨-, rfl⟩ := Prod.mk.inj hstores
    exact ⟨i, task, l₁, r, l₂, hran, hallowed⟩
  | _ => exact hstores.elim

/-- A result that was set is backed by what its scan had been answered. -/
theorem backed_of_result {taskId : TaskId} {ref : Object}
    (href : (taskId, ref) ∈ (scansAfter T acts).results) :
    ∃ i task l₁ r l₂, ScanRan T acts i task (l₁ ++ ⟨.setResultRef taskId ref, r⟩ :: l₂) ∧
      task.taskId = taskId ∧ Backed T task l₁ ref := by
  rcases (records_results.has_iff _ _).1 href with hnone | ⟨i, ⟨c, r⟩, hy, answer, -, hstores⟩
  · exact absurd hnone List.not_mem_nil
  obtain ⟨task, l₁, l₂, hran, hallowed⟩ := allowed_of_reply hy
  cases c with
  | setResultRef other ref' =>
    obtain ⟨rfl, rfl⟩ := Prod.mk.inj hstores
    exact ⟨i, task, l₁, r, l₂, hran, hallowed.1.symm, hallowed.2⟩
  | _ => exact hstores.elim

theorem exists_lookup {taskId : TaskId} {ref : Object} {results : List (TaskId × Object)}
    (h : (taskId, ref) ∈ results) :
    ∃ current, results.lookup taskId = some current ∧ (taskId, current) ∈ results := by
  induction results with
  | nil => exact absurd h List.not_mem_nil
  | cons entry results ih =>
    obtain ⟨other, ref'⟩ := entry
    by_cases hid : taskId = other
    · subst hid
      exact ⟨ref', List.lookup_cons_self, List.mem_cons_self⟩
    · have hne : (taskId, ref) ≠ (other, ref') := fun heq => hid (Prod.mk.inj heq).1
      obtain ⟨current, hlookup, hmem⟩ := ih ((List.mem_cons.1 h).resolve_left hne)
      refine ⟨current, ?_, List.mem_cons_of_mem _ hmem⟩
      rw [List.lookup_cons, beq_eq_false_iff_ne.2 hid]
      exact hlookup

/-- A completed task has a result. -/
theorem result_of_completed {taskId : TaskId} (htask : taskId ∈ (scansAfter T acts).completed) :
    ∃ ref, (taskId, ref) ∈ (scansAfter T acts).results := by
  rcases (records_completed.has_iff _ _).1 htask with hnone | ⟨i, ⟨c, r⟩, hy, answer, -, hwrites⟩
  · exact absurd hnone List.not_mem_nil
  obtain ⟨task, l₁, l₂, ⟨-, hreplies⟩, hallowed⟩ := allowed_of_reply hy
  cases c with
  | transition other =>
    obtain rfl : taskId = other := hwrites
    obtain ⟨-, ref, href⟩ := hallowed
    have hmem : ⟨.setResultRef taskId ref, .ok ()⟩ ∈ (scans T ι).replies i (.idle .empty) acts :=
      hreplies ▸ List.mem_append_left _ href
    exact ⟨ref, records_results.of_reply hmem rfl⟩
  | _ => exact hwrites.elim

/-- The result of a completed task names a batch that Vault has, with its evidence; or its profile
    has no URLs, and it says so. -/
theorem completed_scans_have_their_batch {taskId : TaskId}
    (htask : taskId ∈ (scansAfter T acts).completed) :
    ∃ ref, (scansAfter T acts).results.lookup taskId = some ref ∧
      ∃ i task l₁ r l₂, ScanRan T acts i task (l₁ ++ ⟨.setResultRef taskId ref, r⟩ :: l₂) ∧
        task.taskId = taskId ∧
        ((∃ signalId row, Json.get ref "vault_signal_id" = .str signalId ∧
            (signalId, row) ∈ (scansAfter T acts).signals ∧ Evidenced T task l₁ row) ∨
          Unconfigured task l₁ ref) := by
  obtain ⟨ref₀, href₀⟩ := result_of_completed htask
  obtain ⟨ref, hlookup, href⟩ := exists_lookup href₀
  obtain ⟨i, task, l₁, r, l₂, hran, hid, hbacked⟩ := backed_of_result href
  refine ⟨ref, hlookup, i, task, l₁, r, l₂, hran, hid, hbacked.imp_left ?_⟩
  rintro ⟨x, row, rfl, hmem, hevidenced⟩
  have hreply : ⟨.createSignal row, .ok x.signalId⟩ ∈ (scans T ι).replies i (.idle .empty) acts :=
    hran.2 ▸ List.mem_append_left _ hmem
  exact ⟨x.signalId, row, task.get_ref x, records_signals.of_reply hreply rfl, hevidenced⟩

end Run

/-! ### One morning -/

/-- Two pages on two hosts, and a model that reports a signal of each. -/
def morningTools : ScanTools where
  unicode := .ascii
  lowerOne := lowerChar
  unescape := id
  casefold := fun s => String.ofList (lower s.toList)
  hostname url := some (if url.startsWith "https://b" then some "b.example" else some "a.example")
  fromIsoformat _ := none
  spell := String.ofList

def morningProfiles : Json :=
  .obj [("profiles", .arr [.obj [("profile_id", .str "market-intelligence"),
    ("topic", .str "Fabric"), ("horizon_days", .int 30), ("min_source_chars", .int 5),
    ("urls", .arr [.str "https://a.example/feed", .str "https://b.example/news"])]])]

def morningAnswers : (c : ScanCall) → Reply IngestExc c.Res
  | .loadScanProfiles => .ok morningProfiles
  | .fetchUrl _ => .ok [("body", .str "<p>Copilot ships</p>")]
  | .getOrCreateCampaign .. => .ok "c1"
  | .ingest .getLedgeredAgentRun => .ok none
  | .ingest (.recordLedgeredAgentRun _) => .ok ()
  | .ingest (.createAgentRun _) => .ok "r1"
  | .ingest (.getAgentRun _) => .ok "r1"
  | .ingest (.complete _) => .ok [("content", .str ("\x7b\"signals\": [" ++
      "\x7b\"headline\": \"A\", \"source_url\": \"https://a.example/1\"\x7d, " ++
      "\x7b\"headline\": \"B\", \"source_url\": \"https://b.example/2\"\x7d]\x7d"))]
  | .ingest (.getCost _) => .ok "0.0"
  | .readPrompt _ => .ok "Report."
  | .utcNow => .ok 0
  | .listSignals _ => .ok []
  | .createSignal _ => .ok "s1"
  | .validateFunctionOutput .. | .updateAgentRun .. | .setResultRef .. | .transition _
  | .advanceDependents _ => .ok ()

def morningTask : ScanTask := .ingest ⟨⟨1, "ingest"⟩, "run", []⟩

/-- The task comes, and everything is answered. -/
def morning : List (Act ScanCall ScanCall.Res IngestExc Unit ScanTask Empty) :=
  .enter () morningTask :: List.replicate 17 (.step () morningAnswers)

def morningBatch : SignalIn := ingestKind.signal "c1" [("signals", .arr [
  .obj [("headline", .str "A"), ("source_url", .str "https://a.example/1")],
  .obj [("headline", .str "B"), ("source_url", .str "https://b.example/2")]])]

theorem morning_world : ("s1", morningBatch) ∈ (scansAfter morningTools morning).signals ∧
    morningTask.taskId ∈ (scansAfter morningTools morning).completed := by decide +kernel

theorem morning_batch_is_evidenced : ∃ i task l₁ r l₂,
    ScanRan morningTools morning i task (l₁ ++ ⟨.createSignal morningBatch, r⟩ :: l₂) ∧
      Evidenced morningTools task l₁ morningBatch :=
  stored_batches_are_evidenced morning_world.1

theorem morning_is_complete :
    ∃ ref, (scansAfter morningTools morning).results.lookup morningTask.taskId = some ref := by
  obtain ⟨ref, hlookup, -⟩ := completed_scans_have_their_batch morning_world.2
  exact ⟨ref, hlookup⟩

end CanvasOS.Ingest
