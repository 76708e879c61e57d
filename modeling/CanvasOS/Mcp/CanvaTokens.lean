/-
  The refresh token of mcp-canva (`dispatch.py`) and the tool calls of one process that any number
  of threads serve.

  Canva takes a refresh token once, and answers with the next one.  A call reads the token,
  exchanges it, and stores the new one, each by itself; only the last takes the lock.

  1. The three tools and what they are made of, as routines.
  2. `canvaSystem` — Canva issues a new token on every exchange and takes no earlier one.
  3. `discipline` — what a call may do next, by what it has done with the token.
  4. `rotation_safe` — every exchange presents the newest token, and every call goes through, as
     long as none reads the token while another one is between its reading and its storing.
-/
import CanvasOS.Lib.Format
import CanvasOS.Lib.Typestate
import Mathlib.Data.List.Dedup
import Mathlib.Data.List.Sort

namespace CanvasOS.Mcp.Canva

open Interleave Python

/-! ## What a call does -/

inductive Failure where
  | valueError (message : String)
  /-- `.get` of what is no dictionary -/
  | attributeError
  /-- `for` over what cannot be iterated -/
  | typeError
  /-- what a request to Canva, or reading its answer, raises -/
  | requestError
deriving DecidableEq

/-- What `_api_request` sends. -/
structure Request where
  method : String
  path : String
  jsonBody : Option Json
  authorization : String
deriving DecidableEq

/-- What the token endpoint answers, as far as it is read. -/
structure Payload where
  accessToken : Option String
  refreshToken : Option String
deriving DecidableEq

/-- The accesses to `_ROTATED_REFRESH_TOKEN` and the requests. -/
inductive Access where
  | rotated
  | exchange (refreshToken clientId clientSecret : String)
  /-- the section that holds `_TOKEN_LOCK` -/
  | store (rotated : String)
  | api (request : Request)
deriving DecidableEq

abbrev Access.Res : Access → Type
  | .rotated => Option String
  | .exchange _ _ _ => Payload
  | .store _ => Unit
  | .api _ => Json

abbrev Call := Prog Access Access.Res Failure

/-- The secrets and files of the process. -/
structure Deployment where
  /-- `canva-client-id` -/
  clientId : Option String
  /-- `canva-client-secret` -/
  clientSecret : Option String
  /-- `canva-refresh-token` -/
  refreshToken : Option String
  /-- `CANVA_ACCESS_TOKEN` -/
  accessToken : Option String
  /-- `_load_fixture` -/
  fixture : String → List (String × Json)

/-- A string that counts as true. -/
def present (s : Option String) : Option String := s.filter fun s => s ≠ ""

/-- `resolve_secret`, in a request that may have asked for fixtures. -/
def resolveSecret (forced : Bool) (secret : Option String) : Option String :=
  if forced then none else secret

section Token

variable (D : Deployment) (forced : Bool)

/-- `_client_credentials`, if both are there. -/
def clientCredentials : Option (String × String) :=
  (present (resolveSecret forced D.clientId)).bind fun clientId =>
    (present (resolveSecret forced D.clientSecret)).map fun clientSecret => (clientId, clientSecret)

/-- `_refresh_token`: the global is read to be tested, and read again to be returned. -/
def refreshToken : Call (Option String) := do
  match present (← Prog.perform (.rotated : Access)) with
  | some _ => Prog.perform (.rotated : Access)
  | none => pure (resolveSecret forced D.refreshToken)

/-- `_exchange_refresh_token` -/
def exchangeRefreshToken : Call (Option String) := do
  let token ← refreshToken D forced
  match clientCredentials D forced, present token with
  | some (clientId, clientSecret), some token => do
    let payload ← ((do
        let payload ← Prog.perform (.exchange token clientId clientSecret : Access)
        pure (some payload)) : Call (Option Payload)).tryCatch fun _ => pure none
    match payload with
    | none => pure none
    | some payload =>
      match present payload.accessToken with
      | none => pure none
      | some accessToken =>
        match present payload.refreshToken with
        | none => pure (some accessToken)
        | some rotated =>
          if rotated = token then pure (some accessToken)
          else do
            Prog.perform (.store rotated : Access)
            pure (some accessToken)
  | _, _ => pure none

/-- `_access_token` -/
def accessToken : Call (Option String) :=
  match present D.accessToken with
  | some direct => pure (some direct)
  | none => exchangeRefreshToken D forced

/-- `_live_mode` -/
def liveMode : Call Bool :=
  match clientCredentials D forced with
  | none => pure false
  | some _ => do
    let token ← accessToken D forced
    pure (present token).isSome

/-- `_api_request`: without a token one more is asked for. -/
def apiRequest (method path : String) (jsonBody : Option Json) (token : Option String) :
    Call Json := do
  let token ← match token with
    | some token => pure (some token)
    | none => accessToken D forced
  Prog.perform (.api ⟨method, path, jsonBody, "Bearer " ++ token.getD "None"⟩ : Access)

end Token

/-- `.get(key)` -/
def field (j : Json) (key : String) : Except Failure Json :=
  match j with
  | .obj kvs => .ok (Json.get kvs key)
  | _ => .error .attributeError

/-- `x or y` -/
def orElse (x : Json) (y : Except Failure Json) : Except Failure Json :=
  if x.truthy then .ok x else y

/-- `(job.get("job") or {}).get(key) or job.get(key)` -/
def jobField (job : Json) (key : String) : Except Failure Json := do
  let inner ← field job "job"
  let value ← field (if inner.truthy then inner else .obj []) key
  orElse value (field job key)

def raising {α : Type} : Except Failure α → Call α
  | .ok a => .pure a
  | .error e => .throw e

section Jobs

variable (D : Deployment) (forced : Bool)

/-- `_dataset_fields`: the fields with their types, in the order of Canva's answer. -/
def datasetFields (templateId : Json) (token : Option String) : Call (List (String × String)) := do
  let payload ← ((do
      let payload ← apiRequest D forced "GET"
        ("/brand-templates/" ++ pyStr templateId ++ "/dataset") none token
      pure (some payload)) : Call (Option Json)).tryCatch fun _ => pure none
  match payload with
  | none => pure []
  | some payload => do
    match ← raising (field payload "dataset") with
    | .obj dataset => pure (dataset.filterMap fun (name, spec) =>
        match spec with
        | .obj spec =>
          match Json.get spec "type" with
          | .str type => some (name, type)
          | _ => none
        | _ => none)
    | _ => pure []

/-- `_FILENAME_SUFFIXES` -/
def filenameSuffixes : List String := [".png", ".jpg", ".jpeg", ".gif", ".webp", ".svg", ".pdf"]

/-- `_looks_like_a_canva_asset_id` -/
def looksLikeACanvaAssetId (value : String) : Bool :=
  !filenameSuffixes.any fun suffix => suffix.toList.isSuffixOf (lower value.toList)

/-- `_autofill_data`, of one field. -/
def autofillField (row : List (String × Json)) (filled : List (String × Json) × List String)
    (field : String × String) : List (String × Json) × List String :=
  match Json.lookup row field.1 with
  | none => filled
  | some value =>
    if value = .null ∨ value = .str "" then filled
    else if field.2 = "image" ∨ field.1 = "image_ref" then
      if looksLikeACanvaAssetId (pyStr value) then
        (Json.insert filled.1 field.1
          (.obj [("type", .str "image"), ("asset_id", .str (pyStr value))]), filled.2)
      else (filled.1, filled.2 ++ [field.1])
    else
      (Json.insert filled.1 field.1
        (.obj [("type", .str "text"), ("text", .str (pyStr value))]), filled.2)

/-- `_autofill_data` -/
def autofillData (row : List (String × Json)) (fields : List (String × String)) :
    List (String × Json) × List String :=
  fields.foldl (autofillField row) ([], [])

/-- The loop of `_await_autofill_job`. -/
def poll (jobId : Json) (token : Option String) : Nat → Json → Call Json
  | 0, latest => pure latest
  | attempts + 1, latest => do
    let status ← raising (jobField latest "status")
    if status = .str "success" ∨ status = .str "failed" then pure latest
    else do
      let next ← ((do
          let next ← apiRequest D forced "GET" ("/autofills/" ++ pyStr jobId) none token
          pure (some next)) : Call (Option Json)).tryCatch fun _ => pure none
      match next with
      | none => pure latest
      | some next => poll jobId token attempts next

/-- `_await_autofill_job` -/
def awaitAutofillJob (job : Json) (token : Option String) : Call Json := do
  let jobId ← raising (jobField job "id")
  if jobId.truthy = false then pure job else poll D forced jobId token 6 job

/-- `_submit_autofill` -/
def submitAutofill (templateId : Json) (data : List (String × Json)) (token : Option String) :
    Call Json := do
  let submitted ← apiRequest D forced "POST" "/autofills"
    (some (.obj [("type", .str "create_from_brand_template"), ("brand_template_id", templateId),
      ("data", .obj data)])) token
  awaitAutofillJob D forced submitted token

end Jobs

/-- `{"source": "fixture", **fixture}` -/
def fixtureResult (D : Deployment) (name : String) : List (String × Json) :=
  Json.update [("source", .str "fixture")] (D.fixture name)

/-- `sorted(set(skipped))` -/
def sortedSet (skipped : List String) : Json :=
  .arr ((skipped.dedup.insertionSort (· ≤ ·)).map .str)

section Tools

variable (D : Deployment) (forced : Bool) (arguments : List (String × Json))

/-- `create_design_from_template` -/
def createDesignFromTemplate : Call (List (String × Json)) := do
  let templateId := Json.get arguments "template_id"
  if templateId.truthy = false then .throw (.valueError "template_id is required")
  else if (← liveMode D forced) = false then
    pure (fixtureResult D "create_design_from_template")
  else do
    let token ← accessToken D forced
    let fields ← datasetFields D forced templateId token
    let row := arguments.filter fun kv => kv.1 ≠ "template_id" ∧ kv.1 ≠ "title"
    let (data, skipped) := if fields.isEmpty then ([], []) else autofillData row fields
    let result ← submitAutofill D forced templateId data token
    pure [("source", .str "live"), ("result", result), ("skipped_image_fields", sortedSet skipped)]

/-- `for row in rows` -/
def iterate : Json → Except Failure (List Json)
  | .arr rows => .ok rows
  | .obj kvs => .ok (kvs.map fun kv => .str kv.1)
  | .str s => .ok (s.toList.map fun c => .str (String.singleton c))
  | _ => .error .typeError

/-- The loop of `bulk_create_from_csv`. -/
def submitRows (templateId : Json) (fields : List (String × String)) (token : Option String) :
    List Json → List Json × List String → Call (List Json × List String)
  | [], done => pure done
  | .obj row :: rows, done => do
    let row := row.filter fun kv => kv.1 ≠ "brand_template_id"
    let (data, skipped) := autofillData row fields
    let job ← submitAutofill D forced templateId data token
    submitRows templateId fields token rows (done.1 ++ [job], done.2 ++ skipped)
  | _ :: rows, done => submitRows templateId fields token rows done

/-- `bulk_create_from_csv` -/
def bulkCreateFromCsv : Call (List (String × Json)) := do
  let templateId := Json.get arguments "template_id"
  if templateId.truthy = false then .throw (.valueError "template_id is required")
  else if (← liveMode D forced) = false then pure (fixtureResult D "bulk_create_from_csv")
  else do
    let token ← accessToken D forced
    let fields ← datasetFields D forced templateId token
    if fields.isEmpty then
      .throw (.valueError ("brand template " ++ pyStr templateId ++ " exposed no autofill dataset; "
        ++ "cannot map manifest columns to Canva data fields"))
    else do
      let rows ← raising (iterate ((Json.lookup arguments "rows").getD (.arr [])))
      let (jobs, skipped) ← submitRows D forced templateId fields token rows ([], [])
      pure [("source", .str "live"),
        ("result", .obj [("jobs", .arr jobs), ("designs_requested", .int jobs.length)]),
        ("skipped_image_fields", sortedSet skipped)]

/-- `export_design` -/
def exportDesign : Call (List (String × Json)) := do
  let designId := Json.get arguments "design_id"
  if designId.truthy = false then .throw (.valueError "design_id is required")
  else if (← liveMode D forced) = false then pure (fixtureResult D "export_design")
  else do
    let data ← apiRequest D forced "POST" ("/designs/" ++ pyStr designId ++ "/export")
      (some (.obj [("format", .obj [("type", .str "png")])])) none
    pure [("source", .str "live"), ("result", data)]

end Tools

/-- The tools that are exposed. -/
inductive Tool where
  | createDesignFromTemplate
  | bulkCreateFromCsv
  | exportDesign
deriving DecidableEq

/-- A `tools/call`, and whether its header asks for fixtures. -/
structure ToolCall where
  tool : Tool
  arguments : List (String × Json)
  forced : Bool

/-- `_DISPATCH_TABLE` -/
def dispatch (D : Deployment) (call : ToolCall) : Call (List (String × Json)) :=
  match call.tool with
  | .createDesignFromTemplate => createDesignFromTemplate D call.forced call.arguments
  | .bulkCreateFromCsv => bulkCreateFromCsv D call.forced call.arguments
  | .exportDesign => exportDesign D call.forced call.arguments

/-! ## The endpoint, and the process -/

/-- The global of the process, and what Canva has issued, newest first. -/
structure State where
  /-- `_ROTATED_REFRESH_TOKEN` -/
  rotated : Option String
  issued : List String
  granted : List String

/-- What the accesses do.  Canva takes the newest token only, and its answer has a new one; it
    answers `invalid_grant` to the others. -/
def runAccess : (o : Access) → o.Res → State → Option (o.Res × State)
  | .rotated, _, s => some (s.rotated, s)
  | .exchange token _ _, answer, s =>
    if s.issued.head? = some token then
      match present answer.accessToken, present answer.refreshToken with
      | some access, some refresh =>
        if refresh ∈ s.issued then none
        else some (answer, { s with issued := refresh :: s.issued, granted := access :: s.granted })
      | _, _ => none
    else some (⟨none, none⟩, s)
  | .store rotated, _, s => some ((), { s with rotated := some rotated })
  | .api _, answer, s => some (answer, s)

/-- Tool calls in one process. -/
abbrev canvaSystem (D : Deployment) (ι : Type) [DecidableEq ι] :=
  recorded (ι := ι) (dispatch D) (fun _ => runAccess) fun (_ : Unit) s => some s

section Promise

variable {ι : Type} (D : Deployment)

/-- Where a run of the process stands. -/
abbrev Standing (ι : Type) :=
  Config Access Access.Res Failure (History Access Access.Res State ι ToolCall) ι ToolCall
    (List (String × Json))

/-- The token that a call would present. -/
def current (s : State) : Option String :=
  match present s.rotated with
  | some rotated => some rotated
  | none => present D.refreshToken

/-- Valid credentials are held: an access token, or the newest refresh token. -/
structure Held (s : State) : Prop where
  credentials : (clientCredentials D false).isSome
  rotated : s.rotated ≠ some ""
  token : present D.accessToken = none → current D s ≠ none ∧ s.issued.head? = current D s

/-- Every exchange presents the newest token, every request has a token that Canva issued, and no
    call falls back to fixtures. -/
structure Safe (c : Standing ι) : Prop where
  presented : ∀ e ∈ c.shared.log, ∀ token clientId clientSecret,
    e.op = .exchange token clientId clientSecret → e.pre.issued.head? = some token
  authorized : ∀ e ∈ c.shared.log, ∀ request, e.op = .api request →
    ∃ token, request.authorization = "Bearer " ++ token ∧
      (token ∈ e.pre.granted ∨ present D.accessToken = some token)
  live : ∀ i call result, c.result i = some (call, .ok result) → call.forced = false →
    Json.lookup result "source" = some (.str "live")

variable [DecidableEq ι]

/-- The accesses that follow the reading of the token. -/
def Access.completes : Access → Bool
  | .rotated => false
  | .exchange _ _ _ => true
  | .store _ => true
  | .api _ => false

/-- A call has read the token, and has not stored the next one yet. -/
def Pending (c : Standing ι) (i : ι) : Prop := (c.next i).any Access.completes = true

/-- No call reads the token while another one is pending.  The global and the endpoint answer, and
    no call dies while it is pending. -/
structure InTurn (c : Standing ι) (a : Act Access Access.Res Failure ι ToolCall Unit) : Prop where
  alone : ∀ i f, a = .step i f → c.next i = some .rotated → ∀ j, j ≠ i → ¬Pending c j
  answered : ∀ i f o, a = .step i f → c.next i = some o → (∀ request, o ≠ .api request) →
    (f o).answers = true
  survives : ∀ i, a = .crash i → ¬Pending c i

end Promise

/-! ## What a call may do next -/

/-- What a call has done with the token. -/
inductive Custody where
  | atRest
  /-- it has seen that there is a token, and reads it again -/
  | rereading
  | holding (token : String)
  | minted (token : String)

/-- It has read the token, and has not stored the next one yet. -/
def Custody.Busy : Custody → Prop
  | .atRest => False
  | .rereading => False
  | .holding _ => True
  | .minted _ => True

/-- Beside it, the access tokens that the call was given. -/
structure Stance where
  custody : Custody
  tokens : List String

section Discipline

variable (D : Deployment)

/-- The token is one that the call was given, or the one of the process. -/
def Usable (tokens : List String) (token : String) : Prop :=
  token ∈ tokens ∨ present D.accessToken = some token

inductive May : Stance → Access → Prop where
  | read {l : List String} (h : present D.accessToken = none) : May ⟨.atRest, l⟩ .rotated
  | reread {l : List String} (h : present D.accessToken = none) : May ⟨.rereading, l⟩ .rotated
  | exchange {l : List String} {token clientId clientSecret : String} :
      May ⟨.holding token, l⟩ (.exchange token clientId clientSecret)
  | store {l : List String} {token : String} : May ⟨.minted token, l⟩ (.store token)
  | api {l : List String} {request : Request} {token : String} (h : Usable D l token)
      (hbearer : request.authorization = "Bearer " ++ token) : May ⟨.atRest, l⟩ (.api request)

inductive Leads : Stance → (o : Access) → Except Failure o.Res → Stance → Prop where
  | read {l : List String} {token : String} (h : token ≠ "") :
      Leads ⟨.atRest, l⟩ .rotated (.ok (some token)) ⟨.rereading, l⟩
  | stored {l : List String} {token : String} (h : present D.refreshToken = some token) :
      Leads ⟨.atRest, l⟩ .rotated (.ok none) ⟨.holding token, l⟩
  | reread {l : List String} {token : String} (h : token ≠ "") :
      Leads ⟨.rereading, l⟩ .rotated (.ok (some token)) ⟨.holding token, l⟩
  | exchange {l : List String} {token clientId clientSecret access refresh : String}
      (haccess : access ≠ "") (hrefresh : refresh ≠ "") (hnew : refresh ≠ token) :
      Leads ⟨.holding token, l⟩ (.exchange token clientId clientSecret)
        (.ok ⟨some access, some refresh⟩) ⟨.minted refresh, access :: l⟩
  | store {l : List String} {token : String} :
      Leads ⟨.minted token, l⟩ (.store token) (.ok ()) ⟨.atRest, l⟩
  | api {l : List String} {request : Request} {out : Except Failure Json} :
      Leads ⟨.atRest, l⟩ (.api request) out ⟨.atRest, l⟩

/-- What is done with the token, and with what tokens requests go out. -/
def discipline : Discipline Access Access.Res Failure Stance := ⟨May D, Leads D⟩

/-- A call ends with the token at rest, and does not fall back. -/
def Ends (call : ToolCall) (out : Except Failure (List (String × Json))) (τ : Stance) : Prop :=
  τ.custody = .atRest ∧ ∀ result, out = .ok result → call.forced = false →
    Json.lookup result "source" = some (.str "live")

end Discipline

theorem present_eq_some {s : Option String} {t : String} :
    present s = some t ↔ s = some t ∧ t ≠ "" := by
  unfold present
  rw [Option.filter_eq_some_iff, decide_eq_true_eq]

section Calls

variable {D : Deployment} {l : List String} {token : String}

/-- From rest, the token is at rest again, and a usable access token was obtained. -/
def Obtained (D : Deployment) (out : Except Failure (Option String)) (τ : Stance) : Prop :=
  ∃ token l, out = .ok (some token) ∧ token ≠ "" ∧ Usable D l token ∧ τ = ⟨.atRest, l⟩

theorem tracks_refreshToken (hdirect : present D.accessToken = none) :
    (discipline D).Tracks (refreshToken D false) (fun out τ =>
      ∃ token, token ≠ "" ∧ out = .ok (some token) ∧ τ = ⟨.holding token, l⟩) ⟨.atRest, l⟩ := by
  refine ⟨.read hdirect, fun out τ hleads => ?_⟩
  cases hleads with
  | @read _ token hne =>
    show Discipline.Tracks _ ((match present (some token) with
      | some _ => Prog.perform Access.rotated
      | none => pure (resolveSecret false D.refreshToken)) : Call (Option String)) _ _
    rw [present_eq_some.2 ⟨rfl, hne⟩]
    refine Discipline.Tracks.perform (.reread hdirect) fun out τ hleads => ?_
    cases hleads with
    | @reread _ token hne => exact ⟨token, hne, rfl, rfl⟩
  | @stored _ token hstored =>
    obtain ⟨hsecret, hne⟩ := present_eq_some.1 hstored
    exact ⟨token, hne, congrArg Except.ok hsecret, rfl⟩

theorem tracks_exchangeRefreshToken (hcredentials : (clientCredentials D false).isSome)
    (hdirect : present D.accessToken = none) :
    (discipline D).Tracks (exchangeRefreshToken D false) (Obtained D) ⟨.atRest, l⟩ := by
  obtain ⟨⟨clientId, clientSecret⟩, hclient⟩ := Option.isSome_iff_exists.1 hcredentials
  refine (tracks_refreshToken hdirect).bind ?_ ?_
  · rintro token τ ⟨token, hne, htoken, rfl⟩
    obtain rfl := Except.ok.inj htoken
    rw [hclient, present_eq_some.2 ⟨rfl, hne⟩]
    refine ⟨.exchange, fun out τ hleads => ?_⟩
    cases hleads with
    | @exchange _ _ _ _ access refresh haccess hrefresh hnew =>
      show Discipline.Tracks _ ((match present (some access) with
        | none => pure none
        | some accessToken =>
          match present (some refresh) with
          | none => pure (some accessToken)
          | some rotated =>
            if rotated = token then pure (some accessToken)
            else do
              Prog.perform (.store rotated : Access)
              pure (some accessToken)) : Call (Option String)) _ _
      rw [present_eq_some.2 ⟨rfl, haccess⟩, present_eq_some.2 ⟨rfl, hrefresh⟩]
      dsimp only
      rw [if_neg hnew]
      refine ⟨.store, fun out τ hleads => ?_⟩
      cases hleads with
      | store => exact ⟨access, _, rfl, haccess, .inl List.mem_cons_self, rfl⟩
  · rintro e τ ⟨token, -, hout, -⟩
    cases hout

theorem tracks_accessToken (hcredentials : (clientCredentials D false).isSome) :
    (discipline D).Tracks (accessToken D false) (Obtained D) ⟨.atRest, l⟩ := by
  unfold accessToken
  split
  next direct hdirect => exact ⟨direct, l, rfl, (present_eq_some.1 hdirect).2, .inr hdirect, rfl⟩
  next hdirect => exact tracks_exchangeRefreshToken hcredentials hdirect

/-- What follows with the token that was obtained. -/
theorem tracks_withToken {α : Type} {f : Option String → Call α}
    {R : Except Failure α → Stance → Prop} (hcredentials : (clientCredentials D false).isSome)
    (hf : ∀ token l, token ≠ "" → Usable D l token →
      (discipline D).Tracks (f (some token)) R ⟨.atRest, l⟩) :
    (discipline D).Tracks ((accessToken D false).bind f) R ⟨.atRest, l⟩ := by
  refine (tracks_accessToken hcredentials).bind ?_ ?_
  · rintro token τ ⟨token, l, htoken, hne, husable, rfl⟩
    obtain rfl := Except.ok.inj htoken
    exact hf token l hne husable
  · rintro e τ ⟨token, l, hout, -⟩
    cases hout

theorem tracks_liveMode (hcredentials : (clientCredentials D false).isSome) :
    (discipline D).Tracks (liveMode D false)
      (fun out τ => out = .ok true ∧ ∃ l, τ = ⟨.atRest, l⟩) ⟨.atRest, l⟩ := by
  unfold liveMode
  split
  next hnone =>
    rw [hnone] at hcredentials
    cases hcredentials
  next =>
    refine tracks_withToken hcredentials fun token l hne _ => ⟨?_, l, rfl⟩
    rw [present_eq_some.2 ⟨rfl, hne⟩]
    rfl

variable {method path : String} {jsonBody : Option Json}

theorem tracks_apiRequest (htoken : Usable D l token) :
    (discipline D).Tracks (apiRequest D false method path jsonBody (some token))
      (fun _ τ => τ = ⟨.atRest, l⟩) ⟨.atRest, l⟩ := by
  refine Discipline.Tracks.perform (.api htoken rfl) fun out τ hleads => ?_
  cases hleads with
  | api => rfl

/-- Without a token, one more is asked for. -/
theorem tracks_apiRequest_none (hcredentials : (clientCredentials D false).isSome) :
    (discipline D).Tracks (apiRequest D false method path jsonBody none)
      (fun _ τ => ∃ l, τ = ⟨.atRest, l⟩) ⟨.atRest, l⟩ :=
  tracks_withToken hcredentials fun _ l _ husable =>
    (tracks_apiRequest husable).mono fun _ _ hτ => ⟨l, hτ⟩

/-- A request whose failure is caught. -/
theorem tracks_attempted (htoken : Usable D l token) :
    (discipline D).Tracks (((do
        let payload ← apiRequest D false method path jsonBody (some token)
        pure (some payload)) : Call (Option Json)).tryCatch fun _ => pure none)
      (fun out τ => (∃ payload, out = .ok payload) ∧ τ = ⟨.atRest, l⟩) ⟨.atRest, l⟩ := by
  have hpayload : (discipline D).Tracks ((do
      let payload ← apiRequest D false method path jsonBody (some token)
      pure (some payload)) : Call (Option Json)) (fun _ τ => τ = ⟨.atRest, l⟩) ⟨.atRest, l⟩ :=
    (tracks_apiRequest htoken).bind (fun _ _ hτ => hτ) fun _ _ hτ => hτ
  exact hpayload.tryCatch (fun payload _ hτ => ⟨⟨payload, rfl⟩, hτ⟩) fun _ _ hτ => ⟨⟨none, rfl⟩, hτ⟩

theorem tracks_raising {α : Type} (x : Except Failure α) :
    (discipline D).Tracks (raising x) (fun _ τ => τ = ⟨.atRest, l⟩) ⟨.atRest, l⟩ := by
  cases x with
  | ok a => rfl
  | error e => rfl

theorem tracks_datasetFields (htoken : Usable D l token) (templateId : Json) :
    (discipline D).Tracks (datasetFields D false templateId (some token))
      (fun _ τ => τ = ⟨.atRest, l⟩) ⟨.atRest, l⟩ := by
  refine (tracks_attempted htoken).bind ?_ fun _ _ h => h.2
  rintro payload τ ⟨-, rfl⟩
  cases payload with
  | none => rfl
  | some payload =>
    refine (tracks_raising _).bind ?_ fun _ _ h => h
    rintro dataset τ rfl
    split
    · rfl
    · rfl

theorem tracks_poll (htoken : Usable D l token) (jobId : Json) (attempts : Nat) (latest : Json) :
    (discipline D).Tracks (poll D false jobId (some token) attempts latest)
      (fun _ τ => τ = ⟨.atRest, l⟩) ⟨.atRest, l⟩ := by
  induction attempts generalizing latest with
  | zero => rfl
  | succ attempts ih =>
    refine (tracks_raising _).bind ?_ fun _ _ h => h
    rintro status τ rfl
    split
    · rfl
    · refine (tracks_attempted htoken).bind ?_ fun _ _ h => h.2
      rintro next τ ⟨-, rfl⟩
      cases next with
      | none => rfl
      | some next => exact ih next

theorem tracks_submitAutofill (htoken : Usable D l token) (templateId : Json)
    (data : List (String × Json)) :
    (discipline D).Tracks (submitAutofill D false templateId data (some token))
      (fun _ τ => τ = ⟨.atRest, l⟩) ⟨.atRest, l⟩ := by
  refine (tracks_apiRequest htoken).bind ?_ fun _ _ h => h
  rintro submitted τ rfl
  refine (tracks_raising _).bind ?_ fun _ _ h => h
  rintro jobId τ rfl
  split
  · rfl
  · exact tracks_poll htoken jobId 6 submitted

theorem tracks_submitRows (htoken : Usable D l token) (templateId : Json)
    (fields : List (String × String)) (rows : List Json) (done : List Json × List String) :
    (discipline D).Tracks (submitRows D false templateId fields (some token) rows done)
      (fun _ τ => τ = ⟨.atRest, l⟩) ⟨.atRest, l⟩ := by
  induction rows generalizing done with
  | nil => rfl
  | cons row rows ih =>
    cases row with
    | obj row =>
      refine (tracks_submitAutofill htoken templateId _).bind ?_ fun _ _ h => h
      rintro job τ rfl
      exact ih _
    | null => exact ih done
    | bool b => exact ih done
    | int n => exact ih done
    | float r => exact ih done
    | str s => exact ih done
    | arr xs => exact ih done

/-! ## The tools -/

/-- A request that asks for fixtures gets them, and the token is not touched. -/
theorem liveMode_forced : liveMode D true = pure false := rfl

/-- What follows the gate: a call that did not ask for fixtures is live. -/
theorem tracks_gate (hcredentials : (clientCredentials D false).isSome) (call : ToolCall)
    {fixture : List (String × Json)} {rest : Call (List (String × Json))}
    (hrest : call.forced = false → ∀ l, (discipline D).Tracks rest (Ends call) ⟨.atRest, l⟩) :
    (discipline D).Tracks (do
        if (← liveMode D call.forced) = false then pure fixture else rest)
      (Ends call) ⟨.atRest, l⟩ := by
  cases hforced : call.forced with
  | true =>
    rw [liveMode_forced]
    refine ⟨rfl, fun result _ hlive => ?_⟩
    rw [hforced] at hlive
    cases hlive
  | false =>
    refine (tracks_liveMode hcredentials).bind ?_ ?_
    · rintro live τ ⟨hlive, l, rfl⟩
      obtain rfl := Except.ok.inj hlive
      exact hrest hforced l
    · rintro e τ ⟨hout, -⟩
      cases hout

theorem ends_error {call : ToolCall} {e : Failure} : Ends call (.error e) ⟨.atRest, l⟩ :=
  ⟨rfl, nofun⟩

theorem ends_live {call : ToolCall} {rest : List (String × Json)} :
    Ends call (.ok (("source", .str "live") :: rest)) ⟨.atRest, l⟩ :=
  ⟨rfl, fun _ h _ => by rw [← Except.ok.inj h]; rfl⟩

/-- The token stays at rest, and a failure of the first part is one of the whole. -/
theorem tracks_onward {α : Type} {call : ToolCall} {p : Call α}
    {f : α → Call (List (String × Json))}
    (h : (discipline D).Tracks p (fun _ τ => τ = ⟨.atRest, l⟩) ⟨.atRest, l⟩)
    (hf : ∀ a, (discipline D).Tracks (f a) (Ends call) ⟨.atRest, l⟩) :
    (discipline D).Tracks (p.bind f) (Ends call) ⟨.atRest, l⟩ := by
  refine h.bind ?_ ?_
  · rintro a τ rfl
    exact hf a
  · rintro e τ rfl
    exact ends_error

variable (arguments : List (String × Json)) (forced : Bool)

theorem tracks_createDesignFromTemplate (hcredentials : (clientCredentials D false).isSome) :
    (discipline D).Tracks (createDesignFromTemplate D forced arguments)
      (Ends ⟨.createDesignFromTemplate, arguments, forced⟩) ⟨.atRest, l⟩ := by
  unfold createDesignFromTemplate
  dsimp only
  split
  · exact ends_error
  · refine tracks_gate hcredentials ⟨.createDesignFromTemplate, arguments, forced⟩ ?_
    rintro rfl l
    refine tracks_withToken hcredentials fun token l _ husable => ?_
    refine tracks_onward (tracks_datasetFields husable _) fun fields => ?_
    exact tracks_onward (tracks_submitAutofill husable _ _) fun result => ends_live

theorem tracks_bulkCreateFromCsv (hcredentials : (clientCredentials D false).isSome) :
    (discipline D).Tracks (bulkCreateFromCsv D forced arguments)
      (Ends ⟨.bulkCreateFromCsv, arguments, forced⟩) ⟨.atRest, l⟩ := by
  unfold bulkCreateFromCsv
  dsimp only
  split
  · exact ends_error
  · refine tracks_gate hcredentials ⟨.bulkCreateFromCsv, arguments, forced⟩ ?_
    rintro rfl l
    refine tracks_withToken hcredentials fun token l _ husable => ?_
    refine tracks_onward (tracks_datasetFields husable _) fun fields => ?_
    split
    · exact ends_error
    · refine tracks_onward (tracks_raising _) fun rows => ?_
      exact tracks_onward (tracks_submitRows husable _ fields rows _) fun done => ends_live

theorem tracks_exportDesign (hcredentials : (clientCredentials D false).isSome) :
    (discipline D).Tracks (exportDesign D forced arguments)
      (Ends ⟨.exportDesign, arguments, forced⟩) ⟨.atRest, l⟩ := by
  unfold exportDesign
  dsimp only
  split
  · exact ends_error
  · refine tracks_gate hcredentials ⟨.exportDesign, arguments, forced⟩ ?_
    rintro rfl l
    refine (tracks_apiRequest_none hcredentials).bind ?_ ?_
    · rintro data τ ⟨l, rfl⟩
      exact ends_live
    · rintro e τ ⟨l, rfl⟩
      exact ends_error

/-- Every tool keeps to the discipline. -/
theorem tracks_dispatch (hcredentials : (clientCredentials D false).isSome) (call : ToolCall) :
    (discipline D).Tracks (dispatch D call) (Ends call) ⟨.atRest, []⟩ := by
  obtain ⟨tool, arguments, forced⟩ := call
  cases tool with
  | createDesignFromTemplate => exact tracks_createDesignFromTemplate arguments forced hcredentials
  | bulkCreateFromCsv => exact tracks_bulkCreateFromCsv arguments forced hcredentials
  | exportDesign => exact tracks_exportDesign arguments forced hcredentials

end Calls

/-! ## Every run -/

/-- What a stance says of the process and of Canva. -/
def Fits (s : State) : Custody → Prop
  | .atRest => True
  | .rereading => s.rotated ≠ none
  | .holding token => s.issued.head? = some token
  | .minted token => s.issued.head? = some token ∧ token ≠ ""

/-- At most one call is busy with the token.  Where none is, the process has the newest one. -/
structure Custodied {ι : Type} (D : Deployment) (s : State) (σ : ι → Stance) : Prop where
  rotated : s.rotated ≠ some ""
  fits : ∀ i, Fits s (σ i).custody
  granted : ∀ i, ∀ token ∈ (σ i).tokens, token ∈ s.granted
  alone : ∀ i j, (σ i).custody.Busy → (σ j).custody.Busy → i = j
  calm : present D.accessToken = none → (∀ i, ¬(σ i).custody.Busy) →
    ∃ token, current D s = some token ∧ s.issued.head? = some token

section Custodied

variable {ι : Type} [DecidableEq ι] {D : Deployment} {s s' : State} {σ : ι → Stance} {i : ι}
  {τ : Stance}

/-- One call goes on while no other is busy. -/
theorem Custodied.step (h : Custodied D s σ) (hothers : ∀ j, j ≠ i → ¬(σ j).custody.Busy)
    (hgranted : ∀ token ∈ s.granted, token ∈ s'.granted)
    (hsome : s.rotated ≠ none → s'.rotated ≠ none) (hrotated : s'.rotated ≠ some "")
    (hfits : Fits s' τ.custody) (htokens : ∀ token ∈ τ.tokens, token ∈ s'.granted)
    (hcalm : ¬τ.custody.Busy → present D.accessToken = none →
      ∃ token, current D s' = some token ∧ s'.issued.head? = some token) :
    Custodied D s' (Function.update σ i τ) := by
  have hbusy : ∀ j, (Function.update σ i τ j).custody.Busy → j = i := by
    intro j hj
    by_contra hne
    rw [Function.update_of_ne hne] at hj
    exact hothers j hne hj
  refine ⟨hrotated, fun j => ?_, fun j => ?_, ?_, ?_⟩
  · by_cases hji : j = i
    · rw [hji, Function.update_self]
      exact hfits
    · rw [Function.update_of_ne hji]
      have hj := h.fits j
      have hrest := hothers j hji
      revert hj hrest
      cases (σ j).custody with
      | atRest => exact fun _ _ => trivial
      | rereading => exact fun hj _ => hsome hj
      | holding token => exact fun _ hrest => absurd trivial hrest
      | minted token => exact fun _ hrest => absurd trivial hrest
  · by_cases hji : j = i
    · rw [hji, Function.update_self]
      exact htokens
    · rw [Function.update_of_ne hji]
      exact fun token hin => hgranted token (h.granted j token hin)
  · intro j k hj hk
    rw [hbusy j hj, hbusy k hk]
  · intro hdirect hnone
    refine hcalm ?_ hdirect
    have hi := hnone i
    rwa [Function.update_self] at hi

/-- A call that is not busy goes away. -/
theorem Custodied.leave (h : Custodied D s σ) (hi : ¬(σ i).custody.Busy) :
    Custodied D s (Function.update σ i ⟨.atRest, []⟩) := by
  have hbusy : ∀ j, (Function.update σ i ⟨.atRest, []⟩ j).custody.Busy ↔ (σ j).custody.Busy := by
    intro j
    by_cases hji : j = i
    · rw [hji, Function.update_self]
      exact ⟨False.elim, hi⟩
    · rw [Function.update_of_ne hji]
  refine ⟨h.rotated, fun j => ?_, fun j => ?_, ?_, ?_⟩
  · by_cases hji : j = i
    · rw [hji, Function.update_self]
      trivial
    · rw [Function.update_of_ne hji]
      exact h.fits j
  · by_cases hji : j = i
    · rw [hji, Function.update_self]
      exact nofun
    · rw [Function.update_of_ne hji]
      exact h.granted j
  · intro j k hj hk
    exact h.alone j k ((hbusy j).1 hj) ((hbusy k).1 hk)
  · intro hdirect hnone
    exact h.calm hdirect fun j hj => hnone j ((hbusy j).2 hj)

/-- The token of the process, once one was stored. -/
theorem current_of_rotated {token : String} (h : s.rotated = some token) (hne : token ≠ "") :
    current D s = some token := by
  unfold current
  rw [present_eq_some.2 ⟨h, hne⟩]

theorem current_of_none (h : s.rotated = none) : current D s = present D.refreshToken := by
  unfold current
  rw [h]
  rfl

omit [DecidableEq ι] in
/-- A call that is busy is pending, since its next step is the exchange or the storing. -/
theorem pending_of_busy {c : Standing ι}
    (h : Sys.Tracked (discipline D) Ends ⟨.atRest, []⟩ c σ) (hi : (σ i).custody.Busy) :
    Pending c i := by
  by_cases hrunning : ∃ r p, c.thread i = some (r, some p)
  · obtain ⟨r, p, hp⟩ := hrunning
    have htracks := h.running i r p hp
    unfold Pending Config.next
    rw [hp]
    cases p with
    | pure a =>
      rw [htracks.1] at hi
      exact hi.elim
    | throw e =>
      rw [htracks.1] at hi
      exact hi.elim
    | op o k =>
      obtain ⟨hmay, -⟩ := htracks
      revert hmay hi
      generalize σ i = τ
      intro hi hmay
      cases hmay with
      | read => exact hi.elim
      | reread => exact hi.elim
      | exchange => rfl
      | store => rfl
      | api => exact hi.elim
  · have hquiet : σ i = ⟨.atRest, []⟩ := h.quiet i fun r p hp => hrunning ⟨r, p, hp⟩
    rw [hquiet] at hi
    exact hi.elim

/-- The custody of the token, and what was recorded. -/
structure Sound (D : Deployment) (h : History Access Access.Res State ι ToolCall)
    (σ : ι → Stance) : Prop where
  custodied : Custodied D h.cur σ
  presented : ∀ e ∈ h.log, ∀ token clientId clientSecret,
    e.op = .exchange token clientId clientSecret → e.pre.issued.head? = some token
  authorized : ∀ e ∈ h.log, ∀ request, e.op = .api request →
    ∃ token, request.authorization = "Bearer " ++ token ∧
      (token ∈ e.pre.granted ∨ present D.accessToken = some token)

variable {h : History Access Access.Res State ι ToolCall}

/-- One access is recorded. -/
theorem Sound.after {o : Access} {b : o.Res} (hsound : Sound D h σ)
    (hcustodied : Custodied D s' (Function.update σ i τ))
    (hpresented : ∀ token clientId clientSecret, o = .exchange token clientId clientSecret →
      h.cur.issued.head? = some token)
    (hauthorized : ∀ request, o = .api request → ∃ token,
      request.authorization = "Bearer " ++ token ∧
        (token ∈ h.cur.granted ∨ present D.accessToken = some token)) :
    Sound D (h.after i o b s') (Function.update σ i τ) := by
  refine ⟨hcustodied, fun e he => ?_, fun e he => ?_⟩
  · rcases List.mem_cons.1 he with rfl | he
    · exact hpresented
    · exact hsound.presented e he
  · rcases List.mem_cons.1 he with rfl | he
    · exact hauthorized
    · exact hsound.authorized e he

/-- The answer of an access arrives. -/
theorem answered_apply {o : Access} {r : Reply Failure o.Res} {out : Except Failure o.Res}
    {h' : History Access Access.Res State ι ToolCall} (hanswers : r.answers = true)
    (hs : r.apply ((canvaSystem D ι).run i o) h = some (out, h')) :
    ∃ a b t, runAccess o a h.cur = some (b, t) ∧ out = .ok b ∧ h' = h.after i o b t := by
  cases r with
  | ok a =>
    obtain ⟨⟨b, h''⟩, hrun, heq⟩ := Option.map_eq_some_iff.1 hs
    obtain ⟨rfl, rfl⟩ := Prod.mk.inj heq
    obtain ⟨t, hx, rfl⟩ := recorded_run hrun
    exact ⟨a, b, t, hx, rfl, rfl⟩
  | failed e => cases hanswers
  | lost a e => cases hanswers

/-- An answered exchange of the newest token. -/
theorem runAccess_exchange {token clientId clientSecret : String} {a b : Payload}
    (hnewest : s.issued.head? = some token)
    (hrun : runAccess (.exchange token clientId clientSecret) a s = some (b, s')) :
    ∃ access refresh, access ≠ "" ∧ refresh ≠ "" ∧ refresh ≠ token ∧
      b = ⟨some access, some refresh⟩ ∧
      s' = { s with issued := refresh :: s.issued, granted := access :: s.granted } := by
  rw [runAccess, if_pos hnewest] at hrun
  split at hrun
  next access refresh haccess hrefresh =>
    split at hrun
    next => cases hrun
    next hnew =>
      obtain ⟨rfl, rfl⟩ := Prod.mk.inj (Option.some.inj hrun)
      obtain ⟨haccess, hne⟩ := present_eq_some.1 haccess
      obtain ⟨hrefresh, hne'⟩ := present_eq_some.1 hrefresh
      refine ⟨access, refresh, hne, hne', ?_, ?_, rfl⟩
      · rintro rfl
        exact hnew (List.mem_of_mem_head? hnewest)
      · rw [← haccess, ← hrefresh]
  next => cases hrun

/-- One step of a call. -/
theorem Sound.step {c : Standing ι} {f : ∀ o : Access, Reply Failure o.Res} {r : ToolCall}
    {o : Access} {k : Except Failure o.Res → Call (List (String × Json))}
    {out : Except Failure o.Res} {h' : History Access Access.Res State ι ToolCall}
    (hsound : Sound D c.shared σ) (hturn : InTurn c (.step i f))
    (htracked : Sys.Tracked (discipline D) Ends ⟨.atRest, []⟩ c σ)
    (hi : c.thread i = some (r, some (.op o k))) (hmay : May D (σ i) o)
    (hs : (f o).apply ((canvaSystem D ι).run i o) c.shared = some (out, h')) :
    ∃ τ, Leads D (σ i) o out τ ∧ Sound D h' (Function.update σ i τ) := by
  have hcustodied := hsound.custodied
  have hfits := hcustodied.fits i
  have hgranted := hcustodied.granted i
  have hnext : c.next i = some o := by
    unfold Config.next
    rw [hi]
  have hanswered := hturn.answered i f o rfl hnext
  -- where the call is busy, no other is
  have hothers : (σ i).custody.Busy → ∀ j, j ≠ i → ¬(σ j).custody.Busy :=
    fun hbusy j hji hj => hji (hcustodied.alone j i hj hbusy)
  -- where it reads, none is busy at all
  have hnone : o = .rotated → ¬(σ i).custody.Busy → ∀ j, ¬(σ j).custody.Busy := by
    rintro rfl hrest j hj
    by_cases hji : j = i
    · exact hrest (hji ▸ hj)
    · exact hturn.alone i f rfl hnext j hji (pending_of_busy htracked hj)
  generalize hτ : σ i = τ at hmay hfits hgranted hothers hnone ⊢
  cases hmay with
  | @read l hdirect =>
    obtain ⟨a, b, t, hrun, rfl, rfl⟩ := answered_apply (hanswered nofun) hs
    obtain ⟨rfl, rfl⟩ := Prod.mk.inj (Option.some.inj hrun)
    have hcalm := hnone rfl id
    obtain ⟨token, hcurrent, hnewest⟩ := hcustodied.calm hdirect hcalm
    cases hrotated : c.shared.cur.rotated with
    | none =>
      rw [current_of_none hrotated] at hcurrent
      refine ⟨_, .stored hcurrent, hsound.after ?_ nofun nofun⟩
      exact hcustodied.step (fun j _ => hcalm j) (fun _ h => h) id hcustodied.rotated hnewest
        hgranted fun h => absurd trivial h
    | some rotated =>
      have hne : rotated ≠ "" := by
        rintro rfl
        exact hcustodied.rotated hrotated
      refine ⟨_, .read hne, hsound.after ?_ nofun nofun⟩
      exact hcustodied.step (fun j _ => hcalm j) (fun _ h => h) id hcustodied.rotated
        (by rw [Fits, hrotated]; exact nofun) hgranted fun _ _ => ⟨token, hcurrent, hnewest⟩
  | @reread l hdirect =>
    obtain ⟨a, b, t, hrun, rfl, rfl⟩ := answered_apply (hanswered nofun) hs
    obtain ⟨rfl, rfl⟩ := Prod.mk.inj (Option.some.inj hrun)
    have hcalm := hnone rfl id
    obtain ⟨token, hcurrent, hnewest⟩ := hcustodied.calm hdirect hcalm
    obtain ⟨rotated, hrotated⟩ := Option.ne_none_iff_exists'.1 hfits
    have hne : rotated ≠ "" := by
      rintro rfl
      exact hcustodied.rotated hrotated
    rw [current_of_rotated hrotated hne] at hcurrent
    obtain rfl := Option.some.inj hcurrent
    rw [hrotated]
    refine ⟨_, .reread hne, hsound.after ?_ nofun nofun⟩
    exact hcustodied.step (fun j _ => hcalm j) (fun _ h => h) id hcustodied.rotated hnewest
      hgranted fun h => absurd trivial h
  | @exchange l token clientId clientSecret =>
    obtain ⟨a, b, t, hrun, rfl, rfl⟩ := answered_apply (hanswered nofun) hs
    obtain ⟨access, refresh, haccess, hrefresh, hnew, rfl, rfl⟩ := runAccess_exchange hfits hrun
    refine ⟨_, .exchange haccess hrefresh hnew, hsound.after ?_ ?_ nofun⟩
    · refine hcustodied.step (hothers trivial) (fun _ h => List.mem_cons_of_mem _ h) id
        hcustodied.rotated ⟨rfl, hrefresh⟩ ?_ fun h => absurd trivial h
      intro token hin
      rcases List.mem_cons.1 hin with rfl | hin
      · exact List.mem_cons_self
      · exact List.mem_cons_of_mem _ (hgranted token hin)
    · intro token' _ _ heq
      obtain ⟨rfl, -, -⟩ := Access.exchange.inj heq
      exact hfits
  | @store l token =>
    obtain ⟨a, b, t, hrun, rfl, rfl⟩ := answered_apply (hanswered nofun) hs
    obtain ⟨rfl, rfl⟩ := Prod.mk.inj (Option.some.inj hrun)
    refine ⟨_, .store, hsound.after ?_ nofun nofun⟩
    refine hcustodied.step (hothers trivial) (fun _ h => h) (fun _ => nofun) ?_ trivial hgranted ?_
    · exact fun h => hfits.2 (Option.some.inj h)
    · exact fun _ _ => ⟨token, current_of_rotated rfl hfits.2, hfits.1⟩
  | @api l request token husable hbearer =>
    refine ⟨_, .api, ?_⟩
    rw [← hτ, Function.update_eq_self]
    rcases recorded_apply hs with ⟨-, rfl⟩ | ⟨a, b, t, -, hrun, rfl⟩
    · exact hsound
    · obtain ⟨rfl, rfl⟩ := Prod.mk.inj (Option.some.inj hrun)
      rw [← Function.update_eq_self i σ]
      refine hsound.after (by rw [Function.update_eq_self]; exact hcustodied) nofun ?_
      intro request' heq
      obtain rfl := Access.api.inj heq
      exact ⟨token, hbearer, husable.imp_left (hgranted token)⟩

/-- While no call reads the token before another one has stored its successor, every exchange
    presents the newest token, and no call falls back. -/
theorem rotation_safe {s₀ : State} {c : Standing ι} (hheld : Held D s₀)
    (hr : (canvaSystem D ι).Reach InTurn (.idle ⟨s₀, [], []⟩) c) : Safe D c := by
  have h₀ : Sound D (⟨s₀, [], []⟩ : History Access Access.Res State ι ToolCall)
      fun _ => ⟨.atRest, []⟩ := by
    refine ⟨⟨hheld.rotated, fun _ => trivial, fun _ => nofun, fun _ _ h => h.elim, ?_⟩, nofun,
      nofun⟩
    intro hdirect _
    obtain ⟨hcurrent, hnewest⟩ := hheld.token hdirect
    obtain ⟨token, htoken⟩ := Option.ne_none_iff_exists'.1 hcurrent
    exact ⟨token, htoken, hnewest.trans htoken⟩
  obtain ⟨σ, hsound, htracked⟩ := hr.tracked (I := Sound D) (tracks_dispatch hheld.credentials) h₀
    (fun c σ i r s _ hsound hs => by
      obtain ⟨-, rfl⟩ := recorded_enter hs
      exact ⟨hsound.custodied, hsound.presented, hsound.authorized⟩)
    (fun c σ i f r o k out s hturn htracked hsound hi hmay hs =>
      hsound.step hturn htracked hi hmay hs)
    (fun c σ i r p hturn htracked hsound _ =>
      ⟨hsound.custodied.leave fun hbusy =>
        hturn.survives i rfl (pending_of_busy htracked hbusy), hsound.presented,
        hsound.authorized⟩)
    (fun c σ e s _ hsound hs => by
      obtain ⟨t, ht, rfl⟩ := recorded_env hs
      obtain rfl := Option.some.inj ht
      exact hsound)
  refine ⟨hsound.presented, hsound.authorized, fun i call result hresult => ?_⟩
  exact (htracked.running i call _ (Config.thread_of_result_ok hresult)).2 result rfl

end Custodied

/-! ### Two calls -/

/-- What is stored for the process, which has no access token of its own. -/
def stored : Deployment where
  clientId := some "id"
  clientSecret := some "secret"
  refreshToken := some "first"
  accessToken := none
  fixture _ := []

def issuedOnce : State := ⟨none, ["first"], []⟩

def exportCall : ToolCall := ⟨.exportDesign, [("design_id", .str "D1")], false⟩

/-- Every access is answered, the exchange with these tokens. -/
def minting (access refresh : String) (o : Access) : Reply Failure o.Res :=
  match o with
  | .rotated => .ok none
  | .exchange _ _ _ => .ok ⟨some access, some refresh⟩
  | .store _ => .ok ()
  | .api _ => .ok (.obj [])

theorem minting_answers (access refresh : String) (o : Access) :
    (minting access refresh o).answers = true := by
  cases o with
  | rotated => rfl
  | exchange => rfl
  | store => rfl
  | api => rfl

abbrev CanvaAct := Act Access Access.Res Failure Bool ToolCall Unit

/-- Where a run has come to. -/
def afterActs (acts : List CanvaAct) : Standing Bool :=
  acts.foldl (canvaSystem stored Bool).exec (.idle ⟨issuedOnce, [], []⟩)

/-- The first call has stored its token when the second one reads it. -/
def oneByOne : List CanvaAct :=
  [.enter false exportCall, .enter true exportCall,
    .step false (minting "a" "second"), .step false (minting "a" "second"),
    .step false (minting "a" "second"), .step true (minting "b" "third"),
    .step true (minting "b" "third"), .step true (minting "b" "third"),
    .step true (minting "b" "third")]

/-- The call that goes on. -/
def goesOn : CanvaAct → Option Bool
  | .step i _ => some i
  | _ => none

/-- No call dies, and every access is answered. -/
def Answering : CanvaAct → Prop
  | .step _ f => ∀ o, (f o).answers = true
  | .crash _ => False
  | _ => True

theorem oneByOne_inTurn : (canvaSystem stored Bool).Reach InTurn
    (.idle ⟨issuedOnce, [], []⟩) (afterActs oneByOne) := by
  -- a call that is pending is the one that goes on
  have hpending : ∀ n : Fin oneByOne.length, ∀ j, Pending (afterActs (oneByOne.take n)) j →
      n.val < 5 ∧ j = false ∨ 5 ≤ n.val ∧ j = true := by
    unfold Pending
    decide +kernel
  have hgoes : ∀ n : Fin oneByOne.length, ∀ i, goesOn oneByOne[n] = some i →
      n.val < 5 ∧ i = false ∨ 5 ≤ n.val ∧ i = true := by
    decide +kernel
  have hanswering : ∀ a ∈ oneByOne, Answering a := by
    simp [oneByOne, Answering, minting_answers]
  refine .foldl oneByOne .init fun n => ⟨?_, ?_, ?_⟩
  · intro i f ha _ j hji hj
    rcases hgoes n i (by rw [ha]; rfl) with ⟨hn, rfl⟩ | ⟨hn, rfl⟩
    · rcases hpending n j hj with ⟨-, rfl⟩ | ⟨hn', -⟩
      · exact hji rfl
      · omega
    · rcases hpending n j hj with ⟨hn', -⟩ | ⟨-, rfl⟩
      · omega
      · exact hji rfl
  · intro i f o ha _ _
    have hin := hanswering _ (List.getElem_mem n.isLt)
    change Answering oneByOne[n] at hin
    rw [ha] at hin
    exact hin o
  · intro i ha
    have hin := hanswering _ (List.getElem_mem n.isLt)
    change Answering oneByOne[n] at hin
    rw [ha] at hin
    exact hin.elim

theorem held_stored : Held stored issuedOnce :=
  ⟨by decide, by decide, fun _ => ⟨by decide, by decide⟩⟩

theorem oneByOne_safe : (canvaSystem stored Bool).Reach InTurn (.idle ⟨issuedOnce, [], []⟩)
    (afterActs oneByOne) ∧ Safe stored (afterActs oneByOne) :=
  ⟨oneByOne_inTurn, rotation_safe held_stored oneByOne_inTurn⟩

/-- Both calls read the token before the first one has exchanged it. -/
def both : List CanvaAct :=
  [.enter false exportCall, .enter true exportCall,
    .step false (minting "a" "second"), .step true (minting "a" "second"),
    .step false (minting "a" "second"), .step true (minting "b" "third")]

/-- The second one presents a token that Canva has retired, and falls back. -/
theorem both_falls_back : ¬∀ (D : Deployment) (s₀ : State) (c : Standing Bool), Held D s₀ →
    (canvaSystem D Bool).Reach Sys.free (.idle ⟨s₀, [], []⟩) c → Safe D c := by
  intro hall
  have hsafe := hall stored issuedOnce (afterActs both) held_stored (.foldl_free both .init)
  have hresult : (afterActs both).result true =
      some (exportCall, .ok [("source", .str "fixture")]) := by
    rfl
  have hlive := hsafe.live true exportCall _ hresult rfl
  revert hlive
  decide

end CanvasOS.Mcp.Canva
