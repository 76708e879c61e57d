/-
  The tool servers: the JSON-RPC endpoint (`mcp_common`), mcp-web, mcp-buffer and mcp-canva.

  1. `McpCall` — what a request makes a server ask of the web, of Buffer, of Canva, of Key Vault, of
     the rate limiter and of the table of tool calls.
  2. `handle` — the endpoint, over the tools and the dispatch function of a server.
  3. `webDispatch`, `tableDispatch` — the dispatch functions and the tools behind them.
  4. `web_gets_are_contained` — a request makes mcp-web fetch nothing but what its tool's own
     allow-list admits, live, within the rate.
  5. `tool_calls_are_accounted` — every request is answered under its id, and a call of a tool has
     one row in the table, which says how it ended.
  6. `buffer_posts_are_drafts` — a request makes mcp-buffer send one of three fixed documents, and
     the one that creates a post creates a draft.

  The environment does not change while a server runs.  The latency of a call is left out.
-/
import CanvasOS.Gatekeeper.Policy
import CanvasOS.Ingest.Evidence
import CanvasOS.Lib.Assure
import CanvasOS.Lib.JsonText
import CanvasOS.Lib.Serialize
import CanvasOS.Mcp.CanvaTokens
import CanvasOS.Signals.Permissions

namespace CanvasOS.Mcp

open Interleave Python
open Gatekeeper (typeName)
open Ingest (ScanTools cleanMarkupText findElements searchElement subAll scriptAt upTo)
open Review (Object)

/-! ## The calls -/

/-- `mcp_ops.tool_call_outcome` -/
inductive ToolCallOutcome where
  | success
  | error
  | rejected
  | rateLimited
deriving DecidableEq

/-- A row of `mcp_ops.tool_calls`. -/
structure ToolCallRow where
  serverName : String
  toolName : String
  callerIdentity : String
  argumentsHash : String
  outcome : ToolCallOutcome
deriving DecidableEq

/-- What a page answers, as far as the tools read it. -/
structure WebResponse where
  statusCode : Int
  text : String
  url : String
  contentType : String

inductive McpCall where
  /-- the secret of this name in Key Vault -/
  | getSecret (vaultSecretName : String)
  /-- `_rate_limiter.check()` -/
  | checkLimiter
  | loadFixture (name : String)
  | httpGet (url : Json)
  /-- `POST` to Buffer -/
  | graphql (query : String) (queryVariables : Object) (authorization : String)
  /-- what a tool of mcp-canva does -/
  | canva (access : Canva.Access)
  | logToolCall (row : ToolCallRow)
deriving DecidableEq

/-- What each call answers with. -/
@[reducible] def McpCall.Res : McpCall → Type
  | .getSecret _ => Option String
  | .checkLimiter | .logToolCall _ => Unit
  | .loadFixture _ => Object
  | .httpGet _ => WebResponse
  | .graphql .. => Json
  | .canva access => access.Res

/-- What is raised. -/
inductive McpExc where
  | rateLimitExceeded (message : String)
  | allowlistViolation (message : String)
  /-- any other exception -/
  | raised (message : String)
deriving DecidableEq

/-- `str(exc)` -/
def McpExc.text : McpExc → String
  | .rateLimitExceeded message | .allowlistViolation message | .raised message => message

abbrev McpM := Prog McpCall McpCall.Res McpExc

/-- The replies to a request. -/
abbrev McpReplies := Replies McpCall McpCall.Res McpExc

/-- One call, its exception propagated. -/
def call (c : McpCall) : McpM c.Res := Prog.perform c

def raising {α : Type} : Except McpExc α → McpM α
  | .ok a => pure a
  | .error e => throw e

/-- What a server reads of its process and of Python's library. -/
structure McpTools extends ScanTools where
  /-- `os.environ.get` -/
  environ : String → Option String
  /-- `hashlib.sha256(text.encode("utf-8")).hexdigest()` -/
  sha256 : String → String
  /-- `BUFFER_ORG_ID`, read when the module is imported -/
  bufferOrgId : String
  /-- the secrets and files of mcp-canva -/
  canva : Canva.Deployment
  /-- `str(exc)` of what a tool of mcp-canva raises, where it says no more -/
  canvaText : Canva.Failure → String

variable (T : McpTools)

/-! ## `mcp_common` -/

/-- `value.strip().lower() in ("1", "true", "yes", "on")` -/
def isOn (value : String) : Bool :=
  String.ofList (T.unicode.lower (strip value.toList)) ∈ ["1", "true", "yes", "on"]

/-- `flag_enabled`, under `force_fixture_mode(forced)`. -/
def flagEnabled (forced : Bool) (name : String) : Bool :=
  !forced && isOn T ((T.environ name).getD "")

/-- `resolve_secret`, under `force_fixture_mode(forced)`; an empty value is none. -/
def resolveSecret (forced : Bool) (name vaultSecretName : String) : McpM (Option String) :=
  if forced then pure none
  else match (T.environ name).filter (· ≠ "") with
    | some value => pure (some value)
    | none =>
      if vaultSecretName = "" ∨ (T.environ "KEY_VAULT_URI").getD "" = "" then pure none
      else tryCatch (call (.getSecret vaultSecretName)) fun _ => pure none

/-- `hash_arguments` -/
def hashArguments (arguments : Json) : String := T.sha256 (dumpsSorted arguments)

/-- The row of a call. -/
def toolCallRow (serverName toolName : String) (arguments : Json) (outcome : ToolCallOutcome) :
    ToolCallRow :=
  ⟨serverName, toolName, (T.environ "MCP_CALLER_IDENTITY").getD "unknown",
    hashArguments T arguments, outcome⟩

/-- `_log_best_effort` -/
def logBestEffort (serverName toolName : String) (arguments : Json) (outcome : ToolCallOutcome) :
    McpM Unit :=
  tryCatch (call (.logToolCall (toolCallRow T serverName toolName arguments outcome)))
    fun _ => pure ()

structure ToolDefinition where
  name : String
  description : String
  inputSchema : Object

/-- `model_dump()` -/
def ToolDefinition.json (tool : ToolDefinition) : Json :=
  .obj [("name", .str tool.name), ("description", .str tool.description),
    ("inputSchema", .obj tool.inputSchema)]

/-- `MCPServer`, its dispatch function apart. -/
structure MCPServer where
  name : String
  version : String
  tools : List ToolDefinition

structure JSONRPCRequest where
  id : Json
  method : String
  params : Object

structure JSONRPCResponse where
  id : Json
  result : Option Object
  error : Option Object

/-- `_handle_initialize` -/
def handleInitialize (S : MCPServer) : Object :=
  [("protocolVersion", .str "2024-11-05"),
    ("serverInfo", .obj [("name", .str S.name), ("version", .str S.version)]),
    ("capabilities", .obj [("tools", .obj [])])]

/-- `params.get("arguments") or {}` -/
def argumentsOf (params : Object) : Json :=
  if (Json.get params "arguments").truthy then Json.get params "arguments" else .obj []

/-- The tool that is called, if the server has it. -/
def knownTool (S : MCPServer) (params : Object) : Option String :=
  match Json.get params "name" with
  | .str name => if name ∈ S.tools.map ToolDefinition.name then some name else none
  | _ => none

/-- What a tool has returned, as the content of a message. -/
def toolResult (result : Object) : Object :=
  [("content", .arr [.obj [("type", .str "text"),
    ("text", .str (dumpsWith ", " ": " (.obj result)))]]),
    ("isError", .bool false), ("structuredContent", .obj result)]

/-- The tool that a request calls, if it calls one that the server has. -/
def calledTool (S : MCPServer) (request : JSONRPCRequest) : Option String :=
  if request.method = "tools/call" then knownTool S request.params else none

/-- `_handle_tools_call` -/
def handleToolsCall (S : MCPServer) (dispatch : String → Json → McpM Object) (params : Object) :
    McpM Object :=
  match knownTool S params with
  | none => throw (.raised (match Json.get params "name" with
    | .arr _ => "unhashable type: 'list'"
    | .obj _ => "unhashable type: 'dict'"
    | name => "unknown tool: " ++ pyStr name))
  | some name => do
    let result ← dispatch name (argumentsOf params)
    pure (toolResult result)

/-- The error object of a response. -/
def rpcError (code : Int) (message : String) : Object :=
  [("code", .int code), ("message", .str message)]

/-- `MCPServer.handle` -/
def handle (S : MCPServer) (dispatch : String → Json → McpM Object) (request : JSONRPCRequest) :
    McpM JSONRPCResponse :=
  tryCatch (
    if request.method = "initialize" then pure ⟨request.id, some (handleInitialize S), none⟩
    else if request.method = "tools/list" then
      pure ⟨request.id, some [("tools", .arr (S.tools.map ToolDefinition.json))], none⟩
    else if request.method = "tools/call" then do
      let result ← handleToolsCall S dispatch request.params
      pure ⟨request.id, some result, none⟩
    else pure ⟨request.id, none, some (rpcError (-32601) ("method not found: " ++ request.method))⟩)
    fun exc => pure ⟨request.id, none, some (rpcError (-32000) exc.text)⟩

/-- `POST /mcp`, with the value of the header that forces the fixtures. -/
def mcpEndpoint (S : MCPServer) (dispatch : Bool → String → Json → McpM Object) (header : String)
    (request : JSONRPCRequest) : McpM JSONRPCResponse :=
  handle S (dispatch (isOn T header)) request

/-! ## mcp-web -/

/-- What has a method `get`. -/
def asArguments : Json → Except McpExc Object
  | .obj kvs => .ok kvs
  | x => .error (.raised ("'" ++ typeName x ++ "' object has no attribute 'get'"))

/-- `{h.strip().lower() for h in raw.split(",") if h.strip()}` -/
def hostSet (raw : String) : List String :=
  ((raw.toList.splitOnP (· == ',')).map strip |>.filter (· ≠ [])).map fun host =>
    String.ofList (T.unicode.lower host)

/-- `_allowlist` and `_probe_allowlist` -/
def allowlist (variableName default : String) : List String :=
  hostSet T ((T.environ variableName).getD default)

/-- `(urlparse(url).hostname or "").lower()`; what is falsy is parsed as an empty text. -/
def hostOf : Json → Except McpExc String
  | .str url =>
    match T.hostname url with
    | some host => .ok (String.ofList (T.unicode.lower (host.getD "").toList))
    | none => .error (.raised "Invalid IPv6 URL")
  | x =>
    if x.truthy then
      .error (.raised ("'" ++ typeName x ++ "' object has no attribute 'decode'"))
    else .ok ""

/-- What `check_allowlist` and `check_probe_allowlist` differ in. -/
structure Gate where
  toolName : String
  variableName : String
  default : String
  refusal : String

def fetchGate : Gate where
  toolName := "fetch_url"
  variableName := "MCP_WEB_ALLOWLIST"
  default := "example.com,api.example.com"
  refusal := "host not allow-listed: "

/-- An empty list admits nothing. -/
def probeGate : Gate where
  toolName := "probe_url"
  variableName := "MCP_WEB_PROBE_ALLOWLIST"
  default := ""
  refusal := "host not probe-allow-listed: "

/-- `check_allowlist` and `check_probe_allowlist` -/
def checkGate (G : Gate) (url : Json) : Except McpExc Unit := do
  let host ← hostOf T url
  if host ∈ allowlist T G.variableName G.default then .ok ()
  else .error (.allowlistViolation (G.refusal ++ Python.reprStr host))

/-- `_max_body_chars` -/
def maxBodyChars : Except McpExc Int :=
  match T.environ "MCP_WEB_MAX_BODY_CHARS" with
  | none | some "" => .ok 16000
  | some raw => match Signals.parseInt raw.toList with
    | some n => .ok n
    | none => .error (.raised ("invalid literal for int() with base 10: " ++ Python.reprStr raw))

/-- The live answer of `fetch_url`. -/
def fetchResult (url : Json) (response : WebResponse) : Except McpExc Object := do
  let n ← maxBodyChars T
  pure [("source", .str "live"), ("url", url), ("status_code", .int response.statusCode),
    ("body", .str (String.ofList (upTo response.text.toList n)))]

/-- The fixture of `probe_url`. -/
def probeFixture (url : Json) : Object :=
  [("source", .str "fixture"), ("url", url), ("status_code", .int 200),
    ("content_type", .str "application/rss+xml"), ("is_feed", .bool true), ("item_count", .int 3),
    ("extractable_chars", .int 512),
    ("sample_titles", .arr [.str "SYNTHETIC-TEST-DATA probe sample title"]),
    ("byte_length", .int 1024)]

/-- The live answer of `probe_url`: the shape of the page, and five titles. -/
def probeResult (url : Json) (response : WebResponse) : Object :=
  let body := response.text.toList.take 200000
  let items := findElements T.toScanTools ["item", "entry"] 0 body
  let titles := ((items.take 5).filterMap (searchElement T.toScanTools ["title"])).map
    (cleanMarkupText T.toScanTools)
  let extractable := if items = [] then
      cleanMarkupText T.toScanTools (subAll (scriptAt T.toScanTools) 0 body)
    else join " " (items.map (cleanMarkupText T.toScanTools))
  [("source", .str "live"), ("url", url), ("final_url", .str response.url),
    ("status_code", .int response.statusCode), ("content_type", .str response.contentType),
    ("is_feed", .bool (items ≠ [])), ("item_count", .int items.length),
    ("extractable_chars", .int extractable.length),
    ("sample_titles", .arr ((titles.filter (· ≠ "")).map fun title =>
      .str (String.ofList (title.toList.take 200)))),
    ("byte_length", .int response.text.length)]

/-- What `fetch_url` and `probe_url` have in common: the fixture first, then the gate, then the one
    request. -/
def gatedGet (forced : Bool) (G : Gate) (arguments : Json) (fixture : Json → McpM Object)
    (result : Json → WebResponse → Except McpExc Object) : McpM Object := do
  let arguments ← raising (asArguments arguments)
  let url := (Json.lookup arguments "url").getD (.str "")
  if flagEnabled T forced "MCP_WEB_LIVE_MODE" then do
    raising (checkGate T G url)
    let response ← call (.httpGet url)
    raising (result url response)
  else fixture url

/-- `fetch_url` -/
def fetchUrl (forced : Bool) (arguments : Json) : McpM Object :=
  gatedGet T forced fetchGate arguments (fun url => do
    let fixture ← call (.loadFixture "fetch_url")
    pure (Json.update [("source", .str "fixture"), ("url", url)] fixture)) (fetchResult T)

/-- `probe_url` -/
def probeUrl (forced : Bool) (arguments : Json) : McpM Object :=
  gatedGet T forced probeGate arguments (fun url => pure (probeFixture url))
    fun url response => .ok (probeResult T url response)

/-- The tool of this name. -/
def webTool (forced : Bool) (toolName : String) (arguments : Json) : McpM Object :=
  if toolName = "fetch_url" then fetchUrl T forced arguments
  else if toolName = "probe_url" then probeUrl T forced arguments
  else throw (.raised ("unknown tool: " ++ toolName))

/-- The outcome of a call that has ended with this exception. -/
def outcomeOf : McpExc → ToolCallOutcome
  | .allowlistViolation _ => .rejected
  | _ => .error

/-- The limiter's turn: only its own refusal is logged. -/
def admitCall (serverName toolName : String) (arguments : Json) : McpM Unit :=
  tryCatch (call .checkLimiter) fun
    | .rateLimitExceeded message => do
      logBestEffort T serverName toolName arguments .rateLimited
      throw (.rateLimitExceeded message)
    | e => throw e

/-- A tool, and the row that says how it ended. -/
def loggedTool (serverName toolName : String) (arguments : Json)
    (outcome : McpExc → ToolCallOutcome) (tool : McpM Object) : McpM Object := do
  let result ← tryCatch tool fun e => do
    logBestEffort T serverName toolName arguments (outcome e)
    throw e
  logBestEffort T serverName toolName arguments .success
  pure result

/-- `dispatch` of mcp-buffer and of mcp-canva, with their `_DISPATCH_TABLE`. -/
def tableDispatch (serverName : String) (table : List (String × (Json → McpM Object)))
    (toolName : String) (arguments : Json) : McpM Object :=
  match table.lookup toolName with
  | none => do
    logBestEffort T serverName toolName arguments .error
    throw (.raised ("unknown tool: " ++ toolName))
  | some tool => loggedTool T serverName toolName arguments (fun _ => .error) (tool arguments)

/-- `dispatch` of mcp-web -/
def webDispatch (forced : Bool) (toolName : String) (arguments : Json) : McpM Object := do
  admitCall T "mcp-web" toolName arguments
  loggedTool T "mcp-web" toolName arguments outcomeOf (webTool T forced toolName arguments)

/-- The input schema of both tools. -/
def urlSchema : Object :=
  [("type", .str "object"), ("properties", .obj [("url", .obj [("type", .str "string")])]),
    ("required", .arr [.str "url"])]

def webServer : MCPServer where
  name := "mcp-web"
  version := "0.1.0"
  tools := [
    ⟨"fetch_url", "Fetch a URL's content. Restricted to an egress allow-list; rate-limited.",
      urlSchema⟩,
    ⟨"probe_url", "Report a candidate source's SHAPE for the source-promotion review -- status, " ++
      "content type, feed/item counts, extractable text size and up to five item " ++
      "titles. Never returns the body. Gated by MCP_WEB_PROBE_ALLOWLIST, a separate " ++
      "allowance from the production fetch_url egress list.", urlSchema⟩]

/-! ## mcp-buffer -/

/-- `_live_mode` -/
def bufferLive (forced : Bool) : McpM Bool := do
  let secret ← resolveSecret T forced "BUFFER_API_KEY" "buffer-api-key"
  pure secret.isSome

/-- `_graphql_request`: the key is read from the environment, wherever it was resolved from. -/
def graphqlRequest (query : String) (queryVariables : Object) : McpM Json :=
  call (.graphql query queryVariables
    ("Bearer " ++ (T.environ "BUFFER_API_KEY").getD "None"))

/-- `_LIST_QUEUE_QUERY` -/
def listQueueQuery : String :=
  "\nquery ListQueue($organizationId: ID!, $channelId: ID) \x7b\n" ++
  "  posts(organizationId: $organizationId, channelId: $channelId, status: QUEUE) \x7b\n" ++
  "    id\n    text\n    channelId\n    dueAt\n    status\n  \x7d\n\x7d\n"

/-- `_GET_POST_QUERY` -/
def getPostQuery : String :=
  "\nquery GetPost($postId: ID!) \x7b\n  post(id: $postId) \x7b\n" ++
  "    id\n    text\n    channelId\n    dueAt\n    status\n  \x7d\n\x7d\n"

/-- `_CREATE_DRAFT_STATUS` -/
def createDraftStatus : String := "draft"

/-- `_CREATE_DRAFT_MUTATION` -/
def createDraftMutation : String :=
  "\nmutation CreateDraft($organizationId: ID!, $channelId: ID!, $text: String!, " ++
  "$status: PostStatus!) \x7b\n  createPost(organizationId: $organizationId, " ++
  "channelId: $channelId, text: $text, status: $status) \x7b\n    id\n    status\n  \x7d\n\x7d\n"

/-- What the three tools have in common: without a key the fixture, else the one document. -/
def bufferTool (forced : Bool) (fixtureName query : String) (queryVariables attribution : Object) :
    McpM Object := do
  if ← bufferLive T forced then do
    let data ← graphqlRequest T query queryVariables
    pure (Json.update [("source", .str "live"), ("result", data)] attribution)
  else do
    let fixture ← call (.loadFixture fixtureName)
    pure (Json.update (Json.update [("source", .str "fixture")] fixture) attribution)

/-- `list_queue` -/
def listQueue (forced : Bool) (arguments : Json) : McpM Object := do
  let arguments ← raising (asArguments arguments)
  bufferTool T forced "list_queue" listQueueQuery
    [("organizationId", .str T.bufferOrgId), ("channelId", Json.get arguments "channel_id")] []

/-- `get_post` -/
def getPost (forced : Bool) (arguments : Json) : McpM Object := do
  let arguments ← raising (asArguments arguments)
  bufferTool T forced "get_post" getPostQuery [("postId", Json.get arguments "post_id")] []

/-- The labels that are echoed to the caller. -/
def attributionOf (arguments : Object) : Object :=
  [("utm_campaign", Json.get arguments "utm_campaign"),
    ("post_archetype", Json.get arguments "post_archetype")].filter fun kv => kv.2.truthy

/-- `create_draft` -/
def createDraft (forced : Bool) (arguments : Json) : McpM Object := do
  let arguments ← raising (asArguments arguments)
  bufferTool T forced "create_draft" createDraftMutation
    [("organizationId", .str T.bufferOrgId), ("channelId", Json.get arguments "channel_id"),
      ("text", (Json.lookup arguments "text").getD (.str "")),
      ("status", .str createDraftStatus)] (attributionOf arguments)

/-- `_DISPATCH_TABLE` -/
def bufferTable (forced : Bool) : List (String × (Json → McpM Object)) :=
  [("list_queue", listQueue T forced), ("get_post", getPost T forced),
    ("create_draft", createDraft T forced)]

/-- `dispatch` of mcp-buffer -/
def bufferDispatch (forced : Bool) : String → Json → McpM Object :=
  tableDispatch T "mcp-buffer" (bufferTable T forced)

/-- The schema of a text argument. -/
def textSchema : Json := .obj [("type", .str "string")]

def bufferServer : MCPServer where
  name := "mcp-buffer"
  version := "0.1.0"
  tools := [
    ⟨"list_queue", "List posts currently sitting in Buffer's queue for a channel. Read-only.",
      [("type", .str "object"), ("properties", .obj [("channel_id", textSchema)]),
        ("required", .arr [])]⟩,
    ⟨"get_post", "Read a single Buffer post's current recorded state. Read-only.",
      [("type", .str "object"), ("properties", .obj [("post_id", textSchema)]),
        ("required", .arr [.str "post_id"])]⟩,
    ⟨"create_draft", "Create a new queued item in Buffer as a draft-equivalent item. " ++
      "Always created in a draft state — this tool never transitions a post " ++
      "to a scheduled or delivered state, and accepts no status/mode/state " ++
      "argument of any kind.",
      [("type", .str "object"), ("properties", .obj [("channel_id", textSchema),
        ("text", textSchema), ("utm_campaign", textSchema), ("post_archetype", textSchema)]),
        ("required", .arr [.str "channel_id", .str "text"])]⟩]

/-! ## mcp-canva -/

/-- What a tool of mcp-canva sees of an exception. -/
def canvaFailure : McpExc → Canva.Failure := fun _ => .requestError

/-- What is raised in a tool of mcp-canva. -/
def canvaExc : Canva.Failure → McpExc
  | .valueError message => .raised message
  | e => .raised (T.canvaText e)

/-- A tool of mcp-canva, among the calls of the server. -/
def fromCanva {α : Type} : Canva.Call α → McpM α
  | .pure a => .pure a
  | .throw e => .throw (canvaExc T e)
  | .op access k => .op (.canva access) fun r => fromCanva (k (r.mapError canvaFailure))

def canvaTool (forced : Bool) (tool : Canva.Tool) (arguments : Json) : McpM Object := do
  let arguments ← raising (asArguments arguments)
  fromCanva T (Canva.dispatch T.canva ⟨tool, arguments, forced⟩)

/-- `_DISPATCH_TABLE` -/
def canvaTable (forced : Bool) : List (String × (Json → McpM Object)) :=
  [("create_design_from_template", canvaTool T forced .createDesignFromTemplate),
    ("bulk_create_from_csv", canvaTool T forced .bulkCreateFromCsv),
    ("export_design", canvaTool T forced .exportDesign)]

/-- `dispatch` of mcp-canva -/
def canvaDispatch (forced : Bool) : String → Json → McpM Object :=
  tableDispatch T "mcp-canva" (canvaTable T forced)

def canvaServer : MCPServer where
  name := "mcp-canva"
  version := "0.1.0"
  tools := [
    ⟨"create_design_from_template",
      "Create a new Canva design from a brand template. template_id is " ++
      "always required — no blank/free-form design creation is possible " ++
      "through this tool.",
      [("type", .str "object"),
        ("properties", .obj [("template_id", textSchema), ("title", textSchema)]),
        ("required", .arr [.str "template_id"])]⟩,
    ⟨"bulk_create_from_csv",
      "Bulk-create designs from a brand template by autofilling one row " ++
      "of CSV-shaped data per design. template_id is always required, " ++
      "same as create_design_from_template.",
      [("type", .str "object"), ("properties", .obj [("template_id", textSchema),
        ("rows", .obj [("type", .str "array"), ("items", .obj [("type", .str "object")]),
          ("description", .str "One object per CSV row of autofill data.")])]),
        ("required", .arr [.str "template_id", .str "rows"])]⟩,
    ⟨"export_design", "Export an already-created Canva design to a file format (e.g. PNG).",
      [("type", .str "object"), ("properties", .obj [("design_id", textSchema)]),
        ("required", .arr [.str "design_id"])]⟩]

/-- The servers, each with its dispatch function. -/
def servers : List (MCPServer × (Bool → String → Json → McpM Object)) :=
  [(webServer, webDispatch T), (bufferServer, bufferDispatch T), (canvaServer, canvaDispatch T)]

/-! ## One deployment -/

/-- Live, on one host, with a key for Buffer and none for Canva. -/
def liveTools : McpTools where
  unicode := .ascii
  lowerOne := lowerChar
  unescape := id
  casefold s := String.ofList (lower s.toList)
  hostname _ := some (some "example.com")
  fromIsoformat _ := none
  spell := String.ofList
  environ name :=
    if name = "MCP_WEB_LIVE_MODE" then some "true"
    else if name = "BUFFER_API_KEY" then some "key"
    else none
  sha256 _ := "9f4652149dc5bad9594515167e84d526252204ad35995f02ca500ddc6490e8d7"
  bufferOrgId := "68e5f2187fe9a5263a3509ab"
  canva := ⟨none, none, none, none, fun _ => []⟩
  canvaText _ := ""

/-- Everything is answered. -/
def answers : (c : McpCall) → Reply McpExc c.Res
  | .getSecret _ => .ok none
  | .checkLimiter | .logToolCall _ => .ok ()
  | .loadFixture _ => .ok []
  | .httpGet _ => .ok ⟨200, "<p>Example Domain</p>", "https://example.com/", "text/html"⟩
  | .graphql .. => .ok (.obj [("data", .obj [])])
  | .canva _ => .failed (.raised "connection refused")

def fetchRequest : JSONRPCRequest where
  id := .int 1
  method := "tools/call"
  params := [("name", .str "fetch_url"),
    ("arguments", .obj [("url", .str "https://example.com/")])]

/-- A call with a status of its own. -/
def draftRequest : JSONRPCRequest where
  id := .str "7"
  method := "tools/call"
  params := [("name", .str "create_draft"),
    ("arguments", .obj [("channel_id", .str "c"), ("text", .str "t"), ("status", .str "sent")])]

/-- What becomes of it. -/
def drafting : McpReplies × Except McpExc JSONRPCResponse :=
  (mcpEndpoint liveTools bufferServer (bufferDispatch liveTools) "" draftRequest).transcript answers

/-! ## Under given replies -/

section Judgements

variable {T} {P : McpReplies → McpCall → Prop} {l : McpReplies} {serverName toolName : String}
  {arguments : Json}

theorem sure_raising {α β : Type} {Q : α → McpReplies → Prop} {x : Except McpExc β}
    {f : β → McpM α} (hf : ∀ b, x = .ok b → (f b).Sure P Q (fun _ _ => True) l) :
    ((raising x).bind f).Sure P Q (fun _ _ => True) l := by
  cases x with
  | ok b => exact hf b rfl
  | error e => trivial

theorem mem_of_lookup {α : Type} {table : List (String × α)} {name : String} {x : α}
    (h : table.lookup name = some x) : (name, x) ∈ table := by
  obtain ⟨l₁, l₂, rfl, -⟩ := List.lookup_eq_some_iff.1 h
  exact List.mem_append_right _ List.mem_cons_self

theorem sure_logBestEffort (hP : ∀ l row, P l (.logToolCall row)) (outcome : ToolCallOutcome) :
    (logBestEffort T serverName toolName arguments outcome).Sure P (fun _ _ => True)
      (fun _ _ => True) l :=
  Prog.Sure.tryCatch (F := fun _ _ => True)
    (Prog.Sure.perform (hP _ _) (fun _ => trivial) fun _ _ _ => trivial) fun _ _ _ _ => trivial

theorem sure_loggedTool (hP : ∀ l row, P l (.logToolCall row)) {outcome : McpExc → ToolCallOutcome}
    {tool : McpM Object} (htool : tool.Sure P (fun _ _ => True) (fun _ _ => True) l) :
    (loggedTool T serverName toolName arguments outcome tool).Sure P (fun _ _ => True)
      (fun _ _ => True) l := by
  refine Prog.Sure.bind (R := fun _ _ => True)
    (htool.tryCatch fun e _ _ _ => (sure_logBestEffort hP (outcome e)).bind fun _ _ _ _ => trivial)
    fun _ _ _ _ => ?_
  exact (sure_logBestEffort hP .success).bind fun _ _ _ _ => trivial

/-- Behind the limiter its leave stands in the replies. -/
theorem sure_admitCall (hP : ∀ l row, P l (.logToolCall row)) (hlimiter : P l .checkLimiter) :
    (admitCall T serverName toolName arguments).Sure P
      (fun _ l' => l' = l ++ [⟨.checkLimiter, .ok ()⟩]) (fun _ _ => True) l := by
  refine Prog.Sure.tryCatch (F := fun _ _ => True)
    (Prog.Sure.perform hlimiter (fun _ => rfl) fun _ _ _ => trivial) fun e _ _ _ => ?_
  cases e with
  | rateLimitExceeded message =>
    exact (sure_logBestEffort hP .rateLimited).bind fun _ _ _ _ => trivial
  | allowlistViolation message | raised message => trivial

theorem sure_tableDispatch (hP : ∀ l row, P l (.logToolCall row))
    {table : List (String × (Json → McpM Object))}
    (htable : ∀ tool, (toolName, tool) ∈ table →
      (tool arguments).Sure P (fun _ _ => True) (fun _ _ => True) l) :
    (tableDispatch T serverName table toolName arguments).Sure P (fun _ _ => True)
      (fun _ _ => True) l := by
  unfold tableDispatch
  cases hlookup : table.lookup toolName with
  | none => exact (sure_logBestEffort hP .error).bind fun _ _ _ _ => trivial
  | some tool => exact sure_loggedTool hP (htable tool (mem_of_lookup hlookup))

end Judgements

/-! ## How a call is accounted for -/

section Accounts

variable {T} {S : MCPServer} {request : JSONRPCRequest} {l : McpReplies}
  {serverName toolName : String} {arguments : Json} {out : Except McpExc Object}

/-- The rows that are written, or tried to be. -/
def rowsOf (l : McpReplies) : List ToolCallRow :=
  l.filterMap fun x => match x.1 with
    | .logToolCall row => some row
    | _ => none

/-- The limiter has turned the call away. -/
def Refused (l : McpReplies) : Prop :=
  ∃ r message, ⟨.checkLimiter, r⟩ ∈ l ∧ r.out = .error (.rateLimitExceeded message)

/-- The limiter itself has failed, and that was all. -/
def LimiterFailed (l : McpReplies) : Prop :=
  ∃ r e, l = [⟨.checkLimiter, r⟩] ∧ r.out = .error e ∧ ∀ message, e ≠ .rateLimitExceeded message

/-- There is one row, and it says how the call has ended. -/
def Logged (T : McpTools) (serverName toolName : String) (arguments : Json) (l : McpReplies)
    (out : Except McpExc Object) : Prop :=
  ∃ outcome, rowsOf l = [toolCallRow T serverName toolName arguments outcome] ∧
    (outcome = .success ↔ ∃ result, out = .ok result) ∧ (outcome = .rateLimited ↔ Refused l)

/-- Neither the table nor the limiter is concerned. -/
def McpCall.Quiet : McpCall → Prop
  | .logToolCall _ | .checkLimiter => False
  | _ => True

/-- The response to a call of a tool. -/
def respond (id : Json) : Except McpExc Object → JSONRPCResponse
  | .ok result => ⟨id, some (toolResult result), none⟩
  | .error e => ⟨id, none, some (rpcError (-32000) e.text)⟩

/-- What the replies to a request say of the call that it made. -/
def Accounted (T : McpTools) (S : MCPServer) (request : JSONRPCRequest) (l : McpReplies)
    (response : JSONRPCResponse) : Prop :=
  match calledTool S request with
  | none => l = []
  | some name => ∃ out, response = respond request.id out ∧
    (Logged T S.name name (argumentsOf request.params) l out ∨
      LimiterFailed l ∧ ∃ e, out = .error e)

theorem rowsOf_of_quiet (h : ∀ x ∈ l, x.1.Quiet) : rowsOf l = [] := by
  refine List.filterMap_eq_nil_iff.2 fun x hx => ?_
  obtain ⟨c, r⟩ := x
  cases c with
  | logToolCall row => exact (h _ hx).elim
  | _ => rfl

theorem rowsOf_append_row (l : McpReplies) (row : ToolCallRow)
    (r : Reply McpExc (McpCall.Res (.logToolCall row))) :
    rowsOf (l ++ [⟨.logToolCall row, r⟩]) = rowsOf l ++ [row] :=
  List.filterMap_append

theorem ran_logBestEffort {outcome : ToolCallOutcome} {done : Except McpExc Unit}
    (h : Ran (logBestEffort T serverName toolName arguments outcome) l done) :
    ∃ r, l = [⟨.logToolCall (toolCallRow T serverName toolName arguments outcome), r⟩] ∧
      done = .ok () := by
  rcases h.of_tryCatch with ⟨a, rfl, h₁⟩ | ⟨e, l₁, l₂, rfl, h₁, h₂⟩
  · obtain ⟨r, rfl, -⟩ := h₁.of_perform
    exact ⟨r, rfl, rfl⟩
  · obtain ⟨r, rfl, -⟩ := h₁.of_perform
    obtain ⟨rfl, rfl⟩ := h₂.of_pure
    exact ⟨r, rfl, rfl⟩

/-- A row, and then the exception that it is about. -/
theorem ran_log_throw {outcome : ToolCallOutcome} {e : McpExc}
    (h : Ran ((logBestEffort T serverName toolName arguments outcome).bind fun _ =>
      (Prog.throw e : McpM Object)) l out) :
    ∃ r, l = [⟨.logToolCall (toolCallRow T serverName toolName arguments outcome), r⟩] ∧
      out = .error e := by
  rcases h.of_bind with ⟨_, l₁, l₂, rfl, h₁, h₂⟩ | ⟨e', rfl, h₁⟩
  · obtain ⟨r, rfl, -⟩ := ran_logBestEffort h₁
    obtain ⟨rfl, rfl⟩ := h₂.of_throw
    exact ⟨r, rfl, rfl⟩
  · obtain ⟨r, -, hend⟩ := ran_logBestEffort h₁
    cases hend

/-- The outcome that is logged of the end of a tool. -/
def endOutcome (outcome : McpExc → ToolCallOutcome) : Except McpExc Object → ToolCallOutcome
  | .ok _ => .success
  | .error e => outcome e

theorem ran_loggedTool {outcome : McpExc → ToolCallOutcome} {tool : McpM Object}
    (h : Ran (loggedTool T serverName toolName arguments outcome tool) l out) :
    ∃ l₁ r, l = l₁ ++ [⟨.logToolCall
      (toolCallRow T serverName toolName arguments (endOutcome outcome out)), r⟩] ∧
        Ran tool l₁ out := by
  rcases h.of_bind with ⟨result, l₁, l₂, rfl, h₁, h₂⟩ | ⟨e, rfl, hfailed⟩
  · rcases h₂.of_bind with ⟨_, l₃, l₄, rfl, h₃, h₄⟩ | ⟨e, -, h₂⟩
    · obtain ⟨r, rfl, -⟩ := ran_logBestEffort h₃
      obtain ⟨rfl, rfl⟩ := h₄.of_pure
      rcases h₁.of_tryCatch with ⟨_, hsame, h₁⟩ | ⟨e, l₃, l₄, rfl, -, hhandler⟩
      · obtain rfl := Except.ok.inj hsame
        exact ⟨l₁, r, rfl, h₁⟩
      · obtain ⟨_, -, hend⟩ := ran_log_throw hhandler
        cases hend
    · obtain ⟨_, -, hend⟩ := ran_logBestEffort h₂
      cases hend
  · rcases hfailed.of_tryCatch with ⟨a, hend, -⟩ | ⟨e', l₁, l₂, rfl, h₁, h₂⟩
    · cases hend
    · obtain ⟨r, rfl, hend⟩ := ran_log_throw h₂
      obtain rfl := Except.error.inj hend
      exact ⟨l₁, r, rfl, h₁⟩

/-- A tool that leaves the table alone is logged once. -/
theorem logged_of_loggedTool {outcome : McpExc → ToolCallOutcome} {tool : McpM Object}
    (houtcome : ∀ e, outcome e = .error ∨ outcome e = .rejected)
    (hquiet : tool.Only McpCall.Quiet) {l₀ : McpReplies} (hrows : rowsOf l₀ = [])
    (hadmitted : ¬Refused l₀)
    (h : Ran (loggedTool T serverName toolName arguments outcome tool) l out) :
    Logged T serverName toolName arguments (l₀ ++ l) out := by
  obtain ⟨l₁, r, rfl, htool⟩ := ran_loggedTool h
  have hquiet₁ := htool.only hquiet
  refine ⟨endOutcome outcome out, ?_, ?_, ?_⟩
  · rw [← List.append_assoc, rowsOf_append_row, rowsOf, List.filterMap_append, ← rowsOf, ← rowsOf,
      hrows, rowsOf_of_quiet hquiet₁]
    rfl
  · cases out with
    | ok result => simp [endOutcome]
    | error e => rcases houtcome e with he | he <;> simp [endOutcome, he]
  · refine iff_of_false ?_ ?_
    · cases out with
      | ok result => simp [endOutcome]
      | error e => rcases houtcome e with he | he <;> simp [endOutcome, he]
    · rintro ⟨r', message, hmem, herr⟩
      rcases List.mem_append.1 hmem with hmem | hmem
      · exact hadmitted ⟨r', message, hmem, herr⟩
      rcases List.mem_append.1 hmem with hmem | hmem
      · exact hquiet₁ _ hmem
      · cases (List.mem_singleton.1 hmem)

theorem ran_handle {dispatch : String → Json → McpM Object}
    {done : Except McpExc JSONRPCResponse} (h : Ran (handle S dispatch request) l done) :
    (calledTool S request = none ∧ l = [] ∧ ∃ response, done = .ok response ∧
      response.id = request.id ∧ (response.error = none ↔ response.result.isSome = true)) ∨
    ∃ name out, calledTool S request = some name ∧
      Ran (dispatch name (argumentsOf request.params)) l out ∧
        done = .ok (respond request.id out) := by
  have hpure : ∀ response : JSONRPCResponse, Ran (Prog.pure response : McpM _) l done →
      response.id = request.id → (response.error = none ↔ response.result.isSome = true) →
      l = [] ∧ ∃ response, done = .ok response ∧ response.id = request.id ∧
        (response.error = none ↔ response.result.isSome = true) := by
    intro response hran hid hone
    obtain ⟨rfl, rfl⟩ := hran.of_pure
    exact ⟨rfl, response, rfl, hid, hone⟩
  unfold handle at h
  by_cases hinit : request.method = "initialize"
  · rw [if_pos hinit] at h
    refine .inl ⟨?_, hpure _ h rfl (by simp)⟩
    rw [calledTool, hinit]
    exact if_neg (by decide)
  rw [if_neg hinit] at h
  by_cases hlist : request.method = "tools/list"
  · rw [if_pos hlist] at h
    refine .inl ⟨?_, hpure _ h rfl (by simp)⟩
    rw [calledTool, hlist]
    exact if_neg (by decide)
  rw [if_neg hlist] at h
  by_cases hcall : request.method = "tools/call"
  · rw [if_pos hcall] at h
    unfold handleToolsCall at h
    rw [calledTool, if_pos hcall]
    cases hknown : knownTool S request.params with
    | none =>
      rw [hknown] at h
      exact .inl ⟨rfl, hpure _ h rfl (by simp)⟩
    | some name =>
      rw [hknown] at h
      refine .inr ⟨name, ?_⟩
      rcases h.of_tryCatch with ⟨response, rfl, h₀⟩ | ⟨e, l₁, l₂, rfl, h₁, h₂⟩
      · obtain ⟨result, l₁, l₂, rfl, h₁, h₂⟩ := h₀.of_bind_ok
        obtain ⟨raw, l₃, l₄, rfl, h₃, h₄⟩ := h₁.of_bind_ok
        obtain ⟨rfl, hresult⟩ := h₄.of_pure
        obtain ⟨rfl, hresponse⟩ := h₂.of_pure
        rw [List.append_nil, List.append_nil]
        refine ⟨.ok raw, rfl, h₃, ?_⟩
        rw [hresponse, Except.ok.inj hresult]
        rfl
      · obtain ⟨rfl, rfl⟩ := h₂.of_pure
        rw [List.append_nil]
        rcases h₁.of_bind with ⟨_, l₃, l₄, rfl, h₃, h₄⟩ | ⟨e', he, h₃⟩
        · obtain ⟨-, hend⟩ := h₄.of_pure
          cases hend
        · obtain rfl := Except.error.inj he
          rcases h₃.of_bind with ⟨_, l₅, l₆, rfl, h₅, h₆⟩ | ⟨e', he, h₅⟩
          · obtain ⟨-, hend⟩ := h₆.of_pure
            cases hend
          · obtain rfl := Except.error.inj he
            exact ⟨.error e, rfl, h₅, rfl⟩
  · rw [if_neg hcall] at h
    refine .inl ⟨?_, hpure _ h rfl (by simp)⟩
    exact if_neg hcall

theorem logged_of_tableDispatch {table : List (String × (Json → McpM Object))}
    (htable : ∀ tool, (toolName, tool) ∈ table → (tool arguments).Only McpCall.Quiet)
    (h : Ran (tableDispatch T serverName table toolName arguments) l out) :
    Logged T serverName toolName arguments l out := by
  have hnone : ¬Refused [] := by
    rintro ⟨r, message, hmem, -⟩
    exact absurd hmem List.not_mem_nil
  unfold tableDispatch at h
  cases hlookup : table.lookup toolName with
  | none =>
    rw [hlookup] at h
    obtain ⟨r, rfl, rfl⟩ := ran_log_throw h
    refine ⟨.error, rfl, by simp, iff_of_false (by simp) ?_⟩
    rintro ⟨r', message, hmem, -⟩
    cases (List.mem_singleton.1 hmem)
  | some tool =>
    rw [hlookup] at h
    exact logged_of_loggedTool (fun _ => .inl rfl) (htable tool (mem_of_lookup hlookup)) rfl hnone h

/-- The limiter gives leave, turns the call away, or fails. -/
theorem ran_admitCall {done : Except McpExc Unit}
    (h : Ran (admitCall T serverName toolName arguments) l done) :
    (l = [⟨.checkLimiter, .ok ()⟩] ∧ done = .ok ()) ∨ ∃ r e, done = .error e ∧ r.out = .error e ∧
      ((∃ message r', e = .rateLimitExceeded message ∧ l = [⟨.checkLimiter, r⟩,
          ⟨.logToolCall (toolCallRow T serverName toolName arguments .rateLimited), r'⟩]) ∨
        l = [⟨.checkLimiter, r⟩] ∧ ∀ message, e ≠ .rateLimitExceeded message) := by
  rcases h.of_tryCatch with ⟨a, rfl, h₁⟩ | ⟨e, l₁, l₂, rfl, h₁, h₂⟩
  · obtain ⟨r, rfl, hr⟩ := h₁.of_perform
    cases r with
    | ok b => exact .inl ⟨rfl, rfl⟩
    | failed e | lost b e => cases hr
  · obtain ⟨r, rfl, hr⟩ := h₁.of_perform
    refine .inr ⟨r, e, ?_⟩
    cases e with
    | rateLimitExceeded message =>
      rcases h₂.of_bind with ⟨_, l₃, l₄, rfl, h₃, h₄⟩ | ⟨e, -, h₃⟩
      · obtain ⟨r', rfl, -⟩ := ran_logBestEffort h₃
        obtain ⟨rfl, rfl⟩ := h₄.of_throw
        exact ⟨rfl, hr.symm, .inl ⟨message, r', rfl, rfl⟩⟩
      · obtain ⟨_, -, hdone⟩ := ran_logBestEffort h₃
        cases hdone
    | allowlistViolation message | raised message =>
      obtain ⟨rfl, rfl⟩ := h₂.of_throw
      exact ⟨rfl, hr.symm, .inr ⟨rfl, fun _ he => by cases he⟩⟩

/-! ### The tools leave the table and the limiter alone -/

theorem quiet_raising {α β : Type} {x : Except McpExc α} {f : α → McpM β}
    (hf : ∀ a, (f a).Only McpCall.Quiet) : ((raising x).bind f).Only McpCall.Quiet := by
  cases x with
  | ok a => exact hf a
  | error e => trivial

theorem quiet_gatedGet {forced : Bool} {G : Gate} {fixture : Json → McpM Object}
    {result : Json → WebResponse → Except McpExc Object}
    (hfixture : ∀ url, (fixture url).Only McpCall.Quiet) :
    (gatedGet T forced G arguments fixture result).Only McpCall.Quiet := by
  refine quiet_raising fun args => ?_
  split
  · refine quiet_raising fun _ => Prog.Only.bind (Prog.Only.perform trivial) fun response => ?_
    cases result ((Json.lookup args "url").getD (.str "")) response <;> trivial
  · exact hfixture _

theorem quiet_webTool (forced : Bool) :
    (webTool T forced toolName arguments).Only McpCall.Quiet := by
  unfold webTool
  split
  · exact quiet_gatedGet fun url => Prog.Only.bind (Prog.Only.perform trivial) fun _ => trivial
  · split
    · exact quiet_gatedGet fun url => trivial
    · trivial

theorem quiet_bufferTool {forced : Bool} {fixtureName query : String}
    {queryVariables attribution : Object} :
    (bufferTool T forced fixtureName query queryVariables attribution).Only McpCall.Quiet := by
  have hresolve : ∀ name secretName,
      (resolveSecret T forced name secretName).Only McpCall.Quiet := by
    intro name secretName
    unfold resolveSecret
    split
    · trivial
    · split
      · trivial
      · split
        · trivial
        · exact Prog.Only.tryCatch (Prog.Only.perform trivial) fun _ => trivial
  refine Prog.Only.bind (Prog.Only.bind (hresolve _ _) fun _ => trivial) fun live => ?_
  cases live <;> exact Prog.Only.bind (Prog.Only.perform trivial) fun _ => trivial

theorem quiet_bufferTable {forced : Bool} {tool : Json → McpM Object}
    (h : (toolName, tool) ∈ bufferTable T forced) : (tool arguments).Only McpCall.Quiet := by
  simp only [bufferTable, List.mem_cons, Prod.mk.injEq, List.not_mem_nil, or_false] at h
  rcases h with ⟨-, rfl⟩ | ⟨-, rfl⟩ | ⟨-, rfl⟩ <;> exact quiet_raising fun _ => quiet_bufferTool

theorem quiet_fromCanva {α : Type} (x : Canva.Call α) : (fromCanva T x).Only McpCall.Quiet := by
  induction x with
  | pure a | throw e => trivial
  | op access k ih => exact ⟨trivial, fun r => ih _⟩

theorem quiet_canvaTable {forced : Bool} {tool : Json → McpM Object}
    (h : (toolName, tool) ∈ canvaTable T forced) : (tool arguments).Only McpCall.Quiet := by
  simp only [canvaTable, List.mem_cons, Prod.mk.injEq, List.not_mem_nil, or_false] at h
  rcases h with ⟨-, rfl⟩ | ⟨-, rfl⟩ | ⟨-, rfl⟩ <;> exact quiet_raising fun _ => quiet_fromCanva _

theorem logged_of_webDispatch {forced : Bool}
    (h : Ran (webDispatch T forced toolName arguments) l out) :
    Logged T "mcp-web" toolName arguments l out ∨ LimiterFailed l ∧ ∃ e, out = .error e := by
  rcases h.of_bind with ⟨_, l₁, l₂, rfl, h₁, h₂⟩ | ⟨e, rfl, h₁⟩
  · rcases ran_admitCall h₁ with ⟨rfl, -⟩ | ⟨r, e, hdone, -, -⟩
    · refine .inl (logged_of_loggedTool (fun e => ?_) (quiet_webTool forced)
        (show rowsOf [⟨.checkLimiter, .ok ()⟩] = [] from rfl) ?_ h₂)
      · cases e with
        | allowlistViolation message => exact .inr rfl
        | rateLimitExceeded message | raised message => exact .inl rfl
      · rintro ⟨r, message, hmem, hr⟩
        cases (List.mem_singleton.1 hmem)
        cases hr
    · cases hdone
  · rcases ran_admitCall h₁ with ⟨-, hdone⟩ | ⟨r, e', hdone, hr, hends⟩
    · cases hdone
    · obtain rfl := Except.error.inj hdone
      rcases hends with ⟨message, r', rfl, rfl⟩ | ⟨rfl, hother⟩
      · refine .inl ⟨.rateLimited, rfl, by simp, iff_of_true rfl ?_⟩
        exact ⟨r, message, List.mem_cons_self, hr⟩
      · exact .inr ⟨⟨r, e, rfl, hr, hother⟩, e, rfl⟩

/-- Every request is answered under its id, with a result or an error.  A call of a tool has one row
    in the table, a success if and only if the answer is a result, and rate-limited if and only if
    the limiter turned it away; without a row is only what the limiter failed at.  Nothing else asks
    for anything. -/
theorem tool_calls_are_accounted {server : MCPServer × (Bool → String → Json → McpM Object)}
    (hserver : server ∈ servers T) {header : String} {done : Except McpExc JSONRPCResponse}
    (h : Ran (mcpEndpoint T server.1 server.2 header request) l done) :
    ∃ response, done = .ok response ∧ response.id = request.id ∧
      (response.error = none ↔ response.result.isSome = true) ∧
        Accounted T server.1 request l response := by
  rcases ran_handle h with ⟨hnone, hl, response, hdone, hid, hone⟩ | ⟨name, out, hsome, hran, hdone⟩
  · refine ⟨response, hdone, hid, hone, ?_⟩
    rw [Accounted, hnone]
    exact hl
  · have hlogged : Logged T server.1.name name (argumentsOf request.params) l out ∨
        LimiterFailed l ∧ ∃ e, out = .error e := by
      simp only [servers, List.mem_cons, List.not_mem_nil, or_false] at hserver
      rcases hserver with rfl | rfl | rfl
      · exact logged_of_webDispatch hran
      · exact .inl (logged_of_tableDispatch (fun _ => quiet_bufferTable) hran)
      · exact .inl (logged_of_tableDispatch (fun _ => quiet_canvaTable) hran)
    refine ⟨respond request.id out, hdone, ?_, ?_, ?_⟩
    · cases out <;> rfl
    · cases out <;> simp [respond]
    · rw [Accounted, hsome]
      exact ⟨out, rfl, hlogged⟩

theorem draft_is_accounted : ∃ response, drafting.2 = .ok response ∧ response.id = .str "7" ∧
    (response.error = none ↔ response.result.isSome = true) ∧
      Accounted liveTools bufferServer draftRequest drafting.1 response :=
  tool_calls_are_accounted (List.mem_cons_of_mem _ List.mem_cons_self) (ran_transcript answers _)

end Accounts

/-! ## What mcp-web fetches -/

section Web

variable {T} {header : String} {request : JSONRPCRequest} {l : McpReplies} {url : Json}

theorem asArguments_ok {x : Json} {arguments : Object} (h : asArguments x = .ok arguments) :
    x = .obj arguments := by
  cases x with
  | obj kvs => exact congrArg Json.obj (Except.ok.inj h)
  | _ => cases h

theorem knownTool_eq {S : MCPServer} {params : Object} {name : String}
    (h : knownTool S params = some name) : Json.get params "name" = .str name := by
  unfold knownTool at h
  split at h
  · next other hother =>
    split at h
    · rw [hother, Option.some.inj h]
    · cases h
  · cases h

theorem sure_handle {S : MCPServer} {dispatch : String → Json → McpM Object}
    {P : McpReplies → McpCall → Prop}
    (hdispatch : ∀ name, request.method = "tools/call" →
      Json.get request.params "name" = .str name →
      (dispatch name (argumentsOf request.params)).Sure P (fun _ _ => True) (fun _ _ => True) []) :
    (handle S dispatch request).Sure P (fun _ _ => True) (fun _ _ => True) [] := by
  unfold handle
  refine Prog.Sure.tryCatch (F := fun _ _ => True) ?_ fun _ _ _ _ => trivial
  split
  · trivial
  · split
    · trivial
    · split
      · next hmethod =>
        refine Prog.Sure.bind (R := fun _ _ => True) ?_ fun _ _ _ _ => trivial
        unfold handleToolsCall
        cases hknown : knownTool S request.params with
        | none => trivial
        | some name =>
          exact (hdispatch name hmethod (knownTool_eq hknown)).bind fun _ _ _ _ => trivial
      · trivial

/-- What has to be so for a page to be fetched: the request has called a tool with this URL, the
    list of the tool has its host, and before it only the limiter was asked, which gave leave. -/
structure Contained (T : McpTools) (header : String) (request : JSONRPCRequest) (l : McpReplies)
    (url : Json) : Prop where
  unforced : isOn T header = false
  live : isOn T ((T.environ "MCP_WEB_LIVE_MODE").getD "") = true
  method : request.method = "tools/call"
  admitted : l = [⟨.checkLimiter, .ok ()⟩]
  called : ∃ G ∈ [fetchGate, probeGate], ∃ arguments host,
    Json.get request.params "name" = .str G.toolName ∧
      argumentsOf request.params = .obj arguments ∧
      url = (Json.lookup arguments "url").getD (.str "") ∧ hostOf T url = .ok host ∧
      host ∈ allowlist T G.variableName G.default

/-- The pages alone are restricted. -/
def WebAllowed (T : McpTools) (header : String) (request : JSONRPCRequest) (l : McpReplies) :
    McpCall → Prop
  | .httpGet url => Contained T header request l url
  | _ => True

theorem checkGate_ok {G : Gate} (h : checkGate T G url = .ok ()) :
    ∃ host, hostOf T url = .ok host ∧ host ∈ allowlist T G.variableName G.default := by
  unfold checkGate at h
  cases hhost : hostOf T url with
  | error e =>
    rw [hhost] at h
    cases h
  | ok host =>
    rw [hhost] at h
    dsimp only [bind, Except.bind] at h
    split at h
    · next hlisted => exact ⟨host, rfl, hlisted⟩
    · cases h

theorem sure_gatedGet {G : Gate} (hG : G ∈ [fetchGate, probeGate])
    (hmethod : request.method = "tools/call")
    (hname : Json.get request.params "name" = .str G.toolName)
    {fixture : Json → McpM Object} {result : Json → WebResponse → Except McpExc Object}
    (hfixture : ∀ url, (fixture url).Sure (WebAllowed T header request) (fun _ _ => True)
      (fun _ _ => True) [⟨.checkLimiter, .ok ()⟩]) :
    (gatedGet T (isOn T header) G (argumentsOf request.params) fixture result).Sure
      (WebAllowed T header request) (fun _ _ => True) (fun _ _ => True)
      [⟨.checkLimiter, .ok ()⟩] := by
  refine sure_raising fun arguments harguments => ?_
  split
  · next hflag =>
    obtain ⟨hunforced, hlive⟩ : isOn T header = false ∧
        isOn T ((T.environ "MCP_WEB_LIVE_MODE").getD "") = true := by
      simpa [flagEnabled] using hflag
    refine sure_raising fun _ hgate => ?_
    obtain ⟨host, hhost, hlisted⟩ := checkGate_ok hgate
    refine Prog.Sure.step ⟨hunforced, hlive, hmethod, rfl, G, hG, arguments, host, hname,
      asArguments_ok harguments, rfl, hhost, hlisted⟩ fun response => ?_
    cases result ((Json.lookup arguments "url").getD (.str "")) response <;> trivial
  · exact hfixture _

theorem sure_webDispatch (hmethod : request.method = "tools/call") {name : String}
    (hname : Json.get request.params "name" = .str name) :
    (webDispatch T (isOn T header) name (argumentsOf request.params)).Sure
      (WebAllowed T header request) (fun _ _ => True) (fun _ _ => True) [] := by
  refine (sure_admitCall (fun _ _ => trivial) trivial).bind fun _ l' _ hl' => ?_
  obtain rfl : l' = [⟨.checkLimiter, .ok ()⟩] := hl'
  refine sure_loggedTool (fun _ _ => trivial) ?_
  unfold webTool
  split
  · next hfetch =>
    subst hfetch
    exact sure_gatedGet List.mem_cons_self hmethod hname fun url =>
      Prog.Sure.step trivial fun fixture => trivial
  · split
    · next hprobe =>
      subst hprobe
      exact sure_gatedGet (List.mem_cons_of_mem _ List.mem_cons_self) hmethod hname fun url =>
        trivial
    · trivial

/-- A request makes mcp-web fetch no page but the one it names, live, from a host on the list of the
    tool it calls, once, and after the limiter gave leave. -/
theorem web_gets_are_contained
    (h : Asks (mcpEndpoint T webServer (webDispatch T) header request) l (.httpGet url)) :
    Contained T header request l url :=
  (sure_handle fun _ hmethod hname => sure_webDispatch hmethod hname).asks h

theorem fetch_is_contained :
    ∃ l, Contained liveTools "" fetchRequest l (.str "https://example.com/") := by
  have hfetched : ((mcpEndpoint liveTools webServer (webDispatch liveTools) ""
      fetchRequest).transcript answers).1[1]?.map Sigma.fst =
        some (.httpGet (.str "https://example.com/")) := by decide +kernel
  exact ⟨_, web_gets_are_contained (asks_transcript hfetched)⟩

end Web

/-! ## What mcp-buffer sends -/

section Buffer

variable {T} {header : String} {request : JSONRPCRequest} {l : McpReplies}
  {query authorization : String} {queryVariables : Object}

/-- A key was found, and what is sent for it: a key of the environment is sent, one of Key Vault is
    not. -/
inductive KeyFound (T : McpTools) : String → McpReplies → Prop where
  | environ {key : String} (hkey : T.environ "BUFFER_API_KEY" = some key) (hne : key ≠ "") :
    KeyFound T ("Bearer " ++ key) []
  | vault {authorization : String} (hunset : (T.environ "BUFFER_API_KEY").getD "" = "")
    (hvault : (T.environ "KEY_VAULT_URI").getD "" ≠ "") (key : String)
    (hbearer : authorization ∈ ["Bearer None", "Bearer "]) :
    KeyFound T authorization [⟨.getSecret "buffer-api-key", .ok (some key)⟩]

/-- What each tool sends, of these arguments. -/
def bufferDocuments (T : McpTools) (arguments : Object) : List (String × String × Object) :=
  [("list_queue", listQueueQuery, [("organizationId", .str T.bufferOrgId),
      ("channelId", Json.get arguments "channel_id")]),
    ("get_post", getPostQuery, [("postId", Json.get arguments "post_id")]),
    ("create_draft", createDraftMutation, [("organizationId", .str T.bufferOrgId),
      ("channelId", Json.get arguments "channel_id"),
      ("text", (Json.lookup arguments "text").getD (.str "")),
      ("status", .str createDraftStatus)])]

/-- What has to be so for Buffer to be sent something: the request has called a tool, a key was
    found, and what is sent is the document of the tool.  It asks for a status only where it creates
    a post, and then for a draft. -/
structure Drafted (T : McpTools) (header : String) (request : JSONRPCRequest) (l : McpReplies)
    (query : String) (queryVariables : Object) (authorization : String) : Prop where
  unforced : isOn T header = false
  method : request.method = "tools/call"
  key : KeyFound T authorization l
  called : ∃ name arguments, Json.get request.params "name" = .str name ∧
    argumentsOf request.params = .obj arguments ∧
      (name, query, queryVariables) ∈ bufferDocuments T arguments
  status : Json.lookup queryVariables "status" =
    if query = createDraftMutation then some (.str "draft") else none

/-- What is sent to Buffer alone is restricted. -/
def BufferAllowed (T : McpTools) (header : String) (request : JSONRPCRequest) (l : McpReplies) :
    McpCall → Prop
  | .graphql query queryVariables authorization =>
    Drafted T header request l query queryVariables authorization
  | _ => True

theorem status_of_document {name : String} {arguments : Object}
    (h : (name, query, queryVariables) ∈ bufferDocuments T arguments) :
    Json.lookup queryVariables "status" =
      if query = createDraftMutation then some (.str "draft") else none := by
  simp only [bufferDocuments, List.mem_cons, Prod.mk.injEq, List.not_mem_nil, or_false] at h
  rcases h with ⟨-, rfl, rfl⟩ | ⟨-, rfl, rfl⟩ | ⟨-, rfl, rfl⟩
  · rw [if_neg (by decide)]
    rfl
  · rw [if_neg (by decide)]
    rfl
  · rw [if_pos rfl]
    rfl

theorem sure_bufferLive {P : McpReplies → McpCall → Prop}
    (hP : ∀ name, P [] (.getSecret name)) (forced : Bool) :
    (bufferLive T forced).Sure P (fun live l' => live = true → forced = false ∧
      KeyFound T ("Bearer " ++ (T.environ "BUFFER_API_KEY").getD "None") l')
      (fun _ _ => True) [] := by
  have hresolve : (resolveSecret T forced "BUFFER_API_KEY" "buffer-api-key").Sure P
      (fun secret l' => secret.isSome = true → forced = false ∧
        KeyFound T ("Bearer " ++ (T.environ "BUFFER_API_KEY").getD "None") l')
      (fun _ _ => True) [] := by
    unfold resolveSecret
    split
    · exact fun hsome => absurd hsome (by simp)
    · next hforced =>
      have hunforced : forced = false := Bool.eq_false_iff.2 hforced
      split
      · next key hkey =>
        obtain ⟨hset, hne⟩ := Option.filter_eq_some_iff.1 hkey
        refine fun _ => ⟨hunforced, ?_⟩
        rw [hset]
        exact .environ hset (of_decide_eq_true hne)
      · next hkey =>
        split
        · exact fun hsome => absurd hsome (by simp)
        · next hvault =>
          obtain ⟨-, huri⟩ := not_or.1 hvault
          refine Prog.Sure.tryCatch (F := fun _ _ => True)
            (Prog.Sure.perform (hP _) (fun secret => ?_) fun _ _ _ => trivial) fun _ _ _ _ => ?_
          · cases secret with
            | none => exact fun hsome => absurd hsome (by simp)
            | some key =>
              refine fun _ => ⟨hunforced, ?_⟩
              cases hset : T.environ "BUFFER_API_KEY" with
              | none => exact .vault (by rw [hset]; rfl) huri key List.mem_cons_self
              | some value =>
                rw [hset, Option.filter_some] at hkey
                obtain rfl : value = "" := by
                  by_contra hne
                  rw [if_pos (decide_eq_true hne)] at hkey
                  cases hkey
                exact .vault (by rw [hset]; rfl) huri key
                  (List.mem_cons_of_mem _ List.mem_cons_self)
          · exact fun hsome => absurd hsome (by simp)
  exact hresolve.bind fun secret l' _ h => h

/-- A tool with the document that is its own. -/
theorem sure_bufferTool (hmethod : request.method = "tools/call") {name fixtureName : String}
    (hname : Json.get request.params "name" = .str name) {arguments attribution : Object}
    (harguments : argumentsOf request.params = .obj arguments)
    (hdocument : (name, query, queryVariables) ∈ bufferDocuments T arguments) :
    (bufferTool T (isOn T header) fixtureName query queryVariables attribution).Sure
      (BufferAllowed T header request) (fun _ _ => True) (fun _ _ => True) [] := by
  refine (sure_bufferLive (fun _ => trivial) _).bind fun live l' _ hlive => ?_
  cases live with
  | false => exact Prog.Sure.step trivial fun fixture => trivial
  | true =>
    obtain ⟨hunforced, hkey⟩ := hlive rfl
    exact Prog.Sure.step ⟨hunforced, hmethod, hkey, ⟨name, arguments, hname, harguments, hdocument⟩,
      status_of_document hdocument⟩ fun data => trivial

theorem sure_bufferDispatch (hmethod : request.method = "tools/call") {name : String}
    (hname : Json.get request.params "name" = .str name) :
    (bufferDispatch T (isOn T header) name (argumentsOf request.params)).Sure
      (BufferAllowed T header request) (fun _ _ => True) (fun _ _ => True) [] := by
  refine sure_tableDispatch (fun _ _ => trivial) fun tool htool => ?_
  simp only [bufferTable, List.mem_cons, Prod.mk.injEq, List.not_mem_nil, or_false] at htool
  rcases htool with ⟨rfl, rfl⟩ | ⟨rfl, rfl⟩ | ⟨rfl, rfl⟩
  · refine sure_raising fun arguments harguments => ?_
    exact sure_bufferTool hmethod hname (asArguments_ok harguments) List.mem_cons_self
  · refine sure_raising fun arguments harguments => ?_
    exact sure_bufferTool hmethod hname (asArguments_ok harguments)
      (List.mem_cons_of_mem _ List.mem_cons_self)
  · refine sure_raising fun arguments harguments => ?_
    exact sure_bufferTool hmethod hname (asArguments_ok harguments)
      (List.mem_cons_of_mem _ (List.mem_cons_of_mem _ List.mem_cons_self))

/-- A request makes mcp-buffer send nothing but the document of the tool it calls, once, for a key
    that was found; a post that it creates is a draft, whatever the arguments are. -/
theorem buffer_posts_are_drafts
    (h : Asks (mcpEndpoint T bufferServer (bufferDispatch T) header request) l
      (.graphql query queryVariables authorization)) :
    Drafted T header request l query queryVariables authorization :=
  (sure_handle fun _ hmethod hname => sure_bufferDispatch hmethod hname).asks h

theorem draft_is_drafted : ∃ l queryVariables authorization,
    Drafted liveTools "" draftRequest l createDraftMutation queryVariables authorization := by
  have hsent : drafting.1[0]?.map Sigma.fst = some (.graphql createDraftMutation
      [("organizationId", .str "68e5f2187fe9a5263a3509ab"), ("channelId", .str "c"),
        ("text", .str "t"), ("status", .str "draft")] "Bearer key") := by decide +kernel
  exact ⟨_, _, _, buffer_posts_are_drafts (asks_transcript hsent)⟩

end Buffer

end CanvasOS.Mcp
