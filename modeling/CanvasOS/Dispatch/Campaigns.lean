/-
  The campaign of a run: `get_or_create_campaign` of the Vault client, the list endpoint it reads,
  and the cache of each process.

  1. `getOrCreateCampaign` — the cache, the newest rows, a row of its own: three statements, and the
     handlers of all processes come in between.
  2. `Heeds` — what a call creates was missing among the rows it listed because there was no such
     row, and there is none since.
  3. `agreed` — in every run that heeds this there is one campaign of a name, every call returns it,
     and every cache names it.
-/
import CanvasOS.Lib.Part
import CanvasOS.Lib.Select
import CanvasOS.Lib.Trace

namespace CanvasOS.Campaigns

open Interleave Table

variable {κ : Type} [DecidableEq κ]

/-! ## The table and the caches -/

/-- A row of `campaigns`. -/
structure Campaign where
  id : String
  name : String
  createdAt : Int
deriving DecidableEq

/-- The table, and `_CAMPAIGN_ID_CACHE` of each process. -/
structure Db (κ : Type) where
  campaigns : List Campaign
  /-- `id uuid PRIMARY KEY` -/
  ids : (campaigns.map Campaign.id).Nodup
  cache : κ → String → Option String

/-- A table before any process has started. -/
def Db.initial (campaigns : List Campaign) (ids : (campaigns.map Campaign.id).Nodup) : Db κ :=
  ⟨campaigns, ids, fun _ _ => none⟩

/-- `ORDER BY created_at DESC` -/
def Campaign.age (row : Campaign) : Int := -row.createdAt

/-! ## The statements -/

inductive Op (κ : Type) where
  /-- `_CAMPAIGN_ID_CACHE.get(run_name)` -/
  | cached (process : κ) (runName : String)
  | listCampaigns (limit : Nat)
  | postCampaign (name anchor functionId : String)
  /-- `_CAMPAIGN_ID_CACHE[run_name] = campaign_id` -/
  | remember (process : κ) (runName campaignId : String)
deriving DecidableEq

@[reducible] def Op.Res : Op κ → Type
  | .cached .. => Option String
  | .listCampaigns _ => List Campaign
  | .postCampaign .. => Campaign
  | .remember .. => Unit

/-- One statement.  A new row gets an id that is not taken, and its `created_at` is when its
    transaction began; its anchor must be there. -/
def exec : (o : Op κ) → o.Res → Db κ → Option (o.Res × Db κ)
  | .cached process runName, _, db => some (db.cache process runName, db)
  | .listCampaigns limit, rows, db =>
    if FirstBy Campaign.age limit db.campaigns rows then some (rows, db) else none
  | .postCampaign name anchor _, row, db =>
    if h : row.id ∈ db.campaigns.map Campaign.id then none
    else if anchor ∈ db.campaigns.map Campaign.id then
      let created : Campaign := ⟨row.id, name, row.createdAt⟩
      some (created, { db with
        campaigns := created :: db.campaigns
        ids := by rw [List.map_cons]; exact List.nodup_cons.2 ⟨h, db.ids⟩ })
    else none
  | .remember process runName campaignId, _, db =>
    some ((), { db with
      cache := fun p n => if p = process ∧ n = runName then some campaignId else db.cache p n })

/-! ## The client -/

/-- `VaultClientExtError` -/
inductive ClientError where
  | http
  /-- there is no campaign to anchor the new one to -/
  | noAnchor
deriving DecidableEq

abbrev Client (κ : Type) := Prog (Op κ) Op.Res ClientError

def ask (o : Op κ) : Client κ o.Res := Prog.perform o

/-- `CAMPAIGN_LOOKUP_LIMIT` -/
def campaignLookupLimit : Nat := 500

structure Request (κ : Type) where
  process : κ
  runName : String
  functionId : String
deriving DecidableEq

/-- The row is created, anchored to the newest one. -/
def createCampaign (r : Request κ) : List Campaign → Client κ String
  | [] => throw .noAnchor
  | anchor :: _ => do
    let created : Campaign ← ask (.postCampaign r.runName anchor.id r.functionId)
    ask (.remember r.process r.runName created.id)
    pure created.id

/-- What is done where the cache has nothing. -/
def findOrCreateCampaign (r : Request κ) : Client κ String := do
  let existing : List Campaign ← ask (.listCampaigns campaignLookupLimit)
  match existing.find? fun row => row.name = r.runName with
  | some row => do
    ask (.remember r.process r.runName row.id)
    pure row.id
  | none => createCampaign r existing

/-- `get_or_create_campaign` -/
def getOrCreateCampaign (r : Request κ) : Client κ String := do
  let cached : Option String ← ask (.cached r.process r.runName)
  match cached with
  | some campaignId => pure campaignId
  | none => findOrCreateCampaign r

/-- Any number of calls in any processes, each of which may be started anew. -/
def calls (κ ι : Type) [DecidableEq κ] [DecidableEq ι] :
    Sys (Op κ) Op.Res ClientError (Db κ) ι (Request κ) String κ where
  body := getOrCreateCampaign
  enter _ _ db := some db
  run _ o a db := exec o a db
  env process db := some { db with
    cache := fun p n => if p = process then none else db.cache p n }

/-! ## What is promised -/

section Promise

variable {ι : Type}

abbrev Statement (κ ι : Type) := Event (Op κ) Op.Res (Db κ) ι

abbrev State (κ ι : Type) :=
  Config (Op κ) Op.Res ClientError (History (Op κ) Op.Res (Db κ) ι (Request κ)) ι (Request κ)
    String

/-- There is one campaign of the run, every call that has returned has returned it, and every cache
    names it. -/
structure Agreed (c : State κ ι) (runName : String) : Prop where
  same : ∀ i j r r' a b, c.result i = some (r, .ok a) → c.result j = some (r', .ok b) →
    r.runName = runName → r'.runName = runName → a = b
  unique : (c.shared.cur.campaigns.filter fun row => row.name = runName).length ≤ 1
  cached : ∀ process campaignId, c.shared.cur.cache process runName = some campaignId →
    ∃ row ∈ c.shared.cur.campaigns, row.id = campaignId ∧ row.name = runName

/-- A listing cannot miss the row: there are not too many that are as new. -/
def InReach (db : Db κ) (row : Campaign) : Prop :=
  (db.campaigns.filter fun r => row.createdAt ≤ r.createdAt).length ≤ campaignLookupLimit

/-- A call that creates the campaign of the run made its listing when no such campaign was out of
    reach, and none has been created since. -/
def Heeds (runName : String) (c : State κ ι) :
    Act (Op κ) Op.Res ClientError ι (Request κ) κ → Prop
  | .step i f => ∀ anchor functionId, c.next i = some (.postCampaign runName anchor functionId) →
      (f (.postCampaign runName anchor functionId)).executes = true →
      ∀ later e earlier, c.shared.log = later ++ e :: earlier → e.who = i →
        e.op = .listCampaigns campaignLookupLimit →
          (∀ row ∈ e.pre.campaigns, row.name = runName → InReach e.pre row) ∧
          ∀ x ∈ later, ∀ anchor functionId, x.op ≠ .postCampaign runName anchor functionId
  | _ => True

end Promise

/-! ## The statements, one by one -/

section Statements

variable {db db' : Db κ} {o : Op κ} {a b : o.Res} {process : κ} {runName campaignId : String}

theorem exec_listCampaigns {limit : Nat} {rows rows' : List Campaign}
    (h : exec (κ := κ) (.listCampaigns limit) rows db = some (rows', db')) :
    FirstBy Campaign.age limit db.campaigns rows' ∧ db' = db := by
  change (if FirstBy Campaign.age limit db.campaigns rows then some (rows, db) else none) =
    some (rows', db') at h
  split at h
  · next hrows =>
    obtain ⟨rfl, rfl⟩ := Prod.mk.inj (Option.some.inj h)
    exact ⟨hrows, rfl⟩
  · cases h

theorem exec_postCampaign {name anchor functionId : String} {row created : Campaign}
    (h : exec (κ := κ) (.postCampaign name anchor functionId) row db = some (created, db')) :
    created.name = name ∧ db'.campaigns = created :: db.campaigns ∧ db'.cache = db.cache := by
  simp only [exec] at h
  split at h
  · cases h
  · split at h
    · obtain ⟨rfl, rfl⟩ := Prod.mk.inj (Option.some.inj h)
      exact ⟨rfl, rfl, rfl⟩
    · cases h

/-- Only a POST changes the table, and it adds a row. -/
theorem exec_campaigns (h : exec o a db = some (b, db')) :
    db'.campaigns = db.campaigns ∨
      ∃ name anchor functionId created, o = .postCampaign name anchor functionId ∧
        created.name = name ∧ db'.campaigns = created :: db.campaigns := by
  cases o with
  | postCampaign name anchor functionId =>
    obtain ⟨hname, hrows, -⟩ := exec_postCampaign h
    exact .inr ⟨_, _, _, b, rfl, hname, hrows⟩
  | listCampaigns limit => exact .inl (congrArg Db.campaigns (exec_listCampaigns h).2)
  | _ => exact .inl (congrArg Db.campaigns (Prod.mk.inj (Option.some.inj h)).2).symm

/-- What a cache has, it had, or it is being stored. -/
theorem exec_cache (h : exec o a db = some (b, db'))
    (hcache : db'.cache process runName = some campaignId) :
    db.cache process runName = some campaignId ∨ o = .remember process runName campaignId := by
  cases o with
  | postCampaign name anchor functionId =>
    rw [(exec_postCampaign h).2.2] at hcache
    exact .inl hcache
  | listCampaigns limit =>
    rw [(exec_listCampaigns h).2] at hcache
    exact .inl hcache
  | cached p n =>
    rw [← (Prod.mk.inj (Option.some.inj h)).2] at hcache
    exact .inl hcache
  | remember p n stored =>
    rw [← (Prod.mk.inj (Option.some.inj h)).2] at hcache
    change (if process = p ∧ runName = n then some stored else db.cache process runName) = _
      at hcache
    split at hcache
    · next hsame =>
      obtain ⟨rfl, rfl⟩ := hsame
      exact .inr (by rw [Option.some.inj hcache])
    · exact .inl hcache

omit [DecidableEq κ] in
/-- A row within reach is listed. -/
theorem mem_of_inReach {rows : List Campaign} {row : Campaign}
    (h : FirstBy Campaign.age campaignLookupLimit db.campaigns rows) (hrow : row ∈ db.campaigns)
    (hreach : InReach db row) : row ∈ rows := by
  refine h.mem_of_few hrow (Nat.le_trans (Nat.le_of_eq ?_) hreach)
  unfold Campaign.age
  congr 2
  funext r
  rw [decide_eq_decide]
  omega

end Statements

/-! ## What a call knows -/

section Call

variable {log : Heard (Op κ) Op.Res} {r : Request κ} {o : Op κ} {a : o.Res} {campaignId : String}

/-- Where a call has the id from: the cache, the listing, or the row it created. -/
inductive Source (r : Request κ) (log : Heard (Op κ) Op.Res) (campaignId : String) : Prop
  | cache (h : ⟨.cached r.process r.runName, some campaignId⟩ ∈ log)
  | listing (rows : List Campaign) (row : Campaign)
    (h : ⟨.listCampaigns campaignLookupLimit, rows⟩ ∈ log) (hrow : row ∈ rows)
    (hname : row.name = r.runName) (hid : row.id = campaignId)
  | created (anchor functionId : String) (row : Campaign)
    (h : ⟨.postCampaign r.runName anchor functionId, row⟩ ∈ log) (hid : row.id = campaignId)

/-- A call stores what it knows, and creates what it did not find. -/
structure Honest (r : Request κ) (log : Heard (Op κ) Op.Res) : Prop where
  stored : ∀ process runName campaignId, ⟨.remember process runName campaignId, ()⟩ ∈ log →
    runName = r.runName ∧ Source r log campaignId
  missed : ∀ name anchor functionId created,
    ⟨.postCampaign name anchor functionId, created⟩ ∈ log → name = r.runName ∧
      ∃ rows, ⟨.listCampaigns campaignLookupLimit, rows⟩ ∈ log ∧
      ∀ row ∈ rows, row.name ≠ r.runName

omit [DecidableEq κ] in
theorem Source.cons (h : Source r log campaignId) : Source r (⟨o, a⟩ :: log) campaignId := by
  cases h with
  | cache h => exact .cache (List.mem_cons_of_mem _ h)
  | listing rows row h hrow hname hid =>
    exact .listing rows row (List.mem_cons_of_mem _ h) hrow hname hid
  | created anchor functionId row h hid =>
    exact .created anchor functionId row (List.mem_cons_of_mem _ h) hid

omit [DecidableEq κ] in
/-- A statement that neither stores nor creates. -/
theorem Honest.cons (h : Honest r log)
    (hremember : ∀ process runName campaignId, o ≠ .remember process runName campaignId)
    (hpost : ∀ name anchor functionId, o ≠ .postCampaign name anchor functionId) :
    Honest r (⟨o, a⟩ :: log) := by
  refine ⟨fun process runName campaignId hmem => ?_,
    fun name anchor functionId created hmem => ?_⟩
  · obtain ⟨hname, hsource⟩ := h.stored process runName campaignId
      ((List.mem_cons.1 hmem).resolve_left fun heq => hremember _ _ _ (Sigma.mk.inj heq).1.symm)
    exact ⟨hname, hsource.cons⟩
  · obtain ⟨hname, rows, hrows, hmissing⟩ := h.missed name anchor functionId created
      ((List.mem_cons.1 hmem).resolve_left fun heq => hpost _ _ _ (Sigma.mk.inj heq).1.symm)
    exact ⟨hname, rows, List.mem_cons_of_mem _ hrows, hmissing⟩

omit [DecidableEq κ] in
theorem Honest.remember (h : Honest r log) (hsource : Source r log campaignId) :
    Honest r (⟨.remember r.process r.runName campaignId, ()⟩ :: log) := by
  refine ⟨fun process runName campaignId' hmem => ?_,
    fun name anchor functionId created hmem => ?_⟩
  · rcases List.mem_cons.1 hmem with heq | hmem
    · obtain ⟨-, rfl, rfl⟩ := Op.remember.inj (Sigma.mk.inj heq).1
      exact ⟨rfl, hsource.cons⟩
    · obtain ⟨hname, hsource'⟩ := h.stored process runName campaignId' hmem
      exact ⟨hname, hsource'.cons⟩
  · obtain ⟨hname, rows, hrows, hmissing⟩ := h.missed name anchor functionId created
      ((List.mem_cons.1 hmem).resolve_left fun heq => nomatch (Sigma.mk.inj heq).1)
    exact ⟨hname, rows, List.mem_cons_of_mem _ hrows, hmissing⟩

omit [DecidableEq κ] in
theorem Honest.post {anchor functionId : String} {created : Campaign} {rows : List Campaign}
    (h : Honest r log) (hrows : ⟨.listCampaigns campaignLookupLimit, rows⟩ ∈ log)
    (hmissing : ∀ row ∈ rows, row.name ≠ r.runName) :
    Honest r (⟨.postCampaign r.runName anchor functionId, created⟩ :: log) := by
  refine ⟨fun process runName campaignId hmem => ?_,
    fun name anchor' functionId' created' hmem => ?_⟩
  · obtain ⟨hname, hsource⟩ := h.stored process runName campaignId
      ((List.mem_cons.1 hmem).resolve_left fun heq => nomatch (Sigma.mk.inj heq).1)
    exact ⟨hname, hsource.cons⟩
  · rcases List.mem_cons.1 hmem with heq | hmem
    · obtain ⟨rfl, -, -⟩ := Op.postCampaign.inj (Sigma.mk.inj heq).1
      exact ⟨rfl, rows, List.mem_cons_of_mem _ hrows, hmissing⟩
    · obtain ⟨hname, rows', hrows', hmissing'⟩ := h.missed name anchor' functionId' created' hmem
      exact ⟨hname, rows', List.mem_cons_of_mem _ hrows', hmissing'⟩

/-- What a call returns it knows. -/
def Returns (r : Request κ) (out : Except ClientError String) (log : Heard (Op κ) Op.Res) : Prop :=
  ∀ campaignId, out = .ok campaignId → Source r log campaignId

omit [DecidableEq κ] in
/-- The id is stored and returned. -/
theorem remember_upholds (h : Honest r log) (hsource : Source r log campaignId) :
    Upholds hear (Honest r)
      ((ask (.remember r.process r.runName campaignId)).bind fun _ => .pure campaignId)
      (Returns r) log := by
  refine Upholds.hear_bind h nofun fun _ => ⟨h.remember hsource, fun id hid => ?_⟩
  obtain rfl := Except.ok.inj hid
  exact hsource.cons

omit [DecidableEq κ] in
theorem createCampaign_upholds {rows : List Campaign} (h : Honest r log)
    (hrows : ⟨.listCampaigns campaignLookupLimit, rows⟩ ∈ log)
    (hmissing : ∀ row ∈ rows, row.name ≠ r.runName) :
    Upholds hear (Honest r) (createCampaign r rows) (Returns r) log := by
  cases rows with
  | nil => exact ⟨h, nofun⟩
  | cons anchor rows =>
    refine Upholds.hear_bind h nofun fun created => ?_
    exact remember_upholds (h.post hrows hmissing) (.created _ _ created List.mem_cons_self rfl)

omit [DecidableEq κ] in
theorem getOrCreateCampaign_upholds (r : Request κ) :
    Upholds hear (Honest r) (getOrCreateCampaign r) (Returns r) [] := by
  have hnil : Honest r [] := ⟨fun _ _ _ h => absurd h List.not_mem_nil,
    fun _ _ _ _ h => absurd h List.not_mem_nil⟩
  refine Upholds.hear_bind hnil nofun fun cached => ?_
  have hcached : Honest r [⟨.cached r.process r.runName, cached⟩] := hnil.cons nofun nofun
  cases cached with
  | some campaignId =>
    refine ⟨hcached, fun id hid => ?_⟩
    obtain rfl := Except.ok.inj hid
    exact .cache List.mem_cons_self
  | none =>
    refine Upholds.hear_bind hcached nofun fun rows => ?_
    have hlisted : Honest r [⟨.listCampaigns campaignLookupLimit, rows⟩,
        ⟨.cached r.process r.runName, none⟩] := hcached.cons nofun nofun
    have hrows : (⟨.listCampaigns campaignLookupLimit, rows⟩ : (o : Op κ) × o.Res) ∈
        [⟨.listCampaigns campaignLookupLimit, rows⟩, ⟨.cached r.process r.runName, none⟩] :=
      List.mem_cons_self
    cases hfind : rows.find? fun row => row.name = r.runName with
    | some row =>
      have hname : row.name = r.runName := by simpa using List.find?_some hfind
      refine remember_upholds hlisted ?_
      exact .listing rows row hrows (List.mem_of_find?_eq_some hfind) hname rfl
    | none =>
      refine createCampaign_upholds hlisted hrows fun row hrow hname => ?_
      exact List.find?_eq_none.1 hfind row hrow (decide_eq_true hname)

end Call

/-! ## What holds throughout a run -/

section Run

variable {ι : Type} [DecidableEq ι] {db db' : Db κ} {log : List (Statement κ ι)} {r : Request κ}
  {runName campaignId : String} {i : ι} {c : State κ ι}
  {ok : State κ ι → Act (Op κ) Op.Res ClientError ι (Request κ) κ → Prop}
  {campaigns : List Campaign} {ids : (campaigns.map Campaign.id).Nodup}

abbrev Runs (ok : State κ ι → Act (Op κ) Op.Res ClientError ι (Request κ) κ → Prop)
    (campaigns : List Campaign) (ids : (campaigns.map Campaign.id).Nodup) (c : State κ ι) : Prop :=
  (calls κ ι).recording.Reach ok (.idle ⟨.initial campaigns ids, [], []⟩) c

/-- The id is that of a row with this name. -/
def Db.Named (db : Db κ) (runName campaignId : String) : Prop :=
  ∃ row ∈ db.campaigns, row.id = campaignId ∧ row.name = runName

/-- No row has gone, and since any statement none has come that was not created. -/
structure Kept (db : Db κ) (log : List (Statement κ ι)) : Prop where
  rows : ∀ e ∈ log, ∀ row ∈ e.pre.campaigns, row ∈ db.campaigns
  since : ∀ later e earlier, log = later ++ e :: earlier → ∀ row ∈ db.campaigns,
    row ∈ e.pre.campaigns ∨ ∃ x ∈ later ++ [e], ∃ anchor functionId,
      x.op = .postCampaign row.name anchor functionId
  created : ∀ i name anchor functionId created pre,
    ⟨i, .postCampaign name anchor functionId, created, pre⟩ ∈ log →
      created ∈ db.campaigns ∧ created.name = name

omit [DecidableEq ι] in
/-- One statement. -/
theorem Kept.exec {o : Op κ} {a b : o.Res} (h : Kept db log) (hx : exec o a db = some (b, db')) :
    Kept db' (⟨i, o, b, db⟩ :: log) := by
  have hrows : ∀ row ∈ db.campaigns, row ∈ db'.campaigns := by
    intro row hrow
    rcases exec_campaigns hx with hsame | ⟨_, _, _, _, -, -, hadded⟩
    · rwa [hsame]
    · rw [hadded]
      exact List.mem_cons_of_mem _ hrow
  have hnew : ∀ row ∈ db'.campaigns, row ∈ db.campaigns ∨
      ∃ anchor functionId, o = .postCampaign row.name anchor functionId := by
    intro row hrow
    rcases exec_campaigns hx with hsame | ⟨name, anchor, functionId, created, ho, hname, hadded⟩
    · exact .inl (hsame ▸ hrow)
    · rw [hadded] at hrow
      rcases List.mem_cons.1 hrow with rfl | hrow
      · exact .inr ⟨anchor, functionId, hname ▸ ho⟩
      · exact .inl hrow
  refine ⟨fun e he row hrow => ?_, fun later e earlier heq row hrow => ?_,
    fun j name anchor functionId created pre hmem => ?_⟩
  · rcases List.mem_cons.1 he with rfl | he
    · exact hrows row hrow
    · exact hrows row (h.rows e he row hrow)
  · cases later with
    | nil =>
      obtain ⟨rfl, -⟩ := List.cons.inj heq
      rcases hnew row hrow with hold | ⟨anchor, functionId, ho⟩
      · exact .inl hold
      · exact .inr ⟨_, List.mem_singleton_self _, anchor, functionId, ho⟩
    | cons y later =>
      obtain ⟨rfl, hlog⟩ := List.cons.inj heq
      rcases hnew row hrow with hold | ⟨anchor, functionId, ho⟩
      · rcases h.since later e earlier hlog row hold with hpre | ⟨x, hx, hop⟩
        · exact .inl hpre
        · exact .inr ⟨x, List.mem_cons_of_mem _ hx, hop⟩
      · exact .inr ⟨_, List.mem_cons_self, anchor, functionId, ho⟩
  · rcases List.mem_cons.1 hmem with heq | hmem
    · cases heq
      obtain ⟨hname, hadded, -⟩ := exec_postCampaign hx
      rw [hadded]
      exact ⟨List.mem_cons_self, hname⟩
    · obtain ⟨hcreated, hname⟩ := h.created j name anchor functionId created pre hmem
      exact ⟨hrows created hcreated, hname⟩

theorem kept (hr : Runs ok campaigns ids c) : Kept c.shared.cur c.shared.log := by
  refine (hr.throughout (K := Kept) ?_ ?_ ?_ ?_).now
  · refine ⟨fun e he => absurd he List.not_mem_nil, fun later e earlier heq => ?_,
      fun _ _ _ _ _ _ h => absurd h List.not_mem_nil⟩
    cases later <;> cases heq
  · intro i r s t log hs h
    obtain rfl := Option.some.inj hs
    exact h
  · exact fun i o a b s t log hx h => h.exec hx
  · intro process s t log hs h
    obtain rfl := Option.some.inj hs
    exact ⟨h.rows, h.since, h.created⟩

/-- What a call knows while it runs, and what it returns. -/
theorem upholds_own (hr : Runs ok campaigns ids c) : ∀ i r p, c.thread i = some (r, some p) →
    Upholds hear (Honest r) p (Returns r) (c.shared.heard i) := by
  have hparted : Parted (calls κ ι).recording ok (fun i h => h.heard i) hear := recording_parted
  exact hr.upholds_part hparted (fun _ => rfl) getOrCreateCampaign_upholds

/-- What one act can do: no more than to empty caches, or one statement of one call. -/
theorem act_cases (c : State κ ι) (a : Act (Op κ) Op.Res ClientError ι (Request κ) κ) :
    (((calls κ ι).recording.exec c a).shared.log = c.shared.log ∧
      ((calls κ ι).recording.exec c a).shared.cur.campaigns = c.shared.cur.campaigns ∧
      ∀ p n campaignId,
        ((calls κ ι).recording.exec c a).shared.cur.cache p n = some campaignId →
          c.shared.cur.cache p n = some campaignId) ∨
    ∃ i f r o k x b, a = .step i f ∧ c.thread i = some (r, some (.op o k)) ∧
      (f o).executes = true ∧
      Campaigns.exec o x c.shared.cur = some (b, ((calls κ ι).recording.exec c a).shared.cur) ∧
      ((calls κ ι).recording.exec c a).shared.log = ⟨i, o, b, c.shared.cur⟩ :: c.shared.log := by
  let P (d : State κ ι) : Prop :=
    (d.shared.log = c.shared.log ∧ d.shared.cur.campaigns = c.shared.cur.campaigns ∧
      ∀ p n campaignId, d.shared.cur.cache p n = some campaignId →
        c.shared.cur.cache p n = some campaignId) ∨
    ∃ i f r o k x b, a = .step i f ∧ c.thread i = some (r, some (.op o k)) ∧
      (f o).executes = true ∧ Campaigns.exec o x c.shared.cur = some (b, d.shared.cur) ∧
      d.shared.log = ⟨i, o, b, c.shared.cur⟩ :: c.shared.log
  have hsame : P c := .inl ⟨rfl, rfl, fun _ _ _ h => h⟩
  refine Sys.exec_cases (P := P) a hsame ?_ ?_ ?_ ?_
  · rintro i r h - - hs
    obtain ⟨t, ht, rfl⟩ := Sys.recording_enter hs
    obtain rfl := Option.some.inj ht
    exact hsame
  · rintro i f r o k out h rfl hi hs
    rcases Sys.recording_apply hs with ⟨-, rfl⟩ | ⟨x, b, t, hexec, hx, rfl⟩
    · exact hsame
    · exact .inr ⟨i, f, r, o, k, x, b, rfl, hi, hexec, hx, rfl⟩
  · rintro i r p - -
    exact hsame
  · rintro process h - hs
    obtain ⟨t, ht, rfl⟩ := Sys.recording_env hs
    obtain rfl := Option.some.inj ht
    refine .inl ⟨rfl, rfl, fun p n campaignId hcache => ?_⟩
    change (if p = process then none else c.shared.cur.cache p n) = _ at hcache
    split at hcache
    · cases hcache
    · exact hcache

omit [DecidableEq κ] in
theorem Db.Named.mono (h : db.Named runName campaignId)
    (hrows : ∀ row ∈ db.campaigns, row ∈ db'.campaigns) : db'.Named runName campaignId := by
  obtain ⟨row, hrow, hid, hname⟩ := h
  exact ⟨row, hrows row hrow, hid, hname⟩

/-- Whatever a cache has, or has answered, is the id of a row with this name. -/
structure Cached (c : State κ ι) : Prop where
  has : ∀ process runName campaignId, c.shared.cur.cache process runName = some campaignId →
    c.shared.cur.Named runName campaignId
  answered : ∀ i process runName campaignId pre,
    ⟨i, .cached process runName, some campaignId, pre⟩ ∈ c.shared.log →
      c.shared.cur.Named runName campaignId

/-- So is whatever a call knows. -/
theorem Cached.named_of_source (h : Cached c) (hr : Runs ok campaigns ids c)
    (hsource : Source r (c.shared.heard i) campaignId) :
    c.shared.cur.Named r.runName campaignId := by
  have hkept := kept hr
  cases hsource with
  | cache hmem =>
    obtain ⟨pre, hmem⟩ := History.mem_heard.1 hmem
    exact h.answered i _ _ _ pre hmem
  | listing rows row hmem hrow hname hid =>
    obtain ⟨pre, hmem⟩ := History.mem_heard.1 hmem
    obtain ⟨x, t, hx⟩ := hr.recording_ran _ hmem
    exact ⟨row, hkept.rows _ hmem row ((exec_listCampaigns hx).1.mem row hrow), hid, hname⟩
  | created anchor functionId row hmem hid =>
    obtain ⟨pre, hmem⟩ := History.mem_heard.1 hmem
    obtain ⟨hrow, hname⟩ := hkept.created i _ _ _ row pre hmem
    exact ⟨row, hrow, hid, hname⟩

omit [DecidableEq κ] in
/-- What a call stores it knew before. -/
theorem Source.before_remember {log : Heard (Op κ) Op.Res} {process : κ} {stored : String}
    (h : Source r (⟨.remember process runName stored, ()⟩ :: log) campaignId) :
    Source r log campaignId := by
  have hne {o : Op κ} {a : o.Res} (hmem : (⟨o, a⟩ : (o : Op κ) × o.Res) ∈
      (⟨.remember process runName stored, ()⟩ : (o : Op κ) × o.Res) :: log)
      (ho : o ≠ .remember process runName stored) : ⟨o, a⟩ ∈ log :=
    (List.mem_cons.1 hmem).resolve_left fun heq => ho (Sigma.mk.inj heq).1
  cases h with
  | cache h => exact .cache (hne h nofun)
  | listing rows row h hrow hname hid => exact .listing rows row (hne h nofun) hrow hname hid
  | created anchor functionId row h hid => exact .created anchor functionId row (hne h nofun) hid

theorem cached (hr : Runs ok campaigns ids c) : Cached c := by
  have h₀ : Cached (.idle ⟨.initial campaigns ids, [], []⟩ : State κ ι) :=
    ⟨nofun, fun _ _ _ _ _ h => absurd h List.not_mem_nil⟩
  refine hr.invariant h₀ fun c a hr h _ => ?_
  rcases act_cases c a with ⟨hlog, hrows, hcache⟩ | ⟨i, f, r, o, k, x, b, -, hi, -, hx, hlog⟩
  · have hnamed {runName campaignId : String} (hn : c.shared.cur.Named runName campaignId) :
        ((calls κ ι).recording.exec c a).shared.cur.Named runName campaignId :=
      hn.mono fun row hrow => by rwa [hrows]
    refine ⟨fun p n campaignId hp => hnamed (h.has p n campaignId (hcache p n campaignId hp)), ?_⟩
    rw [hlog]
    exact fun i p n campaignId pre hmem => hnamed (h.answered i p n campaignId pre hmem)
  · have hnamed {runName campaignId : String} (hn : c.shared.cur.Named runName campaignId) :
        ((calls κ ι).recording.exec c a).shared.cur.Named runName campaignId := by
      refine hn.mono fun row hrow => ?_
      rcases exec_campaigns hx with hsame | ⟨_, _, _, _, -, -, hadded⟩
      · rwa [hsame]
      · rw [hadded]
        exact List.mem_cons_of_mem _ hrow
    refine ⟨fun p n campaignId hp => ?_, fun j p n campaignId pre hmem => ?_⟩
    · rcases exec_cache hx hp with hold | rfl
      · exact hnamed (h.has p n campaignId hold)
      · -- what is stored is known
        have hnext := ((upholds_own hr i r _ hi).2.2 () () _ rfl).1.inv
        obtain ⟨rfl, hsource⟩ := hnext.stored p n campaignId List.mem_cons_self
        exact hnamed (h.named_of_source hr hsource.before_remember)
    · rw [hlog] at hmem
      rcases List.mem_cons.1 hmem with heq | hmem
      · -- what is answered is in the cache
        cases heq
        exact hnamed (h.has p n campaignId (Prod.mk.inj (Option.some.inj hx)).1)
      · exact hnamed (h.answered j p n campaignId pre hmem)

/-! ## In runs that heed the rules -/

/-- No two rows have this name. -/
def Unique (runName : String) (rows : List Campaign) : Prop :=
  ∀ row ∈ rows, ∀ row' ∈ rows, row.name = runName → row'.name = runName → row = row'

/-- A call creates the row only where there is none. -/
theorem missing_of_post (hr : Runs (Heeds runName) campaigns ids c) {f anchor functionId k}
    (ha : Heeds runName c (.step i f))
    (hi : c.thread i = some (r, some (.op (.postCampaign runName anchor functionId) k)))
    (hexec : (f (.postCampaign runName anchor functionId)).executes = true) :
    ∀ row ∈ c.shared.cur.campaigns, row.name ≠ runName := by
  intro row hrow hname
  -- its listing did not have the row
  have hnext := ((upholds_own hr i r _ hi).2.2 ⟨"", "", 0⟩ ⟨"", "", 0⟩ _ rfl).1.inv
  obtain ⟨hrun, rows, hrows, hmissing⟩ := hnext.missed _ _ _ _ List.mem_cons_self
  have hrows := (List.mem_cons.1 hrows).resolve_left fun heq => nomatch (Sigma.mk.inj heq).1
  obtain ⟨pre, hmem⟩ := History.mem_heard.1 hrows
  obtain ⟨later, earlier, hsplit⟩ := List.append_of_mem hmem
  have hop : c.next i = some (.postCampaign runName anchor functionId) := by
    unfold Config.next
    rw [hi]
  obtain ⟨hreach, hnone⟩ := ha anchor functionId hop hexec later _ earlier hsplit rfl rfl
  -- and none has been created since
  rcases (kept hr).since later _ earlier hsplit row hrow with hpre | ⟨x, hx, a', f', hxop⟩
  · obtain ⟨x, t, hx⟩ := hr.recording_ran _ hmem
    have hlisted := mem_of_inReach (exec_listCampaigns hx).1 hpre (hreach row hpre hname)
    exact hmissing row hlisted (hname.trans hrun)
  · rw [hname] at hxop
    rcases List.mem_append.1 hx with hx | hx
    · exact hnone x hx a' f' hxop
    · rw [List.mem_singleton.1 hx] at hxop
      cases hxop

theorem unique (h₀ : Unique runName campaigns) (hr : Runs (Heeds runName) campaigns ids c) :
    Unique runName c.shared.cur.campaigns := by
  let P (c : State κ ι) : Prop := Unique runName c.shared.cur.campaigns
  have hinit : P (.idle ⟨.initial campaigns ids, [], []⟩) := h₀
  refine hr.invariant hinit fun c a hr h ha => ?_
  show Unique runName _
  rcases act_cases c a with ⟨-, hrows, -⟩ | ⟨i, f, r, o, k, x, b, rfl, hi, hexec, hx, -⟩
  · rwa [hrows]
  · rcases exec_campaigns hx with hsame | ⟨name, anchor, functionId, created, rfl, hname, hadded⟩
    · rwa [hsame]
    · rw [hadded]
      by_cases hrun : name = runName
      · subst hrun
        have hmissing := missing_of_post hr ha hi hexec
        intro row hrow row' hrow' hn hn'
        rcases List.mem_cons.1 hrow with rfl | hrow
        · rcases List.mem_cons.1 hrow' with rfl | hrow'
          · rfl
          · exact absurd hn' (hmissing row' hrow')
        · exact absurd hn (hmissing row hrow)
      · have hother : created.name ≠ runName := fun h => hrun (hname.symm.trans h)
        intro row hrow row' hrow' hn hn'
        have hold {x : Campaign} (hx : x ∈ created :: c.shared.cur.campaigns)
            (hn : x.name = runName) : x ∈ c.shared.cur.campaigns :=
          (List.mem_cons.1 hx).resolve_left fun heq => hother (heq ▸ hn)
        exact h row (hold hrow hn) row' (hold hrow' hn') hn hn'

theorem unique_iff (ids : (campaigns.map Campaign.id).Nodup) : Unique runName campaigns ↔
    (campaigns.filter fun row => row.name = runName).length ≤ 1 := by
  have hmem {row : Campaign} : row ∈ campaigns.filter (fun row => row.name = runName) ↔
      row ∈ campaigns ∧ row.name = runName := by
    rw [List.mem_filter, decide_eq_true_iff]
  have hnodup : (campaigns.filter fun row => row.name = runName).Nodup :=
    (List.Nodup.of_map _ ids).filter _
  cases hrows : campaigns.filter fun row => row.name = runName with
  | nil =>
    rw [hrows] at hmem
    exact ⟨fun _ => Nat.zero_le _, fun _ row hrow _ _ hn => absurd (hmem.2 ⟨hrow, hn⟩)
      List.not_mem_nil⟩
  | cons first rest =>
    rw [hrows] at hmem hnodup
    cases rest with
    | nil =>
      refine ⟨fun _ => Nat.le_refl _, fun _ row hrow row' hrow' hn hn' => ?_⟩
      rw [List.mem_singleton.1 (hmem.2 ⟨hrow, hn⟩), List.mem_singleton.1 (hmem.2 ⟨hrow', hn'⟩)]
    | cons second rest =>
      refine ⟨fun h => ?_, fun h => absurd h (by simp)⟩
      obtain ⟨hfirst, hn⟩ := hmem.1 List.mem_cons_self
      obtain ⟨hsecond, hn'⟩ := hmem.1 (List.mem_cons_of_mem _ List.mem_cons_self)
      have heq := h first hfirst second hsecond hn hn'
      exact absurd (heq ▸ List.mem_cons_self) (List.nodup_cons.1 hnodup).1

/-- What has been returned is the id of a row with the name of the run. -/
theorem named_of_result (hr : Runs ok campaigns ids c) (h : c.result i = some (r, .ok campaignId)) :
    c.shared.cur.Named r.runName campaignId := by
  have hup := upholds_own hr i r _ (Config.thread_of_result_ok h)
  exact (cached hr).named_of_source hr (hup.2 campaignId rfl)

/-- Where there is at most one campaign of the run at the start, and whoever creates one heeds the
    rules, all calls agree. -/
theorem agreed (h₀ : (campaigns.filter fun row => row.name = runName).length ≤ 1)
    (hr : Runs (Heeds runName) campaigns ids c) : Agreed c runName := by
  have hunique : Unique runName c.shared.cur.campaigns := unique ((unique_iff ids).2 h₀) hr
  refine ⟨fun i j r r' a b hi hj hname hname' => ?_, (unique_iff c.shared.cur.ids).1 hunique,
    fun process campaignId => (cached hr).has process runName campaignId⟩
  obtain ⟨row, hrow, rfl, hn⟩ := named_of_result hr hi
  obtain ⟨row', hrow', rfl, hn'⟩ := named_of_result hr hj
  rw [hunique row hrow row' hrow' (hn.trans hname) (hn'.trans hname')]

end Run

/-! ### Two processes

    The table has one campaign, which is not theirs. -/

def seed : Campaign := ⟨"seed", "seed", 0⟩

/-- Every statement succeeds; a listing finds these rows, and this row is created. -/
def replying (rows : List Campaign) (created : Campaign) : ∀ o : Op Nat, Reply ClientError o.Res
  | .cached .. => .ok none
  | .listCampaigns _ => .ok rows
  | .postCampaign .. => .ok created
  | .remember .. => .ok ()

/-- A call of this process, for the run of today. -/
def today (process : Nat) : Request Nat := ⟨process, "run-today", "FN-01"⟩

abbrev begun : State Nat Nat :=
  .idle ⟨.initial [seed] (List.nodup_singleton _), [], []⟩

def rowOf (id : String) : Campaign := ⟨id, "run-today", 1⟩

/-- Both look before either creates. -/
def bothLook : List (Act (Op Nat) Op.Res ClientError Nat (Request Nat) Nat) :=
  [.enter 0 (today 0), .enter 1 (today 1), .step 0 (replying [seed] (rowOf "a")),
    .step 1 (replying [seed] (rowOf "b")), .step 0 (replying [seed] (rowOf "a")),
    .step 1 (replying [seed] (rowOf "b")), .step 0 (replying [seed] (rowOf "a")),
    .step 1 (replying [seed] (rowOf "b")), .step 0 (replying [seed] (rowOf "a")),
    .step 1 (replying [seed] (rowOf "b"))]

/-- The run has two campaigns, and each process goes on with its own. -/
theorem bothLook_disagree : ∃ c : State Nat Nat,
    Runs Sys.free [seed] (List.nodup_singleton _) c ∧
      c.result 0 = some (today 0, .ok "a") ∧ c.result 1 = some (today 1, .ok "b") ∧
      c.shared.cur.campaigns.map Campaign.name = ["run-today", "run-today", "seed"] ∧
      ¬ Agreed c "run-today" := by
  refine ⟨bothLook.foldl (calls Nat Nat).recording.exec begun, Sys.Reach.init.foldl_free _, rfl,
    rfl, rfl, fun h => ?_⟩
  have hsame := h.same 0 1 (today 0) (today 1) "a" "b" rfl rfl rfl rfl
  exact absurd hsame (by decide)

/-- The second looks when the first has created. -/
def oneByOne : List (Act (Op Nat) Op.Res ClientError Nat (Request Nat) Nat) :=
  [.enter 0 (today 0), .step 0 (replying [seed] (rowOf "a")), .step 0 (replying [seed] (rowOf "a")),
    .step 0 (replying [seed] (rowOf "a")), .step 0 (replying [seed] (rowOf "a")),
    .enter 1 (today 1), .step 1 (replying [rowOf "a", seed] (rowOf "b")),
    .step 1 (replying [rowOf "a", seed] (rowOf "b")),
    .step 1 (replying [rowOf "a", seed] (rowOf "b"))]

theorem oneByOne_heeds : Runs (Heeds "run-today") [seed] (List.nodup_singleton _)
    (oneByOne.foldl (calls Nat Nat).recording.exec begun) := by
  refine Sys.Reach.foldl oneByOne .init fun n => ?_
  match n with
  | ⟨0, _⟩ | ⟨5, _⟩ => exact True.intro
  | ⟨1, _⟩ | ⟨2, _⟩ | ⟨4, _⟩ | ⟨6, _⟩ | ⟨7, _⟩ | ⟨8, _⟩ =>
    exact fun anchor functionId h => nomatch Option.some.inj h
  | ⟨3, _⟩ =>
    rintro anchor functionId - - later e earlier heq - hop
    cases later with
    | nil =>
      obtain ⟨rfl, -⟩ := List.cons.inj heq
      refine ⟨fun row _ _ => ?_, fun x hx => absurd hx List.not_mem_nil⟩
      exact Nat.le_trans (List.length_filter_le _ [seed]) (by decide)
    | cons x later =>
      -- the statement before the listing looked into the cache
      obtain ⟨-, heq⟩ := List.cons.inj heq
      cases later with
      | nil =>
        obtain ⟨rfl, -⟩ := List.cons.inj heq
        cases hop
      | cons y later =>
        obtain ⟨-, heq⟩ := List.cons.inj heq
        cases later <;> cases heq
  | ⟨n + 9, h⟩ =>
    have hlength : oneByOne.length = 9 := rfl
    omega

/-- It finds the campaign of the first. -/
theorem oneByOne_agreed :
    (oneByOne.foldl (calls Nat Nat).recording.exec begun).result 1 = some (today 1, .ok "a") ∧
      Agreed (oneByOne.foldl (calls Nat Nat).recording.exec begun) "run-today" :=
  ⟨rfl, agreed (by decide) oneByOne_heeds⟩

end CanvasOS.Campaigns
