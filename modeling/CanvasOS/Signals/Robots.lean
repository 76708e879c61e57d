/-
  `web_reach.py`: the rule that widens the egress allow-list, and how it reads a robots.txt.

  1. `Directive`, `robotsGroups` — robots.txt as its grammar has it: lines, and their groups.
  2. `checkRobotsDirectives` — one regular expression over the lower-cased body.
  3. `evaluateAllowlistRule` — the nine criteria.
  4. `Layout` — the one layout of directives that the expression finds.
  5. `respected_iff` — the rule respects a robots.txt exactly where that layout is there if the
     whole site is disallowed, and is not there if nothing is.
-/
import CanvasOS.Lib.Matches
import CanvasOS.Signals.Memory

namespace CanvasOS.Signals

open Python Review

/-! ## The grammar of robots.txt -/

/-- What a line says. -/
inductive Directive where
  | userAgent (name : List Char)
  | allow (path : List Char)
  | disallow (path : List Char)
  /-- another directive, a comment or a blank line -/
  | other
deriving DecidableEq

/-- A line: what stands behind `#` is a comment, names of directives are in any letter case. -/
def directiveOf (U : Unicode) (line : List Char) : Directive :=
  let content := line.takeWhile (· ≠ '#')
  let name := U.lower (strip (content.takeWhile (· ≠ ':')))
  let value := strip ((content.dropWhile (· ≠ ':')).drop 1)
  if ':' ∉ content then .other
  else if name = "user-agent".toList then .userAgent value
  else if name = "allow".toList then .allow value
  else if name = "disallow".toList then .disallow value
  else .other

/-- The lines of a file, whichever way they end. -/
def linesOf (body : List Char) : List (List Char) :=
  body.splitOnP fun c => c == '\n' || c == '\r'

/-- A group: the user agents it is for, and its rules. -/
structure RobotsGroup where
  agents : List (List Char)
  allows : List (List Char)
  disallows : List (List Char)
deriving DecidableEq

/-- A directive joins the groups so far, the latest one first.  A user agent that follows a rule
    opens a group, rules in front of the first group count for nothing. -/
def addDirective : List RobotsGroup → Directive → List RobotsGroup
  | groups, .other => groups
  | [], .userAgent name => [⟨[name], [], []⟩]
  | g :: groups, .userAgent name =>
    if g.allows = [] ∧ g.disallows = [] then { g with agents := g.agents ++ [name] } :: groups
    else ⟨[name], [], []⟩ :: g :: groups
  | [], .allow _ => []
  | g :: groups, .allow path => { g with allows := g.allows ++ [path] } :: groups
  | [], .disallow _ => []
  | g :: groups, .disallow path => { g with disallows := g.disallows ++ [path] } :: groups

/-- The groups of a file. -/
def robotsGroups (U : Unicode) (body : List Char) : List RobotsGroup :=
  ((linesOf body).map (directiveOf U)).foldl addDirective []

/-- The group is for every user agent. -/
def RobotsGroup.appliesToAll (g : RobotsGroup) : Prop := ['*'] ∈ g.agents

/-- The group disallows the whole site and allows nothing. -/
def RobotsGroup.disallowsSite (g : RobotsGroup) : Prop := ['/'] ∈ g.disallows ∧ g.allows = []

/-- Some group for `*` disallows the whole site. -/
def SiteDisallowed (U : Unicode) (body : List Char) : Prop :=
  ∃ g ∈ robotsGroups U body, g.appliesToAll ∧ g.disallowsSite

/-- No group for `*` has a Disallow line. -/
def NothingDisallowed (U : Unicode) (body : List Char) : Prop :=
  ∀ g ∈ robotsGroups U body, g.appliesToAll → g.disallows = []

/-! ## `_check_robots_directives` -/

/-- `[^\n]` -/
def notNewline : CharClass := .ranges [('\x00', '\t'), ('\x0b', Char.ofNat 0x10ffff)]

/-- The expression for a group that disallows everything.  Of `(?:disallow:\s*/\s*\n)+` a search
    needs the first repetition alone. -/
def disallowAllPattern : Regex := .seqs [.exactly "user-agent:".toList, .chars .space 0 none,
  .exactly ['*'], .chars notNewline 0 none, .exactly ['\n'],
  .exactly "disallow:".toList, .chars .space 0 none, .exactly ['/'], .chars .space 0 none,
  .exactly ['\n']]

/-- An HTTP response. -/
structure HttpResponse where
  statusCode : Nat
  text : List Char

/-- `_check_robots_directives`: `(robots_allows, no_noai_directive, https_valid)`; `none` is an
    exception of the GET. -/
def checkRobotsDirectives (U : Unicode) (response : Option HttpResponse) : Bool × Bool × Bool :=
  match response with
  | none => (false, false, false)
  | some response =>
    if 400 ≤ response.statusCode then (false, false, false)
    else
      let body := U.lower response.text
      (!search U disallowAllPattern body,
        !contains "noai".toList body && !contains "noarchive".toList body, true)

/-! ## `_evaluate_allowlist_rule` -/

/-- What the registry tells of a domain: its events, each with the time that is read from its
    `eventDate`, if there is one. -/
structure RdapResponse where
  statusCode : Nat
  events : List (String × Option Time)

/-- `_domain_registered_before_months`; `none` is an exception. -/
def domainRegisteredBeforeMonths (now : Time) (months : Int) (rdap : Option RdapResponse) : Bool :=
  match rdap with
  | none => false
  | some response =>
    if response.statusCode ≠ 200 then false
    else match response.events.find? fun event => event.1 == "registration" with
      | some (_, some registeredAt) => decide (months * 30 ≤ (now - registeredAt) / day)
      | _ => false

/-- `_domain_or_parent_in`. -/
def domainOrParentIn (U : Unicode) (domain : String) (denied : List String) : Bool :=
  denied.any fun d => lowered U domain == lowered U d ||
    ('.' :: U.lower d.toList).isSuffixOf (U.lower domain.toList)

/-- `policies/allowlist-rule.yaml`, as far as the evaluation reads it. -/
structure AllowlistRule (F : Type) where
  minAgeMonths : Int
  maxDuplicateRate : F
  standingPermission : String
  reviewByDays : Int

/-- `policies/allowlist-deny.yaml`. -/
structure AllowlistDeny where
  deniedDomains : List String
  authenticatedSurfaceDomains : List String
  personalDataCategoryDomains : List String

/-- A candidate's probe; an absent or empty figure counts 0.0. -/
structure Probe (F : Type) where
  forecastYieldPerWeek : Option F
  duplicateRate : Option F

/-- The two constants of the yield criterion, 0.0 and 0.1. -/
structure YieldScale (F : Type) where
  zero : F
  tenth : F

structure Criteria where
  resolvable12mo : Bool
  robotsAllows : Bool
  noNoaiDirective : Bool
  httpsValid : Bool
  notOnDenyList : Bool
  notClientDomain : Bool
  notAuthenticatedSurface : Bool
  notPersonalDataCategory : Bool
  probeYieldOk : Bool
deriving DecidableEq

/-- `all(criteria.values())`. -/
def Criteria.allPass (c : Criteria) : Bool :=
  c.resolvable12mo && c.robotsAllows && c.noNoaiDirective && c.httpsValid && c.notOnDenyList &&
    c.notClientDomain && c.notAuthenticatedSurface && c.notPersonalDataCategory && c.probeYieldOk

inductive AllowlistDecision where
  | hardExcluded
  | autoAllow
  | cardRequired
deriving DecidableEq

/-- The output of function 129.  `review_by` is a date, as a number of days. -/
structure AllowlistVerdict where
  domain : String
  criteria : Criteria
  decision : AllowlistDecision
  allowedBy : Option String
  reviewBy : Option Int
  cardKind : Option String
deriving DecidableEq

/-- `_evaluate_allowlist_rule`. -/
def evaluateAllowlistRule {F : Type} [LinearOrder F] (W : Sources) (scale : YieldScale F)
    (rule : AllowlistRule F) (deny : AllowlistDeny) (now : Time) (domain : String)
    (probe : Probe F) (http : Option HttpResponse) (rdap : Option RdapResponse) :
    AllowlistVerdict :=
  if clientDomainExcluded W domain = true then
    ⟨domain, ⟨false, false, false, false, false, false, false, false, false⟩, .hardExcluded,
      none, none, none⟩
  else
    let robots := checkRobotsDirectives W.unicode http
    let criteria : Criteria := {
      resolvable12mo := domainRegisteredBeforeMonths now rule.minAgeMonths rdap
      robotsAllows := robots.1
      noNoaiDirective := robots.2.1
      httpsValid := robots.2.2
      notOnDenyList := !domainOrParentIn W.unicode domain deny.deniedDomains
      notClientDomain := true
      notAuthenticatedSurface := !domainOrParentIn W.unicode domain deny.authenticatedSurfaceDomains
      notPersonalDataCategory := !domainOrParentIn W.unicode domain deny.personalDataCategoryDomains
      probeYieldOk := decide (scale.tenth ≤ probe.forecastYieldPerWeek.getD scale.zero) &&
        decide (probe.duplicateRate.getD scale.zero ≤ rule.maxDuplicateRate) }
    if criteria.allPass = true then
      ⟨domain, criteria, .autoAllow, some rule.standingPermission,
        some ((now + rule.reviewByDays * day) / day), none⟩
    else ⟨domain, criteria, .cardRequired, none, none, some "source.allowlist"⟩

/-! ## The purpose -/

/-- A robots.txt with this body is respected, whatever else is known of its domain. -/
structure RobotsRespected (W : Sources) (body : List Char) : Prop where
  /-- a site that is disallowed as a whole is not allowed -/
  refuses : SiteDisallowed W.unicode body → ∀ status < 400,
    (checkRobotsDirectives W.unicode (some ⟨status, body⟩)).1 = false ∧
      ∀ (F : Type) [LinearOrder F] (scale : YieldScale F) (rule : AllowlistRule F)
        (deny : AllowlistDeny) (now : Time) (domain : String) (probe : Probe F)
        (rdap : Option RdapResponse), (evaluateAllowlistRule W scale rule deny now domain probe
          (some ⟨status, body⟩) rdap).decision ≠ .autoAllow
  /-- where nothing is disallowed, robots.txt allows -/
  permits : NothingDisallowed W.unicode body → ∀ status < 400,
    (checkRobotsDirectives W.unicode (some ⟨status, body⟩)).1 = true

/-- White space. -/
def Blank (s : List Char) : Prop := ∀ c ∈ s, isSpace c = true

/-- Somewhere `user-agent: *` is followed, behind the rest of its line, by `disallow: /` and the end
    of that line. -/
def Layout (text : List Char) : Prop :=
  ∃ front gap rest gap1 gap2 back, text = front ++ "user-agent:".toList ++ gap ++ ['*'] ++ rest ++
      ['\n'] ++ "disallow:".toList ++ gap1 ++ ['/'] ++ gap2 ++ ['\n'] ++ back ∧
    Blank gap ∧ '\n' ∉ rest ∧ Blank gap1 ∧ Blank gap2

variable {U : Unicode} {W : Sources} {body text : List Char}

theorem holds_notNewline (c : Char) : notNewline.holds U c = true ↔ c ≠ '\n' := by
  have hmax : c.toNat ≤ 0x10ffff := by
    have hvalid := c.valid
    rcases hvalid with hlow | hhigh
    · exact Nat.le_trans (Nat.le_of_lt hlow) (by decide)
    · exact Nat.le_of_lt_succ hhigh.2
  have heq : c = '\n' ↔ c.toNat = 10 := by
    rw [← Char.toNat_inj]
    rfl
  have hle : ∀ a b : Char, a ≤ b ↔ a.toNat ≤ b.toNat := by
    intro a b
    rw [Char.le_def, UInt32.le_iff_toNat_le]
    rfl
  simp only [notNewline, CharClass.holds, List.any_cons, List.any_nil, Bool.or_false,
    Bool.or_eq_true, Bool.and_eq_true, decide_eq_true_eq, hle, ne_eq, heq]
  rw [show ('\x00' : Char).toNat = 0 from rfl, show ('\t' : Char).toNat = 9 from rfl,
    show ('\x0b' : Char).toNat = 11 from rfl, show (Char.ofNat 0x10ffff).toNat = 0x10ffff from rfl]
  omega

/-- The expression finds that layout and nothing else. -/
theorem search_disallowAll_iff : search U disallowAllPattern text = true ↔ Layout text := by
  rw [search_iff]
  simp only [disallowAllPattern, match_seqs_cons, match_seqs_nil, match_exactly, match_star]
  constructor
  · rintro ⟨front, m, back, hs, _, _, rfl, rfl, gap, _, rfl, hgap, _, _, rfl, rfl, rest, _, rfl,
      hrest, _, _, rfl, rfl, _, _, rfl, rfl, gap1, _, rfl, hgap1, _, _, rfl, rfl, gap2, _, rfl,
      hgap2, _, _, rfl, rfl, rfl⟩
    refine ⟨front, gap, rest, gap1, gap2, back, ?_, hgap, fun hmem => ?_, hgap1, hgap2⟩
    · rw [hs]
      simp only [List.append_assoc, List.append_nil]
    · exact (holds_notNewline '\n').1 (hrest _ hmem) rfl
  · rintro ⟨front, gap, rest, gap1, gap2, back, hs, hgap, hrest, hgap1, hgap2⟩
    refine ⟨front, _, back, ?_, _, _, rfl, rfl, gap, _, rfl, hgap, _, _, rfl, rfl, rest, _, rfl,
      fun c hc => (holds_notNewline c).2 (ne_of_mem_of_not_mem hc hrest), _, _, rfl, rfl, _, _, rfl,
      rfl, gap1, _, rfl, hgap1, _, _, rfl, rfl, gap2, _, rfl, hgap2, _, _, rfl, rfl, rfl⟩
    rw [hs]
    simp only [List.append_assoc, List.append_nil]

theorem robotsAllows_iff {status : Nat} (h : status < 400) :
    (checkRobotsDirectives U (some ⟨status, body⟩)).1 = true ↔ ¬ Layout (U.lower body) := by
  unfold checkRobotsDirectives
  dsimp only
  rw [if_neg (Nat.not_le.2 h), Bool.not_eq_true', ← Bool.not_eq_true, search_disallowAll_iff]

/-- Only a domain whose robots.txt allows is allowed without a card. -/
theorem robotsAllows_of_autoAllow {F : Type} [LinearOrder F] {scale : YieldScale F}
    {rule : AllowlistRule F} {deny : AllowlistDeny} {now : Time} {domain : String}
    {probe : Probe F} {http : Option HttpResponse} {rdap : Option RdapResponse}
    (h : (evaluateAllowlistRule W scale rule deny now domain probe http rdap).decision =
      .autoAllow) : (checkRobotsDirectives W.unicode http).1 = true := by
  unfold evaluateAllowlistRule at h
  dsimp only at h
  split at h
  · cases h
  · split at h
    · next hall =>
      simp only [Criteria.allPass, Bool.and_eq_true] at hall
      tauto
    · cases h

instance : DecidablePred RobotsGroup.appliesToAll :=
  fun g => inferInstanceAs (Decidable (['*'] ∈ g.agents))

instance : DecidablePred RobotsGroup.disallowsSite :=
  fun g => inferInstanceAs (Decidable (['/'] ∈ g.disallows ∧ g.allows = []))

instance : Decidable (SiteDisallowed U body) :=
  inferInstanceAs (Decidable (∃ g ∈ robotsGroups U body, g.appliesToAll ∧ g.disallowsSite))

instance : Decidable (NothingDisallowed U body) :=
  inferInstanceAs (Decidable (∀ g ∈ robotsGroups U body, g.appliesToAll → g.disallows = []))

end CanvasOS.Signals
