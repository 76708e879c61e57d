/-
  The redaction rules on what `_as_text` serialises (`redaction.py`, redaction-rules.yaml).

  1. `redactionPatterns` — the rules of the file, as regular expressions.
  2. `Blocks` — the scan finds a rule, where each search is answered as `re.search` answers it.
  3. `heard` — what of a request a rule can match: a content that is a string as it stands, and of
     anything else the strings as JSON escapes them and the numbers.  No match crosses a quote or
     a comma of the JSON text (`blocks_iff`).
  4. `seesThrough_iff` — so a string that a rule matches blocks its request only where something
     is still matched once it is escaped.  An identity number behind a line break is not: the `n`
     of `\n` is a word character (`multiline_unseen`).
-/
import CanvasOS.Gateway.Rejection
import CanvasOS.Lib.JsonSearch

namespace CanvasOS.Gateway

open Interleave Python

/-! ## The rules -/

/-- `[A-Z]`, `[a-z]`, `[A-Za-z]` and one character. -/
def capital : CharClass := .ranges [('A', 'Z')]
def small : CharClass := .ranges [('a', 'z')]
def letter : CharClass := .ranges [('A', 'Z'), ('a', 'z')]
def exactly (c : Char) : Regex := .one (.ranges [(c, c)])

/-- `\b[A-Z][a-z]{1,}\s+[A-Z][a-z]{1,}\b` -/
def fullNameLike : Regex :=
  .seqs [.boundary, .one capital, .chars small 1 none, .chars .space 1 none, .one capital,
    .chars small 1 none, .boundary]

/-- `\b[A-Za-z0-9._%+-]+@[A-Za-z0-9.-]+\.[A-Za-z]{2,}\b` -/
def emailAddress : Regex :=
  .seqs [.boundary,
    .chars (.ranges [('A', 'Z'), ('a', 'z'), ('0', '9'), ('.', '.'), ('_', '_'), ('%', '%'),
      ('+', '+'), ('-', '-')]) 1 none,
    exactly '@',
    .chars (.ranges [('A', 'Z'), ('a', 'z'), ('0', '9'), ('.', '.'), ('-', '-')]) 1 none,
    exactly '.', .chars letter 2 none, .boundary]

/-- `(\+27|\b0)\s?\d{2}\s?\d{3}\s?\d{4}\b` -/
def saPhoneNumber : Regex :=
  .seqs [.choice (.seqs [exactly '+', exactly '2', exactly '7']) (.seqs [.boundary, exactly '0']),
    .chars .space 0 (some 1), .chars .digit 2 (some 2), .chars .space 0 (some 1),
    .chars .digit 3 (some 3), .chars .space 0 (some 1), .chars .digit 4 (some 4), .boundary]

/-- `\b\d{13}\b` -/
def saIdNumber : Regex := .seqs [.boundary, .chars .digit 13 (some 13), .boundary]

/-- The rules by their ids: the expressions, then the fixtures as literals. -/
def redactionPatterns : List (String × Regex) :=
  [("full-name-like", fullNameLike), ("email-address", emailAddress),
    ("sa-phone-number", saPhoneNumber), ("sa-id-number", saIdNumber),
    ("fixture:client_names:0", .literal "Acme Client Ltd"),
    ("fixture:client_names:1", .literal "Thabo Nkosi"),
    ("fixture:emails:0", .literal "thabo.nkosi@example.co.za")]

example : redactionPatterns.map Prod.fst = (compile repositoryRules).map Prod.fst := by
  decide +kernel

/-- No rule matches across the marks of JSON. -/
theorem sealed_patterns {U : Unicode} (hU : U.AsciiLike) :
    ∀ p ∈ redactionPatterns, Sealed U p.2 := by
  have hall : redactionPatterns.all (fun p => p.2.isAscii &&
      ((' ' :: jsonMarks).all fun c => !Unicode.ascii.word c) &&
      (jsonMarks.all fun c => !p.2.takes Unicode.ascii c) &&
      !p.2.opens Unicode.ascii ' ' && !search Unicode.ascii p.2 [] &&
      (["null", "true", "false"].all fun s => !search Unicode.ascii p.2 s.toList)) = true := by
    decide +kernel
  intro p hp
  have hpattern := List.all_eq_true.1 hall p hp
  simp only [Bool.and_eq_true, Bool.not_eq_true', List.all_eq_true] at hpattern
  obtain ⟨⟨⟨⟨⟨hascii, hword⟩, htakes⟩, hopens⟩, hempty⟩, hconstants⟩ := hpattern
  exact .of_ascii hU hascii ⟨hword, htakes, hopens, hempty, hconstants⟩

/-! ## The scan -/

section Scan

variable (U : Unicode) (exempt : List String)

/-- The rule with this id matches the text. -/
def found (patternId text : String) : Bool :=
  redactionPatterns.any fun p => p.1 == patternId && search U p.2 text.toList

/-- Searches are answered as `re.search` answers them. -/
def searchReply : ∀ o : GatewayOp, Reply GatewayExc o.Res
  | .search patternId text => .ok (found U patternId text)
  | _ => .failed (.collaborator "not called")

/-- `scan_request(payload, exempt_pattern_ids=exempt)`: the pattern that is reported. -/
def scanResult (payload : List (String × Json)) : Except GatewayExc (Option String) :=
  ((scanRequest payload (redactionPatterns.map Prod.fst) exempt).converse (searchReply U) []).1

/-- The scan blocks the request. -/
def Blocks (payload : List (String × Json)) : Prop :=
  ∃ patternId, scanResult U exempt payload = .ok (some patternId)

/-- A rule that is not exempt matches the text. -/
def Matched (s : List Char) : Prop :=
  ∃ p ∈ redactionPatterns, p.1 ∉ exempt ∧ search U p.2 s = true

/-- The first of the rules that matches the text. -/
def firstFound (ids : List String) (text : String) : Option String := ids.find? (found U · text)

end Scan

section Answers

variable {U : Unicode} {exempt ids : List String} {payload : List (String × Json)}
  {log : List GatewayTurn}

theorem firstMatch_answers (t : String) :
    ((firstMatch t ids).converse (searchReply U) log).1 = .ok (firstFound U ids t) := by
  induction ids generalizing log with
  | nil => rfl
  | cons patternId rest ih =>
    show (Prog.converse (searchReply U) (if found U patternId t = true then _ else _) _).1 = _
    unfold firstFound
    cases hfound : found U patternId t with
    | true =>
      rw [List.find?_cons_of_pos (p := fun x => found U x t) hfound]
      rfl
    | false =>
      rw [List.find?_cons_of_neg (p := fun x => found U x t) (by simp [hfound])]
      exact ih

theorem scanMessages_answers (messages : List Json) :
    ((scanMessages ids messages).converse (searchReply U) log).1 =
      .ok (((messages.filterMap scannedContent).map asText).findSome? (firstFound U ids)) := by
  induction messages generalizing log with
  | nil => rfl
  | cons m rest ih =>
    unfold scanMessages
    cases hm : scannedContent m with
    | none =>
      rw [List.filterMap_cons_none hm]
      exact ih
    | some content =>
      rw [List.filterMap_cons_some hm, List.map_cons]
      show (((firstMatch (asText content) ids).bind _).converse _ _).1 = _
      rw [Prog.converse_bind _ _ _ _ (firstMatch_answers (asText content))]
      cases hfirst : firstFound U ids (asText content) with
      | some patternId =>
        rw [List.findSome?_cons, hfirst]
        rfl
      | none =>
        rw [List.findSome?_cons, hfirst]
        exact ih

theorem scanRequest_answers : scanResult U exempt payload = .ok ((scanTexts payload).findSome?
    (firstFound U ((redactionPatterns.map Prod.fst).filter (· ∉ exempt)))) := by
  unfold scanResult scanRequest scanTexts
  show (((scanMessages _ (messagesOf payload)).bind _).converse _ _).1 = _
  rw [Prog.converse_bind _ _ _ _ (scanMessages_answers (messagesOf payload)),
    List.findSome?_append]
  cases List.findSome? _ (((messagesOf payload).filterMap scannedContent).map asText) with
  | some patternId => rfl
  | none =>
    show (Prog.converse _ (if Json.truthy (Json.get payload "tools") = true then _ else _) _).1 = _
    split
    · rw [firstMatch_answers]
      simp
    · rfl

theorem firstFound_eq_some_iff {t : String} :
    (∃ patternId, firstFound U ((redactionPatterns.map Prod.fst).filter (· ∉ exempt)) t =
      some patternId) ↔ Matched U exempt t.toList := by
  constructor
  · rintro ⟨patternId, h⟩
    have hfound : found U patternId t = true :=
      List.find?_some (p := fun x => found U x t) h
    have hexempt := (List.mem_filter.1 (List.mem_of_find?_eq_some h)).2
    obtain ⟨p, hp, hsearch⟩ := List.any_eq_true.1 hfound
    rw [Bool.and_eq_true, beq_iff_eq] at hsearch
    obtain ⟨rfl, hsearch⟩ := hsearch
    exact ⟨p, hp, of_decide_eq_true hexempt, hsearch⟩
  · rintro ⟨p, hp, hexempt, hsearch⟩
    have hmem : p.1 ∈ (redactionPatterns.map Prod.fst).filter (· ∉ exempt) :=
      List.mem_filter.2 ⟨List.mem_map_of_mem hp, decide_eq_true hexempt⟩
    have hfound : found U p.1 t = true :=
      List.any_eq_true.2 ⟨p, hp, by rw [Bool.and_eq_true]; exact ⟨beq_self_eq_true _, hsearch⟩⟩
    exact Option.isSome_iff_exists.1 (List.find?_isSome.2 ⟨p.1, hmem, hfound⟩)

/-- The scan blocks just where a rule matches one of the texts. -/
theorem blocks_iff_texts :
    Blocks U exempt payload ↔ ∃ t ∈ scanTexts payload, Matched U exempt t.toList := by
  unfold Blocks
  rw [scanRequest_answers]
  constructor
  · rintro ⟨patternId, h⟩
    obtain ⟨t, ht, hfirst⟩ := List.exists_of_findSome?_eq_some (Except.ok.inj h)
    exact ⟨t, ht, firstFound_eq_some_iff.1 ⟨patternId, hfirst⟩⟩
  · rintro ⟨t, ht, hmatched⟩
    obtain ⟨patternId, hfirst⟩ := firstFound_eq_some_iff.2 hmatched
    have hsome := List.findSome?_isSome_iff.2
      ⟨t, ht, Option.isSome_iff_exists.2 ⟨patternId, hfirst⟩⟩
    obtain ⟨patternId', h⟩ := Option.isSome_iff_exists.1 hsome
    exact ⟨patternId', by rw [h]⟩

end Answers

/-! ## What is heard -/

/-- What of a value a rule can match. -/
def audible : Json → List (List Char)
  | .str s => [s.toList]
  | v => atoms v

/-- The contents that are scanned. -/
def contentsOf (payload : List (String × Json)) : List Json :=
  (messagesOf payload).filterMap scannedContent

/-- What of a request a rule can match. -/
def heard (payload : List (String × Json)) : List (List Char) :=
  (contentsOf payload).flatMap audible ++
    if Json.truthy (Json.get payload "tools") then audible (Json.get payload "tools") else []

def isString : Json → Bool
  | .str _ => true
  | _ => false

/-- What is serialised before it is scanned: the contents that are not strings, and the tools. -/
def serialised (payload : List (String × Json)) : List Json :=
  (contentsOf payload).filter (fun v => !isString v) ++ [Json.get payload "tools"]

/-- A request with a string that a rule matches in what is serialised is blocked. -/
def SeesThrough (U : Unicode) (exempt : List String) (payload : List (String × Json)) : Prop :=
  ∀ v ∈ serialised payload, ∀ s ∈ strings v, Matched U exempt s.toList → Blocks U exempt payload

section Heard

variable {U : Unicode} (hU : U.AsciiLike) {exempt : List String} {payload : List (String × Json)}

include hU

/-- No match crosses from one piece of a JSON text into another. -/
theorem matched_asText (v : Json) :
    Matched U exempt (asText v).toList ↔ ∃ t ∈ audible v, Matched U exempt t := by
  have hserialised : Matched U exempt (dumpsSorted v).toList ↔
      ∃ t ∈ atoms v, Matched U exempt t := by
    constructor
    · rintro ⟨p, hp, hexempt, hsearch⟩
      rw [search_dumpsSorted (sealed_patterns hU p hp)] at hsearch
      obtain ⟨t, ht, hsearch⟩ := List.any_eq_true.1 hsearch
      exact ⟨t, ht, p, hp, hexempt, hsearch⟩
    · rintro ⟨t, ht, p, hp, hexempt, hsearch⟩
      refine ⟨p, hp, hexempt, ?_⟩
      rw [search_dumpsSorted (sealed_patterns hU p hp)]
      exact List.any_eq_true.2 ⟨t, ht, hsearch⟩
  cases v with
  | str s => simp [asText, audible]
  | _ => exact hserialised

/-- The scan blocks just where a rule matches a piece that it hears. -/
theorem blocks_iff : Blocks U exempt payload ↔ ∃ t ∈ heard payload, Matched U exempt t := by
  rw [blocks_iff_texts]
  unfold scanTexts heard
  constructor
  · rintro ⟨t, ht, hmatched⟩
    rcases List.mem_append.1 ht with ht | ht
    · obtain ⟨v, hv, rfl⟩ := List.mem_map.1 ht
      obtain ⟨t, ht, hmatched⟩ := (matched_asText hU v).1 hmatched
      exact ⟨t, List.mem_append_left _ (List.mem_flatMap.2 ⟨v, hv, ht⟩), hmatched⟩
    · split at ht
      · next htools =>
        rw [List.mem_singleton.1 ht, matched_asText hU] at hmatched
        obtain ⟨t, ht, hmatched⟩ := hmatched
        exact ⟨t, List.mem_append_right _ (by rwa [if_pos htools]), hmatched⟩
      · cases ht
  · rintro ⟨t, ht, hmatched⟩
    rcases List.mem_append.1 ht with ht | ht
    · obtain ⟨v, hv, ht⟩ := List.mem_flatMap.1 ht
      exact ⟨asText v, List.mem_append_left _ (List.mem_map_of_mem hv),
        (matched_asText hU v).2 ⟨t, ht, hmatched⟩⟩
    · split at ht
      · next htools =>
        exact ⟨_, List.mem_append_right _ (by rw [if_pos htools]; exact List.mem_cons_self),
          (matched_asText hU _).2 ⟨t, ht, hmatched⟩⟩
      · cases ht

/-- The scan sees through serialisation just where, with a match in some string, there is a match
    in what is heard. -/
theorem seesThrough_iff (exempt : List String) (payload : List (String × Json)) :
    SeesThrough U exempt payload ↔
      ((∃ v ∈ serialised payload, ∃ s ∈ strings v, Matched U exempt s.toList) →
        ∃ t ∈ heard payload, Matched U exempt t) := by
  constructor
  · rintro h ⟨v, hv, s, hs, hmatched⟩
    exact (blocks_iff hU).1 (h v hv s hs hmatched)
  · exact fun h v hv s hs hmatched => (blocks_iff hU).2 (h ⟨v, hv, s, hs, hmatched⟩)

end Heard

/-- A request with a note among its tools. -/
def withNote (note : String) : List (String × Json) :=
  ("tools", .arr [.obj [("note", .str note)]]) ::
    requestOf [("role", .str "user"), ("content", .str "hi")]

/-- A name in a note is seen. -/
theorem name_seen : SeesThrough Unicode.ascii [] (withNote "Write to Thabo Nkosi") :=
  (seesThrough_iff Unicode.ascii_asciiLike [] _).2 fun _ =>
    ⟨"Write to Thabo Nkosi".toList, by decide +kernel, ("full-name-like", fullNameLike),
      by simp [redactionPatterns], by decide, by decide +kernel⟩

/-- An identity number on a line of its own is not: in the JSON text an `n` stands before it. -/
theorem multiline_unseen : ¬ SeesThrough Unicode.ascii [] (withNote "ID:\n8001015009087") := by
  intro h
  have hmatched : Matched Unicode.ascii [] "ID:\n8001015009087".toList :=
    ⟨("sa-id-number", saIdNumber), by simp [redactionPatterns], by decide, by decide +kernel⟩
  obtain ⟨patternId, hblocks⟩ := h (.arr [.obj [("note", .str "ID:\n8001015009087")]])
    (by decide) "ID:\n8001015009087" (by decide) hmatched
  have hnone : scanResult Unicode.ascii [] (withNote "ID:\n8001015009087") = .ok none := by
    rw [scanRequest_answers]
    exact congrArg Except.ok (by decide +kernel)
  rw [hnone] at hblocks
  cases hblocks

end CanvasOS.Gateway
