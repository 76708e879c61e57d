/-
  `web_reach.py`: what scraped text is stripped of.

  1. `plantedAuthorisation`, `fabricatedRunNumber`, `harmlessNoOpFraming` — the three patterns.
  2. `stripInstructionShapedContent` — every pattern is looked for in the text as it came, and is
     replaced in what the patterns before it have left.
  3. `pieces` — the characters of the text that are left, by their places.
  4. `Untangled` — what a run number may have in common with the matches of the other patterns.
  5. `leavesNothing_iff` — nothing of what is reported is left, and everything else is, exactly if
     the matches are untangled.
-/
import CanvasOS.Lib.Scan
import Mathlib.Algebra.Ring.Nat
import Mathlib.Data.List.Sort

namespace CanvasOS.Signals

open Python

section Patterns

variable (U : Unicode)

/-- A text of a pattern. -/
def phrase (value : String) : Tries := folded U value.toList

/-- `\s*` -/
def spaces : Tries := run isSpace 0 none

/-- The phrases between the `\b`s of `planted_authorisation`. -/
def plantedPhrases : Tries :=
  orElse (andThen U (phrase U "you are authoriz") (orElse (phrase U "ed") (phrase U "ation")))
    (orElse (andThen U (phrase U "pre")
        (andThen U (optional (phrase U "-")) (phrase U "approved by")))
      (orElse (andThen U (phrase U "approval ")
          (orElse (phrase U "granted") (phrase U "is granted")))
        (andThen U (phrase U "override")
          (andThen U (optional (orElse (phrase U "s") (orElse (phrase U "d") (phrase U "ing"))))
            (andThen U (phrase U " ")
              (andThen U (optional (orElse (phrase U "the ") (phrase U "any ")))
                (andThen U
                  (orElse (phrase U "previous") (orElse (phrase U "prior") (phrase U "existing")))
                  (andThen U (phrase U " ") (orElse (phrase U "restriction")
                    (orElse (phrase U "rule") (phrase U "policy")))))))))))

def plantedAuthorisation : Tries := bounded U (plantedPhrases U)

/-- What stands in front of the number in `fabricated_run_number`. -/
def runPhrases : Tries :=
  andThen U
    (orElse (andThen U (phrase U "run") (andThen U (optional (oneOf "_ ".toList))
        (orElse (phrase U "id") (orElse (phrase U "#") (phrase U "number")))))
      (orElse (phrase U "agent_run_id")
        (andThen U (phrase U "task") (andThen U (optional (oneOf "_ ".toList)) (phrase U "id")))))
    (andThen U spaces (andThen U (optional (oneOf ":=#".toList)) spaces))

/-- `[\w-]` -/
def wordOrHyphen (c : Char) : Bool := U.word c || c == '-'

def fabricatedRunNumber : Tries :=
  andThen U (atBoundary U) (andThen U (runPhrases U) (run (wordOrHyphen U) 4 none))

/-- The phrases between the `\b`s of `harmless_no_op_framing`. -/
def harmlessPhrases : Tries :=
  orElse (andThen U (phrase U "this is a harmless no") (andThen U (optional (phrase U "-"))
      (phrase U "op")))
    (orElse (phrase U "proceed without a card")
      (orElse (andThen U (phrase U "no action needed") (andThen U (optional (oneOf ",.".toList))
          (andThen U spaces (andThen U (optional (phrase U "just ")) (phrase U "continue")))))
        (orElse (andThen U (phrase U "ignore ") (andThen U
            (orElse (phrase U "prior") (orElse (phrase U "previous") (phrase U "the above")))
            (phrase U " instructions")))
          (phrase U "disregard the above"))))

def harmlessNoOpFraming : Tries := bounded U (harmlessPhrases U)

/-- `_COMPILED_INJECTION_PATTERNS` -/
def injectionPatterns : List (String × Tries) :=
  [("planted_authorisation", plantedAuthorisation U),
    ("fabricated_run_number", fabricatedRunNumber U),
    ("harmless_no_op_framing", harmlessNoOpFraming U)]

end Patterns

/-- What is logged of a span. -/
structure StrippedSpan where
  sourceUrl : String
  byteOffset : Nat
  patternMatched : String
deriving DecidableEq

/-- `len(text[:start].encode("utf-8"))` -/
def byteOffset (text : List Char) (start : Nat) : Nat := ((text.take start).map Char.utf8Size).sum

/-- What stands in the place of a span. -/
def strippedMarker : List Char := "[stripped]".toList

/-- One pattern: its spans in the text as it came, and its place in the loop over what is left. -/
def stripPattern (U : Unicode) (text : List Char) (sourceUrl : String)
    (state : List Char × List StrippedSpan) (pattern : String × Tries) :
    List Char × List StrippedSpan :=
  (sub U pattern.2 strippedMarker 0 false state.1,
    state.2 ++ (finditer U pattern.2 (0, text)).map fun span =>
      ⟨sourceUrl, byteOffset text span.1, pattern.1⟩)

/-- `_strip_instruction_shaped_content`, on the characters of the text. -/
def stripInstructionShapedContent (U : Unicode) (text : List Char) (sourceUrl : String) :
    List Char × List StrippedSpan :=
  if text = [] then (text, []) else
    let state := (injectionPatterns U).foldl (stripPattern U text sourceUrl) (text, [])
    (state.1, state.2.insertionSort fun a b => a.byteOffset ≤ b.byteOffset)

/-- What is left of the text, piece by piece. -/
def pieces (U : Unicode) (text : List Char) : List (Nat × List Char) :=
  (injectionPatterns U).foldl (fun pieces pattern => pieces.flatMap (gapsOf U pattern.2))
    [(0, text)]

/-! ## The patterns -/

variable {U : Unicode} {value : String} {c : Char} {w : Bool} {ps : List (List Char)}

/-- The characters around the marker. -/
def brackets : List Char := ['[', ']']

theorem bare_phrase (hU : FoldLaws U) (h : (brackets.all fun c => isAsciiChar c &&
    value.toList.all fun d => isAsciiChar d && lowerChar c != lowerChar d) = true) :
    Bare brackets (phrase U value) := bare_folded hU h

theorem bare_plantedPhrases (hU : FoldLaws U) : Bare brackets (plantedPhrases U) := by
  unfold plantedPhrases Python.optional
  repeat' first
    | with_reducible apply Bare.andThen
    | with_reducible apply Bare.orElse
    | with_reducible exact bare_nothing
    | refine bare_phrase hU ?_
  all_goals decide +kernel

theorem bare_runPhrases (hU : FoldLaws U) : Bare brackets (runPhrases U) := by
  unfold runPhrases Python.optional
  repeat' first
    | with_reducible apply Bare.andThen
    | with_reducible apply Bare.orElse
    | with_reducible exact bare_nothing
    | with_reducible refine bare_phrase hU ?_
    | refine bare_run ?_
  all_goals decide +kernel

theorem bare_harmlessPhrases (hU : FoldLaws U) : Bare brackets (harmlessPhrases U) := by
  unfold harmlessPhrases Python.optional
  repeat' first
    | with_reducible apply Bare.andThen
    | with_reducible apply Bare.orElse
    | with_reducible exact bare_nothing
    | with_reducible refine bare_phrase hU ?_
    | refine bare_run ?_
  all_goals decide +kernel

/-- What planted authorisations open with. -/
def plantedOpenings : List (List Char) :=
  ["you are authoriz".toList] ++
    ((["-".toList] ++ ["approved by".toList]).map ("pre".toList ++ ·) ++
      (["approval ".toList] ++ ["override".toList]))

theorem opens_plantedPhrases : Opens U plantedOpenings (plantedPhrases U) :=
  (opens_folded _).andThen.orElse
    ((opens_folded_andThen _ ((opens_folded _).optional_andThen (opens_folded _))).orElse
      ((opens_folded _).andThen.orElse (opens_folded _).andThen))

/-- What run numbers open with. -/
def runOpenings : List (List Char) :=
  ["run".toList] ++ (["agent_run_id".toList] ++ ["task".toList])

theorem opens_runPhrases : Opens U runOpenings (runPhrases U) :=
  ((opens_folded _).andThen.orElse ((opens_folded _).orElse (opens_folded _).andThen)).andThen

/-- What harmless framings open with. -/
def harmlessOpenings : List (List Char) :=
  ["this is a harmless no".toList] ++ (["proceed without a card".toList] ++
    (["no action needed".toList] ++ (["ignore ".toList] ++ ["disregard the above".toList])))

theorem opens_harmlessPhrases : Opens U harmlessOpenings (harmlessPhrases U) :=
  (opens_folded _).andThen.orElse ((opens_folded _).orElse
    ((opens_folded _).andThen.orElse ((opens_folded _).andThen.orElse (opens_folded _))))

theorem closes_phrase (hU : FoldLaws U) (hascii : value.toList.all isAsciiChar = true)
    (hlast : wordAfter Unicode.ascii false value.toList = true) : Closes U (phrase U value) :=
  closes_folded hU hascii hlast

theorem closes_plantedPhrases (hU : FoldLaws U) : Closes U (plantedPhrases U) := by
  unfold plantedPhrases
  repeat' first
    | with_reducible apply Closes.andThen
    | with_reducible apply Closes.orElse
    | refine closes_phrase hU ?_ ?_
  all_goals decide +kernel

theorem closes_harmlessPhrases (hU : FoldLaws U) : Closes U (harmlessPhrases U) := by
  unfold harmlessPhrases
  repeat' first
    | with_reducible apply Closes.andThen
    | with_reducible apply Closes.orElse
    | refine closes_phrase hU ?_ ?_
  all_goals decide +kernel

theorem framed_plantedAuthorisation (hU : FoldLaws U) : Framed U (plantedAuthorisation U) :=
  framed_bounded (bare_plantedPhrases hU).1 (opens_plantedPhrases.opensWord hU (by decide))
    (closes_plantedPhrases hU)

theorem framed_fabricatedRunNumber (hU : FoldLaws U) : Framed U (fabricatedRunNumber U) :=
  framed_run (bare_runPhrases hU).1 (opens_runPhrases.opensWord hU (by decide)) (by decide)
    fun c hc => by simp [wordOrHyphen, hc]

theorem framed_harmlessNoOpFraming (hU : FoldLaws U) : Framed U (harmlessNoOpFraming U) :=
  framed_bounded (bare_harmlessPhrases hU).1 (opens_harmlessPhrases.opensWord hU (by decide))
    (closes_harmlessPhrases hU)

/-! ## No pattern begins within a match of another one -/

theorem avoids_true_of_false {s : List Char} (h : avoids ps false s = true) :
    avoids ps w s = true := by
  cases s with
  | nil => exact h
  | cons c s =>
    obtain ⟨-, hrest⟩ := Bool.and_eq_true_iff.1 h
    cases w with
    | false => exact h
    | true => exact hrest

theorem avoids_phrase (hU : FoldLaws U) (hps : (ps.all fun p => p.all isAsciiChar) = true)
    (hvalue : value.toList.all isAsciiChar = true) (h : avoids ps false value.toList = true) :
    Avoids U ps w (phrase U value) := avoids_folded hU hps hvalue (avoids_true_of_false h)

theorem avoids_oneOf (hU : FoldLaws U) (hps : (ps.all fun p => p.head?.any asciiWord) = true)
    {cs : List Char} (hcs : (cs.all fun c => isAsciiChar c && !Unicode.ascii.word c) = true) :
    Avoids U ps w (oneOf cs) := by
  refine avoids_run hU hps fun c hc => ?_
  have h := List.all_eq_true.1 hcs c (List.contains_iff_mem.1 hc)
  rw [Bool.and_eq_true, Bool.not_eq_true'] at h
  rw [hU.ascii.word c h.1, h.2]

theorem avoids_spaces (hU : FoldLaws U) (hps : (ps.all fun p => p.head?.any asciiWord) = true) :
    Avoids U ps w spaces := avoids_run hU hps hU.word_of_space

theorem avoids_plantedPhrases (hU : FoldLaws U) :
    Avoids U (runOpenings ++ harmlessOpenings) w (plantedPhrases U) := by
  have hps : ((runOpenings ++ harmlessOpenings).all fun p => p.all isAsciiChar) = true := by
    decide +kernel
  have hoverride : Closes U (phrase U "override") :=
    closes_phrase hU (by decide +kernel) (by decide +kernel)
  unfold plantedPhrases Python.optional
  refine .orElse ?_ (.orElse ?_ (.orElse ?_ ?_))
  case refine_4 =>
    -- the `d` of `overrided` could open a pattern, but for the word character in front of it
    refine Avoids.andThen_word hoverride ?_ (.andThen (.orElse (.orElse ?_ (.orElse
      (avoids_folded hU hps ?_ ?_) ?_)) avoids_nothing) fun _ _ _ => ?_)
    repeat' first
      | with_reducible apply Avoids.orElse
      | with_reducible refine Avoids.andThen ?_ fun _ _ _ => ?_
      | with_reducible exact avoids_nothing
      | with_reducible refine avoids_phrase hU hps ?_ ?_
    all_goals decide +kernel
  all_goals repeat' first
    | with_reducible apply Avoids.orElse
    | with_reducible refine Avoids.andThen ?_ fun _ _ _ => ?_
    | with_reducible exact avoids_nothing
    | with_reducible refine avoids_phrase hU hps ?_ ?_
  all_goals decide +kernel

theorem avoids_harmlessPhrases (hU : FoldLaws U) :
    Avoids U (plantedOpenings ++ runOpenings) w (harmlessPhrases U) := by
  have hps : ((plantedOpenings ++ runOpenings).all fun p => p.all isAsciiChar) = true := by
    decide +kernel
  unfold harmlessPhrases Python.optional
  repeat' first
    | with_reducible apply Avoids.orElse
    | with_reducible refine Avoids.andThen ?_ fun _ _ _ => ?_
    | with_reducible exact avoids_nothing
    | with_reducible refine avoids_phrase hU hps ?_ ?_
    | with_reducible refine avoids_oneOf hU ?_ ?_
    | with_reducible refine avoids_spaces hU ?_
  all_goals decide +kernel

/-! ## The marker -/

theorem word_of_mem_brackets (hU : FoldLaws U) (hc : c ∈ brackets) : U.word c = false := by
  have h : (brackets.all fun c => isAsciiChar c && !Unicode.ascii.word c) = true := by decide
  have hc' := List.all_eq_true.1 h c hc
  rw [Bool.and_eq_true, Bool.not_eq_true'] at hc'
  rw [hU.ascii.word c hc'.1, hc'.2]

/-- A pattern that takes no bracket and opens with none of the words of the marker leaves it
    alone. -/
theorem markedOff_stripped (hU : FoldLaws U) {T : Tries} (hT : Framed U T)
    (hseparated : ∀ c ∈ brackets, Separated c T) (hopens : Opens U ps T)
    (hps : (ps.all fun p => p.all isAsciiChar) = true)
    (h : avoids ps false "stripped".toList = true) : MarkedOff U T strippedMarker where
  within := hT.within
  nil w := by
    by_contra hne
    obtain ⟨n, hn⟩ := List.exists_mem_of_ne_nil _ hne
    exact Bool.noConfusion (hT.opens _ _ _ hn).2.1
  parts := ⟨'[', "stripped".toList, ']', rfl, hseparated _ (by decide), hseparated _ (by decide),
    word_of_mem_brackets hU (by decide), word_of_mem_brackets hU (by decide),
    clean_of_avoids hU hT hopens hps (by decide) h⟩

theorem markedOff_plantedAuthorisation (hU : FoldLaws U) :
    MarkedOff U (plantedAuthorisation U) strippedMarker :=
  markedOff_stripped hU (framed_plantedAuthorisation hU)
    (fun _ hc => (bare_plantedPhrases hU).separated_bounded hc (word_of_mem_brackets hU hc))
    opens_plantedPhrases.bounded (by decide) (by decide)

theorem markedOff_fabricatedRunNumber (hU : FoldLaws U) :
    MarkedOff U (fabricatedRunNumber U) strippedMarker := by
  refine markedOff_stripped hU (framed_fabricatedRunNumber hU) (fun c hc => ?_)
    opens_runPhrases.andThen.behind_boundary (by decide) (by decide)
  have hword := word_of_mem_brackets hU hc
  have hclass : wordOrHyphen U c = false := by
    unfold wordOrHyphen
    rw [hword, Bool.false_or, beq_eq_false_iff_ne]
    rintro rfl
    exact absurd hc (by decide)
  have hbare := bare_runPhrases hU
  exact (separated_atBoundary hword).andThen fits_atBoundary
    ((hbare.separated c hc).andThen hbare.looksNoFurther.fits (separated_run hclass 4 none))

theorem markedOff_harmlessNoOpFraming (hU : FoldLaws U) :
    MarkedOff U (harmlessNoOpFraming U) strippedMarker :=
  markedOff_stripped hU (framed_harmlessNoOpFraming hU)
    (fun _ hc => (bare_harmlessPhrases hU).separated_bounded hc (word_of_mem_brackets hU hc))
    opens_harmlessPhrases.bounded (by decide) (by decide)

/-! ## What is left -/

variable {text : List Char} {sourceUrl : String} {j : Nat}

def plantedSpans (U : Unicode) (text : List Char) : List (Nat × Nat) :=
  finditer U (plantedAuthorisation U) (0, text)

def runSpans (U : Unicode) (text : List Char) : List (Nat × Nat) :=
  finditer U (fabricatedRunNumber U) (0, text)

def harmlessSpans (U : Unicode) (text : List Char) : List (Nat × Nat) :=
  finditer U (harmlessNoOpFraming U) (0, text)

/-- The character lies in a span that is reported. -/
def Reported (U : Unicode) (text : List Char) (j : Nat) : Prop :=
  ∃ pattern ∈ injectionPatterns U, Covered (finditer U pattern.2 (0, text)) j

theorem reported_iff : Reported U text j ↔ Covered (plantedSpans U text) j ∨
    Covered (runSpans U text) j ∨ Covered (harmlessSpans U text) j := by
  unfold Reported injectionPatterns
  simp only [List.mem_cons, List.not_mem_nil, or_false, exists_eq_or_imp, exists_eq_left]
  rfl

/-- Nothing to strip is left: no pattern matches what is returned, which is made of pieces of the
    text in their order; a character is in none of them exactly if it lies in a span reported. -/
structure LeavesNothing (U : Unicode) (text : List Char) (sourceUrl : String) : Prop where
  clean : ∀ pattern ∈ injectionPatterns U,
    Clean U pattern.2 (stripInstructionShapedContent U text sourceUrl).1
  made : (stripInstructionShapedContent U text sourceUrl).1 =
    strippedMarker.intercalate ((pieces U text).map Prod.snd)
  ordered : Ordered (pieces U text)
  unchanged : ∀ piece ∈ pieces U text, piece.2 = (text.drop piece.1).take piece.2.length
  removed : ∀ j, Reported U text j → ¬ Kept (pieces U text) j
  kept : ∀ j < text.length, ¬ Reported U text j → Kept (pieces U text) j

/-- A run number meets a planted authorisation only where that one swallows its end and its
    beginning, taken alone, is a match still; it meets a harmless framing only to swallow its
    end. -/
structure Untangled (U : Unicode) (text : List Char) : Prop where
  planted : ∀ number ∈ runSpans U text, ∀ planted ∈ plantedSpans U text,
    number.1 < planted.2 → planted.1 < number.2 → number.2 ≤ planted.2 ∧
      matchAt U (fabricatedRunNumber U) (0, text.take planted.1) number.1 =
        some (planted.1 - number.1)
  harmless : ∀ number ∈ runSpans U text, ∀ harmless ∈ harmlessSpans U text,
    number.1 < harmless.2 → harmless.1 < number.2 → harmless.2 ≤ number.2

/-- The passes leave the pieces, with a marker in the place of each match. -/
theorem strip_eq (hU : FoldLaws U) : (stripInstructionShapedContent U text sourceUrl).1 =
    strippedMarker.intercalate ((pieces U text).map Prod.snd) := by
  have hpasses : (stripInstructionShapedContent U text sourceUrl).1 =
      sub U (harmlessNoOpFraming U) strippedMarker 0 false
        (sub U (fabricatedRunNumber U) strippedMarker 0 false
          (sub U (plantedAuthorisation U) strippedMarker 0 false text)) := by
    unfold stripInstructionShapedContent
    by_cases htext : text = []
    · rw [if_pos htext, htext]
      rfl
    · rw [if_neg htext]
      rfl
  have hflat : (gapsOf U (plantedAuthorisation U) (0, text)).flatMap
      (gapsOf U (fabricatedRunNumber U)) ≠ [] := by
    obtain ⟨gap, hgap⟩ := List.exists_mem_of_ne_nil _
      (@gapsOf_ne_nil U (plantedAuthorisation U) (0, text))
    obtain ⟨gap', hgap'⟩ := List.exists_mem_of_ne_nil _
      (@gapsOf_ne_nil U (fabricatedRunNumber U) gap)
    exact List.ne_nil_of_mem (List.mem_flatMap.2 ⟨gap, hgap, hgap'⟩)
  rw [hpasses, sub_eq text 0, (markedOff_fabricatedRunNumber hU).sub_intercalate gapsOf_ne_nil,
    (markedOff_harmlessNoOpFraming hU).sub_intercalate hflat]
  unfold pieces injectionPatterns
  rw [List.foldl_cons, List.foldl_cons, List.foldl_cons, List.foldl_nil, List.flatMap_singleton]

theorem mem_pieces {piece : Nat × List Char} : piece ∈ pieces U text ↔
    ∃ p1 ∈ gapsOf U (plantedAuthorisation U) (0, text), ∃ p2 ∈ gapsOf U (fabricatedRunNumber U) p1,
      piece ∈ gapsOf U (harmlessNoOpFraming U) p2 := by
  unfold pieces injectionPatterns
  rw [List.foldl_cons, List.foldl_cons, List.foldl_cons, List.foldl_nil, List.flatMap_singleton]
  simp only [List.mem_flatMap]
  constructor
  · rintro ⟨p2, ⟨p1, hp1, hp2⟩, hpiece⟩
    exact ⟨p1, hp1, p2, hp2, hpiece⟩
  · rintro ⟨p1, hp1, p2, hp2, hpiece⟩
    exact ⟨p2, ⟨p1, hp1, hp2⟩, hpiece⟩

section Passes

variable (hU : FoldLaws U)
include hU

theorem cut_pieces {piece p1 p2 : Nat × List Char}
    (hp1 : p1 ∈ gapsOf U (plantedAuthorisation U) (0, text))
    (hp2 : p2 ∈ gapsOf U (fabricatedRunNumber U) p1)
    (hpiece : piece ∈ gapsOf U (harmlessNoOpFraming U) p2) :
    Cut U (0, text) p1 ∧ Cut U p1 p2 ∧ Cut U p2 piece :=
  ⟨(gapsOf_cut (framed_plantedAuthorisation hU) hp1).1,
    (gapsOf_cut (framed_fabricatedRunNumber hU) hp2).1,
    (gapsOf_cut (framed_harmlessNoOpFraming hU) hpiece).1⟩

/-- No pattern matches in a piece. -/
theorem clean_piece {piece : Nat × List Char} (h : piece ∈ pieces U text) :
    ∀ pattern ∈ injectionPatterns U, Clean U pattern.2 piece.2 := by
  obtain ⟨p1, hp1, p2, hp2, hpiece⟩ := mem_pieces.1 h
  obtain ⟨hcut1, hcut2, hcut3⟩ := cut_pieces hU hp1 hp2 hpiece
  have hplanted := framed_plantedAuthorisation hU
  have hnumber := framed_fabricatedRunNumber hU
  have hharmless := framed_harmlessNoOpFraming hU
  intro pattern hpattern
  simp only [injectionPatterns, List.mem_cons, List.not_mem_nil, or_false] at hpattern
  rcases hpattern with rfl | rfl | rfl
  · exact (hcut1.trans (hcut2.trans hcut3)).clean hplanted fun j hle hlt =>
      not_covered_of_gap hplanted hp1 (hcut2.trans hcut3) hle hlt
  · exact (hcut2.trans hcut3).clean hnumber fun j hle hlt =>
      not_covered_of_gap hnumber hp2 hcut3 hle hlt
  · exact hcut3.clean hharmless fun j hle hlt =>
      not_covered_of_gap hharmless hpiece (Cut.refl piece) hle hlt

/-- No pattern matches in what is returned. -/
theorem clean_strip : ∀ pattern ∈ injectionPatterns U,
    Clean U pattern.2 (stripInstructionShapedContent U text sourceUrl).1 := by
  intro pattern hpattern
  have hsealed : MarkedOff U pattern.2 strippedMarker := by
    simp only [injectionPatterns, List.mem_cons, List.not_mem_nil, or_false] at hpattern
    rcases hpattern with rfl | rfl | rfl
    · exact markedOff_plantedAuthorisation hU
    · exact markedOff_fabricatedRunNumber hU
    · exact markedOff_harmlessNoOpFraming hU
  rw [strip_eq hU]
  refine hsealed.clean_intercalate fun g hg => ?_
  obtain ⟨piece, hpiece, rfl⟩ := List.mem_map.1 hg
  exact clean_piece hU hpiece pattern hpattern

theorem pieces_ordered : Ordered (pieces U text) := by
  unfold pieces injectionPatterns
  rw [List.foldl_cons, List.foldl_cons, List.foldl_cons, List.foldl_nil]
  have hwhole : Ordered [(0, text)] := List.pairwise_singleton _ _
  exact ((hwhole.flatMap_gapsOf (framed_plantedAuthorisation hU)).flatMap_gapsOf
    (framed_fabricatedRunNumber hU)).flatMap_gapsOf (framed_harmlessNoOpFraming hU)

theorem pieces_unchanged {piece : Nat × List Char} (h : piece ∈ pieces U text) :
    piece.2 = (text.drop piece.1).take piece.2.length := by
  obtain ⟨p1, hp1, p2, hp2, hpiece⟩ := mem_pieces.1 h
  obtain ⟨hcut1, hcut2, hcut3⟩ := cut_pieces hU hp1 hp2 hpiece
  exact (hcut1.trans (hcut2.trans hcut3)).eq_take

/-! ## No pattern within another one -/

/-- No run number begins within a planted authorisation. -/
theorem number_not_in_planted {piece : Nat × List Char} {span : Nat × Nat}
    (hcut : Cut U (0, text) piece) (hspan : span ∈ finditer U (plantedAuthorisation U) piece)
    (hmatch : matchAt U (fabricatedRunNumber U) (0, text) j ≠ none) :
    ¬ (span.1 ≤ j ∧ j < span.2) :=
  hcut.not_begun (framed_fabricatedRunNumber hU) (framed_plantedAuthorisation hU)
    ((avoids_plantedPhrases hU).mono (List.subset_append_left _ _)).bounded
    opens_runPhrases.andThen.behind_boundary hspan hmatch

/-- Nor within a harmless framing. -/
theorem number_not_in_harmless {piece : Nat × List Char} {span : Nat × Nat}
    (hcut : Cut U (0, text) piece) (hspan : span ∈ finditer U (harmlessNoOpFraming U) piece)
    (hmatch : matchAt U (fabricatedRunNumber U) (0, text) j ≠ none) :
    ¬ (span.1 ≤ j ∧ j < span.2) :=
  hcut.not_begun (framed_fabricatedRunNumber hU) (framed_harmlessNoOpFraming hU)
    ((avoids_harmlessPhrases hU).mono (List.subset_append_right _ _)).bounded
    opens_runPhrases.andThen.behind_boundary hspan hmatch

/-- No planted authorisation meets a harmless framing. -/
theorem planted_apart_harmless {planted harmless : Nat × Nat}
    (hplanted : planted ∈ plantedSpans U text) (hharmless : harmless ∈ harmlessSpans U text) :
    planted.2 ≤ harmless.1 ∨ harmless.2 ≤ planted.1 := by
  obtain ⟨-, hlt, hmatch⟩ := mem_finditer hplanted
  obtain ⟨-, hlt', hmatch'⟩ := mem_finditer hharmless
  -- the one that begins later would begin within the other
  have hfirst := (Cut.refl (0, text)).not_begun (framed_plantedAuthorisation hU)
    (framed_harmlessNoOpFraming hU)
    ((avoids_harmlessPhrases hU).mono (List.subset_append_left _ _)).bounded
    opens_plantedPhrases.bounded hharmless (j := planted.1)
    (by rw [hmatch]; exact Option.some_ne_none _)
  have hsecond := (Cut.refl (0, text)).not_begun (framed_harmlessNoOpFraming hU)
    (framed_plantedAuthorisation hU)
    ((avoids_plantedPhrases hU).mono (List.subset_append_right _ _)).bounded
    opens_harmlessPhrases.bounded hplanted (j := harmless.1)
    (by rw [hmatch']; exact Option.some_ne_none _)
  omega

/-! ## Untangled matches -/

theorem number_enters {p1 : Nat × List Char}
    (hmeet : ∀ number ∈ runSpans U text, ∀ planted ∈ plantedSpans U text,
      number.1 < planted.2 → planted.1 < number.2 → number.2 ≤ planted.2)
    (hp1 : p1 ∈ gapsOf U (plantedAuthorisation U) (0, text)) :
    Unentered U (fabricatedRunNumber U) (0, text) p1 := by
  intro number hnumber hlt
  obtain ⟨-, hbegin, -⟩ := gapsOf_cut (framed_plantedAuthorisation hU) hp1
  rcases hbegin with hbegin | ⟨planted, hplanted, hend⟩
  · rw [hbegin] at hlt
    exact absurd hlt (Nat.not_lt_zero _)
  · by_contra hover
    have hlt' := (mem_finditer hplanted).2.1
    have hle := hmeet number hnumber planted hplanted (by omega) (by omega)
    omega

/-- What the first two passes leave, where the matches are untangled. -/
theorem covered_number_iff (h : Untangled U text) {p1 : Nat × List Char}
    (hp1 : p1 ∈ gapsOf U (plantedAuthorisation U) (0, text)) (hle : p1.1 ≤ j)
    (hlt : j < p1.1 + p1.2.length) :
    Covered (finditer U (fabricatedRunNumber U) p1) j ↔ Covered (runSpans U text) j := by
  have hT := framed_fabricatedRunNumber hU
  obtain ⟨hcut, -, hend⟩ := gapsOf_cut (framed_plantedAuthorisation hU) hp1
  refine hcut.covered_iff hT (number_enters hU (fun number hnumber planted hplanted hlt hlt' =>
    (h.planted number hnumber planted hplanted hlt hlt').1) hp1) ?_ hle hlt
  intro number hnumber hin hbefore hout
  rcases hend with hend | ⟨planted, hplanted, hstart⟩
  · have hbound := end_le_of_mem_finditer hT hnumber
    omega
  · have hlt' := (mem_finditer hplanted).2.1
    have hmatch := (h.planted number hnumber planted hplanted (by omega) (by omega)).2
    rw [hstart] at hmatch
    exact (hcut.matchAt_take_iff hT hin).1 hmatch

theorem covered_harmless_iff (h : Untangled U text) {p1 p2 : Nat × List Char}
    (hp1 : p1 ∈ gapsOf U (plantedAuthorisation U) (0, text))
    (hp2 : p2 ∈ gapsOf U (fabricatedRunNumber U) p1) (hle : p2.1 ≤ j)
    (hlt : j < p2.1 + p2.2.length) :
    Covered (finditer U (harmlessNoOpFraming U) p2) j ↔ Covered (harmlessSpans U text) j := by
  have hT := framed_harmlessNoOpFraming hU
  obtain ⟨hcut1, hbegin1, hend1⟩ := gapsOf_cut (framed_plantedAuthorisation hU) hp1
  obtain ⟨hcut2, hbegin2, hend2⟩ := gapsOf_cut (framed_fabricatedRunNumber hU) hp2
  have hbounds := hcut2.bounds
  refine (hcut1.trans hcut2).covered_iff hT ?_ ?_ hle hlt
  · intro harmless hharmless hbefore
    by_contra hover
    rcases hbegin2 with hbegin2 | ⟨found, hfound, hend⟩
    · rcases hbegin1 with hbegin1 | ⟨planted, hplanted, hend⟩
      · rw [hbegin2, hbegin1] at hbefore
        exact absurd hbefore (Nat.not_lt_zero _)
      · have hlt' := (mem_finditer hplanted).2.1
        have hapart := planted_apart_harmless hU hplanted hharmless
        omega
    · -- a run number ends there; what it is cut from would swallow the end of the framing
      obtain ⟨hin, hlt', -⟩ := mem_finditer hfound
      have hend' := end_le_of_mem_finditer (framed_fabricatedRunNumber hU) hfound
      obtain ⟨number, hnumber, hover'⟩ := (covered_number_iff hU h hp1 (j := found.2 - 1)
        (by omega) (by omega)).1 ⟨found, hfound, by omega, by omega⟩
      have hswallow := h.harmless number hnumber harmless hharmless (by omega) (by omega)
      rcases Nat.lt_or_eq_of_le hend' with hinside | hboundary
      · obtain ⟨gap, hgap, hrests⟩ := rests_of_end (framed_fabricatedRunNumber hU) hfound hinside
        have hkept : Kept (gapsOf U (fabricatedRunNumber U) p1) found.2 :=
          ⟨gap, hgap, hrests.bounds⟩
        have hnot := ((kept_gapsOf_iff (framed_fabricatedRunNumber hU).within).1 hkept).2.2
        rw [covered_number_iff hU h hp1 (by omega) hinside] at hnot
        exact hnot ⟨number, hnumber, by omega, by omega⟩
      · rcases hend1 with hend1 | ⟨planted, hplanted, hstart⟩
        · have hbound := end_le_of_mem_finditer hT hharmless
          omega
        · have hlt'' := (mem_finditer hplanted).2.1
          have hapart := planted_apart_harmless hU hplanted hharmless
          omega
  · intro harmless hharmless hin hbefore hout
    exfalso
    rcases hend2 with hend2 | ⟨found, hfound, hstart⟩
    · rcases hend1 with hend1 | ⟨planted, hplanted, hstart⟩
      · have hbound := end_le_of_mem_finditer hT hharmless
        omega
      · have hlt' := (mem_finditer hplanted).2.1
        have hapart := planted_apart_harmless hU hplanted hharmless
        omega
    · obtain ⟨hle', -, hmatch⟩ := mem_finditer hfound
      exact number_not_in_harmless hU (Cut.refl _) hharmless (hcut1.matchAt_whole
        (framed_fabricatedRunNumber hU) hle' (by rw [hmatch]; exact Option.some_ne_none _))
        ⟨by omega, by omega⟩

/-- Where the matches are untangled, the pieces have what no match takes. -/
theorem kept_pieces_iff (h : Untangled U text) : Kept (pieces U text) j ↔
    j < text.length ∧ ¬ Reported U text j := by
  rw [reported_iff]
  constructor
  · rintro ⟨piece, hpiece, hover⟩
    obtain ⟨p1, hp1, p2, hp2, hpiece⟩ := mem_pieces.1 hpiece
    obtain ⟨hcut1, hcut2, hcut3⟩ := cut_pieces hU hp1 hp2 hpiece
    have hbounds1 := hcut1.bounds
    have hbounds2 := hcut2.bounds
    have hbounds3 := hcut3.bounds
    dsimp only at hbounds1
    refine ⟨by omega, ?_⟩
    rintro (hplanted | hnumber | hharmless)
    · exact not_covered_of_gap (framed_plantedAuthorisation hU) hp1 (hcut2.trans hcut3) hover.1
        hover.2 hplanted
    · rw [← covered_number_iff hU h hp1 (by omega) (by omega)] at hnumber
      exact not_covered_of_gap (framed_fabricatedRunNumber hU) hp2 hcut3 hover.1 hover.2 hnumber
    · rw [← covered_harmless_iff hU h hp1 hp2 (by omega) (by omega)] at hharmless
      exact not_covered_of_gap (framed_harmlessNoOpFraming hU) hpiece (Cut.refl piece) hover.1
        hover.2 hharmless
  · rintro ⟨hlt, hnot⟩
    rw [not_or, not_or] at hnot
    obtain ⟨hplanted, hnumber, hharmless⟩ := hnot
    obtain ⟨p1, hp1, hover1⟩ := (kept_gapsOf_iff (framed_plantedAuthorisation hU).within).2
      ⟨Nat.zero_le j, by simpa using hlt, hplanted⟩
    rw [← covered_number_iff hU h hp1 hover1.1 hover1.2] at hnumber
    obtain ⟨p2, hp2, hover2⟩ := (kept_gapsOf_iff (framed_fabricatedRunNumber hU).within).2
      ⟨hover1.1, hover1.2, hnumber⟩
    rw [← covered_harmless_iff hU h hp1 hp2 hover2.1 hover2.2] at hharmless
    obtain ⟨piece, hpiece, hover⟩ := (kept_gapsOf_iff (framed_harmlessNoOpFraming hU).within).2
      ⟨hover2.1, hover2.2, hharmless⟩
    exact ⟨piece, mem_pieces.2 ⟨p1, hp1, p2, hp2, hpiece⟩, hover⟩

/-! ## Tangled matches -/

/-- What rests at the beginning of a gap after the first pass is left in the end. -/
theorem kept_of_rests_planted {p1 : Nat × List Char}
    (hp1 : p1 ∈ gapsOf U (plantedAuthorisation U) (0, text)) (h : Rests U p1 j) :
    Kept (pieces U text) j := by
  obtain ⟨p2, hp2, hrests⟩ := h.exists_gapsOf (framed_fabricatedRunNumber hU)
  obtain ⟨piece, hpiece, hrests'⟩ := hrests.exists_gapsOf (framed_harmlessNoOpFraming hU)
  exact ⟨piece, mem_pieces.2 ⟨p1, hp1, p2, hp2, hpiece⟩, hrests'.bounds⟩

theorem kept_of_rests_number {p1 p2 : Nat × List Char}
    (hp1 : p1 ∈ gapsOf U (plantedAuthorisation U) (0, text))
    (hp2 : p2 ∈ gapsOf U (fabricatedRunNumber U) p1) (h : Rests U p2 j) :
    Kept (pieces U text) j := by
  obtain ⟨piece, hpiece, hrests⟩ := h.exists_gapsOf (framed_harmlessNoOpFraming hU)
  exact ⟨piece, mem_pieces.2 ⟨p1, hp1, p2, hp2, hpiece⟩, hrests.bounds⟩

variable (hremoved : ∀ j, Reported U text j → ¬ Kept (pieces U text) j)
include hremoved

/-- A run number does not run over the end of a planted authorisation. -/
theorem number_le_planted {number planted : Nat × Nat} (hnumber : number ∈ runSpans U text)
    (hplanted : planted ∈ plantedSpans U text) (hlt : number.1 < planted.2) :
    number.2 ≤ planted.2 := by
  by_contra hover
  have hbound := end_le_of_mem_finditer (framed_fabricatedRunNumber hU) hnumber
  obtain ⟨gap, hgap, hrests⟩ := rests_of_end (framed_plantedAuthorisation hU) hplanted (by omega)
  exact hremoved planted.2 (reported_iff.2 (.inr (.inl ⟨number, hnumber, by omega, by omega⟩)))
    (kept_of_rests_planted hU hgap hrests)

theorem untangled_planted {number planted : Nat × Nat} (hnumber : number ∈ runSpans U text)
    (hplanted : planted ∈ plantedSpans U text) (hlt : number.1 < planted.2)
    (hlt' : planted.1 < number.2) : matchAt U (fabricatedRunNumber U) (0, text.take planted.1)
      number.1 = some (planted.1 - number.1) := by
  have hT := framed_fabricatedRunNumber hU
  have hTp := framed_plantedAuthorisation hU
  obtain ⟨-, hnumber', hmatch⟩ := mem_finditer hnumber
  obtain ⟨-, hplanted', -⟩ := mem_finditer hplanted
  have hboundp := end_le_of_mem_finditer hTp hplanted
  dsimp only at hboundp
  have hmatches : matchAt U (fabricatedRunNumber U) (0, text) number.1 ≠ none := by
    rw [hmatch]
    exact Option.some_ne_none _
  have hreported : ∀ j, number.1 ≤ j → j < number.2 → Reported U text j := fun j hle hlt =>
    reported_iff.2 (.inr (.inl ⟨number, hnumber, hle, hlt⟩))
  -- it begins in the gap in front of the planted authorisation
  have hfree : ¬ Covered (plantedSpans U text) number.1 := fun ⟨span, hspan, hover⟩ =>
    number_not_in_planted hU (Cut.refl _) hspan hmatches hover
  have hbefore : number.1 < planted.1 := by
    by_contra hin
    exact hfree ⟨planted, hplanted, by omega, hlt⟩
  obtain ⟨p1, hp1, hover⟩ := (kept_gapsOf_iff hTp.within).2
    ⟨Nat.zero_le _, by dsimp only; omega, hfree⟩
  obtain ⟨hcut, -, hend⟩ := gapsOf_cut hTp hp1
  have hgap : p1.1 + p1.2.length ≤ planted.1 := by
    by_contra hbeyond
    exact not_covered_of_gap hTp hp1 (Cut.refl p1) (j := planted.1) (by omega) (by omega)
      ⟨planted, hplanted, Nat.le_refl _, hplanted'⟩
  have hends : p1.1 + p1.2.length = planted.1 := by
    rcases hend with hend | ⟨first, hfirst, hstart⟩
    · dsimp only at hend
      omega
    · have hfirst' := (mem_finditer hfirst).2.1
      have hswallow := number_le_planted hU hremoved hnumber hfirst (by omega)
      have hsame := finditer_unique (j := planted.1) hfirst hplanted (by omega) (by omega)
      rw [← hstart, hsame]
  rw [← hends]
  refine (hcut.matchAt_take_iff hT hover.1).2 ?_
  have hentry := number_enters hU (fun number hnumber planted hplanted hlt _ =>
    number_le_planted hU hremoved hnumber hplanted hlt) hp1
  cases hpiece : matchAt U (fabricatedRunNumber U) p1 number.1 with
  | none =>
    -- the beginning is left, for no harmless framing begins in front of it
    exfalso
    have hnot : ¬ Covered (finditer U (fabricatedRunNumber U) p1) number.1 := by
      rintro ⟨span, hspan, hover'⟩
      have hstart := hcut.start_of_covered hT hentry hnumber hover.1 hover.2 hspan hover'
      have hspan' := (mem_finditer hspan).2.2
      rw [hstart, hpiece] at hspan'
      cases hspan'
    obtain ⟨p2, hp2, hover2⟩ := (kept_gapsOf_iff hT.within).2 ⟨hover.1, hover.2, hnot⟩
    have hcut2 := (gapsOf_cut hT hp2).1
    have hnot' : ¬ Covered (finditer U (harmlessNoOpFraming U) p2) number.1 :=
      fun ⟨span, hspan, hover'⟩ =>
        number_not_in_harmless hU (hcut.trans hcut2) hspan hmatches hover'
    obtain ⟨piece, hpiece', hover3⟩ := (kept_gapsOf_iff (framed_harmlessNoOpFraming hU).within).2
      ⟨hover2.1, hover2.2, hnot'⟩
    exact hremoved number.1 (hreported _ (Nat.le_refl _) hnumber')
      ⟨piece, mem_pieces.2 ⟨p1, hp1, p2, hp2, hpiece'⟩, hover3⟩
  | some n =>
    -- what the match leaves in front of the planted authorisation is left in the end
    have hfound := hcut.mem_finditer hT hentry hnumber hover.1 hover.2 hpiece
    have hbound := end_le_of_mem_finditer hT hfound
    dsimp only at hbound
    rcases Nat.lt_or_eq_of_le hbound with hinside | hexact
    · obtain ⟨gap, hgap', hrests⟩ := rests_of_end hT hfound hinside
      exact absurd (kept_of_rests_number hU hp1 hgap' hrests)
        (hremoved _ (hreported _ (Nat.le_add_right _ _) (by omega)))
    · congr 1
      omega

theorem untangled_harmless {number harmless : Nat × Nat} (hnumber : number ∈ runSpans U text)
    (hharmless : harmless ∈ harmlessSpans U text) (hlt : harmless.1 < number.2) :
    harmless.2 ≤ number.2 := by
  by_contra hover
  have hT := framed_fabricatedRunNumber hU
  have hTp := framed_plantedAuthorisation hU
  obtain ⟨-, hnumber', hmatch⟩ := mem_finditer hnumber
  have hboundh := end_le_of_mem_finditer (framed_harmlessNoOpFraming hU) hharmless
  dsimp only at hboundh
  refine hremoved number.2
    (reported_iff.2 (.inr (.inr ⟨harmless, hharmless, by omega, by omega⟩))) ?_
  by_cases hmeets : ∃ planted ∈ plantedSpans U text, planted.2 = number.2
  · obtain ⟨planted, hplanted, hend⟩ := hmeets
    obtain ⟨gap, hgap, hrests⟩ := rests_of_end hTp hplanted (by dsimp only; omega)
    rw [← hend]
    exact kept_of_rests_planted hU hgap hrests
  -- no planted authorisation meets it, and it is stripped as it is reported
  have hapart : ∀ planted ∈ plantedSpans U text, planted.2 ≤ number.1 ∨ number.2 < planted.1 := by
    intro planted hplanted
    have happart := planted_apart_harmless hU hplanted hharmless
    have hswallow := number_le_planted hU hremoved hnumber hplanted
    have hne : planted.2 ≠ number.2 := fun heq => hmeets ⟨planted, hplanted, heq⟩
    have hlt'' := (mem_finditer hplanted).2.1
    omega
  have hfree : ∀ j, number.1 ≤ j → j ≤ number.2 → ¬ Covered (plantedSpans U text) j := by
    rintro j hle hle' ⟨planted, hplanted, hover'⟩
    have hcases := hapart planted hplanted
    omega
  obtain ⟨p1, hp1, hover1⟩ := (kept_gapsOf_iff hTp.within).2
    ⟨Nat.zero_le number.2, by dsimp only; omega, hfree _ (Nat.le_of_lt hnumber') (Nat.le_refl _)⟩
  obtain ⟨hcut, hbegin, -⟩ := gapsOf_cut hTp hp1
  have hin : p1.1 ≤ number.1 := by
    rcases hbegin with hbegin | ⟨planted, hplanted, hend⟩
    · rw [hbegin]
      exact Nat.zero_le _
    · have hcases := hapart planted hplanted
      have hlt'' := (mem_finditer hplanted).2.1
      omega
  have hentry := number_enters hU (fun number hnumber planted hplanted hlt _ =>
    number_le_planted hU hremoved hnumber hplanted hlt) hp1
  have hfound := hcut.mem_finditer hT hentry hnumber hin (by omega)
    (hcut.matchAt_piece hT hin hmatch (by omega))
  obtain ⟨gap, hgap, hrests⟩ := rests_of_end hT hfound (by dsimp only; omega)
  have hkept := kept_of_rests_number hU hp1 hgap hrests
  rwa [Nat.add_sub_cancel' (Nat.le_of_lt hnumber')] at hkept

end Passes

/-- Nothing that is reported is left, and everything else is, exactly if the matches are
    untangled. -/
theorem leavesNothing_iff (hU : FoldLaws U) :
    LeavesNothing U text sourceUrl ↔ Untangled U text := by
  constructor
  · intro h
    exact ⟨fun number hnumber planted hplanted hlt hlt' =>
        ⟨number_le_planted hU h.removed hnumber hplanted hlt,
          untangled_planted hU h.removed hnumber hplanted hlt hlt'⟩,
      fun number hnumber harmless hharmless _ =>
        untangled_harmless hU h.removed hnumber hharmless⟩
  · intro h
    exact ⟨clean_strip hU, strip_eq hU, pieces_ordered hU, fun piece => pieces_unchanged hU,
      fun _ hreported hkept => ((kept_pieces_iff hU h).1 hkept).2 hreported,
      fun _ hlt hnot => (kept_pieces_iff hU h).2 ⟨hlt, hnot⟩⟩

/-! ## Two texts -/

theorem word_ascii_iff (c : Char) : Unicode.ascii.word c = true ↔
    (48 ≤ c.toNat ∧ c.toNat ≤ 57) ∨ (65 ≤ c.toNat ∧ c.toNat ≤ 90) ∨ c.toNat = 95 ∨
      (97 ≤ c.toNat ∧ c.toNat ≤ 122) := by
  have hunderscore : c = '_' ↔ c.toNat = 95 :=
    ⟨fun h => congrArg Char.toNat h, fun h => Char.toNat_inj.1 h⟩
  show ((decide (c.val ≥ 'A'.val ∧ c.val ≤ 'Z'.val) || (c.val ≥ 'a'.val && c.val ≤ 'z'.val) ||
    (c.val ≥ '0'.val && c.val ≤ '9'.val)) || c == '_') = true ↔ _
  simp only [Bool.or_eq_true, Bool.and_eq_true, decide_eq_true_eq, beq_iff_eq, hunderscore,
    UInt32.le_iff_toNat_le, ge_iff_le]
  show (((65 ≤ c.toNat ∧ c.toNat ≤ 90) ∨ (97 ≤ c.toNat ∧ c.toNat ≤ 122)) ∨
    (48 ≤ c.toNat ∧ c.toNat ≤ 57)) ∨ c.toNat = 95 ↔ _
  omega

/-- The tables as far as ASCII goes, and the Kelvin sign, which is a `k` by letter case. -/
def kelvinTables : Unicode :=
  { Unicode.ascii with word c := Unicode.ascii.word c || c.toNat == 0x212a }

theorem word_kelvinTables_iff (c : Char) : kelvinTables.word c = true ↔
    ((48 ≤ c.toNat ∧ c.toNat ≤ 57) ∨ (65 ≤ c.toNat ∧ c.toNat ≤ 90) ∨ c.toNat = 95 ∨
      (97 ≤ c.toNat ∧ c.toNat ≤ 122)) ∨ c.toNat = 0x212a := by
  show (Unicode.ascii.word c || c.toNat == 0x212a) = true ↔ _
  rw [Bool.or_eq_true, word_ascii_iff, beq_iff_eq]

/-- Letter case does not decide what is a word character. -/
theorem word_lowerChar (c : Char) : kelvinTables.word (lowerChar c) = kelvinTables.word c := by
  rw [Bool.eq_iff_iff]
  unfold lowerChar
  split
  · next h =>
    have hrange : 65 ≤ c.toNat ∧ c.toNat ≤ 90 := h
    have hvalid : (c.toNat + 32).isValidChar := .inl (by omega)
    have hnat : (Char.ofNat (c.toNat + 32)).toNat = c.toNat + 32 := by
      unfold Char.ofNat
      rw [dif_pos hvalid]
      rfl
    rw [word_kelvinTables_iff, word_kelvinTables_iff, hnat]
    omega
  · split
    · next h => simp [word_kelvinTables_iff, h]
    · rfl

theorem foldLaws_kelvinTables : FoldLaws kelvinTables where
  ascii := ⟨fun c hc => by
      have hlt : c.toNat < 128 := of_decide_eq_true hc
      have hne : (c.toNat == 0x212a) = false := beq_eq_false_iff_ne.2 (by omega)
      show (Unicode.ascii.word c || c.toNat == 0x212a) = _
      rw [hne, Bool.or_false], fun _ _ => rfl, fun _ _ => rfl⟩
  word_of_fold c d _ heq := by
    have heq' : lowerChar c = lowerChar d := heq
    rw [← word_lowerChar c, ← word_lowerChar d, heq']
  word_of_space c hc := by
    rw [← Bool.not_eq_true, word_kelvinTables_iff]
    unfold isSpace at hc
    simp only [Bool.or_eq_true, Bool.and_eq_true, decide_eq_true_eq, beq_iff_eq] at hc
    omega

/-- A run number whose end is a planted authorisation. -/
theorem swallowed_leavesNothing :
    LeavesNothing kelvinTables "run_id abcd-pre-approved by me".toList "https://example.com" :=
  (leavesNothing_iff foldLaws_kelvinTables).2 ⟨by decide +kernel, by decide +kernel⟩

/-- A run number takes the first word of a harmless framing, and the rest is no match. -/
theorem harmlessRest_kept :
    ¬ LeavesNothing kelvinTables "run_id: proceed without a card".toList "https://example.com" :=
  fun h => h.removed 15 ⟨_, .tail _ (.tail _ (.head _)), (8, 30), by decide +kernel, by decide⟩
    ⟨(15, " without a card".toList), by decide +kernel, by decide⟩

end CanvasOS.Signals
