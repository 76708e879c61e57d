/-
  The object in a model's reply (`_parse_json_content`, dispatch/core.py).

  1. `parseJsonContent` — strip, take what is between the fences, skip to the first brace, decode.
  2. `sound` — what it returns is the value of a JSON document that stands in the reply.
  3. `Wrapping` — what a chatty model puts around the object: prose in front, a fence, anything
     behind.
  4. `unwraps_iff` — the object comes back out of every wrapping, unless the reply begins with a
     fence and the object has three backticks inside: the body is cut at the first fence that
     follows, be it in the middle of a string.

  A failure is raised with the decoder's message and logged with a skeleton of the text; neither is
  modelled.
-/
import CanvasOS.Lib.JsonText

namespace CanvasOS.Dispatch.ModelText

open Python

/-- `DispatchError`, by its two messages. -/
inductive ParseError where
  /-- "model response was not valid JSON: …" -/
  | notValidJson
  /-- "model response was valid JSON but not an object (got …)", with the type's name -/
  | notAnObject (got : Json)
deriving DecidableEq

/-- Three backticks. -/
def fence : List Char := ['`', '`', '`']

/-- What is between the fences, where the text begins with one. -/
def unfence (text : List Char) : List Char :=
  if fence.isPrefixOf text then
    let body := match before ['\n'] text with
      | some line => text.drop (line.length + 1)
      | none => text.drop 3
    strip ((before fence body).getD body)
  else text

/-- The text from its first brace, where it does not begin with a JSON opener. -/
def skipPreamble (text : List Char) : List Char :=
  if ['{'].isPrefixOf text || ['['].isPrefixOf text then text
  else
    match before ['{'] text with
    | some preamble => text.drop preamble.length
    | none => text

/-- `_parse_json_content`. -/
def parseJsonContent (spell : List Char → String) (content : List Char) :
    Except ParseError (List (String × Json)) :=
  match rawDecode spell (skipPreamble (unfence (strip content))) with
  | none => .error .notValidJson
  | some (.obj kvs, _) => .ok kvs
  | some (v, _) => .error (.notAnObject v)

section Sound

variable {spell : List Char → String} {content text : List Char} {o : List (String × Json)}

theorem infix_getD_before (sub body : List Char) : (before sub body).getD body <:+: body := by
  cases h : before sub body with
  | none => exact List.infix_rfl
  | some p =>
    obtain ⟨rest, hrest⟩ := eq_of_before h
    rw [Option.getD_some, hrest, List.append_assoc]
    exact (List.prefix_append _ _).isInfix

theorem infix_unfence : unfence text <:+: text := by
  unfold unfence
  split
  · refine (infix_strip _).trans ((infix_getD_before _ _).trans ?_)
    split
    · exact (List.drop_suffix _ _).isInfix
    · exact (List.drop_suffix _ _).isInfix
  · exact List.infix_rfl

theorem infix_skipPreamble : skipPreamble text <:+: text := by
  unfold skipPreamble
  split
  · exact List.infix_rfl
  split
  · exact (List.drop_suffix _ _).isInfix
  · exact List.infix_rfl

theorem rawDecode_of_ok (h : parseJsonContent spell content = .ok o) :
    ∃ rest, rawDecode spell (skipPreamble (unfence (strip content))) = some (.obj o, rest) := by
  unfold parseJsonContent at h
  split at h
  · cases h
  · next kvs rest hraw =>
    obtain rfl := Except.ok.inj h
    exact ⟨rest, hraw⟩
  · cases h

/-- What is returned is the value of a document that stands in the reply. -/
theorem sound (h : parseJsonContent spell content = .ok o) :
    ∃ d, d <:+: content ∧ loads spell d = some (.obj o) := by
  obtain ⟨rest, hraw⟩ := rawDecode_of_ok h
  obtain ⟨d, hd, hread⟩ := reads_of_rawDecode hraw
  refine ⟨d, ?_, hread.loaded⟩
  have hstart : d <:+: skipPreamble (unfence (strip content)) := by
    rw [hd]
    exact (List.prefix_append _ _).isInfix
  exact hstart.trans (infix_skipPreamble.trans (infix_unfence.trans (infix_strip _)))

end Sound

/-! ## Wrappings -/

/-- What stands around the object: `tag` is what follows the backticks of the fence. -/
structure Wrapping where
  lead : List Char
  tag : Option (List Char)
  trail : List Char
  noBrace : '{' ∉ lead
  noBracket : '[' ∉ lead
  noFence : ¬ fence <:+: lead
  known : ∀ t ∈ tag, t = [] ∨ t = "json".toList

/-- What stands in front of the document. -/
def Wrapping.front (w : Wrapping) : List Char :=
  match w.tag with
  | none => w.lead
  | some tag => w.lead ++ (fence ++ (tag ++ ['\n']))

/-- What stands behind it. -/
def Wrapping.back (w : Wrapping) : List Char :=
  match w.tag with
  | none => w.trail
  | some _ => fence ++ w.trail

/-- The reply. -/
def Wrapping.text (w : Wrapping) (d : List Char) : List Char := w.front ++ (d ++ w.back)

/-- The reply begins with a fence. -/
def Wrapping.Fenced (w : Wrapping) (d : List Char) : Prop := fence <+: strip (w.text d)

section Unwrap

variable {spell : List Char → String} {w : Wrapping} {d pre post : List Char}
  {o : List (String × Json)}

/-- The text of an object loses nothing when what stands around it is stripped. -/
theorem strip_around (h : Reads spell (.obj o) d) :
    strip (pre ++ (d ++ post)) = pre.dropWhile isSpace ++ (d ++ rstrip post) := by
  obtain ⟨d', rfl⟩ := Reads.obj_ends h
  have hhead : (pre ++ ('{' :: (d' ++ ['}']) ++ post)).dropWhile isSpace =
      pre.dropWhile isSpace ++ ('{' :: (d' ++ ['}']) ++ post) := dropWhile_append_head rfl
  have htail : rstrip (pre.dropWhile isSpace ++ '{' :: d' ++ '}' :: post) =
      pre.dropWhile isSpace ++ '{' :: d' ++ '}' :: rstrip post := rstrip_append _ _ rfl
  rw [strip_eq, hhead]
  simpa using htail

/-- Text without a brace or bracket in front of the object is skipped. -/
theorem skipPreamble_around (h : Reads spell (.obj o) d) (hbrace : '{' ∉ pre)
    (hbracket : '[' ∉ pre) : skipPreamble (pre ++ (d ++ post)) = d ++ post := by
  obtain ⟨d', rfl⟩ := Reads.obj_ends h
  unfold skipPreamble
  cases pre with
  | nil => rfl
  | cons c pre =>
    simp only [List.mem_cons, not_or] at hbrace hbracket
    have hno : ¬ ((['{'].isPrefixOf (c :: pre ++ ('{' :: (d' ++ ['}']) ++ post)) ||
        ['['].isPrefixOf (c :: pre ++ ('{' :: (d' ++ ['}']) ++ post))) = true) := by
      simp [List.isPrefixOf, hbrace.1, hbracket.1]
    rw [if_neg hno]
    have hbefore : before ['{'] (c :: pre ++ '{' :: (d' ++ ['}'] ++ post)) = some (c :: pre) :=
      before_singleton (by simp [hbrace])
    simp only [List.cons_append, List.append_assoc] at hbefore ⊢
    rw [hbefore]
    simp

theorem decoded_around (h : Reads spell (.obj o) d) :
    rawDecode spell (d ++ post) = some (.obj o, post) :=
  h.decoded fun hnumber => nomatch hnumber

/-! ### The fence -/

/-- A fence does not begin in `l` and end behind it, where no backtick follows. -/
theorem fence_of_append {l t : List Char} {c : Char} (h : fence <+: l ++ c :: t) (hc : c ≠ '`') :
    fence <+: l := by
  obtain ⟨u, hu⟩ := h
  match l with
  | [] => exact absurd (List.cons.inj hu).1.symm hc
  | [_] => exact absurd (List.cons.inj (List.cons.inj hu).2).1.symm hc
  | [_, _] => exact absurd (List.cons.inj (List.cons.inj (List.cons.inj hu).2).2).1.symm hc
  | x :: y :: z :: l =>
    simp only [fence, List.cons_append, List.nil_append, List.cons.injEq] at hu
    obtain ⟨rfl, rfl, rfl, -⟩ := hu
    exact ⟨l, rfl⟩

/-- What the prose in front adds to a fence is backticks. -/
theorem newline_of_fence {l t : List Char} (h : fence <+: l ++ t) (hl : ¬ fence <+: l) :
    '\n' ∉ l := by
  obtain ⟨u, hu⟩ := h
  match l with
  | [] => exact fun hmem => nomatch hmem
  | [x] =>
    simp only [fence, List.cons_append, List.nil_append, List.cons.injEq] at hu
    simp [← hu.1]
  | [x, y] =>
    simp only [fence, List.cons_append, List.nil_append, List.cons.injEq] at hu
    simp [← hu.1, ← hu.2.1]
  | x :: y :: z :: l =>
    simp only [fence, List.cons_append, List.nil_append, List.cons.injEq] at hu
    obtain ⟨rfl, rfl, rfl, -⟩ := hu
    exact absurd ⟨l, rfl⟩ hl

/-- A fence behind a text that has none and does not end in a backtick is found. -/
theorem before_fence {e t : List Char} {z : Char} (hz : z ≠ '`') (hno : ¬ fence <:+: e ++ [z]) :
    before fence (e ++ [z] ++ fence ++ t) = some (e ++ [z]) := by
  refine before_append fun q c r hq hstart => hno ?_
  rcases List.eq_nil_or_concat (c :: r) with hnil | ⟨r₀, z', hr⟩
  · cases hnil
  rw [hr, List.concat_eq_append] at hq hstart
  rw [← List.append_assoc] at hq
  obtain ⟨rfl, hlast⟩ := List.append_inj' hq rfl
  obtain rfl := (List.cons.inj hlast).1
  have hin : fence <+: r₀ := fence_of_append (by simpa using hstart) hz
  exact (hin.isInfix.trans (List.suffix_append q r₀).isInfix).trans
    (List.prefix_append _ _).isInfix

theorem not_space_of_fence {s : List Char} (h : fence <:+: s) :
    ¬ ∀ x ∈ s, isJsonSpace x = true := by
  intro hs
  have hmem : '`' ∈ s := h.subset List.mem_cons_self
  exact absurd (hs _ hmem) (by decide)

theorem strip_space {p : List Char} (h : ∀ x ∈ p, isJsonSpace x = true) : strip p = [] := by
  have hnil : p.dropWhile isSpace = [] :=
    List.dropWhile_eq_nil_iff.2 fun x hx => isSpace_of_isJsonSpace (h x hx)
  rw [strip_eq, hnil]
  rfl

/-- The part of the document in front of a fence inside it is no object. -/
theorem cut_short {p s u v : List Char} {o' : List (String × Json)} {rest : List Char}
    (h : Reads spell (.obj o) d) (hu : ∀ x ∈ u, isJsonSpace x = true)
    (hv : ∀ x ∈ v, isJsonSpace x = true) (hcut : u ++ (d ++ v) = p ++ s) (hs : fence <:+: s)
    (hraw : rawDecode spell (skipPreamble (strip p)) = some (.obj o', rest)) : False := by
  rcases List.append_eq_append_iff.1 hcut with ⟨a, rfl, ha⟩ | ⟨a, rfl, -⟩
  · rcases List.append_eq_append_iff.1 ha with ⟨b, -, rfl⟩ | ⟨b, rfl, rfl⟩
    · exact not_space_of_fence hs fun x hx => hv x (List.mem_append_right _ hx)
    · obtain ⟨d', hd'⟩ := Reads.obj_ends h
      cases a with
      | nil =>
        rw [List.append_nil, strip_space hu] at hraw
        cases hraw
      | cons c a =>
        obtain ⟨rfl, -⟩ := List.cons.inj hd'
        have hstrip : strip (u ++ '{' :: a) = '{' :: rstrip a := by
          rw [strip_eq, dropWhile_append_head rfl,
            List.dropWhile_eq_nil_iff.2 fun x hx => isSpace_of_isJsonSpace (hu x hx)]
          exact rstrip_append [] a rfl
        have hskip : skipPreamble ('{' :: rstrip a) = '{' :: rstrip a := rfl
        rw [hstrip, hskip] at hraw
        obtain ⟨t, ht⟩ := isPrefix_rstrip a
        have hwhole : '{' :: a ++ b = '{' :: rstrip a ++ (t ++ b) := by
          rw [List.cons_append, List.cons_append, ← List.append_assoc, ht]
        rw [hwhole] at h
        refine h.not_prefix ?_ hraw rfl
        intro hnil
        obtain rfl := (List.append_eq_nil_iff.1 hnil).2
        exact not_space_of_fence hs hv
  · rw [strip_space fun x hx => hu x (List.mem_append_left _ hx)] at hraw
    cases hraw

/-! ### The whole reply -/

theorem not_mem_front (w : Wrapping) : '{' ∉ w.front ∧ '[' ∉ w.front := by
  unfold Wrapping.front
  cases htag : w.tag with
  | none => exact ⟨w.noBrace, w.noBracket⟩
  | some tag =>
    rcases w.known tag (by rw [htag]; rfl) with rfl | rfl
    · simp [w.noBrace, w.noBracket, fence]
    · simp [w.noBrace, w.noBracket, fence]

theorem strip_text {u v : List Char} (h : Reads spell (.obj o) d) :
    strip (w.text (u ++ (d ++ v))) =
      (w.front ++ u).dropWhile isSpace ++ (d ++ rstrip (v ++ w.back)) := by
  rw [← strip_around h]
  simp [Wrapping.text]

/-- A reply that does not begin with a fence. -/
theorem parse_of_not_fenced {u v : List Char} (h : Reads spell (.obj o) d)
    (hu : ∀ x ∈ u, isJsonSpace x = true) (hfenced : ¬ w.Fenced (u ++ (d ++ v))) :
    parseJsonContent spell (w.text (u ++ (d ++ v))) = .ok o := by
  unfold Wrapping.Fenced at hfenced
  rw [strip_text h] at hfenced
  have hfront := not_mem_front w
  have hnot : ∀ c, isJsonSpace c = false → c ∉ w.front →
      c ∉ (w.front ++ u).dropWhile isSpace := by
    intro c hspace hc hmem
    rcases List.mem_append.1 ((List.dropWhile_suffix _).subset hmem) with hmem | hmem
    · exact hc hmem
    · exact absurd (hu c hmem) (by simp [hspace])
  have hunfence : unfence ((w.front ++ u).dropWhile isSpace ++ (d ++ rstrip (v ++ w.back))) =
      (w.front ++ u).dropWhile isSpace ++ (d ++ rstrip (v ++ w.back)) :=
    if_neg fun hstart => hfenced (List.isPrefixOf_iff_prefix.1 hstart)
  unfold parseJsonContent
  rw [strip_text h, hunfence, skipPreamble_around h (hnot _ rfl hfront.1) (hnot _ rfl hfront.2),
    decoded_around h]

/-- Prose alone does not make a reply begin with a fence. -/
theorem tag_of_fenced {u v : List Char} (h : Reads spell (.obj o) d)
    (hu : ∀ x ∈ u, isJsonSpace x = true) (hfenced : w.Fenced (u ++ (d ++ v))) :
    ∃ tag, w.tag = some tag := by
  cases htag : w.tag with
  | some tag => exact ⟨tag, rfl⟩
  | none =>
    exfalso
    obtain ⟨d', hd'⟩ := Reads.obj_ends h
    have hfront : w.front = w.lead := by rw [Wrapping.front, htag]
    have hspace : ∃ u', (w.lead ++ u).dropWhile isSpace = w.lead.dropWhile isSpace ++ u' ∧
        ∀ x ∈ u', isJsonSpace x = true := by
      cases hdrop : w.lead.dropWhile isSpace with
      | nil =>
        have hdrop' := List.dropWhile_eq_nil_iff.1 hdrop
        refine ⟨[], List.dropWhile_eq_nil_iff.2 fun x hx => ?_, noSpace⟩
        rcases List.mem_append.1 hx with hx | hx
        · exact hdrop' x hx
        · exact isSpace_of_isJsonSpace (hu x hx)
      | cons x l =>
        refine ⟨u, ?_, hu⟩
        rw [List.dropWhile_append, hdrop]
        rfl
    obtain ⟨u', hdrop, hu'⟩ := hspace
    have hstart : fence <+: w.lead.dropWhile isSpace := by
      unfold Wrapping.Fenced at hfenced
      rw [strip_text h, hfront, hdrop, List.append_assoc, hd'] at hfenced
      cases u' with
      | nil => exact fence_of_append hfenced (by decide)
      | cons x u' =>
        refine fence_of_append hfenced ?_
        rintro rfl
        exact absurd (hu' _ List.mem_cons_self) (by decide)
    exact w.noFence (hstart.isInfix.trans (List.dropWhile_suffix _).isInfix)

/-- A reply that begins with a fence: it is the wrapping's, and its body goes up to the next. -/
theorem unfence_of_fenced {u v : List Char} (h : Reads spell (.obj o) d)
    (hu : ∀ x ∈ u, isJsonSpace x = true) (hfenced : w.Fenced (u ++ (d ++ v))) :
    unfence (strip (w.text (u ++ (d ++ v)))) =
      strip ((before fence (u ++ (d ++ v) ++ fence ++ rstrip w.trail)).getD
        (u ++ (d ++ v) ++ fence ++ rstrip w.trail)) := by
  obtain ⟨tag, htag⟩ := tag_of_fenced h hu hfenced
  have hlead : ¬ fence <+: w.lead.dropWhile isSpace := fun hstart =>
    w.noFence (hstart.isInfix.trans (List.dropWhile_suffix _).isInfix)
  have htext : strip (w.text (u ++ (d ++ v))) = w.lead.dropWhile isSpace ++ (fence ++ tag) ++
      '\n' :: (u ++ (d ++ v) ++ fence ++ rstrip w.trail) := by
    have hfront : (w.front ++ u).dropWhile isSpace =
        w.lead.dropWhile isSpace ++ (fence ++ tag) ++ '\n' :: u := by
      have hdrop := dropWhile_append_head (w := w.lead) (c := '`')
        (t := '`' :: '`' :: (tag ++ '\n' :: u)) rfl
      simpa [Wrapping.front, htag, fence] using hdrop
    have hback : rstrip (v ++ w.back) = v ++ (fence ++ rstrip w.trail) := by
      have hstrip := rstrip_append (v ++ ['`', '`']) w.trail (c := '`') rfl
      simpa [Wrapping.back, htag, fence] using hstrip
    rw [strip_text h, hfront, hback]
    simp
  unfold Wrapping.Fenced at hfenced
  rw [htext, List.append_assoc] at hfenced
  have hnewline : '\n' ∉ w.lead.dropWhile isSpace ++ (fence ++ tag) := by
    have hl := newline_of_fence hfenced hlead
    rcases w.known tag (by rw [htag]; rfl) with rfl | rfl
    · simpa [fence] using hl
    · simpa [fence] using hl
  have hline : before ['\n'] (w.lead.dropWhile isSpace ++ (fence ++ tag) ++
      '\n' :: (u ++ (d ++ v) ++ fence ++ rstrip w.trail)) =
        some (w.lead.dropWhile isSpace ++ (fence ++ tag)) := before_singleton hnewline
  rw [← List.append_assoc] at hfenced
  rw [htext, unfence, if_pos (List.isPrefixOf_iff_prefix.2 hfenced), hline]
  have hbody : ∀ l t : List Char, (l ++ '\n' :: t).drop (l.length + 1) = t := by
    intro l t
    simp [List.drop_append]
  simp only [hbody]

/-- The last character of a document is no backtick. -/
theorem last_of_document {u v : List Char} (h : Reads spell (.obj o) d)
    (hv : ∀ x ∈ v, isJsonSpace x = true) : ∃ e z, u ++ (d ++ v) = e ++ [z] ∧ z ≠ '`' := by
  obtain ⟨d', rfl⟩ := Reads.obj_ends h
  rcases List.eq_nil_or_concat v with rfl | ⟨v, z, rfl⟩
  · exact ⟨u ++ '{' :: d', '}', by simp, by decide⟩
  · refine ⟨u ++ ('{' :: (d' ++ ['}']) ++ v), z, by simp, ?_⟩
    rintro rfl
    exact absurd (hv '`' (by simp)) (by decide)

/-- A reply that begins with a fence, around an object without one. -/
theorem parse_of_fenced {u v : List Char} (h : Reads spell (.obj o) d)
    (hu : ∀ x ∈ u, isJsonSpace x = true) (hv : ∀ x ∈ v, isJsonSpace x = true)
    (hfenced : w.Fenced (u ++ (d ++ v))) (hno : ¬ fence <:+: u ++ (d ++ v)) :
    parseJsonContent spell (w.text (u ++ (d ++ v))) = .ok o := by
  have hbody : before fence (u ++ (d ++ v) ++ fence ++ rstrip w.trail) = some (u ++ (d ++ v)) := by
    obtain ⟨e, z, he, hz⟩ := last_of_document (u := u) h hv
    rw [he] at hno ⊢
    exact before_fence hz hno
  have hstrip : strip (u ++ (d ++ v)) = d := by
    have hleft : u.dropWhile isSpace = [] :=
      List.dropWhile_eq_nil_iff.2 fun x hx => isSpace_of_isJsonSpace (hu x hx)
    have hright : rstrip v = [] := by
      rw [rstrip, List.dropWhile_eq_nil_iff.2 fun x hx =>
        isSpace_of_isJsonSpace (hv x (List.mem_reverse.1 hx))]
      rfl
    rw [strip_around h, hleft, hright, List.nil_append, List.append_nil]
  have hskip : skipPreamble ([] ++ (d ++ [])) = d ++ [] :=
    skipPreamble_around h List.not_mem_nil List.not_mem_nil
  rw [List.nil_append, List.append_nil] at hskip
  have hraw : rawDecode spell d = some (.obj o, []) := by
    have hdecoded : rawDecode spell (d ++ []) = some (.obj o, []) := decoded_around h
    rwa [List.append_nil] at hdecoded
  unfold parseJsonContent
  rw [unfence_of_fenced h hu hfenced, hbody, Option.getD_some, hstrip, hskip, hraw]

/-- A reply that begins with a fence, around an object that has one inside. -/
theorem not_parse_of_fenced {u v : List Char} {o' : List (String × Json)}
    (h : Reads spell (.obj o) d) (hu : ∀ x ∈ u, isJsonSpace x = true)
    (hv : ∀ x ∈ v, isJsonSpace x = true) (hfenced : w.Fenced (u ++ (d ++ v)))
    (hin : fence <:+: u ++ (d ++ v)) :
    parseJsonContent spell (w.text (u ++ (d ++ v))) ≠ .ok o' := by
  intro hparse
  obtain ⟨rest, hraw⟩ := rawDecode_of_ok hparse
  rw [unfence_of_fenced h hu hfenced] at hraw
  obtain ⟨a, b, hab⟩ := hin
  have hshape : u ++ (d ++ v) ++ fence ++ rstrip w.trail =
      a ++ fence ++ (b ++ fence ++ rstrip w.trail) := by
    rw [← hab]
    simp only [List.append_assoc]
  have hfound : fence <:+: u ++ (d ++ v) ++ fence ++ rstrip w.trail :=
    ⟨u ++ (d ++ v), rstrip w.trail, rfl⟩
  cases hbefore : before fence (u ++ (d ++ v) ++ fence ++ rstrip w.trail) with
  | none => exact before_ne_none hfound hbefore
  | some p =>
    rw [hbefore, Option.getD_some] at hraw
    rw [hshape] at hbefore
    obtain ⟨a', rfl⟩ := prefix_of_before hbefore
    refine cut_short h hu hv (p := p) (s := a' ++ fence ++ b) ?_ ⟨a', b, rfl⟩ hraw
    rw [← hab]
    simp only [List.append_assoc]

end Unwrap

/-- What is returned stands in the reply, and an object comes back out of every wrapping, unless
    the reply begins with a fence and the object has three backticks inside. -/
theorem unwraps_iff (spell : List Char → String) :
    (∀ content o, parseJsonContent spell content = .ok o →
      ∃ d, d <:+: content ∧ loads spell d = some (.obj o)) ∧
    ∀ (w : Wrapping) (d : List Char) (o : List (String × Json)), loads spell d = some (.obj o) →
      (parseJsonContent spell (w.text d) = .ok o ↔ (w.Fenced d → ¬ fence <:+: d)) := by
  refine ⟨fun content o h => sound h, fun w d o h => ?_⟩
  obtain ⟨u, d, v, rfl, hu, hv, hread⟩ := loads_iff.1 h
  by_cases hfenced : w.Fenced (u ++ (d ++ v))
  · by_cases hin : fence <:+: u ++ (d ++ v)
    · exact ⟨fun hparse => absurd hparse (not_parse_of_fenced hread hu hv hfenced hin),
        fun hno => absurd hin (hno hfenced)⟩
    · exact ⟨fun _ _ => hin, fun _ => parse_of_fenced hread hu hv hfenced hin⟩
  · exact ⟨fun _ hfence => absurd hfence hfenced,
      fun _ => parse_of_not_fenced hread hu hfenced⟩

/-- A fence with the language named. -/
def jsonFence : Wrapping where
  lead := []
  tag := some "json".toList
  trail := "\nThat is all.".toList
  noBrace := by decide
  noBracket := by decide
  noFence := by decide
  known := by decide

/-- A document of two lines, that a fence is put around. -/
def bodyDocument : List Char := "\x7b\"body\": \"text\",\n \"score\": 3\x7d\n".toList

theorem bodyDocument_unwrapped : parseJsonContent String.ofList (jsonFence.text bodyDocument) =
    .ok [("body", .str "text"), ("score", .int 3)] :=
  ((unwraps_iff String.ofList).2 jsonFence bodyDocument _ (by decide +kernel)).2
    fun _ => by decide +kernel

/-- A document whose text shows a code block. -/
def blockDocument : List Char := "\x7b\"body\": \"``` code ```\"\x7d\n".toList

/-- The fence around it is closed by the first one inside. -/
theorem blockDocument_lost :
    loads String.ofList blockDocument = some (.obj [("body", .str "``` code ```")]) ∧
    parseJsonContent String.ofList (jsonFence.text blockDocument) = .error .notValidJson := by
  decide +kernel

end CanvasOS.Dispatch.ModelText
