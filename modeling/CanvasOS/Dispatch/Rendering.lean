/-
  The text of a draft: how it is rendered from a model's output, and what of it a reviewer reads.

  1. The six renderers, from the output of a drafting function to the text that is stored.  `none`
     is the exception Python raises on an output of the wrong shape.
  2. `reviewableDraftText` — the text up to the carousel's machine-readable block.
  3. `covers_reviewable_iff` — nothing is cut exactly where the marker of that block does not occur.
-/
import CanvasOS.Lib.Format
import CanvasOS.Review.Verdict

namespace CanvasOS.Dispatch

open Python Review

/-! ## Renderers -/

/-- `output.get(key, default)`. -/
def getOr (output : Object) (key : String) (default : Json) : Json :=
  (Json.lookup output key).getD default

/-- `for x in value`, where each `x` is asked for its fields. -/
def objectsOf (value : Json) : Option (List Object) := do
  (← pyList value).mapM fun
    | .obj kvs => some kvs
    | _ => none

/-- A value that `"\n".join` accepts. -/
def asStr : Json → Option String
  | .str s => some s
  | _ => none

/-- `s.strip()`. -/
def stripStr (s : String) : String := String.ofList (strip s.toList)

/-- `_render_simple_post`. -/
def renderSimplePost (output : Object) : Option String :=
  some (stripStr (pyStr (getOr output "post" (.str "")) ++ "\n\n" ++
    pyStr (getOr output "cta_url" (.str ""))))

/-- `CAROUSEL_BULK_CSV_MARKER`. -/
def carouselBulkCsvMarker : String := "--- canva_bulk_create_csv ---"

/-- The line of one slide. -/
def slideLine (slide : Object) : String :=
  "Slide " ++ pyStr (Json.get slide "slide_number") ++ ": " ++ pyStr (Json.get slide "headline") ++
    " — " ++ pyStr (Json.get slide "subhead")

/-- `_render_carousel`. -/
def renderCarousel (output : Object) : Option String := do
  let slides ← objectsOf (getOr output "slides" (.arr []))
  let csv ← asStr (getOr output "canva_bulk_create_csv" (.str ""))
  some (join "\n" (["[CAROUSEL]"] ++ slides.map slideLine ++
    ["", "CTA: " ++ pyStr (getOr output "cta_url" (.str "")), "", carouselBulkCsvMarker, csv]))

/-- `_render_newsletter`. -/
def renderNewsletter (output : Object) : Option String :=
  some ("Subject: " ++ pyStr (getOr output "subject" (.str "")) ++ "\n\n" ++
    pyStr (getOr output "body" (.str "")))

/-- `_render_case_study`. -/
def renderCaseStudy (output : Object) : Option String :=
  some (dumpsIndent (getOr output "case_study" (.obj output)))

/-- The lines of one derivative. -/
def derivativeLines (derivative : Object) : Option (List String) := do
  let post ← asStr (getOr derivative "post" (.str ""))
  let ctaUrl ← asStr (getOr derivative "cta_url" (.str ""))
  some ["[" ++ pyStr (getOr derivative "format" (.str "?")) ++ "]", post, ctaUrl, ""]

/-- `_render_repurpose`. -/
def renderRepurpose (output : Object) : Option String := do
  let derivatives ← objectsOf (getOr output "derivatives" (.arr []))
  let lines ← derivatives.mapM derivativeLines
  some (stripStr (join "\n" lines.flatten))

/-! ## What a reviewer reads -/

/-- `_teams_display_text`. -/
def teamsDisplayText (draftText : String) : String :=
  match before carouselBulkCsvMarker.toList draftText.toList with
  | some shown => String.ofList (rstrip shown)
  | none => draftText

/-- `_reviewable_draft_text`. -/
def reviewableDraftText (draftText : String) : String := teamsDisplayText draftText

/-- Every character of `whole` is part of `given`. -/
def Covers (given whole : String) : Prop := whole.toList <:+: given.toList

theorem covers_refl (text : String) : Covers text text := List.infix_refl _

/-- Without the marker, a reviewer reads the text as it is. -/
theorem reviewable_of_no_marker {text : String}
    (h : ¬ carouselBulkCsvMarker.toList <:+: text.toList) : reviewableDraftText text = text := by
  unfold reviewableDraftText teamsDisplayText
  split
  · next shown hb =>
    obtain ⟨rest, hrest⟩ := eq_of_before hb
    exact absurd ⟨shown, rest, hrest.symm⟩ h
  · rfl

/-- With the marker, the reviewer reads less than there is. -/
theorem reviewable_length_lt {text : String} (h : carouselBulkCsvMarker.toList <:+: text.toList) :
    (reviewableDraftText text).toList.length < text.toList.length := by
  unfold reviewableDraftText teamsDisplayText
  split
  · next shown hb =>
    obtain ⟨rest, hrest⟩ := eq_of_before hb
    have hle := rstrip_length_le (s := shown)
    have hmarker : 0 < carouselBulkCsvMarker.toList.length := by decide
    rw [String.toList_ofList, hrest, List.length_append, List.length_append]
    omega
  · next hb => exact absurd hb (before_ne_none h)

/-- The reviewable text covers the draft exactly where the marker does not occur in it. -/
theorem covers_reviewable_iff {text : String} :
    Covers (reviewableDraftText text) text ↔ ¬ carouselBulkCsvMarker.toList <:+: text.toList := by
  constructor
  · intro hc hm
    have hle := hc.length_le
    have hlt := reviewable_length_lt hm
    omega
  · intro hm
    rw [reviewable_of_no_marker hm]
    exact covers_refl text

/-- A carousel always carries the marker. -/
theorem marker_of_renderCarousel {output : Object} {text : String}
    (h : renderCarousel output = some text) :
    carouselBulkCsvMarker.toList <:+: text.toList := by
  simp only [renderCarousel, Option.bind_eq_bind, Option.bind_eq_some_iff, Option.some.injEq] at h
  obtain ⟨slides, -, csv, -, rfl⟩ := h
  exact infix_join (by simp)

end CanvasOS.Dispatch
