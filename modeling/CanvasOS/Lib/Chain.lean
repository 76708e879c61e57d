/-
  Recorded histories along a preorder.

  When every statement and every move of the world takes the state somewhere `R`-later, each recorded
  statement is followed by everything that happened after it: the state it left is `R`-before the
  current one, and before the state in which any later statement was executed (`Chain`).  So two
  recorded statements are in order (`Chain.total`), and what the earlier one left, the later one found.
-/
import CanvasOS.Lib.RelyGuarantee

namespace Interleave

variable {Op : Type} {Res : Op → Type} {S ι ρ : Type}
  {run : ι → (o : Op) → Res o → S → Option (Res o × S)} {R : S → S → Prop}

/-- The statement left a state from which `s` is later. -/
def Followed (run : ι → (o : Op) → Res o → S → Option (Res o × S)) (R : S → S → Prop)
    (e : Event Op Res S ι) (s : S) : Prop :=
  ∃ a t, run e.who e.op a e.pre = some (e.ans, t) ∧ R t s

/-- Every recorded statement is followed by the current state and by the later statements. -/
structure Chain (run : ι → (o : Op) → Res o → S → Option (Res o × S)) (R : S → S → Prop)
    (h : History Op Res S ι ρ) : Prop where
  cur : ∀ e ∈ h.log, Followed run R e h.cur
  log : h.log.Pairwise fun later earlier => Followed run R earlier later.pre

namespace Chain

variable {h : History Op Res S ι ρ} {t : S}

theorem nil {s : S} : Chain run R (⟨s, [], []⟩ : History Op Res S ι ρ) :=
  ⟨fun _ h => absurd h List.not_mem_nil, List.Pairwise.nil⟩

/-- The state moves on. -/
theorem move [IsTrans S R] (hc : Chain run R h) (ht : R h.cur t) :
    Chain run R { h with cur := t } := by
  refine ⟨fun e he => ?_, hc.log⟩
  obtain ⟨a, u, hx, hu⟩ := hc.cur e he
  exact ⟨a, u, hx, IsTrans.trans _ _ _ hu ht⟩

/-- A statement is executed. -/
theorem cons [IsTrans S R] (hc : Chain run R h) {i : ι} {o : Op} {a b : Res o}
    (hx : run i o a h.cur = some (b, t)) (ht : R h.cur t) (hrefl : R t t) :
    Chain run R ⟨t, h.arrived, ⟨i, o, b, h.cur⟩ :: h.log⟩ := by
  refine ⟨fun e he => ?_, List.pairwise_cons.2 ⟨hc.cur, hc.log⟩⟩
  rcases List.mem_cons.1 he with rfl | he
  · exact ⟨a, t, hx, hrefl⟩
  · exact (hc.move ht).cur e he

/-- Two recorded statements are the same one, or one of them follows the other. -/
theorem total (hc : Chain run R h) {e e' : Event Op Res S ι} (he : e ∈ h.log) (he' : e' ∈ h.log) :
    e = e' ∨ Followed run R e e'.pre ∨ Followed run R e' e.pre := by
  let R' (x y : Event Op Res S ι) : Prop := x = y ∨ Followed run R x y.pre ∨ Followed run R y x.pre
  have hlater : h.log.Pairwise R' := hc.log.imp fun h => .inr (.inr h)
  have hearlier : h.log.Pairwise (flip R') := hc.log.imp fun h => .inr (.inl h)
  exact hlater.forall_of_forall_of_flip (fun x _ => .inl rfl) hearlier he he'

end Chain

end Interleave
