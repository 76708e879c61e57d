/-
  Merging in one pass: every item joins the place that one of its keys is registered for; an item
  with no registered key opens a new place and registers its own keys for it.

  1. `Pass`, `places` — the table of keys, and the place that each item of a list goes to.
  2. `Founded` — the invariant of the pass: every place has a founder, whose keys are the registered
     ones, and everyone else in the place shares a key with the founder.
  3. `Chain` — items that share a key, directly or through others.
  4. `places_iff` — the places are the chains exactly where everyone shares a key with the first of
     its own chain.
-/
import Mathlib.Data.List.Induction
import Mathlib.Logic.Relation
import Mathlib.Data.Nat.Find

namespace Merge

variable {α κ : Type}

/-! ## The pass -/

/-- The number of places so far, and the place each key is registered for. -/
structure Pass (κ : Type) where
  size : Nat
  index : κ → Option Nat

/-- Nothing is registered. -/
def Pass.empty : Pass κ := ⟨0, fun _ => none⟩

section Pass

variable [DecidableEq κ] (keys : α → List κ)

/-- The place of the first key that is registered. -/
def Pass.find (p : Pass κ) (x : α) : Option Nat := (keys x).findSome? p.index

/-- The place that the item goes to. -/
def Pass.place (p : Pass κ) (x : α) : Nat := (p.find keys x).getD p.size

/-- The pass, after one item. -/
def Pass.add (p : Pass κ) (x : α) : Pass κ :=
  match p.find keys x with
  | some _ => p
  | none => ⟨p.size + 1, fun k => if k ∈ keys x then some p.size else p.index k⟩

/-- The pass, after a list of items. -/
def Pass.run (p : Pass κ) (xs : List α) : Pass κ := xs.foldl (Pass.add keys) p

/-- Where the items go, from a pass on. -/
def placesFrom : Pass κ → List α → List Nat
  | _, [] => []
  | p, x :: xs => p.place keys x :: placesFrom (p.add keys x) xs

/-- Where the items of a list go. -/
def places (xs : List α) : List Nat := placesFrom keys Pass.empty xs

end Pass

variable {keys : α → List κ} {p : Pass κ} {x : α} {xs : List α} {ns : List Nat} {i j n m : Nat}

theorem run_append_singleton [DecidableEq κ] :
    p.run keys (xs ++ [x]) = (p.run keys xs).add keys x := by
  simp [Pass.run]

theorem placesFrom_append_singleton [DecidableEq κ] :
    placesFrom keys p (xs ++ [x]) = placesFrom keys p xs ++ [(p.run keys xs).place keys x] := by
  induction xs generalizing p with
  | nil => rfl
  | cons y xs ih =>
    rw [List.cons_append, placesFrom, ih, placesFrom, List.cons_append]
    rfl

/-! ## Founders -/

/-- The item at `i` is the first that went to the place `n`. -/
def Founds (ns : List Nat) (i n : Nat) : Prop := ns[i]? = some n ∧ ∀ j < i, ns[j]? ≠ some n

theorem Founds.mem (h : Founds ns i n) : n ∈ ns := List.mem_of_getElem? h.1

/-- A place has one founder. -/
theorem Founds.unique (hi : Founds ns i n) (hj : Founds ns j n) : i = j := by
  rcases Nat.lt_trichotomy i j with hlt | heq | hlt
  · exact absurd hi.1 (hj.2 i hlt)
  · exact heq
  · exact absurd hj.1 (hi.2 j hlt)

/-- The place that an item founds is its own. -/
theorem Founds.place (h : Founds ns i n) (hm : ns[i]? = some m) : n = m :=
  Option.some.inj (h.1.symm.trans hm)

theorem getElem?_append_singleton {β : Type} {l : List β} {b c : β} :
    (l ++ [b])[i]? = some c ↔ l[i]? = some c ∨ (i = l.length ∧ c = b) := by
  rcases Nat.lt_trichotomy i l.length with hlt | heq | hgt
  · rw [List.getElem?_append_left hlt]
    have hne : i ≠ l.length := by omega
    simp [hne]
  · subst heq
    simp [eq_comm]
  · have hnone : (l ++ [b])[i]? = none := List.getElem?_eq_none (by simp; omega)
    have hnone' : l[i]? = none := List.getElem?_eq_none (by omega)
    have hne : i ≠ l.length := by omega
    simp [hnone, hnone', hne]

/-- One more item founds a place where nobody is in it. -/
theorem founds_append : Founds (ns ++ [m]) i n ↔
    Founds ns i n ∨ (i = ns.length ∧ n = m ∧ m ∉ ns) := by
  constructor
  · rintro ⟨hi, hfirst⟩
    have hold : ∀ j < i, ns[j]? ≠ some n := fun j hj h =>
      hfirst j hj (getElem?_append_singleton.2 (.inl h))
    rcases getElem?_append_singleton.1 hi with hi | ⟨rfl, rfl⟩
    · exact .inl ⟨hi, hold⟩
    · refine .inr ⟨rfl, rfl, fun hmem => ?_⟩
      obtain ⟨j, hj, hget⟩ := List.getElem_of_mem hmem
      exact hold j hj (by rw [List.getElem?_eq_getElem hj, hget])
  · rintro (⟨hi, hfirst⟩ | ⟨rfl, rfl, hnot⟩)
    · refine ⟨getElem?_append_singleton.2 (.inl hi), fun j hj h => ?_⟩
      rcases getElem?_append_singleton.1 h with h | ⟨rfl, -⟩
      · exact hfirst j hj h
      · have hlt : i < ns.length := (List.getElem?_eq_some_iff.1 hi).1
        omega
    · refine ⟨getElem?_append_singleton.2 (.inr ⟨rfl, rfl⟩), fun j hj h => ?_⟩
      rcases getElem?_append_singleton.1 h with h | ⟨rfl, -⟩
      · exact hnot (List.mem_of_getElem? h)
      · omega

/-- One more item in a place that somebody is in founds nothing. -/
theorem founds_append_of_mem (h : m ∈ ns) : Founds (ns ++ [m]) i n ↔ Founds ns i n := by
  rw [founds_append]
  exact or_iff_left fun hnew => hnew.2.2 h

/-! ## Sharing a key -/

/-- The two items have a key in common. -/
def Shares (keys : α → List κ) (x y : α) : Prop := ∃ k, k ∈ keys x ∧ k ∈ keys y

/-- The items at the two positions have a key in common. -/
def SharesAt (keys : α → List κ) (xs : List α) (i j : Nat) : Prop :=
  ∃ x y, xs[i]? = some x ∧ xs[j]? = some y ∧ Shares keys x y

theorem SharesAt.symm (h : SharesAt keys xs i j) : SharesAt keys xs j i := by
  obtain ⟨x, y, hx, hy, k, hkx, hky⟩ := h
  exact ⟨y, x, hy, hx, k, hky, hkx⟩

/-- Items that share a key, directly or through a chain of others. -/
def Chain (keys : α → List κ) (xs : List α) : Nat → Nat → Prop :=
  Relation.ReflTransGen (SharesAt keys xs)

theorem Chain.symm (h : Chain keys xs i j) : Chain keys xs j i := by
  induction h with
  | refl => exact .refl
  | tail _ hstep ih => exact .head hstep.symm ih

/-- The item at `i` is the first of the chain of the item at `j`. -/
def FirstOf (keys : α → List κ) (xs : List α) (i j : Nat) : Prop :=
  Chain keys xs i j ∧ ∀ l, Chain keys xs l j → i ≤ l

/-- Every chain has a first item. -/
theorem exists_firstOf (keys : α → List κ) (xs : List α) (j : Nat) :
    ∃ i, FirstOf keys xs i j := by
  have hsome : ∃ i, Chain keys xs i j := ⟨j, .refl⟩
  classical
  exact ⟨Nat.find hsome, Nat.find_spec hsome, fun l hl => Nat.find_min' hsome hl⟩

/-! ## The invariant -/

/-- What holds of the pass behind the items `xs`, which went to the places `ns`. -/
structure Founded (keys : α → List κ) (xs : List α) (p : Pass κ) (ns : List Nat) : Prop where
  length : ns.length = xs.length
  size : ∀ n, n ∈ ns ↔ n < p.size
  /-- the registered keys are those of the founders -/
  index : ∀ k n, p.index k = some n ↔ ∃ i x, xs[i]? = some x ∧ Founds ns i n ∧ k ∈ keys x
  /-- whoever is in a place shares a key with its founder -/
  member : ∀ j y n, xs[j]? = some y → ns[j]? = some n →
    ∃ i x, xs[i]? = some x ∧ Founds ns i n ∧ (i = j ∨ Shares keys x y)
  /-- two founders share no key -/
  apart : ∀ i j x y n m, xs[i]? = some x → xs[j]? = some y → Founds ns i n → Founds ns j m →
    i < j → ¬ Shares keys x y
  /-- the places are numbered in the order of their founders -/
  order : ∀ i j n m, Founds ns i n → Founds ns j m → i < j → n < m

theorem Founded.empty : Founded keys [] Pass.empty [] where
  length := rfl
  size n := by simp [Pass.empty]
  index k n := by simp [Pass.empty]
  member j y n h := by simp at h
  apart i j x y n m h := by simp at h
  order i j n m h := by simp [Founds] at h

/-- An item that joins a place. -/
theorem Founded.join (h : Founded keys xs p ns) (hfind : p.find keys x = some n) :
    Founded keys (xs ++ [x]) p (ns ++ [n]) := by
  obtain ⟨k, hk, hindex⟩ := List.exists_of_findSome?_eq_some hfind
  obtain ⟨f, z, hz, hfounds, hkz⟩ := (h.index k n).1 hindex
  have hold : ∀ {i m}, Founds (ns ++ [n]) i m ↔ Founds ns i m := founds_append_of_mem hfounds.mem
  -- a founder stands among the items before
  have hbefore : ∀ {i m y}, Founds ns i m → (xs ++ [x])[i]? = some y → xs[i]? = some y := by
    intro i m y hf hy
    rcases getElem?_append_singleton.1 hy with hy | ⟨rfl, -⟩
    · exact hy
    · have hlt : xs.length < ns.length := (List.getElem?_eq_some_iff.1 hf.1).1
      have hlength := h.length
      omega
  exact {
    length := by simp [h.length]
    size := by
      intro m
      rw [List.mem_append, List.mem_singleton, ← h.size m]
      exact or_iff_left_of_imp fun hm => hm ▸ hfounds.mem
    index := by
      intro k' m
      rw [h.index k' m]
      constructor
      · rintro ⟨i, y, hy, hf, hky⟩
        exact ⟨i, y, getElem?_append_singleton.2 (.inl hy), hold.2 hf, hky⟩
      · rintro ⟨i, y, hy, hf, hky⟩
        exact ⟨i, y, hbefore (hold.1 hf) hy, hold.1 hf, hky⟩
    member := by
      intro j y m hy hm
      rcases getElem?_append_singleton.1 hy with hy | ⟨rfl, rfl⟩
      · have hlt : j < ns.length := h.length ▸ (List.getElem?_eq_some_iff.1 hy).1
        rw [List.getElem?_append_left hlt] at hm
        obtain ⟨i, w, hw, hf, hor⟩ := h.member j y m hy hm
        exact ⟨i, w, getElem?_append_singleton.2 (.inl hw), hold.2 hf, hor⟩
      · rw [← h.length, List.getElem?_concat_length] at hm
        obtain rfl := Option.some.inj hm
        exact ⟨f, z, getElem?_append_singleton.2 (.inl hz), hold.2 hfounds, .inr ⟨k, hkz, hk⟩⟩
    apart := fun i j y z m m' hy hz' hf hf' => h.apart i j y z m m' (hbefore (hold.1 hf) hy)
      (hbefore (hold.1 hf') hz') (hold.1 hf) (hold.1 hf')
    order := fun i j m m' hf hf' => h.order i j m m' (hold.1 hf) (hold.1 hf') }

/-- An item that opens a place. -/
theorem Founded.opening [DecidableEq κ] (h : Founded keys xs p ns) (hfind : p.find keys x = none) :
    Founded keys (xs ++ [x]) (p.add keys x) (ns ++ [p.size]) := by
  have hfree : ∀ k ∈ keys x, p.index k = none := List.findSome?_eq_none_iff.1 hfind
  have hnew : p.size ∉ ns := fun hmem => Nat.lt_irrefl _ ((h.size _).1 hmem)
  have hadd : p.add keys x =
      ⟨p.size + 1, fun k => if k ∈ keys x then some p.size else p.index k⟩ := by
    rw [Pass.add, hfind]
  have hlast : (xs ++ [x])[xs.length]? = some x := List.getElem?_concat_length
  have hfounds : Founds (ns ++ [p.size]) xs.length p.size :=
    founds_append.2 (.inr ⟨h.length.symm, rfl, hnew⟩)
  have hold : ∀ {i m}, Founds ns i m → Founds (ns ++ [p.size]) i m := fun hf =>
    founds_append.2 (.inl hf)
  have hbefore : ∀ {i m y}, Founds ns i m → (xs ++ [x])[i]? = some y → xs[i]? = some y := by
    intro i m y hf hy
    rcases getElem?_append_singleton.1 hy with hy | ⟨rfl, -⟩
    · exact hy
    · have hlt : xs.length < ns.length := (List.getElem?_eq_some_iff.1 hf.1).1
      have hlength := h.length
      omega
  -- no founder before has a key of the new one
  have hfresh : ∀ {i m y}, Founds ns i m → xs[i]? = some y → ¬ Shares keys y x := by
    rintro i m y hf hy ⟨k, hky, hkx⟩
    have hindex := (h.index k m).2 ⟨i, y, hy, hf, hky⟩
    rw [hfree k hkx] at hindex
    cases hindex
  rw [hadd]
  exact {
    length := by simp [h.length]
    size := by
      intro m
      rw [List.mem_append, List.mem_singleton, h.size m]
      show m < p.size ∨ m = p.size ↔ m < p.size + 1
      omega
    index := by
      intro k m
      constructor
      · intro hk
        dsimp only at hk
        split at hk
        · next hmem =>
          obtain rfl := Option.some.inj hk
          exact ⟨xs.length, x, hlast, hfounds, hmem⟩
        · obtain ⟨i, y, hy, hf, hky⟩ := (h.index k m).1 hk
          exact ⟨i, y, getElem?_append_singleton.2 (.inl hy), hold hf, hky⟩
      · rintro ⟨i, y, hy, hf, hky⟩
        rcases founds_append.1 hf with hf | ⟨rfl, rfl, -⟩
        · have hindex := (h.index k m).2 ⟨i, y, hbefore hf hy, hf, hky⟩
          have hnot : k ∉ keys x := fun hmem => by
            rw [hfree k hmem] at hindex
            cases hindex
          dsimp only
          rw [if_neg hnot, hindex]
        · rw [h.length, hlast] at hy
          obtain rfl := Option.some.inj hy
          exact if_pos hky
    member := by
      intro j y m hy hm
      rcases getElem?_append_singleton.1 hy with hy | ⟨rfl, rfl⟩
      · have hlt : j < ns.length := h.length ▸ (List.getElem?_eq_some_iff.1 hy).1
        rw [List.getElem?_append_left hlt] at hm
        obtain ⟨i, w, hw, hf, hor⟩ := h.member j y m hy hm
        exact ⟨i, w, getElem?_append_singleton.2 (.inl hw), hold hf, hor⟩
      · rw [← h.length, List.getElem?_concat_length] at hm
        obtain rfl := Option.some.inj hm
        exact ⟨xs.length, y, hlast, hfounds, .inl rfl⟩
    apart := by
      intro i j y z m m' hy hz hf hf' hlt
      rcases founds_append.1 hf' with hf' | ⟨rfl, rfl, -⟩
      · rcases founds_append.1 hf with hf | ⟨rfl, rfl, -⟩
        · exact h.apart i j y z m m' (hbefore hf hy) (hbefore hf' hz) hf hf' hlt
        · have hj : j < ns.length := (List.getElem?_eq_some_iff.1 hf'.1).1
          omega
      · rcases founds_append.1 hf with hf | ⟨rfl, -, -⟩
        · rw [h.length, hlast] at hz
          obtain rfl := Option.some.inj hz
          exact hfresh hf (hbefore hf hy)
        · omega
    order := by
      intro i j m m' hf hf' hlt
      rcases founds_append.1 hf' with hf' | ⟨rfl, rfl, -⟩
      · rcases founds_append.1 hf with hf | ⟨rfl, rfl, -⟩
        · exact h.order i j m m' hf hf' hlt
        · have hj : j < ns.length := (List.getElem?_eq_some_iff.1 hf'.1).1
          omega
      · rcases founds_append.1 hf with hf | ⟨rfl, -, -⟩
        · exact (h.size m).1 hf.mem
        · omega }

/-- The invariant holds behind every list. -/
theorem founded [DecidableEq κ] (keys : α → List κ) (xs : List α) :
    Founded keys xs (Pass.empty.run keys xs) (places keys xs) := by
  induction xs using List.reverseRecOn with
  | nil => exact Founded.empty
  | append_singleton xs x ih =>
    rw [places, placesFrom_append_singleton, run_append_singleton]
    cases hfind : (Pass.empty.run keys xs).find keys x with
    | some n =>
      rw [Pass.place, hfind, Pass.add, hfind]
      exact ih.join hfind
    | none =>
      rw [Pass.place, hfind]
      exact ih.opening hfind

/-! ## Places and chains -/

section Chains

variable (h : Founded keys xs p ns)
include h

/-- The founder of an item's place, one link away at most. -/
theorem Founded.founder (hm : ns[j]? = some m) :
    ∃ i, Founds ns i m ∧ (i = j ∨ SharesAt keys xs i j) := by
  have hlt : j < xs.length := h.length ▸ (List.getElem?_eq_some_iff.1 hm).1
  have hy : xs[j]? = some xs[j] := List.getElem?_eq_getElem hlt
  obtain ⟨i, x, hx, hf, hor⟩ := h.member j _ m hy hm
  exact ⟨i, hf, hor.imp id fun hs => ⟨x, _, hx, hy, hs⟩⟩

/-- Whoever is in one place belongs to one chain. -/
theorem Founded.chain (hi : ns[i]? = some m) (hj : ns[j]? = some m) : Chain keys xs i j := by
  have hlink : ∀ {a b}, a = b ∨ SharesAt keys xs a b → Chain keys xs a b := by
    rintro a b (rfl | hs)
    · exact .refl
    · exact .single hs
  obtain ⟨f, hf, hfi⟩ := h.founder hi
  obtain ⟨f', hf', hfj⟩ := h.founder hj
  obtain rfl := hf.unique hf'
  exact (hlink hfi).symm.trans (hlink hfj)

/-- The first of a chain opened its place. -/
theorem Founded.first_founds (hfirst : FirstOf keys xs i j) (hm : ns[i]? = some m) :
    Founds ns i m := by
  obtain ⟨f, hf, hfi⟩ := h.founder hm
  have hfj : Chain keys xs f j := (h.chain hf.1 hm).trans hfirst.1
  have hle := hfirst.2 f hfj
  rcases Nat.lt_or_eq_of_le hle with hlt | rfl
  · exact absurd hm (hf.2 i hlt)
  · exact hf

/-- The places are the chains exactly where everyone shares a key with the first of its own chain:
    a link through a third item counts only where that item is the founder. -/
theorem Founded.places_iff :
    (∀ i j n m, ns[i]? = some n → ns[j]? = some m → (Chain keys xs i j ↔ n = m)) ↔
      ∀ i j, j < xs.length → FirstOf keys xs i j → i = j ∨ SharesAt keys xs i j := by
  have hplace : ∀ {i}, i < xs.length → ∃ n, ns[i]? = some n := fun hlt =>
    ⟨_, List.getElem?_eq_getElem (h.length ▸ hlt)⟩
  have hbelow : ∀ {i j}, FirstOf keys xs i j → i ≤ j := fun hfirst => hfirst.2 _ .refl
  constructor
  · intro hall i j hlt hfirst
    obtain ⟨n, hn⟩ := hplace (Nat.lt_of_le_of_lt (hbelow hfirst) hlt)
    obtain ⟨m, hm⟩ := hplace hlt
    obtain rfl := (hall i j n m hn hm).1 hfirst.1
    obtain ⟨f, hf, hor⟩ := h.founder hm
    obtain rfl := hf.unique (h.first_founds hfirst hn)
    exact hor
  · intro hdirect i j n m hn hm
    refine ⟨fun hchain => ?_, fun heq => h.chain hn (heq ▸ hm)⟩
    -- the founders of both places are the first of the one chain
    have hfounder : ∀ {l k}, ns[l]? = some k → ∀ f, FirstOf keys xs f l → Founds ns f k := by
      intro l k hk f hfirst
      obtain ⟨g, hg, -⟩ := h.founder hk
      have hgl : g < xs.length := h.length ▸ (List.getElem?_eq_some_iff.1 hg.1).1
      have hfg : FirstOf keys xs f g :=
        ⟨hfirst.1.trans (h.chain hk hg.1), fun l' hl' => hfirst.2 l' (hl'.trans (h.chain hg.1 hk))⟩
      rcases hdirect f g hgl hfg with rfl | ⟨x, y, hx, hy, hs⟩
      · exact hg
      · obtain ⟨k', hk'⟩ := hplace (List.getElem?_eq_some_iff.1 hx).1
        have hf := h.first_founds hfg hk'
        rcases Nat.lt_or_eq_of_le (hbelow hfg) with hlt | rfl
        · exact absurd hs (h.apart f g x y k' k hx hy hf hg hlt)
        · exact hg
    obtain ⟨f, hfirst⟩ := exists_firstOf keys xs i
    have hfirst' : FirstOf keys xs f j :=
      ⟨hfirst.1.trans hchain, fun l hl => hfirst.2 l (hl.trans hchain.symm)⟩
    exact (hfounder hn f hfirst).place (hfounder hm f hfirst').1

end Chains

end Merge
