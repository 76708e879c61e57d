/-
  The resource claim as a text: `parse_resource_claim` against `canonicalize_resource_claim`.

  1. `parse_eq_ok_iff` — a text is accepted just where it is the canonical text of a pair of
     values that the text can carry (`Carried`), and the pair returned is that pair.
  2. `parse_canonicalize` — the pair of strings the issuer packs comes back.
  3. `exact_iff` — every text that is accepted is the canonical text of two strings, unless it is
     the canonical text of a pair that is not: the shape check looks at the keys alone, so a
     number, `null` or a list in place of a string is let through, against the `dict[str, str]`
     of the signature.
  4. `extract_of_either` — a claim set with either key at top level never falls back to `resource`.

  `json` is the standard library's here, with `spell` for the spelling of floats.
-/
import CanvasOS.Governance.ResourceClaim
import CanvasOS.Lib.JsonText

namespace CanvasOS.Governance

open Python

/-- The library with its own `json`. -/
def Stdlib.withJson (py : Stdlib) (spell : List Char → String) : Stdlib :=
  { py with jsonLoads := fun s => loads spell s.toList, jsonDumps := dumpsCanonical }

/-- Both values are strings. -/
def Binding.OfStrings (b : Binding) : Prop := ∃ c f, b = ⟨.str c, .str f⟩

/-- A pair that a text can carry: values as `json.loads` returns them, with their keys in order. -/
structure Carried (spell : List Char → String) (b : Binding) : Prop where
  contentHash : WellFormed spell b.contentHash
  functionId : WellFormed spell b.functionId
  contentHashSorted : sortKeys b.contentHash = b.contentHash
  functionIdSorted : sortKeys b.functionId = b.functionId

/-- The claim set that `canonicalize_resource_claim` serialises. -/
def Binding.items (b : Binding) : List (String × Json) :=
  [("content_hash", b.contentHash), ("function_id", b.functionId)]

/-- The claim set of a pair with its keys in order. -/
def Binding.sorted (b : Binding) : Binding := ⟨sortKeys b.contentHash, sortKeys b.functionId⟩

section Text

variable {py : Stdlib} {spell : List Char → String} {b : Binding} {s : String}

theorem sortKeys_items (b : Binding) : sortKeys (.obj b.items) = .obj b.sorted.items := by
  have hle : ("content_hash" : String) ≤ "function_id" := by decide
  simp [sortKeys, sortKeysItems, Binding.items, Binding.sorted, hle]

theorem wellFormed_items (hc : WellFormed spell b.contentHash)
    (hf : WellFormed spell b.functionId) : WellFormed spell (.obj b.items) :=
  ⟨by simp [Binding.items], hc, hf, trivial⟩

theorem canonicalize_eq :
    canonicalizeResourceClaim (py.withJson spell) b = dumpsCanonical (.obj b.items) := rfl

/-- Only the two orders of the two keys have the two keys and no other. -/
theorem items_of_keys {kvs : List (String × Json)} {c f : Json}
    (hnodup : (kvs.map Prod.fst).Nodup)
    (hkeys : kvs.all (fun kv => kv.1 == "content_hash" || kv.1 == "function_id") = true)
    (hc : Json.lookup kvs "content_hash" = some c) (hf : Json.lookup kvs "function_id" = some f) :
    kvs = (Binding.mk c f).items ∨ kvs = [("function_id", f), ("content_hash", c)] := by
  simp only [List.all_eq_true, Bool.or_eq_true, beq_iff_eq] at hkeys
  have hne : ("content_hash" : String) ≠ "function_id" := by decide
  match kvs with
  | [] => cases hc
  | [(k, x)] =>
    rcases hkeys _ List.mem_cons_self with h | h
    · dsimp only at h
      subst h
      rw [Json.lookup_cons, if_neg hne] at hf
      cases hf
    · dsimp only at h
      subst h
      rw [Json.lookup_cons, if_neg hne.symm] at hc
      cases hc
  | [(k, x), (k', y)] =>
    simp only [List.map_cons, List.map_nil, List.nodup_cons, List.mem_singleton] at hnodup
    obtain ⟨hk, hk'⟩ := List.forall_mem_cons.1 hkeys
    replace hk' := hk' _ List.mem_cons_self
    dsimp only at hk hk' hnodup
    rcases hk with rfl | rfl
    · obtain rfl := hk'.resolve_left fun h => hnodup.1 h.symm
      rw [Json.lookup_cons, if_pos rfl] at hc
      rw [Json.lookup_cons, if_neg hne, Json.lookup_cons, if_pos rfl] at hf
      obtain rfl := Option.some.inj hc
      obtain rfl := Option.some.inj hf
      exact .inl rfl
    · obtain rfl := hk'.resolve_right fun h => hnodup.1 h.symm
      rw [Json.lookup_cons, if_neg hne.symm, Json.lookup_cons, if_pos rfl] at hc
      rw [Json.lookup_cons, if_pos rfl] at hf
      obtain rfl := Option.some.inj hc
      obtain rfl := Option.some.inj hf
      exact .inr rfl
  | (k, x) :: (k', y) :: (k'', z) :: rest =>
    -- three distinct keys are not among two
    simp only [List.map_cons, List.nodup_cons, List.mem_cons, not_or] at hnodup
    obtain ⟨hk, hkeys⟩ := List.forall_mem_cons.1 hkeys
    obtain ⟨hk', hkeys⟩ := List.forall_mem_cons.1 hkeys
    replace hkeys := hkeys _ List.mem_cons_self
    grind

/-- A text is accepted just where it is the canonical text of the pair returned. -/
theorem parse_eq_ok_iff (hspell : Spelled spell) :
    parseResourceClaim (py.withJson spell) s = .ok b ↔
      Carried spell b ∧ s = canonicalizeResourceClaim (py.withJson spell) b := by
  constructor
  · intro h
    unfold parseResourceClaim at h
    split at h
    · next kvs hloads =>
      split at h
      · next hkeys =>
        split at h
        · next c f hc hf =>
          split at h
          · next htext =>
            obtain rfl := Except.ok.inj h
            have htext : dumpsCanonical (.obj kvs) = s := eq_of_beq htext
            replace hloads : loads spell s.toList = some (.obj kvs) := hloads
            have hwf := wellFormed_of_loads hspell hloads
            -- the text is read as it is written, with the keys in order
            have hsorted : sortKeys (.obj kvs) = .obj kvs := by
              have hread := loads_dumpsCanonical hwf
              rw [htext, hloads] at hread
              exact (Option.some.inj hread).symm
            rcases items_of_keys hwf.1 hkeys hc hf with rfl | rfl
            · rw [sortKeys_items] at hsorted
              obtain ⟨hcs, hfs⟩ : sortKeys c = c ∧ sortKeys f = f := by
                simpa [Binding.items, Binding.sorted] using hsorted
              exact ⟨⟨hwf.2.1, hwf.2.2.1, hcs, hfs⟩, htext.symm⟩
            · have hlt : ¬ ("function_id" : String) ≤ "content_hash" := by decide
              simp [sortKeys, sortKeysItems, hlt] at hsorted
          · cases h
        · cases h
      · cases h
    · cases h
  · rintro ⟨⟨hc, hf, hcs, hfs⟩, rfl⟩
    have hsorted : sortKeys (.obj b.items) = .obj b.items := by
      rw [sortKeys_items, Binding.sorted, hcs, hfs]
    have hread := loads_dumpsCanonical (wellFormed_items hc hf)
    rw [hsorted] at hread
    have hloads : (py.withJson spell).jsonLoads
        (canonicalizeResourceClaim (py.withJson spell) b) = some (.obj b.items) := hread
    unfold parseResourceClaim
    rw [hloads]
    have hself : ((py.withJson spell).jsonDumps (.obj b.items) ==
        canonicalizeResourceClaim (py.withJson spell) b) = true := beq_self_eq_true _
    simp only [hself, if_pos]
    rfl

theorem carried_strings (spell : List Char → String) (c f : String) :
    Carried spell ⟨.str c, .str f⟩ :=
  ⟨trivial, trivial, rfl, rfl⟩

/-- The pair that is packed comes back. -/
theorem parse_canonicalize (hspell : Spelled spell) (c f : String) :
    parseResourceClaim (py.withJson spell)
      (canonicalizeResourceClaim (py.withJson spell) ⟨.str c, .str f⟩) =
        .ok ⟨.str c, .str f⟩ :=
  (parse_eq_ok_iff hspell).2 ⟨carried_strings spell c f, rfl⟩

/-- With either key at top level, `resource` is not looked at. -/
theorem extract_of_either {claims : Claims} (r : Json)
    (h : (Json.lookup claims "function_id").isSome ∨ (Json.lookup claims "content_hash").isSome) :
    extractFunctionIdAndContentHash py (Json.insert claims "resource" r) =
      extractFunctionIdAndContentHash py claims := by
  have hf : Json.lookup (Json.insert claims "resource" r) "function_id" =
      Json.lookup claims "function_id" := by rw [Json.lookup_insert, if_neg (by decide)]
  have hc : Json.lookup (Json.insert claims "resource" r) "content_hash" =
      Json.lookup claims "content_hash" := by rw [Json.lookup_insert, if_neg (by decide)]
  unfold extractFunctionIdAndContentHash
  rw [hf, hc]
  cases hf : Json.lookup claims "function_id" with
  | some f =>
    cases Json.lookup claims "content_hash" with
    | some c => rfl
    | none => rfl
  | none =>
    cases hc : Json.lookup claims "content_hash" with
    | some c => rfl
    | none => simp [hf, hc] at h

end Text

/-! ## One encoding -/

/-- The pair of strings that is packed comes back, and a text is accepted as the canonical text of
    two strings and no other, but for the canonical texts of pairs that are not strings. -/
theorem exact_iff (py : Stdlib) {spell : List Char → String} (hspell : Spelled spell) :
    (∀ c f, parseResourceClaim (py.withJson spell)
      (canonicalizeResourceClaim (py.withJson spell) ⟨.str c, .str f⟩) =
        .ok ⟨.str c, .str f⟩) ∧
    ∀ s, (∀ b, parseResourceClaim (py.withJson spell) s = .ok b →
        b.OfStrings ∧ s = canonicalizeResourceClaim (py.withJson spell) b) ↔
      ∀ b, Carried spell b → s = canonicalizeResourceClaim (py.withJson spell) b →
        b.OfStrings := by
  refine ⟨fun c f => parse_canonicalize hspell c f, fun s => ⟨fun h b hb hs => ?_,
    fun h b hb => ?_⟩⟩
  · exact (h b ((parse_eq_ok_iff hspell).2 ⟨hb, hs⟩)).1
  · obtain ⟨hcarried, hs⟩ := (parse_eq_ok_iff hspell).1 hb
    exact ⟨h b hcarried hs, hs⟩

/-- A library that decodes nothing. -/
def bareStdlib : Stdlib where
  jsonLoads _ := none
  jsonDumps _ := ""
  uuid _ := none
  b64decode _ := none
  sha256Hex _ := ""
  decodeUtf8 _ := none
  repr _ := ""

/-- Every float is zero. -/
def zeroSpell (_ : List Char) : String := "0.0"

theorem spelled_zero : Spelled zeroSpell := by
  intro t
  have hraw : rawDecode zeroSpell "0.0".toList = some (.float "0.0", []) := by decide +kernel
  obtain ⟨d, hd, hread⟩ := reads_of_rawDecode hraw
  rw [List.append_nil] at hd
  rwa [← hd] at hread

theorem exact_zero : (∀ c f, parseResourceClaim (bareStdlib.withJson zeroSpell)
      (canonicalizeResourceClaim (bareStdlib.withJson zeroSpell) ⟨.str c, .str f⟩) =
        .ok ⟨.str c, .str f⟩) ∧
    ∀ s, (∀ b, parseResourceClaim (bareStdlib.withJson zeroSpell) s = .ok b →
        b.OfStrings ∧ s = canonicalizeResourceClaim (bareStdlib.withJson zeroSpell) b) ↔
      ∀ b, Carried zeroSpell b → s = canonicalizeResourceClaim (bareStdlib.withJson zeroSpell) b →
        b.OfStrings :=
  exact_iff bareStdlib spelled_zero

/-- A number in place of the content hash is let through. -/
theorem number_accepted : parseResourceClaim (bareStdlib.withJson zeroSpell)
      "\x7b\"content_hash\":1,\"function_id\":\"x\"\x7d" = .ok ⟨.int 1, .str "x"⟩ ∧
    ¬ (Binding.mk (.int 1) (.str "x")).OfStrings :=
  ⟨by decide +kernel, fun ⟨_, _, h⟩ => (nomatch h)⟩

end CanvasOS.Governance
