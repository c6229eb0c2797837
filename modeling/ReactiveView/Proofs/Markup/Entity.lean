import ReactiveView.Markup.Entity
import ReactiveView.VNode.Html

/-! # Entities are decoded once

  Decoding replaces six names one after the other. What comes out of one
  replacement is never part of a name that a later one looks for, so the six
  replacements come to one pass from left to right.

  * `decodeOnce`: the single pass.
  * `replaceAll_decodeOnce`: a further replacement after such a pass is a pass
    with one more name.
  * `decode_eq_decodeOnce`: the six replacements are one pass.
  * `ReadOnce`: what such a pass makes of a text, as a relation.
  * `decodeEntities_eq_iff_readOnce`: decoding does this and nothing else.
  * `decode_escape`, `decode_escapeQuoted`: what was escaped is decoded to what
    it was.
-/

namespace ReactiveView.Markup

open Text

/-! ## §1. A single pass -/

/-- The entity whose name stands at the front of a text. -/
def entityAt? (es : List (List Char × Char)) (s : List Char) : Option (List Char × Char) :=
  es.find? fun e => (dropFront? e.1 s).isSome

/-- The text with each name replaced by its character in one pass from left to right. What was put
    in is not looked at again. -/
def decodeOnce (es : List (List Char × Char)) : List Char → List Char
  | [] => []
  | c :: s =>
    match entityAt? es (c :: s) with
    | some e => e.2 :: decodeOnce es (s.drop (e.1.length - 1))
    | none => c :: decodeOnce es s
termination_by s => s.length
decreasing_by
  · simp only [List.length_drop, List.length_cons]
    omega
  · simp

variable {es : List (List Char × Char)} {e : List Char × Char} {p r s : List Char} {c d : Char}

@[simp] theorem decodeOnce_nil (es : List (List Char × Char)) : decodeOnce es [] = [] := by
  rw [decodeOnce]

theorem prefix_of_entityAt? (h : entityAt? es s = some e) : e ∈ es ∧ e.1 <+: s := by
  refine ⟨List.mem_of_find?_eq_some h, ?_⟩
  have hsome := List.find?_some h
  obtain ⟨r, hr⟩ := Option.isSome_iff_exists.mp hsome
  exact ⟨r, (eq_append_of_dropFront? hr).symm⟩

theorem entityAt?_eq_none_iff : entityAt? es s = none ↔ ∀ e ∈ es, ¬ e.1 <+: s := by
  rw [entityAt?, List.find?_eq_none]
  refine forall₂_congr fun e _ => ?_
  rw [← dropFront?_eq_none_iff, Bool.not_eq_true, Option.isSome_eq_false_iff,
    Option.isNone_iff_eq_none]

theorem decodeOnce_of_entityAt? (h : entityAt? es (c :: s) = some e) :
    decodeOnce es (c :: s) = e.2 :: decodeOnce es (s.drop (e.1.length - 1)) := by
  rw [decodeOnce, h]

theorem decodeOnce_of_none (h : entityAt? es (c :: s) = none) :
    decodeOnce es (c :: s) = c :: decodeOnce es s := by
  rw [decodeOnce, h]

/-! ## §2. One more name -/

/-- All names begin with an ampersand and have none after it. The name `p` is apart from the names
    in `es`, and no character that these stand for is part of it. -/
structure Apart (es : List (List Char × Char)) (p : List Char) : Prop where
  /-- The name begins with an ampersand. -/
  head : ['&'] <+: p
  /-- There is no other ampersand in it. -/
  tail : '&' ∉ p.tail
  /-- The other names begin with an ampersand, too. -/
  heads : ∀ e ∈ es, ['&'] <+: e.1
  /-- None of them is the beginning of `p`. -/
  not_prefix : ∀ e ∈ es, ¬ e.1 <+: p
  /-- And `p` is not the beginning of one. -/
  not_prefix' : ∀ e ∈ es, ¬ p <+: e.1
  /-- Their characters are not in `p`. -/
  not_mem : ∀ e ∈ es, e.2 ∉ p

/-- Where the text has no ampersand, no name begins. -/
theorem entityAt?_of_ne (h : ∀ e ∈ es, ['&'] <+: e.1) (hc : c ≠ '&') :
    entityAt? es (c :: s) = none := by
  rw [entityAt?_eq_none_iff]
  intro e he hes
  have hprefix : ['&'] <+: c :: s := (h e he).trans hes
  exact hc (List.cons_prefix_cons.mp hprefix).1.symm

theorem decodeOnce_append_of_not_mem (h : ∀ e ∈ es, ['&'] <+: e.1) (hp : '&' ∉ p)
    (s : List Char) : decodeOnce es (p ++ s) = p ++ decodeOnce es s := by
  induction p with
  | nil => rfl
  | cons c p ih =>
    have hc : c ≠ '&' := fun he => hp (by simp [he])
    have hp' : '&' ∉ p := fun hm => hp (List.mem_cons_of_mem c hm)
    rw [List.cons_append, decodeOnce_of_none (entityAt?_of_ne h hc), ih hp', List.cons_append]

/-- A name that is apart is left alone. -/
theorem Apart.decodeOnce_append (h : Apart es p) (s : List Char) :
    decodeOnce es (p ++ s) = p ++ decodeOnce es s := by
  obtain ⟨n, rfl⟩ := h.head
  have hnone : entityAt? es ('&' :: (n ++ s)) = none := by
    rw [entityAt?_eq_none_iff]
    intro e he hes
    -- Of two beginnings of one text, one is the beginning of the other.
    have hps : ['&'] ++ n <+: '&' :: (n ++ s) := ⟨s, by simp⟩
    rcases List.prefix_or_prefix_of_prefix hes hps with hle | hle
    · exact h.not_prefix e he hle
    · exact h.not_prefix' e he hle
  have hn : '&' ∉ n := h.tail
  show decodeOnce es ('&' :: (n ++ s)) = _
  rw [decodeOnce_of_none hnone, decodeOnce_append_of_not_mem h.heads hn]
  rfl

/-- What is not put in by decoding was there before. -/
theorem prefix_of_prefix_decodeOnce (hp : ∀ e ∈ es, e.2 ∉ p) (h : p <+: decodeOnce es s) :
    p <+: s := by
  induction p generalizing s with
  | nil => exact List.nil_prefix
  | cons c p ih =>
    cases s with
    | nil => simp at h
    | cons b s =>
      cases hb : entityAt? es (b :: s) with
      | some e =>
        -- The first character would be one that was put in.
        rw [decodeOnce_of_entityAt? hb] at h
        have he := (prefix_of_entityAt? hb).1
        exact absurd (by simp [(List.cons_prefix_cons.mp h).1]) (hp e he)
      | none =>
        rw [decodeOnce_of_none hb, List.cons_prefix_cons] at h
        rw [List.cons_prefix_cons]
        exact ⟨h.1, ih (fun e he hm => hp e he (List.mem_cons_of_mem c hm)) h.2⟩

theorem entityAt?_append_of_some (h : entityAt? es s = some e) (e' : List Char × Char) :
    entityAt? (es ++ [e']) s = some e := by
  rw [entityAt?, List.find?_append]
  rw [entityAt?] at h
  rw [h]
  rfl

theorem entityAt?_append_of_none (h : entityAt? es s = none) (p : List Char) (d : Char) :
    entityAt? (es ++ [(p, d)]) s = if p <+: s then some (p, d) else none := by
  rw [entityAt?] at h
  rw [entityAt?, List.find?_append, h, Option.none_or, List.find?_singleton]
  by_cases hp : p <+: s
  · obtain ⟨r, rfl⟩ := hp
    simp
  · simp [dropFront?_eq_none_iff.mpr hp, hp]

/-- **One more name**: a replacement after a pass is a pass with one more name. -/
theorem replaceAll_decodeOnce (h : Apart es p) (d : Char) (s : List Char) :
    replaceAll p [d] (decodeOnce es s) = decodeOnce (es ++ [(p, d)]) s := by
  have hp : p ≠ [] := by
    rintro rfl
    simpa using h.head
  -- By induction on the length: a name is skipped as a whole.
  induction hn : s.length using Nat.strongRecOn generalizing s with
  | ind n ih =>
    cases s with
    | nil => simp
    | cons c s =>
      subst hn
      cases hc : entityAt? es (c :: s) with
      | some e =>
        have hne : ¬ p <+: e.2 :: decodeOnce es (s.drop (e.1.length - 1)) := by
          intro hprefix
          refine h.not_mem e (prefix_of_entityAt? hc).1 ?_
          obtain ⟨b, n, rfl⟩ := List.exists_cons_of_ne_nil hp
          simp [(List.cons_prefix_cons.mp hprefix).1]
        rw [decodeOnce_of_entityAt? hc, replaceAll_cons_of_not_prefix hne,
          ih _ (by simp only [List.length_drop, List.length_cons]; omega) _ rfl,
          decodeOnce_of_entityAt? (entityAt?_append_of_some hc _)]
      | none =>
        have hentity := entityAt?_append_of_none hc p d
        by_cases hps : p <+: c :: s
        · rw [if_pos hps] at hentity
          obtain ⟨r, hr⟩ := hps
          have hdrop : s.drop (p.length - 1) = r := by
            obtain ⟨b, n, rfl⟩ := List.exists_cons_of_ne_nil hp
            simp only [List.cons_append, List.cons.injEq] at hr
            simp [← hr.2]
          have hlen : r.length < (c :: s).length := by
            rw [← hr, List.length_append]
            have := List.length_pos_iff.mpr hp
            omega
          rw [decodeOnce_of_entityAt? hentity, hdrop, ← ih _ hlen r rfl, ← hr,
            h.decodeOnce_append, replaceAll_append_of_ne_nil hp]
          rfl
        · rw [if_neg hps] at hentity
          have hne : ¬ p <+: c :: decodeOnce es s := by
            intro hprefix
            rw [← decodeOnce_of_none hc] at hprefix
            exact hps (prefix_of_prefix_decodeOnce h.not_mem hprefix)
          rw [decodeOnce_of_none hc, replaceAll_cons_of_not_prefix hne,
            ih _ (by simp) s rfl, decodeOnce_of_none hentity]

/-! ## §3. All names -/

theorem decodeOnce_no_entities (s : List Char) : decodeOnce [] s = s := by
  induction s with
  | nil => simp
  | cons c s ih => rw [decodeOnce_of_none rfl, ih]

/-- Each name is apart from those before it. -/
theorem apart_entities {i : Nat} (h : entities[i]? = some e) : Apart (entities.take i) e.1 := by
  have hi : i < 6 := (List.getElem?_eq_some_iff.mp h).1
  match i with
  | 0 | 1 | 2 | 3 | 4 | 5 =>
    cases h
    exact ⟨by decide, by decide, by decide, by decide, by decide, by decide⟩

/-- **Decoding never decodes twice**: the replacements one after the other are a single pass. -/
theorem decode_eq_decodeOnce (s : List Char) : decode s = decodeOnce entities s := by
  -- After the first `i` replacements: one pass with the first `i` names.
  have hpass : ∀ i ≤ entities.length,
      (entities.take i).foldl (fun s e => replaceAll e.1 [e.2] s) s =
        decodeOnce (entities.take i) s := by
    intro i
    induction i with
    | zero => exact fun _ => (decodeOnce_no_entities s).symm
    | succ i ih =>
      intro hi
      have hget : entities[i]? = some entities[i] := List.getElem?_eq_getElem hi
      rw [List.take_succ_eq_append_getElem hi, List.foldl_append, ih (Nat.le_of_lt hi)]
      exact replaceAll_decodeOnce (apart_entities hget) _ s
  have hall := hpass entities.length (Nat.le_refl _)
  rwa [List.take_length] at hall

/-! ## §4. Escaped texts -/

theorem decodeOnce_cons_of_ne (hc : c ≠ '&') (s : List Char) :
    decodeOnce entities (c :: s) = c :: decodeOnce entities s :=
  decodeOnce_of_none (entityAt?_of_ne (by decide) hc)

theorem decodeOnce_name_append (he : e ∈ entities) (s : List Char) :
    decodeOnce entities (e.1 ++ s) = e.2 :: decodeOnce entities s := by
  -- One case for each name.
  simp only [entities, List.mem_cons, List.not_mem_nil, or_false] at he
  rcases he with rfl | rfl | rfl | rfl | rfl | rfl <;>
    exact decodeOnce_of_entityAt? rfl

theorem decodeOnce_escapeChar (c : Char) (s : List Char) :
    decodeOnce entities (Html.escapeChar c ++ s) = c :: decodeOnce entities s := by
  unfold Html.escapeChar
  split
  · exact decodeOnce_name_append (e := (_, '&')) (by decide) s
  · exact decodeOnce_name_append (e := (_, '<')) (by decide) s
  · exact decodeOnce_name_append (e := (_, '>')) (by decide) s
  · next hamp _ _ => exact decodeOnce_cons_of_ne (fun h => hamp h) s

theorem decodeOnce_escapeQuotedChar (c : Char) (s : List Char) :
    decodeOnce entities (Html.escapeQuotedChar c ++ s) = c :: decodeOnce entities s := by
  unfold Html.escapeQuotedChar
  split
  · exact decodeOnce_name_append (e := (_, '"')) (by decide) s
  · exact decodeOnce_escapeChar _ s

theorem decodeOnce_flatMap {f : Char → List Char}
    (h : ∀ c s, decodeOnce entities (f c ++ s) = c :: decodeOnce entities s) (s : List Char) :
    decodeOnce entities (s.flatMap f) = s := by
  induction s with
  | nil => simp
  | cons c s ih => rw [List.flatMap_cons, h, ih]

theorem decode_escape (s : String) : decode (Html.escape s) = s.toList := by
  rw [decode_eq_decodeOnce]
  exact decodeOnce_flatMap decodeOnce_escapeChar s.toList

theorem decode_escapeQuoted (s : String) : decode (Html.escapeQuoted s) = s.toList := by
  rw [decode_eq_decodeOnce]
  exact decodeOnce_flatMap decodeOnce_escapeQuotedChar s.toList

/-! ## §5. Reading once -/

/-- The names, and the characters that they stand for. -/
inductive Names : List Char → Char → Prop where
  | less : Names "&lt;".toList '<'
  | greater : Names "&gt;".toList '>'
  | quote : Names "&quot;".toList '"'
  | apostrophe : Names "&apos;".toList '\''
  | apostropheCode : Names "&#39;".toList '\''
  | ampersand : Names "&amp;".toList '&'

theorem names_iff_mem : Names p c ↔ (p, c) ∈ entities := by
  constructor
  · intro h
    cases h <;> decide
  · intro h
    simp only [entities, List.mem_cons, List.not_mem_nil, or_false, Prod.mk.injEq] at h
    -- One case for each name.
    rcases h with ⟨rfl, rfl⟩ | ⟨rfl, rfl⟩ | ⟨rfl, rfl⟩ | ⟨rfl, rfl⟩ | ⟨rfl, rfl⟩ | ⟨rfl, rfl⟩
    · exact .less
    · exact .greater
    · exact .quote
    · exact .apostropheCode
    · exact .apostrophe
    · exact .ampersand

/-- What a text comes to when it is read once from left to right. -/
inductive ReadOnce : List Char → List Char → Prop where
  /-- At the end nothing is left to read. -/
  | done : ReadOnce [] []
  /-- Where a name stands its character is put in, and reading goes on behind the name. -/
  | name {p s t : List Char} {c : Char} : Names p c → ReadOnce s t → ReadOnce (p ++ s) (c :: t)
  /-- Where no name stands the character is copied. -/
  | copy {c : Char} {s t : List Char} :
    (∀ p d, Names p d → ¬ p <+: c :: s) → ReadOnce s t → ReadOnce (c :: s) (c :: t)

theorem readOnce_decodeOnce (s : List Char) : ReadOnce s (decodeOnce entities s) := by
  fun_induction decodeOnce entities s with
  | case1 => exact .done
  | case2 c s e he ih =>
    obtain ⟨hmem, r, hr⟩ := prefix_of_entityAt? he
    -- Behind the name stands what is left when the name is dropped.
    have hdrop : s.drop (e.1.length - 1) = r := by
      have hne : e.1 ≠ [] := by
        have hall : ∀ e ∈ entities, e.1 ≠ [] := by decide
        exact hall e hmem
      obtain ⟨b, n, hn⟩ := List.exists_cons_of_ne_nil hne
      rw [hn, List.cons_append] at hr
      simp [hn, ← (List.cons.inj hr).2]
    rw [hdrop] at ih ⊢
    rw [← hr]
    exact .name (names_iff_mem.mpr hmem) ih
  | case3 c s he ih =>
    refine .copy ?_ ih
    intro p d hp
    exact entityAt?_eq_none_iff.mp he _ (names_iff_mem.mp hp)

theorem ReadOnce.eq_decodeOnce {t : List Char} (h : ReadOnce s t) : t = decodeOnce entities s := by
  induction h with
  | done => rw [decodeOnce_nil]
  | name hp _ ih => rw [decodeOnce_name_append (names_iff_mem.mp hp), ih]
  | @copy c s t hcopy _ ih =>
    have hnone : entityAt? entities (c :: s) = none := by
      rw [entityAt?_eq_none_iff]
      intro e he
      exact hcopy e.1 e.2 (names_iff_mem.mpr he)
    rw [decodeOnce_of_none hnone, ih]

/-- **Decoding reads once**: six replacements one after the other come to what one reading from left
    to right comes to, which never looks at what it has put in. -/
theorem decodeEntities_eq_iff_readOnce (text result : String) :
    decodeEntities text = result ↔ ReadOnce text.toList result.toList := by
  have hdecode : (decodeEntities text).toList = decodeOnce entities text.toList := by
    rw [decodeEntities, String.toList_ofList, decode_eq_decodeOnce]
  constructor
  · rintro rfl
    rw [hdecode]
    exact readOnce_decodeOnce text.toList
  · intro h
    refine String.toList_inj.mp ?_
    rw [hdecode, h.eq_decodeOnce]

/-- Decoding never decodes twice. -/
example : decodeEntities "&amp;lt;&#39;&amp;amp;" = "&lt;'&amp;" := by cbv

end ReactiveView.Markup
