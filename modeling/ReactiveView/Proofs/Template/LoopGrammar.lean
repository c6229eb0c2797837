import ReactiveView.Proofs.Template.Markers
import ReactiveView.Proofs.Expr.Spelling
import ReactiveView.Proofs.Text.Trim

/-! # The grammar of loops

  The text of a loop names its item, if need be with a position and in
  parentheses, and behind the word `in` the collection that it runs over. The
  word may stand in the collection again, and a name may begin or end like it.

  * `Keyword`: the places where a text can be split at the word;
    `splitIn?_eq_some_iff`: the first of them is taken.
  * `Variables`: the texts that name what a loop binds; `loopNames?_eq_some_iff`:
    no other text does.
  * `LoopText.first`: the word does not occur in such a text, if it is no name.
  * `loop_compile_iff`: which texts are loops, and what they are compiled to.
-/

namespace ReactiveView

open Text

variable {s t vars collection blanks blanks' : List Char} {c : Char} {last : Option Char}
  {item x : String} {position y : Option String}

/-! ## §1. The word between the names and the collection -/

/-- The text can be split at the word `in`: it stands behind a blank or a closing parenthesis and in
    front of a blank. `last` is the character before the text, if there is one. -/
structure Keyword (last : Option Char) (s vars collection : List Char) : Prop where
  /-- The word stands between the two parts. -/
  eq : s = vars ++ 'i' :: 'n' :: collection
  /-- What stands in front of it. -/
  begins : ∃ b, vars.getLast?.or last = some b ∧ (isBlank b = true ∨ b = ')')
  /-- What stands behind it. -/
  ends : ∃ b, collection.head? = some b ∧ isBlank b = true

theorem keyword_cons_iff {d : Char} :
    Keyword last (c :: s) (d :: vars) collection ↔ d = c ∧ Keyword (some c) s vars collection := by
  have hlast : (d :: vars).getLast?.or last = vars.getLast?.or (some d) := by
    rw [List.getLast?_cons]
    cases vars.getLast? <;> rfl
  constructor
  · intro h
    obtain ⟨rfl, hs⟩ := List.cons.inj h.eq
    exact ⟨rfl, hs, hlast ▸ h.begins, h.ends⟩
  · rintro ⟨rfl, h⟩
    exact ⟨congrArg (d :: ·) h.eq, hlast ▸ h.begins, h.ends⟩

theorem splitIn?_of_front (h : Keyword last s [] collection) :
    splitIn? last s = some ([], collection) := by
  obtain ⟨b, hb, hbegins⟩ := h.begins
  obtain ⟨d, hd, hends⟩ := h.ends
  obtain ⟨r, rfl⟩ := List.head?_eq_some_iff.mp hd
  obtain rfl := h.eq
  obtain rfl : last = some b := hb
  rcases hbegins with hbegins | rfl
  · simp [splitIn?, hbegins, hends]
  · simp [splitIn?, hends]

theorem splitIn?_of_not_front (h : ∀ collection, ¬ Keyword last (c :: s) [] collection) :
    splitIn? last (c :: s) = (splitIn? (some c) s).map fun x => (c :: x.1, x.2) := by
  rw [splitIn?.eq_def]
  refine if_neg ?_
  intro hfront
  simp only [Bool.and_eq_true, decide_eq_true_eq] at hfront
  obtain ⟨⟨rfl, hbegins⟩, hends⟩ := hfront
  -- The test has looked at the character before the word, and at the two behind its first letter.
  cases last with
  | none => cases hbegins
  | some b =>
    split at hends
    · next d r =>
      refine h (d :: r) ⟨rfl, ⟨b, rfl, ?_⟩, d, rfl, hends⟩
      simpa using hbegins
    · cases hends

/-- **The first place** is taken at which the text can be split. -/
theorem splitIn?_eq_some_iff :
    splitIn? last s = some (vars, collection) ↔ Keyword last s vars collection ∧
      ∀ vars' collection', Keyword last s vars' collection' → vars.length ≤ vars'.length := by
  induction s generalizing last vars with
  | nil =>
    refine ⟨fun h => (by cases h), fun h => ?_⟩
    have hlength := congrArg List.length h.1.eq
    simp at hlength
  | cons c s ih =>
    by_cases hfront : ∃ collection, Keyword last (c :: s) [] collection
    · obtain ⟨collection', hfront⟩ := hfront
      rw [splitIn?_of_front hfront]
      constructor
      · rintro ⟨⟩
        exact ⟨hfront, fun _ _ _ => Nat.zero_le _⟩
      · rintro ⟨h, hfirst⟩
        obtain rfl : vars = [] := List.eq_nil_of_length_eq_zero (Nat.le_zero.mp (hfirst _ _ hfront))
        have heq := hfront.eq.symm.trans h.eq
        simp only [List.nil_append, List.cons.injEq, true_and] at heq
        rw [heq]
    · rw [splitIn?_of_not_front (not_exists.mp hfront), Option.map_eq_some_iff]
      -- The text cannot be split at its front, so the first character belongs to the names.
      have hcons : ∀ {vars collection}, Keyword last (c :: s) vars collection →
          ∃ vars', vars = c :: vars' ∧ Keyword (some c) s vars' collection := by
        intro vars collection h
        cases vars with
        | nil => exact absurd ⟨collection, h⟩ hfront
        | cons d vars =>
          obtain ⟨rfl, h⟩ := keyword_cons_iff.mp h
          exact ⟨vars, rfl, h⟩
      constructor
      · rintro ⟨⟨vars, collection⟩, h, ⟨⟩⟩
        obtain ⟨hkeyword, hfirst⟩ := ih.mp h
        refine ⟨keyword_cons_iff.mpr ⟨rfl, hkeyword⟩, fun vars' collection' h' => ?_⟩
        obtain ⟨rest, rfl, hrest⟩ := hcons h'
        exact Nat.succ_le_succ (hfirst _ _ hrest)
      · rintro ⟨h, hfirst⟩
        obtain ⟨rest, rfl, hrest⟩ := hcons h
        refine ⟨(rest, collection), ih.mpr ⟨hrest, fun vars' collection' h' => ?_⟩, rfl⟩
        exact Nat.le_of_succ_le_succ (hfirst _ _ (keyword_cons_iff.mpr ⟨rfl, h'⟩))

/-! ## §2. The names -/

/-- A name with blanks around it. -/
def Padded (s : List Char) (x : String) : Prop :=
  isVariableName x.toList = true ∧ ∃ b b', isBlankText b = true ∧ isBlankText b' = true ∧
    s = b ++ x.toList ++ b'

/-- One name, or two names with a comma between them. -/
inductive Names : List Char → String → Option String → Prop where
  /-- The item alone. -/
  | one {s : List Char} {x : String} (hx : Padded s x) : Names s x none
  /-- The item and its position. -/
  | two {s t : List Char} {x y : String} (hx : Padded s x) (hy : Padded t y) :
      Names (s ++ ',' :: t) x (some y)

/-- What a loop binds: names, which may stand in one pair of parentheses. -/
inductive Variables : List Char → String → Option String → Prop where
  /-- The names as they are. -/
  | bare {s : List Char} {x : String} {y : Option String} (h : Names s x y) : Variables s x y
  /-- The names in parentheses. -/
  | enclosed {b b' s : List Char} {x : String} {y : Option String} (hb : isBlankText b = true)
      (hb' : isBlankText b' = true) (h : Names s x y) :
      Variables (b ++ '(' :: (s ++ ')' :: b')) x y

/-- A name is all that is left when a text is trimmed. -/
theorem padded_iff : Padded s x ↔ isVariableName x.toList = true ∧ trim s = x.toList := by
  constructor
  · rintro ⟨hx, b, b', hb, hb', rfl⟩
    have hblank := isBlank_eq_false_of_mem_name hx
    refine ⟨hx, ?_⟩
    rw [trim_append hb hb']
    exact trim_eq_self (fun c hc => hblank c (List.mem_of_mem_head? hc))
      fun c hc => hblank c (List.mem_of_getLast? hc)
  · rintro ⟨hx, hs⟩
    obtain ⟨b, b', hb, hb', heq⟩ := exists_append_trim s
    exact ⟨hx, b, b', hb, hb', hs ▸ heq⟩

/-- A padded name holds blanks and characters of names. -/
theorem Padded.of_mem (h : Padded s x) (hc : c ∈ s) : isBlank c = true ∨ isNameChar c = true := by
  obtain ⟨hx, b, b', hb, hb', rfl⟩ := h
  obtain ⟨d, r, hname, hd, hr⟩ := isVariableName_iff.mp hx
  rw [hname] at hc
  rcases List.mem_append.mp hc with hc | hc
  · rcases List.mem_append.mp hc with hc | hc
    · exact .inl (List.all_eq_true.mp hb c hc)
    · rcases List.mem_cons.mp hc with rfl | hc
      · exact .inr (isNameChar_of_isNameStart hd)
      · exact .inr (hr c hc)
  · exact .inl (List.all_eq_true.mp hb' c hc)

theorem Padded.comma_not_mem (h : Padded s x) : ',' ∉ s := by
  intro hc
  rcases h.of_mem hc with hc | hc <;> cases hc

theorem Names.paren_not_mem (h : Names s x y) : '(' ∉ s := by
  have hpadded : ∀ {s x}, Padded s x → '(' ∉ s := by
    intro s x h hc
    rcases h.of_mem hc with hc | hc <;> cases hc
  cases h with
  | one hx => exact hpadded hx
  | two hx hy =>
    intro hc
    rcases List.mem_append.mp hc with hc | hc
    · exact hpadded hx hc
    · exact hpadded hy ((List.mem_cons.mp hc).resolve_left (by decide))

/-! ### Commas -/

theorem splitCommas_eq_splitOn (s : List Char) : splitCommas s = s.splitOn ',' := by
  induction s with
  | nil => rfl
  | cons c s ih =>
    show _ = (c :: s).splitOnP (· == ',')
    rw [splitCommas, ih, List.splitOnP_cons_eq_if_modifyHead]
    by_cases hc : c = ','
    · rw [if_pos hc, if_pos (beq_iff_eq.mpr hc)]
      rfl
    · rw [if_neg hc, if_neg (by simpa using hc)]
      show _ = (s.splitOn ',').modifyHead (List.cons c)
      cases hs : s.splitOn ',' with
      | nil => exact absurd hs (List.splitOnP_ne_nil _ _)
      | cons d ds => rfl

theorem splitCommas_of_not_mem (h : ',' ∉ s) : splitCommas s = [s] := by
  rw [splitCommas_eq_splitOn]
  refine List.splitOnP_eq_singleton ?_
  intro c hc
  exact beq_false_of_ne fun heq => h (heq ▸ hc)

theorem splitCommas_append (h : ',' ∉ s) (t : List Char) :
    splitCommas (s ++ ',' :: t) = s :: splitCommas t := by
  rw [splitCommas_eq_splitOn, splitCommas_eq_splitOn]
  refine List.splitOnP_append_cons_of_forall_mem ?_ _ rfl _
  intro c hc
  exact beq_false_of_ne fun heq => h (heq ▸ hc)

theorem intercalate_splitCommas (s : List Char) : [','].intercalate (splitCommas s) = s := by
  rw [splitCommas_eq_splitOn]
  exact List.intercalate_splitOn ','

/-- Names are read from the parts between the commas. -/
theorem names_iff : Names s x y ↔
    (splitCommas s).map trim = x.toList :: (y.map String.toList).toList ∧
      isVariableName x.toList = true ∧ ∀ y' ∈ y, isVariableName y'.toList = true := by
  constructor
  · intro h
    cases h with
    | one hx =>
      rw [splitCommas_of_not_mem hx.comma_not_mem]
      exact ⟨congrArg (· :: []) (padded_iff.mp hx).2, hx.1, fun _ hy => nomatch hy⟩
    | two hx hy =>
      rw [splitCommas_append hx.comma_not_mem, splitCommas_of_not_mem hy.comma_not_mem]
      refine ⟨?_, hx.1, fun y' hy' => Option.some.inj hy' ▸ hy.1⟩
      rw [List.map_cons, List.map_cons, (padded_iff.mp hx).2, (padded_iff.mp hy).2]
      rfl
  · rintro ⟨hparts, hx, hy⟩
    have hs := intercalate_splitCommas s
    cases y with
    | none =>
      obtain ⟨p, hp, hpx⟩ := List.map_eq_singleton_iff.mp hparts
      rw [hp] at hs
      obtain rfl : p = s := by simpa using hs
      exact .one (padded_iff.mpr ⟨hx, hpx⟩)
    | some y =>
      obtain ⟨p, ps, hp, hpx, hps⟩ := List.map_eq_cons_iff.mp hparts
      obtain ⟨q, rfl, hqy⟩ := List.map_eq_singleton_iff.mp hps
      rw [hp] at hs
      obtain rfl : p ++ ',' :: q = s := by simpa [List.intercalate_cons_cons] using hs
      exact .two (padded_iff.mpr ⟨hx, hpx⟩) (padded_iff.mpr ⟨hy y rfl, hqy⟩)

/-! ### Parentheses -/

theorem withoutParens_of_not_mem (h : '(' ∉ s) : withoutParens s = s := by
  unfold withoutParens
  split
  · exact absurd List.mem_cons_self h
  · rfl

theorem withoutParens_enclosed (s : List Char) : withoutParens ('(' :: (s ++ [')'])) = s := by
  simp [withoutParens]

/-- Parentheses are taken off in pairs. -/
theorem withoutParens_cases (s : List Char) :
    withoutParens s = s ∨ s = '(' :: (withoutParens s ++ [')']) := by
  unfold withoutParens
  split
  · next r =>
    split
    · next hlast =>
      obtain ⟨front, rfl⟩ := List.getLast?_eq_some_iff.mp hlast
      exact .inr (by simp)
    · exact .inl rfl
  · exact .inl rfl

/-- Names may have blanks around them. -/
theorem Names.append (hb : isBlankText blanks = true) (hb' : isBlankText blanks' = true)
    (h : Names s x y) : Names (blanks ++ s ++ blanks') x y := by
  cases h with
  | one hx =>
    rw [padded_iff] at hx
    refine .one (padded_iff.mpr ⟨hx.1, ?_⟩)
    rw [trim_append hb hb', hx.2]
  | @two s t x y hx hy =>
    rw [padded_iff] at hx hy
    have hassoc : blanks ++ (s ++ ',' :: t) ++ blanks' =
        (blanks ++ s) ++ ',' :: (t ++ blanks') := by simp
    rw [hassoc]
    refine .two (padded_iff.mpr ⟨hx.1, ?_⟩) (padded_iff.mpr ⟨hy.1, ?_⟩)
    · have hfront := @trim_append _ [] hb rfl s
      rwa [List.append_nil, hx.2] at hfront
    · have hback := @trim_append [] _ rfl hb' t
      rwa [List.nil_append, hy.2] at hback

/-- Names are names still when they are trimmed. -/
theorem Names.trim (h : Names s x y) : Names (trim s) x y := by
  cases h with
  | one hx =>
    rw [(padded_iff.mp hx).2]
    exact .one ⟨hx.1, [], [], rfl, rfl, by simp⟩
  | @two s t x y hx hy =>
    obtain ⟨hname, b, b', hb, hb', rfl⟩ := hx
    obtain ⟨hname', d, d', hd, hd', rfl⟩ := hy
    -- The text begins and ends with a name as soon as the outer blanks are gone.
    have hassoc : b ++ x.toList ++ b' ++ ',' :: (d ++ y.toList ++ d') =
        b ++ (x.toList ++ b' ++ ',' :: (d ++ y.toList)) ++ d' := by simp
    obtain ⟨c, r, hx, -⟩ := isVariableName_iff.mp hname
    have hnonempty : y.toList ≠ [] := by
      obtain ⟨c, r, hy, -⟩ := isVariableName_iff.mp hname'
      rw [hy]
      exact List.cons_ne_nil c r
    have hcore : Text.trim (x.toList ++ b' ++ ',' :: (d ++ y.toList)) =
        x.toList ++ b' ++ ',' :: (d ++ y.toList) := by
      refine trim_eq_self ?_ ?_
      · intro e he
        rw [hx] at he
        obtain rfl : c = e := Option.some.inj he
        exact isBlank_eq_false_of_mem_name hname c (hx ▸ List.mem_cons_self)
      · intro e he
        have hlast : (x.toList ++ b' ++ ',' :: (d ++ y.toList)).getLast? = y.toList.getLast? := by
          rw [← List.cons_append, ← List.append_assoc]
          exact List.getLast?_append_of_ne_nil _ hnonempty
        rw [hlast] at he
        exact isBlank_eq_false_of_mem_name hname' e (List.mem_of_getLast? he)
    rw [hassoc, trim_append hb hd', hcore]
    exact .two ⟨hname, [], b', rfl, hb', rfl⟩ ⟨hname', d, [], hd, rfl, (List.append_nil _).symm⟩

/-- The names are what is left without outer blanks and a pair of parentheses. -/
theorem variables_iff : Variables s x y ↔ Names (withoutParens (trim s)) x y := by
  constructor
  · intro h
    cases h with
    | bare h =>
      rw [withoutParens_of_not_mem h.trim.paren_not_mem]
      exact h.trim
    | @enclosed b b' s _ _ hb hb' h =>
      have hassoc : b ++ '(' :: (s ++ ')' :: b') = b ++ '(' :: (s ++ [')']) ++ b' := by simp
      have hcore : Text.trim ('(' :: (s ++ [')'])) = '(' :: (s ++ [')']) := by
        refine trim_eq_self ?_ ?_
        · rintro c ⟨⟩
          rfl
        · intro c hc
          rw [← List.cons_append, List.getLast?_concat] at hc
          obtain rfl := Option.some.inj hc
          rfl
      rw [hassoc, trim_append hb hb', hcore, withoutParens_enclosed]
      exact h
  · intro h
    obtain ⟨b, b', hb, hb', hs⟩ := exists_append_trim s
    rcases withoutParens_cases (trim s) with hbare | henclosed
    · rw [hbare] at h
      rw [hs]
      exact .bare (h.append hb hb')
    · rw [hs, henclosed]
      have hassoc : b ++ '(' :: (withoutParens (Text.trim s) ++ [')']) ++ b' =
          b ++ '(' :: (withoutParens (Text.trim s) ++ ')' :: b') := by simp
      rw [hassoc]
      exact .enclosed hb hb' h

/-- **The names of a loop** are read from such a text and no other. -/
theorem loopNames?_eq_some_iff :
    loopNames? vars = some (item, position) ↔ Variables vars item position := by
  rw [variables_iff, names_iff, loopNames?]
  generalize (splitCommas (withoutParens (trim vars))).map trim = names
  constructor
  · intro h
    split at h
    · next a =>
      split at h
      · next ha =>
        obtain ⟨rfl, rfl⟩ := Prod.mk.inj (Option.some.inj h)
        rw [String.toList_ofList]
        exact ⟨rfl, ha, fun _ hy => nomatch hy⟩
      · cases h
    · next a b =>
      split at h
      · next hab =>
        obtain ⟨rfl, rfl⟩ := Prod.mk.inj (Option.some.inj h)
        obtain ⟨ha, hb⟩ := Bool.and_eq_true_iff.mp hab
        rw [String.toList_ofList]
        refine ⟨by simp, ha, ?_⟩
        rintro _ ⟨⟩
        rwa [String.toList_ofList]
      · cases h
    · cases h
  · rintro ⟨rfl, hx, hy⟩
    cases position with
    | none => simp [hx]
    | some y => simp [hx, hy y rfl]

/-! ## §3. The word among the names -/

/-- What stands between the characters that belong to no name. -/
def words (s : List Char) : List (List Char) := s.splitOnP fun c => !isNameChar c

theorem words_append (hc : isNameChar c = false) (s t : List Char) :
    words (s ++ c :: t) = words s ++ words t :=
  List.splitOnP_append_cons s t (by simp [hc])

theorem words_of_name (hs : ∀ d ∈ s, isNameChar d = true) : words s = [s] :=
  List.splitOnP_eq_singleton fun d hd => by simp [hs d hd]

theorem words_name_append (hs : ∀ d ∈ s, isNameChar d = true) (hc : isNameChar c = false)
    (t : List Char) : words (s ++ c :: t) = s :: words t := by
  rw [words_append hc, words_of_name hs]
  rfl

theorem eq_nil_of_mem_words {w : List Char} (hb : isBlankText blanks = true)
    (hw : w ∈ words blanks) : w = [] := by
  induction blanks with
  | nil => exact List.mem_singleton.mp hw
  | cons c blanks ih =>
    obtain ⟨hc, hb⟩ := Bool.and_eq_true_iff.mp hb
    have hsplit : words (c :: blanks) = [] :: words blanks :=
      words_name_append (s := []) (by simp) (isNameChar_eq_false_of_isBlank hc) blanks
    rw [hsplit] at hw
    exact (List.mem_cons.mp hw).elim id (ih hb)

/-- The words of a padded name: the name, and nothing else but empty ones. -/
theorem Padded.words (h : Padded s x) :
    x.toList ∈ words s ∧ ∀ w ∈ words s, w = [] ∨ w = x.toList := by
  obtain ⟨hx, b, b', hb, hb', rfl⟩ := h
  obtain ⟨d, r, hname, hd, hr⟩ := isVariableName_iff.mp hx
  have hchars : ∀ c ∈ x.toList, isNameChar c = true := by
    rw [hname]
    intro c hc
    rcases List.mem_cons.mp hc with rfl | hc
    · exact isNameChar_of_isNameStart hd
    · exact hr c hc
  -- First the blanks in front, then those behind.
  induction b with
  | nil =>
    rw [List.nil_append]
    cases b' with
    | nil =>
      rw [List.append_nil, words_of_name hchars]
      exact ⟨List.mem_singleton_self _, fun w hw => .inr (List.mem_singleton.mp hw)⟩
    | cons c b' =>
      obtain ⟨hc, hb'⟩ := Bool.and_eq_true_iff.mp hb'
      rw [words_name_append hchars (isNameChar_eq_false_of_isBlank hc)]
      refine ⟨List.mem_cons_self, fun w hw => ?_⟩
      rcases List.mem_cons.mp hw with rfl | hw
      · exact .inr rfl
      · exact .inl (eq_nil_of_mem_words hb' hw)
  | cons c b ih =>
    obtain ⟨hc, hb⟩ := Bool.and_eq_true_iff.mp hb
    have hsplit : words (c :: (b ++ x.toList ++ b')) = [] :: words (b ++ x.toList ++ b') :=
      words_name_append (s := []) (by simp) (isNameChar_eq_false_of_isBlank hc) _
    obtain ⟨hmem, hall⟩ := ih hb
    rw [List.cons_append, List.cons_append, hsplit]
    refine ⟨List.mem_cons_of_mem _ hmem, fun w hw => ?_⟩
    exact (List.mem_cons.mp hw).elim .inl (hall w)

theorem Names.words (h : Names s x y) :
    (x.toList ∈ words s ∧ ∀ y' ∈ y, y'.toList ∈ words s) ∧
      ∀ w ∈ words s, w = [] ∨ w = x.toList ∨ ∃ y' ∈ y, w = y'.toList := by
  cases h with
  | one hx =>
    obtain ⟨hmem, hall⟩ := hx.words
    exact ⟨⟨hmem, fun _ hy => nomatch hy⟩, fun w hw => (hall w hw).imp_right .inl⟩
  | @two s t x y hx hy =>
    obtain ⟨hmem, hall⟩ := hx.words
    obtain ⟨hmem', hall'⟩ := hy.words
    rw [words_append (by decide)]
    refine ⟨⟨List.mem_append_left _ hmem, ?_⟩, fun w hw => ?_⟩
    · rintro _ ⟨⟩
      exact List.mem_append_right _ hmem'
    · rcases List.mem_append.mp hw with hw | hw
      · exact (hall w hw).imp_right .inl
      · exact (hall' w hw).imp_right fun heq => .inr ⟨y, rfl, heq⟩

/-- The words of what a loop binds are the names, and otherwise empty. -/
theorem Variables.words (h : Variables s x y) :
    (x.toList ∈ words s ∧ ∀ y' ∈ y, y'.toList ∈ words s) ∧
      ∀ w ∈ words s, w = [] ∨ w = x.toList ∨ ∃ y' ∈ y, w = y'.toList := by
  cases h with
  | bare h => exact h.words
  | enclosed hb hb' h =>
    obtain ⟨⟨hx, hy⟩, hall⟩ := h.words
    rw [words_append (by decide), words_append (by decide)]
    refine ⟨⟨?_, fun y' hy' => ?_⟩, fun w hw => ?_⟩
    · exact List.mem_append_right _ (List.mem_append_left _ hx)
    · exact List.mem_append_right _ (List.mem_append_left _ (hy y' hy'))
    · rcases List.mem_append.mp hw with hw | hw
      · exact .inl (eq_nil_of_mem_words hb hw)
      · rcases List.mem_append.mp hw with hw | hw
        · exact hall w hw
        · exact .inl (eq_nil_of_mem_words hb' hw)

/-- A text that can be split at the word has the word among its words. -/
theorem Keyword.words (h : Keyword none s vars collection) :
    ∃ front back, words s = front ++ ['i', 'n'] :: back ∧ words vars = front ++ [[]] := by
  obtain ⟨b, hb, hbegins⟩ := h.begins
  obtain ⟨d, hd, hends⟩ := h.ends
  rw [Option.or_none] at hb
  obtain ⟨front, rfl⟩ := List.getLast?_eq_some_iff.mp hb
  obtain ⟨back, rfl⟩ := List.head?_eq_some_iff.mp hd
  have hfront : isNameChar b = false := by
    rcases hbegins with hblank | rfl
    · exact isNameChar_eq_false_of_isBlank hblank
    · decide
  have hword : ∀ c ∈ ['i', 'n'], isNameChar c = true := List.all_eq_true.mp (by decide)
  have hs : s = front ++ b :: (['i', 'n'] ++ d :: back) := by
    rw [h.eq, List.append_assoc]
    rfl
  refine ⟨words front, words back, ?_, ?_⟩
  · rw [hs, words_append hfront, words_name_append hword (isNameChar_eq_false_of_isBlank hends)]
  · rw [words_append hfront]
    rfl

/-! ## §4. Loops -/

/-- The text of a loop: what it binds, the word, and something to run over. -/
structure LoopText (s vars : List Char) (item : String) (position : Option String)
    (collection : List Char) : Prop where
  /-- The word stands between the two. -/
  keyword : Keyword none s vars collection
  /-- In front of it stand names. -/
  binds : Variables vars item position
  /-- There is something behind it. -/
  not_blank : isBlankText collection = false

/-- **The word is the first one**, if no name is the word. -/
theorem LoopText.first (h : LoopText s vars item position collection) (hitem : item ≠ "in")
    (hposition : position ≠ some "in") {vars' collection' : List Char}
    (h' : Keyword none s vars' collection') : vars.length ≤ vars'.length := by
  by_contra hlt
  -- Otherwise the word stands among the names as well.
  have hinside : ∃ rest, Keyword none vars vars' rest := by
    have heq : vars' ++ 'i' :: 'n' :: collection' = vars ++ 'i' :: 'n' :: collection :=
      h'.eq.symm.trans h.keyword.eq
    rcases List.append_eq_append_iff.mp heq with ⟨a, rfl, ha⟩ | ⟨a, rfl, -⟩
    · obtain ⟨b, hb, hblank⟩ := h'.ends
      obtain ⟨r, rfl⟩ := List.head?_eq_some_iff.mp hb
      match a, ha with
      | [], _ => simp at hlt
      | [d], ha => simp at ha
      | [d, e], ha =>
        simp only [List.cons_append, List.nil_append, List.cons.injEq] at ha
        obtain ⟨-, -, rfl, -⟩ := ha
        cases hblank
      | d :: e :: f :: a, ha =>
        simp only [List.cons_append, List.cons.injEq] at ha
        obtain ⟨rfl, rfl, rfl, rfl⟩ := ha
        exact ⟨b :: a, rfl, h'.begins, b, rfl, hblank⟩
    · simp at hlt
  obtain ⟨rest, hinside⟩ := hinside
  obtain ⟨front, back, hwords, -⟩ := hinside.words
  have hmem : "in".toList ∈ words vars := by
    rw [hwords]
    exact List.mem_append_right _ List.mem_cons_self
  rcases h.binds.words.2 _ hmem with hnil | heq | ⟨y, hy, heq⟩
  · cases hnil
  · exact hitem (String.toList_inj.mp heq.symm)
  · exact hposition (String.toList_inj.mp heq ▸ hy)

/-- Where the word stands only once it is no name. -/
theorem LoopText.ne_in (h : LoopText s vars item position collection)
    (honce : (words s).count ['i', 'n'] ≤ 1) : item ≠ "in" ∧ position ≠ some "in" := by
  obtain ⟨front, back, hs, hvars⟩ := h.keyword.words
  obtain ⟨⟨hitem, hposition⟩, -⟩ := h.binds.words
  have hfront : ['i', 'n'] ∉ front ++ [[]] := by
    intro hmem
    have hpos : 0 < front.count ['i', 'n'] := by
      rcases List.mem_append.mp hmem with hmem | hmem
      · exact List.count_pos_iff.mpr hmem
      · cases List.mem_singleton.mp hmem
    rw [hs, List.count_append, List.count_cons_self] at honce
    omega
  rw [hvars] at hitem hposition
  refine ⟨?_, ?_⟩
  · rintro rfl
    exact hfront hitem
  · rintro rfl
    exact hfront (hposition "in" rfl)

/-- What is compiled, and what is not. -/
theorem Loop.compile_result (source : String) :
    (Loop.compile source).run.result =
      match splitIn? none source.toList with
      | none => .error (.invalidLoop source)
      | some (vars, collection) =>
        match loopNames? vars with
        | none => .error (.invalidLoop source)
        | some (item, position) =>
          if isBlankText collection then .error (.invalidLoop source)
          else .ok ⟨item, position, .ofSource collection⟩ := by
  rw [Loop.compile]
  cases splitIn? none source.toList with
  | none => rfl
  | some parts =>
    obtain ⟨vars, collection⟩ := parts
    simp only
    cases loopNames? vars with
    | none => rfl
    | some names =>
      obtain ⟨item, position⟩ := names
      simp only
      split
      · rfl
      · rw [Compilation.result_bind]
        show Except.ok (⟨item, position, (Directive.compile collection).result⟩ : Loop) = _
        rw [Directive.result_compile]

/-- A loop that is refused is refused with its text. -/
theorem Loop.eq_invalidLoop_of_compile {source : String} {e : TemplateError}
    (h : (Loop.compile source).run.result = .error e) : e = .invalidLoop source := by
  rw [compile_result] at h
  split at h
  · exact (Except.error.inj h).symm
  · split at h
    · exact (Except.error.inj h).symm
    · split at h
      · exact (Except.error.inj h).symm
      · cases h

/-- **A text is a loop** if it is one at the first word. -/
theorem Loop.compile_eq_ok_iff {source : String} {loop : Loop} :
    (Loop.compile source).run.result = .ok loop ↔ ∃ vars collection,
      LoopText source.toList vars loop.item loop.position collection ∧
        (∀ vars' collection', Keyword none source.toList vars' collection' →
          vars.length ≤ vars'.length) ∧
        loop.collection = .ofSource collection := by
  rw [compile_result]
  constructor
  · intro h
    split at h
    · cases h
    · next vars collection hsplit =>
      obtain ⟨hkeyword, hfirst⟩ := splitIn?_eq_some_iff.mp hsplit
      split at h
      · cases h
      · next item position hnames =>
        split at h
        · cases h
        · next hblank =>
          obtain rfl := Except.ok.inj h
          have hnames' := loopNames?_eq_some_iff.mp hnames
          exact ⟨vars, collection, ⟨hkeyword, hnames', by simpa using hblank⟩, hfirst, rfl⟩
  · rintro ⟨vars, collection, h, hfirst, hcollection⟩
    rw [splitIn?_eq_some_iff.mpr ⟨h.keyword, hfirst⟩]
    simp only [loopNames?_eq_some_iff.mpr h.binds]
    rw [if_neg (by simp [h.not_blank]), ← hcollection]

/-- **The grammar of loops.** If the word `in` is no name in a text, the text is a loop exactly if
    it splits at the word, behind a blank or a closing parenthesis and in front of a blank, into one
    or two names, which may be enclosed in parentheses and have blanks around them, and a collection
    that is not blank. The word is the first one that the text can be split at. The loop has these
    names, and its collection is the trimmed text behind the word. Every other text is refused, and
    the error shows it in full. -/
theorem loop_compile_iff {source : String}
    (hin : ∀ vars item position collection,
      LoopText source.toList vars item position collection → item ≠ "in" ∧ position ≠ some "in") :
    (∀ loop, (Loop.compile source).run.result = .ok loop ↔ ∃ vars collection,
        LoopText source.toList vars loop.item loop.position collection ∧
          loop.collection = .ofSource collection) ∧
      (∀ vars item position collection, LoopText source.toList vars item position collection →
        ∀ vars' collection', Keyword none source.toList vars' collection' →
          vars.length ≤ vars'.length) ∧
      ∀ e, (Loop.compile source).run.result = .error e ↔
        (¬ ∃ vars item position collection,
          LoopText source.toList vars item position collection) ∧ e = .invalidLoop source := by
  have hfirst : ∀ vars item position collection,
      LoopText source.toList vars item position collection →
      ∀ vars' collection', Keyword none source.toList vars' collection' →
        vars.length ≤ vars'.length := by
    intro vars item position collection h vars' collection' h'
    obtain ⟨hitem, hposition⟩ := hin _ _ _ _ h
    exact h.first hitem hposition h'
  have hok : ∀ loop, (Loop.compile source).run.result = .ok loop ↔ ∃ vars collection,
      LoopText source.toList vars loop.item loop.position collection ∧
        loop.collection = .ofSource collection := by
    intro loop
    rw [Loop.compile_eq_ok_iff]
    constructor
    · rintro ⟨vars, collection, h, -, hcollection⟩
      exact ⟨vars, collection, h, hcollection⟩
    · rintro ⟨vars, collection, h, hcollection⟩
      exact ⟨vars, collection, h, hfirst _ _ _ _ h, hcollection⟩
  refine ⟨hok, hfirst, fun e => ⟨fun he => ⟨?_, Loop.eq_invalidLoop_of_compile he⟩, ?_⟩⟩
  · rintro ⟨vars, item, position, collection, h⟩
    have hloop := (hok ⟨item, position, .ofSource collection⟩).mpr ⟨vars, collection, h, rfl⟩
    rw [he] at hloop
    cases hloop
  · rintro ⟨hnone, rfl⟩
    cases hresult : (Loop.compile source).run.result with
    | error e => rw [Loop.eq_invalidLoop_of_compile hresult]
    | ok loop =>
      obtain ⟨vars, collection, h, -⟩ := (hok loop).mp hresult
      exact absurd ⟨vars, loop.item, loop.position, collection, h⟩ hnone

/-- Two names in parentheses that begin like the word, and a collection that does, too. -/
theorem loop_compile_iff_enclosed :
    let source := "( index,inner )in inbox.items"
    (∀ vars item position collection,
      LoopText source.toList vars item position collection →
        item ≠ "in" ∧ position ≠ some "in") ∧
      (Loop.compile source).run.result =
        .ok ⟨"index", some "inner", .ofSource " inbox.items".toList⟩ := by
  intro source
  have hin : ∀ vars item position collection,
      LoopText source.toList vars item position collection →
        item ≠ "in" ∧ position ≠ some "in" :=
    fun _ _ _ _ h => h.ne_in (by decide +kernel)
  have hindex : Padded " index".toList "index" :=
    ⟨by decide, [' '], [], rfl, rfl, by decide +kernel⟩
  have hinner : Padded "inner ".toList "inner" :=
    ⟨by decide, [], [' '], rfl, rfl, by decide +kernel⟩
  have htext : LoopText source.toList "( index,inner )".toList "index" (some "inner")
      " inbox.items".toList :=
    ⟨⟨by decide +kernel, ⟨')', by decide +kernel, .inr rfl⟩, ⟨' ', by decide +kernel, rfl⟩⟩,
      @Variables.enclosed [] [] _ _ _ rfl rfl (.two hindex hinner), by decide +kernel⟩
  exact ⟨hin, ((loop_compile_iff hin).1 _).mpr ⟨_, _, htext, rfl⟩⟩

end ReactiveView
