import ReactiveView.Proofs.OrderedMap.Agree
import ReactiveView.Proofs.Template.Failures

/-! # The order of attributes

  Attributes are sorted by their roles, and the roles are served one after the
  other. So the order in which they are written matters only where two of the
  same role get in each other's way. Under distinct names, of which none begins
  with the prefix twice, values do not: what one of them writes, be it to its target
  or in its own place, no other one writes.

  * `Shell.Alike`: elements that differ in the order of attributes alone; all that is
    done to elements keeps them alike.
  * `Shell.Alike.foldl_perm`: steps that can be exchanged can be done in any order.
  * `ElementPlan.Rearranged`: plans of the same attributes in another order.
  * `attributes_in_any_order`: elements of the same attributes in another order.
-/

namespace ReactiveView

variable {s : TemplateSyntax} {tag : String} {attrs attrs' : List (String × String)}
  {children : List MarkupNode}

/-! ## §1. Elements that are alike -/

/-- Elements that differ in the order of their attributes alone. -/
structure Shell.Alike (e e' : Shell) : Prop where
  /-- They have one tag. -/
  tag : e.tag = e'.tag
  /-- Every attribute has the same value in both. -/
  attrs : e.attrs.Agree e'.attrs
  /-- They have the same classes, in the same order. -/
  className : e.className = e'.className
  /-- They have the same style. -/
  style : e.style = e'.style
  /-- They have the same handlers. -/
  handlers : e.handlers = e'.handlers

namespace Shell.Alike

variable {e e' e'' : Shell}

theorem refl (e : Shell) : e.Alike e := ⟨rfl, .refl _, rfl, rfl, rfl⟩

theorem trans (h : e.Alike e') (h' : e'.Alike e'') : e.Alike e'' :=
  ⟨h.tag.trans h'.tag, h.attrs.trans h'.attrs, h.className.trans h'.className,
    h.style.trans h'.style, h.handlers.trans h'.handlers⟩

theorem setPlain (h : e.Alike e') (name value : String) :
    (e.setPlain name value).Alike (e'.setPlain name value) :=
  ⟨h.tag, h.attrs.insert name value, h.className, h.style, h.handlers⟩

theorem addClass (h : e.Alike e') (name : String) : (e.addClass name).Alike (e'.addClass name) := by
  unfold Shell.addClass
  split
  · exact h
  · refine { h with className := ?_ }
    rw [h.className]

theorem setStyle (h : e.Alike e') (property value : String) :
    (e.setStyle property value).Alike (e'.setStyle property value) :=
  ⟨h.tag, h.attrs, h.className, congrArg (·.insert property value) h.style, h.handlers⟩

theorem addStyle (h : e.Alike e') (text : String) : (e.addStyle text).Alike (e'.addStyle text) :=
  ⟨h.tag, h.attrs, h.className, congrArg (·.insertAll (Style.parse text).entries) h.style,
    h.handlers⟩

theorem setAttr (h : e.Alike e') (name value : String) :
    (e.setAttr name value).Alike (e'.setAttr name value) := by
  unfold Shell.setAttr
  split
  · exact h.addClass value
  · split
    · exact h.addStyle value
    · exact h.setPlain name value

theorem addClasses (h : e.Alike e') (v : Value) : (e.addClasses v).Alike (e'.addClasses v) := by
  unfold Shell.addClasses
  split
  · refine List.foldl_rel h ?_
    intro f _ e e' h
    split
    · exact h.addClass f.1
    · exact h
  · refine List.foldl_rel h ?_
    intro name _ e e' h
    split
    · exact h.addClass _
    · exact h
  · exact h.addClass _

theorem addStyles (h : e.Alike e') (v : Value) : (e.addStyles v).Alike (e'.addStyles v) := by
  unfold Shell.addStyles
  split
  · refine List.foldl_rel h ?_
    intro f _ e e' h
    split
    · exact h
    · exact h.setStyle _ _
  · exact h.addStyle _
  · exact h

theorem bind (h : e.Alike e') {set : Shell → Value → Shell}
    (hset : ∀ v, (set e v).Alike (set e' v)) (ambient : Ambient) (scope : Scope) (b : Binding) :
    (e.bind ambient scope set b).result.Alike (e'.bind ambient scope set b).result := by
  rw [Shell.bind, Shell.bind, Traced.result_bind, Traced.result_bind]
  cases (b.directive.value? ambient scope).result with
  | none => exact h.setPlain _ _
  | some v => exact hset v

theorem bindOption (h : e.Alike e') {set : Shell → Value → Shell}
    (hset : ∀ v, (set e v).Alike (set e' v)) (ambient : Ambient) (scope : Scope)
    (b : Option Binding) :
    (e.bindOption ambient scope set b).result.Alike (e'.bindOption ambient scope set b).result := by
  cases b with
  | none => exact h
  | some b => exact h.bind hset ambient scope b

theorem listenAll (h : e.Alike e') (ambient : Ambient) (scope : Scope) (bs : List Binding) :
    (e.listenAll ambient scope bs).result.Alike (e'.listenAll ambient scope bs).result := by
  induction bs generalizing e e' with
  | nil => exact h
  | cons b bs ih =>
    rw [Shell.listenAll, Shell.listenAll, Traced.result_bind, Traced.result_bind]
    cases (b.directive.handler? ambient scope).result with
    | none => exact ih (h.setPlain _ _)
    | some handler =>
      exact ih ⟨h.tag, h.attrs, h.className, h.style,
        congrArg (·.insert b.target handler) h.handlers⟩

/-- Steps that can be exchanged can be done in any order. -/
theorem foldl_perm {β : Type} {step : Shell → β → Shell} {l l' : List β} (hl : l.Perm l')
    (hstep : ∀ a {e e'}, Shell.Alike e e' → (step e a).Alike (step e' a))
    (hcomm : ∀ a ∈ l, ∀ b ∈ l, ∀ e, (step (step e a) b).Alike (step (step e b) a))
    (h : e.Alike e') : (l.foldl step e).Alike (l'.foldl step e') := by
  induction hl generalizing e e' with
  | nil => exact h
  | cons a _ ih =>
    exact ih (fun b hb c hc => hcomm b (List.mem_cons_of_mem a hb) c (List.mem_cons_of_mem a hc))
      (hstep a h)
  | swap a b l =>
    have hswap := (hcomm b List.mem_cons_self a (List.mem_cons_of_mem b List.mem_cons_self) e).trans
      (hstep b (hstep a h))
    exact List.foldl_rel hswap fun c _ e e' h => hstep c h
  | trans hl hl' ih ih' =>
    refine (ih hcomm (refl e)).trans (ih' ?_ h)
    exact fun a ha b hb => hcomm a (hl.mem_iff.mpr ha) b (hl.mem_iff.mpr hb)

/-- Elements that are alike are equal, maps compared without regard to order. -/
theorem same (h : e.Alike e') : e.same e' = true := by
  have hattrs : e.attrs.same e'.attrs = true := (OrderedMap.same_iff_agree _ _).mpr h.attrs
  have hstyle : e.style.same e'.style = true :=
    (OrderedMap.same_iff_agree _ _).mpr (h.style ▸ .refl _)
  have hhandlers : e.handlers.sameBy (fun h h' => h.serial == h'.serial) e'.handlers = true :=
    h.handlers ▸ OrderedMap.sameBy_self (fun v => beq_self_eq_true v.serial) _
  rw [Shell.same, h.tag, h.className, hattrs, hstyle, hhandlers, beq_self_eq_true,
    beq_self_eq_true]
  rfl

end Shell.Alike

mutual

theorem VNode.same_self (n : VNode) : n.same n = true := by
  match n with
  | .text s => exact beq_self_eq_true s
  | .comment s => exact beq_self_eq_true s
  | .element e cs =>
    rw [VNode.same, (Shell.Alike.refl e).same, VNode.sameAll_self cs]
    rfl

theorem VNode.sameAll_self (ns : List VNode) : VNode.sameAll ns ns = true := by
  match ns with
  | [] => rfl
  | n :: ns =>
    rw [VNode.sameAll, VNode.same_self n, VNode.sameAll_self ns]
    rfl

end

/-! ## §2. Attributes that can be exchanged -/

namespace Shell

variable {name name' : String}

theorem setAttr_class (e : Shell) (value : String) : e.setAttr "class" value = e.addClass value :=
  if_pos rfl

theorem setAttr_style (e : Shell) (value : String) : e.setAttr "style" value = e.addStyle value :=
  (if_neg (by decide)).trans (if_pos rfl)

theorem setAttr_plain (hclass : name ≠ "class") (hstyle : name ≠ "style") (e : Shell)
    (value : String) : e.setAttr name value = e.setPlain name value :=
  (if_neg hclass).trans (if_neg hstyle)

theorem addClass_addStyle (e : Shell) (name text : String) :
    (e.addClass name).addStyle text = (e.addStyle text).addClass name := by
  unfold addClass
  split <;> rfl

theorem addClass_setPlain (e : Shell) (name attr value : String) :
    (e.addClass name).setPlain attr value = (e.setPlain attr value).addClass name := by
  unfold addClass
  split <;> rfl

theorem setPlain_comm (h : name ≠ name') (e : Shell) (value value' : String) :
    ((e.setPlain name value).setPlain name' value').Alike
      ((e.setPlain name' value').setPlain name value) :=
  ⟨rfl, OrderedMap.agree_insert_comm e.attrs h value value', rfl, rfl, rfl⟩

/-- Attributes with different names can be exchanged. -/
theorem setAttr_comm (h : name ≠ name') (e : Shell) (value value' : String) :
    ((e.setAttr name value).setAttr name' value').Alike
      ((e.setAttr name' value').setAttr name value) := by
  -- The class, the style and all other attributes have places of their own.
  have hplaces : ∀ n : String, n = "class" ∨ n = "style" ∨ (n ≠ "class" ∧ n ≠ "style") := by
    intro n
    by_cases hclass : n = "class"
    · exact .inl hclass
    · by_cases hstyle : n = "style"
      · exact .inr (.inl hstyle)
      · exact .inr (.inr ⟨hclass, hstyle⟩)
  rcases hplaces name with rfl | rfl | ⟨hclass, hstyle⟩
  · rcases hplaces name' with rfl | rfl | ⟨hclass', hstyle'⟩
    · exact absurd rfl h
    · simp only [setAttr_class, setAttr_style, addClass_addStyle, Alike.refl]
    · simp only [setAttr_class, setAttr_plain hclass' hstyle', addClass_setPlain, Alike.refl]
  · rcases hplaces name' with rfl | rfl | ⟨hclass', hstyle'⟩
    · simp only [setAttr_class, setAttr_style, addClass_addStyle, Alike.refl]
    · exact absurd rfl h
    · simp only [setAttr_style, setAttr_plain hclass' hstyle']
      exact .refl _
  · rcases hplaces name' with rfl | rfl | ⟨hclass', hstyle'⟩
    · simp only [setAttr_class, setAttr_plain hclass hstyle, addClass_setPlain, Alike.refl]
    · simp only [setAttr_style, setAttr_plain hclass hstyle]
      exact .refl _
    · simp only [setAttr_plain hclass hstyle, setAttr_plain hclass' hstyle']
      exact setPlain_comm h e value value'

end Shell

/-! ### Bound attributes -/

/-- What a bound attribute writes: its value to its target, or its source to the place where it is
    written. -/
def Binding.shown (ambient : Ambient) (scope : Scope) (b : Binding) : String × String :=
  match (b.directive.value? ambient scope).result with
  | some v => (b.target, v.display)
  | none => (b.written, b.directive.source)

/-- Bound attributes that write different attributes, with values or without. -/
structure Binding.Apart (b b' : Binding) : Prop where
  /-- Their targets differ. -/
  targets : b.target ≠ b'.target
  /-- The target of the first is not where the second is written. -/
  target_written : b.target ≠ b'.written
  /-- The target of the second is not where the first is written. -/
  written_target : b.written ≠ b'.target
  /-- They are written in different places. -/
  writtens : b.written ≠ b'.written

theorem Binding.Apart.shown_ne {b b' : Binding} (h : b.Apart b') (ambient : Ambient)
    (scope : Scope) : (b.shown ambient scope).1 ≠ (b'.shown ambient scope).1 := by
  unfold shown
  cases (b.directive.value? ambient scope).result with
  | some v =>
    cases (b'.directive.value? ambient scope).result with
    | some v' => exact h.targets
    | none => exact h.target_written
  | none =>
    cases (b'.directive.value? ambient scope).result with
    | some v' => exact h.written_target
    | none => exact h.writtens

namespace Shell

variable {e e' : Shell} {ambient : Ambient} {scope : Scope} {bs bs' : List Binding}

/-- Bound attributes whose targets have no place of their own are set one after the other. -/
theorem result_bindAll (hplain : ∀ b ∈ bs, b.target ≠ "class" ∧ b.target ≠ "style") :
    (e.bindAll ambient scope bs).result =
      (bs.map (Binding.shown ambient scope)).foldl (fun e a => e.setPlain a.1 a.2) e := by
  induction bs generalizing e with
  | nil => rfl
  | cons b bs ih =>
    obtain ⟨hclass, hstyle⟩ := hplain b List.mem_cons_self
    rw [bindAll, Traced.result_bind, ih fun b' hb' => hplain b' (List.mem_cons_of_mem b hb'),
      List.map_cons, List.foldl_cons, bind, Traced.result_bind, Binding.shown]
    cases (b.directive.value? ambient scope).result with
    | none => rfl
    | some v =>
      show List.foldl _ (e.setAttr b.target v.display) _ = _
      rw [setAttr_plain hclass hstyle]

/-- **Bound attributes** that write different attributes can be evaluated in any order. -/
theorem Alike.bindAll_perm (ambient : Ambient) (scope : Scope) (hbs : bs.Perm bs')
    (hplain : ∀ b ∈ bs, b.target ≠ "class" ∧ b.target ≠ "style")
    (hapart : ∀ b ∈ bs, ∀ b' ∈ bs, b = b' ∨ b.Apart b') (h : e.Alike e') :
    (e.bindAll ambient scope bs).result.Alike (e'.bindAll ambient scope bs').result := by
  have hplain' : ∀ b ∈ bs', b.target ≠ "class" ∧ b.target ≠ "style" :=
    fun b hb => hplain b (hbs.mem_iff.mpr hb)
  rw [result_bindAll hplain, result_bindAll hplain']
  refine foldl_perm (hbs.map _) (fun a _ _ h => h.setPlain a.1 a.2) ?_ h
  intro a ha a' ha' e
  obtain ⟨b, hb, rfl⟩ := List.mem_map.mp ha
  obtain ⟨b', hb', rfl⟩ := List.mem_map.mp ha'
  rcases hapart b hb b' hb' with rfl | hdiffer
  · exact .refl _
  · exact setPlain_comm (hdiffer.shown_ne ambient scope) e _ _

end Shell

/-! ## §3. Plans of the same attributes -/

/-- Plans that differ in the order of what does not depend on it. -/
structure ElementPlan.Rearranged (p p' : ElementPlan) : Prop where
  /-- They have one tag. -/
  tag : p.tag = p'.tag
  /-- They have the same plain attributes. -/
  attrs : p.attrs.Perm p'.attrs
  /-- The names of these are distinct. -/
  names : (p.attrs.map (·.1)).Nodup
  /-- They have the same loop. -/
  loop : p.loop = p'.loop
  /-- They have the same classes. -/
  classes : p.classes = p'.classes
  /-- They have the same style. -/
  style : p.style = p'.style
  /-- They have the same bound attributes. -/
  bindings : p.bindings.Perm p'.bindings
  /-- Their targets have no places of their own. -/
  targets : ∀ b ∈ p.bindings, b.target ≠ "class" ∧ b.target ≠ "style"
  /-- None of them writes what another one does. -/
  apart : ∀ b ∈ p.bindings, ∀ b' ∈ p.bindings, b = b' ∨ b.Apart b'
  /-- They have the same events. -/
  events : p.events = p'.events

/-- **Rearranged plans** expand to elements that are alike. -/
theorem ElementPlan.Rearranged.alike {p p' : ElementPlan} (h : p.Rearranged p') (ambient : Ambient)
    (scope : Scope) : (p.expand ambient scope).result.Alike (p'.expand ambient scope).result := by
  have hattrs : Shell.Alike (p.attrs.foldl (fun e a => e.setAttr a.1 a.2) { tag := p.tag })
      (p'.attrs.foldl (fun e a => e.setAttr a.1 a.2) { tag := p'.tag }) := by
    rw [← h.tag]
    refine Shell.Alike.foldl_perm h.attrs (fun a _ _ h => h.setAttr a.1 a.2) ?_ (.refl _)
    intro a ha a' ha' e
    by_cases hname : a.1 = a'.1
    · rw [List.inj_on_of_nodup_map h.names ha ha' hname]
      exact .refl _
    · exact Shell.setAttr_comm hname e a.2 a'.2
  have hbound := hattrs.bindAll_perm ambient scope h.bindings h.targets h.apart
  have hclasses := hbound.bindOption hbound.addClasses ambient scope p.classes
  have hstyle := hclasses.bindOption hclasses.addStyles ambient scope p.style
  have hevents := hstyle.listenAll ambient scope p.events
  rw [expand, expand, ← h.classes, ← h.style, ← h.events]
  exact hevents

/-! ### Attributes with distinct names -/

/-- Where only one element of a list counts, the order does not. -/
theorem filterMap_eq_of_perm {α β : Type} {f : α → Option β} {l l' : List α} (h : l.Perm l')
    (hone : ∀ a ∈ l, ∀ b ∈ l, (f a).isSome → (f b).isSome → a = b) :
    l.filterMap f = l'.filterMap f := by
  induction h with
  | nil => rfl
  | cons a _ ih =>
    have hrest := ih fun b hb c hc =>
      hone b (List.mem_cons_of_mem a hb) c (List.mem_cons_of_mem a hc)
    rw [List.filterMap_cons, List.filterMap_cons, hrest]
  | swap a b l =>
    have hab := hone a (List.mem_cons_of_mem b List.mem_cons_self) b List.mem_cons_self
    simp only [List.filterMap_cons]
    cases ha : f a with
    | none => rfl
    | some x =>
      cases hb : f b with
      | none => rfl
      | some y =>
        obtain rfl := hab (ha ▸ rfl) (hb ▸ rfl)
        rw [ha] at hb
        rw [Option.some.inj hb]
  | trans hl _ ih ih' =>
    exact (ih hone).trans
      (ih' fun a ha b hb => hone a (hl.mem_iff.mpr ha) b (hl.mem_iff.mpr hb))

/-- What comes of attributes with one name does not depend on their order. -/
theorem filterMap_eq_of_name {β : Type} {f : String × String → Option β} {name : String}
    (hperm : attrs.Perm attrs') (hnames : (attrs.map (·.1)).Nodup)
    (hf : ∀ a, (f a).isSome → a.1 = name) : attrs.filterMap f = attrs'.filterMap f := by
  refine filterMap_eq_of_perm hperm ?_
  intro a ha b hb hsome hsome'
  exact List.inj_on_of_nodup_map hnames ha hb ((hf a hsome).trans (hf b hsome').symm)

/-- **Plans of the same attributes** in another order are rearranged. -/
theorem ElementPlan.rearranged_collect (hperm : attrs.Perm attrs')
    (hnames : (attrs.map (·.1)).Nodup)
    (htwice : ∀ a ∈ attrs, ¬ (s.marker ++ s.marker).toList <+: a.1.toList)
    (hevent : ∀ a ∈ attrs, ∀ event, s.role a.1 ≠ .event event) :
    (collect s { tag := tag } attrs).Rearranged (collect s { tag := tag } attrs') where
  tag := rfl
  attrs := hperm.filter _
  names := hnames.sublist (List.filter_sublist.map _)
  loop := congrArg (·.getLast?.or none)
    (filterMap_eq_of_name hperm hnames fun _ => name_of_loopOf?)
  classes := congrArg (·.getLast?.or none)
    (filterMap_eq_of_name hperm hnames fun _ => names_of_bindingOf? AttrRole.eq_classes)
  style := congrArg (·.getLast?.or none)
    (filterMap_eq_of_name hperm hnames fun _ => names_of_bindingOf? AttrRole.eq_style)
  bindings := hperm.filterMap _
  targets b hb := by
    obtain ⟨a, -, hab⟩ := List.mem_filterMap.mp hb
    exact (binding_of_value? hab).2.2
  apart b hb b' hb' := by
    obtain ⟨a, ha, hab⟩ := List.mem_filterMap.mp hb
    obtain ⟨a', ha', hab'⟩ := List.mem_filterMap.mp hb'
    obtain ⟨hwritten, hname, -⟩ := binding_of_value? hab
    obtain ⟨hwritten', hname', -⟩ := binding_of_value? hab'
    by_cases heq : a.1 = a'.1
    · obtain rfl := List.inj_on_of_nodup_map hnames ha ha' heq
      exact .inl (Option.some.inj (hab.symm.trans hab'))
    · -- A target that is written elsewhere would be written with the prefix twice.
      have hnested : ∀ {x y : String × String} {target target' : String}, x ∈ attrs →
          x.1 = s.marker ++ target → y.1 = s.marker ++ target' → target ≠ y.1 := by
        intro x y target target' hx htarget htarget' heq
        refine htwice x hx ⟨target'.toList, ?_⟩
        rw [htarget, heq, htarget', ← String.toList_append, String.append_assoc]
      refine .inr ⟨?_, ?_, ?_, ?_⟩
      · intro htarget
        exact heq (by rw [hname, hname', htarget])
      · rw [hwritten']
        exact hnested ha hname hname'
      · rw [hwritten]
        exact (hnested ha' hname' hname).symm
      · rw [hwritten, hwritten']
        exact heq
  events := by
    have hnone : ∀ a ∈ attrs, bindingOf? s AttrRole.event? a = none := by
      intro a ha
      unfold bindingOf?
      cases hrole : s.role a.1 with
      | event name => exact absurd hrole (hevent a ha name)
      | _ => rfl
    show attrs.filterMap _ = attrs'.filterMap _
    rw [List.filterMap_eq_nil_iff.mpr hnone,
      List.filterMap_eq_nil_iff.mpr fun a ha => hnone a (hperm.mem_iff.mpr ha)]

/-! ## §4. Elements of the same attributes -/

/-- Elements that are alike, with the same children. -/
def VNode.Alike (n n' : VNode) : Prop :=
  ∃ e e' cs, n = .element e cs ∧ n' = .element e' cs ∧ e.Alike e'

theorem VNode.sameAll_of_alike {ns ns' : List VNode} (h : List.Forall₂ Alike ns ns') :
    sameAll ns ns' = true := by
  induction h with
  | nil => rfl
  | cons hn _ ih =>
    obtain ⟨e, e', cs, rfl, rfl, halike⟩ := hn
    rw [sameAll, same, halike.same, sameAll_self cs, ih]
    rfl

theorem attrLoopTexts_eq_of_perm (hperm : attrs.Perm attrs') (hnames : (attrs.map (·.1)).Nodup) :
    attrLoopTexts s attrs = attrLoopTexts s attrs' := by
  have hname : ∀ a : String × String,
      (Option.guard (fun a => decide (s.marker ≠ "" ∧ a.1 = s.marker ++ "for")) a).isSome →
        a.1 = s.marker ++ "for" := by
    intro a ha
    rw [Option.isSome_guard, decide_eq_true_iff] at ha
    exact ha.2
  rw [attrLoopTexts, attrLoopTexts, ← List.filterMap_eq_filter]
  exact congrArg _ (filterMap_eq_of_name hperm hnames hname)

/-- **The order of attributes does not matter.** Two elements have the same attributes in different
    order. Their names are distinct, none names an event and none begins with the prefix twice. If
    one of the elements fails to compile, so does the other, for the same reason. If they compile,
    then in every scope, and whatever the helpers are, they stand for equally many elements,
    which are alike one by one and have the same children. So the two are equal as virtual
    nodes. -/
theorem attributes_in_any_order (hperm : attrs.Perm attrs') (hnames : (attrs.map (·.1)).Nodup)
    (htwice : ∀ a ∈ attrs, ¬ (s.marker ++ s.marker).toList <+: a.1.toList)
    (hevent : ∀ a ∈ attrs, ∀ event, s.role a.1 ≠ .event event) :
    (∀ e, (compileNode s (.element tag attrs children)).run.result = .error e ↔
      (compileNode s (.element tag attrs' children)).run.result = .error e) ∧
      ∀ c, (compileNode s (.element tag attrs children)).run.result = .ok c →
        ∃ c', (compileNode s (.element tag attrs' children)).run.result = .ok c' ∧
          ∀ (ambient : Ambient) (scope : Scope),
            List.Forall₂ VNode.Alike (c.expand ambient scope).result
                (c'.expand ambient scope).result ∧
              VNode.sameAll (c.expand ambient scope).result (c'.expand ambient scope).result =
                true := by
  have houtcome : (compileNode s (.element tag attrs children)).outcome =
      (compileNode s (.element tag attrs' children)).outcome := by
    rw [outcome_compileNode, outcome_compileNode, MarkupNode.loopTexts, MarkupNode.loopTexts,
      attrLoopTexts_eq_of_perm hperm hnames]
  refine ⟨?_, ?_⟩
  · intro e
    rw [← Compilation.outcome_eq_error_iff, houtcome, Compilation.outcome_eq_error_iff]
  · intro c hc
    rw [compileNode] at hc
    obtain ⟨plan, hplan, hc⟩ := Compilation.bind_ok hc
    obtain ⟨cs, hcs, hc⟩ := Compilation.bind_ok hc
    obtain rfl := Except.ok.inj hc
    -- The attributes compile in the other order as well.
    have hattrs : (ElementPlan.addAttrs s { tag := tag } attrs').outcome = .ok () := by
      rw [ElementPlan.outcome_addAttrs, ← attrLoopTexts_eq_of_perm hperm hnames,
        ← ElementPlan.outcome_addAttrs { tag := tag }]
      exact Compilation.outcome_eq_ok_iff.mpr ⟨plan, hplan⟩
    obtain ⟨plan', hplan'⟩ := Compilation.outcome_eq_ok_iff.mp hattrs
    refine ⟨_, compileNode_element hplan' hcs, ?_⟩
    have hplans : plan.Rearranged plan' := by
      rw [ElementPlan.addAttrs_eq_collect hplan, ElementPlan.addAttrs_eq_collect hplan']
      exact ElementPlan.rearranged_collect hperm hnames htwice hevent
    intro ambient scope
    have halike : List.Forall₂ VNode.Alike
        ((Compiled.element plan cs).expand ambient scope).result
        ((Compiled.element plan' cs).expand ambient scope).result := by
      rw [Compiled.result_expand_element, Compiled.result_expand_element, ElementPlan.scopes,
        ElementPlan.scopes, ← hplans.loop]
      refine List.forall₂_map_left_iff.mpr (List.forall₂_map_right_iff.mpr ?_)
      exact List.forall₂_same.mpr fun inner _ => ⟨_, _, _, rfl, rfl, hplans.alike ambient inner⟩
    exact ⟨halike, VNode.sameAll_of_alike halike⟩

/-- The attributes of an item in a list. Both the value and the text are a title, and the classes
    have no value. -/
def itemAttrs : List (String × String) :=
  [("dr:for", "x in xs"), ("dr:title", "x"), ("title", "t"), ("dr:class", "y"), ("class", "a")]

/-- The items of a list with two entries, their attributes forwards and backwards. -/
theorem attributes_in_any_order_item :
    itemAttrs.Perm itemAttrs.reverse ∧ (itemAttrs.map (·.1)).Nodup ∧
      (∀ a ∈ itemAttrs, ¬ (({} : TemplateSyntax).marker ++ ({} : TemplateSyntax).marker).toList <+:
        a.1.toList) ∧
      (∀ a ∈ itemAttrs, ∀ event, ({} : TemplateSyntax).role a.1 ≠ .event event) ∧
      ∃ c c', (compileNode {} (.element "li" itemAttrs [])).run.result = .ok c ∧
        (compileNode {} (.element "li" itemAttrs.reverse [])).run.result = .ok c' ∧
        let scope : Scope := Scope.empty.child [("xs", .arr [.str "u", .str "v"])]
        (c.expand .empty scope).result.length = 2 ∧
          List.Forall₂ VNode.Alike (c.expand .empty scope).result
            (c'.expand .empty scope).result := by
  have hperm : itemAttrs.Perm itemAttrs.reverse := (List.reverse_perm _).symm
  have hnames : (itemAttrs.map (·.1)).Nodup := by decide
  have htwice : ∀ a ∈ itemAttrs,
      ¬ (({} : TemplateSyntax).marker ++ ({} : TemplateSyntax).marker).toList <+: a.1.toList := by
    decide +kernel
  have hroles : ∀ a ∈ itemAttrs, (({} : TemplateSyntax).role a.1).event? = none := by
    decide +kernel
  have hevent : ∀ a ∈ itemAttrs, ∀ event, ({} : TemplateSyntax).role a.1 ≠ .event event := by
    intro a ha event hrole
    have hnone := hroles a ha
    rw [hrole] at hnone
    cases hnone
  obtain ⟨-, hall⟩ := @attributes_in_any_order {} "li" _ _ [] hperm hnames htwice hevent
  have hcompiled : (compileNode {} (.element "li" itemAttrs [])).run.result.toOption.map
      (fun c => (c.expand .empty
        (Scope.empty.child [("xs", .arr [.str "u", .str "v"])])).result.length) = some 2 := by
    decide +kernel
  obtain ⟨c, hc, hlength⟩ := Option.map_eq_some_iff.mp hcompiled
  have hc := toOption_eq_some_iff.mp hc
  obtain ⟨c', hc', halike⟩ := hall c hc
  exact ⟨hperm, hnames, htwice, hevent, c, c', hc, hc', hlength, (halike .empty _).1⟩

end ReactiveView
