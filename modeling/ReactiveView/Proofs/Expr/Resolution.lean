import ReactiveView.Proofs.Expr.Names
import ReactiveView.Template.Expand

/-! # Names that have no meaning

  An expression can use a name in two ways: it reads its value, or it calls it.
  A value comes from the scope or from the constants; a call also knows the
  helpers. An evaluation that gives up on a name does so where the name stands
  free and has no meaning for that use.

  The check before a handler is attached does not tell the two uses apart: it
  accepts a name that has a meaning as something to call. So it misses one case,
  a helper whose value is read, and only this one.

  * `Uses`: a name stands free in an expression, in one of the two uses.
  * `Unknown`: a name has no meaning for a use.
  * `culprit_of_eval`: a failed evaluation names a culprit.
  * `blames_free_name`: it is a free name that nothing binds.
  * `unresolved_after_check`: what may still be unresolved after the check.
-/

namespace ReactiveView

/-! ## §1. How an evaluation ends -/

namespace Eval

variable {α β : Type}

/-- How an evaluation ends, without the events on the way. -/
def outcome (x : Eval α) : Except EvalError α := (ExceptT.run x).result

@[simp] theorem outcome_pure (a : α) : outcome (pure a) = .ok a := rfl

@[simp] theorem outcome_throw (c : EvalError) : outcome (throw c : Eval α) = .error c := rfl

@[simp] theorem outcome_ofExcept (r : Except EvalError α) : outcome (ofExcept r) = r := rfl

@[simp] theorem outcome_lift (t : Traced α) : outcome (ExceptT.lift t) = .ok t.result := rfl

theorem outcome_bind (x : Eval α) (f : α → Eval β) :
    outcome (x >>= f) = x.outcome.bind fun a => (f a).outcome := by
  show (ExceptT.bindCont f (ExceptT.run x).result).result = _
  unfold outcome
  cases (ExceptT.run x).result with
  | ok a => rfl
  | error c => rfl

/-- A sequence fails in its first part or, after it, in its second. -/
theorem outcome_bind_eq_error {x : Eval α} {f : α → Eval β} {c : EvalError}
    (h : outcome (x >>= f) = .error c) :
    x.outcome = .error c ∨ ∃ a, (f a).outcome = .error c := by
  rw [outcome_bind] at h
  cases hx : x.outcome with
  | error c' =>
    rw [hx] at h
    cases h
    exact .inl rfl
  | ok a =>
    rw [hx] at h
    exact .inr ⟨a, h⟩

/-- What is done to a result cannot fail. -/
theorem outcome_map_eq_error {x : Eval α} {f : α → β} {c : EvalError}
    (h : outcome (x >>= fun a => pure (f a)) = .error c) : x.outcome = .error c := by
  rcases outcome_bind_eq_error h with h | ⟨a, h⟩
  · exact h
  · rw [outcome_pure] at h
    cases h

end Eval

/-! ## §2. Uses of a name -/

/-- How an expression uses a name. -/
inductive Use where
  /-- Its value is read. -/
  | read
  /-- It is called. -/
  | called

/-- A name has no meaning for a use: neither the scope nor the constants give it a value and, if it
    is to be called, there is no helper of this name. -/
def Unknown (ambient : Ambient) (s : Scope) : Use → String → Prop
  | .read, n => s.lookup n = none ∧ ambient.constant? n = none
  | .called, n => s.lookup n = none ∧ ambient.constant? n = none ∧ ambient.helper? n = none

namespace Expr

/-- A name stands free where an evaluation may come to use it. What is written in the place of a
    callee and is neither a name nor a function is never evaluated. -/
inductive Uses : Use → String → Expr → Prop where
  /-- A name by itself is read. -/
  | ident {n} : Uses .read n (ident n)
  /-- A name in front of arguments is called. -/
  | callee {n args} : Uses .called n (call (ident n) args)
  /-- In an item of a list. -/
  | item {k n e items} : e ∈ items → Uses k n e → Uses k n (array items)
  /-- In a field of an object. -/
  | field {k n e key fields} : (key, e) ∈ fields → Uses k n e → Uses k n (object fields)
  /-- In what a member is taken of. -/
  | owner {k n target property} : Uses k n target → Uses k n (member target property)
  /-- In what is indexed. -/
  | target {k n target position} : Uses k n target → Uses k n (index target position)
  /-- In an index. -/
  | position {k n target position} : Uses k n position → Uses k n (index target position)
  /-- In an argument. -/
  | argument {k n e callee args} : e ∈ args → Uses k n e → Uses k n (call callee args)
  /-- In a function that is called where it is written. -/
  | applied {k n params body args} :
    Uses k n (lambda params body) → Uses k n (call (lambda params body) args)
  /-- In an operand. -/
  | operand {k n op operand} : Uses k n operand → Uses k n (unary op operand)
  /-- In the left operand. -/
  | left {k n op left right} : Uses k n left → Uses k n (binary op left right)
  /-- In the right operand. -/
  | right {k n op left right} : Uses k n right → Uses k n (binary op left right)
  /-- In a condition. -/
  | test {k n test consequent alternate} : Uses k n test → Uses k n (cond test consequent alternate)
  /-- In the choice for a true condition. -/
  | consequent {k n test consequent alternate} :
    Uses k n consequent → Uses k n (cond test consequent alternate)
  /-- In the choice for a false condition. -/
  | alternate {k n test consequent alternate} :
    Uses k n alternate → Uses k n (cond test consequent alternate)
  /-- In the body of a function that has no parameter of this name. -/
  | body {k n params body} : n ∉ params → Uses k n body → Uses k n (lambda params body)
  /-- In a statement. -/
  | statement {k n e statements} : e ∈ statements → Uses k n e → Uses k n (block statements)

variable {n : String}

theorem mem_freeInAll {e : Expr} {es : List Expr} (he : e ∈ es) (hn : n ∈ freeOccurrences [] e) :
    n ∈ freeInAll [] es := by
  induction es with
  | nil => cases he
  | cons e' es ih =>
    rw [freeInAll, List.mem_append]
    rcases List.mem_cons.mp he with rfl | he
    · exact .inl hn
    · exact .inr (ih he)

theorem mem_freeInFields {key : String} {e : Expr} {fs : List (String × Expr)}
    (he : (key, e) ∈ fs) (hn : n ∈ freeOccurrences [] e) : n ∈ freeInFields [] fs := by
  induction fs with
  | nil => cases he
  | cons f fs ih =>
    rw [freeInFields, List.mem_append]
    rcases List.mem_cons.mp he with rfl | he
    · exact .inl hn
    · exact .inr (ih he)

/-- What is used stands free. -/
theorem Uses.mem_freeOccurrences {k : Use} {e : Expr} (h : Uses k n e) :
    n ∈ freeOccurrences [] e := by
  induction h with
  | ident => simp [freeOccurrences]
  | callee => simp [freeOccurrences]
  | item he _ ih =>
    rw [freeOccurrences]
    exact mem_freeInAll he ih
  | field he _ ih =>
    rw [freeOccurrences]
    exact mem_freeInFields he ih
  | owner _ ih =>
    rw [freeOccurrences]
    exact ih
  | target _ ih => simp [freeOccurrences, ih]
  | position _ ih => simp [freeOccurrences, ih]
  | argument he _ ih =>
    rw [freeOccurrences, List.mem_append]
    exact .inr (mem_freeInAll he ih)
  | applied _ ih =>
    rw [freeOccurrences, List.mem_append]
    exact .inl ih
  | operand _ ih =>
    rw [freeOccurrences]
    exact ih
  | left _ ih => simp [freeOccurrences, ih]
  | right _ ih => simp [freeOccurrences, ih]
  | test _ ih => simp [freeOccurrences, ih]
  | consequent _ ih => simp [freeOccurrences, ih]
  | alternate _ ih => simp [freeOccurrences, ih]
  | body hn _ ih => exact mem_freeOccurrences_lambda_iff.mpr ⟨ih, hn⟩
  | statement he _ ih =>
    rw [freeOccurrences]
    exact mem_freeInAll he ih

end Expr

/-! ## §3. The culprit of a failed evaluation -/

section Culprit

variable {ambient : Ambient} {s : Scope} {n : String}

theorem unknown_read_of_resolve {name : String}
    (h : resolve ambient s name = .error (.unresolved n)) :
    name = n ∧ Unknown ambient s .read n := by
  unfold resolve at h
  split at h
  · cases h
  · next hnone =>
    cases h
    exact ⟨rfl, Option.or_eq_none_iff.mp hnone⟩

theorem unknown_called_of_resolveHelper {name : String}
    (h : resolveHelper ambient s name = .error (.unresolved n)) :
    name = n ∧ Unknown ambient s .called n := by
  unfold resolveHelper at h
  split at h
  · cases h
  · next hhelper =>
    split at h
    · cases h
    · next hvalue =>
      cases h
      rw [Bool.or_eq_true, not_or] at hvalue
      rw [Option.not_isSome_iff_eq_none, Option.not_isSome_iff_eq_none] at hvalue
      exact ⟨rfl, hvalue.1, hvalue.2, hhelper⟩

/-- A parameter always has a value, and so the culprit in a function is a name from around it. -/
theorem Unknown.of_child {k : Use} {params : List String} {args : List Value}
    (h : Unknown ambient (s.child (bindParams params args)) k n) :
    n ∉ params ∧ Unknown ambient s k n := by
  have hlookup : (s.child (bindParams params args)).lookup n = none := by
    cases k with
    | read => exact h.1
    | called => exact h.1
  rw [Scope.lookup_child, Option.or_eq_none_iff] at hlookup
  refine ⟨?_, ?_⟩
  · intro hn
    rw [← keys_bindParams params args] at hn
    obtain ⟨v, hv⟩ := Entries.exists_lookup_reverse hn
    rw [hlookup.1] at hv
    cases hv
  · cases k with
    | read => exact ⟨hlookup.2, h.2⟩
    | called => exact ⟨hlookup.2, h.2⟩

namespace Expr

/-- Some use of a name in an expression has no meaning. -/
def Culprit (ambient : Ambient) (s : Scope) (n : String) (e : Expr) : Prop :=
  ∃ k, Uses k n e ∧ Unknown ambient s k n

theorem Culprit.imp {e e' : Expr} (h : Culprit ambient s n e)
    (hsub : ∀ k, Uses k n e → Uses k n e') :
    Culprit ambient s n e' := by
  obtain ⟨k, huse, hunknown⟩ := h
  exact ⟨k, hsub k huse, hunknown⟩

/-- The culprit in a called function is one from around it. -/
theorem Culprit.of_body {params : List String} {body : Expr} {args : List Value}
    (h : Culprit ambient (s.child (bindParams params args)) n body) :
    Culprit ambient s n (lambda params body) := by
  obtain ⟨k, huse, hunknown⟩ := h
  obtain ⟨hparam, hunknown⟩ := hunknown.of_child
  exact ⟨k, .body hparam huse, hunknown⟩

mutual

/-- An evaluation that ends on an unresolved name has come to a use of it without meaning. -/
theorem culprit_of_eval {s : Scope} (e : Expr)
    (h : (e.eval ambient s).outcome = .error (.unresolved n)) : Culprit ambient s n e := by
  match e with
  | lit v =>
    rw [eval, Eval.outcome_pure] at h
    cases h
  | ident name =>
    rw [eval, Eval.outcome_ofExcept] at h
    obtain ⟨rfl, hunknown⟩ := unknown_read_of_resolve h
    exact ⟨.read, .ident, hunknown⟩
  | array items =>
    rw [eval] at h
    obtain ⟨e, he, hc⟩ := culprit_of_evalAll items (Eval.outcome_map_eq_error h)
    exact hc.imp fun _ => .item he
  | object fields =>
    rw [eval] at h
    obtain ⟨key, e, he, hc⟩ := culprit_of_evalFields fields (Eval.outcome_map_eq_error h)
    exact hc.imp fun _ => .field he
  | member target property =>
    rw [eval] at h
    exact (culprit_of_eval target (Eval.outcome_map_eq_error h)).imp fun _ => .owner
  | index target position =>
    rw [eval] at h
    rcases Eval.outcome_bind_eq_error h with h | ⟨v, h⟩
    · exact (culprit_of_eval target h).imp fun _ => .target
    · exact (culprit_of_eval position (Eval.outcome_map_eq_error h)).imp fun _ => .position
  | call callee args =>
    match callee with
    | ident name =>
      rw [eval] at h
      rcases Eval.outcome_bind_eq_error h with h | ⟨helper, h⟩
      · rw [Eval.outcome_ofExcept] at h
        obtain ⟨rfl, hunknown⟩ := unknown_called_of_resolveHelper h
        exact ⟨.called, .callee, hunknown⟩
      rcases Eval.outcome_bind_eq_error h with h | ⟨values, h⟩
      · obtain ⟨e, he, hc⟩ := culprit_of_evalAll args h
        exact hc.imp fun _ => .argument he
      · rw [Eval.outcome_lift] at h
        cases h
    | lambda params body =>
      rw [eval] at h
      rcases Eval.outcome_bind_eq_error h with h | ⟨values, h⟩
      · obtain ⟨e, he, hc⟩ := culprit_of_evalAll args h
        exact hc.imp fun _ => .argument he
      · exact (culprit_of_eval body h).of_body.imp fun _ => .applied
    | lit _ | array _ | object _ | member _ _ | index _ _ | call _ _ | unary _ _ | binary _ _ _
    | cond _ _ _ | block _ =>
      -- Nothing else can be called, and the failure says so.
      rw [eval, Eval.outcome_throw] at h
      · cases h
      all_goals intros; contradiction
  | unary op operand =>
    rw [eval] at h
    exact (culprit_of_eval operand (Eval.outcome_map_eq_error h)).imp fun _ => .operand
  | binary op left right =>
    rw [eval] at h
    rcases Eval.outcome_bind_eq_error h with h | ⟨v, h⟩
    · exact (culprit_of_eval left h).imp fun _ => .left
    · split at h
      · rw [Eval.outcome_pure] at h
        cases h
      · exact (culprit_of_eval right (Eval.outcome_map_eq_error h)).imp fun _ => .right
  | cond test consequent alternate =>
    rw [eval] at h
    rcases Eval.outcome_bind_eq_error h with h | ⟨v, h⟩
    · exact (culprit_of_eval test h).imp fun _ => .test
    · split at h
      · exact (culprit_of_eval consequent h).imp fun _ => .consequent
      · exact (culprit_of_eval alternate h).imp fun _ => .alternate
  | lambda params body =>
    rw [eval, Eval.outcome_throw] at h
    cases h
  | block statements =>
    rw [eval] at h
    obtain ⟨e, he, hc⟩ := culprit_of_evalAll statements (Eval.outcome_map_eq_error h)
    exact hc.imp fun _ => .statement he

/-- The same of expressions in order. -/
theorem culprit_of_evalAll {s : Scope} (es : List Expr)
    (h : (evalAll ambient s es).outcome = .error (.unresolved n)) :
    ∃ e ∈ es, Culprit ambient s n e := by
  match es with
  | [] =>
    rw [evalAll, Eval.outcome_pure] at h
    cases h
  | e :: es =>
    rw [evalAll] at h
    rcases Eval.outcome_bind_eq_error h with h | ⟨v, h⟩
    · exact ⟨e, List.mem_cons_self, culprit_of_eval e h⟩
    · obtain ⟨e', he', hc⟩ := culprit_of_evalAll es (Eval.outcome_map_eq_error h)
      exact ⟨e', List.mem_cons_of_mem e he', hc⟩

/-- The same of the fields of an object. -/
theorem culprit_of_evalFields {s : Scope} (fs : List (String × Expr))
    (h : (evalFields ambient s fs).outcome = .error (.unresolved n)) :
    ∃ key e, (key, e) ∈ fs ∧ Culprit ambient s n e := by
  match fs with
  | [] =>
    rw [evalFields, Eval.outcome_pure] at h
    cases h
  | (key, e) :: fs =>
    rw [evalFields] at h
    rcases Eval.outcome_bind_eq_error h with h | ⟨v, h⟩
    · exact ⟨key, e, List.mem_cons_self, culprit_of_eval e h⟩
    · obtain ⟨key', e', he', hc⟩ := culprit_of_evalFields fs (Eval.outcome_map_eq_error h)
      exact ⟨key', e', List.mem_cons_of_mem _ he', hc⟩

end

end Expr

/-! ## §4. The name that is blamed -/

theorem Unknown.unbound {k : Use} (h : Unknown ambient s k n) :
    s.lookup n = none ∧ ambient.constant? n = none := by
  cases k with
  | read => exact h
  | called => exact ⟨h.1, h.2.1⟩

namespace Expr

/-- An expression gives up on a name: when it is evaluated, when it is a function and applied to
    any arguments, or when it answers an event with any payload. -/
inductive GivesUpOn (ambient : Ambient) (s : Scope) (n : String) (e : Expr) : Prop where
  /-- When it is evaluated. -/
  | evaluated (h : (e.eval ambient s).outcome = .error (.unresolved n))
  /-- When it is applied. -/
  | applied {params : List String} {body : Expr} (args : List Value) (he : e = lambda params body)
    (h : (apply ambient s params body args).outcome = .error (.unresolved n))
  /-- When it answers an event. -/
  | dispatched (payload : Value)
    (h : (respondWith ambient s e payload).outcome = .error (.unresolved n))

/-- An answer to an event is an evaluation or an application. -/
theorem culprit_of_respondWith {e : Expr} {payload : Value}
    (h : (respondWith ambient s e payload).outcome = .error (.unresolved n)) :
    Culprit ambient s n e := by
  unfold respondWith at h
  split at h
  · exact (culprit_of_eval _ h).of_body
  · split at h
    · rw [Eval.outcome_lift] at h
      cases h
    · exact culprit_of_eval _ h
  · exact culprit_of_eval _ h

theorem GivesUpOn.culprit {e : Expr} (h : e.GivesUpOn ambient s n) : Culprit ambient s n e := by
  cases h with
  | evaluated h => exact culprit_of_eval e h
  | applied args he h =>
    subst he
    exact (culprit_of_eval _ h).of_body
  | dispatched payload h => exact culprit_of_respondWith h

/-- **The right name is blamed.** When an expression gives up on a name, however deep in functions
    that are called on the way, this name stands free in the expression itself, and neither the
    scope nor the constants of the ambient bind it. So an expression whose free names all have a
    value never gives up on a name. -/
theorem blames_free_name (ambient : Ambient) (s : Scope) (e : Expr) :
    (∀ n, e.GivesUpOn ambient s n →
      n ∈ e.freeNames ∧ s.lookup n = none ∧ ambient.constant? n = none) ∧
    ((∀ n ∈ e.freeNames, (s.lookup n).isSome ∨ (ambient.constant? n).isSome) →
      ∀ n, ¬ e.GivesUpOn ambient s n) := by
  have hblamed : ∀ n, e.GivesUpOn ambient s n →
      n ∈ e.freeNames ∧ s.lookup n = none ∧ ambient.constant? n = none := by
    intro n hgives
    obtain ⟨k, huse, hunknown⟩ := hgives.culprit
    exact ⟨mem_freeNames_iff.mpr huse.mem_freeOccurrences, hunknown.unbound⟩
  refine ⟨hblamed, ?_⟩
  intro hbound n hgives
  obtain ⟨hfree, hscope, hconstant⟩ := hblamed n hgives
  rcases hbound n hfree with h | h
  · rw [hscope] at h
    cases h
  · rw [hconstant] at h
    cases h

/-- `x => (y => [y, z])(x)`: the name `z` is read two functions deep. -/
def readsDeep : Expr :=
  lambda ["x"] (call (lambda ["y"] (array [ident "y", ident "z"])) [ident "x"])

/-- Without a binding of `z` it is blamed, and not the `x` and `y` that only the functions know. As
    a constant of the ambient it has a value, and no name is blamed. -/
theorem blames_free_name_deep :
    let ambient := Ambient.empty.withConstant "z" (.bool true)
    readsDeep.GivesUpOn Ambient.empty Scope.empty "z" ∧
      "z" ∈ readsDeep.freeNames ∧ Scope.empty.lookup "z" = none ∧
      Ambient.empty.constant? "z" = none ∧
      (∀ n ∈ readsDeep.freeNames,
        (Scope.empty.lookup n).isSome ∨ (ambient.constant? n).isSome) ∧
      ∀ n, ¬ readsDeep.GivesUpOn ambient Scope.empty n := by
  intro ambient
  have hgives : readsDeep.GivesUpOn Ambient.empty Scope.empty "z" := .applied [.null] rfl rfl
  obtain ⟨hfree, hscope, hconstant⟩ :=
    (blames_free_name Ambient.empty Scope.empty readsDeep).1 "z" hgives
  have hbound : ∀ n ∈ readsDeep.freeNames,
      (Scope.empty.lookup n).isSome ∨ (ambient.constant? n).isSome := by
    intro n hn
    obtain rfl : n = "z" := List.mem_singleton.mp hn
    exact .inr rfl
  exact ⟨hgives, hfree, hscope, hconstant, hbound,
    (blames_free_name ambient Scope.empty readsDeep).2 hbound⟩

end Expr

/-! ## §5. After the check -/

namespace Expr

/-- The check lets an expression pass when each of its free names could be called. -/
theorem checkResolved_eq_ok_iff (e : Expr) :
    e.checkResolved ambient s = .ok () ↔ ∀ n ∈ e.freeNames, ¬ Unknown ambient s .called n := by
  have hname : ∀ n, ((s.lookup n).isNone && !ambient.contains n) = true ↔
      Unknown ambient s .called n := by
    intro n
    simp [Unknown, Ambient.contains, Ambient.constant?, Ambient.helper?, OrderedMap.contains]
  unfold checkResolved
  constructor
  · intro h n hn hunknown
    split at h
    · cases h
    · next hfind => exact List.find?_eq_none.mp hfind n hn ((hname n).mpr hunknown)
  · intro h
    have hfind :
        e.freeNames.find? (fun n => (s.lookup n).isNone && !ambient.contains n) = none := by
      rw [List.find?_eq_none]
      intro n hn hunknown
      exact h n hn ((hname n).mp hunknown)
    rw [hfind]

/-- A name that is known as something to call passes the check, by itself and in a function. -/
theorem checkResolved_ident (h : ¬ Unknown ambient s .called n) :
    (ident n).checkResolved ambient s = .ok () ∧
      (lambda [] (ident n)).checkResolved ambient s = .ok () := by
  have hfree : ∀ m, m ∈ freeOccurrences [] (ident n) → m = n := by
    intro m hm
    simpa [freeOccurrences] using hm
  refine ⟨?_, ?_⟩
  · rw [checkResolved_eq_ok_iff]
    intro m hm
    obtain rfl := hfree m (mem_freeNames_iff.mp hm)
    exact h
  · rw [checkResolved_eq_ok_iff]
    intro m hm
    obtain rfl := hfree m (mem_freeOccurrences_lambda_iff.mp (mem_freeNames_iff.mp hm)).1
    exact h

theorem eval_ident_eq_error (h : Unknown ambient s .read n) :
    ((ident n).eval ambient s).run = ⟨.error (.unresolved n), []⟩ := by
  obtain ⟨hscope, hconstant⟩ := h
  rw [eval, resolve, hscope, hconstant]
  rfl

/-- **What the check misses.** An expression that passes it, be it evaluated, applied or attached to
    an event, gives up on a name only by reading the value of a helper, of a name that is neither
    bound in the scope nor a constant. And every such helper is missed: its name passes and has no
    value, and a function that reads it becomes a handler, which then fails on every payload. -/
theorem unresolved_after_check (ambient : Ambient) (s : Scope) :
    (∀ e, e.checkResolved ambient s = .ok () → ∀ n, e.GivesUpOn ambient s n →
      Uses .read n e ∧ Unknown ambient s .read n ∧ (ambient.helper? n).isSome) ∧
    ∀ n, Unknown ambient s .read n → (ambient.helper? n).isSome →
      ((ident n).checkResolved ambient s = .ok () ∧ (ident n).GivesUpOn ambient s n) ∧
      ∀ source, ∃ handler,
        (Directive.handler? ambient s ⟨source, some (lambda [] (ident n))⟩).result = some handler ∧
        ∀ payload,
          handler.respond payload = [.noticed (.handlerFailed source (.unresolved n))] := by
  refine ⟨?_, ?_⟩
  · intro e hcheck n hgives
    have hcallable := (checkResolved_eq_ok_iff e).mp hcheck
    obtain ⟨k, huse, hunknown⟩ := hgives.culprit
    have hknown := hcallable n (mem_freeNames_iff.mpr huse.mem_freeOccurrences)
    cases k with
    | called => exact absurd hunknown hknown
    | read =>
      refine ⟨huse, hunknown, ?_⟩
      rw [← Option.ne_none_iff_isSome]
      intro hhelper
      exact hknown ⟨hunknown.1, hunknown.2, hhelper⟩
  · intro n hunknown hhelper
    have hcallable : ¬ Unknown ambient s .called n := by
      rintro ⟨-, -, hnone⟩
      rw [hnone] at hhelper
      cases hhelper
    obtain ⟨hident, hlambda⟩ := checkResolved_ident hcallable
    refine ⟨⟨hident, .evaluated ?_⟩, ?_⟩
    · rw [Eval.outcome, eval_ident_eq_error hunknown]
    · intro source
      refine ⟨_, by rw [Directive.handler?]; simp only [hlambda]; rfl, ?_⟩
      intro payload
      -- A frame without names hides nothing.
      have hchild : Unknown ambient (s.child (bindParams [] [payload])) .read n := hunknown
      show (respond ambient s source (lambda [] (ident n)) payload).events = _
      rw [respond, respondWith, apply, eval_ident_eq_error hchild]
      rfl

/-- `len + 1`: the value of a helper is read. -/
def lenPlusOne : Expr := binary .add (ident "len") (lit (.ofNat 1))

theorem checkResolved_lenPlusOne :
    lenPlusOne.checkResolved Ambient.standard Scope.empty = .ok () := by
  rw [checkResolved_eq_ok_iff]
  intro n hn hunknown
  have hfree : n = "len" := by
    simpa [lenPlusOne, freeOccurrences] using mem_freeNames_iff.mp hn
  subst hfree
  exact absurd hunknown.2.2 (by decide)

theorem outcome_lenPlusOne :
    (lenPlusOne.eval Ambient.standard Scope.empty).outcome = .error (.unresolved "len") := by
  rw [lenPlusOne, eval, Eval.outcome_bind, Eval.outcome, eval_ident_eq_error ⟨rfl, rfl⟩]
  rfl

/-- The check is no guarantee: the standard helper `len` passes it and has no value. -/
theorem check_misses_helper_value :
    ¬ ∀ (ambient : Ambient) (s : Scope) (e : Expr), e.checkResolved ambient s = .ok () →
      ∀ n, ¬ e.GivesUpOn ambient s n := fun h =>
  h _ _ _ checkResolved_lenPlusOne "len" (.evaluated outcome_lenPlusOne)

theorem unresolved_after_check_len :
    lenPlusOne.checkResolved Ambient.standard Scope.empty = .ok () ∧
    lenPlusOne.GivesUpOn Ambient.standard Scope.empty "len" ∧
    Uses .read "len" lenPlusOne ∧
    (Ambient.standard.helper? "len").isSome ∧
    ∃ handler,
      (Directive.handler? Ambient.standard Scope.empty
        ⟨"() => len", some (lambda [] (ident "len"))⟩).result = some handler ∧
      ∀ payload, handler.respond payload =
        [.noticed (.handlerFailed "() => len" (.unresolved "len"))] := by
  have hgives : lenPlusOne.GivesUpOn Ambient.standard Scope.empty "len" :=
    .evaluated outcome_lenPlusOne
  obtain ⟨hsound, hmissed⟩ := unresolved_after_check Ambient.standard Scope.empty
  obtain ⟨huse, hunknown, hhelper⟩ := hsound lenPlusOne checkResolved_lenPlusOne "len" hgives
  exact ⟨checkResolved_lenPlusOne, hgives, huse, hhelper,
    (hmissed "len" hunknown hhelper).2 "() => len"⟩

end Expr

end Culprit

end ReactiveView
