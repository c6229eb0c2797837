import ReactiveView.Expr.Eval

/-! # The names that an evaluation reads

  An expression reads nothing from its surroundings but its free names.

  * `mem_freeOccurrences_iff`: binding names takes exactly these away from the
    free ones.
  * `Scope.AgreeOn`: two scopes give the same answer, absence included, on a list
    of names; entering both with one frame keeps this, and the names of the frame
    need no agreement any more.
  * `eval_congr`: scopes that agree on the free names give the same result, with
    the same events on the way to it.
  * `evaluates_alike`: so do applications, where the function is what agrees.
-/

namespace ReactiveView

/-! ## §1. Free names and binders -/

namespace Expr

variable {n : String}

mutual

/-- A name is free under binders when it is free and not bound by them. -/
theorem mem_freeOccurrences_iff (bound : List String) (e : Expr) :
    n ∈ freeOccurrences bound e ↔ n ∈ freeOccurrences [] e ∧ n ∉ bound := by
  match e with
  | lit _ => simp [freeOccurrences]
  | ident name =>
    by_cases hname : name ∈ bound
    · simp only [freeOccurrences, hname, if_true, List.not_mem_nil, if_false,
        List.mem_singleton, false_iff, not_and, Decidable.not_not]
      intro hn
      exact hn ▸ hname
    · simp only [freeOccurrences, hname, if_false, List.not_mem_nil, List.mem_singleton,
        iff_self_and]
      intro hn
      exact hn ▸ hname
  | array items =>
    simp only [freeOccurrences]
    exact mem_freeInAll_iff bound items
  | object fields =>
    simp only [freeOccurrences]
    exact mem_freeInFields_iff bound fields
  | member target _ =>
    simp only [freeOccurrences]
    exact mem_freeOccurrences_iff bound target
  | index target position =>
    simp only [freeOccurrences, List.mem_append]
    rw [mem_freeOccurrences_iff bound target, mem_freeOccurrences_iff bound position, or_and_right]
  | call callee args =>
    simp only [freeOccurrences, List.mem_append]
    rw [mem_freeOccurrences_iff bound callee, mem_freeInAll_iff bound args, or_and_right]
  | unary _ operand =>
    simp only [freeOccurrences]
    exact mem_freeOccurrences_iff bound operand
  | binary _ left right =>
    simp only [freeOccurrences, List.mem_append]
    rw [mem_freeOccurrences_iff bound left, mem_freeOccurrences_iff bound right, or_and_right]
  | cond test consequent alternate =>
    simp only [freeOccurrences, List.mem_append]
    rw [mem_freeOccurrences_iff bound test, mem_freeOccurrences_iff bound consequent,
      mem_freeOccurrences_iff bound alternate, or_and_right, or_and_right]
  | lambda params body =>
    -- The parameters join the binders on both sides.
    simp only [freeOccurrences, List.append_nil]
    rw [mem_freeOccurrences_iff (params ++ bound) body, mem_freeOccurrences_iff params body]
    simp [and_assoc]
  | block statements =>
    simp only [freeOccurrences]
    exact mem_freeInAll_iff bound statements

/-- The same in a list of expressions. -/
theorem mem_freeInAll_iff (bound : List String) (es : List Expr) :
    n ∈ freeInAll bound es ↔ n ∈ freeInAll [] es ∧ n ∉ bound := by
  match es with
  | [] => simp [freeInAll]
  | e :: es =>
    simp only [freeInAll, List.mem_append]
    rw [mem_freeOccurrences_iff bound e, mem_freeInAll_iff bound es, or_and_right]

/-- The same in the fields of an object. -/
theorem mem_freeInFields_iff (bound : List String) (fs : List (String × Expr)) :
    n ∈ freeInFields bound fs ↔ n ∈ freeInFields [] fs ∧ n ∉ bound := by
  match fs with
  | [] => simp [freeInFields]
  | (_, e) :: fs =>
    simp only [freeInFields, List.mem_append]
    rw [mem_freeOccurrences_iff bound e, mem_freeInFields_iff bound fs, or_and_right]

end

theorem mem_freeNames_iff {e : Expr} : n ∈ e.freeNames ↔ n ∈ freeOccurrences [] e :=
  List.mem_eraseDups

/-- What a function reads from around it: the free names of its body that are no parameters. -/
theorem mem_freeOccurrences_lambda_iff {params : List String} {body : Expr} :
    n ∈ freeOccurrences [] (lambda params body) ↔ n ∈ freeOccurrences [] body ∧ n ∉ params := by
  rw [freeOccurrences, List.append_nil]
  exact mem_freeOccurrences_iff params body

end Expr

/-! ## §2. Scopes that agree -/

/-- A name of a frame is found in it, from whichever end. -/
theorem Entries.exists_lookup_reverse {f : Entries Value} {n : String} (h : n ∈ f.keys) :
    ∃ v, f.reverse.lookup n = some v := by
  obtain ⟨e, he, hname⟩ := List.mem_map.mp h
  rw [← Option.isSome_iff_exists, List.lookup_isSome_iff]
  exact ⟨e, List.mem_reverse.mpr he, by simp [hname]⟩

namespace Scope

variable {s s' : Scope} {names names' : List String}

/-- Two scopes give the same answer on the names of a list, be it a value or none. -/
def AgreeOn (s s' : Scope) (names : List String) : Prop := ∀ n ∈ names, s.lookup n = s'.lookup n

theorem AgreeOn.mono (h : s.AgreeOn s' names) (hsub : names' ⊆ names) : s.AgreeOn s' names' :=
  fun n hn => h n (hsub hn)

/-- In front of both scopes a frame hides its names, so that these need no agreement. -/
theorem AgreeOn.child (f : Frame) (h : ∀ n ∈ names, n ∉ f.keys → s.lookup n = s'.lookup n) :
    (s.child f).AgreeOn (s'.child f) names := by
  intro n hn
  rw [lookup_child, lookup_child]
  by_cases hf : n ∈ f.keys
  · obtain ⟨v, hv⟩ := Entries.exists_lookup_reverse hf
    rw [hv]
    rfl
  · rw [h n hn hf]

end Scope

theorem keys_bindParams (params : List String) (args : List Value) :
    Entries.keys (bindParams params args) = params := by
  induction params generalizing args with
  | nil => rfl
  | cons p ps ih =>
    cases args with
    | nil => simp [bindParams, ih]
    | cons v vs => simp [bindParams, ih]

/-! ## §3. Evaluation in scopes that agree -/

variable {ambient : Ambient}

theorem resolve_congr {s s' : Scope} {n : String} (h : s.lookup n = s'.lookup n) :
    resolve ambient s n = resolve ambient s' n := by
  rw [resolve, resolve, h]

theorem resolveHelper_congr {s s' : Scope} {n : String} (h : s.lookup n = s'.lookup n) :
    resolveHelper ambient s n = resolveHelper ambient s' n := by
  rw [resolveHelper, resolveHelper, h]

namespace Expr

/-- The parameters of a function are bound alike in both scopes. -/
theorem agreeOn_child_bindParams {s s' : Scope} {params : List String} {body : Expr}
    (h : s.AgreeOn s' (freeOccurrences [] (lambda params body))) (args : List Value) :
    (s.child (bindParams params args)).AgreeOn (s'.child (bindParams params args))
      (freeOccurrences [] body) := by
  refine Scope.AgreeOn.child _ ?_
  intro n hn hbound
  rw [keys_bindParams] at hbound
  exact h n (mem_freeOccurrences_lambda_iff.mpr ⟨hn, hbound⟩)

mutual

/-- **Coincidence**: scopes that agree on the free names of an expression give the same result and
    the same events. -/
theorem eval_congr {s s' : Scope} (e : Expr) (h : s.AgreeOn s' (freeOccurrences [] e)) :
    e.eval ambient s = e.eval ambient s' := by
  match e with
  | lit v => simp only [eval]
  | ident name =>
    have hname : s.lookup name = s'.lookup name := h name (by simp [freeOccurrences])
    simp only [eval, resolve_congr hname]
  | array items =>
    simp only [eval, evalAll_congr items h]
  | object fields =>
    simp only [eval, evalFields_congr fields h]
  | member target property =>
    simp only [eval, eval_congr target h]
  | index target position =>
    rw [freeOccurrences] at h
    simp only [eval, eval_congr target (h.mono (List.subset_append_left _ _)),
      eval_congr position (h.mono (List.subset_append_right _ _))]
  | call callee args =>
    rw [freeOccurrences] at h
    have hargs := evalAll_congr args (h.mono (List.subset_append_right _ _))
    have hcallee := h.mono (List.subset_append_left _ _)
    match callee with
    | ident name =>
      have hname : s.lookup name = s'.lookup name := hcallee name (by simp [freeOccurrences])
      simp only [eval, resolveHelper_congr hname, hargs]
    | lambda params body =>
      have hbody : ∀ values, eval ambient (s.child (bindParams params values)) body =
          eval ambient (s'.child (bindParams params values)) body :=
        fun values => eval_congr body (agreeOn_child_bindParams hcallee values)
      simp only [eval, hargs, hbody]
    | lit _ | array _ | object _ | member _ _ | index _ _ | call _ _ | unary _ _ | binary _ _ _
    | cond _ _ _ | block _ => simp only [eval]
  | unary op operand =>
    simp only [eval, eval_congr operand h]
  | binary op left right =>
    rw [freeOccurrences] at h
    simp only [eval, eval_congr left (h.mono (List.subset_append_left _ _)),
      eval_congr right (h.mono (List.subset_append_right _ _))]
  | cond test consequent alternate =>
    rw [freeOccurrences] at h
    have hleft := h.mono (List.subset_append_left _ _)
    simp only [eval, eval_congr test (hleft.mono (List.subset_append_left _ _)),
      eval_congr consequent (hleft.mono (List.subset_append_right _ _)),
      eval_congr alternate (h.mono (List.subset_append_right _ _))]
  | lambda params body => simp only [eval]
  | block statements =>
    simp only [eval, evalAll_congr statements h]

/-- The same of expressions in order. -/
theorem evalAll_congr {s s' : Scope} (es : List Expr) (h : s.AgreeOn s' (freeInAll [] es)) :
    evalAll ambient s es = evalAll ambient s' es := by
  match es with
  | [] => simp only [evalAll]
  | e :: es =>
    rw [freeInAll] at h
    simp only [evalAll, eval_congr e (h.mono (List.subset_append_left _ _)),
      evalAll_congr es (h.mono (List.subset_append_right _ _))]

/-- The same of the fields of an object. -/
theorem evalFields_congr {s s' : Scope} (fs : List (String × Expr))
    (h : s.AgreeOn s' (freeInFields [] fs)) :
    evalFields ambient s fs = evalFields ambient s' fs := by
  match fs with
  | [] => simp only [evalFields]
  | (k, e) :: fs =>
    rw [freeInFields] at h
    simp only [evalFields, eval_congr e (h.mono (List.subset_append_left _ _)),
      evalFields_congr fs (h.mono (List.subset_append_right _ _))]

end

/-! ## §4. What an evaluation depends on -/

/-- **An evaluation depends on the free names alone.** Two scopes that give the same answer on
    every free name, absence included, give the same evaluation: the same value or the same
    failure, after the same events, calls of helpers among them. An application depends in the
    same way on the free names of the function, whatever it is applied to. -/
theorem evaluates_alike (ambient : Ambient) (s s' : Scope) :
    (∀ e : Expr, s.AgreeOn s' e.freeNames → e.eval ambient s = e.eval ambient s') ∧
      ∀ params body, s.AgreeOn s' (lambda params body).freeNames →
        ∀ args, apply ambient s params body args = apply ambient s' params body args := by
  refine ⟨?_, ?_⟩
  · intro e h
    exact eval_congr e fun n hn => h n (mem_freeNames_iff.mpr hn)
  · intro params body h args
    have hlambda : s.AgreeOn s' (freeOccurrences [] (lambda params body)) :=
      fun n hn => h n (mem_freeNames_iff.mpr hn)
    exact eval_congr body (agreeOn_child_bindParams hlambda args)

/-- `(x => [x, log(x), z])(y)`: the parameter hides the `x` around it. -/
def shadowing : Expr :=
  call (lambda ["x"] (array [ident "x", call (ident "log") [ident "x"], ident "z"])) [ident "y"]

/-- The scopes differ on the hidden name. The helper is called before `z` turns out to be unbound
    in both of them; a function without arguments given finds its parameter null in both. -/
theorem evaluates_alike_shadowed :
    let s := Scope.empty.child [("x", .bool false), ("y", .bool true)]
    let s' := (Scope.empty.child [("y", .bool true)]).child [("x", .null)]
    let body := array [ident "x", ident "y"]
    s.lookup "x" ≠ s'.lookup "x" ∧
      s.AgreeOn s' shadowing.freeNames ∧
      (shadowing.eval Ambient.standard s).run =
        ⟨.error (.unresolved "z"), [.called "log" [.bool true], .noticed (.logged "true")]⟩ ∧
      shadowing.eval Ambient.standard s = shadowing.eval Ambient.standard s' ∧
      s.AgreeOn s' (lambda ["x"] body).freeNames ∧
      (apply Ambient.standard s ["x"] body []).run = ⟨.ok (.arr [.null, .bool true]), []⟩ ∧
      apply Ambient.standard s ["x"] body [] = apply Ambient.standard s' ["x"] body [] := by
  intro s s' body
  have hfree : shadowing.freeNames = ["log", "z", "y"] := by decide
  have hagree : s.AgreeOn s' shadowing.freeNames := by
    rw [hfree]
    intro n hn
    simp only [List.mem_cons, List.not_mem_nil, or_false] at hn
    rcases hn with rfl | rfl | rfl <;> rfl
  have hbody : s.AgreeOn s' (lambda ["x"] body).freeNames := by
    intro n hn
    obtain rfl : n = "y" := List.mem_singleton.mp hn
    rfl
  obtain ⟨heval, happly⟩ := evaluates_alike Ambient.standard s s'
  exact ⟨nofun, hagree, rfl, heval shadowing hagree, hbody, rfl, happly ["x"] body hbody []⟩

end Expr

end ReactiveView
