import EventFold.Proofs.Eval.Locality

/-!
# Operators on many operands

All operands are evaluated, from left to right, before the operator looks at any of their values. So the first
evaluation that fails decides, whatever the operator would have made of the others.

The values are combined from the left. Arithmetic takes all of them for numbers and blames the first that is none.
A comparison takes two and yields a truth, which is no number, so with a third value it fails. A connective yields
the first value that settles it, or else the last one, as it is.
-/

namespace EventFold

namespace Operator

/-- The operation of an operator that yields numbers. -/
def arithmetic? : Operator → Option (Number → Number → Number)
  | add => some fun x y => x + y
  | subtract => some fun x y => x - y
  | multiply => some fun x y => x * y
  | divide => some fun x y => x / y
  | remainder => some Number.remainder
  | _ => none

def comparison? : Operator → Option (Number → Number → Bool)
  | less => some fun x y => x < y
  | greater => some fun x y => y < x
  | atMost => some fun x y => x ≤ y
  | atLeast => some fun x y => y ≤ x
  | _ => none

/-- The first of some values that is taken for no number. -/
def blamed? (vs : List Value) : Option Value := vs.find? fun v => v.toNumber?.isNone

variable {op : Operator} {f : Number → Number → Number} {compare : Number → Number → Bool}
  {combined : Number → Number → Value} {v w r : Value} {vs : List Value} {x y : Number} {xs : List Number}
  {error : EvalError}

theorem numeric?_of_arithmetic? (h : op.arithmetic? = some f) :
    op.numeric? = some fun x y => .number (f x y) := by
  cases op <;> cases h <;> rfl

theorem numeric?_of_comparison? (h : op.comparison? = some compare) :
    op.numeric? = some fun x y => .bool (compare x y) := by
  cases op <;> cases h <;> rfl

theorem operand_of_some (h : v.toNumber? = some x) : op.operand v = .ok x := by
  rw [operand, h]

theorem operand_of_none (h : v.toNumber? = none) : op.operand v = .error (.notANumber op v) := by
  rw [operand, h]

theorem combine_eq (h : op.numeric? = some combined) (v w : Value) :
    op.combine v w = (op.operand v).bind fun x => (op.operand w).map (combined x) := by
  cases op <;> cases h <;> rfl

theorem combine_of_numbers (h : op.numeric? = some combined) (hv : v.toNumber? = some x)
    (hw : w.toNumber? = some y) : op.combine v w = .ok (combined x y) := by
  rw [combine_eq h, operand_of_some hv, operand_of_some hw]
  rfl

theorem blamed?_cons_of_some (h : v.toNumber? = some x) : blamed? (v :: vs) = blamed? vs := by
  apply List.find?_cons_of_neg
  simp [h]

theorem blamed?_cons_of_none (h : v.toNumber? = none) : blamed? (v :: vs) = some v := by
  apply List.find?_cons_of_pos
  simp [h]

/-- The first two values are looked at before any other. -/
theorem combine_of_blamed? (h : op.numeric? = some combined) (hblamed : blamed? [v, w] = some r) :
    op.combine v w = .error (.notANumber op r) := by
  rw [combine_eq h]
  cases hv : v.toNumber? with
  | none =>
    rw [blamed?_cons_of_none hv] at hblamed
    cases hblamed
    rw [operand_of_none hv]
    rfl
  | some x =>
    rw [blamed?_cons_of_some hv] at hblamed
    cases hw : w.toNumber? with
    | none =>
      rw [blamed?_cons_of_none hw] at hblamed
      cases hblamed
      rw [operand_of_some hv, operand_of_none hw]
      rfl
    | some y =>
      rw [blamed?_cons_of_some hw] at hblamed
      cases hblamed

/-- Either all values are taken for numbers or one of them is the first that is not. -/
theorem numbers_or_blamed (vs : List Value) :
    (∃ xs : List Number, vs.map Value.toNumber? = xs.map some) ∨ ∃ u, blamed? vs = some u := by
  induction vs with
  | nil => exact .inl ⟨[], rfl⟩
  | cons v vs ih =>
    cases hv : v.toNumber? with
    | none => exact .inr ⟨v, blamed?_cons_of_none hv⟩
    | some x =>
      rcases ih with ⟨xs, hxs⟩ | ⟨u, hu⟩
      · exact .inl ⟨x :: xs, by rw [List.map_cons, List.map_cons, hv, hxs]⟩
      · exact .inr ⟨u, (blamed?_cons_of_some hv).trans hu⟩

section Arithmetic

/-- By induction on the values that are still to come. What has been computed so far is a number. -/
theorem foldlM_of_numbers (h : op.arithmetic? = some f) (hv : v.toNumber? = some x) (hne : vs ≠ [])
    (hxs : vs.map Value.toNumber? = xs.map some) :
    vs.foldlM op.combine v = .ok (.number (xs.foldl f x)) := by
  induction vs generalizing v x xs with
  | nil => exact absurd rfl hne
  | cons w ws ih =>
    obtain ⟨y, ys, rfl, hw, hws⟩ := List.map_eq_cons_iff.mp hxs.symm
    have hfirst : op.combine v w = .ok (.number (f x y)) :=
      combine_of_numbers (numeric?_of_arithmetic? h) hv hw.symm
    rw [List.foldlM_cons, hfirst, List.foldl_cons]
    cases ws with
    | nil =>
      obtain rfl := List.map_eq_nil_iff.mp hws
      rfl
    | cons u us => exact ih rfl (List.cons_ne_nil u us) hws.symm

theorem foldlM_of_blamed? (h : op.arithmetic? = some f) (hne : vs ≠ [])
    (hblamed : blamed? (v :: vs) = some r) : vs.foldlM op.combine v = .error (.notANumber op r) := by
  induction vs generalizing v with
  | nil => exact absurd rfl hne
  | cons w ws ih =>
    rw [List.foldlM_cons]
    rcases numbers_or_blamed [v, w] with ⟨xs, hxs⟩ | ⟨u, hu⟩
    · obtain ⟨x, ys, rfl, hv, hys⟩ := List.map_eq_cons_iff.mp hxs.symm
      obtain ⟨y, zs, rfl, hw, -⟩ := List.map_eq_cons_iff.mp hys
      rw [blamed?_cons_of_some hv.symm, blamed?_cons_of_some hw.symm] at hblamed
      have hfirst : op.combine v w = .ok (.number (f x y)) :=
        combine_of_numbers (numeric?_of_arithmetic? h) hv.symm hw.symm
      rw [hfirst]
      cases ws with
      | nil => cases hblamed
      | cons u us =>
        -- the number computed so far is not to blame
        exact ih (List.cons_ne_nil u us) ((blamed?_cons_of_some (x := f x y) rfl).trans hblamed)
    · have hsame : blamed? (v :: w :: ws) = some u := by
        have hsplit : v :: w :: ws = [v, w] ++ ws := rfl
        rw [hsplit, blamed?, List.find?_append]
        exact congrArg (Option.or · _) hu
      obtain rfl := Option.some.inj (hsame.symm.trans hblamed)
      rw [combine_of_blamed? (numeric?_of_arithmetic? h) hu]
      rfl

theorem fold_eq_ok_iff_of_arithmetic? (h : op.arithmetic? = some f) :
    op.fold (v :: w :: vs) = .ok r ↔
      ∃ x xs, (v :: w :: vs).map Value.toNumber? = (x :: xs).map some ∧ r = .number (xs.foldl f x) := by
  have hne : w :: vs ≠ [] := List.cons_ne_nil w vs
  have hnumbers : ∀ x xs, (v :: w :: vs).map Value.toNumber? = (x :: xs).map some →
      op.fold (v :: w :: vs) = .ok (.number (xs.foldl f x)) := by
    intro x xs hxs
    obtain ⟨hv, hws⟩ := List.cons_eq_cons.mp hxs
    exact foldlM_of_numbers h hv hne hws
  constructor
  · intro hok
    rcases numbers_or_blamed (v :: w :: vs) with ⟨xs, hxs⟩ | ⟨u, hu⟩
    · cases xs with
      | nil => cases hxs
      | cons x xs => exact ⟨x, xs, hxs, Except.ok.inj (hok.symm.trans (hnumbers x xs hxs))⟩
    · cases hok.symm.trans (foldlM_of_blamed? h hne hu)
  · rintro ⟨x, xs, hxs, rfl⟩
    exact hnumbers x xs hxs

theorem fold_eq_error_iff_of_arithmetic? (h : op.arithmetic? = some f) :
    op.fold (v :: w :: vs) = .error error ↔
      ∃ u, blamed? (v :: w :: vs) = some u ∧ error = .notANumber op u := by
  have hne : w :: vs ≠ [] := List.cons_ne_nil w vs
  constructor
  · intro herror
    rcases numbers_or_blamed (v :: w :: vs) with ⟨xs, hxs⟩ | ⟨u, hu⟩
    · cases xs with
      | nil => cases hxs
      | cons x xs =>
        cases herror.symm.trans ((fold_eq_ok_iff_of_arithmetic? h).mpr ⟨x, xs, hxs, rfl⟩)
    · exact ⟨u, hu, Except.error.inj (herror.symm.trans (foldlM_of_blamed? h hne hu))⟩
  · rintro ⟨u, hu, rfl⟩
    exact foldlM_of_blamed? h hne hu

end Arithmetic

section Comparisons

theorem fold_two (op : Operator) (v w : Value) : op.fold [v, w] = op.combine v w := by
  rw [fold, List.foldlM_cons]
  cases op.combine v w <;> rfl

theorem fold_two_eq_ok_iff (h : op.comparison? = some compare) : op.fold [v, w] = .ok r ↔
    ∃ x y, v.toNumber? = some x ∧ w.toNumber? = some y ∧ r = .bool (compare x y) := by
  have hnumeric := numeric?_of_comparison? h
  rw [fold_two]
  constructor
  · intro hok
    rcases numbers_or_blamed [v, w] with ⟨xs, hxs⟩ | ⟨u, hu⟩
    · obtain ⟨x, ys, rfl, hv, hys⟩ := List.map_eq_cons_iff.mp hxs.symm
      obtain ⟨y, zs, rfl, hw, -⟩ := List.map_eq_cons_iff.mp hys
      have hvalue := combine_of_numbers hnumeric hv.symm hw.symm
      exact ⟨x, y, hv.symm, hw.symm, Except.ok.inj (hok.symm.trans hvalue)⟩
    · cases hok.symm.trans (combine_of_blamed? hnumeric hu)
  · rintro ⟨x, y, hv, hw, rfl⟩
    exact combine_of_numbers hnumeric hv hw

theorem fold_two_eq_error_iff (h : op.comparison? = some compare) : op.fold [v, w] = .error error ↔
    ∃ u, blamed? [v, w] = some u ∧ error = .notANumber op u := by
  have hnumeric := numeric?_of_comparison? h
  rw [fold_two]
  constructor
  · intro herror
    rcases numbers_or_blamed [v, w] with ⟨xs, hxs⟩ | ⟨u, hu⟩
    · obtain ⟨x, ys, rfl, hv, hys⟩ := List.map_eq_cons_iff.mp hxs.symm
      obtain ⟨y, zs, rfl, hw, -⟩ := List.map_eq_cons_iff.mp hys
      cases herror.symm.trans (combine_of_numbers hnumeric hv.symm hw.symm)
    · exact ⟨u, hu, Except.error.inj (herror.symm.trans (combine_of_blamed? hnumeric hu))⟩
  · rintro ⟨u, hu, rfl⟩
    exact combine_of_blamed? hnumeric hu

/-- The truth that two values are compared to is the left operand of the next comparison. -/
theorem fold_three_of_comparison? (h : op.comparison? = some compare) (v w u : Value) (rest : List Value) :
    ∃ other, op.fold (v :: w :: u :: rest) = .error (.notANumber op other) ∧
      (blamed? [v, w] = some other ∨
        ∃ x y, v.toNumber? = some x ∧ w.toNumber? = some y ∧ other = .bool (compare x y)) := by
  have hfold : op.fold (v :: w :: u :: rest) =
      (op.fold [v, w]).bind fun truth => (op.combine truth u).bind fun r => rest.foldlM op.combine r := by
    rw [fold_two]
    rfl
  rw [hfold]
  cases hfirst : op.fold [v, w] with
  | error e =>
    obtain ⟨other, hother, rfl⟩ := (fold_two_eq_error_iff h).mp hfirst
    exact ⟨other, rfl, .inl hother⟩
  | ok truth =>
    obtain ⟨x, y, hv, hw, rfl⟩ := (fold_two_eq_ok_iff h).mp hfirst
    have hblamed : blamed? [.bool (compare x y), u] = some (.bool (compare x y)) := blamed?_cons_of_none rfl
    refine ⟨.bool (compare x y), ?_, .inr ⟨x, y, hv, hw, rfl⟩⟩
    simp only [Except.bind, combine_of_blamed? (numeric?_of_comparison? h) hblamed]

end Comparisons

section Connectives

/-- The connective that a value of the given truth settles. -/
def settledBy : Bool → Operator
  | false => and
  | true => or

theorem combine_settledBy (b : Bool) (v w : Value) :
    (settledBy b).combine v w = .ok (if v.truthy == b then v else w) := by
  cases b <;> cases htruth : v.truthy <;> simp [settledBy, combine, htruth]

/-- By induction on the values that are still to come. The one at hand settles the connective for good, or it
gives way to the next. -/
theorem fold_settledBy (b : Bool) (v : Value) (vs : List Value) :
    ∃ r, (settledBy b).fold (v :: vs) = .ok r ∧
      ((v :: vs).find? (·.truthy == b)).or (v :: vs).getLast? = some r := by
  induction vs generalizing v with
  | nil =>
    refine ⟨v, rfl, ?_⟩
    by_cases hv : v.truthy = b <;> simp [hv]
  | cons w ws ih =>
    have hfold : (settledBy b).fold (v :: w :: ws) =
        (settledBy b).fold ((if v.truthy == b then v else w) :: ws) := by
      rw [fold, List.foldlM_cons, combine_settledBy]
      rfl
    rw [hfold]
    by_cases hv : (v.truthy == b) = true
    · have hfind : ∀ us, (v :: us).find? (·.truthy == b) = some v := fun us => List.find?_cons_of_pos hv
      obtain ⟨r, hr, hvalue⟩ := ih v
      rw [if_pos hv]
      rw [hfind] at hvalue ⊢
      exact ⟨r, hr, hvalue⟩
    · have hfind : (v :: w :: ws).find? (·.truthy == b) = (w :: ws).find? (·.truthy == b) :=
        List.find?_cons_of_neg hv
      rw [if_neg hv, hfind, List.getLast?_cons_cons]
      exact ih w

end Connectives

end Operator

namespace Expr

/-- The expressions evaluate to the given values, each on the same stack. -/
def ComeTo (scope : Scope) (es : List Expr) (s : CallStack) (vs : List Value) : Prop :=
  (es.map fun e => (e.run scope s).1) = vs.map .ok

/-- The first of the expressions that fails does so with the given error. -/
def FirstFailure (scope : Scope) (es : List Expr) (s : CallStack) (error : EvalError) : Prop :=
  ∃ before e after vs, es = before ++ e :: after ∧ ComeTo scope before s vs ∧ (e.run scope s).1 = .error error

variable {scope : Scope} {op : Operator} {e : Expr} {es : List Expr} {s : CallStack} {v : Value}
  {vs : List Value} {error : EvalError}

theorem comeTo_nil (scope : Scope) (s : CallStack) : ComeTo scope [] s [] := rfl

theorem ComeTo.cons (he : (e.run scope s).1 = .ok v) (h : ComeTo scope es s vs) :
    ComeTo scope (e :: es) s (v :: vs) := by
  rw [ComeTo, List.map_cons, List.map_cons, he, h]

theorem FirstFailure.cons (he : (e.run scope s).1 = .ok v) (h : FirstFailure scope es s error) :
    FirstFailure scope (e :: es) s error := by
  obtain ⟨before, d, after, vs, rfl, hbefore, hd⟩ := h
  exact ⟨e :: before, d, after, v :: vs, rfl, hbefore.cons he, hd⟩

/-- By induction on the expressions, which are evaluated in this order. -/
theorem comeTo_or_firstFailure (scope : Scope) (es : List Expr) (s : CallStack) :
    (∃ vs, ComeTo scope es s vs ∧ resultsOn scope es s = .ok vs) ∨
      ∃ error, FirstFailure scope es s error ∧ resultsOn scope es s = .error error := by
  induction es with
  | nil => exact .inl ⟨[], comeTo_nil scope s, resultsOn_nil s⟩
  | cons e es ih =>
    have hresult : (e.eval scope).resultOn s = (e.run scope s).1 := rfl
    rw [resultsOn_cons, hresult]
    cases he : (e.run scope s).1 with
    | error error => exact .inr ⟨error, ⟨[], e, es, [], rfl, comeTo_nil scope s, he⟩, rfl⟩
    | ok v =>
      rcases ih with ⟨vs, hvs, hresults⟩ | ⟨error, herror, hresults⟩
      · exact .inl ⟨v :: vs, hvs.cons he, by rw [hresults]; rfl⟩
      · exact .inr ⟨error, herror.cons he, by rw [hresults]; rfl⟩

theorem resultsOn_eq_ok_iff : resultsOn scope es s = .ok vs ↔ ComeTo scope es s vs := by
  constructor
  · intro h
    rcases comeTo_or_firstFailure scope es s with ⟨ws, hws, hresults⟩ | ⟨error, -, hresults⟩
    · rwa [Except.ok.inj (h.symm.trans hresults)]
    · cases h.symm.trans hresults
  · exact resultsOn_eq_ok

/-- Behind the first failure nothing is evaluated, so what comes before it decides. -/
theorem resultsOn_of_firstFailure (h : FirstFailure scope es s error) : resultsOn scope es s = .error error := by
  obtain ⟨before, e, after, vs, rfl, hbefore, he⟩ := h
  induction before generalizing vs with
  | nil =>
    have hresult : (e.eval scope).resultOn s = .error error := he
    rw [List.nil_append, resultsOn_cons, hresult]
    rfl
  | cons d before ih =>
    obtain ⟨v, vs, rfl, hd, hrest⟩ := List.map_eq_cons_iff.mp hbefore.symm
    have hresult : (d.eval scope).resultOn s = .ok v := hd.symm
    rw [List.cons_append, resultsOn_cons, hresult]
    simp only [Except.bind, ih vs hrest.symm]
    rfl

theorem resultsOn_eq_error_iff : resultsOn scope es s = .error error ↔ FirstFailure scope es s error := by
  constructor
  · intro h
    rcases comeTo_or_firstFailure scope es s with ⟨vs, -, hresults⟩ | ⟨other, hother, hresults⟩
    · cases h.symm.trans hresults
    · rwa [Except.error.inj (h.symm.trans hresults)]
  · exact resultsOn_of_firstFailure

theorem exists_comeTo_iff : (∃ vs, ComeTo scope es s vs) ↔ ∀ e ∈ es, ∃ v, (e.run scope s).1 = .ok v := by
  induction es with
  | nil => simp [ComeTo]
  | cons e es ih =>
    rw [List.forall_mem_cons, ← ih]
    constructor
    · rintro ⟨ws, hws⟩
      obtain ⟨v, vs, rfl, he, hes⟩ := List.map_eq_cons_iff.mp hws.symm
      exact ⟨⟨v, he.symm⟩, vs, hes.symm⟩
    · rintro ⟨⟨v, he⟩, vs, hes⟩
      exact ⟨v :: vs, hes.cons he⟩

theorem run_apply (op : Operator) (es : List Expr) (s : CallStack) :
    ((apply op es).run scope s).1 = (resultsOn scope es s).bind op.fold := by
  rw [run_eq, resultOn_apply]

theorem run_apply_eq_ok_iff : ((apply op es).run scope s).1 = .ok v ↔
    ∃ vs, ComeTo scope es s vs ∧ op.fold vs = .ok v := by
  simp only [run_apply, bind_eq_ok_iff, resultsOn_eq_ok_iff]

theorem run_apply_eq_error_iff : ((apply op es).run scope s).1 = .error error ↔
    FirstFailure scope es s error ∨ ∃ vs, ComeTo scope es s vs ∧ op.fold vs = .error error := by
  simp only [run_apply, bind_eq_error_iff, resultsOn_eq_ok_iff, resultsOn_eq_error_iff]

/-- What the numeric operators make of two or more values, and of operands that have been evaluated to these.
A failure of an operand, of the first one that fails, comes before all that the operator could complain about. -/
theorem numeric_on_many :
    (∀ op f, Operator.arithmetic? op = some f → ∀ v w rest,
      (∀ r, op.fold (v :: w :: rest) = .ok r ↔
        ∃ x xs, (v :: w :: rest).map Value.toNumber? = (x :: xs).map some ∧ r = .number (xs.foldl f x)) ∧
      ∀ error, op.fold (v :: w :: rest) = .error error ↔
        ∃ u, Operator.blamed? (v :: w :: rest) = some u ∧ error = .notANumber op u) ∧
    (∀ op compare, Operator.comparison? op = some compare → ∀ v w,
      (∀ r, op.fold [v, w] = .ok r ↔
        ∃ x y, v.toNumber? = some x ∧ w.toNumber? = some y ∧ r = .bool (compare x y)) ∧
      (∀ error, op.fold [v, w] = .error error ↔
        ∃ u, Operator.blamed? [v, w] = some u ∧ error = .notANumber op u) ∧
      ∀ u rest, ∃ other, op.fold (v :: w :: u :: rest) = .error (.notANumber op other) ∧
        (Operator.blamed? [v, w] = some other ∨
          ∃ x y, v.toNumber? = some x ∧ w.toNumber? = some y ∧ other = .bool (compare x y))) ∧
    ∀ (scope : Scope) (op : Operator) (operands : List Expr) (s : CallStack),
      (∀ v, ((apply op operands).run scope s).1 = .ok v ↔
        ∃ vs, ComeTo scope operands s vs ∧ op.fold vs = .ok v) ∧
      ∀ error, ((apply op operands).run scope s).1 = .error error ↔
        FirstFailure scope operands s error ∨ ∃ vs, ComeTo scope operands s vs ∧ op.fold vs = .error error := by
  refine ⟨?_, ?_, ?_⟩
  · intro op f h v w rest
    exact ⟨fun r => Operator.fold_eq_ok_iff_of_arithmetic? h, fun error =>
      Operator.fold_eq_error_iff_of_arithmetic? h⟩
  · intro op compare h v w
    exact ⟨fun r => Operator.fold_two_eq_ok_iff h, fun error => Operator.fold_two_eq_error_iff h,
      Operator.fold_three_of_comparison? h v w⟩
  · intro scope op operands s
    exact ⟨fun v => run_apply_eq_ok_iff, fun error => run_apply_eq_error_iff⟩

/-- A scope in which nothing is to be found. -/
def bare : Scope := ⟨none, ∅, ∅, ∅⟩

/-- Texts that are numbers, values that are none, a comparison of three, and a refused call behind a text that is no
number. -/
theorem numeric_on_many_mixed :
    Operator.arithmetic? .subtract = some (fun x y => x - y) ∧
    [Value.text " 7 ", .number 2, .text "1e0"].map Value.toNumber? = [7, 2, 1].map some ∧
    Operator.subtract.fold [.text " 7 ", .number 2, .text "1e0"] = .ok (.number 4) ∧
    Operator.blamed? [.text "7", .bool true, .null] = some (.bool true) ∧
    Operator.subtract.fold [.text "7", .bool true, .null] = .error (.notANumber .subtract (.bool true)) ∧
    Operator.comparison? .less = some (fun x y => decide (x < y)) ∧
    Operator.less.fold [.number 1, .text "2"] = .ok (.bool true) ∧
    Operator.less.fold [.number 1, .text "2", .number 5] = .error (.notANumber .less (.bool true)) ∧
    FirstFailure bare [.const (.text "one"), .call "f" []] (.empty 0) (.callDepthExceeded "f" 0) ∧
    ((apply .add [.const (.text "one"), .call "f" []]).run bare (.empty 0)).1 =
      .error (.callDepthExceeded "f" 0) := by
  obtain ⟨harithmetic, hcomparison, happly⟩ := numeric_on_many
  have hnumbers : [Value.text " 7 ", .number 2, .text "1e0"].map Value.toNumber? = [7, 2, 1].map some := by
    decide +kernel
  have hblamed : Operator.blamed? [.text "7", .bool true, .null] = some (.bool true) := by decide +kernel
  have htwo : Value.toNumber? (.text "2") = some 2 := by decide +kernel
  have htruth : Value.bool (decide ((1 : Number) < 2)) = .bool true := by decide +kernel
  have hfailure : FirstFailure bare [.const (.text "one"), .call "f" []] (.empty 0)
      (.callDepthExceeded "f" 0) :=
    ⟨[.const (.text "one")], .call "f" [], [], [.text "one"], rfl, rfl, by decide +kernel⟩
  obtain ⟨hdifference, -⟩ := harithmetic .subtract _ rfl (.text " 7 ") (.number 2) [.text "1e0"]
  obtain ⟨-, hcomplaint⟩ := harithmetic .subtract _ rfl (.text "7") (.bool true) [.null]
  obtain ⟨hless, -, hmore⟩ := hcomparison .less _ rfl (.number 1) (.text "2")
  refine ⟨rfl, hnumbers, ?_, hblamed, ?_, rfl, ?_, ?_, hfailure, ?_⟩
  · exact (hdifference _).mpr ⟨7, [2, 1], hnumbers, by decide +kernel⟩
  · exact (hcomplaint _).mpr ⟨_, hblamed, rfl⟩
  · exact (hless _).mpr ⟨1, 2, rfl, htwo, htruth.symm⟩
  · obtain ⟨other, hthree, hother⟩ := hmore (.number 5) []
    rw [hthree]
    rcases hother with hnone | ⟨x, y, hx, hy, rfl⟩
    · have hboth : Operator.blamed? [.number 1, .text "2"] = none := by decide +kernel
      cases hboth.symm.trans hnone
    · cases hx
      cases htwo.symm.trans hy
      rw [htruth]
  · exact ((happly bare .add _ _).2 _).mpr (.inl hfailure)

/-- No values of operands make a connective fail. -/
theorem ComeTo.fold_settledBy (b : Bool) (h : ComeTo scope (e :: es) s vs) :
    ∃ r, (Operator.settledBy b).fold vs = .ok r ∧ (vs.find? (·.truthy == b)).or vs.getLast? = some r := by
  obtain ⟨v, rest, rfl, -⟩ := List.map_eq_cons_iff.mp h.symm
  exact Operator.fold_settledBy b v rest

/-- A connective on operands of which there is at least one. All are evaluated. If none fails the value is that of
the first operand whose value settles the connective, or else of the last. -/
theorem connective_on_many (b : Bool) (scope : Scope) (e : Expr) (es : List Expr) (s : CallStack) :
    let result := ((apply (.settledBy b) (e :: es)).run scope s).1
    ((∃ v, result = .ok v) ↔ ∀ d ∈ e :: es, ∃ v, (d.run scope s).1 = .ok v) ∧
    (∀ error, result = .error error ↔ FirstFailure scope (e :: es) s error) ∧
    ∀ v, result = .ok v ↔
      ∃ vs, ComeTo scope (e :: es) s vs ∧ (vs.find? (·.truthy == b)).or vs.getLast? = some v := by
  intro result
  refine ⟨?_, ?_, ?_⟩
  · rw [← exists_comeTo_iff]
    constructor
    · rintro ⟨v, hv⟩
      obtain ⟨vs, hvs, -⟩ := run_apply_eq_ok_iff.mp hv
      exact ⟨vs, hvs⟩
    · rintro ⟨vs, hvs⟩
      obtain ⟨r, hr, -⟩ := hvs.fold_settledBy b
      exact ⟨r, run_apply_eq_ok_iff.mpr ⟨vs, hvs, hr⟩⟩
  · intro error
    refine run_apply_eq_error_iff.trans (or_iff_left ?_)
    rintro ⟨vs, hvs, herror⟩
    obtain ⟨r, hr, -⟩ := hvs.fold_settledBy b
    cases hr.symm.trans herror
  · intro v
    refine run_apply_eq_ok_iff.trans (exists_congr fun vs => and_congr_right fun hvs => ?_)
    obtain ⟨r, hr, hvalue⟩ := hvs.fold_settledBy b
    rw [hr, hvalue, Except.ok.injEq, Option.some.injEq]

/-- The first operand settles the connective, and the second fails for all that. -/
example : ((apply .or [.const (.bool true), .call "f" []]).run bare (.empty 0)).1 =
    .error (.callDepthExceeded "f" 0) := by
  rfl

end Expr

end EventFold
