import EventFold.Proofs.Form.Words

/-!
# The grammar of expressions

`Means` gives the forms of each expression, constructor by constructor and without regard to how a form is read.
Reading a form yields an expression exactly if the form means it.
-/

namespace EventFold.Form

mutual

inductive Means (names : Vocabulary) : Form → Expr → Prop where
  | value {v : Value} : (∀ s, v ≠ .text s) → Means names (atom v) (.const v)
  | text {s : String} : (∀ beginning ∈ beginnings, ∀ t, s ≠ beginning ++ t) →
    Means names (atom (.text s)) (.const (.text s))
  | property {name : String} : name ≠ "" → names.property name = true →
    Means names (atom (.text ("event." ++ name))) (.property name)
  | var {beginning name : String} : beginning ∈ ["var.", "variables."] → name ≠ "" → names.var name = true →
    Means names (atom (.text (beginning ++ name))) (.var name)
  | aggregator {beginning name : String} : beginning ∈ ["agg.", "aggregators."] → name ≠ "" →
    names.aggregator name = true → Means names (atom (.text (beginning ++ name))) (.aggregator name)
  | argument {index : String} {n : Nat} : Text.Spells index.toList n → n ≤ maxIndex →
    Means names (atom (.text ("arg." ++ index))) (.argument n)
  | call {name : String} {rest : List Form} {es : List Expr} : name ≠ "" → MeanAll names rest es →
    Means names (list (atom (.text ("func." ++ name)) :: rest)) (.call name es)
  | choose {c y n : Form} {c' y' n' : Expr} : Means names c c' → Means names y y' → Means names n n' →
    Means names (list [atom (.text "if"), c, y, n]) (.choose c' y' n')
  | apply {op : Operator} {rest : List Form} {es : List Expr} : 2 ≤ rest.length → MeanAll names rest es →
    Means names (list (atom (.text op.keyword) :: rest)) (.apply op es)

inductive MeanAll (names : Vocabulary) : List Form → List Expr → Prop where
  | nil : MeanAll names [] []
  | cons {f : Form} {fs : List Form} {e : Expr} {es : List Expr} : Means names f e → MeanAll names fs es →
    MeanAll names (f :: fs) (e :: es)

end

variable {names : Vocabulary} {s : String} {head : Form} {rest : List Form} {e : Expr} {es : List Expr}

theorem means_of_textExpr (h : textExpr names s = .ok e) : Means names (atom (.text s)) e := by
  cases elementWord s with
  | property name =>
    rw [textExpr_property, ite_error_eq_ok_iff, not_or, Bool.not_eq_false] at h
    obtain ⟨⟨hne, hknown⟩, rfl⟩ := h
    exact .property hne hknown
  | var hbeginning name =>
    rw [textExpr_var hbeginning, ite_error_eq_ok_iff, not_or, Bool.not_eq_false] at h
    obtain ⟨⟨hne, hknown⟩, rfl⟩ := h
    exact .var hbeginning hne hknown
  | aggregator hbeginning name =>
    rw [textExpr_aggregator hbeginning, ite_error_eq_ok_iff, not_or, Bool.not_eq_false] at h
    obtain ⟨⟨hne, hknown⟩, rfl⟩ := h
    exact .aggregator hbeginning hne hknown
  | argument hspells hn =>
    cases (textExpr_argument_of_spells hspells hn).symm.trans h
    exact .argument hspells hn
  | noIndex hindex => cases (textExpr_of_noIndex hindex).symm.trans h
  | function name => cases (textExpr_function name).symm.trans h
  | plain hplain =>
    cases (textExpr_plain hplain).symm.trans h
    exact .text hplain

theorem means_of_readHead {what : Head} (h : readHead head rest.length = .ok what)
    (hall : MeanAll names rest es) : Means names (list (head :: rest)) (what.expr es) := by
  cases headWord head with
  | call name =>
    rw [readHead_call, ite_error_eq_ok_iff] at h
    obtain ⟨hname, rfl⟩ := h
    exact .call hname hall
  | choose =>
    rw [readHead_if, ite_error_eq_ok_iff] at h
    obtain ⟨hlen, rfl⟩ := h
    match rest, hall, Classical.not_not.mp hlen with
    | [_, _, _], .cons hc (.cons hy (.cons hn .nil)), _ => exact .choose hc hy hn
  | keyword op =>
    rw [readHead_keyword, ite_error_eq_ok_iff] at h
    obtain ⟨hlen, rfl⟩ := h
    exact .apply (Nat.le_of_not_lt hlen) hall
  | unknown hcall hif hkeyword => cases (readHead_unknown hcall hif hkeyword _).symm.trans h
  | notText hhead => cases (readHead_of_not_text hhead _).symm.trans h

mutual

theorem means_of_toExpr : ∀ {f : Form} {e : Expr}, f.toExpr names = .ok e → Means names f e
  | atom (.text _), _, h => means_of_textExpr h
  | atom .null, _, h => by
    cases h
    exact .value (by simp)
  | atom (.bool _), _, h => by
    cases h
    exact .value (by simp)
  | atom (.number _), _, h => by
    cases h
    exact .value (by simp)
  | list [], _, h => by cases h
  | list (_ :: _), _, h => by
    obtain ⟨what, hr, es, hes, rfl⟩ := toExpr_cons_eq_ok_iff.mp h
    exact means_of_readHead hr (meanAll_of_toExprs hes)

theorem meanAll_of_toExprs : ∀ {fs : List Form} {es : List Expr}, toExprs names fs = .ok es → MeanAll names fs es
  | [], _, h => by
    cases h
    exact .nil
  | _ :: _, _, h => by
    obtain ⟨e, he, tail, htail, rfl⟩ := toExprs_cons_eq_ok_iff.mp h
    exact .cons (means_of_toExpr he) (meanAll_of_toExprs htail)

end

theorem toExpr_cons_of_readHead {what : Head} (hr : readHead head rest.length = .ok what)
    (hes : toExprs names rest = .ok es) : toExpr names (list (head :: rest)) = .ok (what.expr es) :=
  toExpr_cons_eq_ok_iff.mpr ⟨what, hr, es, hes, rfl⟩

mutual

theorem toExpr_of_means : ∀ {f : Form} {e : Expr}, Means names f e → f.toExpr names = .ok e
  | _, _, .value (v := v) hv => by
    cases v with
    | text s => exact absurd rfl (hv s)
    | _ => rfl
  | _, _, .text hplain => textExpr_plain hplain
  | _, _, .property hne hknown => by
    rw [toExpr, textExpr_property, if_neg (by simp [hne, hknown])]
  | _, _, .var hbeginning hne hknown => by
    rw [toExpr, textExpr_var hbeginning, if_neg (by simp [hne, hknown])]
  | _, _, .aggregator hbeginning hne hknown => by
    rw [toExpr, textExpr_aggregator hbeginning, if_neg (by simp [hne, hknown])]
  | _, _, .argument hspells hn => textExpr_argument_of_spells hspells hn
  | _, _, .call hne hall =>
    toExpr_cons_of_readHead ((readHead_call _ _).trans (if_neg hne)) (toExprs_of_meanAll hall)
  | _, _, .choose hc hy hn => by
    have hes : toExprs names [_, _, _] = .ok [_, _, _] :=
      toExprs_of_meanAll (.cons hc (.cons hy (.cons hn .nil)))
    exact toExpr_cons_of_readHead (readHead_if 3) hes
  | _, _, .apply hlen hall =>
    toExpr_cons_of_readHead ((readHead_keyword _ _).trans (if_neg (Nat.not_lt_of_le hlen)))
      (toExprs_of_meanAll hall)

theorem toExprs_of_meanAll : ∀ {fs : List Form} {es : List Expr}, MeanAll names fs es → toExprs names fs = .ok es
  | _, _, .nil => rfl
  | _, _, .cons he htail =>
    toExprs_cons_eq_ok_iff.mpr ⟨_, toExpr_of_means he, _, toExprs_of_meanAll htail, rfl⟩

end

theorem toExpr_eq_ok_iff {f : Form} : f.toExpr names = .ok e ↔ Means names f e :=
  ⟨means_of_toExpr, toExpr_of_means⟩

end EventFold.Form
