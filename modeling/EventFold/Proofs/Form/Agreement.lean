import EventFold.Proofs.Form.Reading
import EventFold.Proofs.Number.Comparison

/-!
# Agreeing forms

Agreement compares numbers as numbers, so it is coarser than equality on the zeros and finer on NaN. A form
without NaN agrees with itself, and of two agreeing forms either both mean something or none does. What they
mean need not be the same.
-/

namespace EventFold

def Value.isDefinite : Value → Bool
  | number x => !x.isNaN
  | _ => true

theorem Value.agrees_self {v : Value} (h : v.isDefinite = true) : v.agrees v = true := by
  cases v with
  | null => rfl
  | bool b => simp [agrees]
  | number x => exact Number.beq_self (by simpa [isDefinite] using h)
  | text s => simp [agrees]

namespace Form

mutual

/-- Whether no NaN is written in the form. -/
def isDefinite : Form → Bool
  | atom v => v.isDefinite
  | list items => areDefinite items

def areDefinite : List Form → Bool
  | [] => true
  | f :: fs => isDefinite f && areDefinite fs

end

mutual

theorem agrees_self : ∀ {f : Form}, f.isDefinite = true → f.agrees f = true
  | atom _, h => Value.agrees_self h
  | list _, h => agreesAll_self h

theorem agreesAll_self : ∀ {fs : List Form}, areDefinite fs = true → agreesAll fs fs = true
  | [], _ => rfl
  | _ :: _, h => by
    rw [areDefinite, Bool.and_eq_true] at h
    rw [agreesAll, Bool.and_eq_true]
    exact ⟨agrees_self h.1, agreesAll_self h.2⟩

end

theorem length_eq_of_agreesAll : ∀ {fs gs : List Form}, agreesAll fs gs = true → fs.length = gs.length
  | [], [], _ => rfl
  | _ :: _, _ :: _, h => by
    rw [agreesAll, Bool.and_eq_true] at h
    rw [List.length_cons, List.length_cons, length_eq_of_agreesAll h.2]

theorem exists_rule_of_length {rule : Rule} {es : List Expr} (h : es.length = rule.exprs.length) :
    ∃ rule' : Rule, rule'.kind = rule.kind ∧ rule'.exprs = es := by
  cases rule with
  | selectIf c v =>
    match es with
    | [c', v'] => exact ⟨.selectIf c' v', rfl, rfl⟩
  | funnel steps => exact ⟨.funnel es, rfl, rfl⟩
  | stateMachine states => exact ⟨.stateMachine es, rfl, rfl⟩

variable {names : Vocabulary}

theorem eq_text_of_agrees {s : String} {g : Form} (h : (atom (.text s)).agrees g = true) :
    g = atom (.text s) := by
  cases g with
  | list _ => cases h
  | atom v =>
    cases v with
    | text t => rw [show s = t from by simpa [agrees, Value.agrees] using h]
    | _ => cases h

theorem readHead_of_agrees {f g : Form} (h : f.agrees g = true) {count : Nat} {head : Head}
    (hf : readHead f count = .ok head) : readHead g count = .ok head := by
  cases f with
  | list _ => cases hf
  | atom v =>
    cases v with
    | text s => rw [eq_text_of_agrees h, hf]
    | _ => cases hf

mutual

/-- Agreeing forms are expressions together, as a number is a constant whichever it is. -/
theorem toExpr_of_agrees : ∀ {f g : Form} {e : Expr}, f.agrees g = true →
    f.toExpr names = .ok e → ∃ e', g.toExpr names = .ok e'
  | atom (.text s), g, e, h, hf => by
    rw [eq_text_of_agrees h]
    exact ⟨e, hf⟩
  | atom .null, atom .null, _, _, _ => ⟨_, rfl⟩
  | atom (.bool _), atom (.bool _), _, _, _ => ⟨_, rfl⟩
  | atom (.number _), atom (.number _), _, _, _ => ⟨_, rfl⟩
  | list [], list [], _, _, hf => by cases hf
  | list (head :: rest), list (head' :: rest'), e, h, hf => by
    rw [agrees, agreesAll, Bool.and_eq_true] at h
    obtain ⟨hhead, hrest⟩ := h
    obtain ⟨what, hr, es, hes, -⟩ := toExpr_cons_eq_ok_iff.mp hf
    obtain ⟨es', hes'⟩ := toExprs_of_agrees hrest hes
    have hr' := readHead_of_agrees hhead hr
    rw [length_eq_of_agreesAll hrest] at hr'
    exact ⟨_, toExpr_cons_eq_ok_iff.mpr ⟨what, hr', es', hes', rfl⟩⟩

theorem toExprs_of_agrees : ∀ {fs gs : List Form} {es : List Expr}, agreesAll fs gs = true →
    toExprs names fs = .ok es → ∃ es', toExprs names gs = .ok es'
  | [], [], _, _, _ => ⟨_, rfl⟩
  | f :: fs, g :: gs, es, h, hf => by
    rw [agreesAll, Bool.and_eq_true] at h
    obtain ⟨e, he, tail, htail, -⟩ := toExprs_cons_eq_ok_iff.mp hf
    obtain ⟨e', he'⟩ := toExpr_of_agrees h.1 he
    obtain ⟨tail', htail'⟩ := toExprs_of_agrees h.2 htail
    exact ⟨_, toExprs_cons_eq_ok_iff.mpr ⟨e', he', tail', htail', rfl⟩⟩

end

theorem toRule_of_agrees {f g : Form} {rule : Rule} (h : f.agrees g = true)
    (hf : f.toRule names = .ok rule) : ∃ rule', g.toRule names = .ok rule' := by
  obtain ⟨rest, rfl, hne, hes⟩ := toRule_eq_ok_iff.mp hf
  cases g with
  | atom _ => cases h
  | list items =>
    cases items with
    | nil => cases h
    | cons head rest' =>
      rw [agrees, agreesAll, Bool.and_eq_true] at h
      obtain ⟨hhead, hrest⟩ := h
      obtain ⟨es, hes'⟩ := toExprs_of_agrees hrest hes
      have hlen := length_eq_of_agreesAll hrest
      have hes'len := length_of_toExprs hes'
      have heslen := length_of_toExprs hes
      have hcount : es.length = rule.exprs.length := by omega
      obtain ⟨rule', hkind, rfl⟩ := exists_rule_of_length hcount
      refine ⟨rule', toRule_eq_ok_iff.mpr ⟨rest', ?_, ?_, hes'⟩⟩
      · rw [eq_text_of_agrees hhead, hkind]
      · intro hnil
        rw [hnil] at hlen
        exact hne (List.length_eq_zero_iff.mp hlen)

end Form

end EventFold
