import EventFold.Proofs.Form.Agreement

/-!
# Forms up to the signs of zeros

Agreeing forms are one form up to the signs of the zeros that are written in it, and so are the expressions and
rules that they are read as: reading copies constants and looks at none of them.
-/

namespace EventFold

def Value.unsigned : Value → Value
  | number x => number x.unsigned
  | v => v

def Value.isZero : Value → Bool
  | number x => x == 0
  | _ => false

theorem Value.unsigned_eq_of_agrees {v w : Value} (h : v.agrees w = true) : v.unsigned = w.unsigned := by
  cases v with
  | null => cases w <;> first | rfl | cases h
  | bool a =>
    cases w with
    | bool b => rw [show a = b from eq_of_beq h]
    | _ => cases h
  | number x =>
    cases w with
    | number y => rw [unsigned, unsigned, Number.unsigned_eq_of_beq h]
    | _ => cases h
  | text s =>
    cases w with
    | text t => rw [show s = t from eq_of_beq h]
    | _ => cases h

theorem Value.eq_of_unsigned_eq {v w : Value} (h : v.unsigned = w.unsigned) (hw : w.isZero = false) :
    v = w := by
  cases w with
  | number y =>
    cases v with
    | number x => rw [Number.eq_of_unsigned_eq (Value.number.inj h) hw]
    | _ => cases h
  | _ =>
    cases v with
    | number x => cases h
    | _ => exact h

namespace Form

mutual

/-- The form without the signs of zeros. -/
def unsigned : Form → Form
  | atom v => atom v.unsigned
  | list items => list (unsignedAll items)

def unsignedAll : List Form → List Form
  | [] => []
  | f :: fs => unsigned f :: unsignedAll fs

end

mutual

/-- Whether a zero is written in the form. -/
def hasZero : Form → Bool
  | atom v => v.isZero
  | list items => haveZero items

def haveZero : List Form → Bool
  | [] => false
  | f :: fs => hasZero f || haveZero fs

end

mutual

theorem unsigned_eq_of_agrees : ∀ {f g : Form}, f.agrees g = true → f.unsigned = g.unsigned
  | atom _, atom _, h => by rw [unsigned, unsigned, Value.unsigned_eq_of_agrees h]
  | list _, list _, h => by rw [unsigned, unsigned, unsignedAll_eq_of_agreesAll h]

theorem unsignedAll_eq_of_agreesAll : ∀ {fs gs : List Form}, agreesAll fs gs = true →
    unsignedAll fs = unsignedAll gs
  | [], [], _ => rfl
  | _ :: _, _ :: _, h => by
    rw [agreesAll, Bool.and_eq_true] at h
    rw [unsignedAll, unsignedAll, unsigned_eq_of_agrees h.1, unsignedAll_eq_of_agreesAll h.2]

end

mutual

theorem eq_of_unsigned_eq : ∀ {f g : Form}, f.unsigned = g.unsigned → g.hasZero = false → f = g
  | atom _, atom _, h, hg => by rw [Value.eq_of_unsigned_eq (Form.atom.inj h) hg]
  | list _, list _, h, hg => by rw [eq_of_unsignedAll_eq (Form.list.inj h) hg]
  | atom _, list _, h, _ => by cases h
  | list _, atom _, h, _ => by cases h

theorem eq_of_unsignedAll_eq : ∀ {fs gs : List Form}, unsignedAll fs = unsignedAll gs →
    haveZero gs = false → fs = gs
  | [], [], _, _ => rfl
  | [], _ :: _, h, _ => by cases h
  | _ :: _, [], h, _ => by cases h
  | _ :: _, _ :: _, h, hg => by
    obtain ⟨hf, hfs⟩ := List.cons.inj h
    rw [haveZero, Bool.or_eq_false_iff] at hg
    rw [eq_of_unsigned_eq hf hg.1, eq_of_unsignedAll_eq hfs hg.2]

end

end Form

namespace Expr

mutual

/-- The expression without the signs of zeros among its constants. -/
def unsigned : Expr → Expr
  | const v => const v.unsigned
  | .call function arguments => .call function (unsignedAll arguments)
  | choose condition yes no => choose (unsigned condition) (unsigned yes) (unsigned no)
  | apply op operands => apply op (unsignedAll operands)
  | e => e

def unsignedAll : List Expr → List Expr
  | [] => []
  | e :: es => unsigned e :: unsignedAll es

end

end Expr

def Rule.unsigned : Rule → Rule
  | selectIf condition value => selectIf condition.unsigned value.unsigned
  | funnel steps => funnel (Expr.unsignedAll steps)
  | stateMachine states => stateMachine (Expr.unsignedAll states)

theorem Rule.kind_unsigned (r : Rule) : r.unsigned.kind = r.kind := by
  cases r <;> rfl

theorem Rule.exprs_unsigned (r : Rule) : r.unsigned.exprs = Expr.unsignedAll r.exprs := by
  cases r <;> rfl

namespace Form

variable {names : Vocabulary}

theorem textExpr_unsigned {s : String} {e : Expr} (h : textExpr names s = .ok e) : e.unsigned = e := by
  unfold textExpr at h
  split at h
  · obtain ⟨n, -, rfl⟩ := map_eq_ok_iff.mp h
    rfl
  · obtain ⟨n, -, rfl⟩ := map_eq_ok_iff.mp h
    rfl
  · obtain ⟨n, -, rfl⟩ := map_eq_ok_iff.mp h
    rfl
  · split at h
    · cases h
      rfl
    · cases h
  · cases h
  · cases h
    rfl

theorem readHead_unsigned {head : Form} {count : Nat} {what : Head} (h : readHead head count = .ok what) :
    readHead head.unsigned count = .ok what := by
  cases head with
  | list _ => cases h
  | atom v =>
    cases v with
    | text s => exact h
    | _ => cases h

theorem length_unsignedAll : ∀ fs : List Form, (unsignedAll fs).length = fs.length
  | [] => rfl
  | _ :: fs => by rw [unsignedAll, List.length_cons, List.length_cons, length_unsignedAll fs]

theorem Head.expr_unsignedAll {what : Head} {es : List Expr} :
    what.expr (Expr.unsignedAll es) = (what.expr es).unsigned := by
  cases what with
  | call f => rfl
  | apply op => rfl
  | choose =>
    match es with
    | [] => rfl
    | [_] => rfl
    | [_, _] => rfl
    | [_, _, _] => rfl
    | _ :: _ :: _ :: _ :: _ => rfl

mutual

theorem toExpr_unsigned : ∀ {f : Form} {e : Expr}, toExpr names f = .ok e →
    toExpr names f.unsigned = .ok e.unsigned
  | atom (.text s), _, h => by
    have hread : textExpr names s = .ok _ := h
    rw [textExpr_unsigned hread]
    exact h
  | atom .null, _, h => by
    cases h
    rfl
  | atom (.bool _), _, h => by
    cases h
    rfl
  | atom (.number _), _, h => by
    cases h
    rfl
  | list [], _, h => by cases h
  | list (head :: rest), _, h => by
    obtain ⟨what, hhead, es, hes, rfl⟩ := toExpr_cons_eq_ok_iff.mp h
    rw [← length_unsignedAll] at hhead
    exact toExpr_cons_eq_ok_iff.mpr ⟨what, readHead_unsigned hhead, _, toExprs_unsigned hes,
      Head.expr_unsignedAll⟩

theorem toExprs_unsigned : ∀ {fs : List Form} {es : List Expr}, toExprs names fs = .ok es →
    toExprs names (unsignedAll fs) = .ok (Expr.unsignedAll es)
  | [], _, h => by
    cases h
    rfl
  | _ :: _, _, h => by
    obtain ⟨e, he, tail, htail, rfl⟩ := toExprs_cons_eq_ok_iff.mp h
    exact toExprs_cons_eq_ok_iff.mpr ⟨_, toExpr_unsigned he, _, toExprs_unsigned htail, rfl⟩

end

theorem toRule_unsigned {f : Form} {rule : Rule} (h : f.toRule names = .ok rule) :
    f.unsigned.toRule names = .ok rule.unsigned := by
  obtain ⟨rest, rfl, hne, hes⟩ := toRule_eq_ok_iff.mp h
  refine toRule_eq_ok_iff.mpr ⟨unsignedAll rest, ?_, ?_, ?_⟩
  · rw [Rule.kind_unsigned]
    rfl
  · intro hnil
    have hlen := length_unsignedAll rest
    rw [hnil] at hlen
    exact hne (List.length_eq_zero_iff.mp hlen.symm)
  · rw [Rule.exprs_unsigned]
    exact toExprs_unsigned hes

/-- Agreeing forms are read as one rule up to the signs of zeros. -/
theorem unsigned_eq_of_toRule {f g : Form} {r s : Rule} (h : f.agrees g = true)
    (hf : f.toRule names = .ok r) (hg : g.toRule names = .ok s) : r.unsigned = s.unsigned := by
  have hr := toRule_unsigned hf
  rw [unsigned_eq_of_agrees h, toRule_unsigned hg] at hr
  exact (Except.ok.inj hr).symm

end Form

end EventFold
