import EventFold.Proofs.Eval.Relevance
import EventFold.Proofs.Form.Grammar

/-!
# The forms of an expression

An expression has a form if each of its nodes can be written: names are known and not empty, an operator has
operands, a constant does not look like a reference. All forms of an expression differ in the spelling of
references alone. The table of a reference has two names in some cases, and an index can have a sign and zeros.
-/

namespace EventFold

namespace Expr

/-- Whether a node of an expression can be written, whatever its parts are. An index is a machine word. -/
def IsWritable (names : Vocabulary) : Expr → Prop
  | const (.text s) => ∀ beginning ∈ Form.beginnings, ∀ t, s ≠ beginning ++ t
  | const _ => True
  | property name => name ≠ "" ∧ names.property name = true
  | var name => name ≠ "" ∧ names.var name = true
  | aggregator name => name ≠ "" ∧ names.aggregator name = true
  | argument index => index ≤ Form.maxIndex
  | .call function _ => function ≠ ""
  | choose _ _ _ => True
  | apply _ operands => Operator.minOperands ≤ operands.length

mutual

/-- The form with the short names of tables and without superfluous characters in indices. -/
def form : Expr → Form
  | const v => .atom v
  | property name => .atom (.text ("event." ++ name))
  | var name => .atom (.text ("var." ++ name))
  | aggregator name => .atom (.text ("agg." ++ name))
  | argument index => .atom (.text ("arg." ++ String.ofList (Nat.toDigits 10 index)))
  | .call function arguments => .list (.atom (.text ("func." ++ function)) :: forms arguments)
  | choose condition yes no => .list [.atom (.text "if"), form condition, form yes, form no]
  | apply op operands => .list (.atom (.text op.keyword) :: forms operands)

def forms : List Expr → List Form
  | [] => []
  | e :: es => form e :: forms es

end

end Expr

namespace Form

variable {names : Vocabulary} {f : Form} {fs : List Form} {e : Expr} {es : List Expr}

theorem length_of_meanAll (h : MeanAll names fs es) : es.length = fs.length :=
  length_of_toExprs (toExprs_of_meanAll h)

section Image

mutual

theorem isWritable_of_means : ∀ {f : Form} {e : Expr}, Means names f e → ∀ node ∈ e.nodes, node.IsWritable names
  | _, _, .value (v := v) hv => by
    have hnode : (Expr.const v).IsWritable names := by
      cases v with
      | text s => exact absurd rfl (hv s)
      | _ => exact trivial
    exact List.forall_mem_singleton.mpr hnode
  | _, _, .text hplain => List.forall_mem_singleton.mpr hplain
  | _, _, .property hne hknown => List.forall_mem_singleton.mpr ⟨hne, hknown⟩
  | _, _, .var _ hne hknown => List.forall_mem_singleton.mpr ⟨hne, hknown⟩
  | _, _, .aggregator _ hne hknown => List.forall_mem_singleton.mpr ⟨hne, hknown⟩
  | _, _, .argument _ hn => List.forall_mem_singleton.mpr hn
  | _, _, .call hne hall => by
    rw [Expr.nodes, List.forall_mem_cons]
    exact ⟨hne, isWritable_of_meanAll hall⟩
  | _, _, .choose hc hy hn => by
    rw [Expr.nodes, List.forall_mem_cons, List.forall_mem_append, List.forall_mem_append]
    exact ⟨trivial, ⟨isWritable_of_means hc, isWritable_of_means hy⟩, isWritable_of_means hn⟩
  | _, .apply op es, .apply hlen hall => by
    have hoperands : (Expr.apply op es).IsWritable names := by
      rw [← length_of_meanAll hall] at hlen
      exact hlen
    rw [Expr.nodes, List.forall_mem_cons]
    exact ⟨hoperands, isWritable_of_meanAll hall⟩

theorem isWritable_of_meanAll : ∀ {fs : List Form} {es : List Expr}, MeanAll names fs es →
    ∀ node ∈ Expr.nodesAll es, node.IsWritable names
  | _, _, .nil => by simp [Expr.nodesAll]
  | _, _, .cons he htail => by
    rw [Expr.nodesAll, List.forall_mem_append]
    exact ⟨isWritable_of_means he, isWritable_of_meanAll htail⟩

end

mutual

theorem means_form : ∀ (e : Expr), (∀ node ∈ e.nodes, node.IsWritable names) → Means names e.form e
  | .const v, h => by
    have hv := h (.const v) (List.mem_singleton.mpr rfl)
    cases v with
    | text s => exact .text hv
    | _ => exact .value (by simp)
  | .property name, h =>
    have ⟨hne, hknown⟩ := h (.property name) (List.mem_singleton.mpr rfl)
    .property hne hknown
  | .var name, h =>
    have ⟨hne, hknown⟩ := h (.var name) (List.mem_singleton.mpr rfl)
    .var (List.mem_cons_self ..) hne hknown
  | .aggregator name, h =>
    have ⟨hne, hknown⟩ := h (.aggregator name) (List.mem_singleton.mpr rfl)
    .aggregator (List.mem_cons_self ..) hne hknown
  | .argument index, h => by
    have hle := h (.argument index) (List.mem_singleton.mpr rfl)
    refine .argument ?_ hle
    rw [String.toList_ofList]
    exact Text.spells_toDigits index
  | .call function arguments, h => by
    rw [Expr.nodes, List.forall_mem_cons] at h
    exact .call h.1 (meanAll_forms arguments h.2)
  | .choose condition yes no, h => by
    rw [Expr.nodes, List.forall_mem_cons, List.forall_mem_append, List.forall_mem_append] at h
    obtain ⟨-, ⟨hc, hy⟩, hn⟩ := h
    exact .choose (means_form condition hc) (means_form yes hy) (means_form no hn)
  | .apply op operands, h => by
    rw [Expr.nodes, List.forall_mem_cons] at h
    have hall := meanAll_forms operands h.2
    have hlen : 2 ≤ (Expr.forms operands).length := by
      rw [← length_of_meanAll hall]
      exact h.1
    exact .apply hlen hall

theorem meanAll_forms : ∀ (es : List Expr), (∀ node ∈ Expr.nodesAll es, node.IsWritable names) →
    MeanAll names (Expr.forms es) es
  | [], _ => .nil
  | e :: es, h => by
    rw [Expr.nodesAll, List.forall_mem_append] at h
    exact .cons (means_form e h.1) (meanAll_forms es h.2)

end

theorem exists_toExpr_iff : (∃ f : Form, f.toExpr names = .ok e) ↔ ∀ node ∈ e.nodes, node.IsWritable names := by
  constructor
  · rintro ⟨f, hf⟩
    exact isWritable_of_means (toExpr_eq_ok_iff.mp hf)
  · intro h
    exact ⟨e.form, toExpr_eq_ok_iff.mpr (means_form e h)⟩

end Image

section Spellings

variable {g : Form} {gs : List Form}

mutual

/-- Two forms that are equal up to the spelling of references. -/
inductive Respelled : Form → Form → Prop where
  | same (v : Value) : Respelled (atom v) (atom v)
  | var {first second : String} (name : String) : first ∈ ["var.", "variables."] →
    second ∈ ["var.", "variables."] → Respelled (atom (.text (first ++ name))) (atom (.text (second ++ name)))
  | aggregator {first second : String} (name : String) : first ∈ ["agg.", "aggregators."] →
    second ∈ ["agg.", "aggregators."] → Respelled (atom (.text (first ++ name))) (atom (.text (second ++ name)))
  | argument {first second : String} {n : Nat} : Text.Spells first.toList n → Text.Spells second.toList n →
    Respelled (atom (.text ("arg." ++ first))) (atom (.text ("arg." ++ second)))
  | list (head : Form) {fs gs : List Form} : RespelledAll fs gs → Respelled (list (head :: fs)) (list (head :: gs))

inductive RespelledAll : List Form → List Form → Prop where
  | nil : RespelledAll [] []
  | cons {f g : Form} {fs gs : List Form} : Respelled f g → RespelledAll fs gs → RespelledAll (f :: fs) (g :: gs)

end

theorem length_of_respelledAll : ∀ {fs gs : List Form}, RespelledAll fs gs → fs.length = gs.length
  | _, _, .nil => rfl
  | _, _, .cons _ htail => by rw [List.length_cons, List.length_cons, length_of_respelledAll htail]

mutual

/-- The expression decides how either form is built, and the names in it. -/
theorem respelled_of_means : ∀ {f g : Form} {e : Expr}, Means names f e → Means names g e → Respelled f g
  | _, _, _, .value _, .value _ => .same _
  | _, _, _, .value hv, .text _ => absurd rfl (hv _)
  | _, _, _, .text _, .value hv => absurd rfl (hv _)
  | _, _, _, .text _, .text _ => .same _
  | _, _, _, .property _ _, .property _ _ => .same _
  | _, _, _, .var hfirst _ _, .var hsecond _ _ => .var _ hfirst hsecond
  | _, _, _, .aggregator hfirst _ _, .aggregator hsecond _ _ => .aggregator _ hfirst hsecond
  | _, _, _, .argument hfirst _, .argument hsecond _ => .argument hfirst hsecond
  | _, _, _, .call _ hfs, .call _ hgs => .list _ (respelledAll_of_meanAll hfs hgs)
  | _, _, _, .choose hc hy hn, .choose hc' hy' hn' =>
    .list _ (.cons (respelled_of_means hc hc') (.cons (respelled_of_means hy hy')
      (.cons (respelled_of_means hn hn') .nil)))
  | _, _, _, .apply _ hfs, .apply _ hgs => .list _ (respelledAll_of_meanAll hfs hgs)

theorem respelledAll_of_meanAll : ∀ {fs gs : List Form} {es : List Expr}, MeanAll names fs es →
    MeanAll names gs es → RespelledAll fs gs
  | _, _, _, .nil, .nil => .nil
  | _, _, _, .cons hf hfs, .cons hg hgs => .cons (respelled_of_means hf hg) (respelledAll_of_meanAll hfs hgs)

end

mutual

theorem toExpr_of_respelled : ∀ {f g : Form} {e : Expr}, Respelled f g → f.toExpr names = .ok e →
    g.toExpr names = .ok e
  | _, _, _, .same _, h => h
  | _, _, _, .var name hfirst hsecond, h => by
    rw [toExpr, textExpr_var hfirst] at h
    rw [toExpr, textExpr_var hsecond, h]
  | _, _, _, .aggregator name hfirst hsecond, h => by
    rw [toExpr, textExpr_aggregator hfirst] at h
    rw [toExpr, textExpr_aggregator hsecond, h]
  -- a number beyond the machine word is refused in every spelling
  | _, _, _, .argument (n := n) hfirst hsecond, h => by
    by_cases hn : n ≤ maxIndex
    · exact (textExpr_argument_of_spells hsecond hn).trans ((textExpr_argument_of_spells hfirst hn).symm.trans h)
    · have hnone : ∀ m ≤ maxIndex, ¬ Text.Spells _ m := fun m hm hspells => hn (hfirst.unique hspells ▸ hm)
      cases (textExpr_of_noIndex hnone).symm.trans h
  | _, _, _, .list head hall, h => by
    obtain ⟨what, hr, es, hes, rfl⟩ := toExpr_cons_eq_ok_iff.mp h
    rw [length_of_respelledAll hall] at hr
    exact toExpr_cons_of_readHead hr (toExprs_of_respelledAll hall hes)

theorem toExprs_of_respelledAll : ∀ {fs gs : List Form} {es : List Expr}, RespelledAll fs gs →
    toExprs names fs = .ok es → toExprs names gs = .ok es
  | _, _, _, .nil, h => h
  | _, _, _, .cons hfirst htail, h => by
    obtain ⟨e, he, es, hes, rfl⟩ := toExprs_cons_eq_ok_iff.mp h
    exact toExprs_cons_eq_ok_iff.mpr
      ⟨e, toExpr_of_respelled hfirst he, es, toExprs_of_respelledAll htail hes, rfl⟩

end

/-- The expressions that have a form are those whose nodes can all be written, and the forms of one expression
are those that its forms can be respelled to. -/
theorem image_and_spelling (names : Vocabulary) (e : Expr) :
    ((∃ f : Form, f.toExpr names = .ok e) ↔ ∀ node ∈ e.nodes, node.IsWritable names) ∧
      ∀ f g : Form, f.toExpr names = .ok e → (g.toExpr names = .ok e ↔ Respelled f g) :=
  ⟨exists_toExpr_iff, fun _ _ hf =>
    ⟨fun hg => respelled_of_means (toExpr_eq_ok_iff.mp hf) (toExpr_eq_ok_iff.mp hg),
      fun hrespelled => toExpr_of_respelled hrespelled hf⟩⟩

/-- A choice between what is called and an aggregator. -/
def chosen : Expr := .choose (.var "x") (.call "f" [.argument 7]) (.aggregator "a")

def longForm : Form :=
  list [atom (.text "if"), atom (.text "variables.x"), list [atom (.text "func.f"), atom (.text "arg.+007")],
    atom (.text "aggregators.a")]

def shortForm : Form :=
  list [atom (.text "if"), atom (.text "var.x"), list [atom (.text "func.f"), atom (.text "arg.7")],
    atom (.text "agg.a")]

theorem form_chosen : chosen.form = shortForm := by decide +kernel

theorem means_longForm : Means .any longForm chosen := by
  have hvar : Means .any (atom (.text ("variables." ++ "x"))) (.var "x") := .var (by decide) (by decide) rfl
  have hspells : Text.Spells "+007".toList 7 := Text.natural?_eq_some_iff.mp (by decide +kernel)
  have hargument : Means .any (atom (.text ("arg." ++ "+007"))) (.argument 7) := .argument hspells (by decide)
  have hcall : Means .any (list [atom (.text ("func." ++ "f")), atom (.text ("arg." ++ "+007"))])
      (.call "f" [.argument 7]) := .call (by decide) (.cons hargument .nil)
  have haggregator : Means .any (atom (.text ("aggregators." ++ "a"))) (.aggregator "a") :=
    .aggregator (by decide) (by decide) rfl
  exact .choose hvar hcall haggregator

theorem image_and_spelling_chosen : longForm.toExpr .any = .ok chosen ∧
    (∀ node ∈ chosen.nodes, node.IsWritable .any) ∧ shortForm.toExpr .any = .ok chosen ∧
    Respelled longForm shortForm := by
  obtain ⟨himage, hspelling⟩ := image_and_spelling .any chosen
  have hlong : longForm.toExpr .any = .ok chosen := toExpr_of_means means_longForm
  have hwritable := himage.mp ⟨longForm, hlong⟩
  have hshort : shortForm.toExpr .any = .ok chosen := by
    rw [← form_chosen]
    exact toExpr_of_means (means_form chosen hwritable)
  exact ⟨hlong, hwritable, hshort, (hspelling longForm shortForm hlong).mp hshort⟩

end Spellings

end Form

end EventFold
