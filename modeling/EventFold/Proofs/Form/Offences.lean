import EventFold.Proofs.Form.Words

/-!
# Offences

The nodes of a form are visited in pre-order, a list before its elements and these from left to right. A node can
offend by itself, whatever stands within it. A form is an expression if no node offends, and otherwise it is none
for the reason that the first node gives that does.

An aggregator has a tag in the place of a head. Its own offences come before those of the nodes behind its tag.
-/

namespace EventFold.Form

mutual

/-- The nodes of a form in pre-order. The head of a list is no node. -/
def nodes : Form → List Form
  | list (head :: rest) => list (head :: rest) :: nodesAll rest
  | f => [f]

def nodesAll : List Form → List Form
  | [] => []
  | f :: fs => nodes f ++ nodesAll fs

end

/-- The offences of single nodes, each with its error. -/
inductive Offends (names : Vocabulary) : Form → FormError → Prop where
  | emptyList : Offends names (list []) .emptyForm
  | headNotText {head : Form} {rest : List Form} : (∀ s, head ≠ atom (.text s)) →
    Offends names (list (head :: rest)) (.unexpectedHead head)
  | unknownHead {s : String} {rest : List Form} : (∀ name, s ≠ "func." ++ name) → s ≠ "if" →
    (∀ op : Operator, s ≠ op.keyword) →
    Offends names (list (atom (.text s) :: rest)) (.unexpectedHead (atom (.text s)))
  | namelessCall {rest : List Form} :
    Offends names (list (atom (.text "func.") :: rest)) (.unknownName .function "")
  | choiceArity {rest : List Form} : rest.length ≠ 3 →
    Offends names (list (atom (.text "if") :: rest)) (.arity "if" 3 rest.length)
  | operatorArity {op : Operator} {rest : List Form} : rest.length < 2 →
    Offends names (list (atom (.text op.keyword) :: rest)) (.arity op.keyword 2 rest.length)
  | unknownProperty {name : String} : name = "" ∨ names.property name = false →
    Offends names (atom (.text ("event." ++ name))) (.unknownName .property name)
  | unknownVar {beginning name : String} : beginning ∈ ["var.", "variables."] →
    name = "" ∨ names.var name = false →
    Offends names (atom (.text (beginning ++ name))) (.unknownName .var name)
  | unknownAggregator {beginning name : String} : beginning ∈ ["agg.", "aggregators."] →
    name = "" ∨ names.aggregator name = false →
    Offends names (atom (.text (beginning ++ name))) (.unknownName .aggregator name)
  | argumentIndex {index : String} : (∀ n ≤ maxIndex, ¬ Text.Spells index.toList n) →
    Offends names (atom (.text ("arg." ++ index))) (.argumentIndex ("arg." ++ index))
  | functionOutsideCall {name : String} :
    Offends names (atom (.text ("func." ++ name))) (.functionOutsideCall ("func." ++ name))

/-- The error of the first node that offends. -/
def FirstOffence (names : Vocabulary) (nodes : List Form) (error : FormError) : Prop :=
  ∃ before node after, nodes = before ++ node :: after ∧ (∀ g ∈ before, ∀ e, ¬ Offends names g e) ∧
    Offends names node error

variable {names : Vocabulary} {f : Form} {fs : List Form} {s : String} {error : FormError}

section SingleNodes

theorem offends_text_iff : Offends names (atom (.text s)) error ↔ textExpr names s = .error error := by
  constructor
  · intro h
    generalize hnode : atom (.text s) = node at h
    cases h with
    | unknownProperty hname =>
      cases hnode
      rw [textExpr_property, if_pos hname]
    | unknownVar hbeginning hname =>
      cases hnode
      rw [textExpr_var hbeginning, if_pos hname]
    | unknownAggregator hbeginning hname =>
      cases hnode
      rw [textExpr_aggregator hbeginning, if_pos hname]
    | argumentIndex hindex =>
      cases hnode
      exact textExpr_of_noIndex hindex
    | functionOutsideCall =>
      cases hnode
      exact textExpr_function _
    | _ => cases hnode
  · intro h
    cases elementWord s with
    | property name =>
      rw [textExpr_property, ite_error_eq_error_iff] at h
      obtain ⟨hname, rfl⟩ := h
      exact .unknownProperty hname
    | var hbeginning name =>
      rw [textExpr_var hbeginning, ite_error_eq_error_iff] at h
      obtain ⟨hname, rfl⟩ := h
      exact .unknownVar hbeginning hname
    | aggregator hbeginning name =>
      rw [textExpr_aggregator hbeginning, ite_error_eq_error_iff] at h
      obtain ⟨hname, rfl⟩ := h
      exact .unknownAggregator hbeginning hname
    | argument hspells hn => cases (textExpr_argument_of_spells hspells hn).symm.trans h
    | noIndex hindex =>
      cases (textExpr_of_noIndex hindex).symm.trans h
      exact .argumentIndex hindex
    | function name =>
      cases (textExpr_function name).symm.trans h
      exact .functionOutsideCall
    | plain hplain => cases (textExpr_plain hplain).symm.trans h

theorem offends_atom_iff {v : Value} :
    Offends names (atom v) error ↔ (atom v).toExpr names = .error error := by
  cases v with
  | text s => exact offends_text_iff
  | _ =>
    constructor
    · intro h
      cases h
    · intro h
      cases h

theorem offends_nil_iff : Offends names (list []) error ↔ (list []).toExpr names = .error error := by
  constructor
  · rintro ⟨⟩
    rfl
  · intro h
    cases h
    exact .emptyList

theorem offends_cons_iff {head : Form} {rest : List Form} :
    Offends names (list (head :: rest)) error ↔ readHead head rest.length = .error error := by
  constructor
  · intro h
    cases h with
    | headNotText hhead => exact readHead_of_not_text hhead _
    | unknownHead hcall hif hkeyword => exact readHead_unknown hcall hif hkeyword _
    | namelessCall => exact readHead_call "" _
    | choiceArity hlen => rw [readHead_if, if_pos hlen]
    | operatorArity hlen => rw [readHead_keyword, if_pos hlen]
  · intro h
    cases headWord head with
    | call name =>
      rw [readHead_call, ite_error_eq_error_iff] at h
      obtain ⟨rfl, rfl⟩ := h
      exact .namelessCall
    | choose =>
      rw [readHead_if, ite_error_eq_error_iff] at h
      obtain ⟨hlen, rfl⟩ := h
      exact .choiceArity hlen
    | keyword op =>
      rw [readHead_keyword, ite_error_eq_error_iff] at h
      obtain ⟨hlen, rfl⟩ := h
      exact .operatorArity hlen
    | unknown hcall hif hkeyword =>
      cases (readHead_unknown hcall hif hkeyword _).symm.trans h
      exact .unknownHead hcall hif hkeyword
    | notText hhead =>
      cases (readHead_of_not_text hhead _).symm.trans h
      exact .headNotText hhead

end SingleNodes

section FirstNode

variable {more : List Form}

theorem firstOffence_cons_iff : FirstOffence names (f :: fs) error ↔
    Offends names f error ∨ (∀ e, ¬ Offends names f e) ∧ FirstOffence names fs error := by
  constructor
  · rintro ⟨before, node, after, heq, hbefore, hnode⟩
    cases before with
    | nil =>
      cases heq
      exact .inl hnode
    | cons g before =>
      cases heq
      exact .inr ⟨hbefore f List.mem_cons_self, before, node, after, rfl,
        fun g hg => hbefore g (List.mem_cons_of_mem f hg), hnode⟩
  · rintro (h | ⟨hf, before, node, after, rfl, hbefore, hnode⟩)
    · exact ⟨[], f, fs, rfl, by simp, h⟩
    · refine ⟨f :: before, node, after, rfl, ?_, hnode⟩
      intro g hg
      rcases List.mem_cons.mp hg with rfl | hmem
      · exact hf
      · exact hbefore g hmem

theorem firstOffence_append_iff : FirstOffence names (fs ++ more) error ↔
    FirstOffence names fs error ∨ (∀ g ∈ fs, ∀ e, ¬ Offends names g e) ∧ FirstOffence names more error := by
  induction fs with
  | nil => simp [FirstOffence]
  | cons f rest ih =>
    rw [List.cons_append, firstOffence_cons_iff, firstOffence_cons_iff, ih, List.forall_mem_cons, and_or_left,
      or_assoc, and_assoc]

theorem forall_not_firstOffence_iff : (∀ e, ¬ FirstOffence names fs e) ↔ ∀ g ∈ fs, ∀ e, ¬ Offends names g e := by
  induction fs with
  | nil => simp [FirstOffence]
  | cons f rest ih =>
    simp only [firstOffence_cons_iff, List.forall_mem_cons, ← ih, not_or, not_and]
    constructor
    · intro h
      have hf : ∀ e, ¬ Offends names f e := fun e => (h e).1
      exact ⟨hf, fun e => (h e).2 hf⟩
    · rintro ⟨hf, hrest⟩ e
      exact ⟨hf e, fun _ => hrest e⟩

theorem firstOffence_singleton_iff : FirstOffence names [f] error ↔ Offends names f error := by
  rw [firstOffence_cons_iff]
  constructor
  · rintro (h | ⟨-, before, node, after, heq, -, -⟩)
    · exact h
    · cases before <;> cases heq
  · exact .inl

theorem not_firstOffence_nil : ¬ FirstOffence names [] error := by
  rintro ⟨before, node, after, heq, -, -⟩
  cases before <;> cases heq

end FirstNode

section Expressions

mutual

/-- A list is judged before its elements, as a node comes before those within it. -/
theorem toExpr_eq_error_iff : ∀ {f : Form} {error : FormError},
    f.toExpr names = .error error ↔ FirstOffence names f.nodes error
  | atom v, error => by
    rw [show nodes (atom v) = [atom v] from rfl, firstOffence_singleton_iff, offends_atom_iff]
  | list [], error => by
    rw [show nodes (list []) = [list []] from rfl, firstOffence_singleton_iff, offends_nil_iff]
  | list (head :: rest), error => by
    rw [nodes, firstOffence_cons_iff, toExpr_cons, bind_eq_error_iff, offends_cons_iff]
    simp only [map_eq_error_iff, offends_cons_iff, toExprs_eq_error_iff, exists_and_right, isOk_iff, ne_eq]

theorem toExprs_eq_error_iff : ∀ {fs : List Form} {error : FormError},
    toExprs names fs = .error error ↔ FirstOffence names (nodesAll fs) error
  | [], error => by
    constructor
    · intro h
      cases h
    · exact fun h => absurd h not_firstOffence_nil
  | f :: fs, error => by
    rw [nodesAll, firstOffence_append_iff, toExprs_cons, bind_eq_error_iff]
    simp only [map_eq_error_iff, toExpr_eq_error_iff, toExprs_eq_error_iff, exists_and_right, isOk_iff, ne_eq,
      forall_not_firstOffence_iff]

end

theorem toExpr_isOk_iff : (∃ e, f.toExpr names = .ok e) ↔ ∀ g ∈ f.nodes, ∀ error, ¬ Offends names g error := by
  simp only [isOk_iff, ne_eq, toExpr_eq_error_iff, forall_not_firstOffence_iff]

end Expressions

section Aggregators

/-- The offences of a form that is to be an aggregator, apart from those of the expressions in it. -/
inductive RuleOffends : Form → FormError → Prop where
  | notList {v : Value} : RuleOffends (atom v) (.aggregatorNotList (atom v))
  | emptyList : RuleOffends (list []) .emptyForm
  | tagNotText {head : Form} {rest : List Form} : (∀ s, head ≠ atom (.text s)) →
    RuleOffends (list (head :: rest)) (.aggregatorKindNotText head)
  | unknownTag {tag : String} {rest : List Form} : (∀ kind : AggregatorKind, tag ≠ kind.tag) →
    RuleOffends (list (atom (.text tag) :: rest)) (.unknownAggregatorKind tag)
  | selectionArity {rest : List Form} : rest.length ≠ 2 →
    RuleOffends (list (atom (.text AggregatorKind.selectIf.tag) :: rest))
      (.arity AggregatorKind.selectIf.tag 2 rest.length)
  | noExpressions {kind : AggregatorKind} : kind ≠ .selectIf →
    RuleOffends (list [atom (.text kind.tag)]) (.arity kind.tag 1 0)

/-- The elements of a list behind its first one. -/
def behind : Form → List Form
  | list (_ :: rest) => rest
  | _ => []

variable {kind : AggregatorKind} {rest : List Form}

/-- The kind has rules of so many expressions. -/
def HasRules : AggregatorKind → Nat → Prop
  | .selectIf, count => count = 2
  | _, count => count ≠ 0

theorem readRule_eq_error_iff (h : HasRules kind rest.length) :
    readRule names kind rest = .error error ↔ toExprs names rest = .error error := by
  cases kind with
  | selectIf =>
    match rest, h with
    | [c, v], _ =>
      change (toExpr names c).bind (fun c => (toExpr names v).map (Rule.selectIf c)) = .error error ↔ _
      have hnil : toExprs names [] ≠ .error error := by
        intro h
        cases h
      simp only [toExprs_cons, bind_eq_error_iff, map_eq_error_iff, hnil, and_false, exists_false, or_false]
  | funnel =>
    cases rest with
    | nil => exact absurd rfl h
    | cons f fs => exact map_eq_error_iff
  | stateMachine =>
    cases rest with
    | nil => exact absurd rfl h
    | cons f fs => exact map_eq_error_iff

theorem toRule_of_ruleOffends (h : RuleOffends f error) : f.toRule names = .error error := by
  cases h with
  | notList => rfl
  | emptyList => rfl
  | @tagNotText head rest hhead =>
    cases head with
    | list items => rfl
    | atom v =>
      cases v with
      | text tag => exact absurd rfl (hhead tag)
      | _ => rfl
  | unknownTag htag => rw [toRule, AggregatorKind.ofTag?_eq_none_iff.mpr htag]
  | @selectionArity rest hlen =>
    rw [toRule, AggregatorKind.ofTag?_tag]
    rcases rest with _ | ⟨c, _ | ⟨v, _ | ⟨f, fs⟩⟩⟩
    · rfl
    · rfl
    · exact absurd rfl hlen
    · rfl
  | @noExpressions kind hkind =>
    rw [toRule, AggregatorKind.ofTag?_tag]
    cases kind <;> first | rfl | exact absurd rfl hkind

/-- What is left if a form does not offend by itself. -/
theorem exists_kind_of_not_ruleOffends (h : ∀ e, ¬ RuleOffends f e) :
    ∃ kind rest, f = list (atom (.text kind.tag) :: rest) ∧ HasRules kind rest.length := by
  match f with
  | atom v => exact absurd .notList (h _)
  | list [] => exact absurd .emptyList (h _)
  | list (head :: rest) =>
    by_cases htext : ∃ tag, head = atom (.text tag)
    · obtain ⟨tag, rfl⟩ := htext
      by_cases hkind : ∃ kind : AggregatorKind, tag = kind.tag
      · obtain ⟨kind, rfl⟩ := hkind
        refine ⟨kind, rest, rfl, ?_⟩
        have hempty (hselect : kind ≠ .selectIf) : rest.length ≠ 0 := by
          intro hlen
          rw [List.length_eq_zero_iff] at hlen
          subst hlen
          exact h _ (.noExpressions hselect)
        cases kind with
        | selectIf => exact Classical.byContradiction fun hlen => h _ (.selectionArity hlen)
        | funnel => exact hempty (by simp)
        | stateMachine => exact hempty (by simp)
      · exact absurd (.unknownTag (not_exists.mp hkind)) (h _)
    · exact absurd (.tagNotText (not_exists.mp htext)) (h _)

theorem toRule_eq_error_iff : f.toRule names = .error error ↔
    RuleOffends f error ∨ (∀ e, ¬ RuleOffends f e) ∧ FirstOffence names (nodesAll f.behind) error := by
  by_cases hoffends : ∃ e, RuleOffends f e
  · obtain ⟨e, he⟩ := hoffends
    rw [toRule_of_ruleOffends he]
    constructor
    · rintro ⟨⟩
      exact .inl he
    · rintro (h | ⟨hnone, -⟩)
      · have hsame : f.toRule names = .error error := toRule_of_ruleOffends h
        exact (toRule_of_ruleOffends he).symm.trans hsame
      · exact absurd he (hnone e)
  · have hnone := not_exists.mp hoffends
    obtain ⟨kind, rest, rfl, hrules⟩ := exists_kind_of_not_ruleOffends hnone
    rw [toRule, AggregatorKind.ofTag?_tag]
    simp only [readRule_eq_error_iff hrules, toExprs_eq_error_iff, behind, hnone, not_false_eq_true, implies_true,
      true_and, false_or]

/-- Reading accepts a form if no node of it offends, and otherwise gives the error of the first one that does. An
aggregator is judged by its own offences first and then by those of the nodes behind its tag. -/
theorem reading_by_offences (names : Vocabulary) (f : Form) :
    ((∃ e, f.toExpr names = .ok e) ↔ ∀ g ∈ f.nodes, ∀ error, ¬ Offends names g error) ∧
    (∀ error, f.toExpr names = .error error ↔ FirstOffence names f.nodes error) ∧
    ((∃ rule, f.toRule names = .ok rule) ↔ (∀ error, ¬ RuleOffends f error) ∧
      ∀ g ∈ nodesAll f.behind, ∀ error, ¬ Offends names g error) ∧
    (∀ error, f.toRule names = .error error ↔ RuleOffends f error ∨
      (∀ e, ¬ RuleOffends f e) ∧ FirstOffence names (nodesAll f.behind) error) := by
  refine ⟨toExpr_isOk_iff, fun _ => toExpr_eq_error_iff, ?_, fun _ => toRule_eq_error_iff⟩
  simp only [isOk_iff, ne_eq, toRule_eq_error_iff, not_or, not_and, ← forall_not_firstOffence_iff]
  constructor
  · intro h
    have hnone : ∀ e, ¬ RuleOffends f e := fun e => (h e).1
    exact ⟨hnone, fun e => (h e).2 hnone⟩
  · rintro ⟨hnone, hrest⟩ e
    exact ⟨hnone e, fun _ => hrest e⟩

/-- The choice has too few elements, which counts before what its element and the list behind it lack. -/
example : (list [atom (.text "+"), list [atom (.text "if"), atom (.text "event.")], list []]).toExpr .any =
    .error (.arity "if" 3 1) := by
  cbv

end Aggregators

end EventFold.Form
