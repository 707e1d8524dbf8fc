import EventFold.Catalog
import EventFold.Proofs.Form.Spelling
import EventFold.Specification.Diagnostics
import Mathlib.Data.List.Basic

/-!
# What a vocabulary refuses

A vocabulary has no part in what a form means, only in whether it may be read: a form is read under some names as
it is under any, if all the names in what it means are among them. So more names accept more forms and change the
meaning of none, and a check under fewer names reports the same entries and perhaps more of them. The errors that
it reports may be others, as a name that is refused can stand before the fault that is found under any names.
-/

namespace EventFold

/-- Whether a node of an expression refers to nothing outside the vocabulary. -/
def Expr.IsKnown (names : Vocabulary) : Expr → Prop
  | property name => names.property name = true
  | var name => names.var name = true
  | aggregator name => names.aggregator name = true
  | _ => True

namespace Vocabulary

variable {names more : Vocabulary} {e : Expr} {es : List Expr}

/-- The vocabulary has every name that is referred to anywhere in the expression. -/
def Accepts (names : Vocabulary) (e : Expr) : Prop := ∀ node ∈ e.nodes, node.IsKnown names

def AcceptsAll (names : Vocabulary) (es : List Expr) : Prop := ∀ e ∈ es, names.Accepts e

/-- Every name of the one vocabulary is a name of the other. -/
structure Within (names more : Vocabulary) : Prop where
  property : ∀ name, names.property name = true → more.property name = true
  var : ∀ name, names.var name = true → more.var name = true
  aggregator : ∀ name, names.aggregator name = true → more.aggregator name = true

theorem within_any (names : Vocabulary) : names.Within .any :=
  ⟨fun _ _ => rfl, fun _ _ => rfl, fun _ _ => rfl⟩

theorem Accepts.mono (h : names.Accepts e) (hmore : names.Within more) : more.Accepts e := by
  intro node hnode
  have hknown := h node hnode
  cases node with
  | property name => exact hmore.property name hknown
  | var name => exact hmore.var name hknown
  | aggregator name => exact hmore.aggregator name hknown
  | _ => exact trivial

theorem AcceptsAll.mono (h : names.AcceptsAll es) (hmore : names.Within more) : more.AcceptsAll es :=
  fun e he => (h e he).mono hmore

theorem acceptsAll_cons : names.AcceptsAll (e :: es) ↔ names.Accepts e ∧ names.AcceptsAll es :=
  List.forall_mem_cons

theorem acceptsAll_iff : names.AcceptsAll es ↔ ∀ node ∈ Expr.nodesAll es, node.IsKnown names := by
  induction es with
  | nil => simp [AcceptsAll, Expr.nodesAll]
  | cons e es ih => rw [acceptsAll_cons, Expr.nodesAll, List.forall_mem_append, ih, Accepts]

theorem accepts_call {function : String} : names.Accepts (.call function es) ↔ names.AcceptsAll es := by
  rw [Accepts, Expr.nodes, List.forall_mem_cons, acceptsAll_iff]
  exact and_iff_right trivial

theorem accepts_apply {op : Operator} : names.Accepts (.apply op es) ↔ names.AcceptsAll es := by
  rw [Accepts, Expr.nodes, List.forall_mem_cons, acceptsAll_iff]
  exact and_iff_right trivial

theorem accepts_choose {condition yes no : Expr} : names.Accepts (.choose condition yes no) ↔
    (names.Accepts condition ∧ names.Accepts yes) ∧ names.Accepts no := by
  rw [Accepts, Expr.nodes, List.forall_mem_cons, List.forall_mem_append, List.forall_mem_append]
  exact and_iff_right trivial

end Vocabulary

open Vocabulary

theorem Expr.IsWritable.isKnown {names : Vocabulary} {node : Expr} (h : node.IsWritable names) :
    node.IsKnown names := by
  cases node with
  | property name => exact h.2
  | var name => exact h.2
  | aggregator name => exact h.2
  | _ => exact trivial

namespace Form

variable {names more : Vocabulary} {f : Form} {fs : List Form} {e : Expr} {es : List Expr} {rule : Rule}

mutual

/-- The names that a form was read under do not count, only those that it is to be read under. -/
theorem means_of_accepts : ∀ {f : Form} {e : Expr}, Means names f e → more.Accepts e → Means more f e
  | _, _, .value hv, _ => .value hv
  | _, _, .text hplain, _ => .text hplain
  | _, _, .property hne _, h => .property hne (h _ (List.mem_singleton.mpr rfl))
  | _, _, .var hbeginning hne _, h => .var hbeginning hne (h _ (List.mem_singleton.mpr rfl))
  | _, _, .aggregator hbeginning hne _, h => .aggregator hbeginning hne (h _ (List.mem_singleton.mpr rfl))
  | _, _, .argument hspells hn, _ => .argument hspells hn
  | _, _, .call hne hall, h => .call hne (meanAll_of_accepts hall (accepts_call.mp h))
  | _, _, .choose hc hy hn, h =>
    have ⟨⟨hc', hy'⟩, hn'⟩ := accepts_choose.mp h
    .choose (means_of_accepts hc hc') (means_of_accepts hy hy') (means_of_accepts hn hn')
  | _, _, .apply hlen hall, h => .apply hlen (meanAll_of_accepts hall (accepts_apply.mp h))

theorem meanAll_of_accepts : ∀ {fs : List Form} {es : List Expr}, MeanAll names fs es → more.AcceptsAll es →
    MeanAll more fs es
  | _, _, .nil, _ => .nil
  | _, _, .cons he hes, h =>
    have ⟨hfirst, hrest⟩ := acceptsAll_cons.mp h
    .cons (means_of_accepts he hfirst) (meanAll_of_accepts hes hrest)

end

theorem accepts_of_means (h : Means names f e) : names.Accepts e :=
  fun node hnode => (isWritable_of_means h node hnode).isKnown

theorem acceptsAll_of_meanAll (h : MeanAll names fs es) : names.AcceptsAll es :=
  acceptsAll_iff.mpr fun node hnode => (isWritable_of_meanAll h node hnode).isKnown

theorem toExpr_eq_ok_iff_any : f.toExpr names = .ok e ↔ f.toExpr .any = .ok e ∧ names.Accepts e := by
  rw [toExpr_eq_ok_iff, toExpr_eq_ok_iff]
  constructor
  · intro h
    have haccepts := accepts_of_means h
    exact ⟨means_of_accepts h (haccepts.mono (within_any names)), haccepts⟩
  · rintro ⟨h, haccepts⟩
    exact means_of_accepts h haccepts

theorem toExprs_eq_ok_iff_any : toExprs names fs = .ok es ↔ toExprs .any fs = .ok es ∧ names.AcceptsAll es := by
  constructor
  · intro h
    have hall := meanAll_of_toExprs h
    have haccepts := acceptsAll_of_meanAll hall
    exact ⟨toExprs_of_meanAll (meanAll_of_accepts hall (haccepts.mono (within_any names))), haccepts⟩
  · rintro ⟨h, haccepts⟩
    exact toExprs_of_meanAll (meanAll_of_accepts (meanAll_of_toExprs h) haccepts)

theorem toRule_eq_ok_iff_any : f.toRule names = .ok rule ↔
    f.toRule .any = .ok rule ∧ names.AcceptsAll rule.exprs := by
  rw [toRule_eq_ok_iff, toRule_eq_ok_iff]
  constructor
  · rintro ⟨rest, hf, hne, hes⟩
    obtain ⟨hany, haccepts⟩ := toExprs_eq_ok_iff_any.mp hes
    exact ⟨⟨rest, hf, hne, hany⟩, haccepts⟩
  · rintro ⟨⟨rest, hf, hne, hany⟩, haccepts⟩
    exact ⟨rest, hf, hne, toExprs_eq_ok_iff_any.mpr ⟨hany, haccepts⟩⟩

theorem toExpr_of_within (hmore : names.Within more) (h : f.toExpr names = .ok e) : f.toExpr more = .ok e := by
  obtain ⟨hany, haccepts⟩ := toExpr_eq_ok_iff_any.mp h
  exact toExpr_eq_ok_iff_any.mpr ⟨hany, haccepts.mono hmore⟩

theorem toRule_of_within (hmore : names.Within more) (h : f.toRule names = .ok rule) : f.toRule more = .ok rule := by
  obtain ⟨hany, haccepts⟩ := toRule_eq_ok_iff_any.mp h
  exact toRule_eq_ok_iff_any.mpr ⟨hany, haccepts.mono hmore⟩

end Form

/-- The entry that a diagnostic is about. -/
def Diagnostic.entry (d : Diagnostic) : Specification.Section × String := (d.part, d.name)

namespace Specification

variable {names more : Vocabulary} {α : Type} {part : Section} {read read' : Form → Except FormError α}

/-- A reader that accepts more refuses no more entries. By induction on the entries, of which each is refused by
both readers, by the one that accepts less, or by none. -/
theorem refused_sublist (h : ∀ form a, read form = .ok a → read' form = .ok a) (entries : Table Form) :
    ((refused part read' entries).map Diagnostic.entry).Sublist ((refused part read entries).map Diagnostic.entry) := by
  unfold refused
  induction entries.entries with
  | nil => exact List.Sublist.refl _
  | cons e rest ih =>
    cases hread : read e.2 with
    | ok a => simpa [hread, h e.2 a hread] using ih
    | error error =>
      cases hread' : read' e.2 with
      | ok a => simpa [hread, hread', Diagnostic.entry] using ih.cons (part, e.1)
      | error other => simpa [hread, hread', Diagnostic.entry] using ih.cons_cons (part, e.1)

theorem diagnostics_sublist (hmore : names.Within more) (spec : Specification) :
    ((spec.diagnostics more).map Diagnostic.entry).Sublist ((spec.diagnostics names).map Diagnostic.entry) := by
  rw [diagnostics, diagnostics, List.map_append, List.map_append]
  exact (refused_sublist (fun _ _ => Form.toExpr_of_within hmore) _).append
    (refused_sublist (fun _ _ => Form.toRule_of_within hmore) _)

end Specification

namespace Catalog

variable {c : Catalog} {e : Expr}

/-- A catalog has a say on the properties alone, and only if it declares any. -/
theorem accepts_vocabulary_iff : c.vocabulary.Accepts e ↔ c.properties.keys = [] ∨
    ∀ name, .property name ∈ e.nodes → name ∈ implicitProperties ∨ name ∈ c.properties.keys := by
  have hknows : ∀ name, c.vocabulary.property name = true ↔
      c.properties.keys = [] ∨ (name ∈ implicitProperties ∨ name ∈ c.properties.keys) := by
    intro name
    simp [vocabulary, knowsProperty, declares, Table.isEmpty, Table.keys, Table.contains_iff]
  constructor
  · intro h
    by_cases hempty : c.properties.keys = []
    · exact .inl hempty
    · exact .inr fun name hname => ((hknows name).mp (h _ hname)).resolve_left hempty
  · intro h node hnode
    cases node with
    | property name => exact (hknows name).mpr (h.imp_right fun hall => hall name hnode)
    | var name => exact rfl
    | aggregator name => exact rfl
    | _ => exact trivial

end Catalog

/-- Reading under a vocabulary is reading under any names with one thing more to ask, that the vocabulary has all the
names in what the form means. More names take no form away, change no meaning and add no entry to a check. A catalog
asks it of properties alone, and only if it declares any. -/
theorem Vocabulary.filters (names : Vocabulary) :
    (∀ (f : Form) e, f.toExpr names = .ok e ↔ f.toExpr .any = .ok e ∧ names.Accepts e) ∧
    (∀ (f : Form) rule, f.toRule names = .ok rule ↔ f.toRule .any = .ok rule ∧ names.AcceptsAll rule.exprs) ∧
    (∀ more, names.Within more →
      (∀ (f : Form) e, f.toExpr names = .ok e → f.toExpr more = .ok e) ∧
      (∀ (f : Form) rule, f.toRule names = .ok rule → f.toRule more = .ok rule) ∧
      ∀ spec : Specification, ((spec.diagnostics more).map Diagnostic.entry).Sublist
        ((spec.diagnostics names).map Diagnostic.entry)) ∧
    ∀ c : Catalog,
      (∀ e, c.vocabulary.Accepts e ↔ c.properties.keys = [] ∨ ∀ name, .property name ∈ e.nodes →
        name ∈ Catalog.implicitProperties ∨ name ∈ c.properties.keys) ∧
      ∀ spec : Specification, ((spec.diagnostics .any).map Diagnostic.entry).Sublist
        ((spec.diagnostics c.vocabulary).map Diagnostic.entry) := by
  refine ⟨fun f e => Form.toExpr_eq_ok_iff_any, fun f rule => Form.toRule_eq_ok_iff_any, ?_, ?_⟩
  · intro more hmore
    exact ⟨fun f e => Form.toExpr_of_within hmore, fun f rule => Form.toRule_of_within hmore,
      Specification.diagnostics_sublist hmore⟩
  · intro c
    exact ⟨fun e => Catalog.accepts_vocabulary_iff, Specification.diagnostics_sublist (within_any c.vocabulary)⟩

/-- A catalog that declares one property. -/
def colours : Catalog := ⟨Table.empty.insert "colour" .string, ∅⟩

def isRed : Form := .list [.atom (.text "="), .atom (.text "event.colour"), .atom (.text "red")]

/-- The first function has a property that is not declared, the second one and a nameless property behind it. -/
def shapes : Specification :=
  let sum (last : Form) : Form := .list [.atom (.text "+"), .atom (.text "event.shape"), last]
  ((Specification.empty.withFunction "f" (sum (.atom (.number 1)))).withFunction "g"
    (sum (.atom (.text "event.")))).withAggregator "a" (.list [.atom (.text "funnel"), isRed])

theorem filters_colours : colours.vocabulary.Within .any ∧
    isRed.toExpr colours.vocabulary = .ok (.apply .equal [.property "colour", .const (.text "red")]) ∧
    isRed.toExpr .any = .ok (.apply .equal [.property "colour", .const (.text "red")]) ∧
    shapes.diagnostics .any = [⟨.functions, "g", .unknownName .property ""⟩] ∧
    shapes.diagnostics colours.vocabulary =
      [⟨.functions, "f", .unknownName .property "shape"⟩, ⟨.functions, "g", .unknownName .property "shape"⟩] ∧
    ((shapes.diagnostics .any).map Diagnostic.entry).Sublist
      ((shapes.diagnostics colours.vocabulary).map Diagnostic.entry) := by
  have hcolour : Form.Means colours.vocabulary (.atom (.text ("event." ++ "colour"))) (.property "colour") :=
    .property (by decide) (by decide)
  have hplain : ∀ beginning ∈ Form.beginnings, Text.dropBeginning? beginning "red" = none := by decide
  have hvalue : Form.Means colours.vocabulary (.atom (.text "red")) (.const (.text "red")) :=
    .text fun beginning hbeginning => Text.dropBeginning?_eq_none_iff.mp (hplain beginning hbeginning)
  have happly : Form.Means colours.vocabulary (.list [.atom (.text Operator.equal.keyword),
      .atom (.text ("event." ++ "colour")), .atom (.text "red")])
      (.apply .equal [.property "colour", .const (.text "red")]) :=
    .apply (by decide) (.cons hcolour (.cons hvalue .nil))
  have hred : isRed.toExpr colours.vocabulary =
      .ok (.apply .equal [.property "colour", .const (.text "red")]) := Form.toExpr_of_means happly
  obtain ⟨-, -, hmore, -⟩ := Vocabulary.filters colours.vocabulary
  obtain ⟨hexpr, -, hdiagnostics⟩ := hmore .any (within_any colours.vocabulary)
  exact ⟨within_any _, hred, hexpr isRed _ hred, by decide +kernel, by decide +kernel, hdiagnostics shapes⟩

end EventFold
