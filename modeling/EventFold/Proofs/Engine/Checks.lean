import EventFold.Proofs.Engine.Reconciled
import EventFold.Specification.Diagnostics

/-!
# What a check foretells

A check reads every entry of a specification and reports all that cannot be read. An update stops at the first
function that cannot be read, and it does not read an aggregator again that is registered under an agreeing form.
They report the same all the same. A diagnostic of a function makes the update fail, with the first of them. If
there is none the entries that the update rejects are the diagnostics, whatever was registered before.
-/

namespace EventFold

namespace Specification

variable {names : Vocabulary} {part : Section} {spec : Specification} {d : Diagnostic}

theorem part_of_mem_refused {α : Type} {read : Form → Except FormError α} {entries : Table Form}
    (h : d ∈ refused part read entries) : d.part = part := by
  obtain ⟨⟨name, form⟩, -, hd⟩ := List.mem_filterMap.mp h
  cases hread : read form with
  | ok a => simp [hread] at hd
  | error error =>
    simp only [hread, Option.some.injEq] at hd
    rw [← hd]

/-- The diagnostics of functions are in front. -/
theorem find?_diagnostics (names : Vocabulary) (spec : Specification) :
    (spec.diagnostics names).find? (fun d => d.part = .functions) =
      (refused .functions (Form.toExpr names) spec.functions).head? := by
  have hrules : (refused .aggregators (Form.toRule names) spec.aggregators).find?
      (fun d => d.part = .functions) = none := by
    rw [List.find?_eq_none]
    intro d hd
    simp [part_of_mem_refused hd]
  rw [diagnostics, List.find?_append, hrules, Option.or_none]
  cases hfunctions : refused .functions (Form.toExpr names) spec.functions with
  | nil => rfl
  | cons d rest =>
    have hpart : d.part = .functions := part_of_mem_refused (hfunctions ▸ List.mem_cons_self)
    rw [List.find?_cons_of_pos (by simpa using hpart), List.head?_cons]

theorem head?_refused_functions : (refused .functions (Form.toExpr names) spec.functions).head? = some d ↔
    d.part = .functions ∧ Engine.FirstUnread names spec.functions.entries d.name d.error := by
  rw [refused, List.head?_filterMap, List.findSome?_eq_some_iff]
  constructor
  · rintro ⟨before, ⟨name, body⟩, rest, hentries, hd, hbefore⟩
    cases hbody : body.toExpr names with
    | ok expr => simp [hbody] at hd
    | error error =>
      simp only [hbody, Option.some.injEq] at hd
      subst hd
      refine ⟨rfl, before, body, rest, hentries, ?_, hbody⟩
      intro p hp
      have hnone := hbefore p hp
      cases hp' : p.2.toExpr names with
      | ok expr => exact ⟨expr, rfl⟩
      | error other => simp [hp'] at hnone
  · rintro ⟨hpart, before, body, rest, hentries, hbefore, hbody⟩
    refine ⟨before, (d.name, body), rest, hentries, ?_, ?_⟩
    · simp only [hbody, ← hpart]
    · intro p hp
      obtain ⟨expr, hexpr⟩ := hbefore p hp
      simp only [hexpr]

theorem refused_rules (names : Vocabulary) (spec : Specification) :
    refused .aggregators (Form.toRule names) spec.aggregators =
      (spec.aggregators.entries.filterMap fun entry => (entry.2.ruleError? names).map (entry.1, ·)).map
        fun p => ⟨.aggregators, p.1, p.2⟩ := by
  rw [List.map_filterMap, refused]
  congr 1
  funext ⟨name, form⟩
  cases hrule : form.toRule names <;> simp [Form.ruleError?, hrule]

end Specification

namespace Engine

open Specification

variable {c : Engine} {spec : Specification} {f : Failure}

/-- The first diagnostic of a function is what reading the functions fails with. -/
theorem readFunctions_eq_error_iff_find? : readFunctions c.names spec.functions.entries = .error f ↔
    ∃ d, (spec.diagnostics c.names).find? (fun d => d.part = .functions) = some d ∧
      f = .form d.error (some d.name) := by
  rw [readFunctions_eq_error_iff, find?_diagnostics]
  constructor
  · rintro ⟨name, error, hfirst, rfl⟩
    exact ⟨⟨.functions, name, error⟩, head?_refused_functions.mpr ⟨rfl, hfirst⟩, rfl⟩
  · rintro ⟨d, hd, rfl⟩
    exact ⟨d.name, d.error, (head?_refused_functions.mp hd).2, rfl⟩

/-- Checks and updates agree. -/
theorem Reachable.update_diagnostics (hc : Reachable c) (spec : Specification) :
    (∀ d, (spec.diagnostics c.names).find? (fun d => d.part = .functions) = some d →
      c.update spec = ⟨c, .error (.form d.error (some d.name)), #[]⟩) ∧
    ((spec.diagnostics c.names).find? (fun d => d.part = .functions) = none →
      (∀ f, (c.update spec).result = .error f → ∃ error, f = .evaluation error) ∧
      ∀ u, (c.update spec).result = .ok u →
        u.rejected.map (fun p => ⟨.aggregators, p.1, p.2⟩) = spec.diagnostics c.names) := by
  constructor
  · intro d hd
    exact update_eq_of_unread (readFunctions_eq_error_iff_find?.mpr ⟨d, hd, rfl⟩)
  · intro hnone
    constructor
    · intro f hf
      rcases failure_of_update hf with hunread | ⟨bodies, -, hreplay, -⟩
      · obtain ⟨d, hd, -⟩ := readFunctions_eq_error_iff_find?.mp hunread
        cases hnone.symm.trans hd
      · obtain ⟨error, -, rfl⟩ := result_eq_error_iff.mp hreplay
        exact ⟨error, rfl⟩
    · intro u hok
      have hfunctions : refused .functions (Form.toExpr c.names) spec.functions = [] := by
        rwa [find?_diagnostics, List.head?_eq_none_iff] at hnone
      rw [report_of_update hok, rejected_report hc.sound, diagnostics, hfunctions, List.nil_append,
        refused_rules]

/-- `otherFunnels` with a function that lacks an operand. -/
def shortOperator : Specification :=
  otherFunnels.withFunction "short" (.list [.atom (.text "+"), .atom (.number 1)])

theorem update_diagnostics_otherFunnels : Reachable threeFunnels ∧
    shortOperator.diagnostics threeFunnels.names =
      [⟨.functions, "short", .arity "+" 2 1⟩, ⟨.aggregators, "a", .emptyForm⟩] ∧
    threeFunnels.update shortOperator =
      ⟨threeFunnels, .error (.form (.arity "+" 2 1) (some "short")), #[]⟩ ∧
    (threeFunnels.update otherFunnels).result = .ok ⟨false, ["c"], ["d"], [("a", .emptyForm)], true⟩ ∧
    [⟨.aggregators, "a", .emptyForm⟩] = otherFunnels.diagnostics threeFunnels.names := by
  have hreach : Reachable threeFunnels := .track _ (.update _ (.new .any 8))
  have hok : (threeFunnels.update otherFunnels).result =
      .ok ⟨false, ["c"], ["d"], [("a", .emptyForm)], true⟩ :=
    eq_ok_of_toOption (by decide +kernel)
  refine ⟨hreach, by decide +kernel, ?_, hok, ?_⟩
  · exact (Reachable.update_diagnostics hreach shortOperator).1
      ⟨.functions, "short", .arity "+" 2 1⟩ (by decide +kernel)
  · exact ((Reachable.update_diagnostics hreach otherFunnels).2 (by decide +kernel)).2 _ hok

end Engine

end EventFold
