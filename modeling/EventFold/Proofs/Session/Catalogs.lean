import EventFold.Proofs.Session.Calls

/-!
# What a catalog decides

Forms are read under the names of the properties that a catalog declares, and that is all that the engine knows
of a catalog. The types of the properties and the kinds of events are asked for only when an event comes in, and
then to warn. So sessions whose catalogs declare the same names are led the same way, and what they tell is the
same apart from these warnings. Nothing of the configuration of the log comes into it.
-/

namespace EventFold

namespace Catalog

variable {c d : Catalog}

/-- Of a catalog only the names of the declared properties have a part in reading forms. -/
theorem vocabulary_congr (h : ∀ name, name ∈ c.properties.keys ↔ name ∈ d.properties.keys) :
    c.vocabulary = d.vocabulary := by
  have hempty : c.properties.isEmpty = d.properties.isEmpty := by
    rw [Bool.eq_iff_iff, Table.isEmpty_iff, Table.isEmpty_iff]
    exact forall_congr' fun name => not_congr (h name)
  have hknows : c.knowsProperty = d.knowsProperty := by
    funext name
    have hcontains : c.properties.contains name = d.properties.contains name := by
      rw [Bool.eq_iff_iff, Table.contains_iff, Table.contains_iff, h]
    rw [knowsProperty, knowsProperty, hempty, declares, declares, hcontains]
  rw [vocabulary, vocabulary, hknows]

end Catalog

/-- A warning that an event does not fit the catalog. -/
def Notice.isCatalogWarning : Notice → Bool
  | unknownEvent _ | namelessEvent | mistyped .. => true
  | _ => false

def withoutCatalogWarnings (notices : Array Notice) : Array Notice :=
  notices.filter fun n => !n.isCatalogWarning

theorem withoutCatalogWarnings_append (told more : Array Notice) : withoutCatalogWarnings (told ++ more) =
    withoutCatalogWarnings told ++ withoutCatalogWarnings more :=
  Array.filter_append Array.size_append

theorem withoutCatalogWarnings_push (told : Array Notice) (n : Notice) : withoutCatalogWarnings (told.push n) =
    withoutCatalogWarnings told ++ withoutCatalogWarnings #[n] := by
  rw [Array.push_eq_append, withoutCatalogWarnings_append]

namespace Session

/-- What is left of an outcome without the catalog of the session and the warnings that it gives. -/
def plain {α : Type} (o : Outcome Session α) : Outcome Engine α :=
  ⟨o.after.engine, o.result, withoutCatalogWarnings o.notices⟩

variable {s t : Session} {α β : Type} {o p : Outcome Session α}

theorem plain_eq_iff : plain o = plain p ↔ o.after.engine = p.after.engine ∧ o.result = p.result ∧
    withoutCatalogWarnings o.notices = withoutCatalogWarnings p.notices := by
  simp [plain]

theorem plain_map_congr (f : α → β) (h : plain o = plain p) : plain (o.map f) = plain (p.map f) := by
  obtain ⟨hengine, hresult, hnotices⟩ := plain_eq_iff.mp h
  exact plain_eq_iff.mpr ⟨hengine, by rw [Outcome.map, Outcome.map, hresult], hnotices⟩

section Events

theorem isCatalogWarning_of_mem_catalogNotices {c : Catalog} {event : Event} {n : Notice}
    (hn : n ∈ catalogNotices c event) : n.isCatalogWarning = true := by
  unfold catalogNotices at hn
  split at hn
  · cases hn
  · rcases List.mem_append.mp hn with hkind | hmistyped
    · split at hkind
      · split at hkind
        · cases hkind
        · rw [List.mem_singleton.mp hkind]
          rfl
      · rw [List.mem_singleton.mp hkind]
        rfl
    · obtain ⟨property, -, rfl⟩ := List.mem_map.mp hmistyped
      rfl

theorem withoutCatalogWarnings_catalogNotices (c : Catalog) (event : Event) :
    withoutCatalogWarnings (catalogNotices c event).toArray = #[] := by
  rw [withoutCatalogWarnings, Array.filter_eq_empty_iff]
  intro n hn
  simp [isCatalogWarning_of_mem_catalogNotices (List.mem_toArray.mp hn)]

theorem plain_track (s : Session) (event : Event) : plain (s.track event) =
    ⟨(s.engine.track event).after, (s.engine.track event).result,
      withoutCatalogWarnings (#[.tracking event.name?] ++ (s.engine.track event).notices)⟩ := by
  have hnotices : withoutCatalogWarnings (s.track event).notices =
      withoutCatalogWarnings (#[.tracking event.name?] ++ (s.engine.track event).notices) := by
    change withoutCatalogWarnings ((catalogNotices s.catalog event ++ [Notice.tracking event.name?]).toArray ++ _) = _
    rw [← List.append_toArray, withoutCatalogWarnings_append, withoutCatalogWarnings_append,
      withoutCatalogWarnings_catalogNotices, Array.empty_append, ← withoutCatalogWarnings_append]
  rw [plain, hnotices]
  rfl

theorem plain_track_congr (h : s.engine = t.engine) (event : Event) :
    plain (s.track event) = plain (t.track event) := by
  rw [plain_track, plain_track, h]

end Events

section EventLogs

/-- Two sessions have come equally far in a log. -/
structure Progress.Alike (p q : Progress) : Prop where
  engine : p.session.engine = q.session.engine
  tally : p.tally = q.tally
  notices : withoutCatalogWarnings p.notices = withoutCatalogWarnings q.notices

theorem Progress.Alike.blame {p q : Progress} (h : p.Alike q) (n : Notice) : (p.blame n).Alike (q.blame n) where
  engine := h.engine
  tally := by rw [Progress.blame, Progress.blame, h.tally]
  notices := by
    rw [Progress.blame, Progress.blame, withoutCatalogWarnings_push, withoutCatalogWarnings_push, h.notices]

theorem Progress.Alike.takeLine {p q : Progress} (h : p.Alike q) (number : Nat) (line : String) :
    (p.takeLine number line).Alike (q.takeLine number line) := by
  unfold Progress.takeLine
  cases Event.ofLine line with
  | error fault => exact h.blame _
  | ok event =>
    obtain ⟨hengine, hresult, hnotices⟩ := plain_eq_iff.mp (plain_track_congr h.engine event)
    have htracked : Progress.Alike
        ⟨(p.session.track event).after, { p.tally with events := p.tally.events + 1 },
          p.notices ++ (p.session.track event).notices⟩
        ⟨(q.session.track event).after, { q.tally with events := q.tally.events + 1 },
          q.notices ++ (q.session.track event).notices⟩ := by
      refine ⟨hengine, by rw [h.tally], ?_⟩
      rw [withoutCatalogWarnings_append, withoutCatalogWarnings_append, h.notices, hnotices]
    simp only [hresult]
    split
    · exact htracked
    · exact htracked.blame _

/-- By induction on the lines: each leaves the sessions equally far. -/
theorem Progress.Alike.plain_takeLines {p q : Progress} (h : p.Alike q) (number : Nat)
    (lines : List (List UInt8)) : plain (p.takeLines number lines) = plain (q.takeLines number lines) := by
  induction lines generalizing p q number with
  | nil =>
    simp only [Progress.takeLines, plain, h.engine, h.tally, withoutCatalogWarnings_push, h.notices]
  | cons bytes rest ih =>
    cases hbytes : Text.ofBytes? bytes with
    | none => simp only [Progress.takeLines, hbytes, plain, h.engine, h.notices]
    | some line =>
      simp only [Progress.takeLines, hbytes]
      split
      · exact ih h _
      · exact ih (h.takeLine _ _) _

theorem plain_replayFile_congr (h : s.engine = t.engine) (path : String)
    (content : Except FileFault ByteArray) :
    plain (s.replayFile path content) = plain (t.replayFile path content) := by
  cases content with
  | ok bytes =>
    have hbegun : Progress.Alike ⟨s, ⟨0, 0⟩, #[]⟩ ⟨t, ⟨0, 0⟩, #[]⟩ := ⟨h, rfl, rfl⟩
    exact hbegun.plain_takeLines 1 _
  | error fault => cases fault <;> simp only [replayFile, plain, h]

end EventLogs

section Calls

theorem plain_apply_congr (h : s.engine = t.engine) (spec : Specification) :
    plain (s.apply spec) = plain (t.apply spec) := by
  simp only [apply, plain, h]

theorem plain_load_congr (h : s.engine = t.engine) (path : String) (content : Except FileFault ByteArray) :
    plain (s.load path content) = plain (t.load path content) := by
  unfold load
  split
  · exact plain_apply_congr h _
  · simp only [plain, h]

theorem plain_save_congr (h : s.engine = t.engine) (path : String) (place : Except FileFault α) :
    plain (s.save path place) = plain (t.save path place) := by
  cases place <;> simp only [save, plain, h]

theorem plain_restore_congr (h : s.engine = t.engine) (path : String) (content : Except FileFault ByteArray) :
    plain (s.restore path content) = plain (t.restore path content) := by
  unfold restore
  split <;> simp only [plain, h]

/-- A call depends on the engine alone. -/
theorem plain_perform_congr (h : s.engine = t.engine) (call : Call) :
    plain (s.perform call) = plain (t.perform call) := by
  cases call with
  | load path content => exact plain_map_congr _ (plain_load_congr h path content)
  | apply spec => exact plain_map_congr _ (plain_apply_congr h spec)
  | track event => exact plain_map_congr _ (plain_track_congr h event)
  | replay path content => exact plain_map_congr _ (plain_replayFile_congr h path content)
  | evaluate form => simp only [perform, evaluate, plain, h]
  | save path place => exact plain_map_congr _ (plain_save_congr h path place)
  | restore path content => exact plain_map_congr _ (plain_restore_congr h path content)

/-- The outcomes of calls one after the other, whatever becomes of them. -/
def outcomes (s : Session) : List Call → List (Outcome Session Answer)
  | [] => []
  | call :: calls => s.perform call :: (s.perform call).after.outcomes calls

theorem plain_outcomes_congr (h : s.engine = t.engine) (calls : List Call) :
    (s.outcomes calls).map plain = (t.outcomes calls).map plain := by
  induction calls generalizing s t with
  | nil => rfl
  | cons call calls ih =>
    have hplain := plain_perform_congr h call
    rw [outcomes, outcomes, List.map_cons, List.map_cons, hplain, ih (plain_eq_iff.mp hplain).1]

/-- Under two configurations with one limit of calls and the same names of properties, calls have the same results
and lead to the same engines, call by call. What is told is the same apart from the warnings of the catalogs. -/
theorem outcomes_of_names (c d : Config) (hlimit : c.maxCallDepth = d.maxCallDepth)
    (hnames : ∀ name, name ∈ c.catalog.properties.keys ↔ name ∈ d.catalog.properties.keys) :
    (new c).engine = (new d).engine ∧
    ∀ calls, ((new c).outcomes calls).map plain = ((new d).outcomes calls).map plain := by
  have hengine : (new c).engine = (new d).engine := by
    rw [new, new, Catalog.vocabulary_congr hnames, hlimit]
  exact ⟨hengine, plain_outcomes_congr hengine⟩

/-- Purchases carry an amount of a colour, and are the only events. -/
def purchases : Config :=
  { Config.default with
    logging := { Logging.default with level := "trace" }
    catalog := ⟨.ofList [("amount", .number), ("colour", .string)], .ofList [("purchase", ["amount"])]⟩ }

/-- The same names without kinds of events, and with another type. -/
def refunds : Config :=
  { Config.default with catalog := ⟨.ofList [("colour", .string), ("amount", .string)], ∅⟩ }

/-- The last amount, the shapes of events, which are not declared, and the colour of a purchase. -/
def purchaseCalls : List Call :=
  let last (name : String) : Form := .list [.atom (.text "select_if"), .atom (.bool true), .atom (.text name)]
  [.apply ((Specification.empty.withAggregator "amount" (last "event.amount")).withAggregator "shape"
      (last "event.shape")),
   .track ((Event.named "refund").set "amount" (.number 3)),
   .evaluate (.atom (.text "event.colour"))]

/-- The event is of no kind that the one catalog knows and has an amount of another type than the other one
declares, and yet the sessions go the same way. Both refuse the shape. -/
theorem outcomes_purchases : purchases.maxCallDepth = refunds.maxCallDepth ∧
    (∀ name, name ∈ purchases.catalog.properties.keys ↔ name ∈ refunds.catalog.properties.keys) ∧
    ((new purchases).outcomes purchaseCalls).map plain = ((new refunds).outcomes purchaseCalls).map plain ∧
    ((new purchases).outcomes purchaseCalls).map (·.after.values.entries) =
      [[("amount", .null)], [("amount", .number 3)], [("amount", .number 3)]] := by
  have hnames : ∀ name, name ∈ purchases.catalog.properties.keys ↔ name ∈ refunds.catalog.properties.keys := by
    have hpurchases : purchases.catalog.properties.keys = ["amount", "colour"] := by decide +kernel
    have hrefunds : refunds.catalog.properties.keys = ["colour", "amount"] := by decide +kernel
    intro name
    rw [hpurchases, hrefunds]
    simp [or_comm]
  exact ⟨rfl, hnames, (outcomes_of_names purchases refunds rfl hnames).2 purchaseCalls, by decide +kernel⟩

end Calls

end Session

end EventFold
