import EventFold.Engine.Update
import EventFold.Proofs.Table

/-!
# What an update makes of a registry

`verdict` says what an entry of a specification comes to, seen against the registry as it is before the
update. As names are distinct, no entry changes the verdict on another, so the loop over the entries can be
read as one that carries out verdicts. From that the lists it reports, the names that are registered after
it and their order are each found by one induction over the entries.

Nothing is said here of the replay behind the loop.
-/

namespace EventFold.Reconciliation

/-- What an entry of a specification comes to. -/
inductive Verdict where
  /-- Its name is registered under a form that agrees. -/
  | kept
  | read (a : Aggregator)
  | refused (error : FormError)

def Verdict.isRead : Verdict → Bool
  | read _ => true
  | _ => false

def Verdict.error? : Verdict → Option FormError
  | refused error => some error
  | _ => none

@[simp] theorem Verdict.isRead_kept : kept.isRead = false := rfl

@[simp] theorem Verdict.isRead_read (a : Aggregator) : (read a).isRead = true := rfl

@[simp] theorem Verdict.isRead_refused (e : FormError) : (refused e).isRead = false := rfl

@[simp] theorem Verdict.error?_kept : kept.error? = none := rfl

@[simp] theorem Verdict.error?_read (a : Aggregator) : (read a).error? = none := rfl

@[simp] theorem Verdict.error?_refused (e : FormError) : (refused e).error? = some e := rfl

def verdict (names : Vocabulary) (registry : Table Aggregator) (entry : String × Form) : Verdict :=
  if (registry.get? entry.1).any fun a => a.source.agrees entry.2 then .kept
  else
    match Aggregator.ofForm names entry.1 entry.2 with
    | .ok a => .read a
    | .error e => .refused e

def settle (r : Reconciliation) (j : String × Verdict) : Reconciliation :=
  match j.2 with
  | .kept => r
  | .read a =>
    { r with
      registry := r.registry.insert j.1 a
      changed := r.changed ++ [j.1]
      dirty := true
      notices := r.notices.push (.registering j.1 a.kind) }
  | .refused e =>
    { r with
      registry := r.registry.erase j.1
      rejected := r.rejected ++ [(j.1, e)]
      dirty := r.dirty || r.registry.contains j.1
      notices := r.notices.push (.dropping j.1 e) }

variable {names : Vocabulary} {r : Reconciliation} {registry : Table Aggregator} {name : String}
  {entry : String × Form} {j : String × Verdict}

theorem takeOver_eq (names : Vocabulary) (r : Reconciliation) (entry : String × Form) :
    takeOver names r entry = settle r (entry.1, verdict names r.registry entry) := by
  obtain ⟨n, source⟩ := entry
  simp only [takeOver, verdict, settle]
  by_cases h : ((r.registry.get? n).any fun a => a.source.agrees source) = true
  · rw [if_pos h, if_pos h]
  · rw [if_neg h, if_neg h]
    cases Aggregator.ofForm names n source <;> rfl

theorem verdict_congr {s : Table Aggregator} (h : registry.get? entry.1 = s.get? entry.1) :
    verdict names registry entry = verdict names s entry := by
  unfold verdict
  rw [h]

theorem get?_settle : (settle r j).registry.get? name =
    if name = j.1 then
      match j.2 with
      | .kept => r.registry.get? name
      | .read a => some a
      | .refused _ => none
    else r.registry.get? name := by
  obtain ⟨n, v⟩ := j
  cases v with
  | kept => simp [settle]
  | read a => simp only [settle, Table.get?_insert]
  | refused e => simp only [settle, Table.get?_erase]

theorem contains_settle (h : name ≠ j.1) :
    (settle r j).registry.contains name = r.registry.contains name := by
  rw [Table.contains, get?_settle, if_neg h, Table.contains]

/-- The loop over the entries carries out the verdicts on them. -/
theorem foldl_takeOver_eq {entries : List (String × Form)} (h : (entries.map Prod.fst).Nodup) :
    entries.foldl (takeOver names) r =
      (entries.map fun entry => (entry.1, verdict names r.registry entry)).foldl settle r := by
  induction entries generalizing r with
  | nil => rfl
  | cons entry rest ih =>
    simp only [List.map_cons, List.nodup_cons] at h
    simp only [List.foldl_cons, List.map_cons]
    rw [takeOver_eq, ih h.2]
    congr 1
    apply List.map_congr_left
    intro other hother
    have hne : other.1 ≠ entry.1 := fun heq => h.1 (heq ▸ List.mem_map_of_mem hother)
    rw [verdict_congr (s := r.registry)]
    rw [get?_settle, if_neg hne]

section Settling

variable {js : List (String × Verdict)}

theorem changed_foldl_settle : (js.foldl settle r).changed =
    r.changed ++ (js.filter fun j => j.2.isRead).map Prod.fst := by
  induction js generalizing r with
  | nil => simp
  | cons j rest ih =>
    obtain ⟨n, v⟩ := j
    rw [List.foldl_cons, ih, List.filter_cons]
    cases v <;> simp [settle]

theorem rejected_foldl_settle : (js.foldl settle r).rejected =
    r.rejected ++ js.filterMap fun j => j.2.error?.map (j.1, ·) := by
  induction js generalizing r with
  | nil => simp
  | cons j rest ih =>
    obtain ⟨n, v⟩ := j
    rw [List.foldl_cons, ih, List.filterMap_cons]
    cases v <;> simp [settle]

theorem removed_foldl_settle : (js.foldl settle r).removed = r.removed := by
  induction js generalizing r with
  | nil => rfl
  | cons j rest ih =>
    obtain ⟨n, v⟩ := j
    rw [List.foldl_cons, ih]
    cases v <;> rfl

theorem get?_foldl_settle (h : (js.map Prod.fst).Nodup) : (js.foldl settle r).registry.get? name =
    match js.lookup name with
    | some (.read a) => some a
    | some (.refused _) => none
    | _ => r.registry.get? name := by
  induction js generalizing r with
  | nil => rfl
  | cons j rest ih =>
    obtain ⟨n, v⟩ := j
    simp only [List.map_cons, List.nodup_cons] at h
    rw [List.foldl_cons, ih h.2, List.lookup_cons, get?_settle]
    by_cases hn : name = n
    · subst hn
      have hrest : rest.lookup name = none := by
        rw [List.lookup_eq_none_iff]
        intro p hp
        simp only [bne_iff_ne, ne_eq]
        rintro rfl
        exact h.1 (List.mem_map_of_mem hp)
      simp only [hrest, beq_self_eq_true, if_true]
      cases v <;> rfl
    · simp [hn, beq_eq_false_iff_ne.mpr hn]

/-- The names that the verdicts take out of the registry. -/
def drops (js : List (String × Verdict)) (name : String) : Bool :=
  js.any fun j => j.1 == name && j.2.error?.isSome

theorem drops_eq_false (h : name ∉ js.map Prod.fst) : drops js name = false := by
  rw [drops, List.any_eq_false]
  intro j hj
  have hne : j.1 ≠ name := fun heq => h (heq ▸ List.mem_map_of_mem hj)
  simp [hne]

theorem drops_cons : drops (j :: js) name = ((j.1 == name && j.2.error?.isSome) || drops js name) := rfl

/-- The order of the registry after the loop: the names that were there and stay, then those that are new. -/
theorem keys_foldl_settle (h : (js.map Prod.fst).Nodup) : (js.foldl settle r).registry.keys =
    (r.registry.keys.filter fun n => !drops js n) ++
      (js.filter fun j => j.2.isRead && !r.registry.contains j.1).map Prod.fst := by
  induction js generalizing r with
  | nil => simp [drops, List.filter_eq_self.mpr]
  | cons j rest ih =>
    obtain ⟨n, v⟩ := j
    simp only [List.map_cons, List.nodup_cons] at h
    have hdrop : drops rest n = false := drops_eq_false h.1
    have hne : ∀ j ∈ rest, j.1 ≠ n := fun j hj heq => h.1 (heq ▸ List.mem_map_of_mem hj)
    have hrest : (rest.filter fun j => j.2.isRead && !(settle r (n, v)).registry.contains j.1) =
        rest.filter fun j => j.2.isRead && !r.registry.contains j.1 := by
      apply List.filter_congr
      intro j hj
      rw [contains_settle (hne j hj)]
    rw [List.foldl_cons, ih h.2, hrest, List.filter_cons]
    cases v with
    | kept => simp [settle, drops_cons]
    | read a =>
      simp only [settle, Table.keys_insert, Verdict.isRead_read, Bool.true_and]
      by_cases hmem : n ∈ r.registry.keys
      · simp [hmem, Table.contains_iff.mpr hmem, drops_cons]
      · simp [hmem, Bool.eq_false_iff.mpr (mt Table.contains_iff.mp hmem), drops_cons, hdrop]
    | refused e =>
      simp only [settle, Table.keys_erase, List.filter_filter, Verdict.isRead_refused, Bool.false_and,
        Bool.false_eq_true, if_false]
      congr 1
      apply List.filter_congr
      intro m _
      by_cases hm : m = n
      · simp [drops_cons, hm]
      · simp [drops_cons, hm, Ne.symm hm]

theorem dirty_foldl_settle_iff (h : (js.map Prod.fst).Nodup) : (js.foldl settle r).dirty = true ↔
    r.dirty = true ∨ ∃ j ∈ js,
      j.2.isRead = true ∨ (j.2.error?.isSome = true ∧ r.registry.contains j.1 = true) := by
  induction js generalizing r with
  | nil => simp
  | cons j rest ih =>
    obtain ⟨n, v⟩ := j
    simp only [List.map_cons, List.nodup_cons] at h
    have hne : ∀ j ∈ rest, j.1 ≠ n := fun j hj heq => h.1 (heq ▸ List.mem_map_of_mem hj)
    have hrest : (∃ j ∈ rest, j.2.isRead = true ∨
          (j.2.error?.isSome = true ∧ (settle r (n, v)).registry.contains j.1 = true)) ↔
        ∃ j ∈ rest, j.2.isRead = true ∨ (j.2.error?.isSome = true ∧ r.registry.contains j.1 = true) := by
      refine exists_congr fun j => and_congr_right fun hj => ?_
      rw [contains_settle (hne j hj)]
    rw [List.foldl_cons, ih h.2, hrest]
    simp only [List.mem_cons, exists_eq_or_imp, ← or_assoc]
    cases v <;> simp [settle]

end Settling

section Removing

theorem get?_foldl_remove {stale : List String} :
    (stale.foldl remove r).registry.get? name = if name ∈ stale then none else r.registry.get? name := by
  induction stale generalizing r with
  | nil => simp
  | cons n rest ih =>
    rw [List.foldl_cons, ih, remove, Table.get?_erase]
    by_cases hn : name = n
    · subst hn
      simp
    · simp [hn]

theorem keys_foldl_remove {stale : List String} :
    (stale.foldl remove r).registry.keys = r.registry.keys.filter fun n => decide (n ∉ stale) := by
  induction stale generalizing r with
  | nil => simp [List.filter_eq_self.mpr]
  | cons n rest ih =>
    rw [List.foldl_cons, ih, remove, Table.keys_erase, List.filter_filter]
    apply List.filter_congr
    intro m _
    by_cases hm : m = n <;> simp [hm]

theorem removed_foldl_remove {stale : List String} :
    (stale.foldl remove r).removed = r.removed ++ stale := by
  induction stale generalizing r with
  | nil => simp
  | cons n rest ih => rw [List.foldl_cons, ih]; simp [remove]

theorem changed_foldl_remove {stale : List String} : (stale.foldl remove r).changed = r.changed := by
  induction stale generalizing r with
  | nil => rfl
  | cons n rest ih => rw [List.foldl_cons, ih]; rfl

theorem rejected_foldl_remove {stale : List String} : (stale.foldl remove r).rejected = r.rejected := by
  induction stale generalizing r with
  | nil => rfl
  | cons n rest ih => rw [List.foldl_cons, ih]; rfl

theorem dirty_foldl_remove {stale : List String} :
    (stale.foldl remove r).dirty = (r.dirty || !stale.isEmpty) := by
  induction stale generalizing r with
  | nil => simp
  | cons n rest ih => rw [List.foldl_cons, ih]; simp [remove]

end Removing

section Whole

def judged (names : Vocabulary) (registry : Table Aggregator) (entries : Table Form) :
    List (String × Verdict) :=
  entries.entries.map fun entry => (entry.1, verdict names registry entry)

variable {entries : Table Form}

theorem keys_judged (names : Vocabulary) (registry : Table Aggregator) (entries : Table Form) :
    (judged names registry entries).map Prod.fst = entries.keys := by
  simp [judged, Table.keys, Function.comp_def]

theorem nodup_judged (names : Vocabulary) (registry : Table Aggregator) (entries : Table Form) :
    ((judged names registry entries).map Prod.fst).Nodup := by
  rw [keys_judged]
  exact entries.nodup_keys

theorem lookup_judged : (judged names registry entries).lookup name =
    (entries.get? name).map fun form => verdict names registry (name, form) := by
  simp only [judged, Table.get?]
  induction entries.entries with
  | nil => rfl
  | cons e rest ih =>
    obtain ⟨n, f⟩ := e
    simp only [List.map_cons, List.lookup_cons]
    by_cases hn : name = n
    · subst hn
      simp
    · simp only [beq_eq_false_iff_ne.mpr hn]
      exact ih

/-- The names that go are those of the old registry that the specification does not have. -/
theorem run_eq (names : Vocabulary) (registry : Table Aggregator) (entries : Table Form) :
    run names registry entries =
      (registry.keys.filter fun n => !entries.contains n).foldl remove
        ((judged names registry entries).foldl settle ⟨registry, [], [], [], false, #[]⟩) := by
  have hnames := entries.nodup_keys
  simp only [run]
  rw [foldl_takeOver_eq hnames]
  congr 1
  change List.filter _ ((judged names registry entries).foldl settle
    ⟨registry, [], [], [], false, #[]⟩).registry.keys = _
  rw [keys_foldl_settle (nodup_judged names registry entries), List.filter_append]
  have hnew : (((judged names registry entries).filter fun j =>
      j.2.isRead && !registry.contains j.1).map Prod.fst).filter (fun n => !entries.contains n) = [] := by
    rw [List.filter_eq_nil_iff]
    intro n hn
    obtain ⟨j, hj, rfl⟩ := List.mem_map.mp hn
    have hmem : j.1 ∈ entries.keys := by
      rw [← keys_judged names registry entries]
      exact List.mem_map_of_mem (List.mem_filter.mp hj).1
    simp [Table.contains_iff.mpr hmem]
  rw [hnew, List.append_nil, List.filter_filter]
  apply List.filter_congr
  intro n _
  cases hn : entries.contains n with
  | true => rfl
  | false =>
    have hdrop : drops (judged names registry entries) n = false := by
      apply drops_eq_false
      rw [keys_judged, ← Table.contains_iff, hn]
      exact Bool.false_ne_true
    simp [hdrop]

theorem run_changed : (run names registry entries).changed =
    ((judged names registry entries).filter fun j => j.2.isRead).map Prod.fst := by
  rw [run_eq, changed_foldl_remove, changed_foldl_settle, List.nil_append]

theorem run_rejected : (run names registry entries).rejected =
    (judged names registry entries).filterMap fun j => j.2.error?.map (j.1, ·) := by
  rw [run_eq, rejected_foldl_remove, rejected_foldl_settle, List.nil_append]

theorem run_removed : (run names registry entries).removed =
    registry.keys.filter fun n => !entries.contains n := by
  rw [run_eq, removed_foldl_remove, removed_foldl_settle, List.nil_append]

/-- What is registered under a name in the end depends on the entry of the name alone. -/
theorem run_get? : (run names registry entries).registry.get? name =
    match (entries.get? name).map fun form => verdict names registry (name, form) with
    | some .kept => registry.get? name
    | some (.read a) => some a
    | some (.refused _) => none
    | none => none := by
  rw [run_eq, get?_foldl_remove, get?_foldl_settle (nodup_judged names registry entries), lookup_judged]
  cases hform : entries.get? name with
  | none =>
    have hcontains : entries.contains name = false := Table.contains_eq_false_iff.mpr hform
    simp only [Option.map_none, List.mem_filter, hcontains, Bool.not_false, and_true,
      ← Table.get?_isSome_iff]
    cases registry.get? name <;> rfl
  | some form =>
    have hcontains : entries.contains name = true := by simp [Table.contains, hform]
    rw [if_neg (by simp [hcontains])]
    simp only [Option.map_some]
    cases verdict names registry (name, form) <;> rfl

theorem mem_judged_iff : j ∈ judged names registry entries ↔
    ∃ form, entries.get? j.1 = some form ∧ verdict names registry (j.1, form) = j.2 := by
  obtain ⟨n, v⟩ := j
  simp only [judged, List.mem_map, Table.get?_eq_some_iff]
  constructor
  · rintro ⟨⟨m, form⟩, he, heq⟩
    obtain ⟨rfl, rfl⟩ := Prod.mk.inj heq
    exact ⟨form, he, rfl⟩
  · rintro ⟨form, he, rfl⟩
    exact ⟨(n, form), he, rfl⟩

theorem verdict_eq_kept_iff {form : Form} : verdict names registry (name, form) = .kept ↔
    ∃ a, registry.get? name = some a ∧ a.source.agrees form = true := by
  unfold verdict
  cases registry.get? name with
  | none => cases Aggregator.ofForm names name form <;> simp
  | some a =>
    by_cases ha : a.source.agrees form = true
    · simp [ha]
    · cases Aggregator.ofForm names name form <;> simp [ha]

theorem verdict_eq_read_iff {form : Form} {a : Aggregator} : verdict names registry (name, form) = .read a ↔
    verdict names registry (name, form) ≠ .kept ∧ Aggregator.ofForm names name form = .ok a := by
  unfold verdict
  split
  · simp
  · cases Aggregator.ofForm names name form <;> simp

theorem verdict_eq_refused_iff {form : Form} {error : FormError} :
    verdict names registry (name, form) = .refused error ↔
      verdict names registry (name, form) ≠ .kept ∧ Aggregator.ofForm names name form = .error error := by
  unfold verdict
  split
  · simp
  · cases Aggregator.ofForm names name form <;> simp

theorem run_contains_of_fresh (hj : j ∈ judged names registry entries)
    (hfresh : registry.contains j.1 = false) :
    (run names registry entries).registry.contains j.1 = j.2.isRead := by
  obtain ⟨n, v⟩ := j
  obtain ⟨form, hform, hv⟩ := mem_judged_iff.mp hj
  have hnone := Table.contains_eq_false_iff.mp hfresh
  simp only at hform hv hnone
  rw [Table.contains, run_get?, hform, Option.map_some, hv]
  cases v with
  | kept => simp [hnone]
  | read a => rfl
  | refused e => rfl

theorem run_keys : (run names registry entries).registry.keys =
    (registry.keys.filter fun n => (run names registry entries).registry.contains n) ++
      entries.keys.filter fun n =>
        (run names registry entries).registry.contains n && !registry.contains n := by
  have hnew : (((judged names registry entries).filter fun j =>
        j.2.isRead && !registry.contains j.1).map Prod.fst) =
      entries.keys.filter fun n =>
        (run names registry entries).registry.contains n && !registry.contains n := by
    rw [← keys_judged names registry entries, List.filter_map]
    congr 1
    apply List.filter_congr
    intro j hj
    cases hfresh : registry.contains j.1 with
    | true => simp [hfresh]
    | false => simp [hfresh, run_contains_of_fresh hj hfresh]
  obtain ⟨stays, hkeys⟩ : ∃ stays : String → Bool, (run names registry entries).registry.keys =
      registry.keys.filter stays ++ entries.keys.filter fun n =>
        (run names registry entries).registry.contains n && !registry.contains n := by
    refine ⟨fun n => !drops (judged names registry entries) n &&
      decide (n ∉ registry.keys.filter fun n => !entries.contains n), ?_⟩
    rw [← hnew, run_eq, keys_foldl_remove, keys_foldl_settle (nodup_judged names registry entries), hnew,
      List.filter_append, List.filter_filter]
    congr 1
    · apply List.filter_congr
      intro n _
      rw [Bool.and_comm]
    · rw [List.filter_eq_self]
      intro n hn
      have hfresh := (List.mem_filter.mp hn).2
      simp only [Bool.and_eq_true, Bool.not_eq_true', ← Bool.not_eq_true, Table.contains_iff] at hfresh
      simp [hfresh.2]
  rw [hkeys]
  congr 1
  apply List.filter_congr
  intro n hn
  rw [Bool.eq_iff_iff, Table.contains_iff, hkeys, List.mem_append, List.mem_filter, List.mem_filter]
  simp [hn, Table.contains_iff.mpr hn]

/-- What makes a replay necessary, in terms of what is reported. -/
theorem run_dirty_iff : (run names registry entries).dirty = true ↔
    (run names registry entries).changed ≠ [] ∨ (run names registry entries).removed ≠ [] ∨
      ∃ p ∈ (run names registry entries).rejected, registry.contains p.1 = true := by
  have hstale : (!(registry.keys.filter fun n => !entries.contains n).isEmpty) = true ↔
      (registry.keys.filter fun n => !entries.contains n) ≠ [] := by
    simp
  rw [run_removed, run_changed, run_rejected, run_eq, dirty_foldl_remove, Bool.or_eq_true,
    dirty_foldl_settle_iff (nodup_judged names registry entries), hstale]
  constructor
  · rintro ((h | ⟨j, hj, h | ⟨he, hc⟩⟩) | h)
    · cases h
    · left
      simp only [ne_eq, List.map_eq_nil_iff, List.filter_eq_nil_iff]
      exact fun hall => hall j hj h
    · obtain ⟨e, he⟩ := Option.isSome_iff_exists.mp he
      exact .inr (.inr ⟨(j.1, e), List.mem_filterMap.mpr ⟨j, hj, by simp [he]⟩, hc⟩)
    · exact .inr (.inl h)
  · rintro (h | h | ⟨p, hp, hc⟩)
    · simp only [ne_eq, List.map_eq_nil_iff, List.filter_eq_nil_iff] at h
      obtain ⟨j, hj⟩ := Classical.not_forall.mp h
      obtain ⟨hmem, hread⟩ := Classical.not_imp.mp hj
      exact .inl (.inr ⟨j, hmem, .inl (Classical.not_not.mp hread)⟩)
    · exact .inr h
    · obtain ⟨j, hj, he⟩ := List.mem_filterMap.mp hp
      obtain ⟨e, herror, rfl⟩ := Option.map_eq_some_iff.mp he
      exact .inl (.inr ⟨j, hj, .inr ⟨Option.isSome_of_eq_some herror, hc⟩⟩)

theorem run_registry_of_clean (h : (run names registry entries).dirty = false) :
    (run names registry entries).registry = registry := by
  have hclean := mt run_dirty_iff.mpr (Bool.eq_false_iff.mp h)
  simp only [not_or, Classical.not_not, not_exists, not_and, Bool.not_eq_true] at hclean
  obtain ⟨hchanged, hremoved, hrejected⟩ := hclean
  have hget : ∀ n, (run names registry entries).registry.get? n = registry.get? n := by
    intro n
    rw [run_get?]
    cases hform : entries.get? n with
    | none =>
      rw [run_removed, List.filter_eq_nil_iff] at hremoved
      have hn : n ∉ registry.keys := by
        intro hmem
        exact hremoved n hmem (by simp [Table.contains, hform])
      rw [← Table.get?_isSome_iff, Bool.not_eq_true, Option.isSome_eq_false_iff, Option.isNone_iff_eq_none] at hn
      rw [hn]
      rfl
    | some form =>
      have hj : (n, verdict names registry (n, form)) ∈ judged names registry entries :=
        mem_judged_iff.mpr ⟨form, hform, rfl⟩
      rw [Option.map_some]
      cases hv : verdict names registry (n, form) with
      | kept => rfl
      | read a =>
        rw [run_changed, List.map_eq_nil_iff, List.filter_eq_nil_iff] at hchanged
        have hread := hchanged _ hj
        simp [hv] at hread
      | refused e =>
        have hp : (n, e) ∈ (run names registry entries).rejected := by
          rw [run_rejected]
          exact List.mem_filterMap.mpr ⟨_, hj, by simp [hv]⟩
        exact (Table.contains_eq_false_iff.mp (hrejected _ hp)).symm
  have hcontains : ∀ n, (run names registry entries).registry.contains n = registry.contains n := by
    intro n
    rw [Table.contains, hget, Table.contains]
  apply Table.ext_get? _ hget
  rw [run_keys]
  have hold : (registry.keys.filter fun n => (run names registry entries).registry.contains n) =
      registry.keys := by
    rw [List.filter_eq_self]
    intro n hn
    rw [hcontains, Table.contains_iff.mpr hn]
  have hnew : (entries.keys.filter fun n =>
      (run names registry entries).registry.contains n && !registry.contains n) = [] := by
    rw [List.filter_eq_nil_iff]
    intro n _
    simp [hcontains]
  rw [hold, hnew, List.append_nil]

end Whole

end EventFold.Reconciliation
