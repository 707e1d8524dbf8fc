import EventFold.Table
import Mathlib.Data.List.Forall2

/-!
# Entries of tables

What a table holds under a name is what stands beside the name among its entries, at one place.
-/

namespace EventFold.Table

variable {α β : Type} {s t : Table α} {name : String} {a b : α} {i j : Nat}

theorem ext_entries (h : s.entries = t.entries) : s = t := by
  cases s
  cases t
  cases h
  rfl

theorem get?_eq_some_iff : t.get? name = some a ↔ (name, a) ∈ t.entries := by
  obtain ⟨l, hl⟩ := t
  simp only [get?]
  induction l with
  | nil => simp
  | cons e rest ih =>
    obtain ⟨n, b⟩ := e
    simp only [List.map_cons, List.nodup_cons] at hl
    rw [List.lookup_cons]
    by_cases h : name = n
    · subst h
      have hn : (name, a) ∉ rest := fun hm => hl.1 (List.mem_map_of_mem hm)
      simp [hn, eq_comm]
    · simp [beq_eq_false_iff_ne.mpr h, h, ih hl.2]

theorem get?_of_getElem? (h : t.entries[i]? = some (name, a)) : t.get? name = some a :=
  get?_eq_some_iff.mpr (List.mem_of_getElem? h)

@[simp] theorem keys_getElem? : t.keys[i]? = t.entries[i]?.map Prod.fst := by
  simp [keys]

@[simp] theorem length_keys : t.keys.length = t.size := by
  simp [keys, size]

theorem index_unique (hi : t.entries[i]? = some (name, a)) (hj : t.entries[j]? = some (name, b)) :
    i = j := by
  have hlt : i < t.keys.length := by
    rw [length_keys]
    exact (List.getElem?_eq_some_iff.mp hi).1
  apply (List.getElem?_inj hlt t.nodup_keys).mp
  simp [hi, hj]

theorem getElem?_of_keys_eq {s : Table α} {t : Table β} {b : β} (hkeys : s.keys = t.keys)
    (ht : t.entries[i]? = some (name, b)) (hs : s.get? name = some a) : s.entries[i]? = some (name, a) := by
  have hkey : s.keys[i]? = some name := by rw [hkeys, keys_getElem?, ht, Option.map_some]
  rw [keys_getElem?] at hkey
  obtain ⟨⟨m, c⟩, hc, rfl⟩ := Option.map_eq_some_iff.mp hkey
  rw [hc, Option.some.inj ((get?_of_getElem? hc).symm.trans hs)]

/-- A table is known by the order of its names and by what stands under them. -/
theorem ext_get? (hkeys : s.keys = t.keys) (h : ∀ name, s.get? name = t.get? name) : s = t := by
  apply ext_entries
  apply List.ext_getElem?
  intro i
  have hi : s.keys[i]? = t.keys[i]? := by rw [hkeys]
  rw [keys_getElem?, keys_getElem?] at hi
  cases hs : s.entries[i]? with
  | none =>
    rw [hs] at hi
    exact (Option.map_eq_none_iff.mp hi.symm).symm
  | some e =>
    obtain ⟨n, a⟩ := e
    rw [hs, Option.map_some] at hi
    obtain ⟨⟨m, b⟩, ht, rfl⟩ := Option.map_eq_some_iff.mp hi.symm
    have hb := h m
    rw [get?_of_getElem? hs, get?_of_getElem? ht] at hb
    rw [ht, Option.some.inj hb]

theorem contains_eq_false_iff : t.contains name = false ↔ t.get? name = none := by
  simp [contains]

theorem mem_keys_of_size_eq (hsize : s.size = t.size) (h : ∀ name, name ∈ s.keys → name ∈ t.keys)
    (hname : name ∈ t.keys) : name ∈ s.keys := by
  refine Classical.byContradiction fun hn => ?_
  have hnodup : (name :: s.keys).Nodup := List.nodup_cons.mpr ⟨hn, s.nodup_keys⟩
  have hsub : name :: s.keys ⊆ t.keys := List.cons_subset.mpr ⟨hname, fun n hm => h n hm⟩
  have hlen := hnodup.length_le_of_subset hsub
  rw [List.length_cons, length_keys, length_keys] at hlen
  omega

theorem size_le_of_keys_subset (h : ∀ name, name ∈ s.keys → name ∈ t.keys) : s.size ≤ t.size := by
  have hlen := s.nodup_keys.length_le_of_subset fun n hn => h n hn
  rwa [length_keys, length_keys] at hlen

theorem isEmpty_iff : t.isEmpty = true ↔ ∀ name, name ∉ t.keys := by
  rw [isEmpty, List.isEmpty_iff, ← List.eq_nil_iff_forall_not_mem, keys, List.map_eq_nil_iff]

/-- Whatever a table holds for all of its values it does so after another one has been put in. -/
theorem forall_entries_insert {P : α → Prop} (h : ∀ e ∈ t.entries, P e.2) (ha : P a) :
    ∀ e ∈ (t.insert name a).entries, P e.2 := by
  rintro ⟨other, b⟩ hb
  rw [← get?_eq_some_iff, get?_insert] at hb
  split at hb
  · exact Option.some.inj hb ▸ ha
  · exact h _ (get?_eq_some_iff.mp hb)

/-- Two tables agree if they do so under every name. -/
theorem agrees_iff {same : α → α → Bool} : s.agrees same t = true ↔
    ∀ name, Option.Rel (fun a b => same a b = true) (s.get? name) (t.get? name) := by
  rw [agrees, Bool.and_eq_true, beq_iff_eq, List.all_eq_true]
  constructor
  · rintro ⟨hsize, hall⟩ name
    have hfind : ∀ n a, s.get? n = some a → ∃ b, t.get? n = some b ∧ same a b = true := by
      intro n a ha
      exact (Option.any_eq_true _ _).mp (hall (n, a) (get?_eq_some_iff.mp ha))
    cases hs : s.get? name with
    | some a =>
      obtain ⟨b, hb, hsame⟩ := hfind name a hs
      rw [hb]
      exact .some hsame
    | none =>
      have hnot : name ∉ t.keys := by
        intro hname
        have hmem := mem_keys_of_size_eq hsize (fun n hn => ?_) hname
        · rw [← get?_isSome_iff, hs] at hmem
          cases hmem
        · obtain ⟨a, ha⟩ := Option.isSome_iff_exists.mp (get?_isSome_iff.mpr hn)
          obtain ⟨b, hb, -⟩ := hfind n a ha
          exact get?_isSome_iff.mp (Option.isSome_of_eq_some hb)
      rw [← get?_isSome_iff, Option.not_isSome_iff_eq_none] at hnot
      rw [hnot]
      exact .none
  · intro h
    have hkeys : ∀ name, name ∈ s.keys ↔ name ∈ t.keys := by
      intro name
      have hrel := h name
      rw [← get?_isSome_iff, ← get?_isSome_iff]
      generalize s.get? name = a at hrel
      generalize t.get? name = b at hrel
      cases hrel <;> simp
    refine ⟨Nat.le_antisymm ?_ ?_, ?_⟩
    · exact size_le_of_keys_subset fun name => (hkeys name).mp
    · exact size_le_of_keys_subset fun name => (hkeys name).mpr
    · rintro ⟨name, a⟩ ha
      have hrel := h name
      rw [get?_eq_some_iff.mpr ha] at hrel
      cases hb : t.get? name with
      | none =>
        rw [hb] at hrel
        cases hrel
      | some b =>
        rw [hb] at hrel
        cases hrel with
        | some hsame => simpa [hb] using hsame

theorem getElem?_map (f : String → α → β) :
    (t.map f).entries[i]? = t.entries[i]?.map fun e => (e.1, f e.1 e.2) := by
  simp [map]

theorem map_map {γ : Type} (f : String → α → β) (g : String → β → γ) :
    (t.map f).map g = t.map fun n a => g n (f n a) := by
  apply ext_entries
  simp [map, Function.comp_def]

theorem modify_congr {f g : α → α} (h : t.get? name = some a) (hfg : f a = g a) :
    t.modify name f = t.modify name g := by
  apply ext_get?
  · rw [keys_modify, keys_modify]
  · intro other
    rw [get?_modify, get?_modify]
    by_cases hname : other = name
    · subst hname
      simp only [h, Option.map_some, if_true, hfg]
    · simp only [hname, if_false]

theorem modify_eq_self (h : t.get? name = some a) : t.modify name (fun _ => a) = t := by
  apply ext_get? (keys_modify _)
  intro other
  rw [get?_modify]
  by_cases hname : other = name
  · subst hname
    simp only [h, Option.map_some, if_true]
  · simp only [hname, if_false, Option.map_id']

def mapIdx (f : Nat → α → β) (t : Table α) : Table β where
  entries := t.entries.mapIdx fun i e => (e.1, f i e.2)
  distinct := by
    have h : (t.entries.mapIdx fun i e => (e.1, f i e.2)).map Prod.fst = t.entries.map Prod.fst := by
      apply List.ext_getElem?
      intro i
      cases hi : t.entries[i]? <;> simp [hi]
    rw [h]
    exact t.distinct

theorem getElem?_mapIdx (f : Nat → α → β) :
    (t.mapIdx f).entries[i]? = t.entries[i]?.map fun e => (e.1, f i e.2) := by
  simp [mapIdx]

@[simp] theorem keys_mapIdx (f : Nat → α → β) : (t.mapIdx f).keys = t.keys := by
  apply List.ext_getElem?
  intro i
  cases hi : t.entries[i]? <;> simp [getElem?_mapIdx, hi]

@[simp] theorem size_mapIdx (f : Nat → α → β) : (t.mapIdx f).size = t.size := by
  simp [size, mapIdx]

section Steps

/-- The table of what a partial function makes of each value, up to the first failure. -/
def traverse {ε : Type} (f : α → Except ε β) (t : Table α) : Except ε (Table β) :=
  t.entries.foldlM (fun done e => (f e.2).map (done.insert e.1)) ∅

theorem entries_insert (h : name ∉ t.keys) : (t.insert name a).entries = t.entries ++ [(name, a)] := by
  obtain ⟨l, hl⟩ := t
  simp only [insert, keys] at h ⊢
  clear hl
  induction l with
  | nil => rfl
  | cons e rest ih =>
    simp only [List.map_cons, List.mem_cons, not_or] at h
    rw [putEntry, if_neg (Ne.symm h.1), ih h.2]
    rfl

theorem traverse_eq_ok {ε : Type} {f : α → Except ε β} {g : α → β}
    (h : ∀ e ∈ t.entries, f e.2 = .ok (g e.2)) : t.traverse f = .ok (t.map fun _ => g) := by
  obtain ⟨l, hl⟩ := t
  have hfold : ∀ (l : List (String × α)) (done : Table β), (done.keys ++ l.map Prod.fst).Nodup →
      (∀ e ∈ l, f e.2 = .ok (g e.2)) →
      ∃ u, l.foldlM (fun done e => (f e.2).map (done.insert e.1)) done = .ok u ∧
        u.entries = done.entries ++ l.map fun e => (e.1, g e.2) := by
    intro l
    induction l with
    | nil =>
      intro done _ _
      exact ⟨done, rfl, by simp⟩
    | cons e rest ih =>
      intro done hnodup hok
      have hnew : e.1 ∉ done.keys := by
        intro hmem
        have hdisj := (List.nodup_append.mp hnodup).2.2
        exact hdisj _ hmem e.1 (by simp) rfl
      have hentries := entries_insert (a := g e.2) hnew
      have hkeys : (done.insert e.1 (g e.2)).keys = done.keys ++ [e.1] := by
        simp [keys, hentries]
      obtain ⟨u, hu, hue⟩ := ih (done.insert e.1 (g e.2)) (by simpa [hkeys] using hnodup)
        fun d hd => hok d (List.mem_cons_of_mem _ hd)
      refine ⟨u, ?_, by simp [hue, hentries]⟩
      rw [List.foldlM_cons, hok e List.mem_cons_self]
      exact hu
  obtain ⟨u, hu, hue⟩ := hfold l ∅ hl h
  rw [traverse, hu]
  exact congrArg Except.ok (ext_entries hue)

/-- Where there is but one way to fail, one failure is enough. -/
theorem traverse_eq_error {ε : Type} {f : α → Except ε β} {fault : ε}
    (honly : ∀ e ∈ t.entries, ∀ other, f e.2 = .error other → other = fault)
    (hsome : ∃ e ∈ t.entries, f e.2 = .error fault) : t.traverse f = .error fault := by
  have hfold : ∀ (l : List (String × α)) (done : Table β),
      (∀ e ∈ l, ∀ other, f e.2 = .error other → other = fault) → (∃ e ∈ l, f e.2 = .error fault) →
      l.foldlM (fun done e => (f e.2).map (done.insert e.1)) done = .error fault := by
    intro l
    induction l with
    | nil =>
      intro done _ hex
      obtain ⟨e, he, -⟩ := hex
      cases he
    | cons e rest ih =>
      intro done hall hex
      rw [List.foldlM_cons]
      cases he : f e.2 with
      | error other =>
        rw [hall e List.mem_cons_self other he]
        rfl
      | ok b =>
        refine ih _ (fun d hd => hall d (List.mem_cons_of_mem _ hd)) ?_
        obtain ⟨d, hd, hfail⟩ := hex
        rcases List.mem_cons.mp hd with rfl | hd
        · rw [he] at hfail
          cases hfail
        · exact ⟨d, hd, hfail⟩
  exact hfold t.entries ∅ honly hsome

end Steps

section Entries

/-- The last entry under the name has the value. -/
def IsLast (l : List (String × α)) (name : String) (a : α) : Prop :=
  ∃ before after, l = before ++ (name, a) :: after ∧ name ∉ after.map Prod.fst

theorem isLast_cons {e : String × α} {l : List (String × α)} :
    IsLast (e :: l) name a ↔ IsLast l name a ∨ (name ∉ l.map Prod.fst ∧ e = (name, a)) := by
  constructor
  · rintro ⟨before, after, h, hnot⟩
    cases before with
    | nil =>
      cases h
      exact .inr ⟨hnot, rfl⟩
    | cons d before =>
      cases h
      exact .inl ⟨before, after, rfl, hnot⟩
  · rintro (⟨before, after, rfl, hnot⟩ | ⟨hnot, rfl⟩)
    · exact ⟨e :: before, after, rfl, hnot⟩
    · exact ⟨[], l, rfl, hnot⟩

theorem get?_foldl_insert (l : List (String × α)) (t : Table α) :
    (l.foldl (fun t e => t.insert e.1 e.2) t).get? name = some a ↔
      IsLast l name a ∨ (name ∉ l.map Prod.fst ∧ t.get? name = some a) := by
  induction l generalizing t with
  | nil => simp [IsLast]
  | cons e l ih =>
    rw [List.foldl_cons, ih, isLast_cons, get?_insert]
    obtain ⟨other, b⟩ := e
    by_cases hname : name = other
    · subst hname
      simp
    · have hne : other ≠ name := fun h => hname h.symm
      simp [hname, hne]

/-- Of several entries under one name the last one counts. -/
theorem get?_ofList_eq_some_iff {l : List (String × α)} : (ofList l).get? name = some a ↔ IsLast l name a := by
  refine (get?_foldl_insert l empty).trans ?_
  simp

theorem ofList_entries (t : Table α) : ofList t.entries = t := by
  have htraverse : t.traverse (fun a => (.ok a : Except Unit α)) = .ok (t.map fun _ a => a) :=
    traverse_eq_ok fun _ _ => rfl
  have hfold : t.traverse (fun a => (.ok a : Except Unit α)) = .ok (ofList t.entries) :=
    List.foldlM_pure
  have hmap : t.map (fun _ a => a) = t := ext_entries (List.map_id t.entries)
  rw [htraverse, hmap] at hfold
  exact (Except.ok.inj hfold).symm

/-- The entries that a partial function keeps, with what it makes of their values. -/
def filterMap (f : α → Option β) (t : Table α) : Table β where
  entries := t.entries.filterMap fun e => (f e.2).map (e.1, ·)
  distinct := by
    refine t.distinct.sublist ?_
    induction t.entries with
    | nil => exact List.Sublist.slnil
    | cons e rest ih =>
      cases hf : f e.2 with
      | none => simpa [List.filterMap_cons, hf] using ih.cons e.1
      | some b => simpa [List.filterMap_cons, hf] using ih.cons_cons e.1

theorem get?_filterMap {f : α → Option β} {b : β} :
    (t.filterMap f).get? name = some b ↔ ∃ a, t.get? name = some a ∧ f a = some b := by
  rw [get?_eq_some_iff, filterMap, List.mem_filterMap]
  constructor
  · rintro ⟨⟨other, a⟩, hmem, h⟩
    obtain ⟨b', hb, heq⟩ := Option.map_eq_some_iff.mp h
    cases heq
    exact ⟨a, get?_eq_some_iff.mpr hmem, hb⟩
  · rintro ⟨a, ha, hb⟩
    exact ⟨(name, a), get?_eq_some_iff.mp ha, by rw [hb]; rfl⟩

/-- One name, and values that are related. -/
def SameName (R : α → β → Prop) (d : String × α) (e : String × β) : Prop := d.1 = e.1 ∧ R d.2 e.2

section SameName

variable {R : α → β → Prop} {l : List (String × α)} {m : List (String × β)}

theorem forall₂_putEntry {d : String × α} {e : String × β} (hde : SameName R d e)
    (h : List.Forall₂ (SameName R) l m) :
    List.Forall₂ (SameName R) (putEntry d.1 d.2 l) (putEntry e.1 e.2 m) := by
  induction h with
  | nil => exact .cons hde .nil
  | @cons d' e' l m hde' hlm ih =>
    rw [putEntry, putEntry, ← hde'.1, ← hde.1]
    split
    · exact .cons ⟨rfl, hde.2⟩ hlm
    · exact .cons hde' (hde.1 ▸ ih)

theorem forall₂_ofList (h : List.Forall₂ (SameName R) l m) :
    List.Forall₂ (SameName R) (ofList l).entries (ofList m).entries := by
  have hfold : ∀ (s : Table α) (t : Table β), List.Forall₂ (SameName R) s.entries t.entries →
      List.Forall₂ (SameName R) (l.foldl (fun t e => t.insert e.1 e.2) s).entries
        (m.foldl (fun t e => t.insert e.1 e.2) t).entries := by
    induction h with
    | nil => exact fun _ _ hst => hst
    | cons hde _ ih => exact fun s t hst => ih _ _ (forall₂_putEntry hde hst)
  exact hfold empty empty .nil

/-- Where a partial function is defined throughout it may be put to the entries before they become a table. -/
theorem filterMap_ofList {f : α → Option β} (h : List.Forall₂ (SameName fun a b => f a = some b) l m) :
    (ofList l).filterMap f = ofList m := by
  refine ext_entries ?_
  rw [filterMap]
  dsimp only
  have hentries := forall₂_ofList h
  generalize (ofList l).entries = l' at hentries
  generalize (ofList m).entries = m' at hentries
  induction hentries with
  | nil => rfl
  | @cons d e l' m' hde _ ih =>
    rw [List.filterMap_cons, hde.2, hde.1, ih]
    rfl

end SameName

end Entries

end EventFold.Table
