/-!
# Tables

A table binds names to values and keeps the order in which the names first arrived: a value put under
a present name takes the old one's place, a new name goes to the end. Names are distinct by type.

The view of a table is `get?`; `keys` is its order. Each operation has one lemma for either.
-/

namespace EventFold

/-- Distinct names with their values, in order of first arrival. -/
structure Table (α : Type) where
  entries : List (String × α)
  distinct : (entries.map Prod.fst).Nodup
deriving DecidableEq

namespace Table

variable {α β : Type} {t : Table α} {name other : String} {a b : α}

def putEntry (name : String) (a : α) : List (String × α) → List (String × α)
  | [] => [(name, a)]
  | e :: rest => if e.1 = name then (name, a) :: rest else e :: putEntry name a rest

theorem keys_putEntry (name : String) (a : α) (l : List (String × α)) :
    (putEntry name a l).map Prod.fst =
      if name ∈ l.map Prod.fst then l.map Prod.fst else l.map Prod.fst ++ [name] := by
  induction l with
  | nil => simp [putEntry]
  | cons e rest ih =>
    unfold putEntry
    split
    · rename_i h; simp [h]
    · rename_i h
      simp only [List.map_cons, ih, List.mem_cons, Ne.symm h, false_or]
      split <;> simp

theorem nodup_keys_putEntry {l : List (String × α)} (h : (l.map Prod.fst).Nodup) :
    ((putEntry name a l).map Prod.fst).Nodup := by
  rw [keys_putEntry]
  split
  · exact h
  · rename_i hn
    rw [List.nodup_append]
    exact ⟨h, by simp, by rintro x hx y hy rfl; simp at hy; exact hn (hy ▸ hx)⟩

def empty : Table α := ⟨[], by simp⟩

instance : EmptyCollection (Table α) := ⟨empty⟩
instance : Inhabited (Table α) := ⟨empty⟩

def keys (t : Table α) : List String := t.entries.map Prod.fst

def size (t : Table α) : Nat := t.entries.length

def isEmpty (t : Table α) : Bool := t.entries.isEmpty

def get? (t : Table α) (name : String) : Option α := t.entries.lookup name

def contains (t : Table α) (name : String) : Bool := (t.get? name).isSome

/-- Puts `a` under `name`, in place if the name is present and at the end if not. -/
def insert (t : Table α) (name : String) (a : α) : Table α :=
  ⟨putEntry name a t.entries, nodup_keys_putEntry t.distinct⟩

def erase (t : Table α) (name : String) : Table α where
  entries := t.entries.filter (·.1 ≠ name)
  distinct := t.distinct.sublist (List.filter_sublist.map Prod.fst)

def map (f : String → α → β) (t : Table α) : Table β where
  entries := t.entries.map fun e => (e.1, f e.1 e.2)
  distinct := by simpa [Function.comp_def] using t.distinct

def modify (t : Table α) (name : String) (f : α → α) : Table α :=
  t.map fun n a => if n = name then f a else a

/-- The entries in turn; of several under one name the first gives the place and the last the value. -/
def ofList (l : List (String × α)) : Table α :=
  l.foldl (fun t e => t.insert e.1 e.2) empty

/-- The entries in the order of their names by code point. -/
def sorted (t : Table α) : List (String × α) :=
  t.entries.mergeSort fun d e => decide (d.1 ≤ e.1)

/-- Whether two tables bind the same names to values that agree, in whatever order. -/
def agrees (same : α → α → Bool) (s t : Table α) : Bool :=
  s.size == t.size && s.entries.all fun e => (t.get? e.1).any (same e.2)

@[simp] theorem keys_empty : (empty : Table α).keys = [] := rfl

theorem nodup_keys (t : Table α) : t.keys.Nodup := t.distinct

theorem keys_insert : (t.insert name a).keys = if name ∈ t.keys then t.keys else t.keys ++ [name] :=
  keys_putEntry name a t.entries

@[simp] theorem keys_map (f : String → α → β) : (t.map f).keys = t.keys := by
  simp [keys, map, Function.comp_def]

@[simp] theorem keys_modify (f : α → α) : (t.modify name f).keys = t.keys := keys_map _

theorem keys_erase : (t.erase name).keys = t.keys.filter (· ≠ name) := by
  simp [keys, erase, List.filter_map, Function.comp_def]

@[simp] theorem get?_empty : (empty : Table α).get? name = none := rfl

theorem lookup_putEntry (l : List (String × α)) :
    (putEntry name a l).lookup other = if other = name then some a else l.lookup other := by
  induction l with
  | nil => grind [putEntry]
  | cons e rest ih => grind [putEntry]

theorem get?_insert : (t.insert name a).get? other = if other = name then some a else t.get? other :=
  lookup_putEntry t.entries

@[simp] theorem get?_insert_self : (t.insert name a).get? name = some a := by simp [get?_insert]

theorem get?_map (f : String → α → β) : (t.map f).get? name = (t.get? name).map (f name) := by
  simp only [get?, map]
  induction t.entries with
  | nil => simp
  | cons e rest ih => simp only [List.map_cons, List.lookup_cons, ih]; grind

theorem get?_modify (f : α → α) :
    (t.modify name f).get? other = (t.get? other).map fun a => if other = name then f a else a :=
  get?_map _

theorem get?_erase : (t.erase name).get? other = if other = name then none else t.get? other := by
  simp only [get?, erase]
  induction t.entries with
  | nil => simp
  | cons e rest ih => simp only [List.filter_cons]; grind

theorem get?_isSome_iff : (t.get? name).isSome ↔ name ∈ t.keys := by
  simp only [get?, keys]
  induction t.entries with
  | nil => simp
  | cons e rest ih => simp only [List.map_cons, List.mem_cons]; grind

theorem contains_iff : t.contains name = true ↔ name ∈ t.keys := get?_isSome_iff

end Table

end EventFold
