import EventFold.Catalog
import EventFold.Proofs.Table
import EventFold.Proofs.Text.ByteOrder
import Mathlib.Data.List.Sort

/-!
# Types of properties

A value contradicts a catalog if it is there, is not null, and is of another type than its property has. The
properties `name` and `time` have fixed types, of which a declaration changes nothing; any other property has the
type that is declared for it. What is reported of an event is in the order of the names, each of them once,
whatever order the event has its properties in.
-/

namespace EventFold

variable {type : PropertyType} {v : Value} {c : Catalog} {fields other : Table Value} {p : String}

/-- The type that a value is of. Null is of none. -/
def Value.type? : Value → Option PropertyType
  | null => none
  | bool _ => some .boolean
  | number _ => some .number
  | text _ => some .string

theorem PropertyType.accepts_eq_false_iff : type.accepts v = false ↔ v ≠ .null ∧ v.type? ≠ some type := by
  cases type <;> cases v <;> simp [accepts, Value.type?]

namespace Table

variable {α : Type} {s t : Table α}

theorem pairwise_sorted (t : Table α) : (t.sorted.map Prod.fst).Pairwise (· < ·) := by
  have hle : t.sorted.Pairwise fun d e => d.1 ≤ e.1 := by
    have hsorted : t.sorted.Pairwise fun d e => decide (d.1 ≤ e.1) = true := by
      apply List.pairwise_mergeSort
      · intro a b c hab hbc
        exact decide_eq_true (le_trans (of_decide_eq_true hab) (of_decide_eq_true hbc))
      · intro a b
        simpa using le_total a.1 b.1
    exact hsorted.imp of_decide_eq_true
  have hne : (t.sorted.map Prod.fst).Nodup := ((List.mergeSort_perm _ _).map Prod.fst).nodup_iff.mpr t.distinct
  exact ((List.pairwise_map.mpr hle).and hne).imp fun ⟨hab, hne⟩ => lt_of_le_of_ne hab hne

theorem mem_sorted_iff {name : String} {a : α} : (name, a) ∈ t.sorted ↔ t.get? name = some a := by
  rw [get?_eq_some_iff, sorted, List.mem_mergeSort]

end Table

namespace Catalog

/-- The type that an implicit property has, declared or not. -/
def fixedType? (property : String) : Option PropertyType :=
  if property = "name" then some .string else if property = "time" then some .number else none

theorem type?_eq (c : Catalog) (p : String) : c.type? p = (fixedType? p).or (c.properties.get? p) := by
  simp only [type?, fixedType?, beq_iff_eq]
  split
  · rfl
  · split <;> rfl

theorem contradicts_iff : c.contradicts p v = true ↔
    v ≠ .null ∧ ∃ type, c.type? p = some type ∧ v.type? ≠ some type := by
  rw [contradicts, Option.any_eq_true]
  constructor
  · rintro ⟨type, htype, hrefused⟩
    obtain ⟨hnull, hother⟩ := PropertyType.accepts_eq_false_iff.mp (by simpa using hrefused)
    exact ⟨hnull, type, htype, hother⟩
  · rintro ⟨hnull, type, htype, hother⟩
    refine ⟨type, htype, ?_⟩
    rw [PropertyType.accepts_eq_false_iff.mpr ⟨hnull, hother⟩]
    rfl

/-- The value of the property is there, is not null, and is of another type than the property. -/
def Mistyped (typeOf : String → Option PropertyType) (fields : Table Value) (p : String) : Prop :=
  ∃ v type, fields.get? p = some v ∧ v ≠ .null ∧ typeOf p = some type ∧ v.type? ≠ some type

theorem mem_mistyped_iff : p ∈ c.mistyped fields ↔ Mistyped c.type? fields p := by
  rw [mistyped, List.mem_map]
  constructor
  · rintro ⟨⟨q, v⟩, hmem, rfl⟩
    obtain ⟨hsorted, hcontra⟩ := List.mem_filter.mp hmem
    obtain ⟨hnull, type, htype, hother⟩ := contradicts_iff.mp hcontra
    exact ⟨v, type, Table.mem_sorted_iff.mp hsorted, hnull, htype, hother⟩
  · rintro ⟨v, type, hget, hnull, htype, hother⟩
    refine ⟨(p, v), List.mem_filter.mpr ⟨Table.mem_sorted_iff.mpr hget, ?_⟩, rfl⟩
    exact contradicts_iff.mpr ⟨hnull, type, htype, hother⟩

theorem pairwise_mistyped (c : Catalog) (fields : Table Value) : (c.mistyped fields).Pairwise (· < ·) :=
  fields.pairwise_sorted.sublist (List.filter_sublist.map Prod.fst)

/-- The order of the properties does not matter: a list in strict order is known by what is in it. -/
theorem mistyped_congr (h : ∀ name, fields.get? name = other.get? name) : c.mistyped fields = c.mistyped other := by
  have hmem : ∀ p, p ∈ c.mistyped fields ↔ p ∈ c.mistyped other := by
    intro p
    rw [mem_mistyped_iff, mem_mistyped_iff, Mistyped, Mistyped, h]
  have hfields := c.pairwise_mistyped fields
  have hother := c.pairwise_mistyped other
  have hperm := (List.perm_ext_iff_of_nodup (hfields.imp ne_of_lt) (hother.imp ne_of_lt)).mpr hmem
  exact hperm.eq_of_pairwise (fun p q _ _ hpq hqp => absurd hqp (lt_asymm hpq)) hfields hother

theorem mistyped_some_iff {a : PropertyType} : Mistyped (fun _ => some a) fields p ↔
    ∃ v, fields.get? p = some v ∧ v ≠ .null ∧ v.type? ≠ some a := by
  simp [Mistyped]

/-- Of a fixed type and a declared one it makes no difference which counts, if they are the same or the value is of
neither. -/
theorem mistyped_comm_iff {fixed declared : Option PropertyType} :
    (Mistyped (fun _ => fixed.or declared) fields p ↔ Mistyped (fun _ => declared.or fixed) fields p) ↔
      ∀ a b v, fixed = some a → declared = some b → a ≠ b → fields.get? p = some v → v ≠ .null →
        v.type? ≠ some a ∧ v.type? ≠ some b := by
  cases fixed with
  | none => simp
  | some a =>
    cases declared with
    | none => simp
    | some b =>
      simp only [Option.some_or, mistyped_some_iff]
      constructor
      · rintro hsame _ _ v ⟨⟩ ⟨⟩ hab hget hnull
        have hiff : v.type? ≠ some a ↔ v.type? ≠ some b := by
          simpa only [hget, Option.some.injEq, exists_eq_left', hnull, ne_eq, not_false_eq_true, true_and] using hsame
        by_cases ha : v.type? = some a
        · have hb : v.type? ≠ some b := by rw [ha]; exact fun h => hab (Option.some.inj h)
          exact absurd ha (hiff.mpr hb)
        · exact ⟨ha, hiff.mp ha⟩
      · intro hneither
        by_cases hab : a = b
        · rw [hab]
        · have hneither := fun v => hneither a b v rfl rfl hab
          exact exists_congr fun v => and_congr_right fun hget => and_congr_right fun hnull =>
            iff_of_true (hneither v hget hnull).1 (hneither v hget hnull).2

/-- What is reported of an event is reported by the fixed types first. To go by the declared types first would come
to the same just where no implicit property is declared with another type, unless its value is of neither. -/
theorem mistyped_by_fixed_types (c : Catalog) (fields : Table Value) :
    (∀ p, p ∈ c.mistyped fields ↔ Mistyped (fun q => (fixedType? q).or (c.properties.get? q)) fields p) ∧
    (c.mistyped fields).Pairwise (fun p q => p.toUTF8.data.toList < q.toUTF8.data.toList) ∧
    (∀ other : Table Value, other.entries.Perm fields.entries → c.mistyped other = c.mistyped fields) ∧
    ((∀ p, p ∈ c.mistyped fields ↔ Mistyped (fun q => (c.properties.get? q).or (fixedType? q)) fields p) ↔
      ∀ p fixed declared v, fixedType? p = some fixed → c.properties.get? p = some declared → fixed ≠ declared →
        fields.get? p = some v → v ≠ .null → v.type? ≠ some fixed ∧ v.type? ≠ some declared) := by
  have hmem : ∀ p, p ∈ c.mistyped fields ↔
      Mistyped (fun q => (fixedType? q).or (c.properties.get? q)) fields p := by
    intro p
    rw [mem_mistyped_iff, funext c.type?_eq]
  refine ⟨hmem, (c.pairwise_mistyped fields).imp Text.bytes_lt, ?_, ?_⟩
  · intro other hperm
    apply mistyped_congr
    intro name
    apply Option.ext
    intro v
    rw [Table.get?_eq_some_iff, Table.get?_eq_some_iff, hperm.mem_iff]
  · refine forall_congr' fun p => ?_
    rw [hmem]
    exact mistyped_comm_iff

/-- A time that is declared to be a text is reported for being one, in whatever order the properties come. By the
declared type it would not be. -/
theorem mistyped_by_fixed_types_noon :
    let c : Catalog := ⟨.ofList [("time", .string), ("amount", .number)], ∅⟩
    let fields : Table Value := .ofList [("time", .text "noon"), ("amount", .text "12")]
    let turned : Table Value := .ofList [("amount", .text "12"), ("time", .text "noon")]
    turned.entries.Perm fields.entries ∧ c.mistyped fields = ["amount", "time"] ∧
      c.mistyped turned = ["amount", "time"] ∧
      Mistyped (fun q => (fixedType? q).or (c.properties.get? q)) fields "time" ∧
      ¬ Mistyped (fun q => (c.properties.get? q).or (fixedType? q)) fields "time" := by
  intro c fields turned
  obtain ⟨hmem, -, hperm, -⟩ := mistyped_by_fixed_types c fields
  have hturned : turned.entries.Perm fields.entries := by decide +kernel
  have hsorted : turned.sorted = turned.entries := List.mergeSort_of_pairwise (by decide +kernel)
  have hreported : c.mistyped turned = ["amount", "time"] := by
    rw [mistyped, hsorted]
    decide +kernel
  refine ⟨hturned, (hperm turned hturned).symm.trans hreported, hreported, ?_, ?_⟩
  · rw [← hmem, ← hperm turned hturned, hreported]
    decide
  · rintro ⟨v, type, hv, -, htype, hother⟩
    cases hv
    cases htype
    exact hother rfl

end Catalog

end EventFold
