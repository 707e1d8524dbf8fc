import EventFold.Event.Reading
import EventFold.Proofs.Json.Recognised

/-!
# The two readers of events

The lenient reader takes every object. Its event has what stands last under a name in the object, if that is a
scalar, and nothing else. The strict reader takes the objects without arrays and objects in them, also where a
later member stands under the name of such a one, and gives the same event.
-/

namespace EventFold

/-- Whether a tree has parts. -/
def Json.isNested : Json → Bool
  | .array _ => true
  | .object _ => true
  | _ => false

theorem Json.isNested_eq_false_iff {j : Json} : j.isNested = false ↔ ∃ v, j.value? = some v := by
  cases j <;> simp [isNested, value?]

namespace Event

variable {text : String} {members : List (String × Json)} {items : List (String × Value)} {e : Event}

theorem ofMembers_eq (members : List (String × Json)) :
    ofMembers members = ⟨(Table.ofList members).filterMap Json.value?⟩ := by
  have hlist : Table.ofList ((Table.ofList members).filterMap Json.value?).entries =
      (Table.ofList members).filterMap Json.value? := Table.ofList_entries _
  rw [← hlist]
  rfl

theorem ofLine_eq_ok_iff : ofLine text = .ok e ↔
    ∃ members, Json.IsText text (.object members) ∧ ofMembers members = e := by
  constructor
  · intro h
    unfold ofLine at h
    split at h
    · cases h
    · rename_i j hj
      cases j with
      | object members =>
        cases h
        exact ⟨members, Json.ofText_eq_ok_iff.mp hj, rfl⟩
      | _ => cases h
  · rintro ⟨members, htext, rfl⟩
    rw [ofLine, Json.ofText_eq_ok_iff.mpr htext]
    rfl

theorem get?_ofMembers {key : String} {v : Value} : (ofMembers members).get? key = some v ↔
    ∃ j, Table.IsLast members key j ∧ j.value? = some v := by
  rw [ofMembers_eq, get?, Table.get?_filterMap]
  simp only [Table.get?_ofList_eq_some_iff]

theorem exists_items_iff : (∃ items, List.Forall₂ (Table.SameName fun j v => j.value? = some v) members items) ↔
    ∀ m ∈ members, m.2.isNested = false := by
  induction members with
  | nil => simp
  | cons m members ih =>
    rw [List.forall_mem_cons, ← ih, Json.isNested_eq_false_iff]
    constructor
    · rintro ⟨items, h⟩
      cases h with
      | cons hm h => exact ⟨⟨_, hm.2⟩, _, h⟩
    · rintro ⟨⟨v, hv⟩, items, h⟩
      exact ⟨(m.1, v) :: items, .cons ⟨rfl, hv⟩ h⟩

theorem ofText_eq_ok_iff : ofText text = .ok e ↔ ∃ members items, Json.IsText text (.object members) ∧
    List.Forall₂ (Table.SameName fun j v => j.value? = some v) members items ∧ ofMembers members = e := by
  rw [ofText, map_eq_ok_iff]
  constructor
  · rintro ⟨t, ht, rfl⟩
    obtain ⟨members, items, htext, hitems, rfl⟩ := Json.tableText_eq_ok_iff.mp ht
    exact ⟨members, items, htext, hitems, by rw [ofMembers_eq, Table.filterMap_ofList hitems]⟩
  · rintro ⟨members, items, htext, hitems, rfl⟩
    refine ⟨.ofList items, Json.tableText_eq_ok_iff.mpr ⟨members, items, htext, hitems, rfl⟩, ?_⟩
    rw [ofMembers_eq, Table.filterMap_ofList hitems]

/-- The readers agree, and differ only in objects with arrays or objects in them. -/
theorem readers_agree (text : String) :
    (∀ e, ofText text = .ok e → ofLine text = .ok e) ∧
    ((∃ e, ofLine text = .ok e) ↔ ∃ members, Json.IsText text (.object members)) ∧
    (∀ e members, ofLine text = .ok e → Json.IsText text (.object members) →
      ∀ key v, e.get? key = some v ↔ ∃ j, Table.IsLast members key j ∧ j.value? = some v) ∧
    ((∃ e, ofText text = .ok e) ↔
      ∃ members, Json.IsText text (.object members) ∧ ∀ m ∈ members, m.2.isNested = false) := by
  refine ⟨fun e h => ?_, ⟨?_, ?_⟩, fun e members h htext key v => ?_, ⟨?_, ?_⟩⟩
  · obtain ⟨members, items, htext, -, he⟩ := ofText_eq_ok_iff.mp h
    exact ofLine_eq_ok_iff.mpr ⟨members, htext, he⟩
  · rintro ⟨e, h⟩
    obtain ⟨members, htext, -⟩ := ofLine_eq_ok_iff.mp h
    exact ⟨members, htext⟩
  · rintro ⟨members, htext⟩
    exact ⟨_, ofLine_eq_ok_iff.mpr ⟨members, htext, rfl⟩⟩
  · obtain ⟨other, hother, rfl⟩ := ofLine_eq_ok_iff.mp h
    obtain rfl := Json.object.inj (hother.unique htext)
    exact get?_ofMembers
  · rintro ⟨e, h⟩
    obtain ⟨members, items, htext, hitems, -⟩ := ofText_eq_ok_iff.mp h
    exact ⟨members, htext, exists_items_iff.mp ⟨items, hitems⟩⟩
  · rintro ⟨members, htext, hflat⟩
    obtain ⟨items, hitems⟩ := exists_items_iff.mpr hflat
    exact ⟨_, ofText_eq_ok_iff.mpr ⟨members, items, htext, hitems, rfl⟩⟩

def flatLine : String := "\x7b\"a\": 1, \"a\": 2\x7d"

def mixedLine : String := "\x7b\"a\": [1], \"a\": 2, \"b\": 3, \"b\": \x7b\x7d\x7d"

def lastEvent : Event := ⟨.ofList [("a", .number 2)]⟩

/-- In the second text an array is followed by a number under one name, and a number by an object under another. -/
theorem readers_agree_flatLine_mixedLine : ofLine flatLine = .ok lastEvent ∧
    ∃ members, Json.IsText mixedLine (.object members) ∧ (∃ m ∈ members, m.2.isNested = true) ∧
      (∃ j, Table.IsLast members "a" j ∧ j.value? = some (.number 2)) ∧
      ∀ j v, Table.IsLast members "b" j → j.value? ≠ some v := by
  have hline : ofLine mixedLine = .ok lastEvent := by decide +kernel
  have hrefused : ofText mixedLine = .error .misshapen := by decide +kernel
  obtain ⟨-, htaken, hheld, hstrict⟩ := readers_agree mixedLine
  obtain ⟨members, hmembers⟩ := htaken.mp ⟨lastEvent, hline⟩
  have hget := hheld lastEvent members hline hmembers
  refine ⟨(readers_agree flatLine).1 lastEvent (by decide +kernel), members, hmembers, ?_, ?_, ?_⟩
  · by_contra hflat
    obtain ⟨e, he⟩ := hstrict.mpr ⟨members, hmembers, fun m hm =>
      Bool.eq_false_iff.mpr fun hnested => hflat ⟨m, hm, hnested⟩⟩
    rw [hrefused] at he
    cases he
  · exact (hget "a" (.number 2)).mp (by decide +kernel)
  · intro j v hj hv
    have hb : lastEvent.get? "b" = some v := (hget "b" v).mpr ⟨j, hj, hv⟩
    cases hb

end Event

end EventFold
