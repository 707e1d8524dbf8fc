import EventFold.Proofs.Json.Trees

/-!
# Trees are read as they were written

A tree that fits the room of a reader is read from its own text, in any spacing of blanks, if the text of each
number in it is read as that number. So is what a tree stands for: a value, a form, or a tree with its
members in order, which is one that sorting leaves as it is.
-/

namespace EventFold.Json

open Reader

variable {spacing : Spacing} {depth room : Nat} {text : List Char} {j : Json}

theorem compact_isBlank : Spacing.compact.IsBlank := ⟨fun _ => rfl, rfl⟩

section Numbers

mutual

/-- The numbers of the tree that are not written as integers. -/
def numbers : Json → List Number
  | .number (.real x) => [x]
  | .array items => numbersOfItems items
  | .object members => numbersOfMembers members
  | _ => []

def numbersOfItems : List Json → List Number
  | [] => []
  | j :: items => j.numbers ++ numbersOfItems items

def numbersOfMembers : List (String × Json) → List Number
  | [] => []
  | (_, j) :: members => j.numbers ++ numbersOfMembers members

end

/-- The finite numbers of the tree read back. -/
def ReadsBack (j : Json) : Prop := ∀ x ∈ j.numbers, x.isFinite = true → x.ReadsBack

theorem numbersOfItems_eq (items : List Json) : numbersOfItems items = items.flatMap numbers := by
  induction items with
  | nil => rfl
  | cons j items ih => rw [numbersOfItems, ih, List.flatMap_cons]

theorem numbersOfMembers_eq (members : List (String × Json)) :
    numbersOfMembers members = members.flatMap fun m => m.2.numbers := by
  induction members with
  | nil => rfl
  | cons m members ih => rw [numbersOfMembers, ih, List.flatMap_cons]

theorem ReadsBack.item {items : List Json} (h : (array items).ReadsBack) (hj : j ∈ items) : j.ReadsBack := by
  intro x hx
  apply h
  rw [numbers, numbersOfItems_eq]
  exact List.mem_flatMap.mpr ⟨j, hj, hx⟩

theorem ReadsBack.member {members : List (String × Json)} {m : String × Json}
    (h : (object members).ReadsBack) (hm : m ∈ members) : m.2.ReadsBack := by
  intro x hx
  apply h
  rw [numbers, numbersOfMembers_eq]
  exact List.mem_flatMap.mpr ⟨m, hm, hx⟩

theorem numeral_chars {n : Numeral} (hlegible : n.IsLegible) (h : (number n).ReadsBack) :
    numeral n.chars = .ok (n, []) := by
  cases n with
  | integer n => exact numeral_integerChars hlegible
  | real x =>
    have hfinite : x.isFinite = true := hlegible
    rw [chars_real, if_pos hfinite]
    exact h x (by rw [numbers]; exact List.mem_singleton_self x) hfinite

end Numbers

section Arrays

theorem writeItems_eq (spacing : Spacing) (depth : Nat) (items : List Json) :
    writeItems spacing depth items = separated (spacing.line depth) (items.map (write spacing depth)) := by
  induction items with
  | nil => rfl
  | cons j items ih =>
    rw [writeItems, ih, separated, separated, List.map_cons, List.flatMap_cons]
    simp

theorem write_array (spacing : Spacing) (depth : Nat) (j : Json) (items : List Json) :
    write spacing depth (.array (j :: items)) =
      '[' :: (spacing.line (depth + 1) ++ (write spacing (depth + 1) j ++
        (separated (spacing.line (depth + 1)) (items.map (write spacing (depth + 1))) ++
          (spacing.line depth ++ [']'])))) := by
  rw [write, writeItems_eq]
  simp

theorem write_array_eq_cons (spacing : Spacing) (depth : Nat) (items : List Json) :
    ∃ body, write spacing depth (.array items) = '[' :: body := by
  cases items with
  | nil => exact ⟨_, rfl⟩
  | cons j items => exact ⟨_, write_array spacing depth j items⟩

/-- The text begins like a value does. -/
def Opens (text : List Char) : Prop := ∃ c t, text = c :: t ∧ isBlank c = false ∧ c ≠ ']'

theorem opens_write (spacing : Spacing) (depth : Nat) (hfits : j.Fits room) (h : j.ReadsBack) :
    Opens (write spacing depth j) := by
  cases hfits with
  | null => exact ⟨'n', _, rfl, rfl, by decide⟩
  | bool b =>
    cases b with
    | true => exact ⟨'t', _, rfl, rfl, by decide⟩
    | false => exact ⟨'f', _, rfl, rfl, by decide⟩
  | number hlegible =>
    obtain ⟨c, t, heq, hc⟩ := exists_first_of_numeral (numeral_chars hlegible h)
    exact ⟨c, t, heq, isBlank_of_beginsPlain (beginsPlain_of_beginsNumeral hc), ne_of_beginsNumeral hc rfl⟩
  | text s => exact ⟨'"', _, rfl, rfl, by decide⟩
  | @array _ items _ =>
    obtain ⟨body, hbody⟩ := write_array_eq_cons spacing depth items
    exact ⟨'[', body, hbody, rfl, by decide⟩
  | @object _ members _ =>
    obtain ⟨body, hbody⟩ := write_object_eq_cons spacing depth members
    exact ⟨'\x7b', body, hbody, rfl, by decide⟩

/-- What is gathered of elements that are all kept, the last one in front. -/
theorem gathers_all {β : Type} {element : List β → Reader (List β)} {text : β → List Char} {bs done : List β}
    (h : ∀ b ∈ bs, ∀ done, Reads (element done) (text b) (.ok (b :: done))) :
    Gathers element done (bs.map text) (.ok (bs.reverse ++ done)) := by
  induction bs generalizing done with
  | nil => exact .nil done
  | cons b bs ih =>
    rw [List.map_cons, List.reverse_cons, List.append_assoc, List.singleton_append]
    exact .cons (h b List.mem_cons_self done) (ih fun b hb => h b (List.mem_cons_of_mem _ hb))

/-- An array is read item by item. -/
theorem reads_array {element : Reader Json} {items : List Json} (depth : Nat) (hsp : spacing.IsBlank)
    (hskip : SkipsBlanks element) (hopens : ∀ j ∈ items, Opens (write spacing (depth + 1) j))
    (hitem : ∀ j ∈ items, Reads element (write spacing (depth + 1) j) (.ok j)) :
    Reads (Reader.array element) (write spacing depth (.array items)) (.ok items) := by
  have hgathers : Gathers (fun done => do return (← element) :: done) []
      (items.map (write spacing (depth + 1))) (.ok (items.reverse ++ [])) :=
    gathers_all fun j hj done => (hitem j hj).map (· :: done)
  rw [List.append_nil] at hgathers
  have hbracket : Reads (bracket '[' ']' (fun done => do return (← element) :: done) [])
      (write spacing depth (.array items)) (.ok items.reverse) := by
    intro rest _
    cases items with
    | nil => exact bracket_empty rfl closes_bracket rest
    | cons j items =>
      obtain ⟨c, t, htext, hc, hne⟩ := hopens j List.mem_cons_self
      rw [List.map_cons, htext] at hgathers
      have hopening : isBlank '[' = false := rfl
      have hread := hgathers.bracket hopening closes_bracket (fun done => hskip.bind _)
        (hsp.line (depth + 1)) (hsp.line depth) hc hne rest
      rw [← hread, write_array, htext]
      simp
  have hread := hbracket.map List.reverse
  rw [Except.map, List.reverse_reverse] at hread
  exact hread

end Arrays

section Trees

theorem skipsBlanks_value (room : Nat) : SkipsBlanks (value room) := by
  cases room with
  | zero => exact skipsBlanks_look.bind _
  | succ room => exact skipsBlanks_look.bind _

/-- By induction on the nesting: what stands in a bracket has room for one bracket less. -/
theorem reads_value (hsp : spacing.IsBlank) (hfits : j.Fits room) (h : j.ReadsBack) (depth : Nat) :
    Reads (value room) (write spacing depth j) (.ok j) := by
  induction hfits generalizing depth with
  | null => exact reads_value_of_scalar reads_null plain_null _
  | bool b =>
    have hread := reads_value_of_scalar (reads_bool b) (plain_bool b)
    cases b with
    | true => exact hread _
    | false => exact hread _
  | number hlegible =>
    have hchars := numeral_chars hlegible h
    exact reads_value_of_scalar (reads_numeral hchars) (plain_of_numeral hchars) _
  | text s => exact reads_value_of_scalar (reads_quoted s) (plain_quoted s) _
  | @array room items hitems ih =>
    have harray := reads_array depth hsp (skipsBlanks_value room)
      (fun j hj => opens_write spacing _ (hitems j hj) (h.item hj)) fun j hj => ih j hj (h.item hj) _
    have hread := harray.map Json.array
    obtain ⟨body, hbody⟩ := write_array_eq_cons spacing depth items
    rw [hbody] at hread ⊢
    exact Reads.look (c := '[') rfl hread
  | @object room members hmembers ih =>
    have hgathers : Gathers (memberElement fun done key => do return (key, ← field (value room)) :: done) []
        (members.map (memberText spacing (depth + 1))) (.ok (members.reverse ++ [])) := by
      refine gathers_all fun m hm done => reads_member m.1 ?_
      have hfield := (ih m hm (h.member hm) (depth + 1)).field (skipsBlanks_value room) hsp.gap
      exact hfield.map fun j => (m.1, j) :: done
    rw [List.append_nil] at hgathers
    have hread := (reads_members hsp hgathers).map fun done => Json.object done.reverse
    rw [Except.map, List.reverse_reverse] at hread
    obtain ⟨body, hbody⟩ := write_object_eq_cons spacing depth members
    rw [hbody] at hread ⊢
    exact Reads.look (c := '\x7b') rfl hread

/-- A value is read from the text of a tree that stands for it. -/
theorem reads_shaped {α : Type} {f : Json → Option α} {a : α} (hsp : spacing.IsBlank) (hfits : j.Fits room)
    (h : j.ReadsBack) (ha : f j = some a) (depth : Nat) :
    Reads (shaped f room) (write spacing depth j) (.ok a) := by
  intro rest hrest
  rw [shaped, bind_apply, reads_value hsp hfits h depth rest hrest]
  simp only [Except.map, Except.bind, ha]
  rfl

theorem skipsBlanks_shaped {α : Type} (f : Json → Option α) (room : Nat) : SkipsBlanks (shaped f room) :=
  (skipsBlanks_value room).bind _

end Trees

section Forms

theorem fits_value {v : Value} (h : j.Fits room) (hv : j.value? = some v) : v.toJson.Fits room := by
  cases h with
  | null =>
    cases hv
    exact .null
  | bool b =>
    cases hv
    exact .bool b
  | number hlegible =>
    cases hv
    exact .number (isFinite_toNumber hlegible)
  | text s =>
    cases hv
    exact .text s
  | array hitems => cases hv
  | object hmembers => cases hv

mutual

theorem form?_toJson : ∀ f : Form, f.toJson.form? = some f
  | .atom .null => rfl
  | .atom (.bool _) => rfl
  | .atom (.number _) => rfl
  | .atom (.text _) => rfl
  | .list items => by rw [Form.toJson, form?, forms?_toJsonItems items, Option.map_some]

theorem forms?_toJsonItems : ∀ fs : List Form, forms? (Form.toJsonItems fs) = some fs
  | [] => rfl
  | f :: fs => by
    rw [Form.toJsonItems, forms?, form?_toJson f, forms?_toJsonItems fs]
    rfl

end

theorem fits_toJsonItems {items : List Json} {fs : List Form}
    (hitems : ∀ j ∈ items, ∀ f, j.form? = some f → f.toJson.Fits room) (h : forms? items = some fs) :
    ∀ j ∈ Form.toJsonItems fs, j.Fits room := by
  induction items generalizing fs with
  | nil =>
    cases h
    exact List.forall_mem_nil _
  | cons j items ih =>
    obtain ⟨f, hf, hrest⟩ := Option.bind_eq_some_iff.mp h
    obtain ⟨fs', hfs, heq⟩ := Option.bind_eq_some_iff.mp hrest
    cases heq
    rw [Form.toJsonItems, List.forall_mem_cons]
    exact ⟨hitems j List.mem_cons_self f hf, ih (fun j hj => hitems j (List.mem_cons_of_mem _ hj)) hfs⟩

/-- A form is written with no more brackets than it was read with. -/
theorem fits_form {f : Form} (h : j.Fits room) (hf : j.form? = some f) : f.toJson.Fits room := by
  induction h generalizing f with
  | null =>
    cases hf
    exact .null
  | bool b =>
    cases hf
    exact .bool b
  | number hlegible =>
    cases hf
    exact .number (isFinite_toNumber hlegible)
  | text s =>
    cases hf
    exact .text s
  | array hitems ih =>
    obtain ⟨fs, hfs, rfl⟩ := Option.map_eq_some_iff.mp hf
    exact .array (fits_toJsonItems (fun j hj f hf => ih j hj hf) hfs)
  | object hmembers ih => cases hf

end Forms

section SortedMembers

/-- The keys rise. -/
def Rises (members : List (String × Json)) : Prop := members.Pairwise fun m n => m.1 < n.1

variable {key : String} {m : String × Json} {done members : List (String × Json)}

theorem lt_of_not_lt_of_ne {s t : String} (h : ¬ s < t) (hne : s ≠ t) : t < s :=
  Classical.byContradiction fun hn => hne (String.le_antisymm hn h)

theorem mem_of_mem_putSorted (h : m ∈ putSorted key j done) : m = (key, j) ∨ m ∈ done := by
  induction done with
  | nil => exact .inl (List.mem_singleton.mp h)
  | cons d done ih =>
    unfold putSorted at h
    split at h
    · exact List.mem_cons.mp h
    · split at h
      · exact (List.mem_cons.mp h).imp id (List.mem_cons_of_mem d)
      · rcases List.mem_cons.mp h with rfl | h
        · exact .inr List.mem_cons_self
        · exact (ih h).imp id (List.mem_cons_of_mem d)

theorem Rises.putSorted (key : String) (j : Json) (h : Rises done) : Rises (putSorted key j done) := by
  induction done with
  | nil => exact List.pairwise_singleton _ _
  | cons d done ih =>
    obtain ⟨hd, hdone⟩ := List.pairwise_cons.mp h
    unfold Json.putSorted
    split
    · rename_i hlt
      refine List.pairwise_cons.mpr ⟨List.forall_mem_cons.mpr ⟨hlt, fun m hm => ?_⟩, h⟩
      exact String.lt_trans hlt (hd m hm)
    · rename_i hnot
      split
      · rename_i heq
        exact List.pairwise_cons.mpr ⟨fun m hm => heq ▸ hd m hm, hdone⟩
      · rename_i hne
        refine List.pairwise_cons.mpr ⟨fun m hm => ?_, ih hdone⟩
        rcases mem_of_mem_putSorted hm with rfl | hm
        · exact lt_of_not_lt_of_ne hnot hne
        · exact hd m hm

theorem putSorted_eq_append (h : ∀ d ∈ done, d.1 < key) (j : Json) :
    Json.putSorted key j done = done ++ [(key, j)] := by
  induction done with
  | nil => rfl
  | cons d done ih =>
    obtain ⟨hd, hdone⟩ := List.forall_mem_cons.mp h
    have hnot : ¬ key < d.1 := fun hlt => String.lt_irrefl _ (String.lt_trans hlt hd)
    have hne : key ≠ d.1 := fun heq => String.lt_irrefl _ (heq ▸ hd)
    rw [Json.putSorted, if_neg hnot, if_neg hne, ih hdone, List.cons_append]

theorem mem_of_mem_sortedMembers (h : m ∈ sortedMembers done members) :
    m ∈ done ∨ ∃ n ∈ members, m.2 = n.2.sorted := by
  induction members generalizing done with
  | nil => exact .inl h
  | cons n members ih =>
    rcases ih (sortedMembers.eq_2 .. ▸ h) with hm | ⟨n', hn', heq⟩
    · rcases mem_of_mem_putSorted hm with rfl | hm
      · exact .inr ⟨n, List.mem_cons_self, rfl⟩
      · exact .inl hm
    · exact .inr ⟨n', List.mem_cons_of_mem _ hn', heq⟩

theorem Rises.sortedMembers (members : List (String × Json)) (h : Rises done) :
    Rises (sortedMembers done members) := by
  induction members generalizing done with
  | nil => exact h
  | cons n members ih => exact ih (h.putSorted n.1 n.2.sorted)

/-- Members that are in order already are taken one behind the other. -/
theorem sortedMembers_eq_append (hrises : Rises (done ++ members))
    (hsorted : ∀ m ∈ members, m.2.sorted = m.2) : sortedMembers done members = done ++ members := by
  induction members generalizing done with
  | nil => exact (List.append_nil done).symm
  | cons m members ih =>
    have hlast : ∀ d ∈ done, d.1 < m.1 := fun d hd =>
      (List.pairwise_append.mp hrises).2.2 d hd m List.mem_cons_self
    obtain ⟨hm, hmembers⟩ := List.forall_mem_cons.mp hsorted
    rw [Json.sortedMembers, hm, putSorted_eq_append hlast]
    have happend : done ++ [(m.1, m.2)] ++ members = done ++ m :: members := by simp
    rw [← happend] at hrises ⊢
    exact ih hrises hmembers

theorem sortedItems_eq_map (items : List Json) : sortedItems items = items.map sorted := by
  induction items with
  | nil => rfl
  | cons j items ih => rw [sortedItems, ih, List.map_cons]

/-- Putting members in order takes no more room, and it is done once and for all. -/
theorem fits_sorted (h : j.Fits room) : j.sorted.Fits room ∧ j.sorted.sorted = j.sorted := by
  induction h with
  | null => exact ⟨.null, rfl⟩
  | bool b => exact ⟨.bool b, rfl⟩
  | number hlegible => exact ⟨.number hlegible, rfl⟩
  | text s => exact ⟨.text s, rfl⟩
  | @array room items hitems ih =>
    rw [sorted, sortedItems_eq_map, sorted, sortedItems_eq_map, List.map_map]
    constructor
    · exact .array (List.forall_mem_map.mpr fun j hj => (ih j hj).1)
    · exact congrArg Json.array (List.map_congr_left fun j hj => (ih j hj).2)
  | @object room members hmembers ih =>
    have hout : ∀ m ∈ sortedMembers [] members, m.2.Fits room ∧ m.2.sorted = m.2 := by
      intro m hm
      rcases mem_of_mem_sortedMembers hm with hm | ⟨n, hn, heq⟩
      · cases hm
      · exact heq ▸ ih n hn
    have hrises : Rises (sortedMembers [] members) := Rises.sortedMembers members List.Pairwise.nil
    rw [sorted, sorted]
    constructor
    · exact .object fun m hm => (hout m hm).1
    · exact congrArg Json.object (sortedMembers_eq_append hrises fun m hm => (hout m hm).2)

end SortedMembers

end EventFold.Json
