import EventFold.Proofs.Form.Reading
import EventFold.Proofs.Text.Natural

/-!
# The words of forms

A text in a form is a word with a meaning of its own: as an element it may be a reference, as the head of a list it
says what the list is to be. Beginnings do not overlap, so a word has one meaning. Each kind of word has an
equation here for what it is read as.
-/

namespace EventFold

namespace Text

variable {beginning s rest : String}

theorem dropBeginning?_eq_some_iff : dropBeginning? beginning s = some rest ↔ s = beginning ++ rest := by
  unfold dropBeginning?
  rw [Option.map_eq_some_iff]
  constructor
  · rintro ⟨t, ht, rfl⟩
    apply String.toList_inj.mp
    rw [String.toList_append, String.toList_ofList]
    exact after?_eq_some_iff.mp ht
  · rintro rfl
    exact ⟨rest.toList, by rw [String.toList_append, after?_append], String.ofList_toList⟩

theorem dropBeginning?_eq_none_iff : dropBeginning? beginning s = none ↔ ∀ t, s ≠ beginning ++ t := by
  simp only [Option.eq_none_iff_forall_ne_some, ne_eq, dropBeginning?_eq_some_iff]

end Text

theorem Operator.ofKeyword?_eq_some_iff {s : String} {op : Operator} :
    Operator.ofKeyword? s = some op ↔ s = op.keyword := by
  constructor
  · intro h
    have hfound := List.find?_some h
    exact (eq_of_beq hfound).symm
  · rintro rfl
    exact op.ofKeyword?_keyword

theorem Operator.ofKeyword?_eq_none_iff {s : String} :
    Operator.ofKeyword? s = none ↔ ∀ op : Operator, s ≠ op.keyword := by
  simp only [Option.eq_none_iff_forall_ne_some, ne_eq, Operator.ofKeyword?_eq_some_iff]

theorem AggregatorKind.ofTag?_eq_some_iff {s : String} {kind : AggregatorKind} :
    AggregatorKind.ofTag? s = some kind ↔ s = kind.tag := by
  constructor
  · intro h
    exact (Form.kind_of_tag? h).symm
  · rintro rfl
    exact kind.ofTag?_tag

theorem AggregatorKind.ofTag?_eq_none_iff {s : String} :
    AggregatorKind.ofTag? s = none ↔ ∀ kind : AggregatorKind, s ≠ kind.tag := by
  simp only [Option.eq_none_iff_forall_ne_some, ne_eq, AggregatorKind.ofTag?_eq_some_iff]

namespace Form

section Elements

/-- The beginnings of references. -/
def beginnings : List String := ["event.", "var.", "variables.", "agg.", "aggregators.", "arg.", "func."]

/-- What a text can be as an element of a list. -/
inductive ElementWord : String → Prop where
  | property (name : String) : ElementWord ("event." ++ name)
  | var {beginning : String} (h : beginning ∈ ["var.", "variables."]) (name : String) :
    ElementWord (beginning ++ name)
  | aggregator {beginning : String} (h : beginning ∈ ["agg.", "aggregators."]) (name : String) :
    ElementWord (beginning ++ name)
  | argument {index : String} {n : Nat} (h : Text.Spells index.toList n) (hn : n ≤ maxIndex) :
    ElementWord ("arg." ++ index)
  | noIndex {index : String} (h : ∀ n ≤ maxIndex, ¬ Text.Spells index.toList n) : ElementWord ("arg." ++ index)
  | function (name : String) : ElementWord ("func." ++ name)
  | plain {s : String} (h : ∀ beginning ∈ beginnings, ∀ t, s ≠ beginning ++ t) : ElementWord s

variable {names : Vocabulary} {s name beginning : String} {n count : Nat}

theorem elementWord (s : String) : ElementWord s := by
  by_cases h : ∀ beginning ∈ beginnings, ∀ t, s ≠ beginning ++ t
  · exact .plain h
  · simp only [Classical.not_forall, Classical.not_not] at h
    obtain ⟨beginning, hmem, t, rfl⟩ := h
    simp only [beginnings, List.mem_cons, List.not_mem_nil, or_false] at hmem
    rcases hmem with rfl | rfl | rfl | rfl | rfl | rfl | rfl
    · exact .property t
    · exact .var (by simp) t
    · exact .var (by simp) t
    · exact .aggregator (by simp) t
    · exact .aggregator (by simp) t
    · by_cases hindex : ∃ n ≤ maxIndex, Text.Spells t.toList n
      · obtain ⟨n, hn, hspells⟩ := hindex
        exact .argument hspells hn
      · exact .noIndex fun n hn hspells => hindex ⟨n, hn, hspells⟩
    · exact .function t

theorem reference?_property (name : String) : reference? ("event." ++ name) = some (.property name) := by
  simp [reference?, Text.dropBeginning?, Text.after?]

theorem reference?_var (h : beginning ∈ ["var.", "variables."]) (name : String) :
    reference? (beginning ++ name) = some (.var name) := by
  simp only [List.mem_cons, List.not_mem_nil, or_false] at h
  rcases h with rfl | rfl <;> simp [reference?, Text.dropBeginning?, Text.after?]

theorem reference?_aggregator (h : beginning ∈ ["agg.", "aggregators."]) (name : String) :
    reference? (beginning ++ name) = some (.aggregator name) := by
  simp only [List.mem_cons, List.not_mem_nil, or_false] at h
  rcases h with rfl | rfl <;> simp [reference?, Text.dropBeginning?, Text.after?]

theorem reference?_argument (index : String) : reference? ("arg." ++ index) = some (.argument index) := by
  simp [reference?, Text.dropBeginning?, Text.after?]

theorem reference?_function (name : String) : reference? ("func." ++ name) = some (.function name) := by
  simp [reference?, Text.dropBeginning?, Text.after?]

theorem reference?_plain (h : ∀ beginning ∈ beginnings, ∀ t, s ≠ beginning ++ t) : reference? s = none := by
  have hnone : ∀ beginning ∈ beginnings, Text.dropBeginning? beginning s = none :=
    fun beginning hmem => Text.dropBeginning?_eq_none_iff.mpr (h beginning hmem)
  simp only [beginnings, List.forall_mem_cons] at hnone
  simp [reference?, hnone]

theorem index?_eq_some_iff : index? s = some n ↔ Text.Spells s.toList n ∧ n ≤ maxIndex := by
  rw [index?, Option.filter_eq_some_iff, Text.natural?_eq_some_iff, decide_eq_true_iff]

theorem checkedName_eq (kind : NameKind) (known : String → Bool) (name : String) : checkedName kind known name =
    if name = "" ∨ known name = false then .error (.unknownName kind name) else .ok name := by
  have hcond : (name.isEmpty || !known name) = true ↔ name = "" ∨ known name = false := by
    rw [Bool.or_eq_true, String.isEmpty_iff, Bool.not_eq_true']
  simp only [checkedName, hcond]

/-- A name that stands in a reference is refused if it is empty or not known. -/
theorem textExpr_property (name : String) : textExpr names ("event." ++ name) =
    if name = "" ∨ names.property name = false then .error (.unknownName .property name)
    else .ok (.property name) := by
  simp only [textExpr, reference?_property, checkedName_eq]
  split <;> rfl

theorem textExpr_var (h : beginning ∈ ["var.", "variables."]) (name : String) :
    textExpr names (beginning ++ name) =
      if name = "" ∨ names.var name = false then .error (.unknownName .var name) else .ok (.var name) := by
  simp only [textExpr, reference?_var h, checkedName_eq]
  split <;> rfl

theorem textExpr_aggregator (h : beginning ∈ ["agg.", "aggregators."]) (name : String) :
    textExpr names (beginning ++ name) =
      if name = "" ∨ names.aggregator name = false then .error (.unknownName .aggregator name)
      else .ok (.aggregator name) := by
  simp only [textExpr, reference?_aggregator h, checkedName_eq]
  split <;> rfl

theorem textExpr_argument_of_spells {index : String} (h : Text.Spells index.toList n) (hn : n ≤ maxIndex) :
    textExpr names ("arg." ++ index) = .ok (.argument n) := by
  simp only [textExpr, reference?_argument, index?_eq_some_iff.mpr ⟨h, hn⟩]

theorem textExpr_of_noIndex {index : String} (h : ∀ n ≤ maxIndex, ¬ Text.Spells index.toList n) :
    textExpr names ("arg." ++ index) = .error (.argumentIndex ("arg." ++ index)) := by
  have hnone : index? index = none := by
    rw [Option.eq_none_iff_forall_ne_some]
    intro n hn
    obtain ⟨hspells, hle⟩ := index?_eq_some_iff.mp hn
    exact h n hle hspells
  simp only [textExpr, reference?_argument, hnone]

theorem textExpr_function (name : String) :
    textExpr names ("func." ++ name) = .error (.functionOutsideCall ("func." ++ name)) := by
  simp only [textExpr, reference?_function]

theorem textExpr_plain (h : ∀ beginning ∈ beginnings, ∀ t, s ≠ beginning ++ t) :
    textExpr names s = .ok (.const (.text s)) := by
  simp only [textExpr, reference?_plain h]

end Elements

section Heads

variable {s : String}

theorem readHead_call (name : String) (count : Nat) : readHead (atom (.text ("func." ++ name))) count =
    if name = "" then .error (.unknownName .function "") else .ok (.call name) := by
  have hname : Text.dropBeginning? "func." ("func." ++ name) = some name := Text.dropBeginning?_eq_some_iff.mpr rfl
  simp only [readHead, hname, String.isEmpty_iff]

theorem readHead_if (count : Nat) : readHead (atom (.text "if")) count =
    if count ≠ 3 then .error (.arity "if" 3 count) else .ok .choose := by
  have hname : Text.dropBeginning? "func." "if" = none := by decide +kernel
  simp [readHead, hname]

theorem readHead_keyword (op : Operator) (count : Nat) : readHead (atom (.text op.keyword)) count =
    if count < 2 then .error (.arity op.keyword 2 count) else .ok (.apply op) := by
  have hname : Text.dropBeginning? "func." op.keyword = none := by cases op <;> decide +kernel
  have hif : (op.keyword == "if") = false := by cases op <;> decide +kernel
  simp only [readHead, hname, hif, op.ofKeyword?_keyword, Bool.false_eq_true, if_false]
  rfl

theorem readHead_unknown (hcall : ∀ name, s ≠ "func." ++ name) (hif : s ≠ "if")
    (hkeyword : ∀ op : Operator, s ≠ op.keyword) (count : Nat) :
    readHead (atom (.text s)) count = .error (.unexpectedHead (atom (.text s))) := by
  have hname : Text.dropBeginning? "func." s = none := Text.dropBeginning?_eq_none_iff.mpr hcall
  have hop : Operator.ofKeyword? s = none := Operator.ofKeyword?_eq_none_iff.mpr hkeyword
  simp [readHead, hname, hif, hop]

theorem readHead_of_not_text {head : Form} (h : ∀ s, head ≠ atom (.text s)) (count : Nat) :
    readHead head count = .error (.unexpectedHead head) := by
  unfold readHead
  split
  · exact absurd rfl (h _)
  · rfl

/-- What can stand at the head of a list. -/
inductive HeadWord : Form → Prop where
  | call (name : String) : HeadWord (atom (.text ("func." ++ name)))
  | choose : HeadWord (atom (.text "if"))
  | keyword (op : Operator) : HeadWord (atom (.text op.keyword))
  | unknown {s : String} (hcall : ∀ name, s ≠ "func." ++ name) (hif : s ≠ "if")
    (hkeyword : ∀ op : Operator, s ≠ op.keyword) : HeadWord (atom (.text s))
  | notText {head : Form} (h : ∀ s, head ≠ atom (.text s)) : HeadWord head

theorem headWord (head : Form) : HeadWord head := by
  by_cases htext : ∃ s, head = atom (.text s)
  · obtain ⟨s, rfl⟩ := htext
    by_cases hcall : ∃ name, s = "func." ++ name
    · obtain ⟨name, rfl⟩ := hcall
      exact .call name
    by_cases hif : s = "if"
    · exact hif ▸ .choose
    by_cases hkeyword : ∃ op : Operator, s = op.keyword
    · obtain ⟨op, rfl⟩ := hkeyword
      exact .keyword op
    exact .unknown (not_exists.mp hcall) hif (not_exists.mp hkeyword)
  · exact .notText (not_exists.mp htext)

end Heads

end Form

end EventFold
