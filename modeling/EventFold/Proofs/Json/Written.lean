import EventFold.Proofs.Json.Numeral
import EventFold.Proofs.Table

/-!
# Written texts are read back

Values and objects are read from the text that is written for them, in any spacing of blanks. Two things get
lost. A number that is not finite is written as `null`, and a finite one is read with two roundings, so that
reading it back is a property of the single number, `Number.ReadsBack`.
-/

namespace EventFold

open Json (Fault Reader)

/-- The number is read from the text that is written for it. -/
def Number.ReadsBack (x : Number) : Prop :=
  Json.Reader.numeral (Layout.json.render x) = .ok (.real x, [])

/-- If the value is a finite number, it reads back. -/
def Value.ReadsBack : Value → Prop
  | .number x => x.isFinite = true → x.ReadsBack
  | _ => True

def Value.isFinite : Value → Bool
  | .number x => x.isFinite
  | _ => true

/-- The value that the text of a value holds. -/
def Value.written : Value → Value
  | .number x => if x.isFinite then .number x else .null
  | v => v

theorem Value.written_eq_self_iff {v : Value} : v.written = v ↔ v.isFinite = true := by
  cases v with
  | number x => cases hx : x.isFinite <;> simp [written, isFinite, hx]
  | _ => simp [written, isFinite]

namespace Json

open Reader

variable {text : List Char} {c : Char}

section Values

variable {s : List Char} {n : Numeral}

/-- Whether a value without parts may begin with the character. -/
def beginsPlain (c : Char) : Bool := !isBlank c && c != '[' && c != '\x7b'

def beginsNumeral (c : Char) : Bool := c == '-' || c.isDigit

def Plain (text : List Char) : Prop := ∃ c t, text = c :: t ∧ beginsPlain c = true

theorem isBlank_of_beginsPlain (h : beginsPlain c = true) : isBlank c = false := by
  simp only [beginsPlain, Bool.and_eq_true, Bool.not_eq_true'] at h
  exact h.1.1

theorem exists_first_of_literal? {p : Literal × List Char} (h : literal? s = some p) :
    ∃ c t, s = c :: t ∧ beginsNumeral c = true := by
  cases s with
  | nil => cases h
  | cons c t =>
    refine ⟨c, t, rfl, ?_⟩
    unfold beginsNumeral
    by_cases hc : c = '-'
    · rw [hc]
      rfl
    · rw [literal?_plain fun u hu => hc (List.cons.inj hu).1, unsigned?] at h
      cases hd : c.isDigit with
      | true => exact Bool.or_true _
      | false =>
        have hnone : digits? (c :: t) = none := by simp [digits?, Number.splitDigits, hd]
        rw [whole?, hnone] at h
        cases h

theorem exists_first_of_numeral (h : numeral s = .ok (n, [])) :
    ∃ c t, s = c :: t ∧ beginsNumeral c = true := by
  rw [numeral_eq] at h
  cases hl : literal? s with
  | none =>
    rw [hl] at h
    cases h
  | some p => exact exists_first_of_literal? hl

theorem ne_of_beginsNumeral {d : Char} (h : beginsNumeral c = true) (hd : beginsNumeral d = false) :
    c ≠ d := by
  rintro rfl
  rw [hd] at h
  cases h

theorem beginsPlain_of_beginsNumeral (h : beginsNumeral c = true) : beginsPlain c = true := by
  have hne : ∀ d, beginsNumeral d = false → (c == d) = false :=
    fun d hd => beq_eq_false_iff_ne.mpr (ne_of_beginsNumeral h hd)
  simp only [beginsPlain, isBlank, bne, hne ' ' rfl, hne '\t' rfl, hne '\n' rfl, hne '\r' rfl,
    hne '[' rfl, hne '\x7b' rfl]
  rfl

theorem plain_of_numeral (h : numeral s = .ok (n, [])) : Plain s := by
  obtain ⟨c, t, rfl, hc⟩ := exists_first_of_numeral h
  exact ⟨c, t, rfl, beginsPlain_of_beginsNumeral hc⟩

theorem reads_numeral (h : numeral s = .ok (n, [])) : Reads scalar s (.ok (.number n)) := by
  obtain ⟨c, t, rfl, hc⟩ := exists_first_of_numeral h
  refine Reads.look (isBlank_of_beginsPlain (beginsPlain_of_beginsNumeral hc)) ?_
  split
  · exact absurd rfl (ne_of_beginsNumeral hc rfl)
  · exact absurd rfl (ne_of_beginsNumeral hc rfl)
  · exact absurd rfl (ne_of_beginsNumeral hc rfl)
  · exact absurd rfl (ne_of_beginsNumeral hc rfl)
  · have hread : Reads numeral (c :: t) (.ok n) := fun rest hrest => numeral_append h hrest
    exact hread.map Json.number

theorem reads_null : Reads scalar "null".toList (.ok .null) :=
  reads_word (c := 'n') (s := ['u', 'l', 'l']) rfl rfl rfl

theorem reads_bool (b : Bool) : Reads scalar (if b then "true" else "false").toList (.ok (.bool b)) := by
  cases b with
  | true => exact reads_word (c := 't') (s := ['r', 'u', 'e']) rfl rfl rfl
  | false => exact reads_word (c := 'f') (s := ['a', 'l', 's', 'e']) rfl rfl rfl

theorem reads_quoted (t : String) : Reads scalar (quoted t) (.ok (.text t)) := by
  have hread : Reads (do return Json.text (← take (string? .kept)))
      (t.toList.flatMap escapeChar ++ ['"']) (.ok (.text t)) := (takes_string t).reads.map Json.text
  exact Reads.look (c := '"') rfl ((takes_mark rfl).bind (f := fun _ => _) hread)

theorem plain_quoted (t : String) : Plain (quoted t) := ⟨'"', _, rfl, rfl⟩

theorem plain_null : Plain "null".toList := ⟨'n', ['u', 'l', 'l'], rfl, rfl⟩

theorem plain_bool (b : Bool) : Plain (if b then "true" else "false").toList := by
  cases b with
  | true => exact ⟨'t', ['r', 'u', 'e'], rfl, rfl⟩
  | false => exact ⟨'f', ['a', 'l', 's', 'e'], rfl, rfl⟩

theorem chars_real (x : Number) :
    (Numeral.real x).chars = if x.isFinite then Layout.json.render x else "null".toList := rfl

/-- A number that is not finite is written as null and read as such. -/
theorem reads_real {x : Number} (h : x.isFinite = true → x.ReadsBack) :
    Reads scalar (Numeral.real x).chars (.ok (if x.isFinite then .number (.real x) else .null)) := by
  rw [chars_real]
  split
  · rename_i hx
    exact reads_numeral (h hx)
  · exact reads_null

theorem plain_real {x : Number} (h : x.isFinite = true → x.ReadsBack) : Plain (Numeral.real x).chars := by
  rw [chars_real]
  split
  · rename_i hx
    exact plain_of_numeral (h hx)
  · exact plain_null

variable {spacing : Spacing} {depth : Nat} {v : Value}

/-- A value is read from its text, apart from a number that is not finite. -/
theorem reads_atom (spacing : Spacing) (depth : Nat) (h : v.ReadsBack) :
    Reads scalar (v.toJson.write spacing depth) (.ok v.written.toJson) := by
  cases v with
  | null => exact reads_null
  | bool b =>
    cases b with
    | true => exact reads_bool true
    | false => exact reads_bool false
  | number x =>
    have hread := reads_real (x := x) h
    have hwritten : (Value.number x).written.toJson =
        if x.isFinite then .number (.real x) else .null := by
      simp only [Value.written]
      split <;> rfl
    rw [hwritten]
    exact hread
  | text t => exact reads_quoted t

theorem plain_atom (spacing : Spacing) (depth : Nat) (h : v.ReadsBack) :
    Plain (v.toJson.write spacing depth) := by
  cases v with
  | null => exact plain_null
  | bool b =>
    cases b with
    | true => exact plain_bool true
    | false => exact plain_bool false
  | number x => exact plain_real h
  | text t => exact plain_quoted t

theorem reads_value_of_scalar {x : Except Fault Json} (h : Reads scalar text x) (hp : Plain text) (room : Nat) :
    Reads (Reader.value room) text x := by
  obtain ⟨c, t, rfl, hc⟩ := hp
  have hor : ∀ array object, Reads (valueOr array object) (c :: t) x := by
    intro array object
    refine Reads.look (isBlank_of_beginsPlain hc) ?_
    split
    · cases hc
    · cases hc
    · exact h
  cases room with
  | zero => exact hor _ _
  | succ room => exact hor _ _

theorem value?_toJson (v : Value) : v.toJson.value? = some v := by
  cases v <;> rfl

end Values

section Objects

variable {α σ : Type} {spacing : Spacing} {depth : Nat}

structure Spacing.IsBlank (spacing : Spacing) : Prop where
  line : ∀ depth, (spacing.line depth).all isBlank = true
  gap : spacing.gap.all isBlank = true

theorem spread_isBlank : Spacing.spread.IsBlank := by
  refine ⟨fun depth => ?_, rfl⟩
  rw [Spacing.spread, List.all_cons, List.all_replicate]
  split <;> rfl

def fieldText (spacing : Spacing) (depth : Nat) (j : Json) : List Char :=
  ':' :: (spacing.gap ++ j.write spacing depth)

def memberText (spacing : Spacing) (depth : Nat) (m : String × Json) : List Char :=
  quoted m.1 ++ fieldText spacing depth m.2

theorem writeMembers_eq (spacing : Spacing) (depth : Nat) (ms : List (String × Json)) :
    writeMembers spacing depth ms =
      separated (spacing.line depth) (ms.map (memberText spacing depth)) := by
  induction ms with
  | nil => rfl
  | cons m ms ih =>
    rw [writeMembers, ih, separated, separated, List.map_cons, List.flatMap_cons]
    simp [memberText, fieldText]

theorem write_object (spacing : Spacing) (depth : Nat) (m : String × Json) (ms : List (String × Json)) :
    write spacing depth (.object (m :: ms)) =
      '\x7b' :: (spacing.line (depth + 1) ++ (memberText spacing (depth + 1) m ++
        (separated (spacing.line (depth + 1)) (ms.map (memberText spacing (depth + 1))) ++
          (spacing.line depth ++ ['\x7d'])))) := by
  rw [write, writeMembers_eq]
  simp [memberText, fieldText]

theorem write_object_eq_cons (spacing : Spacing) (depth : Nat) (ms : List (String × Json)) :
    ∃ body, write spacing depth (.object ms) = '\x7b' :: body := by
  cases ms with
  | nil => exact ⟨_, rfl⟩
  | cons m ms => exact ⟨_, write_object spacing depth m ms⟩

theorem closes_bracket : Closes ']' := ⟨by decide, rfl, rfl⟩

theorem closes_brace : Closes '\x7d' := ⟨by decide, rfl, rfl⟩

variable {member : σ → String → Reader σ} {start next : σ} {key : String} {j : Json}
  {ms : List (String × Json)} {y : Except Fault σ}

/-- How the members of an object are gathered: a key, then what `member` makes of it. -/
def memberElement (member : σ → String → Reader σ) (gathered : σ) : Reader σ := do
  mark '"'
  member gathered (← take (string? .kept))

theorem skipsBlanks_memberElement (gathered : σ) : SkipsBlanks (memberElement member gathered) :=
  (skipsBlanks_mark '"').bind _

theorem reads_member (key : String) (h : Reads (member start key) (fieldText spacing depth j) y) :
    Reads (memberElement member start) (memberText spacing depth (key, j)) y := by
  have hkey := (takes_string key).bind (f := member start) h
  have hmember := (takes_mark (c := '"') rfl).bind
    (f := fun _ => do member start (← take (string? .kept))) hkey
  have htext : memberText spacing depth (key, j) =
      ['"'] ++ (key.toList.flatMap escapeChar ++ ['"'] ++ fieldText spacing depth j) := by
    simp [memberText, quoted]
  rw [htext]
  exact hmember

theorem memberText_eq_cons (spacing : Spacing) (depth : Nat) (m : String × Json) :
    ∃ body, memberText spacing depth m = '"' :: body :=
  ⟨_, rfl⟩

theorem reads_members (hsp : spacing.IsBlank)
    (h : Gathers (memberElement member) start (ms.map (memberText spacing (depth + 1))) y) :
    Reads (members member start) (write spacing depth (.object ms)) y := by
  intro rest _
  cases ms with
  | nil =>
    cases h
    exact bracket_empty rfl closes_brace rest
  | cons m ms =>
    obtain ⟨body, hbody⟩ := memberText_eq_cons spacing (depth + 1) m
    rw [List.map_cons, hbody] at h
    rw [write_object, hbody]
    have hopening : isBlank '\x7b' = false := rfl
    have hbracket := h.bracket hopening closes_brace skipsBlanks_memberElement (hsp.line (depth + 1))
      (hsp.line depth) rfl (by decide) rest
    change bracket '\x7b' '\x7d' (memberElement member) start _ = _
    rw [← hbracket]
    simp

theorem reads_object (hsp : spacing.IsBlank)
    (h : Gathers (memberElement member) start (ms.map (memberText spacing (depth + 1))) y) :
    Reads (Reader.object member start) (write spacing depth (.object ms)) y := by
  have hread := reads_members hsp h
  obtain ⟨body, hbody⟩ := write_object_eq_cons spacing depth ms
  rw [hbody] at hread ⊢
  exact Reads.look (c := '\x7b') rfl hread

theorem gathers_of_foldlM {β : Type} {element : σ → Reader σ} {step : σ → β → Except Fault σ}
    {text : β → List Char} {bs : List β} {gathered : σ}
    (h : ∀ b ∈ bs, ∀ gathered, Reads (element gathered) (text b) (step gathered b)) :
    Gathers element gathered (bs.map text) (bs.foldlM step gathered) := by
  induction bs generalizing gathered with
  | nil => exact .nil gathered
  | cons b bs ih =>
    have hread := h b List.mem_cons_self gathered
    rw [List.map_cons, List.foldlM_cons]
    cases hstep : step gathered b with
    | error fault =>
      rw [hstep] at hread
      exact .fail hread
    | ok next =>
      rw [hstep] at hread
      exact .cons hread (ih fun b hb => h b (List.mem_cons_of_mem _ hb))

theorem reads_table {β : Type} {item : Reader α} {f : β → Json} {out : β → Except Fault α} {t : Table β}
    (hsp : spacing.IsBlank) (hskip : SkipsBlanks item)
    (hitem : ∀ e ∈ t.entries, Reads item (write spacing (depth + 1) (f e.2)) (out e.2)) :
    Reads (table item) (write spacing depth (.object (t.entries.map fun e => (e.1, f e.2))))
      (t.traverse out) := by
  refine reads_object hsp ?_
  rw [List.map_map]
  refine gathers_of_foldlM fun e he gathered => reads_member e.1 ?_
  have hfield := (hitem e he).field hskip hsp.gap
  exact hfield.map (gathered.insert e.1)

end Objects

end Json

end EventFold
