import EventFold.Proofs.Json.Written
import EventFold.Proofs.Number.Finite
import EventFold.Proofs.Results

/-!
# Trees that are read

Whatever a reader gives can be written and read again: its numbers are finite or fit a word of 64 bits, and
its brackets are nested no deeper than there was room for.

`Ensures` says of a reader that all it can give has a property, so that a property of trees is carried through
the readers of their parts.
-/

namespace EventFold.Json

section Numbers

variable {word : Nat} {x y : Number} {exponent : Int} {l : Literal} {n : Int}

/-- An integer that fits a word, or a number that is finite. -/
def Numeral.IsLegible : Numeral → Prop
  | .integer n => IsWord n
  | .real x => x.isFinite = true

theorem isFinite_toNumber {n : Numeral} (h : n.IsLegible) : n.toNumber.isFinite = true := by
  cases n with
  | real x => exact h
  | integer n =>
    obtain ⟨hlow, hhigh⟩ := h
    rw [maxWord_eq] at hhigh
    have hsmallest : Nat.pow 2 63 = 2 ^ 63 := rfl
    exact Number.isFinite_ofInt (by omega)

theorem takeDigits_le (h : word ≤ maxWord) (ds : List Char) : (takeDigits word ds).1 ≤ maxWord := by
  induction ds generalizing word with
  | nil => exact h
  | cons d ds ih =>
    unfold takeDigits
    dsimp only
    split
    · rename_i hnext
      exact ih hnext
    · exact h

theorem isHalfOrMore_powerOfTen {k : Nat} (hk : k ≤ 2048) :
    Number.isHalfOrMore (powerOfTen k).toModel.unpack = true :=
  Number.isHalfOrMore_ofScientific k hk

theorem isFinite_scale? (hx : Number.Within 13 x.toModel.unpack) (h : scale? x exponent = some y) :
    y.isFinite = true := by
  have hdivided : ∀ k ≤ 2048, Number.Within 16 (x / powerOfTen k).toModel.unpack := fun k hk =>
    (hx.div (isHalfOrMore_powerOfTen hk) (by decide)).pack (by decide) (by decide)
  unfold scale? at h
  split at h
  · split at h
    · exact Option.some.inj h ▸ hx.isFinite
    · cases h
  · split at h
    · dsimp only at h
      split at h
      · rename_i hfinite
        exact Option.some.inj h ▸ hfinite
      · cases h
    · split at h
      · exact Option.some.inj h ▸ (hdivided _ (by omega)).isFinite
      · split at h
        · have htwice := ((hdivided 308 (by omega)).div
            (isHalfOrMore_powerOfTen (k := (-exponent - 308).toNat) (by omega)) (by decide)).pack
            (by decide) (by decide)
          exact Option.some.inj h ▸ htwice.isFinite
        · exact Option.some.inj h ▸ rfl

theorem isFinite_number? (h : l.number? = some x) : x.isFinite = true := by
  unfold Literal.number? at h
  dsimp only at h
  have hword := takeDigits_le (takeDigits_le (Nat.zero_le maxWord) l.whole) (l.fraction.getD [])
  rw [maxWord_eq] at hword
  obtain ⟨y, hy, rfl⟩ := Option.map_eq_some_iff.mp h
  have hfinite := isFinite_scale? (Number.within_ofNat (by omega)) hy
  split
  · exact Number.isFinite_neg hfinite
  · exact hfinite

theorem isWord_integer? (h : l.integer? = some n) : IsWord n := by
  have hword := maxWord_eq
  have hsmallest : Nat.pow 2 63 = 2 ^ 63 := rfl
  unfold Literal.integer? at h
  unfold IsWord
  split at h
  · dsimp only at h
    split at h
    · split at h
      · rename_i hrange
        simp only [Bool.and_eq_true, decide_eq_true_eq] at hrange
        obtain rfl := Option.some.inj h
        omega
      · cases h
    · split at h
      · obtain rfl := Option.some.inj h
        omega
      · cases h
  · cases h

theorem isLegible_numeral? {n : Numeral} (h : l.numeral? = some n) : n.IsLegible := by
  unfold Literal.numeral? at h
  split at h
  · rename_i hinteger
    obtain rfl := Option.some.inj h
    exact isWord_integer? hinteger
  · obtain ⟨x, hx, rfl⟩ := Option.map_eq_some_iff.mp h
    exact isFinite_number? hx

end Numbers

/-- The numbers are legible and the brackets are nested in the room. -/
inductive Fits : Nat → Json → Prop where
  | null {room : Nat} : Fits room .null
  | bool {room : Nat} (b : Bool) : Fits room (.bool b)
  | number {room : Nat} {n : Numeral} (h : n.IsLegible) : Fits room (.number n)
  | text {room : Nat} (s : String) : Fits room (.text s)
  | array {room : Nat} {items : List Json} (h : ∀ j ∈ items, Fits room j) : Fits (room + 1) (.array items)
  | object {room : Nat} {members : List (String × Json)} (h : ∀ m ∈ members, Fits room m.2) :
    Fits (room + 1) (.object members)

namespace Reader

/-- Whatever the reader gives has the property. -/
def Ensures {α : Type} (P : α → Prop) (r : Reader α) : Prop :=
  ∀ ⦃s a rest⦄, r s = .ok (a, rest) → P a

section Ensures

variable {α β σ : Type} {P : α → Prop} {Q : β → Prop} {R : σ → Prop} {r : Reader α} {f : α → Reader β}

theorem ensures_pure {a : α} (h : P a) : Ensures P (pure a : Reader α) := by
  rintro s a' rest ⟨⟩
  exact h

theorem ensures_malformed : Ensures P (malformed : Reader α) := by
  rintro s a rest ⟨⟩

theorem ensures_misshapen : Ensures P (misshapen : Reader α) := by
  rintro s a rest ⟨⟩

theorem Ensures.bind (hr : Ensures P r) (hf : ∀ a, P a → Ensures Q (f a)) : Ensures Q (r >>= f) := by
  intro s b rest h
  rw [bind_apply, bind_eq_ok_iff] at h
  obtain ⟨⟨a, s'⟩, ha, hb⟩ := h
  exact hf a (hr ha) hb

/-- What has been read before only decides which reader comes next. -/
theorem ensures_bind (hf : ∀ a, Ensures Q (f a)) : Ensures Q (r >>= f) :=
  Ensures.bind (P := fun _ => True) (fun _ _ _ _ => trivial) fun a _ => hf a

theorem Ensures.mono {P' : α → Prop} (h : Ensures P r) (hP : ∀ a, P a → P' a) : Ensures P' r :=
  fun _ _ _ hr => hP _ (h hr)

theorem Ensures.whole (h : Ensures P r) {text : String} {a : α} (hwhole : whole r text = .ok a) : P a := by
  obtain ⟨⟨b, rest⟩, hread, hrest⟩ := bind_eq_ok_iff.mp hwhole
  dsimp only at hrest
  split at hrest
  · cases hrest
    exact h hread
  · cases hrest

theorem Ensures.field (h : Ensures P r) : Ensures P (field r) := ensures_bind fun _ => h

variable {element : σ → Reader σ} {gathered start : σ}

/-- By induction on the number of elements: each of them keeps the property. -/
theorem ensures_elements (close : Char) (helement : ∀ gathered, R gathered → Ensures R (element gathered))
    (bound : Nat) (h : R gathered) : Ensures R (elements close element bound gathered) := by
  induction bound generalizing gathered with
  | zero => exact ensures_malformed
  | succ bound ih =>
    refine (helement gathered h).bind fun next hnext => ensures_bind fun c => ?_
    split
    · exact ih hnext
    · split
      · exact ensures_pure hnext
      · exact ensures_malformed

theorem ensures_bracket (opening close : Char)
    (helement : ∀ gathered, R gathered → Ensures R (element gathered)) (h : R start) :
    Ensures R (bracket opening close element start) := by
  refine ensures_bind fun _ => ensures_bind fun c => ?_
  split
  · exact ensures_bind fun _ => ensures_pure h
  · exact ensures_bind fun s => ensures_elements close helement s.length h

theorem ensures_array (h : Ensures P r) : Ensures (fun items => ∀ a ∈ items, P a) (array r) := by
  have hgathered : Ensures (fun done => ∀ a ∈ done, P a)
      (bracket '[' ']' (fun done => do return (← r) :: done) []) := by
    refine ensures_bracket '[' ']' (fun done hdone => h.bind fun a ha => ensures_pure ?_) ?_
    · exact List.forall_mem_cons.mpr ⟨ha, hdone⟩
    · exact List.forall_mem_nil P
  exact hgathered.bind fun done hdone => ensures_pure fun a ha => hdone a (List.mem_reverse.mp ha)

variable {member : σ → String → Reader σ}

theorem ensures_members (hmember : ∀ gathered key, R gathered → Ensures R (member gathered key))
    (h : R start) : Ensures R (members member start) :=
  ensures_bracket _ _ (fun gathered hgathered => ensures_bind fun _ => ensures_bind fun key =>
    hmember gathered key hgathered) h

theorem ensures_misplaced : Ensures P (misplaced : Reader α) := by
  refine ensures_bind fun c => ?_
  split
  · exact ensures_misshapen
  · exact ensures_misshapen
  · exact ensures_bind fun _ => ensures_misshapen

theorem ensures_object (hmember : ∀ gathered key, R gathered → Ensures R (member gathered key))
    (h : R start) : Ensures R (object member start) := by
  refine ensures_bind fun c => ?_
  split
  · exact ensures_members hmember h
  · exact ensures_misplaced

theorem ensures_table (h : Ensures P r) : Ensures (fun t => ∀ e ∈ t.entries, P e.2) (table r) := by
  refine ensures_object (fun t key ht => h.field.bind fun a ha => ?_) (List.forall_mem_nil _)
  exact ensures_pure (Table.forall_entries_insert ht ha)

end Ensures

theorem ensures_numeral : Ensures Numeral.IsLegible numeral := by
  refine ensures_bind fun l => ?_
  split
  · rename_i n hn
    exact ensures_pure (isLegible_numeral? hn)
  · exact ensures_malformed

theorem ensures_scalar (room : Nat) : Ensures (Fits room) scalar := by
  refine ensures_bind fun c => ?_
  split
  · exact ensures_bind fun _ => ensures_pure .null
  · exact ensures_bind fun _ => ensures_pure (.bool true)
  · exact ensures_bind fun _ => ensures_pure (.bool false)
  · exact ensures_bind fun _ => ensures_bind fun s => ensures_pure (.text s)
  · exact ensures_numeral.bind fun n hn => ensures_pure (.number hn)

theorem ensures_valueOr {room : Nat} {array object : Reader Json} (harray : Ensures (Fits room) array)
    (hobject : Ensures (Fits room) object) : Ensures (Fits room) (valueOr array object) := by
  refine ensures_bind fun c => ?_
  split
  · exact harray
  · exact hobject
  · exact ensures_scalar room

/-- A reader nests no deeper than it has room. -/
theorem ensures_value (room : Nat) : Ensures (Fits room) (value room) := by
  induction room with
  | zero => exact ensures_valueOr ensures_malformed ensures_malformed
  | succ room ih =>
    refine ensures_valueOr ?_ ?_
    · exact (ensures_array ih).bind fun items hitems => ensures_pure (.array hitems)
    · have hmembers : Ensures (fun done => ∀ m ∈ done, Fits room m.2)
          (members (fun done key => do return (key, ← field (value room)) :: done) []) := by
        refine ensures_members (fun done key hdone => ih.field.bind fun j hj => ensures_pure ?_) ?_
        · exact List.forall_mem_cons.mpr ⟨hj, hdone⟩
        · exact List.forall_mem_nil _
      exact hmembers.bind fun done hdone =>
        ensures_pure (.object fun m hm => hdone m (List.mem_reverse.mp hm))

theorem ensures_shaped {α : Type} (f : Json → Option α) (room : Nat) :
    Ensures (fun a => ∃ j, Fits room j ∧ f j = some a) (shaped f room) := by
  refine (ensures_value room).bind fun j hj => ?_
  split
  · rename_i a ha
    exact ensures_pure ⟨j, hj, ha⟩
  · exact ensures_misshapen

end Reader

end EventFold.Json
