import EventFold.Proofs.Aggregator.Alone
import EventFold.Proofs.Results
import EventFold.Snapshot
import Mathlib.Algebra.Group.Nat.Defs
import Mathlib.Order.Bounds.Defs

/-!
# Funnels

An event takes a funnel one step on if the step whose turn it is holds, and otherwise leaves it where it is. The
steps taken are counted in a word of 64 bits. That is the only way for the count to go back: at the end of the
words it begins again with zero.

A funnel takes steps as soon as it can. No choice of events lets it take more: `matchable` are the numbers of
steps that some choice lets it take, and the funnel comes to the greatest of them.
-/

namespace EventFold

/-- The expression evaluates, to a value that counts as true. -/
def Expr.Holds (e : Expr) (scope : Scope) (s : CallStack) : Prop :=
  ∃ v, (e.run scope s).1 = .ok v ∧ v.truthy = true

namespace Aggregator

/-- The step that a funnel tries after so many steps. There is none only if it has no steps at all. -/
def step? (steps : List Expr) (taken : Nat) : Option Expr := steps[taken % steps.length]?

/-- The event takes a funnel on from so many steps. -/
def Takes (steps : List Expr) (taken : Nat) (scope : Scope) (s : CallStack) : Prop :=
  ∃ step, step? steps taken = some step ∧ step.Holds scope s

/-- The step that a funnel tries after so many steps evaluates, whatever its value. -/
def Decides (steps : List Expr) (taken : Nat) (scope : Scope) (s : CallStack) : Prop :=
  ∀ step, step? steps taken = some step → ∃ v, (step.run scope s).1 = .ok v

variable {a : Aggregator} {steps : List Expr} {step : Expr} {taken : Nat} {c : UInt64} {scope : Scope} {s : CallStack}
  {v : Value}

theorem isSome_step? (hne : steps ≠ []) (taken : Nat) : (step? steps taken).isSome = true := by
  have hpos : 0 < steps.length := List.length_pos_iff.mpr hne
  rw [step?, List.getElem?_eq_getElem (Nat.mod_lt taken hpos)]
  rfl

theorem decides_iff (hstep : step? steps taken = some step) :
    Decides steps taken scope s ↔ ∃ v, (step.run scope s).1 = .ok v := by
  constructor
  · exact fun h => h step hstep
  · intro h other hother
    rw [hstep] at hother
    exact Option.some.inj hother ▸ h

theorem Takes.decides (h : Takes steps taken scope s) : Decides steps taken scope s := by
  obtain ⟨step, hstep, v, hv, -⟩ := h
  exact (decides_iff hstep).mpr ⟨v, hv⟩

section Event

variable (hrule : a.rule = .funnel steps) (hstate : a.state = .reached c)
include hrule hstate

/-- What the step whose turn it is makes of an event decides on the move. -/
theorem resultOn_move_funnel (scope : Scope) (s : CallStack) : (a.move scope).resultOn s =
    match step? steps c.toNat with
    | none => .ok .stay
    | some step => (step.run scope s).1.map fun v => if v.truthy then .enter (.reached (c + 1)) else .stay := by
  have hmove : a.move scope = funnelMove scope steps c := by
    unfold move
    rw [hrule, hstate]
  rw [hmove, funnelMove, ← step?]
  cases step? steps c.toNat with
  | none => rfl
  | some step =>
    refine ((step.eval_balanced scope).resultOn_bind _ s).trans ?_
    simp only [Expr.run_eq]
    cases (step.eval scope).resultOn s with
    | error e => rfl
    | ok v => cases hv : v.truthy <;> simp [Except.bind, Except.map, hv]

theorem process_of_takes (h : Takes steps c.toNat scope s) :
    a.process scope s = ⟨({ a with state := .reached (c + 1) }, s), .ok (), #[]⟩ := by
  obtain ⟨step, hstep, v, hv, htruthy⟩ := h
  have hmove := resultOn_move_funnel hrule hstate scope s
  simp only [hstep, hv, Except.map, htruthy, if_true] at hmove
  exact process_of_ok hmove

/-- An event that takes no step leaves the funnel as it is. -/
theorem process_of_decides (hdecides : Decides steps c.toNat scope s) (hnot : ¬ Takes steps c.toNat scope s) :
    a.process scope s = ⟨(a, s), .ok (), #[]⟩ := by
  have hmove := resultOn_move_funnel hrule hstate scope s
  cases hstep : step? steps c.toNat with
  | none =>
    rw [hstep] at hmove
    exact process_of_ok hmove
  | some step =>
    obtain ⟨v, hv⟩ := hdecides step hstep
    have hfalse : ¬ v.truthy = true := fun htruthy => hnot ⟨step, hstep, v, hv, htruthy⟩
    simp only [hstep, hv, Except.map, if_neg hfalse] at hmove
    exact process_of_ok hmove

theorem process_of_not_decides (h : ¬ Decides steps c.toNat scope s) :
    ∃ e, a.process scope s = ⟨(a, s), .error (.evaluation e), #[]⟩ := by
  have hmove := resultOn_move_funnel hrule hstate scope s
  cases hstep : step? steps c.toNat with
  | none =>
    refine absurd (fun step hsome => ?_) h
    rw [hstep] at hsome
    cases hsome
  | some step =>
    cases hrun : (step.run scope s).1 with
    | ok v => exact absurd ((decides_iff hstep).mpr ⟨v, hrun⟩) h
    | error e =>
      simp only [hstep, hrun, Except.map] at hmove
      exact ⟨e, process_of_error hmove⟩

/-- Whether the step whose turn it is fails or does not hold, the funnel stays as it is. -/
theorem process_of_not_takes (h : ¬ Takes steps c.toNat scope s) : (a.process scope s).after = (a, s) ∧
    ((a.process scope s).result = .ok () ↔ Decides steps c.toNat scope s) := by
  by_cases hdecides : Decides steps c.toNat scope s
  · rw [process_of_decides hrule hstate hdecides h]
    exact ⟨rfl, iff_of_true rfl hdecides⟩
  · obtain ⟨e, he⟩ := process_of_not_decides hrule hstate hdecides
    rw [he]
    exact ⟨rfl, iff_of_false nofun hdecides⟩

end Event

theorem Attained.exists_reached (h : a.Attained) (hrule : a.rule = .funnel steps) :
    ∃ c, a.state = .reached c := by
  have hkind := h.kind_eq
  rw [kind, hrule] at hkind
  cases hstate : a.state with
  | reached c => exact ⟨c, rfl⟩
  | selected v =>
    rw [hstate] at hkind
    cases hkind
  | standing x =>
    rw [hstate] at hkind
    cases hkind

/-- What an event does to a funnel, whatever has been done to it before. It takes a step if the step whose turn
it is holds, and the count goes up by one then. Only from the last of the words it goes back, to zero. -/
theorem Attained.funnel_counts (h : a.Attained) (hrule : a.rule = .funnel steps) (scope : Scope)
    (s : CallStack) :
    ∃ c d : UInt64, a.state = .reached c ∧
      (a.process scope s).after = ({ a with state := .reached d }, s) ∧
      (steps ≠ [] → (step? steps c.toNat).isSome = true) ∧
      ((a.process scope s).result = .ok () ↔ Decides steps c.toNat scope s) ∧
      (Takes steps c.toNat scope s → d.toNat = (c.toNat + 1) % 2 ^ 64) ∧
      (¬ Takes steps c.toNat scope s → d = c) ∧
      (d.toNat < c.toNat ↔ c.toNat = 2 ^ 64 - 1 ∧ Takes steps c.toNat scope s) := by
  obtain ⟨c, hstate⟩ := h.exists_reached hrule
  have hstep : steps ≠ [] → (step? steps c.toNat).isSome = true := fun hne => isSome_step? hne c.toNat
  by_cases htakes : Takes steps c.toNat scope s
  · have hprocess := process_of_takes hrule hstate htakes
    have hcount : (c + 1).toNat = (c.toNat + 1) % 2 ^ 64 := UInt64.toNat_add c 1
    have hback : (c + 1).toNat < c.toNat ↔ c.toNat = 2 ^ 64 - 1 := by
      have hlt : c.toNat < 2 ^ 64 := c.toNat_lt
      omega
    refine ⟨c, c + 1, hstate, by rw [hprocess], hstep, ?_, fun _ => hcount, fun hnot => absurd htakes hnot, ?_⟩
    · rw [hprocess]
      exact iff_of_true rfl htakes.decides
    · rw [hback, and_iff_left htakes]
  · obtain ⟨hafter, hresult⟩ := process_of_not_takes hrule hstate htakes
    exact ⟨c, c, hstate, by rw [hafter, ← hstate], hstep, hresult, fun h => absurd h htakes, fun _ => rfl,
      iff_of_false (Nat.lt_irrefl _) fun h => htakes h.2⟩

/-- A funnel whose only step always holds, with the count restored that is the last of the words. -/
def atTheEnd : Aggregator :=
  (Aggregator.new "n" (.list []) (.funnel [.const (.bool true)])).restore (.reached 18446744073709551615)

/-- A text may hold any word as the count of a funnel, and an event takes the last one back to zero. -/
theorem funnel_counts_atTheEnd :
    State.ofText "\x7b\"kind\":\"funnel\",\"state\":18446744073709551615\x7d" =
      .ok (.reached 18446744073709551615) ∧
    atTheEnd.Attained ∧ atTheEnd.rule = .funnel [.const (.bool true)] ∧
    atTheEnd.state = .reached 18446744073709551615 ∧
    ∀ scope s, Takes [.const (.bool true)] (18446744073709551615 : UInt64).toNat scope s ∧
      (atTheEnd.process scope s).result = .ok () ∧ (atTheEnd.process scope s).after.1.state = .reached 0 := by
  have hattained : atTheEnd.Attained := .restore _ (.new ..)
  have hstate : atTheEnd.state = .reached 18446744073709551615 := rfl
  refine ⟨by decide +kernel, hattained, rfl, hstate, fun scope s => ?_⟩
  have htakes : Takes [.const (.bool true)] (18446744073709551615 : UInt64).toNat scope s :=
    ⟨_, by rw [step?, List.length_singleton, Nat.mod_one]; rfl, .bool true, rfl, rfl⟩
  obtain ⟨c, d, hc, hafter, -, hresult, hcount, -⟩ := hattained.funnel_counts rfl scope s
  obtain rfl := State.reached.inj (hc.symm.trans hstate)
  obtain rfl : d = 0 := UInt64.toNat_inj.mp ((hcount htakes).trans (by decide))
  exact ⟨htakes, hresult.mpr htakes.decides, by rw [hafter]⟩

section Events

variable {scopes rest : List Scope} {places : List Nat} {k place : Nat}

/-- Places of events in increasing order, of which each takes the funnel one step on from those before it. -/
structure Matches (steps : List Expr) (taken : Nat) (s : CallStack) (scopes : List Scope)
    (places : List Nat) : Prop where
  increasing : places.Pairwise (· < ·)
  takes : ∀ (t place : Nat), places[t]? = some place →
    ∃ scope, scopes[place]? = some scope ∧ Takes steps (taken + t) scope s

/-- The numbers of steps that some choice of the events takes a funnel on from so many. -/
def matchable (steps : List Expr) (taken : Nat) (s : CallStack) (scopes : List Scope) : Set Nat :=
  {k | ∃ places, Matches steps taken s scopes places ∧ places.length = k}

theorem matches_nil (steps : List Expr) (taken : Nat) (s : CallStack) (scopes : List Scope) :
    Matches steps taken s scopes [] := by
  refine ⟨.nil, ?_⟩
  intro t place h
  simp at h

/-- A choice of later events is one that leaves the first event out. -/
theorem Matches.shift (h : Matches steps taken s rest places) (scope : Scope) :
    Matches steps taken s (scope :: rest) (places.map (· + 1)) := by
  constructor
  · exact List.pairwise_map.mpr (h.increasing.imp Nat.succ_lt_succ)
  · intro t place ht
    rw [List.getElem?_map, Option.map_eq_some_iff] at ht
    obtain ⟨before, hbefore, rfl⟩ := ht
    exact h.takes t before hbefore

theorem Matches.unshift (h : Matches steps taken s (scope :: rest) places) (hpos : ∀ p ∈ places, 0 < p) :
    Matches steps taken s rest (places.map (· - 1)) := by
  constructor
  · refine List.pairwise_map.mpr (h.increasing.imp_of_mem fun {p q} hp hq hlt => ?_)
    have hp := hpos p hp
    omega
  · intro t place ht
    rw [List.getElem?_map, Option.map_eq_some_iff] at ht
    obtain ⟨before, hbefore, rfl⟩ := ht
    obtain ⟨found, hfound, htakes⟩ := h.takes t before hbefore
    have hpos := hpos before (List.mem_of_getElem? hbefore)
    obtain ⟨p, rfl⟩ : ∃ p, before = p + 1 := ⟨before - 1, by omega⟩
    exact ⟨found, hfound, htakes⟩

/-- Behind the first event of a choice the others go on from one step more. -/
theorem matches_cons_iff : Matches steps taken s scopes (place :: places) ↔
    (∃ scope, scopes[place]? = some scope ∧ Takes steps taken scope s) ∧ (∀ p ∈ places, place < p) ∧
      Matches steps (taken + 1) s scopes places := by
  constructor
  · intro h
    obtain ⟨hlt, hincreasing⟩ := List.pairwise_cons.mp h.increasing
    refine ⟨h.takes 0 place rfl, hlt, hincreasing, fun t other ht => ?_⟩
    obtain ⟨scope, hscope, htakes⟩ := h.takes (t + 1) other ht
    exact ⟨scope, hscope, by rwa [Nat.add_assoc, Nat.add_comm 1 t]⟩
  · rintro ⟨hfirst, hlt, h⟩
    refine ⟨List.pairwise_cons.mpr ⟨hlt, h.increasing⟩, fun t other ht => ?_⟩
    cases t with
    | zero => exact Option.some.inj ht ▸ hfirst
    | succ t =>
      obtain ⟨scope, hscope, htakes⟩ := h.takes t other ht
      exact ⟨scope, hscope, by rwa [Nat.add_assoc, Nat.add_comm 1 t] at htakes⟩

theorem isGreatest_matchable_nil : IsGreatest (matchable steps taken s []) 0 := by
  refine ⟨⟨[], matches_nil .., rfl⟩, ?_⟩
  rintro k ⟨places, hmatches, rfl⟩
  cases places with
  | nil => exact Nat.le_refl 0
  | cons place places =>
    obtain ⟨⟨scope, hscope, -⟩, -, -⟩ := matches_cons_iff.mp hmatches
    simp at hscope

/-- No choice is better than one with the first event in it, if that takes a step: the first event of a choice
may always be put in the place of the one that was to take this step. -/
theorem isGreatest_matchable_cons_of_takes (h : Takes steps taken scope s)
    (hrest : IsGreatest (matchable steps (taken + 1) s rest) k) :
    IsGreatest (matchable steps taken s (scope :: rest)) (k + 1) := by
  obtain ⟨⟨places, hmatches, rfl⟩, hgreatest⟩ := hrest
  constructor
  · refine ⟨0 :: places.map (· + 1), matches_cons_iff.mpr ⟨⟨scope, rfl, h⟩, ?_, hmatches.shift scope⟩, ?_⟩
    · intro p hp
      obtain ⟨q, -, rfl⟩ := List.mem_map.mp hp
      exact Nat.succ_pos q
    · rw [List.length_cons, List.length_map]
  · rintro k ⟨others, hothers, rfl⟩
    cases others with
    | nil => exact Nat.zero_le _
    | cons place others =>
      obtain ⟨-, hlt, hbehind⟩ := matches_cons_iff.mp hothers
      have hpos : ∀ p ∈ others, 0 < p := fun p hp => Nat.lt_of_le_of_lt (Nat.zero_le place) (hlt p hp)
      have hle := hgreatest ⟨_, hbehind.unshift hpos, rfl⟩
      rw [List.length_map] at hle
      exact Nat.succ_le_succ hle

/-- An event that takes no step is of no use to any choice. -/
theorem isGreatest_matchable_cons_of_not_takes (h : ¬ Takes steps taken scope s)
    (hrest : IsGreatest (matchable steps taken s rest) k) :
    IsGreatest (matchable steps taken s (scope :: rest)) k := by
  obtain ⟨⟨places, hmatches, rfl⟩, hgreatest⟩ := hrest
  constructor
  · exact ⟨places.map (· + 1), hmatches.shift scope, List.length_map _⟩
  · rintro k ⟨others, hothers, rfl⟩
    have hpos : ∀ p ∈ others, 0 < p := by
      cases others with
      | nil => exact nofun
      | cons place others =>
        obtain ⟨⟨found, hfound, htakes⟩, hlt, -⟩ := matches_cons_iff.mp hothers
        have hplace : place ≠ 0 := by
          rintro rfl
          exact h (Option.some.inj hfound ▸ htakes)
        intro p hp
        rcases List.mem_cons.mp hp with rfl | hp
        · exact Nat.pos_of_ne_zero hplace
        · exact Nat.lt_of_le_of_lt (Nat.zero_le place) (hlt p hp)
    have hle := hgreatest ⟨_, hothers.unshift hpos, rfl⟩
    rwa [List.length_map] at hle

/-- A funnel takes as many steps as any choice of the events takes, in the order of the events and of the steps,
round after round. All steps are to evaluate on all events, and the count is not to come to the end of the words. -/
theorem processAll_greatest (hrule : a.rule = .funnel steps) (hstate : a.state = .reached c)
    (heval : ∀ scope ∈ scopes, ∀ step ∈ steps, ∃ v, (step.run scope s).1 = .ok v)
    (hroom : c.toNat + scopes.length < 2 ^ 64) :
    ∃ k, IsGreatest (matchable steps c.toNat s scopes) k ∧ c.toNat + k < 2 ^ 64 ∧
      a.processAll s scopes = ⟨({ a with state := .reached (.ofNat (c.toNat + k)) }, s), .ok (), #[]⟩ := by
  -- Which steps are open to the rest of the events depends on the count, so the induction is over all counts.
  induction scopes generalizing a c with
  | nil =>
    refine ⟨0, isGreatest_matchable_nil, by omega, ?_⟩
    rw [processAll, Nat.add_zero, UInt64.ofNat_toNat, ← hstate]
  | cons scope rest ih =>
    rw [List.length_cons] at hroom
    have hrest := fun scope hscope => heval scope (List.mem_cons_of_mem _ hscope)
    by_cases htakes : Takes steps c.toNat scope s
    · have hcount : (c + 1).toNat = c.toNat + 1 := by
        rw [UInt64.toNat_add, show (1 : UInt64).toNat = 1 from rfl]
        omega
      obtain ⟨k, hgreatest, hbound, hall⟩ := ih (a := { a with state := .reached (c + 1) }) (c := c + 1)
        hrule rfl hrest (by omega)
      rw [hcount] at hgreatest hbound hall
      refine ⟨k + 1, isGreatest_matchable_cons_of_takes htakes hgreatest, by omega, ?_⟩
      rw [processAll, process_of_takes hrule hstate htakes]
      simp only [Outcome.andThen, hall]
      rw [Nat.add_assoc, Nat.add_comm 1 k]
      rfl
    · have hdecides : Decides steps c.toNat scope s := fun step hstep =>
        heval scope List.mem_cons_self step (List.mem_of_getElem? hstep)
      obtain ⟨k, hgreatest, hbound, hall⟩ := ih hrule hstate hrest (by omega)
      refine ⟨k, isGreatest_matchable_cons_of_not_takes htakes hgreatest, hbound, ?_⟩
      rw [processAll, process_of_decides hrule hstate hdecides htakes]
      simp only [Outcome.andThen, hall]
      rfl

/-- A funnel through the events with three names that has gone round once already. -/
def roundOnce : Aggregator :=
  let steps : List Expr :=
    ["A", "B", "C"].map fun name => .apply .equal [.property "name", .const (.text name)]
  (Aggregator.new "n" (.list []) (.funnel steps)).restore (.reached 4)

def named (name : String) : Scope := ⟨some (Event.empty.set "name" (.text name)), ∅, ∅, ∅⟩

/-- Of the events with the names `B`, `A`, `C`, `A`, `B` only the first `A` comes out of turn. -/
theorem processAll_greatest_roundOnce : ∃ steps, roundOnce.rule = .funnel steps ∧
    roundOnce.state = .reached 4 ∧
    (∀ scope ∈ ["B", "A", "C", "A", "B"].map named, ∀ step ∈ steps,
      ∃ v, (step.run scope (.empty 1)).1 = .ok v) ∧
    (4 : UInt64).toNat + (["B", "A", "C", "A", "B"].map named).length < 2 ^ 64 ∧
    IsGreatest (matchable steps 4 (.empty 1) (["B", "A", "C", "A", "B"].map named)) 4 ∧
    (roundOnce.processAll (.empty 1) (["B", "A", "C", "A", "B"].map named)).after.1.state = .reached 8 := by
  obtain ⟨steps, hrule, heval⟩ : ∃ steps, roundOnce.rule = .funnel steps ∧
      ∀ scope ∈ ["B", "A", "C", "A", "B"].map named, ∀ step ∈ steps,
        (step.run scope (.empty 1)).1.toOption.isSome = true := ⟨_, rfl, by decide +kernel⟩
  have heval : ∀ scope ∈ ["B", "A", "C", "A", "B"].map named, ∀ step ∈ steps,
      ∃ v, (step.run scope (.empty 1)).1 = .ok v := by
    intro scope hscope step hstep
    obtain ⟨v, hv⟩ := Option.isSome_iff_exists.mp (heval scope hscope step hstep)
    exact ⟨v, eq_ok_of_toOption hv⟩
  have hstate : roundOnce.state = .reached 4 := by decide +kernel
  have hafter : (roundOnce.processAll (.empty 1) (["B", "A", "C", "A", "B"].map named)).after.1.state =
      .reached 8 := by decide +kernel
  obtain ⟨k, hgreatest, hbound, hall⟩ := processAll_greatest hrule hstate heval (by decide)
  rw [hall] at hafter
  have hcount := congrArg UInt64.toNat (State.reached.inj hafter)
  rw [UInt64.toNat_ofNat_of_lt' hbound] at hcount
  obtain rfl : k = 4 := Nat.add_left_cancel (hcount.trans (show (8 : UInt64).toNat = 4 + 4 from rfl))
  exact ⟨steps, hrule, hstate, heval, by decide, hgreatest, by rw [hall]; rfl⟩

end Events

end Aggregator

end EventFold
