import Mathlib.Logic.Function.Iterate
import QueueDrain.Standalone
import QueueDrain.Proofs.Course

/-!
# The parts of a drain, step by step

The fuel of a part that runs on its own stops where the part is over, and nothing changes there any
more, so fuel counts steps. What a part does while it waits depends on the environment only through
its next change; in an environment that changes by itself for the operator's interrupt alone, a wait
ends at its own instant or at the interrupt, whichever comes first.

## Main definitions

* `Leads` — one state leads to another
* `Entry.deeds` — a trace without the interrupt
* `Interrupt.strike` — the instant of an interrupt, be it before the run or in it
* `Environment.Interrupts` — an environment that changes by itself for the interrupt alone
* `Course.Heeds` — how far a course has got with the interrupt

## Main results

* `Poller.Run.run_eq`, `Connect.Run.run_eq`, `Consumer.Run.run_eq` — fuel counts steps
* `Course.Heeds.advance` — how a wait ends
-/

namespace QueueDrain

variable {ω : Type} {E : Environment ω}

/-! ### Fuel and steps -/

section Steps

variable {σ : Type} {step : σ → σ} {s t u : σ}

/-- Fuel that is left unused only where a step changes nothing counts steps. -/
theorem run_eq_iterate {run : Nat → σ → σ} (hzero : ∀ s, run 0 s = s)
    (hsucc : ∀ n s, run (n + 1) s = run n (step s) ∨ (run (n + 1) s = s ∧ step s = s))
    (n : Nat) (s : σ) : run n s = step^[n] s := by
  induction n generalizing s with
  | zero => exact hzero s
  | succ n ih =>
    rcases hsucc n s with hrun | ⟨hrun, hstep⟩
    · rw [hrun, ih, Function.iterate_succ_apply]
    · rw [hrun, Function.iterate_fixed hstep]

/-- Behind a state that a step leaves as it is nothing changes. -/
theorem iterate_of_fixed {n m : Nat} (h : step (step^[n] s) = step^[n] s) (hm : n ≤ m) :
    step^[m] s = step^[n] s := by
  obtain ⟨d, rfl⟩ := Nat.exists_eq_add_of_le' hm
  rw [Function.iterate_add_apply, Function.iterate_fixed h]

/-- One state leads to another, in a step or more. -/
def Leads (step : σ → σ) (s t : σ) : Prop := ∃ n, step^[n + 1] s = t

theorem Leads.single (h : step s = t) : Leads step s t := ⟨0, h⟩

theorem Leads.head (h : step s = t) (h' : Leads step t u) : Leads step s u := by
  obtain ⟨n, hn⟩ := h'
  exact ⟨n + 1, by rw [Function.iterate_succ_apply, h, hn]⟩

theorem Leads.trans (h : Leads step s t) (h' : Leads step t u) : Leads step s u := by
  obtain ⟨n, rfl⟩ := h
  obtain ⟨m, rfl⟩ := h'
  refine ⟨m + 1 + n, ?_⟩
  rw [← Function.iterate_add_apply]
  rfl

end Steps

theorem Poller.Run.run_eq (n : Nat) (r : Poller.Run ω) :
    Poller.Run.run E n r = (Poller.Run.step E)^[n] r := by
  refine run_eq_iterate (fun _ => rfl) (fun n r => ?_) n r
  rw [Poller.Run.run, Poller.Run.step]
  match r.stage with
  | .ongoing a => exact .inl rfl
  | .over result => exact .inr ⟨rfl, rfl⟩

theorem Connect.Run.run_eq {policy : Backoff.Policy} {endpoint : String} (n : Nat)
    (r : Connect.Run ω) :
    Connect.Run.run E policy endpoint n r = (Connect.Run.step E policy endpoint)^[n] r := by
  refine run_eq_iterate (fun _ => rfl) (fun n r => ?_) n r
  rw [Connect.Run.run, Connect.Run.step]
  match r.stage with
  | .ongoing a => exact .inl rfl
  | .over result => exact .inr ⟨rfl, rfl⟩

theorem Consumer.Run.run_eq {queue : String} (n : Nat) (r : Consumer.Run ω) :
    Consumer.Run.run E queue n r = (Consumer.Run.step E queue)^[n] r := by
  refine run_eq_iterate (fun _ => rfl) (fun n r => ?_) n r
  rw [Consumer.Run.run, Consumer.Run.step]
  match r.stage with
  | .ongoing k => exact .inl rfl
  | .over ending => exact .inr ⟨rfl, rfl⟩

/-! ### Traces without the interrupt -/

/-- A trace without the interrupt. -/
def Entry.deeds (trace : List Entry) : List Entry :=
  trace.filter fun e => decide (e.event ≠ .interrupted)

@[simp] theorem Entry.deeds_nil : Entry.deeds [] = [] := rfl

@[simp] theorem Entry.deeds_interrupted (t : Nat) (trace : List Entry) :
    Entry.deeds (⟨t, .interrupted⟩ :: trace) = Entry.deeds trace := by
  simp [Entry.deeds]

theorem Entry.deeds_cons {e : Entry} (h : e.event ≠ .interrupted) (trace : List Entry) :
    Entry.deeds (e :: trace) = e :: Entry.deeds trace :=
  List.filter_cons_of_pos (decide_eq_true h)

/-- An effect without lines for the log adds at most the interrupt. -/
theorem Course.deeds_absorb {α : Type} (c : Course ω) {effect : Effect ω α}
    (h : effect.notices = []) : Entry.deeds (c.absorb effect).trace = Entry.deeds c.trace := by
  rw [absorb_eq, h]
  by_cases hi : (effect.interrupts && !c.interrupted) = true <;> simp [hi]

/-! ### Waits -/

/-- Time does not pass beyond an instant that is waited for. -/
theorem Course.advance_now_le (c : Course ω) {wakes : List (Option Nat)} {t : Nat}
    (ht : some t ∈ wakes) : (c.advance E wakes).now ≤ max c.now t := by
  obtain ⟨u, hu, hle⟩ := earliest_le (List.mem_cons_of_mem (E.nextChange c.world) ht)
  rw [advance, hu]
  simp only [absorb_now]
  omega

/-! ### The interrupt of a run -/

/-- The instant at which a run that begins at `start` can notice the interrupt. -/
def Interrupt.strike (start : Nat) : Interrupt → Option Nat
  | never => none
  | before => some start
  | after millis => some (start + millis)

/-- The environment changes by itself only when the operator interrupts, at the instant that
`instant?` reads off its state, unless it holds the interrupt back at that instant. -/
structure Environment.Interrupts (E : Environment ω) (instant? : ω → Option Nat)
    (holds : Nat → ω → Bool) (spent : ω → ω) : Prop where
  nextChange : ∀ w, E.nextChange w = instant? w
  pass : ∀ now w, E.pass now w =
    if reached (instant? w) now && !holds now w then
      { state := spent w, value := (), interrupts := true }
    else { state := w, value := () }

namespace Course

variable {instant? : ω → Option Nat} {holds : Nat → ω → Bool} {spent : ω → ω}
variable {c : Course ω} {strike wake : Option Nat}

/-- The course of a run that is interrupted at an instant. -/
def struck (spent : ω → ω) (t : Nat) (c : Course ω) : Course ω :=
  { c with
    now := t, world := spent c.world, interrupted := true, trace := ⟨t, .interrupted⟩ :: c.trace }

/-- How far a course has got with an interrupt at the instant `strike`. -/
structure Heeds (instant? : ω → Option Nat) (strike : Option Nat) (c : Course ω) : Prop where
  pending : c.interrupted = false → instant? c.world = strike ∧ ∀ t, strike = some t → c.now ≤ t
  passed : c.interrupted = true → instant? c.world = none ∧ ∃ t, strike = some t ∧ t ≤ c.now

theorem heeds_opening {world : ω} {interrupt : Interrupt} (start : Nat) (rejected : UInt64)
    (h : instant? world = interrupt.instant? start) :
    Heeds instant? (interrupt.strike start)
      (opening start world rejected interrupt.isEarly) where
  pending hearly := by
    cases interrupt with
    | never => exact ⟨h, nofun⟩
    | before => cases hearly
    | after millis =>
      refine ⟨h, fun t ht => ?_⟩
      obtain rfl := Option.some.inj ht
      exact Nat.le_add_right start millis
  passed hearly := by
    cases interrupt with
    | before => exact ⟨h, start, rfl, Nat.le_refl _⟩
    | never | after millis => cases hearly

theorem Heeds.struck {t : Nat} (hs : strike = some t) (h : instant? (spent c.world) = none) :
    Heeds instant? strike (c.struck spent t) where
  pending := nofun
  passed _ := ⟨h, t, hs, Nat.le_refl _⟩

/-- The clock of a course that is past its interrupt only follows the waits. -/
theorem Heeds.advance_interrupted (hE : E.Interrupts instant? holds spent)
    (h : Heeds instant? strike c) (hi : c.interrupted = true) {v : Nat} (hv : c.now ≤ v) :
    c.advance E [some v] = { c with now := v } := by
  have hnone := (h.passed hi).1
  rw [advance, hE.nextChange, hnone]
  simp only [earliest, Nat.max_eq_right hv, hE.pass, hnone, reached, Bool.false_and,
    Bool.false_eq_true, if_false, absorb_eq, Bool.or_false, List.reverse_nil, List.map_nil,
    List.nil_append]

/-- How a wait ends before the interrupt has come: by the interrupt, at its own instant, or never.
-/
theorem Heeds.advance (hE : E.Interrupts instant? holds spent) (h : Heeds instant? strike c)
    (hi : c.interrupted = false) (hwake : ∀ v, wake = some v → c.now ≤ v)
    (hholds : ∀ t, holds t c.world = true → wake = some t) :
    (∃ t, strike = some t ∧ (∀ v, wake = some v → t ≤ v) ∧ c.now ≤ t ∧
      c.advance E [wake] = c.struck spent t) ∨
    (∃ v, wake = some v ∧ (∀ t, strike = some t → v ≤ t) ∧
      c.advance E [wake] = { c with now := v }) ∨
    (wake = none ∧ strike = none ∧ c.advance E [wake] = c) := by
  obtain ⟨hinstant, hnow⟩ := h.pending hi
  -- the clock reaches an instant that the interrupt has not come to, or at which it is held back
  have hquiet : ∀ v, c.now ≤ v → (∀ t, strike = some t → v < t ∨ v = t ∧ holds v c.world = true) →
      { c with now := v }.absorb (E.pass v c.world) = { c with now := v } := by
    intro v _ hv
    have hnot : (reached strike v && !holds v c.world) = false := by
      cases hs : strike with
      | none => rfl
      | some t =>
        rcases hv t hs with hlt | ⟨-, hheld⟩
        · simp [reached, Nat.not_le.mpr hlt]
        · simp [hheld]
    rw [hE.pass, hinstant, hnot]
    simp [absorb_eq]
  have hstrike : ∀ t, strike = some t → holds t c.world = false →
      { c with now := t }.absorb (E.pass t c.world) = c.struck spent t := by
    intro t ht hheld
    rw [hE.pass, hinstant, ht]
    simp [absorb_eq, reached, hheld, hi, Course.struck]
  rw [Course.advance, hE.nextChange, hinstant]
  cases hs : strike with
  | none =>
    cases hw : wake with
    | none => exact .inr (.inr ⟨rfl, rfl, rfl⟩)
    | some v =>
      refine .inr (.inl ⟨v, rfl, (fun _ ht => by cases ht), ?_⟩)
      simp only [earliest, Nat.max_eq_right (hwake v hw)]
      exact hquiet v (hwake v hw) (by simp [hs])
  | some t =>
    have ht := hnow t hs
    by_cases hfirst : (∀ v, wake = some v → t ≤ v) ∧ holds t c.world = false
    · refine .inl ⟨t, rfl, hfirst.1, ht, ?_⟩
      have hearliest : earliest [some t, wake] = some t := by
        cases hw : wake with
        | none => rfl
        | some v => simp [earliest, Nat.min_eq_left (hfirst.1 v hw)]
      simp only [hearliest, Nat.max_eq_right ht]
      exact hstrike t hs hfirst.2
    · -- the wait ends earlier, or holds the interrupt back
      obtain ⟨v, hv, hle, hlt⟩ : ∃ v, wake = some v ∧ v ≤ t ∧
          (v < t ∨ v = t ∧ holds v c.world = true) := by
        by_cases hheld : holds t c.world = true
        · exact ⟨t, hholds t hheld, Nat.le_refl _, .inr ⟨rfl, hheld⟩⟩
        · simp only [Bool.not_eq_true] at hheld
          simp only [hheld, and_true, Classical.not_forall, Nat.not_le] at hfirst
          obtain ⟨v, hv, hlt⟩ := hfirst
          exact ⟨v, hv, Nat.le_of_lt hlt, .inl hlt⟩
      refine .inr (.inl ⟨v, hv, fun u hu => Option.some.inj hu ▸ hle, ?_⟩)
      simp only [hv, earliest, Nat.min_eq_right hle, Nat.max_eq_right (hwake v hv)]
      refine hquiet v (hwake v hv) fun u hu => ?_
      obtain rfl := Option.some.inj (hs.symm.trans hu)
      exact hlt

end Course

end QueueDrain
