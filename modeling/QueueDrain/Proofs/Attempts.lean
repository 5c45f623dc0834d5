import Mathlib.Data.Nat.Find
import QueueDrain.Proofs.Parts
import QueueDrain.Proofs.Standalone

/-!
# A series of attempts at a session

A series of attempts is run against a script: any answers after any time, or none at all, and an
interrupt at any instant. From the script alone one can tell when each attempt begins and ends, what
has happened by then, and where the series stops; the run does just that.

Of two things that fall on one instant either may come first, so the script says which does, and
what is said of the run at such an instant leaves both open.

## Main definitions

* `Attempts`, `Attempts.environment` — the script, and the script as an environment
* `Attempts.begins`, `Attempts.ends`, `Attempts.account` — when each attempt begins and ends, and
  the trace up to it
* `Attempts.Stops` — where, when and with what result the script stops a series
* `Attempts.Poised`, `Attempts.Underway` — a series before an attempt, and during one

## Main results

* `Attempts.Stops.unique` — the script stops a series in one way only
* `Attempts.Poised.leads`, `Attempts.Underway.leads` — what a wait and an attempt lead to
* `Attempts.run_stops_or_goes_on` — a series stops where the script says so, and goes on otherwise
-/

namespace QueueDrain

/-! ### A step of the attempts -/

namespace Connect.Run

variable {ω : Type} {E : Environment ω} {policy : Backoff.Policy} {endpoint : String}
variable {r : Run ω} {a : Activity} {attempt wake : Nat} {number due : Option Nat}

theorem step_of_some {c : Course ω} {stage : Stage Activity Result} (hs : r.stage = .ongoing a)
    (h : Connect.step E policy endpoint a r.course = some (c, stage)) :
    r.step E policy endpoint = { course := c, stage } := by
  simp only [step, hs, h]

theorem step_of_none (hs : r.stage = .ongoing a)
    (h : Connect.step E policy endpoint a r.course = none) :
    r.step E policy endpoint = { r with course := r.course.advance E [a.wake] } := by
  simp only [step, hs, h]

/-- The interrupt ends everything, whoever is looked at first. -/
theorem step_of_interrupted (hs : r.stage = .ongoing a) (hi : r.course.interrupted = true) :
    ∃ c, r.course.Raced E c ∧
      r.step E policy endpoint = { course := c, stage := .over (.ok none) } := by
  have hmove : Connect.step E policy endpoint a r.course ≠ none := by
    cases a with
    | backingOff attempt wake =>
      rcases hr : (if wake ≤ r.course.now then r.course.race E else (r.course, true))
        with ⟨c, first⟩
      cases first <;> simp [Connect.step, hi, hr]
    | establishing attempt due => simp [Connect.step, hi]
  obtain ⟨⟨c, stage⟩, hsome⟩ := Option.ne_none_iff_exists'.mp hmove
  rw [step_of_some hs hsome]
  cases step_move hsome with
  | overtaken _ hr => exact ⟨c, hr, rfl⟩
  | began _ hnot | opened hnot | reopened hnot | failed hnot | retried hnot =>
    rw [hi] at hnot
    cases hnot

theorem step_of_elapsed (hs : r.stage = .ongoing (.backingOff attempt wake))
    (hi : r.course.interrupted = false) (hw : wake ≤ r.course.now) :
    r.step E policy endpoint =
      { course := (r.course.begin E .establish).1
        stage := .ongoing (.establishing (some attempt) (r.course.begin E .establish).2) } := by
  refine step_of_some hs ?_
  simp [Connect.step, hi, hw, establish_of_not_interrupted hi]

theorem step_of_waiting (hs : r.stage = .ongoing (.backingOff attempt wake))
    (hi : r.course.interrupted = false) (hw : r.course.now < wake) :
    r.step E policy endpoint = { r with course := r.course.advance E [some wake] } := by
  refine step_of_none hs ?_
  simp [Connect.step, hi, hw]

theorem step_of_answered (hs : r.stage = .ongoing (.establishing number due))
    (hi : r.course.interrupted = false) (hd : reached due r.course.now = true) :
    r.step E policy endpoint =
      { course := (receive E policy endpoint number r.course).1
        stage := (receive E policy endpoint number r.course).2 } := by
  refine step_of_some hs ?_
  simp [Connect.step, hi, hd]

theorem step_of_unanswered (hs : r.stage = .ongoing (.establishing number due))
    (hi : r.course.interrupted = false) (hd : reached due r.course.now = false) :
    r.step E policy endpoint = { r with course := r.course.advance E [due] } := by
  refine step_of_none hs ?_
  simp [Connect.step, hi, hd]

end Connect.Run

/-! ### The script -/

/-- A scripted answer to an attempt. -/
structure Attempts.Answer where
  delay : Nat := 0
  result : Except DrainError Nat

/-- The circumstances of a series of attempts. -/
structure Attempts where
  policy : Backoff.Policy
  endpoint : String
  /-- When the series begins. -/
  start : Nat
  /-- The counter of rejected messages when it begins. -/
  rejected : UInt64 := 0
  /-- The answers, first to last; an attempt that has none is never answered. -/
  answers : Nat → Option Attempts.Answer
  interrupt : Interrupt := .never
  /-- Whether an interrupt at the instant of an answer comes with it rather than before it. -/
  comesLate : Bool := false
  /-- Whether an interrupt at the end of the wait before an attempt is looked at first. -/
  looksFirst : Nat → Bool := fun _ => true

namespace Attempts

variable (s : Attempts)

/-! ### The script as an environment -/

/-- How far a script has been followed. -/
structure State where
  /-- Attempts begun. -/
  begun : Nat := 0
  /-- When the latest of them is answered. -/
  due : Option Nat := none
  /-- The answer to it. -/
  result : Except DrainError Nat := .ok 0
  /-- When the operator interrupts. -/
  interruptAt : Option Nat := none

/-- The interrupt is over. -/
def State.spent (w : State) : State := { w with interruptAt := none }

/-- Whether the interrupt is held back at an instant because of an answer. -/
def holds (now : Nat) (w : State) : Bool := s.comesLate && w.due == some now

/-- The script as an environment. -/
def environment : Environment State where
  nextChange w := w.interruptAt
  pass now w :=
    if reached w.interruptAt now && !s.holds now w then
      { state := w.spent, value := (), interrupts := true }
    else { state := w, value := () }
  start now request w :=
    match request with
    | .establish =>
      let due := (s.answers w.begun).map fun a => now + a.delay
      let result := (s.answers w.begun).elim w.result Answer.result
      { state := { w with begun := w.begun + 1, due, result }, value := due }
    | _ => { state := w, value := none }
  answer now _ w :=
    if reached w.interruptAt now then
      { state := { w.spent with due := none }, value := w.result, interrupts := true }
    else { state := { w with due := none }, value := w.result }
  ask _ w := { state := w, value := .wait none }
  startReject _ _ w := { state := w, value := none }
  finishReject _ _ w := { state := w, value := .done }
  race w := (w, s.looksFirst w.begun)

/-- The instant at which the series can notice the interrupt. -/
def strike : Option Nat := s.interrupt.strike s.start

/-- The course that the series begins with. -/
def opening : Course State :=
  .opening s.start { interruptAt := s.interrupt.instant? s.start } s.rejected s.interrupt.isEarly

/-- The series after some steps. -/
def run (n : Nat) : Connect.Run State :=
  (Connect.Run.repeated s.policy s.endpoint s.opening).run s.environment s.policy s.endpoint n

/-! ### What the script says -/

/-- The number of an attempt, counted from one. -/
def number (k : Nat) : Nat := min (k + 1) Connect.maxAttempt

/-- The length of the wait before an attempt. -/
def delay (k : Nat) : Duration := s.policy.delayFor (number k)

/-- When the attempt before attempt `k` ended, or the series began. -/
def ends : Nat → Nat
  | 0 => s.start
  | k + 1 => ends k + (s.delay k).millisCeil + (s.answers k).elim 0 Answer.delay

/-- When attempt `k` begins. -/
def begins (k : Nat) : Nat := s.ends k + (s.delay k).millisCeil

/-- Attempt `k` fails, and another one is worth while. -/
def Fails (k : Nat) : Prop :=
  ∃ a cause, s.answers k = some a ∧ a.result = .error cause ∧ cause.isTransient = true

/-- The line that announces attempt `k`. -/
def announced (k : Nat) : Entry :=
  ⟨s.ends k, .notice (.reconnecting s.endpoint (s.delay k) (number k))⟩

def began (k : Nat) : Entry := ⟨s.begins k, .began .establish⟩

/-- What the answer to attempt `k` adds to the trace. -/
def answered (k : Nat) : List Entry :=
  match (s.answers k).map Answer.result with
  | none => []
  | some (.ok declared) =>
    [⟨s.ends (k + 1), .notice (.reestablished (number k))⟩,
      ⟨s.ends (k + 1), .answered .establish declared⟩]
  | some (.error cause) =>
    (if cause.isTransient then [⟨s.ends (k + 1), .notice (.attemptFailed (number k) cause)⟩]
      else []) ++ [⟨s.ends (k + 1), .failed .establish cause⟩]

/-- What has happened when the wait before attempt `k` begins, newest first. -/
def account : Nat → List Entry
  | 0 => [s.announced 0]
  | k + 1 => s.announced (k + 1) :: (s.answered k ++ s.began k :: account k)

/-- Where the script stops a series: when, with what result and after what. -/
inductive Stops : Nat → Connect.Result → List Entry → Prop
  /-- The interrupt has come before the series begins. -/
  | early (hearly : s.interrupt = .before) : Stops s.start (.ok none) (s.account 0)
  /-- Attempt `k` succeeds, or fails for good. -/
  | settled {k : Nat} {a : Answer} (hearly : s.interrupt ≠ .before) (hfails : ∀ j < k, s.Fails j)
      (ha : s.answers k = some a) (hlast : ¬ s.Fails k)
      (hstrike : ∀ t, s.strike = some t → s.ends (k + 1) ≤ t) :
      Stops (s.ends (k + 1)) (a.result.map some) (s.answered k ++ s.began k :: s.account k)
  /-- The interrupt comes in the wait before attempt `k`. -/
  | waiting {k t : Nat} (hearly : s.interrupt ≠ .before) (hfails : ∀ j < k, s.Fails j)
      (hstrike : s.strike = some t) (hends : s.ends k ≤ t) (hbegins : t ≤ s.begins k) :
      Stops t (.ok none) (s.account k)
  /-- The interrupt comes during attempt `k`. -/
  | abandoned {k t : Nat} (hearly : s.interrupt ≠ .before) (hfails : ∀ j < k, s.Fails j)
      (hstrike : s.strike = some t) (hbegins : s.begins k ≤ t)
      (hends : ∀ a, s.answers k = some a → t ≤ s.ends (k + 1)) :
      Stops t (.ok none) (s.began k :: s.account k)

/-- The interrupt does not fall on the beginning or the end of an attempt. -/
def Apart : Prop := ∀ t, s.strike = some t → ∀ k, t ≠ s.begins k ∧ t ≠ s.ends (k + 1)

variable {s} {k : Nat} {r : Connect.Run State}

theorem ends_succ {a : Answer} (ha : s.answers k = some a) :
    s.ends (k + 1) = s.begins k + a.delay := by
  rw [ends, ha]
  rfl

theorem begins_le_ends (k : Nat) : s.begins k ≤ s.ends (k + 1) := Nat.le_add_right ..

theorem ends_le_begins (k : Nat) : s.ends k ≤ s.begins k := Nat.le_add_right ..

theorem number_succ (k : Nat) : number (k + 1) = min (number k + 1) Connect.maxAttempt := by
  unfold number Connect.maxAttempt
  omega

@[simp] theorem environment_answer (now : Nat) (request : Request) (w : State) :
    s.environment.answer now request w =
      if reached w.interruptAt now then
        { state := { w.spent with due := none }, value := w.result, interrupts := true }
      else { state := { w with due := none }, value := w.result } := rfl

/-- The script interrupts by itself, unless an answer comes first. -/
theorem interrupts : s.environment.Interrupts State.interruptAt s.holds State.spent where
  nextChange _ := rfl
  pass _ _ := rfl

theorem ends_mono {j : Nat} (h : j ≤ k) : s.ends j ≤ s.ends k := by
  induction h with
  | refl => exact Nat.le_refl _
  | step _ ih => exact Nat.le_trans ih (Nat.le_trans (s.ends_le_begins _) (s.begins_le_ends _))

/-- Attempt `k` fails before the interrupt comes, and another one is worth while. -/
def Continues (s : Attempts) (k : Nat) : Prop :=
  s.Fails k ∧ ∀ t, s.strike = some t → s.ends (k + 1) < t

/-- What happens at the first attempt after which the series does not continue. -/
inductive StopsAt (s : Attempts) (k : Nat) : Nat → Connect.Result → List Entry → Prop
  | settled {a : Answer} (ha : s.answers k = some a)
      (hstrike : ∀ t, s.strike = some t → s.ends (k + 1) ≤ t) :
      StopsAt s k (s.ends (k + 1)) (a.result.map some) (s.answered k ++ s.began k :: s.account k)
  | waiting {t : Nat} (hstrike : s.strike = some t) (hbegins : t ≤ s.begins k) :
      StopsAt s k t (.ok none) (s.account k)
  | abandoned {t : Nat} (hstrike : s.strike = some t) (hbegins : s.begins k ≤ t)
      (hends : ∀ a, s.answers k = some a → t ≤ s.ends (k + 1)) :
      StopsAt s k t (.ok none) (s.began k :: s.account k)

section Apart

variable {finish finish' : Nat} {result result' : Connect.Result} {trace trace' : List Entry}
variable (hapart : s.Apart)
include hapart

/-- A series that stops does so at the first attempt after which it does not continue. -/
theorem Stops.stopsAt (h : s.Stops finish result trace) (hearly : s.interrupt ≠ .before) :
    ∃ k, (∀ j < k, s.Continues j) ∧ ¬ s.Continues k ∧ s.StopsAt k finish result trace := by
  -- an interrupt that has not come by the end of attempt `j` comes later than that
  have hlater : ∀ {j t}, s.strike = some t → s.ends (j + 1) ≤ t → s.ends (j + 1) < t := by
    intro j t ht hle
    have := (hapart t ht j).2
    omega
  cases h with
  | early h => exact absurd h hearly
  | @settled k a _ hfails ha hlast hstrike =>
    refine ⟨k, fun j hj => ⟨hfails j hj, fun t ht => hlater ht ?_⟩, fun hk => hlast hk.1,
      .settled ha hstrike⟩
    exact Nat.le_trans (ends_mono (by omega)) (hstrike t ht)
  | @waiting k _ _ hfails hstrike hends hbegins =>
    refine ⟨k, fun j hj => ⟨hfails j hj, fun u hu => hlater hu ?_⟩, fun hk => ?_,
      .waiting hstrike hbegins⟩
    · obtain rfl := Option.some.inj (hstrike.symm.trans hu)
      exact Nat.le_trans (ends_mono (by omega)) hends
    · have := hk.2 _ hstrike
      have := s.begins_le_ends k
      omega
  | @abandoned k _ _ hfails hstrike hbegins hends =>
    refine ⟨k, fun j hj => ⟨hfails j hj, fun u hu => hlater hu ?_⟩, fun hk => ?_,
      .abandoned hstrike hbegins hends⟩
    · obtain rfl := Option.some.inj (hstrike.symm.trans hu)
      have := s.ends_le_begins k
      exact Nat.le_trans (ends_mono (by omega)) (Nat.le_trans this hbegins)
    · obtain ⟨a, -, ha, -⟩ := hk.1
      have := hk.2 _ hstrike
      have := hends a ha
      omega

theorem StopsAt.unique (h : s.StopsAt k finish result trace)
    (h' : s.StopsAt k finish' result' trace') :
    finish = finish' ∧ result = result' ∧ trace = trace' := by
  have hbetween := s.begins_le_ends k
  cases h with
  | settled ha hstrike =>
    cases h' with
    | settled hb _ =>
      obtain rfl := Option.some.inj (ha.symm.trans hb)
      exact ⟨rfl, rfl, rfl⟩
    | waiting ht hbegins =>
      have := hstrike _ ht
      have := (hapart _ ht k).2
      omega
    | abandoned ht _ hends =>
      have := hstrike _ ht
      have := hends _ ha
      have := (hapart _ ht k).2
      omega
  | waiting ht hbegins =>
    cases h' with
    | settled _ hstrike =>
      have := hstrike _ ht
      have := (hapart _ ht k).2
      omega
    | waiting hu _ =>
      obtain rfl := Option.some.inj (ht.symm.trans hu)
      exact ⟨rfl, rfl, rfl⟩
    | abandoned hu hlate _ =>
      obtain rfl := Option.some.inj (ht.symm.trans hu)
      have := (hapart _ ht k).1
      omega
  | abandoned ht hbegins hends =>
    cases h' with
    | settled ha hstrike =>
      have := hstrike _ ht
      have := hends _ ha
      have := (hapart _ ht k).2
      omega
    | waiting hu hearly =>
      obtain rfl := Option.some.inj (ht.symm.trans hu)
      have := (hapart _ ht k).1
      omega
    | abandoned hu _ _ =>
      obtain rfl := Option.some.inj (ht.symm.trans hu)
      exact ⟨rfl, rfl, rfl⟩

/-- **The script stops a series in one way only**, unless the interrupt falls on the beginning or
the end of an attempt. -/
theorem Stops.unique (h : s.Stops finish result trace) (h' : s.Stops finish' result' trace') :
    finish = finish' ∧ result = result' ∧ trace = trace' := by
  by_cases hearly : s.interrupt = .before
  · cases h with
    | early _ =>
      cases h' with
      | early _ => exact ⟨rfl, rfl, rfl⟩
      | settled hnot | waiting hnot | abandoned hnot => exact absurd hearly hnot
    | settled hnot | waiting hnot | abandoned hnot => exact absurd hearly hnot
  · obtain ⟨k, hbefore, hk, hat⟩ := h.stopsAt hapart hearly
    obtain ⟨k', hbefore', hk', hat'⟩ := h'.stopsAt hapart hearly
    obtain rfl : k = k' := by
      refine Nat.le_antisymm (Nat.le_of_not_lt fun hlt => ?_) (Nat.le_of_not_lt fun hlt => ?_)
      · exact hk' (hbefore k' hlt)
      · exact hk (hbefore' k hlt)
    exact hat.unique hapart hat'

end Apart

/-! ### Before an attempt -/

/-- The script waits for the end of the wait before attempt `k`. -/
structure Poised (s : Attempts) (k : Nat) (r : Connect.Run State) : Prop where
  stage : r.stage = .ongoing (.backingOff (number k) (s.begins k))
  after : s.ends k ≤ r.course.now
  before : r.course.now ≤ s.begins k
  world : r.course.world.begun = k ∧ r.course.world.due = none
  deeds : Entry.deeds r.course.trace = s.account k
  heeds : r.course.Heeds State.interruptAt s.strike
  /-- An interrupt that has come has come just now. -/
  fresh : r.course.interrupted = true → s.strike = some r.course.now
  early : s.interrupt = .before → k = 0 ∧ r.course.interrupted = true ∧ r.course.now = s.start

/-- The script waits for the answer to attempt `k`. -/
structure Underway (s : Attempts) (k : Nat) (r : Connect.Run State) : Prop where
  stage : r.stage = .ongoing (.establishing (some (number k)) r.course.world.due)
  after : s.begins k ≤ r.course.now
  due : r.course.world.due = (s.answers k).map fun _ => s.ends (k + 1)
  before : ∀ a, s.answers k = some a → r.course.now ≤ s.ends (k + 1)
  result : ∀ a, s.answers k = some a → r.course.world.result = a.result
  begun : r.course.world.begun = k + 1
  deeds : Entry.deeds r.course.trace = s.began k :: s.account k
  heeds : r.course.Heeds State.interruptAt s.strike
  fresh : r.course.interrupted = true → s.strike = some r.course.now
  not_early : s.interrupt ≠ .before

/-- The series is over as the script says. -/
structure Over (finish : Nat) (result : Connect.Result) (trace : List Entry)
    (r : Connect.Run State) : Prop where
  stage : r.stage = .over result
  now : r.course.now = finish
  deeds : Entry.deeds r.course.trace = trace

/-- A step of the script. -/
abbrev step (s : Attempts) : Connect.Run State → Connect.Run State :=
  Connect.Run.step s.environment s.policy s.endpoint

theorem poised_zero :
    s.Poised 0 (Connect.Run.repeated s.policy s.endpoint s.opening) where
  stage := rfl
  after := Nat.le_refl _
  before := s.ends_le_begins 0
  world := ⟨rfl, rfl⟩
  deeds := by
    have hopening : Entry.deeds s.opening.trace = [] := by
      rw [opening, Course.opening]
      split <;> simp
    rw [Connect.Run.repeated, Connect.reconnect, Connect.backOff, Course.tell_eq,
      Course.note_trace, Entry.deeds_cons (by simp), hopening]
    rfl
  heeds := by
    have h : s.opening.Heeds State.interruptAt s.strike :=
      Course.heeds_opening s.start s.rejected rfl
    exact ⟨h.pending, h.passed⟩
  fresh hearly := by
    have hbefore : s.interrupt = .before := by
      revert hearly
      cases hi : s.interrupt <;> simp [Connect.Run.repeated, Connect.reconnect, Connect.backOff,
        opening, Course.opening, Interrupt.isEarly, hi]
    rw [strike, hbefore]
    rfl
  early hbefore := by
    refine ⟨rfl, ?_, rfl⟩
    show s.interrupt.isEarly = true
    rw [hbefore]
    rfl

theorem over_of_interrupted {a : Connect.Activity} (hstage : r.stage = .ongoing a)
    (hi : r.course.interrupted = true) :
    Over r.course.now (.ok none) (Entry.deeds r.course.trace) (s.step r) := by
  obtain ⟨c, hr, hstep⟩ : ∃ c, r.course.Raced s.environment c ∧
      s.step r = { course := c, stage := .over (.ok none) } :=
    Connect.Run.step_of_interrupted hstage hi
  obtain ⟨world, rfl⟩ := hr.eq
  rw [hstep]
  exact ⟨rfl, rfl, rfl⟩

theorem Poised.not_early (h : s.Poised k r) (hi : r.course.interrupted = false) :
    s.interrupt ≠ .before := by
  intro hearly
  exact Bool.false_ne_true (hi.symm.trans (h.early hearly).2.1)

/-- At the end of the wait the attempt begins. -/
theorem Poised.begin (h : s.Poised k r) (hi : r.course.interrupted = false)
    (hw : s.begins k ≤ r.course.now) : s.Underway k (s.step r) := by
  have hnow : r.course.now = s.begins k := Nat.le_antisymm h.before hw
  have hpending := h.heeds.pending hi
  have hdue : ((s.answers r.course.world.begun).map fun a => r.course.now + a.delay)
      = (s.answers k).map fun _ => s.ends (k + 1) := by
    rw [h.world.1, hnow]
    cases ha : s.answers k with
    | none => rfl
    | some a => rw [Option.map_some, Option.map_some, ends_succ ha]
  rw [step, Connect.Run.step_of_elapsed h.stage hi hw]
  constructor
  case stage => simp [Course.begin, environment]
  case after => simp [Course.begin, hnow]
  case due => simpa [Course.begin, environment] using hdue
  case before =>
    intro a ha
    simpa [Course.begin, hnow] using s.begins_le_ends k
  case result =>
    intro a ha
    simp [Course.begin, environment, h.world.1, ha]
  case begun => simp [Course.begin, environment, h.world.1]
  case deeds =>
    rw [Course.begin, Course.deeds_absorb _ rfl, Course.note_trace, Entry.deeds_cons (by simp),
      h.deeds, hnow]
    rfl
  case heeds =>
    refine ⟨fun _ => ?_, fun hover => ?_⟩
    · simpa [Course.begin, environment] using hpending
    · simp [Course.begin, environment, hi] at hover
  case fresh =>
    intro hover
    simp [Course.begin, environment, hi] at hover
  case not_early => exact h.not_early hi

/-- The wait before an attempt goes on to its end or to the interrupt. -/
theorem Poised.advance (h : s.Poised k r) (hi : r.course.interrupted = false)
    (hw : r.course.now < s.begins k) :
    s.Poised k (s.step r) ∧
      ((s.step r).course.interrupted = true ∨ s.begins k ≤ (s.step r).course.now) := by
  have hstep : s.step r = _ := Connect.Run.step_of_waiting h.stage hi hw
  have hholds : ∀ t, s.holds t r.course.world = true → some (s.begins k) = some t := by
    intro t ht
    simp [holds, h.world.2] at ht
  rcases h.heeds.advance interrupts hi (fun v hv => Option.some.inj hv ▸ h.before) hholds with
    ⟨t, ht, hle, hnow, hc⟩ | ⟨v, hv, hlate, hc⟩ | ⟨hnone, -⟩
  · rw [hstep, hc]
    have hbegins := hle _ rfl
    have hends := h.after
    refine ⟨⟨h.stage, ?_, hbegins, h.world, ?_, .struck ht rfl, fun _ => ht,
      fun hearly => absurd hearly (h.not_early hi)⟩, .inl rfl⟩
    · show s.ends k ≤ t
      omega
    · exact (Entry.deeds_interrupted t _).trans h.deeds
  · have hv : s.begins k = v := Option.some.inj hv
    rw [hstep, hc]
    refine ⟨⟨h.stage, hv ▸ s.ends_le_begins k, Nat.le_of_eq hv.symm, h.world, h.deeds, ?_, ?_,
      fun hearly => absurd hearly (h.not_early hi)⟩, .inr (Nat.le_of_eq hv)⟩
    · exact ⟨fun _ => ⟨(h.heeds.pending hi).1, hlate⟩, fun hover => absurd (hi.symm.trans hover)
        Bool.false_ne_true⟩
    · exact fun hover => absurd (hi.symm.trans hover) Bool.false_ne_true
  · cases hnone

/-- Where the end of the wait or the interrupt has come, one step is enough. -/
theorem Poised.concludes (h : s.Poised k r) (hfails : ∀ j < k, s.Fails j)
    (hend : r.course.interrupted = true ∨ s.begins k ≤ r.course.now) :
    s.Underway k (s.step r) ∨ ∃ finish result trace, s.Stops finish result trace ∧
      Over finish result trace (s.step r) := by
  by_cases hi : r.course.interrupted = true
  · have hover : Over r.course.now (.ok none) (s.account k) (s.step r) :=
      h.deeds ▸ over_of_interrupted h.stage hi
    by_cases hearly : s.interrupt = .before
    · obtain ⟨rfl, -, hnow⟩ := h.early hearly
      exact .inr ⟨_, _, _, .early hearly, hnow ▸ hover⟩
    · exact .inr ⟨_, _, _, .waiting hearly hfails (h.fresh hi) h.after h.before, hover⟩
  · exact .inl (h.begin (by simpa using hi) (hend.resolve_left hi))

/-- **A wait leads to its attempt, or to the end of the series at the interrupt.** -/
theorem Poised.leads (h : s.Poised k r) (hfails : ∀ j < k, s.Fails j) :
    ∃ r', Leads s.step r r' ∧ (s.Underway k r' ∨ ∃ finish result trace,
      s.Stops finish result trace ∧ Over finish result trace r') := by
  by_cases hend : r.course.interrupted = true ∨ s.begins k ≤ r.course.now
  · exact ⟨_, .single rfl, h.concludes hfails hend⟩
  · obtain ⟨hi, hw⟩ := not_or.mp hend
    obtain ⟨h', hend'⟩ := h.advance (by simpa using hi) (by omega)
    exact ⟨_, .head rfl (.single rfl), h'.concludes hfails hend'⟩

/-! ### During an attempt -/

/-- The time of an attempt goes on to its answer or to the interrupt, if either is to come. -/
theorem Underway.advance (h : s.Underway k r) (hi : r.course.interrupted = false)
    (hw : ∀ a, s.answers k = some a → r.course.now < s.ends (k + 1)) :
    (s.Underway k (s.step r) ∧ ((s.step r).course.interrupted = true ∨
      ∃ a, s.answers k = some a ∧ s.ends (k + 1) ≤ (s.step r).course.now)) ∨
    (s.answers k = none ∧ s.strike = none ∧ s.step r = r) := by
  have hreached : reached r.course.world.due r.course.now = false := by
    rw [h.due]
    cases ha : s.answers k with
    | none => rfl
    | some a => simpa [reached] using hw a ha
  have hstep : s.step r = _ := Connect.Run.step_of_unanswered h.stage hi hreached
  have hwake : ∀ v, r.course.world.due = some v → r.course.now ≤ v := by
    intro v hv
    have := hreached
    simp only [hv, reached, decide_eq_false_iff_not] at this
    omega
  have hholds : ∀ t, s.holds t r.course.world = true → r.course.world.due = some t := by
    intro t ht
    simpa [holds] using (Bool.and_eq_true_iff.mp ht).2
  rcases h.heeds.advance interrupts hi hwake hholds with
    ⟨t, ht, hle, hnow, hc⟩ | ⟨v, hv, hlate, hc⟩ | ⟨hnone, hstrike, hc⟩
  · rw [hstep, hc]
    refine .inl ⟨⟨h.stage, Nat.le_trans h.after hnow, h.due, fun a ha => ?_, h.result, h.begun, ?_,
      .struck ht rfl, fun _ => ht, h.not_early⟩, .inl rfl⟩
    · exact hle _ (by rw [h.due, ha]; rfl)
    · exact (Entry.deeds_interrupted t _).trans h.deeds
  · rw [hstep, hc]
    obtain ⟨a, ha, hv⟩ : ∃ a, s.answers k = some a ∧ s.ends (k + 1) = v := by
      rw [h.due] at hv
      exact Option.map_eq_some_iff.mp hv
    refine .inl ⟨⟨h.stage, hv ▸ s.begins_le_ends k, h.due, fun _ _ => Nat.le_of_eq hv.symm,
      h.result, h.begun, h.deeds, ?_, ?_, h.not_early⟩, .inr ⟨a, ha, Nat.le_of_eq hv⟩⟩
    · exact ⟨fun _ => ⟨(h.heeds.pending hi).1, hlate⟩, fun hover => absurd (hi.symm.trans hover)
        Bool.false_ne_true⟩
    · exact fun hover => absurd (hi.symm.trans hover) Bool.false_ne_true
  · refine .inr ⟨?_, hstrike, by rw [hstep, hc]⟩
    simpa [h.due] using hnone

/-- The interrupt may come with an answer, and nothing else does. -/
theorem Underway.answer (h : s.Underway k r) (hi : r.course.interrupted = false) {a : Answer}
    (ha : s.answers k = some a) (hw : s.ends (k + 1) ≤ r.course.now) :
    ∃ c : Course State,
      r.course.finish s.environment .establish
        = (c.note (Course.answer .establish a.result), a.result) ∧
      c.now = s.ends (k + 1) ∧ (c.world.begun = k + 1 ∧ c.world.due = none) ∧
      Entry.deeds c.trace = s.began k :: s.account k ∧ c.Heeds State.interruptAt s.strike ∧
      (c.interrupted = true → s.strike = some c.now) := by
  have hnow : r.course.now = s.ends (k + 1) := Nat.le_antisymm (h.before a ha) hw
  obtain ⟨hinterrupt, hlate⟩ := h.heeds.pending hi
  have hvalue : (s.environment.answer r.course.now .establish r.course.world).value = a.result := by
    rw [environment_answer]
    split
    · exact h.result a ha
    · exact h.result a ha
  refine ⟨_, by rw [Course.finish_eq, hvalue], ?_⟩
  by_cases hr : reached r.course.world.interruptAt r.course.now = true
  · obtain ⟨t, ht, hle⟩ : ∃ t, s.strike = some t ∧ t ≤ r.course.now := by
      rw [hinterrupt] at hr
      cases hs : s.strike with
      | none => simp [hs, reached] at hr
      | some t => exact ⟨t, rfl, by simpa [hs, reached] using hr⟩
    obtain rfl : t = r.course.now := Nat.le_antisymm hle (hlate t ht)
    simp only [environment_answer, hr, if_true]
    refine ⟨by simp [hnow], by simp [State.spent, h.begun], ?_, ?_, fun _ => by simpa using ht⟩
    · rw [Course.deeds_absorb _ rfl, h.deeds]
    · exact ⟨by simp, fun _ => ⟨by simp [State.spent], _, ht, by simp⟩⟩
  · simp only [environment_answer, hr, Bool.false_eq_true, if_false]
    refine ⟨by simp [hnow], by simp [h.begun], ?_, ?_, by simp [hi]⟩
    · rw [Course.deeds_absorb _ rfl, h.deeds]
    · exact ⟨fun _ => ⟨by simpa using hinterrupt, by simpa using hlate⟩, by simp [hi]⟩

/-- The answer to an attempt leads to the next wait, or settles the series. -/
theorem Underway.receive (h : s.Underway k r) (hi : r.course.interrupted = false) {a : Answer}
    (ha : s.answers k = some a) (hw : s.ends (k + 1) ≤ r.course.now) :
    (s.Fails k ∧ s.Poised (k + 1) (s.step r)) ∨
    (¬ s.Fails k ∧ Over (s.ends (k + 1)) (a.result.map some)
      (s.answered k ++ s.began k :: s.account k) (s.step r)) := by
  obtain ⟨c, hfinish, hnow, hworld, hdeeds, hheeds, hfresh⟩ := h.answer hi ha hw
  have hreached : reached r.course.world.due r.course.now = true := by
    simp [h.due, ha, reached, hw]
  rw [step, Connect.Run.step_of_answered h.stage hi hreached]
  cases hresult : a.result with
  | ok declared =>
    rw [hresult] at hfinish
    refine .inr ⟨?_, ?_⟩
    · rintro ⟨b, cause, hb, hcause, -⟩
      obtain rfl := Option.some.inj (ha.symm.trans hb)
      rw [hresult] at hcause
      cases hcause
    · simp only [Connect.receive, hfinish]
      refine ⟨rfl, hnow, ?_⟩
      simp [answered, ha, hresult, Course.answer, Entry.deeds_cons, hdeeds, hnow]
  | error cause =>
    rw [hresult] at hfinish
    by_cases ht : cause.isTransient = true
    · refine .inl ⟨⟨a, cause, ha, hresult, ht⟩, ?_⟩
      simp only [Connect.receive, hfinish, ht, if_true, Connect.backOff, ← number_succ]
      refine ⟨?_, ?_, ?_, hworld, ?_, ⟨hheeds.pending, hheeds.passed⟩, hfresh,
        fun hearly => absurd hearly h.not_early⟩
      · simp [hnow, begins, delay]
      · simp [hnow]
      · simpa [hnow] using s.ends_le_begins (k + 1)
      · simp [account, announced, delay, answered, ha, hresult, ht, Course.answer,
          Entry.deeds_cons, hdeeds, hnow]
    · refine .inr ⟨?_, ?_⟩
      · rintro ⟨b, cause', hb, hcause, htransient⟩
        obtain rfl := Option.some.inj (ha.symm.trans hb)
        obtain rfl := Except.error.inj (hresult.symm.trans hcause)
        exact ht htransient
      · simp only [Connect.receive, hfinish, ht, Bool.false_eq_true, if_false]
        refine ⟨rfl, hnow, ?_⟩
        simp [answered, ha, hresult, ht, Course.answer, Entry.deeds_cons, hdeeds, hnow]

/-- What an attempt comes to: the end of the series, or the next wait. -/
def Concludes (s : Attempts) (k : Nat) (r : Connect.Run State) : Prop :=
  (∃ finish result trace, s.Stops finish result trace ∧ Over finish result trace r) ∨
    (s.Fails k ∧ (∀ t, s.strike = some t → s.ends (k + 1) ≤ t) ∧ s.Poised (k + 1) r)

/-- Where the answer or the interrupt has come, one step is enough. -/
theorem Underway.concludes (h : s.Underway k r) (hfails : ∀ j < k, s.Fails j)
    (hend : r.course.interrupted = true ∨ ∃ a, s.answers k = some a ∧
      s.ends (k + 1) ≤ r.course.now) : s.Concludes k (s.step r) := by
  by_cases hi : r.course.interrupted = true
  · exact .inl ⟨_, _, _, .abandoned h.not_early hfails (h.fresh hi) h.after h.before,
      h.deeds ▸ over_of_interrupted h.stage hi⟩
  · obtain ⟨a, ha, hw⟩ := hend.resolve_left hi
    simp only [Bool.not_eq_true] at hi
    have hlate : ∀ t, s.strike = some t → s.ends (k + 1) ≤ t := by
      intro t ht
      exact Nat.le_trans hw ((h.heeds.pending hi).2 t ht)
    rcases h.receive hi ha hw with ⟨hfail, hpoised⟩ | ⟨hlast, hover⟩
    · exact .inr ⟨hfail, hlate, hpoised⟩
    · exact .inl ⟨_, _, _, .settled h.not_early hfails ha hlast hlate, hover⟩

/-- **An attempt comes to its conclusion, unless it stalls and nobody interrupts.** -/
theorem Underway.leads (h : s.Underway k r) (hfails : ∀ j < k, s.Fails j) :
    (∃ r', Leads s.step r r' ∧ s.Concludes k r') ∨
      (s.answers k = none ∧ s.strike = none ∧ s.step r = r) := by
  by_cases hend : r.course.interrupted = true ∨
      ∃ a, s.answers k = some a ∧ s.ends (k + 1) ≤ r.course.now
  · exact .inl ⟨_, .single rfl, h.concludes hfails hend⟩
  · obtain ⟨hi, hw⟩ := not_or.mp hend
    have hw : ∀ a, s.answers k = some a → r.course.now < s.ends (k + 1) := by
      intro a ha
      exact Nat.lt_of_not_le fun hle => hw ⟨a, ha, hle⟩
    rcases h.advance (by simpa using hi) hw with ⟨h', hend'⟩ | hstuck
    · exact .inl ⟨_, .head rfl (.single rfl), h'.concludes hfails hend'⟩
    · exact .inr hstuck

/-! ### The whole series -/

theorem run_eq (n : Nat) :
    s.run n = s.step^[n] (Connect.Run.repeated s.policy s.endpoint s.opening) :=
  Connect.Run.run_eq n _

theorem run_of_leads {n : Nat} {r' : Connect.Run State} (h : Leads s.step (s.run n) r') :
    ∃ m, n < m ∧ s.run m = r' := by
  obtain ⟨m, rfl⟩ := h
  refine ⟨m + 1 + n, by omega, ?_⟩
  rw [run_eq, run_eq, Function.iterate_add_apply]

theorem run_of_fixed {n m : Nat} (h : s.step (s.run n) = s.run n) (hm : n ≤ m) :
    s.run m = s.run n := by
  rw [run_eq] at h
  rw [run_eq, run_eq, iterate_of_fixed h hm]

/-- A series that is over stays over. -/
theorem run_of_over {n m : Nat} {result : Connect.Result} (h : (s.run n).stage = .over result)
    (hm : n ≤ m) : s.run m = s.run n := by
  refine run_of_fixed ?_ hm
  simp only [step, Connect.Run.step, h]

/-- What an attempt comes to in a series that does not stop: it is never answered, or it fails, and
another one is worth while. -/
def Endures (s : Attempts) (k : Nat) : Prop :=
  (s.answers k = none ∧ s.strike = none) ∨
    (s.Fails k ∧ ∀ t, s.strike = some t → s.ends (k + 1) ≤ t)

section Endless

variable (hendless : ∀ n finish result trace, s.Stops finish result trace →
  ¬ Over finish result trace (s.run n))
include hendless

theorem exists_underway_of_poised {n : Nat} (hfails : ∀ j < k, s.Fails j)
    (h : s.Poised k (s.run n)) : ∃ m, n < m ∧ s.Underway k (s.run m) := by
  obtain ⟨r', hleads, hr'⟩ := h.leads hfails
  obtain ⟨m, hm, rfl⟩ := run_of_leads hleads
  rcases hr' with hunderway | ⟨finish, result, trace, hstops, hover⟩
  · exact ⟨m, hm, hunderway⟩
  · exact absurd hover (hendless m _ _ _ hstops)

theorem endures_of_underway {n : Nat} (hfails : ∀ j < k, s.Fails j)
    (h : s.Underway k (s.run n)) :
    (s.answers k = none ∧ s.strike = none ∧ s.step (s.run n) = s.run n) ∨
      (s.Fails k ∧ (∀ t, s.strike = some t → s.ends (k + 1) ≤ t) ∧
        ∃ m, n < m ∧ s.Poised (k + 1) (s.run m)) := by
  rcases h.leads hfails with ⟨r', hleads, hr'⟩ | hstuck
  · obtain ⟨m, hm, rfl⟩ := run_of_leads hleads
    rcases hr' with ⟨finish, result, trace, hstops, hover⟩ | ⟨hfail, hlate, hpoised⟩
    · exact absurd hover (hendless m _ _ _ hstops)
    · exact .inr ⟨hfail, hlate, m, hm, hpoised⟩
  · exact .inl hstuck

/-- A series that does not stop makes every attempt that the ones before it call for. -/
theorem exists_underway (hfails : ∀ j < k, s.Fails j) : ∃ n, k ≤ n ∧ s.Underway k (s.run n) := by
  induction k with
  | zero =>
    obtain ⟨m, -, hm⟩ := exists_underway_of_poised (n := 0) hendless hfails poised_zero
    exact ⟨m, Nat.zero_le m, hm⟩
  | succ k ih =>
    have hbefore : ∀ j < k, s.Fails j := fun j hj => hfails j (by omega)
    obtain ⟨n, hn, hunderway⟩ := ih hbefore
    rcases endures_of_underway hendless hbefore hunderway with
      ⟨hnone, -⟩ | ⟨-, -, m, hm, hpoised⟩
    · obtain ⟨a, -, ha, -⟩ := hfails k (Nat.lt_succ_self k)
      rw [hnone] at ha
      cases ha
    · obtain ⟨i, hi, hnext⟩ := exists_underway_of_poised hendless hfails hpoised
      exact ⟨i, by omega, hnext⟩

/-- A series that does not stop as the script says does not stop at all. -/
theorem not_over (n : Nat) (result : Connect.Result) : (s.run n).stage ≠ .over result := by
  intro hover
  -- some attempt is under way after `n`
  obtain ⟨m, hm, k, hunderway⟩ : ∃ m, n ≤ m ∧ ∃ k, s.Underway k (s.run m) := by
    by_cases hall : ∀ k, s.Fails k
    · obtain ⟨m, hm, h⟩ := exists_underway (k := n) hendless fun j _ => hall j
      exact ⟨m, hm, n, h⟩
    · -- the first attempt that does not fail is never answered
      classical
      have hex := Classical.not_forall.mp hall
      have hbefore : ∀ j < Nat.find hex, s.Fails j :=
        fun j hj => Classical.not_not.mp (Nat.find_min hex hj)
      obtain ⟨m, -, h⟩ := exists_underway hendless hbefore
      rcases endures_of_underway hendless hbefore h with ⟨-, -, hstuck⟩ | ⟨hfail, -⟩
      · refine ⟨max n m, Nat.le_max_left n m, Nat.find hex, ?_⟩
        rw [run_of_fixed hstuck (Nat.le_max_right n m)]
        exact h
      · exact absurd hfail (Nat.find_spec hex)
  rw [run_of_over hover hm] at hunderway
  exact absurd (hover.symm.trans hunderway.stage) nofun

end Endless

/-- **A series of attempts stops where the script says so, and goes on otherwise.** Each attempt
begins when the wait that its number sets has passed since the end of the attempt before it. The
series is over at the first attempt that succeeds or fails for good, or at the interrupt if that
comes earlier, with nothing in its trace but the attempts up to there; the script leaves no choice
in this unless two things fall on one instant. If neither comes, no attempt that is called for is
left out. -/
theorem run_stops_or_goes_on (s : Attempts) :
    (∃ n finish result trace, s.Stops finish result trace ∧ (s.run n).stage = .over result ∧
      (s.run n).course.now = finish ∧ Entry.deeds (s.run n).course.trace = trace ∧
      (s.Apart → ∀ finish' result' trace', s.Stops finish' result' trace' →
        finish = finish' ∧ result = result' ∧ trace = trace')) ∨
    ((∀ n result, (s.run n).stage ≠ .over result) ∧
      ∀ k, (∀ j < k, s.Fails j) → s.Endures k ∧
        ∃ n due, (s.run n).stage = .ongoing (.establishing (some (number k)) due) ∧
          Entry.deeds (s.run n).course.trace = s.began k :: s.account k) := by
  by_cases hstops : ∃ n finish result trace,
      s.Stops finish result trace ∧ Over finish result trace (s.run n)
  · obtain ⟨n, finish, result, trace, hstops, hover⟩ := hstops
    exact .inl ⟨n, finish, result, trace, hstops, hover.stage, hover.now, hover.deeds,
      fun hapart _ _ _ hstops' => hstops.unique hapart hstops'⟩
  · have hendless : ∀ n finish result trace, s.Stops finish result trace →
        ¬ Over finish result trace (s.run n) :=
      fun n finish result trace h hover => hstops ⟨n, finish, result, trace, h, hover⟩
    refine .inr ⟨not_over hendless, fun k hfails => ?_⟩
    obtain ⟨n, -, h⟩ := exists_underway hendless hfails
    refine ⟨?_, n, _, h.stage, h.deeds⟩
    rcases endures_of_underway hendless hfails h with ⟨hnone, hstrike, -⟩ | ⟨hfail, hlate, -⟩
    · exact .inl ⟨hnone, hstrike⟩
    · exact .inr ⟨hfail, hlate⟩

end Attempts

end QueueDrain
