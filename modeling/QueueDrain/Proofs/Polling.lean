import QueueDrain.Poller.Readings
import QueueDrain.Proofs.Parts
import QueueDrain.Proofs.Standalone

/-!
# A run of the poller from its beginning to its end

A poller that has not seen the queue empty is run against a list of readings, each of which takes
any time and gives a count or an error, and an interrupt at any instant. The list and the interrupt
alone tell when each reading begins and ends, what has happened by then and where the run stops; the
run does just that. A reading that has begun is never given up: an interrupt that falls into it is
looked at in the wait behind it.

## Main definitions

* `Polling`, `Polling.environment` — the circumstances of a run, and its environment
* `Polling.begins`, `Polling.ends`, `Polling.fed`, `Polling.made` — when each reading begins and
  ends, and the poller and the trace by then
* `Polling.Stops` — where, when and with what result the run stops
* `Polling.Poised`, `Polling.Underway` — a run before a reading, and during one

## Main results

* `Polling.Stops.unique` — the readings and the interrupt stop a run in one way only
* `Polling.Poised.leads`, `Polling.Underway.leads` — what a wait and a reading lead to
* `Polling.run_stops` — a run stops where its readings and the interrupt say
-/

namespace QueueDrain

/-! ### A step of the poller -/

namespace Poller.Run

variable {ω : Type} {E : Environment ω} {r : Run ω} {a : Activity} {wake : Nat} {due : Option Nat}

theorem step_of_some {c : Course ω} {p : Poller} {stage : Stage Activity Result}
    (hs : r.stage = .ongoing a) (h : Poller.step E r.poller a r.course = some (c, p, stage)) :
    r.step E = { course := c, poller := p, stage } := by
  simp only [step, hs, h]

theorem step_of_none (hs : r.stage = .ongoing a) (h : Poller.step E r.poller a r.course = none) :
    r.step E = { r with course := r.course.advance E [a.wake] } := by
  simp only [step, hs, h]

/-- The interrupt is looked at while the poller waits. -/
theorem step_of_interrupted (hs : r.stage = .ongoing (.waiting wake))
    (hi : r.course.interrupted = true) :
    ∃ c, r.course.Raced E c ∧
      (r.step E = { r with course := c, stage := .over (.ok .interrupted) } ∨
        (wake ≤ r.course.now ∧ r.step E =
          { r with
            course := (c.begin E .depth).1
            stage := .ongoing (.reading (c.begin E .depth).2) })) := by
  have hmoves : Poller.step E r.poller (.waiting wake) r.course ≠ none := step_waiting_ne_none hi
  obtain ⟨⟨c, p, stage⟩, hsome⟩ := Option.ne_none_iff_exists'.mp hmoves
  rw [step_of_some hs hsome]
  cases step_move hsome with
  | interrupted _ hr => exact ⟨c, hr, .inl rfl⟩
  | began hw hr => exact ⟨_, hr, .inr ⟨hw, rfl⟩⟩

theorem step_of_elapsed (hs : r.stage = .ongoing (.waiting wake))
    (hi : r.course.interrupted = false) (hw : wake ≤ r.course.now) :
    r.step E =
      { r with
        course := (r.course.begin E .depth).1
        stage := .ongoing (.reading (r.course.begin E .depth).2) } := by
  refine step_of_some hs ?_
  simp [Poller.step, hi, hw, Poller.read]

theorem step_of_waiting (hs : r.stage = .ongoing (.waiting wake))
    (hi : r.course.interrupted = false) (hw : r.course.now < wake) :
    r.step E = { r with course := r.course.advance E [some wake] } := by
  refine step_of_none hs ?_
  simp [Poller.step, hi, hw]

theorem step_of_unanswered (hs : r.stage = .ongoing (.reading due))
    (hd : reached due r.course.now = false) :
    r.step E = { r with course := r.course.advance E [due] } := by
  refine step_of_none hs ?_
  simp [Poller.step, hd]

/-- A reading is answered with a count. -/
theorem step_of_ok {c : Course ω} {count : Nat} (hs : r.stage = .ongoing (.reading due))
    (hd : reached due r.course.now = true) (hf : r.course.finish E .depth = (c, .ok count)) :
    r.step E =
      { course := c.tell (if (r.poller.record count).done then
          .emptied (r.poller.record count).polls else .left count)
        poller := r.poller.record count
        stage := (r.poller.record count).enter (c.tell (if (r.poller.record count).done then
          .emptied (r.poller.record count).polls else .left count)) } := by
  refine step_of_some hs ?_
  simp [Poller.step, hd, Poller.receive, hf]

/-- A reading fails. -/
theorem step_of_error {c : Course ω} {cause : DrainError} (hs : r.stage = .ongoing (.reading due))
    (hd : reached due r.course.now = true) (hf : r.course.finish E .depth = (c, .error cause)) :
    r.step E = { r with course := c, stage := .over (.error cause) } := by
  refine step_of_some hs ?_
  simp [Poller.step, hd, Poller.receive, hf]

end Poller.Run

/-! ### The circumstances of a run -/

/-- The circumstances of a run of the poller. -/
structure Polling where
  poller : Poller
  /-- When the run begins. -/
  start : Nat
  /-- The counter of rejected messages when it begins. -/
  rejected : UInt64 := 0
  readings : Readings
  interrupt : Interrupt := .never
  /-- Whether an interrupt at the end of the wait before a reading is looked at first. -/
  looksFirst : Readings → Bool := fun _ => true

namespace Polling

variable (s : Polling)

/-- The readings as an environment. -/
def environment : Environment Readings :=
  { Readings.environment with race := fun w => (w, s.looksFirst w) }

/-- The instant at which the run can notice the interrupt. -/
def strike : Option Nat := s.interrupt.strike s.start

/-- The course that the run begins with. -/
def opening : Course Readings :=
  .opening s.start (s.readings.expecting s.interrupt s.start) s.rejected s.interrupt.isEarly

/-- The run after some steps. -/
def run (n : Nat) : Poller.Run Readings :=
  (Poller.Run.enter s.poller s.opening).run s.environment n

/-- Reading `j`, which fails where the list is at its end. -/
def answer (j : Nat) : Readings.Answer :=
  (s.readings.answers[j]?).getD { result := .error s.readings.beyond }

/-- When the reading before reading `j` ended, or the run began. -/
def ends : Nat → Nat
  | 0 => s.start
  | j + 1 => ends j + s.poller.interval.millisCeil + (s.answer j).delay

/-- When reading `j` begins. -/
def begins (j : Nat) : Nat := s.ends j + s.poller.interval.millisCeil

/-- Reading `j` gives a count, and not zero. -/
def Continues (j : Nat) : Prop := ∃ count, (s.answer j).result = .ok count ∧ count ≠ 0

/-- The poller after `k` readings. -/
def fed : Nat → Poller
  | 0 => s.poller
  | k + 1 =>
    match (s.answer k).result with
    | .ok count => (fed k).record count
    | .error _ => fed k

def began (j : Nat) : Entry := ⟨s.begins j, .began .depth⟩

/-- What the answer to reading `j` adds to the trace. -/
def answered (j : Nat) : List Entry :=
  match (s.answer j).result with
  | .ok count =>
    [⟨s.ends (j + 1),
        .notice (if count == 0 then .emptied (s.fed (j + 1)).polls else .left count)⟩,
      ⟨s.ends (j + 1), .answered .depth count⟩]
  | .error cause => [⟨s.ends (j + 1), .failed .depth cause⟩]

/-- What has happened when `k` readings are over, newest first. -/
def made : Nat → List Entry
  | 0 => []
  | k + 1 => s.answered k ++ s.began k :: made k

/-- Where the run stops: after how many readings, when and with what result. -/
inductive Stops : Nat → Nat → Poller.Result → Prop
  /-- The interrupt has come before the run begins. -/
  | early (hearly : s.interrupt = .before) : Stops 0 s.start (.ok .interrupted)
  /-- Reading `k` gives zero. -/
  | drained {k : Nat} (hearly : s.interrupt ≠ .before) (hbefore : ∀ j < k, s.Continues j)
      (hstrike : ∀ t, s.strike = some t → s.begins k ≤ t) (hzero : (s.answer k).result = .ok 0) :
      Stops (k + 1) (s.ends (k + 1)) (.ok .drained)
  /-- Reading `k` fails. -/
  | failed {k : Nat} {cause : DrainError} (hearly : s.interrupt ≠ .before)
      (hbefore : ∀ j < k, s.Continues j) (hstrike : ∀ t, s.strike = some t → s.begins k ≤ t)
      (herror : (s.answer k).result = .error cause) :
      Stops (k + 1) (s.ends (k + 1)) (.error cause)
  /-- The interrupt comes in the wait before reading `k`, or in the reading before that. -/
  | interrupted {k t : Nat} (hearly : s.interrupt ≠ .before) (hbefore : ∀ j < k, s.Continues j)
      (hstrike : s.strike = some t) (hbegun : ∀ j < k, s.begins j ≤ t) (hbegins : t ≤ s.begins k) :
      Stops k (max (s.ends k) t) (.ok .interrupted)

/-- The interrupt does not fall on the beginning of a reading. -/
def Apart : Prop := ∀ t, s.strike = some t → ∀ k, t ≠ s.begins k

variable {s} {k : Nat} {r : Poller.Run Readings}

theorem begins_le_ends (k : Nat) : s.begins k ≤ s.ends (k + 1) := Nat.le_add_right ..

theorem ends_le_begins (k : Nat) : s.ends k ≤ s.begins k := Nat.le_add_right ..

theorem begins_mono {j : Nat} (h : j ≤ k) : s.begins j ≤ s.begins k := by
  induction h with
  | refl => exact Nat.le_refl _
  | step _ ih => exact Nat.le_trans ih (Nat.le_trans (s.begins_le_ends _) (s.ends_le_begins _))

theorem begins_le_ends_of_lt {j : Nat} (h : j < k) : s.begins j ≤ s.ends k := by
  cases k with
  | zero => exact absurd h (Nat.not_lt_zero j)
  | succ k => exact Nat.le_trans (begins_mono (Nat.le_of_lt_succ h)) (s.begins_le_ends k)

/-- Readings leave the interval as it is. -/
theorem interval_fed (k : Nat) : (s.fed k).interval = s.poller.interval := by
  induction k with
  | zero => rfl
  | succ k ih =>
    rw [fed]
    split
    · exact ih
    · exact ih

theorem fed_succ {count : Nat} (h : (s.answer k).result = .ok count) :
    s.fed (k + 1) = (s.fed k).record count := by
  rw [fed, h]

/-- The list goes on behind a reading that gives a count. -/
theorem lt_length_of_continues (h : s.Continues k) : k < s.readings.answers.length := by
  obtain ⟨count, hcount, -⟩ := h
  refine Nat.lt_of_not_le fun hle => ?_
  rw [answer, List.getElem?_eq_none hle] at hcount
  cases hcount

/-- The last reading of a run that is not interrupted. -/
inductive Ends (s : Polling) (k : Nat) : Poller.Result → Prop
  | drained (hzero : (s.answer k).result = .ok 0) : Ends s k (.ok .drained)
  | failed {cause : DrainError} (herror : (s.answer k).result = .error cause) :
      Ends s k (.error cause)

theorem Ends.not_continues {result : Poller.Result} (h : s.Ends k result) : ¬ s.Continues k := by
  rintro ⟨count, hcount, hne⟩
  cases h with
  | drained hzero =>
    rw [hzero] at hcount
    cases hcount
    exact hne rfl
  | failed herror =>
    rw [herror] at hcount
    cases hcount

theorem Ends.unique {result result' : Poller.Result} (h : s.Ends k result)
    (h' : s.Ends k result') : result = result' := by
  cases h with
  | drained hzero =>
    cases h' with
    | drained _ => rfl
    | failed herror =>
      rw [hzero] at herror
      cases herror
  | failed herror =>
    cases h' with
    | drained hzero =>
      rw [hzero] at herror
      cases herror
    | failed herror' =>
      rw [herror] at herror'
      cases herror'
      rfl

section Apart

variable {m m' finish finish' : Nat} {result result' : Poller.Result}
variable (hapart : s.Apart)

/-- A run stops behind a last reading, or in the wait for one that is not made. -/
theorem Stops.ends_or (h : s.Stops m finish result) (hearly : s.interrupt ≠ .before) :
    (∃ k, m = k + 1 ∧ finish = s.ends (k + 1) ∧ s.Ends k result ∧ (∀ j < k, s.Continues j) ∧
      ∀ t, s.strike = some t → s.begins k ≤ t) ∨
    (result = .ok .interrupted ∧ (∀ j < m, s.Continues j) ∧ ∃ t, s.strike = some t ∧
      finish = max (s.ends m) t ∧ t ≤ s.begins m ∧ ∀ j < m, s.begins j ≤ t) := by
  cases h with
  | early h => exact absurd h hearly
  | drained _ hbefore hstrike hzero =>
    exact .inl ⟨_, rfl, rfl, .drained hzero, hbefore, hstrike⟩
  | failed _ hbefore hstrike herror =>
    exact .inl ⟨_, rfl, rfl, .failed herror, hbefore, hstrike⟩
  | interrupted _ hbefore hstrike hbegun hbegins =>
    exact .inr ⟨rfl, hbefore, _, hstrike, rfl, hbegins, hbegun⟩

include hapart

/-- A run that stops behind a last reading is not interrupted. -/
theorem not_interrupted_of_ends {k t : Nat} (hends : s.Ends k result)
    (hlate : ∀ t, s.strike = some t → s.begins k ≤ t) (hbefore : ∀ j < m, s.Continues j)
    (ht : s.strike = some t) : ¬ t ≤ s.begins m := by
  intro hbegins
  by_cases hlt : k < m
  · exact hends.not_continues (hbefore k hlt)
  · have := begins_mono (s := s) (Nat.le_of_not_lt hlt)
    have := hlate t ht
    have := hapart t ht k
    omega

/-- **The readings and the interrupt stop a run in one way only**, unless the interrupt falls on the
beginning of a reading. -/
theorem Stops.unique (h : s.Stops m finish result) (h' : s.Stops m' finish' result') :
    m = m' ∧ finish = finish' ∧ result = result' := by
  by_cases hearly : s.interrupt = .before
  · cases h with
    | early _ =>
      cases h' with
      | early _ => exact ⟨rfl, rfl, rfl⟩
      | drained hnot | failed hnot | interrupted hnot => exact absurd hearly hnot
    | drained hnot | failed hnot | interrupted hnot => exact absurd hearly hnot
  · rcases h.ends_or hearly with ⟨k, rfl, rfl, hends, hbefore, hlate⟩ |
      ⟨rfl, hbefore, t, ht, rfl, hbegins, hbegun⟩ <;>
    rcases h'.ends_or hearly with ⟨k', rfl, rfl, hends', hbefore', hlate'⟩ |
      ⟨rfl, hbefore', t', ht', rfl, hbegins', hbegun'⟩
    · obtain rfl : k = k' := by
        refine Nat.le_antisymm (Nat.le_of_not_lt fun hlt => ?_) (Nat.le_of_not_lt fun hlt => ?_)
        · exact hends'.not_continues (hbefore k' hlt)
        · exact hends.not_continues (hbefore' k hlt)
      exact ⟨rfl, rfl, hends.unique hends'⟩
    · exact absurd hbegins' (not_interrupted_of_ends hapart hends hlate hbefore' ht')
    · exact absurd hbegins (not_interrupted_of_ends hapart hends' hlate' hbefore ht)
    · obtain rfl := Option.some.inj (ht.symm.trans ht')
      obtain rfl : m = m' := by
        refine Nat.le_antisymm (Nat.le_of_not_lt fun hlt => ?_) (Nat.le_of_not_lt fun hlt => ?_)
        · have := hbegun m' hlt
          have := hapart t ht m'
          omega
        · have := hbegun' m hlt
          have := hapart t ht m
          omega
      exact ⟨rfl, rfl, rfl⟩

end Apart

/-- The interrupt is over. -/
def spent (w : Readings) : Readings := { w with interruptAt := none }

/-- The list interrupts by itself. -/
theorem interrupts : s.environment.Interrupts Readings.interruptAt (fun _ _ => false) spent where
  nextChange _ := rfl
  pass now w := by
    show Readings.environment.pass now w = _
    cases ht : w.interruptAt with
    | none => simp [Readings.environment, ht, reached]
    | some t =>
      by_cases hle : t ≤ now
      · simp [Readings.environment, ht, reached, hle, spent]
      · simp [Readings.environment, ht, reached, hle]

/-- Whoever is looked at first, the list stays where it is. -/
theorem eq_of_raced {c c' : Course Readings} (h : c.Raced s.environment c') : c' = c := by
  induction h with
  | refl => rfl
  | tail _ hlast ih =>
    subst ih
    exact hlast

/-- A list that has got as far as reading `k`. -/
structure At (s : Polling) (k : Nat) (w : Readings) : Prop where
  answers : w.answers = s.readings.answers.drop k
  beyond : w.beyond = s.readings.beyond

/-- The next answer of a list is its answer to the next reading. -/
theorem At.read {w : Readings} (h : s.At k w) (now : Nat) :
    (w.read now).value = some (now + (s.answer k).delay) ∧
      (w.read now).state.current = (s.answer k).result ∧ s.At (k + 1) (w.read now).state ∧
      (w.read now).state.interruptAt = w.interruptAt := by
  have hget : w.answers[0]? = s.readings.answers[k]? := by
    rw [h.answers, List.getElem?_drop, Nat.add_zero]
  have hdrop : s.readings.answers.drop (k + 1) = w.answers.tail := by
    rw [h.answers, List.tail_drop]
  rw [Readings.read, answer, ← hget]
  cases hw : w.answers with
  | nil => exact ⟨rfl, by rw [h.beyond]; rfl, ⟨by rw [hdrop, hw]; rfl, h.beyond⟩, rfl⟩
  | cons a rest => exact ⟨rfl, rfl, ⟨by rw [hdrop, hw]; rfl, h.beyond⟩, rfl⟩

/-! ### Before a reading -/

/-- The run waits for the end of the wait before reading `k`. -/
structure Poised (s : Polling) (k : Nat) (r : Poller.Run Readings) : Prop where
  stage : r.stage = .ongoing (.waiting (s.begins k))
  after : s.ends k ≤ r.course.now
  before : r.course.now ≤ s.begins k
  poller : r.poller = s.fed k
  world : s.At k r.course.world
  deeds : Entry.deeds r.course.trace = s.made k
  heeds : r.course.Heeds Readings.interruptAt s.strike
  /-- An interrupt that has come has come in this wait or in the reading before it. -/
  fresh : r.course.interrupted = true → ∃ t, s.strike = some t ∧ (∀ j < k, s.begins j ≤ t) ∧
    t ≤ s.begins k ∧ r.course.now = max (s.ends k) t
  early : s.interrupt = .before → k = 0 ∧ r.course.interrupted = true ∧ r.course.now = s.start

/-- The run waits for the answer to reading `k`. -/
structure Underway (s : Polling) (k : Nat) (r : Poller.Run Readings) : Prop where
  stage : r.stage = .ongoing (.reading (some (s.ends (k + 1))))
  before : r.course.now ≤ s.ends (k + 1)
  poller : r.poller = s.fed k
  world : s.At (k + 1) r.course.world
  result : r.course.world.current = (s.answer k).result
  deeds : Entry.deeds r.course.trace = s.began k :: s.made k
  heeds : r.course.Heeds Readings.interruptAt s.strike
  /-- The interrupt had not come when the reading began. -/
  late : ∀ t, s.strike = some t → s.begins k ≤ t
  not_early : s.interrupt ≠ .before

/-- The run is over after `k` readings. -/
structure Over (s : Polling) (k finish : Nat) (result : Poller.Result) (r : Poller.Run Readings) :
    Prop where
  stage : r.stage = .over result
  now : r.course.now = finish
  poller : r.poller = s.fed k
  deeds : Entry.deeds r.course.trace = s.made k

/-- A step of the run. -/
abbrev step (s : Polling) : Poller.Run Readings → Poller.Run Readings :=
  Poller.Run.step s.environment

/-- A run of a poller that has not seen the queue empty begins with a wait. -/
theorem poised_zero (hdone : s.poller.done = false) :
    s.Poised 0 (Poller.Run.enter s.poller s.opening) where
  stage := by
    rw [Poller.Run.enter, Poller.enter, hdone]
    rfl
  after := Nat.le_refl s.start
  before := s.ends_le_begins 0
  poller := rfl
  world := ⟨rfl, rfl⟩
  deeds := by
    show Entry.deeds s.opening.trace = []
    rw [opening, Course.opening]
    split <;> simp
  heeds := Course.heeds_opening s.start s.rejected rfl
  fresh hearly := by
    have hbefore : s.interrupt = .before := by
      revert hearly
      cases hi : s.interrupt <;>
        simp [Poller.Run.enter, opening, Course.opening, Interrupt.isEarly, hi]
    refine ⟨s.start, by rw [strike, hbefore]; rfl, fun j hj => absurd hj (Nat.not_lt_zero j),
      s.ends_le_begins 0, (Nat.max_self s.start).symm⟩
  early hbefore := by
    refine ⟨rfl, ?_, rfl⟩
    show s.interrupt.isEarly = true
    rw [hbefore]
    rfl

theorem Poised.not_early (h : s.Poised k r) (hi : r.course.interrupted = false) :
    s.interrupt ≠ .before := by
  intro hearly
  exact Bool.false_ne_true (hi.symm.trans (h.early hearly).2.1)

/-- A reading that begins at the end of its wait is under way. -/
theorem Poised.begin (h : s.Poised k r) (hw : s.begins k ≤ r.course.now)
    (hlate : ∀ t, s.strike = some t → s.begins k ≤ t) (hearly : s.interrupt ≠ .before) :
    s.Underway k { r with
      course := (r.course.begin s.environment .depth).1
      stage := .ongoing (.reading (r.course.begin s.environment .depth).2) } := by
  have hnow : r.course.now = s.begins k := Nat.le_antisymm h.before hw
  obtain ⟨hvalue, hcurrent, hworld, hinterrupt⟩ := h.world.read r.course.now
  have hends : s.ends (k + 1) = r.course.now + (s.answer k).delay := by
    rw [hnow]
    rfl
  have hbegin : (r.course.begin s.environment .depth).2 = some (s.ends (k + 1)) :=
    hvalue.trans (congrArg some hends.symm)
  have heffect : (r.course.begin s.environment .depth).1
      = (r.course.note (.began .depth)).absorb (r.course.world.read r.course.now) := rfl
  have hplain : (r.course.world.read r.course.now).interrupts = false ∧
      (r.course.world.read r.course.now).notices = [] := by
    rw [Readings.read]
    split
    · exact ⟨rfl, rfl⟩
    · exact ⟨rfl, rfl⟩
  rw [hbegin, heffect]
  constructor
  case stage => rfl
  case before => simpa [hnow] using s.begins_le_ends k
  case poller => exact h.poller
  case world => simpa using hworld
  case result => simpa using hcurrent
  case deeds =>
    rw [Course.deeds_absorb _ hplain.2, Course.note_trace, Entry.deeds_cons (by simp), h.deeds,
      hnow]
    rfl
  case heeds =>
    constructor
    · intro hi
      simpa [hinterrupt] using h.heeds.pending (by simpa [hplain.1] using hi)
    · intro hi
      simpa [hinterrupt] using h.heeds.passed (by simpa [hplain.1] using hi)
  case late => exact hlate
  case not_early => exact hearly

/-- Where the end of the wait or the interrupt has come, one step is enough. -/
theorem Poised.concludes (h : s.Poised k r) (hbefore : ∀ j < k, s.Continues j)
    (hpos : 0 < s.poller.interval.millisCeil ∨ s.strike = none)
    (hend : r.course.interrupted = true ∨ s.begins k ≤ r.course.now) :
    s.Underway k (s.step r) ∨
      ∃ finish result, s.Stops k finish result ∧ s.Over k finish result (s.step r) := by
  by_cases hi : r.course.interrupted = true
  · obtain ⟨t, ht, hbegun, hbegins, hnow⟩ := h.fresh hi
    have hpos : 0 < s.poller.interval.millisCeil := hpos.resolve_right (by simp [ht])
    obtain ⟨c, hr, hstep⟩ := Poller.Run.step_of_interrupted (E := s.environment) h.stage hi
    obtain rfl := eq_of_raced hr
    rcases hstep with hstep | ⟨hw, hstep⟩
    · have hover : s.Over k r.course.now (.ok .interrupted) (s.step r) := by
        rw [step, hstep]
        exact ⟨rfl, rfl, h.poller, h.deeds⟩
      by_cases hearly : s.interrupt = .before
      · obtain ⟨rfl, -, hstart⟩ := h.early hearly
        exact .inr ⟨_, _, .early hearly, hstart ▸ hover⟩
      · exact .inr ⟨_, _, .interrupted hearly hbefore ht hbegun hbegins, hnow ▸ hover⟩
    · -- the interrupt comes when the wait ends, and is looked at too late
      have hlt : s.ends k < s.begins k := Nat.lt_add_of_pos_right hpos
      refine .inl ?_
      rw [step, hstep]
      refine h.begin hw (fun u hu => ?_) (fun hearly => ?_)
      · obtain rfl := Option.some.inj (ht.symm.trans hu)
        omega
      · obtain ⟨rfl, -, hstart⟩ := h.early hearly
        have : s.ends 0 = s.start := rfl
        omega
  · have hw := hend.resolve_left hi
    simp only [Bool.not_eq_true] at hi
    refine .inl ?_
    rw [step, Poller.Run.step_of_elapsed h.stage hi hw]
    refine h.begin hw (fun t ht => ?_) (h.not_early hi)
    exact Nat.le_trans hw ((h.heeds.pending hi).2 t ht)

/-- The wait before a reading goes on to its end or to the interrupt. -/
theorem Poised.advance (h : s.Poised k r) (hi : r.course.interrupted = false)
    (hw : r.course.now < s.begins k) :
    s.Poised k (s.step r) ∧
      ((s.step r).course.interrupted = true ∨ s.begins k ≤ (s.step r).course.now) := by
  have hstep : s.step r = _ := Poller.Run.step_of_waiting h.stage hi hw
  rcases h.heeds.advance interrupts hi (fun v hv => Option.some.inj hv ▸ h.before) nofun with
    ⟨t, ht, hle, hnow, hc⟩ | ⟨v, hv, hlate, hc⟩ | ⟨hnone, -⟩
  · rw [hstep, hc]
    have hbegins := hle _ rfl
    have hends : s.ends k ≤ t := Nat.le_trans h.after hnow
    refine ⟨⟨h.stage, hends, hbegins, h.poller, ⟨h.world.answers, h.world.beyond⟩, ?_,
      .struck ht rfl, fun _ => ⟨t, ht, fun j hj => ?_, hbegins, ?_⟩,
      fun hearly => absurd hearly (h.not_early hi)⟩, .inl rfl⟩
    · exact (Entry.deeds_interrupted t _).trans h.deeds
    · exact Nat.le_trans (begins_le_ends_of_lt hj) hends
    · exact (Nat.max_eq_right hends).symm
  · have hv : s.begins k = v := Option.some.inj hv
    have hno : ∀ {p : Prop}, r.course.interrupted = true → p := by
      intro p hover
      exact absurd (hi.symm.trans hover) Bool.false_ne_true
    rw [hstep, hc]
    exact ⟨⟨h.stage, hv ▸ s.ends_le_begins k, Nat.le_of_eq hv.symm, h.poller, h.world, h.deeds,
      ⟨fun _ => ⟨(h.heeds.pending hi).1, hlate⟩, fun hover => hno hover⟩, fun hover => hno hover,
      fun hearly => absurd hearly (h.not_early hi)⟩, .inr (Nat.le_of_eq hv)⟩
  · cases hnone

/-- **A wait leads to its reading, or to the end of the run at the interrupt.** -/
theorem Poised.leads (h : s.Poised k r) (hbefore : ∀ j < k, s.Continues j)
    (hpos : 0 < s.poller.interval.millisCeil ∨ s.strike = none) :
    ∃ r', Leads s.step r r' ∧ (s.Underway k r' ∨
      ∃ finish result, s.Stops k finish result ∧ s.Over k finish result r') := by
  by_cases hend : r.course.interrupted = true ∨ s.begins k ≤ r.course.now
  · exact ⟨_, .single rfl, h.concludes hbefore hpos hend⟩
  · obtain ⟨hi, hw⟩ := not_or.mp hend
    obtain ⟨h', hend'⟩ := h.advance (by simpa using hi) (by omega)
    exact ⟨_, .head rfl (.single rfl), h'.concludes hbefore hpos hend'⟩

/-! ### During a reading -/

/-- The time of a reading goes on to its answer, or first to the interrupt. -/
theorem Underway.advance (h : s.Underway k r) (hw : r.course.now < s.ends (k + 1)) :
    s.Underway k (s.step r) ∧ (s.ends (k + 1) ≤ (s.step r).course.now ∨
      (r.course.interrupted = false ∧ (s.step r).course.interrupted = true)) := by
  have hreached : reached (some (s.ends (k + 1))) r.course.now = false := by
    simpa [reached] using hw
  have hstep : s.step r = _ := Poller.Run.step_of_unanswered h.stage hreached
  -- the clock reaches the answer, and nothing else changes
  have hclock : ∀ v, s.ends (k + 1) = v → (r.course.interrupted = false →
      ∀ t, s.strike = some t → v ≤ t) →
      s.Underway k { r with course := { r.course with now := v } } := by
    intro v hv hlate
    refine ⟨h.stage, Nat.le_of_eq hv.symm, h.poller, h.world, h.result, h.deeds, ⟨?_, ?_⟩, h.late,
      h.not_early⟩
    · exact fun hi => ⟨(h.heeds.pending hi).1, hlate hi⟩
    · intro hi
      obtain ⟨hnone, t, ht, hle⟩ := h.heeds.passed hi
      refine ⟨hnone, t, ht, Nat.le_trans hle ?_⟩
      exact Nat.le_trans h.before (Nat.le_of_eq hv)
  by_cases hi : r.course.interrupted = true
  · rw [hstep, h.heeds.advance_interrupted interrupts hi h.before]
    exact ⟨hclock _ rfl fun hnot => absurd (hnot.symm.trans hi) Bool.false_ne_true,
      .inl (Nat.le_refl _)⟩
  · simp only [Bool.not_eq_true] at hi
    rcases h.heeds.advance interrupts hi (fun v hv => Option.some.inj hv ▸ h.before)
        (fun _ hholds => absurd hholds Bool.false_ne_true) with
      ⟨t, ht, hle, hnow, hc⟩ | ⟨v, hv, hlate, hc⟩ | ⟨hnone, -⟩
    · rw [hstep, hc]
      exact ⟨⟨h.stage, hle _ rfl, h.poller, ⟨h.world.answers, h.world.beyond⟩, h.result,
        (Entry.deeds_interrupted t _).trans h.deeds, .struck ht rfl, h.late, h.not_early⟩,
        .inr ⟨hi, rfl⟩⟩
    · have hv : s.ends (k + 1) = v := Option.some.inj hv
      rw [hstep, hc]
      exact ⟨hclock v hv fun _ => hlate, .inl (Nat.le_of_eq hv)⟩
    · cases hnone

/-- The answer to a reading comes with nothing else. -/
theorem finish_eq (c : Course Readings) :
    c.finish s.environment .depth
      = (c.note (Course.answer .depth c.world.current), c.world.current) := by
  rw [Course.finish_eq]
  simp [Course.absorb_eq, environment, Readings.environment]

/-- What a reading comes to: the end of the run, or the next wait. -/
def Concludes (s : Polling) (k : Nat) (r : Poller.Run Readings) : Prop :=
  (∃ finish result, s.Stops (k + 1) finish result ∧ s.Over (k + 1) finish result r) ∨
    (s.Continues k ∧ s.Poised (k + 1) r)

/-- The answer to a reading ends the run, or leads to the next wait. -/
theorem Underway.concludes (h : s.Underway k r) (hbefore : ∀ j < k, s.Continues j)
    (hw : s.ends (k + 1) ≤ r.course.now) : s.Concludes k (s.step r) := by
  have hnow : r.course.now = s.ends (k + 1) := Nat.le_antisymm h.before hw
  have hreached : reached (some (s.ends (k + 1))) r.course.now = true := by
    simpa [reached] using hw
  have hfinish := finish_eq (s := s) r.course
  cases hresult : (s.answer k).result with
  | error cause =>
    rw [h.result, hresult] at hfinish
    rw [step, Poller.Run.step_of_error h.stage hreached hfinish]
    refine .inl ⟨_, _, .failed h.not_early hbefore h.late hresult, rfl, hnow, ?_, ?_⟩
    · rw [fed, hresult]
      exact h.poller
    · simp [made, answered, hresult, Course.answer, Entry.deeds_cons, h.deeds, hnow]
  | ok count =>
    rw [h.result, hresult] at hfinish
    rw [step, Poller.Run.step_of_ok h.stage hreached hfinish, h.poller, ← fed_succ hresult]
    have hdone : (s.fed (k + 1)).done = (count == 0) := by
      rw [fed_succ hresult]
      rfl
    have hdeeds : Entry.deeds ((r.course.note (Course.answer .depth (.ok count))).tell
        (if (s.fed (k + 1)).done then .emptied (s.fed (k + 1)).polls else .left count)).trace
          = s.made (k + 1) := by
      rw [hdone]
      simp [made, answered, hresult, Course.answer, Entry.deeds_cons, h.deeds, hnow]
    generalize (if (s.fed (k + 1)).done then Notice.emptied (s.fed (k + 1)).polls
      else .left count) = line at hdeeds ⊢
    by_cases hzero : count = 0
    · subst hzero
      refine .inl ⟨_, _, .drained h.not_early hbefore h.late hresult, ?_, hnow, rfl, hdeeds⟩
      simp [Poller.enter, hdone]
    · refine .inr ⟨⟨count, hresult, hzero⟩, ?_⟩
      constructor
      case stage => simp [Poller.enter, hdone, hzero, Poller.wait, hnow, interval_fed, begins]
      case after => simpa using hw
      case before => exact Nat.le_trans h.before (s.ends_le_begins (k + 1))
      case poller => rfl
      case world => exact h.world
      case deeds => exact hdeeds
      case heeds => exact ⟨h.heeds.pending, h.heeds.passed⟩
      case fresh =>
        intro hi
        obtain ⟨-, t, ht, hle⟩ := h.heeds.passed hi
        have hends : t ≤ s.ends (k + 1) := Nat.le_trans hle h.before
        refine ⟨t, ht, fun j hj => ?_, Nat.le_trans hends (s.ends_le_begins (k + 1)), ?_⟩
        · exact Nat.le_trans (begins_mono (Nat.le_of_lt_succ hj)) (h.late t ht)
        · exact hnow.trans (Nat.max_eq_left hends).symm
      case early => exact fun hearly => absurd hearly h.not_early

/-- **A reading is waited for to its end**, whether or not the interrupt falls into it. -/
theorem Underway.leads (h : s.Underway k r) (hbefore : ∀ j < k, s.Continues j) :
    ∃ r', Leads s.step r r' ∧ s.Concludes k r' := by
  have hlast : ∀ r, s.Underway k r → (s.ends (k + 1) ≤ r.course.now ∨ r.course.interrupted = true) →
      ∃ r', Leads s.step r r' ∧ s.Concludes k r' := by
    intro r h hend
    by_cases hw : s.ends (k + 1) ≤ r.course.now
    · exact ⟨_, .single rfl, h.concludes hbefore hw⟩
    · -- the interrupt is over, so the clock goes on to the answer
      obtain ⟨h', hw' | ⟨hnot, -⟩⟩ := h.advance (Nat.lt_of_not_le hw)
      · exact ⟨_, .head rfl (.single rfl), h'.concludes hbefore hw'⟩
      · rw [hend.resolve_left hw] at hnot
        cases hnot
  by_cases hw : s.ends (k + 1) ≤ r.course.now
  · exact hlast r h (.inl hw)
  · obtain ⟨h', hend⟩ := h.advance (Nat.lt_of_not_le hw)
    obtain ⟨r', hleads, hr'⟩ := hlast _ h' (hend.imp_right And.right)
    exact ⟨r', .head rfl hleads, hr'⟩

/-! ### The whole run -/

/-- From the wait before any reading on, the run comes to its end. -/
theorem Poised.stops (h : s.Poised k r) (hbefore : ∀ j < k, s.Continues j)
    (hpos : 0 < s.poller.interval.millisCeil ∨ s.strike = none) :
    ∃ r', Leads s.step r r' ∧ ∃ m finish result, s.Stops m finish result ∧
      s.Over m finish result r' := by
  -- every reading after which the run goes on uses up the list
  induction hlen : s.readings.answers.length - k using Nat.strongRecOn generalizing k r with
  | ind n ih =>
    obtain ⟨r', hleads, hunderway | ⟨finish, result, hstops, hover⟩⟩ := h.leads hbefore hpos
    · obtain ⟨r'', hleads', ⟨finish, result, hstops, hover⟩ | ⟨hcontinues, hpoised⟩⟩ :=
        hunderway.leads hbefore
      · exact ⟨r'', hleads.trans hleads', k + 1, finish, result, hstops, hover⟩
      · have hlt := lt_length_of_continues hcontinues
        have hbefore' : ∀ j < k + 1, s.Continues j := by
          intro j hj
          by_cases hjk : j = k
          · exact hjk ▸ hcontinues
          · exact hbefore j (by omega)
        obtain ⟨t, hleads'', hstops⟩ := ih _ (by omega) hpoised hbefore' rfl
        exact ⟨t, (hleads.trans hleads').trans hleads'', hstops⟩
    · exact ⟨r', hleads, k, finish, result, hstops, hover⟩

theorem exists_over (s : Polling) (hdone : s.poller.done = false)
    (hpos : 0 < s.poller.interval.millisCeil ∨ s.strike = none) :
    ∃ k finish result, s.Stops k finish result ∧ ∃ n, s.Over k finish result (s.run n) := by
  obtain ⟨r', ⟨n, rfl⟩, k, finish, result, hstops, hover⟩ :=
    (poised_zero hdone).stops (fun j hj => absurd hj (Nat.not_lt_zero j)) hpos
  refine ⟨k, finish, result, hstops, n + 1, ?_⟩
  rw [run, Poller.Run.run_eq]
  exact hover

/-- **A run of the poller stops where its readings and the interrupt say.** Each reading begins one
interval after the one before it has ended. The run is over at the first reading that gives zero or
fails, unless the interrupt comes before the wait for that reading has ended: then it is over at the
interrupt, or at the end of the reading into which it falls, whose count is not lost. Nothing is in
its trace but the readings up to there. There is no choice in this unless the interrupt comes just
when a reading begins. -/
theorem run_stops (s : Polling) (hdone : s.poller.done = false)
    (hinterval : s.poller.interval.isZero = false) :
    ∃ k finish result, s.Stops k finish result ∧
      (∃ n, (s.run n).stage = .over result ∧ (s.run n).course.now = finish ∧
        (s.run n).poller = s.fed k ∧ Entry.deeds (s.run n).course.trace = s.made k) ∧
      (s.Apart → ∀ k' finish' result', s.Stops k' finish' result' →
        k = k' ∧ finish = finish' ∧ result = result') := by
  obtain ⟨k, finish, result, hstops, n, hover⟩ :=
    s.exists_over hdone (.inl (Duration.millisCeil_pos hinterval))
  exact ⟨k, finish, result, hstops, ⟨n, hover.stage, hover.now, hover.poller, hover.deeds⟩,
    fun hapart _ _ _ hstops' => hstops.unique hapart hstops'⟩

end Polling

/-- An interrupt that falls into the first of two readings. -/
def Polling.overlapped : Polling where
  poller := .create (.seconds 10)
  start := 20
  readings := { answers := [⟨50, .ok 3⟩, ⟨0, .ok 0⟩], beyond := .transport .missingHeartbeat }
  interrupt := .after 10020

/-- The count is kept, and the run is over when the reading is. -/
theorem Polling.run_stops_overlapped :
    let s := Polling.overlapped
    s.poller.done = false ∧ s.poller.interval.isZero = false ∧
    (∃ k finish result, s.Stops k finish result ∧
      (∃ n, (s.run n).stage = .over result ∧ (s.run n).course.now = finish ∧
        (s.run n).poller = s.fed k ∧ Entry.deeds (s.run n).course.trace = s.made k) ∧
      (s.Apart → ∀ k' finish' result', s.Stops k' finish' result' →
        k = k' ∧ finish = finish' ∧ result = result')) ∧
    (s.run 6).stage = .over (.ok .interrupted) ∧ (s.run 6).course.now = 10070 ∧
    (s.run 6).poller.lastCount = some 3 :=
  ⟨rfl, rfl, Polling.run_stops Polling.overlapped rfl rfl, rfl, rfl, rfl⟩

end QueueDrain
