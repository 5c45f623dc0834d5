import Mathlib.Algebra.Order.Ring.Nat
import QueueDrain.Poller.Usage
import QueueDrain.Proofs.Polling
import QueueDrain.Proofs.Readings

/-!
# One poller, used again and again

A poller is run, asked for single readings and left alone in any order, against any environments,
interrupted or not, and every use may be given up at any point. What it remembers is what the
readings that were answered with a count make of a new poller, one after the other; a reading that
fails or is given up leaves no trace in it. So it ends as a poller does that is run once, without an
interrupt, against a list of just those counts.

## Main definitions

* `Poller.feed`, `Poller.Accepts` — a poller that records counts, none of them after a zero
* `Poller.Use`, `Poller.Usage.perform` — one use of a poller, and the poller after it
* `Poller.Usage.Grows` — what a use adds to the history and makes of the poller

## Main results

* `Poller.Run.run_feeds`, `Poller.readOnce_feeds` — runs and single readings record what they count
* `Poller.exists_uninterrupted` — a list of counts makes the same of a single run
* `Poller.Usage.resumes` — what a poller remembers after any uses
-/

namespace QueueDrain

variable {ω : Type} {E : Environment ω}

open Entry (readings requests)

/-- The counts that have been read in a course, first to last. -/
def Course.counts (c : Course ω) : List Nat := readings c.history

namespace Poller

/-! ### Counts that a poller records -/

/-- A poller that records counts, one after the other. -/
def feed (p : Poller) (counts : List Nat) : Poller := counts.foldl record p

/-- No count comes to a poller that has seen the queue empty. -/
def Accepts (p : Poller) : List Nat → Prop
  | [] => True
  | count :: rest => p.done = false ∧ (p.record count).Accepts rest

variable {p : Poller}

@[simp] theorem feed_nil (p : Poller) : p.feed [] = p := rfl

@[simp] theorem feed_append (p : Poller) (xs ys : List Nat) :
    p.feed (xs ++ ys) = (p.feed xs).feed ys := List.foldl_append

theorem accepts_append {xs ys : List Nat} :
    p.Accepts (xs ++ ys) ↔ p.Accepts xs ∧ (p.feed xs).Accepts ys := by
  induction xs generalizing p with
  | nil => exact (and_iff_right trivial).symm
  | cons x xs ih => exact (and_congr_right' ih).trans and_assoc.symm

/-- A poller that has seen the queue empty takes no count any more. -/
theorem Accepts.eq_nil {counts : List Nat} (h : p.Accepts counts) (hdone : p.done = true) :
    counts = [] := by
  cases counts with
  | nil => rfl
  | cons count rest => exact absurd (h.1.symm.trans hdone) Bool.false_ne_true

theorem succeeded_feed (p : Poller) (counts : List Nat) :
    (p.feed counts).succeeded = p.succeeded + UInt64.ofNat counts.length := by
  induction counts generalizing p with
  | nil => exact (UInt64.add_zero _).symm
  | cons count rest ih =>
    rw [feed, List.foldl_cons, ← feed, ih, List.length_cons, UInt64.ofNat_add]
    show p.succeeded + 1 + UInt64.ofNat rest.length = p.succeeded + (UInt64.ofNat rest.length + 1)
    ac_rfl

theorem polls_feed (interval : Duration) (counts : List Nat) :
    ((create interval).feed counts).polls = counts.length % 2 ^ 64 := by
  rw [polls, succeeded_feed]
  show ((0 : UInt64) + UInt64.ofNat counts.length).toNat = _
  rw [UInt64.zero_add, UInt64.toNat_ofNat']

theorem lastCount_feed (interval : Duration) (counts : List Nat) :
    ((create interval).feed counts).lastCount = counts.getLast? := by
  rcases List.eq_nil_or_concat counts with rfl | ⟨before, count, rfl⟩
  · rfl
  · simp [feed, record]

theorem done_feed (interval : Duration) (counts : List Nat) :
    ((create interval).feed counts).done = true ↔ counts.getLast? = some 0 := by
  rcases List.eq_nil_or_concat counts with rfl | ⟨before, count, rfl⟩
  · simp [create]
  · simp [feed, record]

/-! ### Runs and single readings -/

theorem counts_eq (c : Course ω) :
    c.counts = (c.proceedings.filterMap Event.reading?).reverse := by
  rw [Course.counts, Course.history, readings, List.filterMap_reverse, ← readings,
    Entry.readings_eq]
  rfl

/-- Where nothing has happened but asides, nothing has been read. -/
theorem counts_of_proceedings {c c' : Course ω} (h : c'.proceedings = c.proceedings) :
    c'.counts = c.counts := by
  rw [counts_eq, counts_eq, h]

theorem counts_of_event {c c' : Course ω} {e : Event} (h : c'.proceedings = e :: c.proceedings) :
    c'.counts = c.counts ++ e.reading?.toList := by
  rw [counts_eq, counts_eq, h, List.filterMap_cons]
  cases e.reading? with
  | none => exact (List.append_nil _).symm
  | some count => exact List.reverse_cons

theorem done_of_enter {c : Course ω} {a : Activity} (h : p.enter c = .ongoing a) :
    p.done = false := by
  by_cases hdone : p.done = true
  · rw [enter, if_pos hdone] at h
    cases h
  · simpa using hdone

/-- A run has made of its poller what its readings make of it. -/
structure Run.Feeds (p : Poller) (r : Run ω) : Prop where
  poller : r.poller = p.feed r.course.counts
  accepts : p.Accepts r.course.counts
  ongoing : ∀ a, r.stage = .ongoing a → r.poller.done = false

/-- A run in which nothing more has been read. -/
theorem Run.Feeds.of_counts {r r' : Run ω} (h : Run.Feeds p r)
    (hcounts : r'.course.counts = r.course.counts) (hpoller : r'.poller = r.poller)
    (hongoing : ∀ a, r'.stage = .ongoing a → r'.poller.done = false) : Run.Feeds p r' where
  poller := by rw [hpoller, hcounts, h.poller]
  accepts := by
    rw [hcounts]
    exact h.accepts
  ongoing := hongoing

theorem Run.step_feeds {r : Run ω} (h : Run.Feeds p r) : Run.Feeds p (r.step E) := by
  match hs : r.stage with
  | .over result =>
    have hstep : r.step E = r := by
      rw [Run.step, hs]
    rwa [hstep]
  | .ongoing a =>
    cases hp : Poller.step E r.poller a r.course with
    | none =>
      rw [Run.step_of_none hs hp]
      exact h.of_counts (counts_of_proceedings (Course.proceedings_advance r.course [a.wake]))
        rfl h.ongoing
    | some next =>
      obtain ⟨c, p', stage⟩ := next
      rw [Run.step_of_some hs hp]
      have hdone := h.ongoing a hs
      rcases (step_move hp).proceedings with ⟨hc, rfl, rfl⟩ | ⟨hc, rfl, due, rfl⟩ |
        ⟨count, hc, rfl, rfl⟩ | ⟨cause, hc, rfl, rfl⟩
      · exact h.of_counts (counts_of_proceedings hc) rfl fun _ hstage => by cases hstage
      · exact h.of_counts ((counts_of_event hc).trans (List.append_nil _)) rfl fun _ _ => hdone
      · have hcounts : c.counts = r.course.counts ++ [count] := counts_of_event hc
        constructor
        case poller =>
          rw [hcounts, feed_append, ← h.poller]
          rfl
        case accepts =>
          rw [hcounts, accepts_append, ← h.poller]
          exact ⟨h.accepts, hdone, trivial⟩
        case ongoing => exact fun _ hstage => done_of_enter hstage
      · exact h.of_counts ((counts_of_event hc).trans (List.append_nil _)) rfl
          fun _ hstage => by cases hstage

/-- **A run records what it counts**, however far it gets. -/
theorem Run.run_feeds {r : Run ω} (h : Run.Feeds p r) (n : Nat) : Run.Feeds p (r.run E n) := by
  rw [Run.run_eq]
  induction n with
  | zero => exact h
  | succ n ih =>
    rw [Function.iterate_succ_apply']
    exact Run.step_feeds ih

theorem Run.enter_feeds (p : Poller) (now : Nat) (world : ω) (rejected : UInt64)
    (interrupted : Bool) : Run.Feeds p (Run.enter p (.opening now world rejected interrupted)) := by
  have hcounts : (Course.opening now world rejected interrupted).counts = [] := by
    rw [Course.counts, Course.history, Course.opening]
    split <;> rfl
  constructor
  case poller =>
    rw [Run.enter, hcounts]
    rfl
  case accepts =>
    rw [Run.enter, hcounts]
    trivial
  case ongoing => exact fun _ hstage => done_of_enter hstage

theorem proceedings_await {c c' : Course ω} {due : Option Nat} {fuel : Nat}
    (h : c.await E due fuel = some c') : c'.proceedings = c.proceedings := by
  induction fuel generalizing c with
  | zero => cases h
  | succ fuel ih =>
    rw [Course.await] at h
    split at h
    · cases h
      rfl
    · exact (ih h).trans (Course.proceedings_advance c [due])

/-- **A single reading is recorded if it is answered with a count**, and otherwise it leaves the
poller as it was. -/
theorem readOnce_feeds (p : Poller) {c : Course ω} (hcounts : c.counts = []) (fuel : Nat) :
    (readOnce E p c fuel).2.1 = p.feed (readOnce E p c fuel).1.counts ∧
      p.Accepts (readOnce E p c fuel).1.counts := by
  by_cases hdone : p.done = true
  · simp only [readOnce, hdone, if_true, hcounts]
    exact ⟨rfl, trivial⟩
  · have hbegin : (c.begin E .depth).1.counts = [] := by
      rw [counts_of_event (Course.proceedings_begin c .depth), hcounts]
      rfl
    simp only [readOnce, hdone, Bool.false_eq_true, if_false]
    cases ha : (c.begin E .depth).1.await E (c.begin E .depth).2 fuel with
    | none =>
      simp only [hbegin]
      exact ⟨rfl, trivial⟩
    | some c₁ =>
      have hcounts₁ := (counts_of_proceedings (proceedings_await ha)).trans hbegin
      rcases hf : c₁.finish E .depth with ⟨c₂, cause | count⟩
      · have hcounts₂ := counts_of_event (Course.proceedings_of_finish hf)
        rw [hcounts₁] at hcounts₂
        simp only [receive, hf, hcounts₂]
        exact ⟨rfl, trivial⟩
      · have hcounts₂ := counts_of_event (Course.proceedings_of_finish hf)
        rw [hcounts₁] at hcounts₂
        simp only [receive, hf, counts_of_proceedings (Course.proceedings_tell c₂ _), hcounts₂]
        exact ⟨rfl, by simpa using hdone, trivial⟩

/-! ### A single run against the same counts -/

/-- A run that nobody interrupts. -/
def uninterrupted (interval : Duration) (start : Nat) (answers : List Readings.Answer)
    (beyond : DrainError) : Polling where
  poller := create interval
  start := start
  readings := { answers, beyond }

section Uninterrupted

variable {interval : Duration} {start : Nat} {answers : List Readings.Answer} {beyond : DrainError}
variable {counts : List Nat} (hanswers : answers.map Readings.Answer.result = counts.map .ok)
include hanswers

theorem answer_uninterrupted (k : Nat) :
    ((uninterrupted interval start answers beyond).answer k).result
      = (counts[k]?.map Except.ok).getD (.error beyond) := by
  have hget : answers[k]?.map Readings.Answer.result = counts[k]?.map Except.ok := by
    rw [← List.getElem?_map, hanswers, List.getElem?_map]
  rw [← hget, Polling.answer]
  show ((answers[k]?).getD _).result = _
  cases answers[k]? <;> rfl

theorem fed_uninterrupted {k : Nat} (hk : k ≤ counts.length) :
    (uninterrupted interval start answers beyond).fed k
      = (create interval).feed (counts.take k) := by
  induction k with
  | zero => rfl
  | succ k ih =>
    have hget : counts[k]? = some counts[k] := List.getElem?_eq_getElem hk
    have hanswer : ((uninterrupted interval start answers beyond).answer k).result
        = .ok counts[k] := by
      rw [answer_uninterrupted hanswers, hget]
      rfl
    rw [Polling.fed_succ hanswer, ih (Nat.le_of_succ_le hk), List.take_add_one, hget, feed_append]
    rfl

/-- The last reading of a run that nobody interrupts is behind the counts, or is the last of them.
-/
theorem fed_of_ends (haccepts : (create interval).Accepts counts) {k : Nat} {result : Result}
    (hends : (uninterrupted interval start answers beyond).Ends k result)
    (hbefore : ∀ j < k, (uninterrupted interval start answers beyond).Continues j) :
    (uninterrupted interval start answers beyond).fed (k + 1) = (create interval).feed counts := by
  have hk : k ≤ counts.length := by
    refine Nat.le_of_not_lt fun hlt => ?_
    obtain ⟨count, hcount, -⟩ := hbefore _ hlt
    rw [answer_uninterrupted hanswers, List.getElem?_eq_none (Nat.le_refl _)] at hcount
    cases hcount
  have hanswer : ((uninterrupted interval start answers beyond).answer k).result
      = (counts[k]?.map Except.ok).getD (.error beyond) := answer_uninterrupted hanswers k
  cases hget : counts[k]? with
  | none =>
    rw [hget] at hanswer
    have hall : counts.take k = counts := List.take_of_length_le (List.getElem?_eq_none_iff.mp hget)
    rw [Polling.fed, hanswer]
    exact (fed_uninterrupted hanswers hk).trans (congrArg _ hall)
  | some count =>
    rw [hget] at hanswer
    obtain rfl : count = 0 := by
      refine Classical.not_not.mp fun hne => ?_
      exact hends.not_continues ⟨count, hanswer, hne⟩
    obtain ⟨hlt, hzero⟩ := List.getElem?_eq_some_iff.mp hget
    -- the zero is the last count
    have hrest : counts.drop (k + 1) = [] := by
      rw [← List.take_append_drop k counts, List.drop_eq_getElem_cons hlt, hzero,
        accepts_append] at haccepts
      exact haccepts.2.2.eq_nil rfl
    have hall : counts.take (k + 1) = counts :=
      List.take_of_length_le (List.drop_eq_nil_iff.mp hrest)
    rw [fed_uninterrupted hanswers hlt, hall]

/-- **A run that nobody interrupts records every count that may come.** -/
theorem exists_uninterrupted (haccepts : (create interval).Accepts counts) :
    ∃ n result, ((uninterrupted interval start answers beyond).run n).stage = .over result ∧
      ((uninterrupted interval start answers beyond).run n).poller
        = (create interval).feed counts := by
  obtain ⟨m, finish, result, hstops, n, hover⟩ :=
    (uninterrupted interval start answers beyond).exists_over rfl (.inr rfl)
  refine ⟨n, result, hover.stage, hover.poller.trans ?_⟩
  rcases hstops.ends_or nofun with ⟨k, rfl, -, hends, hbefore, -⟩ | ⟨-, -, t, ht, -⟩
  · exact fed_of_ends hanswers haccepts hends hbefore
  · cases ht

end Uninterrupted

/-! ### Uses, one after the other -/

/-- One use of a poller. Each comes with an environment of its own, and fuel that runs out gives it
up at the point that it has reached. -/
inductive Use (ω : Type) where
  /-- It is left alone for a while. -/
  | wait (millis : Nat)
  /-- A single reading. -/
  | readOnce (E : Environment ω) (fuel : Nat)
  /-- A run, already interrupted or not. -/
  | run (E : Environment ω) (interrupted : Bool) (fuel : Nat)

namespace Usage

/-- The poller after one more use. -/
def perform (u : Usage ω) : Use ω → Usage ω
  | .wait millis => u.wait millis
  | .readOnce E fuel => (u.readOnce E fuel).1
  | .run E interrupted fuel => (u.run E interrupted fuel).1

/-- The poller after several more uses. -/
def performAll (u : Usage ω) (uses : List (Use ω)) : Usage ω := uses.foldl perform u

/-- What a use adds to the history, and what it makes of the poller. -/
structure Grows (u u' : Usage ω) (new : List Entry) : Prop where
  history : u'.history = u.history ++ new
  poller : u'.poller = u.poller.feed (readings new)
  accepts : u.poller.Accepts (readings new)
  /-- A poller that has seen the queue empty asks for nothing. -/
  quiet : u.poller.done = true → requests new = []

variable {u : Usage ω}

theorem counts_course (u : Usage ω) (interrupted : Bool) : (u.course interrupted).counts = [] := by
  rw [Course.counts, Course.history, course, Course.opening]
  split <;> rfl

theorem requests_course (u : Usage ω) (interrupted : Bool) :
    requests (u.course interrupted).history = [] := by
  rw [Course.history, course, Course.opening]
  split <;> rfl

/-- A single reading of a poller that has seen the queue empty is over without having begun. -/
theorem readOnce_of_done (hdone : u.poller.done = true) (E : Environment ω) (fuel : Nat) :
    u.readOnce E fuel = (u.after (u.course false) u.poller, some (.ok 0)) := by
  simp only [readOnce, Poller.readOnce, hdone, if_true]

/-- So is a run. -/
theorem run_of_done (hdone : u.poller.done = true) (E : Environment ω) (interrupted : Bool)
    (fuel : Nat) :
    u.run E interrupted fuel
      = (u.after (u.course interrupted) u.poller, some (.ok .drained)) := by
  have henter : (Run.enter u.poller (u.course interrupted)).run E fuel
      = { course := u.course interrupted, poller := u.poller, stage := .over (.ok .drained) } := by
    rw [Run.enter, enter, if_pos hdone]
    cases fuel <;> rfl
  simp only [run, henter]

theorem grows_after_course (u : Usage ω) (interrupted : Bool) :
    Grows u (u.after (u.course interrupted) u.poller) (u.course interrupted).history := by
  have hcounts : readings (u.course interrupted).history = [] := u.counts_course interrupted
  refine ⟨rfl, ?_, ?_, fun _ => u.requests_course interrupted⟩
  · rw [hcounts]
    rfl
  · rw [hcounts]
    trivial

/-- **A use records what it counts.** -/
theorem perform_grows (u : Usage ω) (use : Use ω) : ∃ new, Grows u (u.perform use) new := by
  cases use with
  | wait millis => exact ⟨[], (List.append_nil _).symm, rfl, trivial, fun _ => rfl⟩
  | readOnce E fuel =>
    by_cases hdone : u.poller.done = true
    · rw [perform, readOnce_of_done hdone]
      exact ⟨_, u.grows_after_course false⟩
    · obtain ⟨hpoller, haccepts⟩ := readOnce_feeds (E := E) u.poller (u.counts_course false) fuel
      exact ⟨_, rfl, hpoller, haccepts, fun h => absurd h hdone⟩
  | run E interrupted fuel =>
    by_cases hdone : u.poller.done = true
    · rw [perform, run_of_done hdone]
      exact ⟨_, u.grows_after_course interrupted⟩
    · have hfeeds := Run.run_feeds (E := E)
        (Run.enter_feeds u.poller u.now u.world 0 interrupted) fuel
      exact ⟨_, rfl, hfeeds.poller, hfeeds.accepts, fun h => absurd h hdone⟩

/-- A poller that is what the readings in its history make of a new one. -/
def Recalls (interval : Duration) (u : Usage ω) : Prop :=
  u.poller = (create interval).feed (readings u.history) ∧
    (create interval).Accepts (readings u.history)

theorem Recalls.perform {interval : Duration} (h : u.Recalls interval) (use : Use ω) :
    (u.perform use).Recalls interval := by
  obtain ⟨hpoller, haccepts⟩ := h
  obtain ⟨new, hgrows⟩ := u.perform_grows use
  have hreadings : readings (u.history ++ new) = readings u.history ++ readings new :=
    List.filterMap_append
  rw [Recalls, hgrows.history, hreadings, feed_append, accepts_append, ← hpoller]
  exact ⟨hgrows.poller, haccepts, hgrows.accepts⟩

theorem Recalls.performAll {interval : Duration} (h : u.Recalls interval) (uses : List (Use ω)) :
    (u.performAll uses).Recalls interval := by
  induction uses generalizing u with
  | nil => exact h
  | cons use rest ih => exact ih (h.perform use)

/-- **What a poller remembers after any uses.** It has counted the readings that were answered with
a count, in a word of 64 bits, and holds the last of these, and it has seen the queue empty exactly
if that is zero. Every use records what it counts and changes nothing else. Once the queue was seen
empty nothing is asked any more, and every run and every single reading says so. A run that nobody
interrupts makes the same of a new poller, against any list of just these counts. -/
theorem resumes (interval : Duration) (now : Nat) (world : ω) (uses : List (Use ω)) :
    let u := performAll { now, world, poller := create interval } uses
    let counts := readings u.history
    u.poller.polls = counts.length % 2 ^ 64 ∧ u.poller.lastCount = counts.getLast? ∧
    (u.poller.done = true ↔ u.poller.lastCount = some 0) ∧
    (∀ use, ∃ new, (u.perform use).history = u.history ++ new ∧
      (u.perform use).poller = u.poller.feed (readings new) ∧
      (u.poller.done = true → requests new = [] ∧ (u.perform use).poller = u.poller)) ∧
    (u.poller.done = true → ∀ E fuel, (u.readOnce E fuel).2 = some (.ok 0) ∧
      ∀ interrupted, (u.run E interrupted fuel).2 = some (.ok .drained)) ∧
    ∀ start answers beyond, answers.map Readings.Answer.result = counts.map .ok →
      ∃ n result, ((uninterrupted interval start answers beyond).run n).stage = .over result ∧
        ((uninterrupted interval start answers beyond).run n).poller = u.poller := by
  intro u counts
  have hnew : Recalls interval { now, world, poller := create interval } := ⟨rfl, trivial⟩
  obtain ⟨hpoller, haccepts⟩ := hnew.performAll uses
  have hlast : u.poller.lastCount = counts.getLast? := by
    rw [hpoller, lastCount_feed]
  refine ⟨?_, hlast, ?_, fun use => ?_, fun hdone E fuel => ⟨?_, fun interrupted => ?_⟩,
    fun start answers beyond hanswers => ?_⟩
  · rw [hpoller, polls_feed]
  · rw [hlast, hpoller, done_feed]
  · obtain ⟨new, hgrows⟩ := u.perform_grows use
    refine ⟨new, hgrows.history, hgrows.poller, fun hdone => ⟨hgrows.quiet hdone, ?_⟩⟩
    rw [hgrows.poller, hgrows.accepts.eq_nil hdone]
    rfl
  · rw [readOnce_of_done hdone]
  · rw [run_of_done hdone]
  · rw [hpoller]
    exact exists_uninterrupted hanswers haccepts

end Usage

end Poller

end QueueDrain
