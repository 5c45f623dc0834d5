import Mathlib.Algebra.Order.Ring.Nat
import QueueDrain.Drain.Series
import QueueDrain.Proofs.Conservation
import QueueDrain.Proofs.Readings

/-!
# The reports of runs that follow one another

A drain may be run several times. The readings and the sessions of a run are counted afresh, and its
report gives those. The rejections are counted by the drain itself, over all of its runs, and the
report of a run gives that count. It is the count of the run alone for the first run, and as long as
no run before it rejected anything.

What surrounds a run may change from run to run: messages arrive and time passes between two runs,
and the broker may behave in another way.

## Main definitions

* `Drain.Turn`, `Drain.Turn.final` — a run in a series, and the state that it comes to
* `Drain.Series.through` — a series after several runs
* `Drain.Series.Counts` — the counter counts the rejections in the history

## Main results

* `Drain.Series.Counts.after`, `Drain.Series.Counts.through` — the counter counts on
* `Drain.series_report` — what the report of a run counts
-/

namespace QueueDrain

open Entry (openings readings rejections)

namespace Drain

variable {ω : Type} {plan : Plan}

/-- A run in a series. -/
structure Turn (ω : Type) where
  environment : Environment ω
  /-- How long after the end of the run before it this one begins. -/
  pause : Nat := 0
  /-- What has become of the surroundings by then. -/
  meanwhile : ω → ω := id
  /-- Whether the operator has interrupted it by then. -/
  interrupted : Bool := false
  /-- How many steps are made. A run that they do not see through has no report. -/
  steps : Nat

/-- The state that a run comes to. -/
def Turn.final (plan : Plan) (t : Turn ω) (s : Series ω) : State ω :=
  let s := { s with now := s.now + t.pause, world := t.meanwhile s.world }
  run t.environment plan t.steps (s.start t.environment plan t.interrupted)

namespace Series

/-- A series after several runs. -/
def through (plan : Plan) (turns : List (Turn ω)) (s : Series ω) : Series ω :=
  turns.foldl (fun s t => s.after (t.final plan s)) s

/-- The counter counts the rejections of all runs. -/
def Counts (s : Series ω) : Prop := s.rejected = UInt64.ofNat (rejections s.history)

variable {s : Series ω}

theorem rejections_after (s : Series ω) (final : State ω) :
    rejections (s.after final).history
      = rejections s.history + rejections final.course.trace := by
  rw [after, Entry.rejections_append, Course.history]
  exact congrArg _ (List.countP_reverse ..)

/-- A run counts on from where the runs before it have come to. -/
theorem Counts.final (h : s.Counts) (t : Turn ω) :
    (t.final plan s).course.rejected
      = UInt64.ofNat (rejections s.history + rejections (t.final plan s).course.trace) := by
  have hrun := run_counts t.environment plan (s.now + t.pause) (t.meanwhile s.world) s.rejected
    t.interrupted t.steps
  rw [UInt64.ofNat_add, ← h]
  exact hrun

theorem Counts.after (h : s.Counts) (t : Turn ω) : (s.after (t.final plan s)).Counts := by
  rw [Counts, rejections_after]
  exact h.final t

/-- **The counter of a series counts the rejections of all its runs.** -/
theorem Counts.through (h : s.Counts) (turns : List (Turn ω)) : (s.through plan turns).Counts := by
  induction turns generalizing s with
  | nil => exact h
  | cons t rest ih => exact ih (h.after t)

end Series

/-- The sessions after the first are counted afresh in each run. -/
theorem Turn.reconnects_eq {t : Turn ω} {s : Series ω} {summary : Summary}
    (hresult : (t.final plan s).result? = some (.ok summary)) :
    summary.reconnects = (openings (t.final plan s).course.trace - 1) % 2 ^ 32 := by
  have hfollows : (t.final plan s).Follows plan (Conduct.of (t.final plan s).course.trace) :=
    run_follows t.environment plan (s.now + t.pause) (t.meanwhile s.world) s.rejected t.interrupted
      t.steps
  have hphase := hfollows.phase
  rw [phase_of_result? hresult] at hphase
  rw [hphase.2.2, sessions_eq_openings, UInt32.toNat_ofNat']

/-- **What the report of a run counts.** After any runs of a drain, the report of the next one
counts the readings and the later sessions of that run alone, but the rejections of all runs so far.
As long as that number fits its word, it is the number of the rejections of the run alone exactly if
no run before it rejected anything. -/
theorem series_report (plan : Plan) (now : Nat) (world : ω) (turns : List (Turn ω)) (t : Turn ω)
    (summary : Summary)
    (hresult : (t.final plan (Series.through plan turns { now, world })).result?
      = some (.ok summary)) :
    let before := Series.through plan turns { now, world }
    let trace := (t.final plan before).course.trace
    summary.polls = (readings trace).length % 2 ^ 64 ∧
    summary.reconnects = (openings trace - 1) % 2 ^ 32 ∧
    summary.rejected = (rejections before.history + rejections trace) % 2 ^ 64 ∧
    (rejections before.history + rejections trace < 2 ^ 64 →
      (summary.rejected = rejections trace ↔ rejections before.history = 0)) := by
  intro before trace
  have hfresh : Series.Counts ({ now, world } : Series ω) := rfl
  have hcounts : before.Counts := hfresh.through turns
  have hreports := run_reports t.environment plan (before.now + t.pause)
    (t.meanwhile before.world) before.rejected t.interrupted t.steps summary hresult
  have htallies := run_tallies t.environment plan (before.now + t.pause)
    (t.meanwhile before.world) before.rejected t.interrupted t.steps
  have hrejected : summary.rejected = (rejections before.history + rejections trace) % 2 ^ 64 := by
    calc summary.rejected
        = (t.final plan before).course.rejected.toNat := by rw [hreports]; rfl
      _ = (rejections before.history + rejections trace) % 2 ^ 64 := by
        rw [hcounts.final t]
        rfl
  refine ⟨?_, Turn.reconnects_eq hresult, hrejected, fun hlt => ?_⟩
  · rw [hreports]
    exact htallies.polls_eq
  · rw [hrejected, Nat.mod_eq_of_lt hlt]
    omega

end Drain

/-- A queue of one message. -/
def Scenario.lone : Scenario where
  messages := 1

/-- A run against the broker of a script; some messages arrive before it. -/
def Scenario.turn (script : Scenario) (arriving : Nat) : Drain.Turn State where
  environment := script.environment
  meanwhile w := { w with ready := w.ready + arriving, arrived := w.arrived + arriving }
  steps := 20

/-- The one message has been rejected. -/
def Scenario.lone.emptied : Drain.Series State :=
  .through .sample [lone.turn 0] { world := lone.opening }

/-- Two messages arrive between two runs. The second run rejects these and reports three. -/
theorem Drain.series_report_refilled :
    let final := (Scenario.lone.turn 2).final .sample Scenario.lone.emptied
    final.result? = some (.ok
      { queue := "jobs", endpoint := "amqp://localhost:5672", outcome := .drained, rejected := 3,
        polls := 1, reconnects := 0, lastMessageCount := some 0 }) ∧
    rejections Scenario.lone.emptied.history = 1 ∧ rejections final.course.trace = 2 ∧
    1 = (readings final.course.trace).length % 2 ^ 64 ∧
    0 = (openings final.course.trace - 1) % 2 ^ 32 ∧
    3 = (rejections Scenario.lone.emptied.history + rejections final.course.trace) % 2 ^ 64 := by
  have hresult : ((Scenario.lone.turn 2).final .sample Scenario.lone.emptied).result? = some (.ok
      { queue := "jobs", endpoint := "amqp://localhost:5672", outcome := .drained, rejected := 3,
        polls := 1, reconnects := 0, lastMessageCount := some 0 }) := rfl
  obtain ⟨hpolls, hreconnects, hrejected, -⟩ :=
    Drain.series_report .sample 0 Scenario.lone.opening [Scenario.lone.turn 0]
      (Scenario.lone.turn 2) _ hresult
  exact ⟨hresult, rfl, rfl, hpolls, hreconnects, hrejected⟩

/-- A run that finds the queue empty reports the rejection of the run before it. -/
theorem Drain.emptied_report :
    let final := (Scenario.lone.turn 0).final .sample Scenario.lone.emptied
    ∃ summary, final.result? = some (.ok summary) ∧
      summary.polls = (readings final.course.trace).length ∧
      summary.rejected = 1 ∧ rejections final.course.trace = 0 :=
  ⟨_, rfl, rfl, rfl, rfl⟩

end QueueDrain
