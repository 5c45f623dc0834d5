import Mathlib.Algebra.Order.Ring.Nat
import QueueDrain.Proofs.Broker
import QueueDrain.Proofs.Readings

/-!
# The outcome of a run

The outcome is decided when the poller is over, or when an interrupt is found where there is no
session to poll. What is left to do then, the cancellation, the rejections in flight and the close,
may go wrong in any way: the outcome stays what it is, and the run does not fail. And the outcome
tells what has happened: an empty queue was read if and only if the run drained it, and that reading
was the last thing asked of the broker but for the end of the session.

## Main definitions

* `Drain.Phase.outcome?` — the outcome that a phase has decided on
* `Event.concern?` — the request that an event begins or answers

## Main results

* `Orderly.after_zero` — what may follow a reading of zero
* `Drain.Move.decided`, `Drain.run_decided` — an outcome that is decided stays
* `Drain.run_outcome` — what the outcome and the number of polls tell
-/

namespace QueueDrain

/-- The request that an event begins or answers. -/
def Event.concern? : Event → Option Request
  | .began r | .answered r _ | .failed r _ => some r
  | _ => none

theorem Event.reading?_eq_some {e : Event} {count : Nat} :
    e.reading? = some count ↔ e = .answered .depth count := by
  cases e with
  | answered r n => cases r <;> simp [reading?]
  | _ => simp [reading?]

theorem Entry.mem_readings {trace : List Entry} {count : Nat} :
    count ∈ readings trace ↔ ∃ e ∈ trace, e.event = .answered .depth count := by
  simp [readings, Event.reading?_eq_some]

open Entry (readings mem_readings)

/-! ### What follows a reading of zero -/

/-- Once an empty queue was seen, only the end of the session is asked for. -/
theorem Conduct.IsPastZero.concern {tag : String} {m : Conduct} {e : Event} {r : Request}
    (h : m.IsPastZero) (he : m.emptied = true) (hp : m.Permits tag e) (hr : e.concern? = some r) :
    r = .close ∨ ∃ t, r = .cancel t := by
  -- an answer is one to a request that was made since
  have hanswer : ∀ value, m.Permits tag (Course.answer r value) →
      r = .close ∨ ∃ t, r = .cancel t := by
    intro value hpermits
    have hpending := pending_of_answer value hpermits
    rcases h with hs | hs | hs | ⟨hs | hs, -⟩ <;> rw [hs] at hpending <;> cases hpending
    · exact .inr ⟨tag, rfl⟩
    · exact .inl rfl
  cases e with
  | began r' =>
    obtain rfl : r' = r := Option.some.inj hr
    cases r' with
    | establish => exact absurd (he.symm.trans hp.2.2) (by simp)
    | subscribe t => exact absurd h (by simp [IsPastZero, hp.2.1])
    | depth => exact absurd (he.symm.trans hp.2) (by simp)
    | cancel t => exact .inr ⟨t, rfl⟩
    | close => exact .inl rfl
  | answered r' count =>
    obtain rfl : r' = r := Option.some.inj hr
    exact hanswer (.ok count) hp
  | failed r' cause =>
    obtain rfl : r' = r := Option.some.inj hr
    exact hanswer (.error cause) hp
  | _ => cases hr

section

variable {tag : String} {later earlier : List Entry} {z : Entry}

/-- A trace tells of an empty queue if and only if one was read. -/
theorem Orderly.emptied_iff (h : Orderly tag earlier) :
    (Conduct.of earlier).emptied = true ↔ 0 ∈ readings earlier := by
  obtain ⟨hhead, htail⟩ := h.readings_head
  rw [hhead]
  refine ⟨List.mem_of_mem_head?, fun hmem => ?_⟩
  cases hreadings : readings earlier with
  | nil => simp [hreadings] at hmem
  | cons last before =>
    rw [hreadings] at hmem htail
    rcases List.mem_cons.mp hmem with rfl | hmem
    · rfl
    · exact absurd rfl (htail 0 hmem)

/-- **What follows a reading of zero.** It is the only one, and nothing is asked of the broker from
then on but the end of the session. -/
theorem Orderly.after_zero (h : Orderly tag (later ++ z :: earlier))
    (hz : z.event = .answered .depth 0) :
    0 ∉ readings earlier ∧
      ∀ e ∈ later, ∀ r, e.event.concern? = some r → r = .close ∨ ∃ t, r = .cancel t := by
  constructor
  · intro hmem
    have hreading : (Conduct.of earlier).standing = .reading := by
      have hp := h.permits
      rw [hz] at hp
      exact hp
    rcases (h.of_append.2.emptied (h.of_append.2.emptied_iff.mpr hmem)).1 with
      hs | hs | hs | ⟨hs | hs, -⟩ <;> simp [hreading] at hs
  · intro e he r hr
    obtain ⟨after, between, rfl⟩ := List.append_of_mem he
    rw [List.append_assoc, List.cons_append] at h
    have hbetween : Orderly tag (between ++ z :: earlier) := h.of_append.2
    have hempty : (Conduct.of (between ++ z :: earlier)).emptied = true :=
      hbetween.emptied_iff.mpr (mem_readings.mpr ⟨z, by simp, hz⟩)
    exact (hbetween.emptied hempty).1.concern hempty h.permits hr

end

variable {ω : Type} {E : Environment ω}

namespace Drain

variable {plan : Plan} {s s' : State ω} {outcome : Outcome}

/-! ### What is decided -/

/-- The outcome that is decided, from the end of the poller to the end of the run. -/
def Phase.outcome? : Phase → Option Outcome
  | .cancelling outcome _ | .joining outcome | .closing (.ok outcome) _ => some outcome
  | .finished (.ok summary) => some summary.outcome
  | _ => none

/-- **What is decided stays.** No move changes an outcome that is decided, and none makes the run
fail. -/
theorem Move.decided (hm : Move E plan s s') (h : s.phase.outcome? = some outcome) :
    s'.phase.outcome? = some outcome := by
  -- while a session is opened and served, nothing is decided
  have hundecided : s.phase.outcome? = none → s'.phase.outcome? = some outcome := fun hnone =>
    absurd (hnone.symm.trans h) (by simp)
  cases hm with
  | connecting hp hm | connected hp hm => exact hundecided (by rw [hp]; rfl)
  | subscribeFailed hp hd hf | subscribed hp hd hf => exact hundecided (by rw [hp]; rfl)
  | polled hp hr hm => exact hundecided (by rw [hp]; rfl)
  | abandoned hp hw hr => exact hundecided (by rw [hp]; rfl)
  | cancelled hp hd hf | cancelFailed hp hd hf => rw [hp] at h; exact h
  | unjoined hp hw | joined hp hw => rw [hp] at h; exact h
  | @closed ending due hp hd =>
    rw [hp] at h
    cases ending with
    | ok _ => exact h
    | error _ => cases h
  | consumer hu hw hm => exact h
  | time hu hidle => exact h

/-- An outcome that is decided at some time of a run is decided ever after. -/
theorem run_decided (h : s.phase.outcome? = some outcome) (n : Nat) :
    (run E plan n s).phase.outcome? = some outcome :=
  run_of_move (P := fun s => s.phase.outcome? = some outcome) (fun _ _ => Move.decided) h n

/-- A run that ends after its outcome was decided ends with that outcome. -/
theorem result_of_outcome? {result : Except DrainError Summary}
    (h : s.phase.outcome? = some outcome) (hr : s.result? = some result) :
    ∃ summary, result = .ok summary ∧ summary.outcome = outcome := by
  rw [phase_of_result? hr] at h
  cases result with
  | ok summary => exact ⟨summary, rfl, Option.some.inj h⟩
  | error cause => cases h

/-- A run that follows its trace has decided that the queue is drained once the trace says so. -/
theorem Phase.Fits.outcome?_eq_drained {phase : Phase} {m : Conduct} (h : phase.Fits m) :
    phase.outcome? = some .drained ↔ m.emptied = true := by
  have hexplains : ∀ outcome, m.Explains outcome → (outcome = .drained ↔ m.emptied = true) := by
    intro outcome ho
    cases outcome with
    | drained => exact ⟨fun _ => ho, fun _ => rfl⟩
    | interrupted => exact ⟨nofun, fun he => absurd (ho.2.symm.trans he) (by simp)⟩
  match phase with
  | .connecting (.backingOff _ _) | .connecting (.establishing _ _) | .subscribing _
  | .polling (.waiting _) | .polling (.reading _) | .finished (.error _) | .closing (.error _) _ =>
    exact ⟨nofun, fun he => absurd (h.2.symm.trans he) (by simp)⟩
  | .cancelling outcome _ | .joining outcome | .closing (.ok outcome) _ =>
    exact Option.some_inj.trans (hexplains outcome h.2)
  | .finished (.ok summary) => exact Option.some_inj.trans (hexplains summary.outcome h.2.1)

/-- A run that follows its trace has decided that it is interrupted only where the trace says so. -/
theorem Phase.Fits.interrupted {phase : Phase} {m : Conduct} (h : phase.Fits m)
    (ho : phase.outcome? = some .interrupted) : m.interrupted = true := by
  match phase with
  | .connecting _ | .subscribing _ | .polling _ | .finished (.error _) | .closing (.error _) _ =>
    cases ho
  | .cancelling _ _ | .joining _ | .closing (.ok _) _ =>
    obtain rfl := Option.some.inj ho
    exact h.2.1
  | .finished (.ok summary) =>
    have hexplains := h.2.1
    rw [show summary.outcome = .interrupted from Option.some.inj ho] at hexplains
    exact hexplains.1

/-! ### Every run -/

/-- **What the outcome and the number of polls tell.** In every run, at any time:

* A depth reading gave zero if and only if it is decided that the queue is drained; it is the last
  reading and the only one of zero, and nothing is asked of the broker behind it but the end of the
  session.
* A run that reports an interrupt was interrupted, and every report counts the readings that were
  answered, over all sessions and in a word of 64 bits.
* Once an outcome is decided, whatever happens, the run can only end with a report of it. -/
theorem run_outcome (E : Environment ω) (plan : Plan) (now : Nat) (world : ω) (rejected : UInt64)
    (interrupted : Bool) (n : Nat) :
    let s := run E plan n (start E plan (.opening now world rejected interrupted))
    let trace := s.course.trace
    (s.phase.outcome? = some .drained ↔ ∃ e ∈ trace, e.event = .answered .depth 0) ∧
    (∀ later z earlier, trace = later ++ z :: earlier → z.event = .answered .depth 0 →
      0 ∉ readings earlier ∧
      ∀ e ∈ later, ∀ r, e.event.concern? = some r → r = .close ∨ ∃ t, r = .cancel t) ∧
    (∀ summary, s.result? = some (.ok summary) →
      (summary.outcome = .drained ↔ ∃ e ∈ trace, e.event = .answered .depth 0) ∧
      (summary.outcome = .interrupted → ∃ e ∈ trace, e.event = .interrupted) ∧
      summary.polls = (readings trace).length % 2 ^ 64) ∧
    ∀ outcome, s.phase.outcome? = some outcome → ∀ more result,
      (run E plan more s).result? = some result →
      ∃ summary, result = .ok summary ∧ summary.outcome = outcome := by
  intro s trace
  have hfollows : s.Follows plan (Conduct.of trace) :=
    run_follows E plan now world rejected interrupted n
  have ho : QueueDrain.Orderly plan.config.consumerTag trace := hfollows.course.orderly
  have hzero : s.phase.outcome? = some .drained ↔ ∃ e ∈ trace, e.event = .answered .depth 0 := by
    rw [hfollows.phase.outcome?_eq_drained, ho.emptied_iff, mem_readings]
  refine ⟨hzero, fun later z earlier htrace => ?_, fun summary hresult => ?_, ?_⟩
  · exact (htrace ▸ ho).after_zero
  · have houtcome : s.phase.outcome? = some summary.outcome := by
      rw [phase_of_result? hresult]
      rfl
    refine ⟨?_, fun hinterrupted => ?_, ?_⟩
    · rw [← hzero, houtcome, Option.some_inj]
    · refine (interrupted_iff trace).mp (hfollows.phase.interrupted ?_)
      rw [houtcome, hinterrupted]
    · rw [run_reports E plan now world rejected interrupted n summary hresult]
      exact (run_tallies E plan now world rejected interrupted n).polls_eq
  · intro outcome hdecided more result hresult
    exact result_of_outcome? (run_decided hdecided more) hresult

end Drain

/-- A rejection that is in flight at the reading of zero and breaks the consumer down. -/
def Scenario.lateBreakdown : Scenario where
  messages := 1
  latencies := [6000]
  rejectFaults := [(1, .breaks)]

/-- The breakdown is told, and the run reports the empty queue all the same. -/
example : (Scenario.lateBreakdown.runs .sample 20).result? = some (.ok
    { queue := "jobs", endpoint := "amqp://localhost:5672", outcome := .drained, rejected := 0,
      polls := 1, reconnects := 0, lastMessageCount := some 0 }) := rfl

end QueueDrain
