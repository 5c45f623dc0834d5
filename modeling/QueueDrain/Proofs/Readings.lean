import Mathlib.Algebra.Order.Ring.Nat
import QueueDrain.Proofs.Interrupt
import QueueDrain.Proofs.Proceedings

/-!
# What a run has read and what it reports

The poller keeps a number and a count and no list of its readings. Both are those of the readings in
the trace, in every run and over all its sessions, and a summary is made of what the state of the
run holds when it is over.

## Main definitions

* `Entry.readings` — the counts of the depth readings in a trace
* `Drain.State.Tallies` — a poller that remembers the readings of the trace
* `Drain.State.summary`, `Drain.State.Reports` — what a state has to report, and what it reports

## Main results

* `Drain.Move.tallies`, `Drain.run_tallies` — every poller remembers its readings
* `Drain.Move.reports`, `Drain.run_reports` — every summary is that of its state
* `Orderly.readings_head` — only the last reading may be zero
-/

namespace QueueDrain

/-- The count of a depth reading. -/
def Event.reading? : Event → Option Nat
  | .answered .depth count => some count
  | _ => none

theorem Event.reading?_of_isConsumption {e : Event} (h : e.isConsumption = true) :
    e.reading? = none := by
  cases e <;> simp_all [isConsumption, reading?]

theorem Event.reading?_of_request? {e : Event} (h : e.request? ≠ none) : e.reading? = none := by
  cases e <;> simp_all [request?, reading?]

namespace Entry

/-- The counts of the depth readings that were answered, latest first. -/
def readings (trace : List Entry) : List Nat := trace.filterMap fun e => e.event.reading?

/-- Readings are no asides. -/
theorem readings_eq (trace : List Entry) :
    readings trace = (proceedings trace).filterMap Event.reading? := by
  induction trace with
  | nil => rfl
  | cons e earlier ih =>
    obtain ⟨t, e⟩ := e
    rw [readings, List.filterMap_cons, ← readings, ih, proceedings_cons]
    cases e <;> rfl

theorem readings_cons (e : Entry) (earlier : List Entry) :
    readings (e :: earlier) = e.event.reading?.toList ++ readings earlier := by
  rw [readings, List.filterMap_cons, ← readings]
  cases e.event.reading? <;> rfl

end Entry

open Entry (readings)

/-- A trace that tells of an empty queue has a reading of zero as its last one, and only such a
trace has. No other reading is zero. -/
theorem Orderly.readings_head {tag : String} {trace : List Entry} (h : Orderly tag trace) :
    ((Conduct.of trace).emptied = true ↔ (readings trace).head? = some 0) ∧
      ∀ count ∈ (readings trace).tail, count ≠ 0 := by
  induction trace with
  | nil => simp [readings]
  | cons e earlier ih =>
    obtain ⟨hp, ho⟩ := h
    obtain ⟨ihhead, ihtail⟩ := ih ho
    rw [Conduct.of_cons, Entry.readings_cons]
    by_cases hread : ∃ count, e.event = .answered .depth count
    · obtain ⟨count, hcount⟩ := hread
      rw [hcount] at hp ⊢
      -- while the depth is being read, it was not zero before
      have hne : (Conduct.of earlier).emptied = false := by
        have hreading : (Conduct.of earlier).standing = .reading := hp
        refine Bool.eq_false_iff.mpr fun he => ?_
        rcases (ho.emptied he).1 with hs | hs | hs | ⟨hs, -⟩ <;> simp [hreading] at hs
      refine ⟨by simp [Conduct.after, Event.reading?], fun c hc => ?_⟩
      have hc : c ∈ readings earlier := hc
      cases hreadings : readings earlier with
      | nil => simp [hreadings] at hc
      | cons last before =>
        rw [hreadings] at hc ihhead ihtail
        rcases List.mem_cons.mp hc with rfl | hc
        · rintro rfl
          exact absurd (hne.symm.trans (ihhead.mpr rfl)) (by simp)
        · exact ihtail c hc
    · have hn : ∀ count, e.event ≠ .answered .depth count := fun count h => hread ⟨count, h⟩
      have hnone : e.event.reading? = none := by
        cases hreading : e.event.reading? with
        | none => rfl
        | some count =>
          refine absurd ?_ (hn count)
          revert hreading
          cases e.event with
          | answered r _ => cases r <;> simp [Event.reading?]
          | _ => simp [Event.reading?]
      rw [hnone, Conduct.emptied_after hn]
      exact ⟨ihhead, ihtail⟩

variable {ω : Type} {E : Environment ω}

namespace Drain

variable {plan : Plan} {s s' : State ω}

/-! ### What a poller remembers -/

/-- The poller remembers the number of the readings in the trace, in a word, and the last of them.
-/
def State.Tallies (s : State ω) : Prop :=
  s.poller.succeeded = UInt64.ofNat (readings s.course.trace).length ∧
    s.poller.lastCount = (readings s.course.trace).head?

theorem State.Tallies.polls_eq (h : s.Tallies) :
    s.poller.polls = (readings s.course.trace).length % 2 ^ 64 := by
  rw [Poller.polls, h.1, UInt64.toNat_ofNat']

theorem readings_of_proceeds {c c' : Course ω} {new : List Event} (h : c.Proceeds c' new) :
    readings c'.trace = new.filterMap Event.reading? ++ readings c.trace := by
  rw [Entry.readings_eq, Entry.readings_eq, ← List.filterMap_append]
  exact congrArg _ h.proceedings_eq

theorem filterMap_reading?_eq_nil {asked : List Event} (h : ∀ e ∈ asked, e.request? ≠ none) :
    asked.filterMap Event.reading? = [] :=
  List.filterMap_eq_nil_iff.mpr fun e he => Event.reading?_of_request? (h e he)

/-- Only the poller reads, and it records what it reads. -/
theorem Move.reads_or (h : Move E plan s s') :
    (∃ count new, s.course.Proceeds s'.course new ∧ new.filterMap Event.reading? = [count] ∧
      s'.poller = s.poller.record count) ∨
    ∃ new, s.course.Proceeds s'.course new ∧ new.filterMap Event.reading? = [] ∧
      s'.poller = s.poller := by
  rcases h.adds_or with ⟨k, c', stage, hw, hm, rfl⟩ | ⟨⟨new, hnew, hadds⟩, -⟩
  · rcases hm.proceedings with hc | ⟨e, he, hc⟩
    · exact .inr ⟨[], h.proceeds hc, rfl, rfl⟩
    · refine .inr ⟨[e], h.proceeds hc, ?_, rfl⟩
      rw [List.filterMap_cons, Event.reading?_of_isConsumption he]
      rfl
  · cases hadds with
    | requests hasked hpoller => exact .inr ⟨_, hnew, filterMap_reading?_eq_nil hasked, hpoller⟩
    | answered r count hasked hr _ hpoller =>
      refine .inr ⟨_, hnew, ?_, hpoller⟩
      have hnone : (Event.answered r count).reading? = none := by
        cases r <;> first | rfl | exact absurd rfl hr
      rw [List.filterMap_append, filterMap_reading?_eq_nil hasked, List.nil_append,
        List.filterMap_cons, hnone]
      rfl
    | read count hasked hpoller =>
      refine .inl ⟨count, _, hnew, ?_, hpoller⟩
      rw [List.filterMap_append, filterMap_reading?_eq_nil hasked]
      rfl
    | unestablished _ _ _ _ _ hpoller | broken _ _ _ _ _ hpoller | passedOver _ _ _ hpoller =>
      exact .inr ⟨_, hnew, rfl, hpoller⟩

theorem Move.tallies (hm : Move E plan s s') (h : s.Tallies) : s'.Tallies := by
  obtain ⟨hpolls, hlast⟩ := h
  rcases hm.reads_or with ⟨count, new, hnew, hcount, hpoller⟩ | ⟨new, hnew, hnone, hpoller⟩
  · rw [State.Tallies, readings_of_proceeds hnew, hcount, hpoller]
    refine ⟨?_, rfl⟩
    show s.poller.succeeded + 1 = UInt64.ofNat ((readings s.course.trace).length + 1)
    rw [hpolls, UInt64.ofNat_add]
    rfl
  · rw [State.Tallies, readings_of_proceeds hnew, hnone, hpoller]
    exact ⟨hpolls, hlast⟩

/-! ### What a run reports -/

/-- What a state has to report, whatever the outcome. -/
def State.summary (plan : Plan) (s : State ω) (outcome : Outcome) : Summary where
  queue := plan.config.queueName
  endpoint := plan.endpoint
  outcome := outcome
  rejected := s.course.rejected.toNat
  polls := s.poller.polls
  reconnects := s.reconnects.toNat
  lastMessageCount := s.poller.lastCount <|> s.initialCount

/-- A run that is over has reported what its state holds. -/
def State.Reports (plan : Plan) (s : State ω) : Prop :=
  ∀ summary, s.result? = some (.ok summary) → summary = s.summary plan summary.outcome

theorem report_reports (s : State ω) (outcome : Outcome) :
    (s.report plan outcome).Reports plan := by
  intro summary hresult
  cases hresult
  rfl

theorem giveUp_reports (s : State ω) : (s.giveUp plan).Reports plan := by
  rw [State.giveUp]
  split
  · exact report_reports _ _
  · exact report_reports _ _

theorem reports_of_ne {s : State ω} (h : ∀ summary, s.phase ≠ .finished (.ok summary)) :
    s.Reports plan := fun summary hresult => absurd (phase_of_result? hresult) (h summary)

theorem polled_reports (s : State ω) (stage : Stage Poller.Activity Poller.Result) :
    (s.polled E plan stage).Reports plan := by
  match stage with
  | .ongoing _ | .over (.ok _) | .over (.error _) => exact reports_of_ne fun _ hp => nomatch hp

theorem Move.reports (hm : Move E plan s s') : s'.Reports plan := by
  cases hm with
  | @connected a c' result hp hm =>
    match result with
    | .error _ => exact reports_of_ne fun _ hp => by cases hp
    | .ok none => exact giveUp_reports _
    | .ok (some declared) =>
      refine reports_of_ne fun summary hp => ?_
      rcases phase_openSession (E := E) ({ s with course := c' }.welcome plan declared) plan with
        ⟨due, ho⟩ | ⟨due, ho⟩ <;> cases ho.symm.trans hp
  | subscribed hp hd hf => exact polled_reports _ _
  | polled hp hr hm => exact polled_reports _ _
  | @closed ending due hp hd =>
    match ending with
    | .ok outcome => exact report_reports _ _
    | .error cause =>
      refine reports_of_ne fun summary hp => ?_
      rw [State.closed] at hp
      split at hp <;> cases hp
  | consumer hu hw hm => exact fun summary hresult => absurd (hu.symm.trans hresult) (by simp)
  | time hu hidle => exact fun summary hresult => absurd (hu.symm.trans hresult) (by simp)
  | _ => exact reports_of_ne fun _ hp => by cases hp

/-! ### Every run -/

/-- In every run the poller remembers the readings of the trace. -/
theorem run_tallies (E : Environment ω) (plan : Plan) (now : Nat) (world : ω) (rejected : UInt64)
    (interrupted : Bool) (n : Nat) :
    (run E plan n (start E plan (.opening now world rejected interrupted))).Tallies := by
  refine run_of_move (fun _ _ => Move.tallies) ?_ n
  have hreaches := (start_calmly (E := E) plan
    (Course.opening now world rejected interrupted)).reaches
  have hnone : readings (start E plan
      (Course.opening now world rejected interrupted)).course.trace = [] := by
    rw [readings_of_proceeds (hreaches.proceeds (proceedings_start plan _))]
    cases interrupted <;> rfl
  rw [State.Tallies, hnone]
  cases hi : (Course.opening now world rejected interrupted).interrupted with
  | true => rw [start_of_interrupted hi, giveUp_poller]; exact ⟨rfl, rfl⟩
  | false => rw [start_of_not_interrupted hi]; exact ⟨rfl, rfl⟩

/-- **Every summary is that of the state in which the run is over.** -/
theorem run_reports (E : Environment ω) (plan : Plan) (now : Nat) (world : ω) (rejected : UInt64)
    (interrupted : Bool) (n : Nat) :
    (run E plan n (start E plan (.opening now world rejected interrupted))).Reports plan := by
  refine run_of_move (P := fun s => s.Reports plan) (fun _ _ hm _ => hm.reports) ?_ n
  cases hi : (Course.opening now world rejected interrupted).interrupted with
  | true => rw [start_of_interrupted hi]; exact giveUp_reports _
  | false => rw [start_of_not_interrupted hi]; exact reports_of_ne fun _ hp => nomatch hp

end Drain

end QueueDrain
