import Mathlib.Algebra.Order.BigOperators.Group.List
import Mathlib.Algebra.Order.Ring.Nat
import Mathlib.Data.Prod.Lex
import QueueDrain.Proofs.Smooth

/-!
# A run in which nothing fails comes to its end

Consumer and poller are at work beside each other, each in its own rhythm: the poller may read the
depth any number of times before a rejection is over, and any number of rejections may be over
before it reads. What comes down with every step is a measure of four parts, the earlier ones
counting for more. The phases that are left come first, then the work that the consumer has left,
whatever the order in which it does it. Where neither changes there is time left: that of the
rejections in flight, which passes with the readings in between, or that of the coordinator's own
wait.

Time passes only where the consumer has nothing to do at this instant: everything ready was taken if
there was room for it, and nothing in flight is over. So it passes up to something that is still to
come.

## Main definitions

* `Consumer.Rests` — a consumer that has nothing to do at this instant
* `Drain.State.distance` — how far a run is from its end

## Main results

* `Drain.step_cases` — what one step of a run is
* `Drain.coordinate_eq_none` — a coordinator that does nothing waits for something that is to come
* `Consumer.step_rests` — a consumer does some of its work, or it has nothing to do
* `Drain.step_lt`, `Drain.run_finishes` — a step leads closer to the end, and so a run gets there
-/

namespace QueueDrain

variable {ω : Type} {E : Environment ω} {B : Broker E} {F : B.Faultless} {l l' : Ledger}
  {b b' : Bool}

/-! ### Waits -/

/-- Where nothing changes by itself, time passes up to something that is still to come. -/
theorem Broker.Faultless.Calm.lt_advance {c : Course ω} (h : F.Calm c l b)
    {wakes : List (Option Nat)} {t : Nat} (ht : some t ∈ wakes)
    (hwakes : ∀ u, some u ∈ wakes → c.now < u) : c.now < (c.advance E wakes).now := by
  refine c.lt_advance ht fun u hu => hwakes u ?_
  rw [F.nextChange _ h.sound] at hu
  simpa using hu

/-- An attempt that does nothing waits for something that is still to come. -/
theorem Connect.step_eq_none {policy : Backoff.Policy} {endpoint : String} {a : Connect.Activity}
    {c : Course ω} (h : Connect.step E policy endpoint a c = none) :
    ∀ t, a.wake = some t → c.now < t := by
  cases hi : c.interrupted with
  | true =>
    cases a with
    | backingOff attempt wake =>
      rcases hr : (if wake ≤ c.now then c.race E else (c, true)) with ⟨c', first⟩
      cases first <;> simp [Connect.step, hi, hr] at h
    | establishing attempt due => simp [Connect.step, hi] at h
  | false =>
    cases a with
    | backingOff attempt wake => simpa [Connect.step, hi, Connect.Activity.wake] using h
    | establishing attempt due =>
      simpa [Connect.step, hi, Connect.Activity.wake, reached_eq_false] using h

/-- A poller that does nothing waits for something that is still to come. -/
theorem Poller.step_eq_none {p : Poller} {a : Poller.Activity} {c : Course ω}
    (h : Poller.step E p a c = none) : ∀ t, a.wake = some t → c.now < t := by
  cases a with
  | waiting wake =>
    cases hi : c.interrupted with
    | true => exact absurd h (Poller.step_waiting_ne_none hi)
    | false => simpa [Poller.step, hi, Poller.Activity.wake] using h
  | reading due =>
    rw [Poller.step] at h
    split at h
    next => split at h <;> cases h
    next hd => exact reached_eq_false.mp (Bool.eq_false_iff.mpr hd)

/-! ### The consumer -/

namespace Consumer

variable {queue : String} {k k' : Consumer} {c c' : Course ω}

/-- The work that a consumer has left, whatever the order in which it does it. A delivery turns a
ready message into a rejection in flight. -/
def load (k : Consumer) (ready : Nat) : Nat :=
  1 + k.inFlight.length + 2 * ready + if k.streamOpen then 1 else 0

/-- The time that rejections in flight still take, all added up. -/
def toil (flight : List Rejection) (now : Nat) : Nat :=
  (flight.map fun r => r.due.getD 0 - now).sum

/-- A consumer that has nothing to do at this instant. -/
structure Rests (k : Consumer) (b : Bool) (ready now : Nat) : Prop where
  /-- Nothing in flight is over. -/
  pending : ∀ r ∈ k.inFlight, reached r.due now = false
  /-- It waits for its stream only up to something that is still to come. -/
  wake : ∀ t, k.wake = some t → now < t
  /-- What was ready was taken if there was room for it. -/
  taken : k.streamOpen = true → k.hasRoom = true → b = true ∧ ready = 0
  unfinished : k.streamOpen = true ∨ k.inFlight ≠ []

theorem hasRoom_of_nil (h : k.inFlight = []) : k.hasRoom = true := by
  rw [hasRoom, h]
  cases k.limit <;> simp

/-- With nothing in flight there is nothing ready that would be served. -/
theorem Rests.ready_eq_zero {ready now : Nat} (h : k.Rests b ready now) (he : k.inFlight = []) :
    b = true ∧ ready = 0 := by
  rcases h.unfinished with ho | hne
  · exact h.taken ho (hasRoom_of_nil he)
  · exact absurd he hne

/-- The time that rejections take passes. -/
theorem toil_lt {now now' : Nat} (hlt : now < now') (hk : k.Steady)
    (hpending : ∀ r ∈ k.inFlight, reached r.due now = false) (hne : k.inFlight ≠ []) :
    toil k.inFlight now' < toil k.inFlight now := by
  have hpass : ∀ r ∈ k.inFlight, r.due.getD 0 - now' < r.due.getD 0 - now := by
    intro r hr
    obtain ⟨t, ht⟩ := Option.ne_none_iff_exists'.mp (hk.due r hr)
    have := reached_eq_false.mp (hpending r hr) t ht
    rw [ht, Option.getD_some]
    omega
  obtain ⟨r, hr⟩ := List.exists_mem_of_ne_nil _ hne
  exact List.sum_lt_sum _ _ (fun r hr => (hpass r hr).le) ⟨r, hr, hpass r hr⟩

/-- The first half of a round where nothing fails: a delivery is taken, or there is none to take at
this instant. -/
theorem take_load (hc : F.Calm c l b) (hk : k.Steady) :
    ∃ c' k' l' took, take E k c = (c', .ongoing k', took) ∧ F.Calm c' l' b ∧ c'.now = c.now ∧
      ((took = true ∧ k'.load l'.ready < k.load l.ready) ∨
        (took = false ∧ l' = l ∧ k'.inFlight = k.inFlight ∧ k'.load l.ready ≤ k.load l.ready ∧
          (∀ t, k'.wake = some t → c.now < t) ∧
          (k'.streamOpen = true → k'.hasRoom = true → b = true ∧ l.ready = 0))) := by
  by_cases h : (k.streamOpen && k.hasRoom) = true
  · have hopen : k.streamOpen = true := (Bool.and_eq_true_iff.mp h).1
    rcases ha : c.ask E with ⟨c', offer⟩
    obtain ⟨hfulfils, hc'⟩ := hc.ask ha
    have hnow : c'.now = c.now := by
      simpa only [ha] using (Course.Deed.ask (E := E) (c := c)).calmly.now_eq
    cases offer with
    | delivery tag =>
      have hnow' : (c'.startReject E tag).1.now = c'.now :=
        (Course.Deed.startReject tag).calmly.now_eq
      have htake : take E k c = ((c'.startReject E tag).1, .ongoing { k with
          inFlight := k.inFlight ++ [⟨tag, (c'.startReject E tag).2⟩], wake := none }, true) := by
        simp only [take, h, ha, if_true]
      refine ⟨_, _, _, _, htake, hc'.startReject tag, hnow'.trans hnow, .inl ⟨rfl, ?_⟩⟩
      have hready := hfulfils.2
      simp only [load, Offer.event?, Option.elim_some, Ledger.post, List.length_append,
        List.length_singleton]
      omega
    | wait wake =>
      obtain ⟨hb, hready, hwake⟩ := hfulfils
      have htake : take E k c = (c', .ongoing { k with wake }, false) := by
        simp only [take, h, ha, if_true]
      exact ⟨_, _, _, _, htake, hc', hnow,
        .inr ⟨rfl, rfl, rfl, Nat.le_refl _, hwake, fun _ _ => ⟨hb, hready⟩⟩⟩
    | cancelled =>
      have htake : take E k c
          = (c', .ongoing { k with streamOpen := false, wake := none }, false) := by
        simp only [take, h, ha, if_true]
      refine ⟨_, _, _, _, htake, hc', hnow, .inr ⟨rfl, rfl, rfl, ?_, by simp, by simp⟩⟩
      simp only [load, hopen, Bool.false_eq_true, if_false, if_true]
      omega
    | _ => exact hfulfils.elim
  · have htake : take E k c = (c, .ongoing k, false) := by
      simp only [take, h, Bool.false_eq_true, if_false]
    refine ⟨c, k, l, _, htake, hc, rfl,
      .inr ⟨rfl, rfl, rfl, Nat.le_refl _, fun t ht => ?_, fun ho hr => ?_⟩⟩
    · obtain ⟨ho, hr⟩ := hk.wake (by simp [ht])
      exact absurd (Bool.and_eq_true_iff.mpr ⟨ho, hr⟩) h
    · exact absurd (Bool.and_eq_true_iff.mpr ⟨ho, hr⟩) h

/-- The second half of a round where nothing fails: a rejection that is over is taken off the
flight, or there is none at this instant. -/
theorem settle_load (hc : F.Calm c l b) :
    ((∀ r ∈ k.inFlight, reached r.due c.now = false) ∧
      settle E k c = (c, if k.inFlight.isEmpty && !k.streamOpen then .over .stopped else .ongoing k,
        false)) ∨
    ∃ c' k' l', settle E k c = (c', .ongoing k', true) ∧ F.Calm c' l' b ∧
      k'.load l'.ready < k.load l.ready := by
  cases hfind : k.inFlight.find? (fun r => reached r.due c.now) with
  | none =>
    refine .inl ⟨fun r hr => ?_, by simp only [settle, hfind]⟩
    simpa using List.find?_eq_none.mp hfind r hr
  | some r =>
    have hmem := List.mem_of_find?_eq_some hfind
    rcases hf : c.finishReject E r.tag with ⟨c', settlement⟩
    obtain ⟨rfl, hc'⟩ := hc.finishReject hf
    have hsettle : settle E k c
        = (c', .ongoing { k with inFlight := k.inFlight.erase r }, true) := by
      simp only [settle, hfind, hf]
    refine .inr ⟨_, _, _, hsettle, hc', ?_⟩
    have hpos := List.length_pos_of_mem hmem
    simp only [load, List.length_erase_of_mem hmem, Ledger.post]
    omega

/-- **A round does some of the work, or there is nothing to do at this instant.** -/
theorem step_rests (queue : String) (hc : F.Calm c l b) (hk : k.Steady) :
    (∃ c' ending moved, step E queue k c = (c', .over ending, moved)) ∨
    (∃ c' k' l', step E queue k c = (c', .ongoing k', true) ∧ F.Calm c' l' b ∧
      k'.load l'.ready < k.load l.ready) ∨
    ∃ c' k', step E queue k c = (c', .ongoing k', false) ∧ F.Calm c' l b ∧ c'.now = c.now ∧
      k'.inFlight = k.inFlight ∧ k'.load l.ready ≤ k.load l.ready ∧ k'.Rests b l.ready c.now := by
  obtain ⟨c₁, k₁, l₁, took, htake, hc₁, hnow, htook⟩ := take_load hc hk
  rcases settle_load (k := k₁) hc₁ with ⟨hpending, hsettle⟩ | ⟨c₂, k₂, l₂, hsettle, hc₂, hlt⟩
  · by_cases hstop : (k₁.inFlight.isEmpty && !k₁.streamOpen) = true
    · refine .inl ⟨c₁.tell (.consumerStopped queue), .stopped, false, ?_⟩
      simp only [step, htake, hsettle, hstop, if_true]
    · have hstep : step E queue k c = (c₁, .ongoing k₁, took) := by
        simp only [step, htake, hsettle, hstop, Bool.false_eq_true, if_false, Bool.or_false]
      rcases htook with ⟨rfl, hlt⟩ | ⟨rfl, rfl, hflight, hle, hwake, htaken⟩
      · exact .inr (.inl ⟨_, _, _, hstep, hc₁, hlt⟩)
      · rw [hnow] at hpending
        refine .inr (.inr ⟨_, _, hstep, hc₁, hnow, hflight, hle, hpending, hwake, htaken, ?_⟩)
        cases ho : k₁.streamOpen with
        | true => exact .inl rfl
        | false => exact .inr fun he => hstop (by simp [he, ho])
  · have hle : k₁.load l₁.ready ≤ k.load l.ready := by
      rcases htook with ⟨-, hlt⟩ | ⟨-, rfl, -, hle, -⟩
      · exact hlt.le
      · exact hle
    refine .inr (.inl ⟨c₂, k₂, l₂, ?_, hc₂, lt_of_lt_of_le hlt hle⟩)
    simp only [step, htake, hsettle, Bool.or_true]

end Consumer

namespace Drain

variable {plan : Plan} {s s' : State ω} {m : Conduct}

/-! ### One step -/

/-- What one step of a run that is not over is: an action of the coordinator, a round of the
consumer that does something, or else a round that does nothing, and behind it an action of the
coordinator again or the time that passes. -/
theorem step_cases (hu : s.result? = none) :
    coordinate E plan s = some (step E plan s) ∨ consume E plan s = (step E plan s, true) ∨
    ∃ s₁, consume E plan s = (s₁, false) ∧
      (coordinate E plan s₁ = some (step E plan s) ∨
        (coordinate E plan s₁ = none ∧
          step E plan s = { s₁ with course := s₁.course.advance E (wakes s₁) })) := by
  rw [step_of_unfinished hu]
  split
  next s' hs =>
    split at hs
    · cases hs
    · exact .inl hs
  next =>
    split
    next s' hc => exact .inr (.inl hc)
    next s' hc =>
      refine .inr (.inr ⟨s', hc, ?_⟩)
      cases coordinate E plan s' with
      | some s'' => exact .inl rfl
      | none => exact .inr ⟨rfl, rfl⟩

/-- The instant at which the coordinator can go on by itself. -/
def Phase.wake : Phase → Option Nat
  | .connecting a => a.wake
  | .subscribing due => due
  | .polling a => a.wake
  | .cancelling _ due => due
  | .joining _ => none
  | .closing _ due => due
  | .finished _ => none

/-- The instants at which the consumer can go on by itself. -/
def Worker.wakes : Worker → List (Option Nat)
  | .running k => k.wakes
  | _ => []

theorem wakes_eq (s : State ω) : wakes s = s.phase.wake :: s.worker.wakes := by
  rw [wakes]
  cases s.phase <;> cases s.worker <;> rfl

/-- A coordinator that does nothing waits for something that is still to come. -/
theorem coordinate_eq_none (h : coordinate E plan s = none) :
    ∀ t, s.phase.wake = some t → s.course.now < t := by
  intro t ht
  rw [coordinate] at h
  split at h
  next a hp =>
    rw [hp] at ht
    rw [coordinateConnecting] at h
    split at h
    next hs => exact Connect.step_eq_none hs t ht
    next => cases h
    next => cases h
  next due hp =>
    rw [hp] at ht
    rw [coordinateSubscribing] at h
    split at h
    next => split at h <;> cases h
    next hd => exact reached_eq_false.mp (Bool.eq_false_iff.mpr hd) t ht
  next a hp =>
    rw [hp] at ht
    refine Poller.step_eq_none (E := E) (p := s.poller) ?_ t ht
    rw [coordinatePolling] at h
    split at h
    next => cases h
    next =>
      dsimp only at h
      split at h
      · split at h <;> cases h
      · cases h
    next => cases h
    next hs _ => exact hs
  next outcome due hp =>
    rw [hp] at ht
    rw [coordinateCancelling] at h
    split at h
    next => split at h <;> cases h
    next hd => exact reached_eq_false.mp (Bool.eq_false_iff.mpr hd) t ht
  next outcome hp =>
    rw [hp] at ht
    cases ht
  next ending due hp =>
    rw [hp] at ht
    split at h
    next => cases h
    next hd => exact reached_eq_false.mp (Bool.eq_false_iff.mpr hd) t ht
  next hp =>
    rw [hp] at ht
    cases ht

/-! ### How far a run is from its end -/

/-- The phases that are left where nothing fails. -/
def Phase.rank : Phase → Nat
  | .connecting _ => 6
  | .subscribing _ => 5
  | .polling _ => 4
  | .cancelling _ _ => 3
  | .joining _ => 2
  | .closing _ _ => 1
  | .finished _ => 0

/-- The work that the consumer has left. -/
def Worker.load (ready : Nat) : Worker → Nat
  | .running k => k.load ready
  | _ => 0

/-- The rejections in flight. -/
def Worker.flight : Worker → List Consumer.Rejection
  | .running k => k.inFlight
  | _ => []

/-- The time that is left where phases and load stay as they are. A poller beside a consumer with
nothing to do reads once more; beside one that is at work it reads any number of times, and what
counts is the time of the rejections. -/
def Phase.patience (ready : Nat) (flight : List Consumer.Rejection) (now : Nat) :
    Phase → ℕ ×ₗ ℕ
  | .polling (.waiting wake) =>
    if ready = 0 ∧ flight = [] then toLex (1, wake - now)
    else toLex (Consumer.toil flight now, if wake ≤ now then 2 else 0)
  | .polling (.reading due) =>
    if ready = 0 ∧ flight = [] then toLex (0, due.getD 0 - now)
    else toLex (Consumer.toil flight now, 1)
  | .joining _ => toLex (Consumer.toil flight now, 0)
  | phase => toLex (0, phase.wake.getD 0 - now)

/-- The time that is left in a state. -/
def State.patience (ready : Nat) (s : State ω) : ℕ ×ₗ ℕ :=
  s.phase.patience ready s.worker.flight s.course.now

/-- How far a run is from its end where nothing fails. -/
def State.distance (ready : Nat) (s : State ω) : ℕ ×ₗ ℕ ×ₗ ℕ ×ₗ ℕ :=
  toLex (s.phase.rank, toLex (s.worker.load ready, s.patience ready))

variable {ready ready' : Nat}

theorem distance_lt_of_rank (h : s'.phase.rank < s.phase.rank) :
    s'.distance ready' < s.distance ready :=
  Prod.Lex.toLex_lt_toLex.mpr (.inl h)

theorem distance_lt_of_load (hp : s'.phase = s.phase)
    (h : s'.worker.load ready' < s.worker.load ready) :
    s'.distance ready' < s.distance ready :=
  Prod.Lex.toLex_lt_toLex.mpr (.inr ⟨congrArg Phase.rank hp, Prod.Lex.toLex_lt_toLex.mpr (.inl h)⟩)

theorem distance_lt_of_patience (hp : s'.phase.rank = s.phase.rank)
    (hw : s'.worker.load ready' = s.worker.load ready) (h : s'.patience ready' < s.patience ready) :
    s'.distance ready' < s.distance ready :=
  Prod.Lex.toLex_lt_toLex.mpr (.inr ⟨hp, Prod.Lex.toLex_lt_toLex.mpr (.inr ⟨hw, h⟩)⟩)

theorem distance_le (hp : s'.phase = s.phase) (hw : s'.worker.load ready' ≤ s.worker.load ready)
    (h : s'.patience ready' = s.patience ready) : s'.distance ready' ≤ s.distance ready := by
  refine Prod.Lex.toLex_le_toLex.mpr (.inr ⟨congrArg Phase.rank hp, ?_⟩)
  rcases hw.lt_or_eq with hlt | heq
  · exact Prod.Lex.toLex_le_toLex.mpr (.inl hlt)
  · exact Prod.Lex.toLex_le_toLex.mpr (.inr ⟨heq, h.le⟩)

/-! ### Every action leads on -/

theorem rank_openSession (s : State ω) : (s.openSession E plan).phase.rank < 6 := by
  rcases phase_openSession (E := E) s plan with ⟨due, hp⟩ | ⟨due, hp⟩ <;> simp [hp, Phase.rank]

theorem rank_established (s : State ω) (result : Connect.Result) :
    (s.established E plan result).phase.rank < 6 := by
  match result with
  | .error _ => exact Nat.zero_lt_succ _
  | .ok none =>
    obtain ⟨summary, hp⟩ := phase_giveUp s plan
    show (s.giveUp plan).phase.rank < 6
    simp [hp, Phase.rank]
  | .ok (some declared) => exact rank_openSession (s.welcome plan declared)

theorem rank_polled (s : State ω) (stage : Stage Poller.Activity Poller.Result) :
    (s.polled E plan stage).phase.rank < 5 := by
  match stage with
  | .ongoing _ | .over (.ok _) | .over (.error _) =>
    simp [State.polled, State.cancel, State.close, Phase.rank]

theorem polled_phase_ne {p p' : Poller} {a : Poller.Activity} {c c' : Course ω}
    {stage : Stage Poller.Activity Poller.Result} (hm : Poller.Move E p c a c' p' stage)
    (s : State ω) : (s.polled E plan stage).phase ≠ .polling a := by
  cases hm with
  | interrupted _ _ | failed _ _ => exact nofun
  | began _ _ => simp [State.polled]
  | recorded _ _ =>
    rw [Poller.enter]
    split <;> simp [State.polled, State.cancel, Poller.wait]

theorem closed_phase_ne (s : State ω) (ending ending' : Except DrainError Outcome)
    (due : Option Nat) : (s.closed plan ending).phase ≠ .closing ending' due := by
  match ending with
  | .ok _ => rintro ⟨⟩
  | .error cause =>
    rw [State.closed]
    split <;> rintro ⟨⟩

/-- The coordinator does nothing without going on to something else. -/
theorem coordinate_phase_ne (h : coordinate E plan s = some s') : s'.phase ≠ s.phase := by
  have hrank : ∀ {p q : Phase}, p.rank < q.rank → p ≠ q := fun hlt heq => absurd hlt (by simp [heq])
  rw [coordinate] at h
  split at h
  next a hp =>
    rw [hp]
    rw [coordinateConnecting] at h
    split at h
    next => cases h
    next c' a' hs =>
      cases h
      have hm := Connect.step_move hs
      show Phase.connecting a' ≠ .connecting a
      cases hm <;> simp [Connect.backOff]
    next => cases h; exact hrank (rank_established _ _)
  next due hp =>
    rw [hp]
    rw [coordinateSubscribing] at h
    split at h
    next =>
      split at h
      next => cases h; rintro ⟨⟩
      next => cases h; exact hrank (rank_polled _ _)
    next => cases h
  next a hp =>
    rw [hp]
    rw [coordinatePolling] at h
    split at h
    next => cases h; rintro ⟨⟩
    next =>
      dsimp only at h
      split at h
      · split at h
        next hs => cases h; exact polled_phase_ne (Poller.step_move hs) _
        next => cases h; rintro ⟨⟩
      · cases h; rintro ⟨⟩
    next hs _ => cases h; exact polled_phase_ne (Poller.step_move hs) _
    next => cases h
  next outcome due hp =>
    rw [hp]
    rw [coordinateCancelling] at h
    split at h
    next => split at h <;> cases h <;> rintro ⟨⟩
    next => cases h
  next outcome hp =>
    rw [hp]
    split at h <;> cases h <;> rintro ⟨⟩
  next ending due hp =>
    rw [hp]
    split at h
    next => cases h; exact closed_phase_ne _ _ _ _
    next => cases h
  next => cases h

theorem finish_now {c c' : Course ω} {r : Request} {value : Except DrainError Nat}
    (h : c.finish E r = (c', value)) : c'.now = c.now := by
  simpa only [h] using (Course.Deed.finish (E := E) (c := c) r).calmly.now_eq

/-- An action of the poller ends its run, or it leads on to a reading or to a wait that has only
begun. -/
theorem polled_lt {a : Poller.Activity} {c₀ c' : Course ω} {p' : Poller}
    {stage : Stage Poller.Activity Poller.Result} (h : s.Smooth F plan l b)
    (hinterval : 0 < plan.config.pollInterval.millisCeil) (hp : s.phase = .polling a)
    (hr : s.course.Raced E c₀) (hm : Poller.Move E s.poller c₀ a c' p' stage)
    (h' : ({ s with course := c', poller := p' }.polled E plan stage).Smooth F plan l' b') :
    ({ s with course := c', poller := p' }.polled E plan stage).distance l'.ready
      < s.distance l.ready := by
  have hsuits := h.suits
  rw [hp] at hsuits
  obtain ⟨-, -, k, hw, -⟩ := hsuits
  have hc₀ := h.calm.raced hr
  have hnow₀ := hr.now_eq
  cases hm with
  | interrupted hi _ => exact absurd (hc₀.interrupted.symm.trans hi) (by simp)
  | @began wake c₁ hwake hr' =>
    obtain rfl : l = l' := ((hc₀.raced hr').begin .depth).ledger.symm.trans h'.calm.ledger
    have hnow : (c₁.begin E .depth).1.now = s.course.now :=
      (Course.absorb_now _ _).trans (hr'.now_eq.trans hnow₀)
    have hwake : wake ≤ s.course.now := hnow₀ ▸ hwake
    refine distance_lt_of_patience (by rw [hp]; rfl) rfl ?_
    simp only [State.polled, State.patience, Phase.patience, Worker.flight, hp, hw, hnow, hwake,
      if_true]
    split
    · exact Prod.Lex.toLex_lt_toLex.mpr (.inl Nat.zero_lt_one)
    · exact Prod.Lex.toLex_lt_toLex.mpr (.inr ⟨rfl, Nat.one_lt_two⟩)
  | @recorded due c₁ count hd hf =>
    obtain ⟨hc₁, hcount⟩ := hc₀.finish_depth hf
    have hnow : c₁.now = s.course.now := (finish_now hf).trans hnow₀
    generalize (if (s.poller.record count).done then Notice.emptied _ else Notice.left count)
      = line at h' ⊢
    rw [Poller.enter] at h' ⊢
    cases hdone : (s.poller.record count).done with
    | true =>
      rw [if_pos rfl]
      exact distance_lt_of_rank (by rw [hp]; exact Nat.lt_succ_self 3)
    | false =>
      rw [hdone, if_neg Bool.false_ne_true] at h'
      rw [if_neg Bool.false_ne_true]
      obtain rfl : l = l' := (hc₁.tell line).ledger.symm.trans h'.calm.ledger
      have hbusy : ¬ (l.ready = 0 ∧ k.inFlight = []) := fun hidle =>
        absurd ((Poller.done_record s.poller count).mpr (hcount.trans hidle.1)) (by simp [hdone])
      have hwake : ¬ s.course.now + plan.config.pollInterval.millisCeil ≤ s.course.now := by omega
      refine distance_lt_of_patience (by rw [hp]; rfl) rfl ?_
      simp only [State.polled, State.patience, Phase.patience, Worker.flight, Poller.wait,
        Poller.record, hp, hw, hbusy, if_false, Course.tell_eq, Course.note_now, hnow, h.interval,
        hwake]
      exact Prod.Lex.toLex_lt_toLex.mpr (.inr ⟨rfl, Nat.zero_lt_one⟩)
  | failed hd hf =>
    obtain ⟨_, hvalue, -⟩ := hc₀.finish hf
    cases hvalue

/-- **Every action of the coordinator leads closer to the end.** -/
theorem coordinate_lt (h : s.Smooth F plan l b)
    (hinterval : 0 < plan.config.pollInterval.millisCeil) (hs : coordinate E plan s = some s')
    (h' : s'.Smooth F plan l' b') : s'.distance l'.ready < s.distance l.ready := by
  have hsuits := h.suits
  have hne := coordinate_phase_ne hs
  have hm := coordinate_move hs
  cases hm with
  | connecting hp hm =>
    rw [hp] at hsuits
    obtain ⟨-, -, t, rfl⟩ := hsuits
    cases hm
  | connected hp _ => exact distance_lt_of_rank (by rw [hp]; exact rank_established _ _)
  | subscribeFailed hp _ _ => exact distance_lt_of_rank (by rw [hp]; exact (by decide : 1 < 5))
  | subscribed hp _ _ => exact distance_lt_of_rank (by rw [hp]; exact rank_polled _ _)
  | polled hp hr hm => exact polled_lt h hinterval hp hr hm h'
  | abandoned hp _ _ => exact distance_lt_of_rank (by rw [hp]; exact (by decide : 1 < 4))
  | cancelled hp _ _ | cancelFailed hp _ _ =>
    exact distance_lt_of_rank (by rw [hp]; exact (by decide : 2 < 3))
  | unjoined hp _ | joined hp _ =>
    exact distance_lt_of_rank (by rw [hp]; exact (by decide : 1 < 2))
  | closed hp _ =>
    rw [hp] at hsuits
    obtain ⟨-, rfl, -⟩ := hsuits
    exact distance_lt_of_rank (by rw [hp]; exact (by decide : 0 < 1))
  | consumer _ _ _ | time _ _ => exact absurd rfl hne

/-! ### Every round, and the time that passes -/

/-- A round of the consumer does some of its work, or it finds nothing to do at this instant and
changes nothing that counts. -/
theorem consume_rests (h : s.Smooth F plan l b) {moved : Bool}
    (hs : consume E plan s = (s', moved)) (h' : s'.Smooth F plan l' b') :
    (moved = true ∧ s'.distance l'.ready < s.distance l.ready) ∨
    (moved = false ∧ s'.phase = s.phase ∧ s'.course.now = s.course.now ∧
      s'.distance l'.ready ≤ s.distance l.ready ∧
      ∀ k, s'.worker = .running k → k.Rests b' l'.ready s'.course.now) := by
  rw [consume] at hs
  split at hs
  next k hw =>
    rcases Consumer.step_rests plan.config.queueName h.calm (h.steady k hw) with
      ⟨c', ending, moved', hstep⟩ | ⟨c', k', l₁, hstep, hc, hlt⟩ |
      ⟨c', k', hstep, hc, hnow, hflight, hle, hrests⟩
    · rw [hstep] at hs
      cases hs
      refine .inl ⟨rfl, distance_lt_of_load rfl ?_⟩
      rw [hw]
      exact Nat.lt_of_lt_of_le Nat.zero_lt_one (by simp only [Worker.load, Consumer.load]; omega)
    · rw [hstep] at hs
      cases hs
      obtain rfl : l₁ = l' := hc.ledger.symm.trans h'.calm.ledger
      exact .inl ⟨rfl, distance_lt_of_load rfl (by rw [hw]; exact hlt)⟩
    · rw [hstep] at hs
      cases hs
      obtain rfl : l = l' := hc.ledger.symm.trans h'.calm.ledger
      obtain rfl : b = b' := hc.serving.symm.trans h'.calm.serving
      refine .inr ⟨rfl, rfl, hnow, distance_le rfl (by rw [hw]; exact hle) ?_, ?_⟩
      · simp only [State.patience, Worker.flight, hw, hnow, hflight]
      · intro k₁ hk₁
        cases hk₁
        rw [hnow]
        exact hrests
  next hw =>
    cases hs
    obtain rfl := h.calm.ledger.symm.trans h'.calm.ledger
    exact .inr ⟨rfl, rfl, rfl, le_refl _, fun k hk => absurd hk (hw k)⟩

/-- Where nobody has anything to do at this instant, everything is still to come. -/
theorem lt_of_mem_wakes {ready : Nat} (hidle : coordinate E plan s = none)
    (hrests : ∀ k, s.worker = .running k → k.Rests b ready s.course.now) :
    ∀ t, some t ∈ wakes s → s.course.now < t := by
  intro t ht
  rw [wakes_eq] at ht
  rcases List.mem_cons.mp ht with hown | ht
  · exact coordinate_eq_none hidle t hown.symm
  · cases hw : s.worker with
    | running k =>
      have hk := hrests k hw
      rw [hw] at ht
      rcases List.mem_cons.mp ht with hwake | hdue
      · exact hk.wake t hwake.symm
      · obtain ⟨r, hr, hdue⟩ := List.mem_map.mp hdue
        exact reached_eq_false.mp (hk.pending r hr) t hdue
    | _ =>
      rw [hw] at ht
      cases ht

/-- The coordinator's own wait gets shorter when time passes. -/
theorem wait_lt (hc : F.Calm s.course l b) (hfuture : ∀ t, some t ∈ wakes s → s.course.now < t)
    (hne : s.phase.wake ≠ none) (x : ℕ) :
    (toLex (x, s.phase.wake.getD 0 - (s.course.advance E (wakes s)).now) : ℕ ×ₗ ℕ)
      < toLex (x, s.phase.wake.getD 0 - s.course.now) := by
  obtain ⟨t, ht⟩ := Option.ne_none_iff_exists'.mp hne
  have hmem : some t ∈ wakes s := by
    rw [wakes_eq, ht]
    exact List.mem_cons_self
  have hnow := hc.lt_advance (E := E) hmem hfuture
  have hlt := hfuture t hmem
  have hshorter : t - (s.course.advance E (wakes s)).now < t - s.course.now := by omega
  rw [ht]
  exact Prod.Lex.toLex_lt_toLex.mpr (.inr ⟨rfl, hshorter⟩)

/-- So do the rejections in flight. -/
theorem toil_advance_lt {k : Consumer} {ready : Nat} (hc : F.Calm s.course l b)
    (hfuture : ∀ t, some t ∈ wakes s → s.course.now < t) (hw : s.worker = .running k)
    (hk : k.Steady) (hrests : k.Rests b ready s.course.now) (hne : k.inFlight ≠ []) :
    Consumer.toil k.inFlight (s.course.advance E (wakes s)).now
      < Consumer.toil k.inFlight s.course.now := by
  obtain ⟨r, hr⟩ := List.exists_mem_of_ne_nil _ hne
  obtain ⟨t, ht⟩ := Option.ne_none_iff_exists'.mp (hk.due r hr)
  have hmem : some t ∈ wakes s := by
    rw [wakes_eq, hw]
    exact List.mem_cons_of_mem _ (List.mem_cons_of_mem _ (List.mem_map.mpr ⟨r, hr, ht⟩))
  exact Consumer.toil_lt (hc.lt_advance (E := E) hmem hfuture) hk hrests.pending hne

/-- The time that passes leads closer to the end. -/
theorem advance_lt (h : s.Smooth F plan l b) (hu : s.result? = none)
    (hidle : coordinate E plan s = none)
    (hrests : ∀ k, s.worker = .running k → k.Rests b l.ready s.course.now) :
    { s with course := s.course.advance E (wakes s) : State ω }.distance l.ready
      < s.distance l.ready := by
  have hsuits := h.suits
  have hfuture := lt_of_mem_wakes hidle hrests
  have hwait := wait_lt h.calm hfuture
  have htoil := fun k hw => toil_advance_lt h.calm hfuture hw (h.steady k hw) (hrests k hw)
  refine distance_lt_of_patience rfl rfl ?_
  show s.phase.patience _ _ _ < s.phase.patience _ _ _
  cases hp : s.phase with
  | connecting a =>
    rw [hp] at hsuits hwait
    obtain ⟨-, -, t, rfl⟩ := hsuits
    exact hwait (Option.some_ne_none t) 0
  | subscribing due =>
    rw [hp] at hsuits hwait
    exact hwait hsuits.2.2 0
  | polling a =>
    rw [hp] at hsuits hwait
    obtain ⟨hwake, -, k, hw, ho⟩ := hsuits
    have hwait := hwait hwake
    by_cases hbusy : l.ready = 0 ∧ k.inFlight = []
    · cases a with
      | waiting wake =>
        simp only [Phase.patience, Worker.flight, hw, if_pos hbusy]
        exact hwait 1
      | reading due =>
        simp only [Phase.patience, Worker.flight, hw, if_pos hbusy]
        exact hwait 0
    · -- the consumer is at work, and something is in flight
      have hne : k.inFlight ≠ [] := fun he => hbusy ⟨((hrests k hw).ready_eq_zero he).2, he⟩
      have hlt := htoil k hw hne
      cases a <;> simp only [Phase.patience, Worker.flight, hw, hbusy, if_false] <;>
        exact Prod.Lex.toLex_lt_toLex.mpr (.inl hlt)
  | cancelling outcome due =>
    rw [hp] at hsuits hwait
    exact hwait hsuits.2.1 0
  | joining outcome =>
    rw [hp] at hsuits
    obtain ⟨-, rfl, -, hover | ⟨k, hw⟩⟩ := hsuits
    · simp [coordinate, hp, hover] at hidle
    · have hne : k.inFlight ≠ [] := fun he =>
        absurd ((hrests k hw).ready_eq_zero he).1 (by simp)
      simp only [Phase.patience, Worker.flight, hw]
      exact Prod.Lex.toLex_lt_toLex.mpr (.inl (htoil k hw hne))
  | closing ending due =>
    rw [hp] at hsuits hwait
    exact hwait hsuits.2.2 0
  | finished result => simp [State.result?, hp] at hu

/-- The distance to the end with what the broker has ready. -/
def State.remains (B : Broker E) (s : State ω) : ℕ ×ₗ ℕ ×ₗ ℕ ×ₗ ℕ :=
  s.distance (B.ledger s.course.world).ready

/-- **A step leads closer to the end.** -/
theorem step_lt {first : Ledger} (hinterval : 0 < plan.config.pollInterval.millisCeil)
    (h : s.Thrives F plan first) (hu : s.result? = none) :
    (step E plan s).remains B < s.remains B := by
  have h' : (step E plan s).Thrives F plan first :=
    of_moves (fun _ _ hm => hm.thrives) h (step_moves plan s)
  rcases step_cases hu with hs | hs | ⟨s₁, hc, hs⟩
  · exact coordinate_lt h.smooth hinterval hs h'.smooth
  · rcases consume_rests h.smooth hs h'.smooth with ⟨-, hlt⟩ | ⟨hnot, -⟩
    · exact hlt
    · cases hnot
  · have hmoves := consume_moves (E := E) plan hu
    have hu₁ := consume_result? (E := E) plan s
    rw [hc] at hmoves hu₁
    have h₁ : s₁.Thrives F plan first := of_moves (fun _ _ hm => hm.thrives) h hmoves
    rcases consume_rests h.smooth hc h₁.smooth with ⟨hnot, -⟩ | ⟨-, -, -, hle, hrests⟩
    · cases hnot
    refine lt_of_lt_of_le ?_ hle
    rcases hs with hs | ⟨hidle, hs⟩
    · exact coordinate_lt h₁.smooth hinterval hs h'.smooth
    · have hledger : B.ledger (step E plan s).course.world = B.ledger s₁.course.world := by
        rw [hs]
        exact (h₁.smooth.calm.advance _).ledger
      rw [State.remains, hledger, hs]
      exact advance_lt h₁.smooth (hu₁.trans hu) hidle hrests

/-- **A run in which nothing fails comes to its end.** -/
theorem run_finishes (F : B.Faultless) (plan : Plan)
    (hinterval : 0 < plan.config.pollInterval.millisCeil) (now : Nat) {world : ω}
    (rejected : UInt64) (h : F.sound world) :
    ∃ n, (run E plan n (start E plan (.opening now world rejected false))).result? ≠ none := by
  have hthrives := start_thrives (E := E) F plan now rejected h
  generalize start E plan (.opening now world rejected false) = s at hthrives
  induction hd : s.remains B using WellFoundedLT.induction generalizing s with
  | ind d ih =>
    cases hu : s.result? with
    | some result => exact ⟨0, by simp [run, hu]⟩
    | none =>
      have h' : (step E plan s).Thrives F plan (B.ledger world) :=
        of_moves (fun _ _ hm => hm.thrives) hthrives (step_moves plan s)
      obtain ⟨n, hn⟩ := ih _ (hd ▸ step_lt hinterval hthrives hu) _ h' rfl
      exact ⟨n + 1, by rwa [run_of_unfinished hu]⟩

end Drain

end QueueDrain
