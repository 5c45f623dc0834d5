import QueueDrain.Proofs.Flight
import QueueDrain.Scenario

/-!
# What is over is settled

A consumer does not leave a rejection in flight that is over. A step that finds some takes the
oldest of them off the flight, and no time passes until none is left; so none of them waits for more
steps than there are rejections in flight.

Behind the end of the stream nothing comes onto the flight any more. What brings a consumer closer
to its end then is a rejection that is settled or time that passes, and the sum of the rejections in
flight and of the time that they still take comes down. An environment could hold this up only by
changing by itself again and again without any time passing.

## Main definitions

* `Environment.MovesOn` — an environment whose own changes move on with the clock
* `Consumer.Run.Settles` — a step in which a certain rejection is settled

## Main results

* `Consumer.Run.step_of_find` — the oldest rejection that is over is settled, or it is the end
* `Consumer.Run.run_of_reached` — whatever is over has its turn before any time passes
* `Consumer.Run.returns_of_closed` — behind the end of its stream a consumer returns
* `Scenario.movesOn` — scripted surroundings move on
-/

namespace QueueDrain

variable {ω : Type} {E : Environment ω} {queue : String} {c c' : Course ω}

/-- The world's own changes move on with the clock: once an instant has passed, the next of them is
still to come. -/
def Environment.MovesOn (E : Environment ω) : Prop :=
  ∀ now w t, E.nextChange (E.pass now w).state = some t → now < t

/-- Behind a wait the next change of the world is still to come. -/
theorem Environment.MovesOn.lt_of_advance (h : E.MovesOn) (c : Course ω)
    {wakes : List (Option Nat)} {t : Nat} (ht : some t ∈ wakes) :
    ∀ u, E.nextChange (c.advance E wakes).world = some u → (c.advance E wakes).now < u := by
  obtain ⟨v, hv, -⟩ := earliest_le (List.mem_cons_of_mem (E.nextChange c.world) ht)
  intro u hu
  simp only [Course.advance, hv, Course.absorb_world, Course.absorb_now] at hu ⊢
  exact h _ _ u hu

/-- A rejection went wrong. -/
def Event.isMisrejection : Event → Bool
  | .rejectFailed _ _ | .rejectPanicked _ => true
  | _ => false

namespace Consumer

variable {k k' : Consumer} {x y : Rejection}

/-! ### A round -/

/-- What asking the stream does to the flight: at most it adds to its end. -/
theorem take_flight (k : Consumer) (c : Course ω) :
    (∃ ending, (take E k c).2.1 = .over ending ∧ ending ≠ .stopped) ∨
    ∃ k' new, (take E k c).2.1 = .ongoing k' ∧ k'.inFlight = k.inFlight ++ new ∧
      (k.streamOpen = false → k' = k) ∧
      settled (take E k c).1.proceedings = settled c.proceedings := by
  by_cases hroom : (k.streamOpen && k.hasRoom) = true
  · have hopen : ∀ k', k.streamOpen = false → k' = k := fun _ hclosed =>
      absurd ((Bool.and_eq_true_iff.mp hroom).1.symm.trans hclosed) Bool.true_eq_false.mp
    rcases ha : c.ask E with ⟨c₁, offer⟩
    have hproceedings := Course.proceedings_of_ask ha
    cases offer with
    | delivery tag =>
      simp only [take, hroom, if_true, ha]
      refine .inr ⟨_, _, rfl, rfl, hopen _, ?_⟩
      rw [Course.proceedings_startReject, hproceedings]
      rfl
    | wait wake | cancelled | ended =>
      simp only [take, hroom, if_true, ha]
      refine .inr ⟨_, [], rfl, (List.append_nil _).symm, hopen _, ?_⟩
      rw [hproceedings]
      rfl
    | failed cause | panicked text =>
      simp only [take, hroom, if_true, ha]
      exact .inl ⟨_, rfl, by simp⟩
  · simp only [take, hroom, Bool.false_eq_true, if_false]
    exact .inr ⟨k, [], rfl, (List.append_nil _).symm, fun _ => rfl, trivial⟩

theorem exists_find {now : Nat} (hx : x ∈ k.inFlight) (hdue : reached x.due now = true) :
    ∃ y, k.inFlight.find? (fun x => reached x.due now) = some y :=
  Option.ne_none_iff_exists'.mp fun hnone => List.find?_eq_none.mp hnone x hx hdue

/-- The oldest rejection that is over comes off the flight, or it went wrong. -/
theorem settle_of_find (hy : k.inFlight.find? (fun x => reached x.due c.now) = some y) :
    (∃ c', settle E k c = (c', .ongoing { k with inFlight := k.inFlight.erase y }, true) ∧
      c'.proceedings = .rejected y.tag :: c.proceedings) ∨
    ∃ c' ending, settle E k c = (c', .over ending, false) ∧ ending ≠ .stopped := by
  rcases hf : c.finishReject E y.tag with ⟨c', settlement⟩
  have hproceedings := Course.proceedings_of_finishReject hf
  cases settlement <;> simp only [settle, hy, hf]
  case done => exact .inl ⟨c', rfl, hproceedings⟩
  case failed cause => exact .inr ⟨c', .failed cause, rfl, by simp⟩
  case panicked text => exact .inr ⟨c', .panicked text, rfl, by simp⟩

/-- A consumer whose stream is over takes nothing. -/
theorem take_of_closed (h : k.streamOpen = false) (c : Course ω) :
    take E k c = (c, .ongoing k, false) := by
  simp [take, h]

/-- Behind the end of its stream a consumer waits for nothing but its rejections. -/
theorem Move.wake_eq_none {stage : Stage Consumer Ending} (hm : Move E queue k c c' stage)
    (h : k.streamOpen = false → k.wake = none) (k' : Consumer) (hk' : stage = .ongoing k') :
    k'.streamOpen = false → k'.wake = none := by
  cases hm with
  | delivered ho hr ha | waiting ho hr ha =>
    cases hk'
    exact fun hclosed => absurd (ho.symm.trans hclosed) Bool.true_eq_false.mp
  | streamOver ho hr ha hover =>
    cases hk'
    exact fun _ => rfl
  | rejected hr hd hf =>
    cases hk'
    exact h
  | _ => cases hk'

theorem Moves.wake_eq_none {stage : Stage Consumer Ending} (hm : Moves E queue k c c' stage)
    (h : k.streamOpen = false → k.wake = .none) (k' : Consumer) (hk' : stage = .ongoing k') :
    k'.streamOpen = false → k'.wake = .none := by
  induction hm with
  | none k c =>
    cases hk'
    exact h
  | last hm => exact hm.wake_eq_none h k' hk'
  | more hm _ ih => exact ih (hm.wake_eq_none h _ rfl) hk'

namespace Run

variable {r r' : Run ω}

/-- Between `r`, with `k` at work, and `r'` the rejection `y` is settled, and no time passes. -/
structure Settles (k : Consumer) (y : Rejection) (r r' : Run ω) : Prop where
  /-- It comes off the flight, onto which something may have come behind all the others. -/
  stage : ∃ k' new, k'.inFlight = k.inFlight ++ new ∧ (k.streamOpen = false → k' = k) ∧
    r'.stage = .ongoing { k' with inFlight := k'.inFlight.erase y }
  /-- It is the latest of what has happened. -/
  latest : ∃ earlier, r'.course.proceedings = .rejected y.tag :: earlier ∧
    settled earlier = settled r.course.proceedings
  now_eq : r'.course.now = r.course.now

/-- **The oldest rejection that is over is settled**, or a failure ends the consumer. -/
theorem step_of_find (E : Environment ω) (queue : String) (hs : r.stage = .ongoing k)
    (hy : k.inFlight.find? (fun x => reached x.due r.course.now) = some y) :
    Settles k y r (r.step E queue) ∨
      ∃ ending, (r.step E queue).stage = .over ending ∧ ending ≠ .stopped ∧
        (r.step E queue).course.now = r.course.now := by
  have hnow : (Consumer.step E queue k r.course).1.now = r.course.now :=
    (step_moves queue k r.course).calmly.now_eq
  have htake := take_flight (E := E) k r.course
  have htakeNow : (take E k r.course).1.now = r.course.now := by
    rcases take_moves (E := E) queue k r.course with ⟨h, -⟩ | hm
    · rw [h]
    · exact hm.calmly.now_eq
  rw [step_of_ongoing hs]
  rcases ht : take E k r.course with ⟨c₁, k₁ | ending, took⟩ <;> rw [ht] at htake
  · rw [ht] at htakeNow
    rcases htake with ⟨ending, hover, -⟩ | ⟨k₂, new, hk₂, hflight, hclosed, hsettled⟩
    · cases hover
    obtain rfl : k₁ = k₂ := Stage.ongoing.inj hk₂
    have hy₁ : k₁.inFlight.find? (fun x => reached x.due c₁.now) = some y := by
      rw [hflight, List.find?_append, htakeNow, hy]
      rfl
    rcases settle_of_find (E := E) hy₁ with ⟨c₂, hs₂, hlatest⟩ | ⟨c₂, ending, hs₂, hne⟩
    · have hround : Consumer.step E queue k r.course
          = (c₂, .ongoing { k₁ with inFlight := k₁.inFlight.erase y }, true) := by
        simp only [Consumer.step, ht, hs₂, Bool.or_true]
      rw [hround] at hnow ⊢
      exact .inl ⟨⟨k₁, new, hflight, hclosed, rfl⟩, ⟨_, hlatest, hsettled⟩, hnow⟩
    · have hround : Consumer.step E queue k r.course = (c₂, .over ending, false) := by
        cases ending with
        | stopped => exact absurd rfl hne
        | _ => simp only [Consumer.step, ht, hs₂]
      rw [hround] at hnow ⊢
      exact .inr ⟨ending, rfl, hne, hnow⟩
  · have hround : Consumer.step E queue k r.course = (c₁, .over ending, false) := by
      simp only [Consumer.step, ht]
    rw [hround] at hnow ⊢
    rcases htake with ⟨ending', hover, hne⟩ | ⟨k₂, new, hk₂, -⟩
    · cases hover
      exact .inr ⟨ending, rfl, hne, hnow⟩
    · cases hk₂

/-- A step that finds rejections that are over settles one of them, or it is the last. -/
theorem step_of_reached (hs : r.stage = .ongoing k) (hx : x ∈ k.inFlight)
    (hdue : reached x.due r.course.now = true) :
    (∃ y ∈ k.inFlight, reached y.due r.course.now = true ∧ Settles k y r (r.step E queue)) ∨
      ∃ ending, (r.step E queue).stage = .over ending ∧ ending ≠ .stopped := by
  obtain ⟨y, hy⟩ := exists_find hx hdue
  rcases step_of_find E queue hs hy with h | ⟨ending, hover, hne, -⟩
  · exact .inl ⟨y, List.mem_of_find?_eq_some hy, by simpa using List.find?_some hy, h⟩
  · exact .inr ⟨ending, hover, hne⟩

/-! ### Turns -/

theorem run_one (r : Run ω) : r.run E queue 1 = r.step E queue := by rw [run_eq]; rfl

theorem run_add (r : Run ω) (m n : Nat) :
    r.run E queue (m + n) = (r.run E queue n).run E queue m := by
  rw [run_eq, run_eq, run_eq, Function.iterate_add_apply]

theorem run_step (r : Run ω) (n : Nat) :
    (r.step E queue).run E queue n = r.run E queue (n + 1) := by
  rw [run_add, run_one]

/-- **What is over has its turn before any time passes**: those ahead of it come first, and one is
settled with every step. -/
theorem run_of_reached (E : Environment ω) (queue : String) {ahead behind : List Rejection}
    (hs : r.stage = .ongoing k) (hflight : k.inFlight = ahead ++ x :: behind)
    (hx : reached x.due r.course.now = true) :
    ∃ m, 0 < m ∧ m ≤ ahead.length + 1 ∧ (r.run E queue m).course.now = r.course.now ∧
      ((∃ earlier, (r.run E queue m).course.proceedings = .rejected x.tag :: earlier) ∨
        ∃ ending, (r.run E queue m).stage = .over ending ∧ ending ≠ .stopped) := by
  induction hn : ahead.length generalizing r k ahead behind with
  | zero =>
    obtain rfl := List.length_eq_zero_iff.mp hn
    have hfind : k.inFlight.find? (fun x => reached x.due r.course.now) = some x := by
      rw [hflight]
      exact List.find?_cons_of_pos hx
    refine ⟨1, Nat.one_pos, Nat.le_refl 1, ?_⟩
    rw [run_one]
    rcases step_of_find E queue hs hfind with h | ⟨ending, hover, hne, hnow⟩
    · obtain ⟨earlier, hlatest, -⟩ := h.latest
      exact ⟨h.now_eq, .inl ⟨earlier, hlatest⟩⟩
    · exact ⟨hnow, .inr ⟨ending, hover, hne⟩⟩
  | succ n ih =>
    obtain ⟨y, hy⟩ := exists_find (hflight ▸ List.mem_append_right ahead List.mem_cons_self) hx
    rcases step_of_find E queue hs hy with h | ⟨ending, hover, hne, hnow⟩
    · by_cases hyx : y = x
      · obtain ⟨earlier, hlatest, -⟩ := h.latest
        refine ⟨1, Nat.one_pos, Nat.le_add_left 1 _, ?_⟩
        rw [run_one]
        exact ⟨h.now_eq, .inl ⟨earlier, hyx ▸ hlatest⟩⟩
      · -- one of those ahead of it comes off the flight
        have hahead : y ∈ ahead := by
          have hfind := hy
          rw [hflight, List.find?_append] at hfind
          cases ha : ahead.find? (fun x => reached x.due r.course.now) with
          | none =>
            rw [ha, Option.none_or] at hfind
            have hnext : (x :: behind).find? (fun x => reached x.due r.course.now) = some x :=
              List.find?_cons_of_pos hx
            exact absurd (Option.some.inj (hfind.symm.trans hnext)) hyx
          | some z =>
            rw [ha, Option.some_or] at hfind
            exact Option.some.inj hfind ▸ List.mem_of_find?_eq_some ha
        obtain ⟨k', new, hk', -, hs'⟩ := h.stage
        have hflight' : k'.inFlight.erase y = ahead.erase y ++ x :: (behind ++ new) := by
          rw [hk', hflight, List.append_assoc, List.erase_append_left _ hahead]
          rfl
        have hlength : (ahead.erase y).length = n := by
          rw [List.length_erase_of_mem hahead, hn, Nat.add_sub_cancel]
        obtain ⟨m, hpos, hm, hnow, hturn⟩ := ih hs' hflight' (h.now_eq.symm ▸ hx) hlength
        rw [run_step] at hnow hturn
        exact ⟨m + 1, Nat.succ_pos m, Nat.succ_le_succ hm, hnow.trans h.now_eq, hturn⟩
    · refine ⟨1, Nat.one_pos, Nat.le_add_left 1 _, ?_⟩
      rw [run_one]
      exact ⟨hnow, .inr ⟨ending, hover, hne⟩⟩

/-! ### Behind the end of the stream -/

theorem run_wake_eq_none (limit : Nat) (c : Course ω) (n : Nat) (k : Consumer)
    (hs : ((Run.enter limit c).run E queue n).stage = .ongoing k) (hclosed : k.streamOpen = false) :
    k.wake = none := by
  suffices h : ∀ k, ((Run.enter limit c).run E queue n).stage = .ongoing k →
      k.streamOpen = false → k.wake = none from h k hs hclosed
  clear hs hclosed
  induction n with
  | zero =>
    intro k hk
    cases hk
    exact fun _ => rfl
  | succ n ih =>
    rw [run_succ]
    refine step_of_round (P := fun _ stage => ∀ k, stage = .ongoing k →
      k.streamOpen = false → k.wake = none) ?_ ?_ ?_
    · exact fun ending hs => hs ▸ ih
    · exact fun k hs => (step_moves queue k _).wake_eq_none (ih k hs)
    · exact fun _ _ hround => hround

/-- A step behind the end of the stream in which nothing is over: time passes. -/
theorem step_of_closed (E : Environment ω) (queue : String) (hs : r.stage = .ongoing k)
    (hclosed : k.streamOpen = false) (hflight : k.inFlight ≠ [])
    (hidle : ∀ x ∈ k.inFlight, reached x.due r.course.now = false) :
    r.step E queue = { course := r.course.advance E k.wakes, stage := .ongoing k } := by
  have hfind : k.inFlight.find? (fun x => reached x.due r.course.now) = none :=
    List.find?_eq_none.mpr fun x hx => by simp [hidle x hx]
  have hround : Consumer.step E queue k r.course = (r.course, .ongoing k, false) := by
    simp [Consumer.step, take_of_closed hclosed, settle, hfind, List.isEmpty_iff, hflight]
  rw [step_of_ongoing hs, hround]
  rfl

/-- Where nothing is over, time passes in one step or in two, and not beyond the latest of what is
in flight. -/
theorem now_lt_of_closed (hE : E.MovesOn) (hs : r.stage = .ongoing k)
    (hclosed : k.streamOpen = false) (hwake : k.wake = none) (hflight : k.inFlight ≠ [])
    {last : Nat} (hdue : ∀ x ∈ k.inFlight, ∃ t, x.due = some t ∧ t ≤ last)
    (hidle : ∀ x ∈ k.inFlight, reached x.due r.course.now = false) :
    ∃ m, (r.run E queue m).stage = .ongoing k ∧ r.course.now < (r.run E queue m).course.now ∧
      (r.run E queue m).course.now ≤ last := by
  obtain ⟨x, hx⟩ := List.exists_mem_of_ne_nil _ hflight
  obtain ⟨t, ht, htlast⟩ := hdue x hx
  have hmem : some t ∈ k.wakes := List.mem_cons_of_mem _ (List.mem_map.mpr ⟨x, hx, ht⟩)
  -- what is waited for is the end of a rejection that is not over
  have hlater : ∀ c : Course ω, (∀ x ∈ k.inFlight, reached x.due c.now = false) →
      ∀ u, some u ∈ k.wakes → c.now < u := by
    intro c hidle u hu
    rcases List.mem_cons.mp hu with hu | hu
    · exact absurd (hu.trans hwake) nofun
    · obtain ⟨y, hy, hyu⟩ := List.mem_map.mp hu
      exact reached_eq_false.mp (hidle y hy) u hyu
  have hle : ∀ c : Course ω, (∀ x ∈ k.inFlight, reached x.due c.now = false) →
      (c.advance E k.wakes).now ≤ last := by
    intro c hidle
    have hbound := c.advance_now_le (E := E) hmem
    have hnow := hlater c hidle t hmem
    omega
  have hfirst := step_of_closed E queue hs hclosed hflight hidle
  by_cases hlt : r.course.now < (r.course.advance E k.wakes).now
  · refine ⟨1, ?_⟩
    rw [run_one, hfirst]
    exact ⟨rfl, hlt, hle _ hidle⟩
  · -- a change of the world held the clock back, and the next one is still to come
    have hnow : (r.course.advance E k.wakes).now = r.course.now := by
      obtain ⟨asides, hext, -⟩ := Course.extends_advance (E := E) r.course k.wakes
      exact Nat.le_antisymm (Nat.not_lt.mp hlt) hext.now_le
    have hidle' : ∀ x ∈ k.inFlight, reached x.due (r.course.advance E k.wakes).now = false :=
      hnow.symm ▸ hidle
    have hsecond : (r.step E queue).step E queue
        = { course := (r.course.advance E k.wakes).advance E k.wakes, stage := .ongoing k } := by
      rw [hfirst]
      exact step_of_closed E queue rfl hclosed hflight hidle'
    refine ⟨2, ?_⟩
    rw [run_succ, run_one, hsecond]
    refine ⟨rfl, ?_, hle _ hidle'⟩
    rw [← hnow]
    refine Course.lt_advance _ hmem fun u hu => ?_
    rcases List.mem_cons.mp hu with hu | hu
    · exact hE.lt_of_advance r.course hmem u hu.symm
    · exact hlater _ hidle' u hu

/-- **Behind the end of its stream a consumer returns** if every rejection in flight will be over.
-/
theorem returns_of_closed (queue : String) (hE : E.MovesOn) (hs : r.stage = .ongoing k)
    (hclosed : k.streamOpen = false) (hwake : k.wake = none) {last : Nat}
    (hdue : ∀ x ∈ k.inFlight, ∃ t, x.due = some t ∧ t ≤ last) :
    ∃ m ending, (r.run E queue m).stage = .over ending := by
  induction hn : k.inFlight.length + (last - r.course.now) using Nat.strongRecOn
    generalizing r k with
  | _ n ih =>
    by_cases hflight : k.inFlight = []
    · refine ⟨1, .stopped, ?_⟩
      rw [run_one, step_of_settled hs hclosed hflight]
    cases hfind : k.inFlight.find? (fun x => reached x.due r.course.now) with
    | some y =>
      have hy := List.mem_of_find?_eq_some hfind
      rcases step_of_find E queue hs hfind with h | ⟨ending, hover, -, -⟩
      · obtain ⟨k', new, -, hk', hs'⟩ := h.stage
        obtain rfl := hk' hclosed
        have hlength := List.length_erase_of_mem hy
        have hpos := List.length_pos_of_mem hy
        obtain ⟨m, ending, hover⟩ := ih _ (by rw [h.now_eq, hlength]; omega) hs' hclosed hwake
          (fun x hx => hdue x (List.mem_of_mem_erase hx)) rfl
        exact ⟨m + 1, ending, by rw [← run_step, hover]⟩
      · exact ⟨1, ending, by rw [run_one, hover]⟩
    | none =>
      have hidle : ∀ x ∈ k.inFlight, reached x.due r.course.now = false := by
        simpa only [Bool.not_eq_true] using List.find?_eq_none.mp hfind
      obtain ⟨m, hs', hlt, hle⟩ := now_lt_of_closed hE hs hclosed hwake hflight hdue hidle
      obtain ⟨m', ending, hover⟩ := ih _ (by omega) hs' hclosed hwake hdue rfl
      exact ⟨m' + m, ending, by rw [run_add, hover]⟩

end Run

/-- Behind the end of its stream a consumer fails only by a rejection. -/
theorem Concludes.stopped_or {p : Nat} {events : List Event} {ending : Ending}
    (h : Concludes p events ending) (hended : Ended events) :
    ending = .stopped ∨ ∃ e ∈ events, e.isMisrejection = true := by
  have hlatest : ∀ {e earlier}, Admissible p (e :: earlier) → e.isMishap = true →
      Ended (e :: earlier) → e.isMisrejection = true := by
    intro e earlier ha he hended
    cases e with
    | rejectFailed tag cause | rejectPanicked tag => rfl
    | streamFailed cause | streamPanicked text =>
      rcases ended_cons.mp hended with hend | hend
      · cases hend
      · exact absurd hend ha.1.2
    | failed r cause => exact absurd ha.1 id
    | _ => cases he
  cases ending with
  | stopped => exact .inl rfl
  | failed cause =>
    obtain ⟨ha, e, earlier, rfl, hfault⟩ := h
    have he := hlatest ha (Event.isMishap_of_fault? hfault) hended
    exact .inr ⟨e, List.mem_cons_self, he⟩
  | panicked text =>
    obtain ⟨ha, e, earlier, rfl, hmishap, -⟩ := h
    exact .inr ⟨e, List.mem_cons_self, hlatest ha hmishap hended⟩

theorem exists_last {flight : List Rejection} (h : ∀ x ∈ flight, x.due ≠ none) :
    ∃ last, ∀ x ∈ flight, ∃ t, x.due = some t ∧ t ≤ last := by
  induction flight with
  | nil => exact ⟨0, List.forall_mem_nil _⟩
  | cons x rest ih =>
    obtain ⟨hx, hrest⟩ := List.forall_mem_cons.mp h
    obtain ⟨t, ht⟩ := Option.ne_none_iff_exists'.mp hx
    obtain ⟨last, hlast⟩ := ih hrest
    refine ⟨max t last, List.forall_mem_cons.mpr ⟨⟨t, ht, Nat.le_max_left ..⟩, fun y hy => ?_⟩⟩
    obtain ⟨u, hu, hle⟩ := hlast y hy
    exact ⟨u, hu, Nat.le_trans hle (Nat.le_max_right ..)⟩

/-- **Once its stream has ended a consumer returns**, be it that everything in flight is rejected or
that a rejection goes wrong. -/
theorem Run.run_returns {p : Nat} (hp : 0 < p) (hE : E.MovesOn) (now : Nat) (world : ω)
    (rejected : UInt64) (interrupted : Bool) (n : Nat) :
    let r := fun n => (Run.enter p (.opening now world rejected interrupted)).run E queue n
    (r n).stage = .ongoing k → Ended (r n).course.proceedings →
    (∀ x ∈ k.inFlight, x.due ≠ none) →
    ∃ m, (r m).stage = .over .stopped ∨
      ∃ e ∈ (r m).course.proceedings, e.isMisrejection = true := by
  intro r hs hended hdue
  have hfollows : ∀ n, Follows p (r n).course.proceedings (r n).stage :=
    run_follows hp now world rejected interrupted
  have hattends := hfollows n
  rw [hs] at hattends
  have hclosed : k.streamOpen = false :=
    Bool.eq_false_iff.mpr fun hopen => hattends.streamOpen.mp hopen hended
  have hwake : k.wake = none := run_wake_eq_none p _ n k hs hclosed
  obtain ⟨last, hlast⟩ := exists_last hdue
  obtain ⟨m, ending, hover⟩ := returns_of_closed queue hE hs hclosed hwake hlast
  have hrun : (r n).run E queue m = r (m + n) := (run_add _ m n).symm
  have hreaches : (r n).course.Reaches E (r (m + n)).course := hrun ▸ run_reaches (r n) m
  rw [hrun] at hover
  have hconcludes : Concludes p _ ending := hover ▸ hfollows (m + n)
  rcases hconcludes.stopped_or (hended.of_reaches hreaches) with rfl | hmisrejection
  · exact ⟨m + n, .inl hover⟩
  · exact ⟨m + n, .inr hmisrejection⟩

end Consumer

namespace Scenario

variable {now t : Nat} {s : State}

/-- What is still to come when the clock has reached an instant. -/
theorem pass_changes (now : Nat) (s : State) :
    (pass now s).state.interruptAt = (if reached s.interruptAt now then none else s.interruptAt) ∧
    (pass now s).state.cancelAt = (if reached s.cancelAt now then none else s.cancelAt) ∧
    (pass now s).state.arrivals = if (due now s.arrivals).isEmpty then s.arrivals
      else s.arrivals.filter fun a => now < a.1 := by
  cases ha : (due now s.arrivals).isEmpty <;> cases hc : reached s.cancelAt now <;>
    cases hi : reached s.interruptAt now <;> simp [pass, ha, hc, hi]

theorem lt_of_unreached {instant : Option Nat}
    (h : (if reached instant now then none else instant) = some t) : now < t := by
  split at h
  · cases h
  · rename_i hnot
    exact reached_eq_false.mp (Bool.eq_false_iff.mpr hnot) t h

/-- **Scripted surroundings move on**: the changes that have come are forgotten. -/
theorem movesOn (script : Scenario) : script.environment.MovesOn := by
  intro now s t h
  have hmem : some t ∈ (pass now s).state.interruptAt :: (pass now s).state.cancelAt ::
      (pass now s).state.arrivals.map fun a => some a.1 := mem_of_earliest h
  obtain ⟨hinterrupt, hcancel, harrivals⟩ := pass_changes now s
  rcases List.mem_cons.mp hmem with hi | hmem
  · exact lt_of_unreached (hinterrupt.symm.trans hi.symm)
  rcases List.mem_cons.mp hmem with hc | hmem
  · exact lt_of_unreached (hcancel.symm.trans hc.symm)
  obtain ⟨a, ha, hat⟩ := List.mem_map.mp hmem
  obtain rfl := Option.some.inj hat
  rw [harrivals] at ha
  split at ha
  · rename_i hnone
    exact Nat.lt_of_not_le fun hle =>
      List.filter_eq_nil_iff.mp (List.isEmpty_iff.mp hnone) a ha (decide_eq_true hle)
  · exact of_decide_eq_true (List.mem_filter.mp ha).2

end Scenario

end QueueDrain
