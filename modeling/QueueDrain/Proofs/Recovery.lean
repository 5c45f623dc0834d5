import QueueDrain.Proofs.Failures

/-!
# What follows an error

An error that the coordinator meets is dealt with in one way, wherever it comes from. The session
that it came from is closed first. Then an error that may pass leads to another attempt at a
session, unless the run is interrupted before that attempt begins; any other error ends the run as
it is.

## Main definitions

* `Drain.State.MovesOn` — what a run does about an error when there is no session left to close
* `Drain.State.Closes` — what it does about an error of a session
* `Drain.State.DealsWith` — what a run does about the failure of a request
* `Drain.State.Attends` — every failure that has been met is dealt with

## Main results

* `Drain.Move.movesOn`, `Drain.Move.closes` — a move carries on what is being done about an error
* `Drain.Move.attends`, `Drain.run_attends` — every failure is dealt with, by a move and by a run
* `Drain.step_of_closing`, `Drain.step_of_backingOff` — what is due is done in the next step
* `Drain.step_of_over` — a consumer that is over is taken up at once
-/

namespace QueueDrain

open Entry (session openings requests)

/-- The failure of a request that the coordinator has to deal with. -/
def Event.isFailure : Event → Bool
  | .failed .establish _ | .failed (.subscribe _) _ | .failed .depth _ => true
  | _ => false

theorem Event.isFailure_of_request? {e : Event} (h : e.request? ≠ none) : e.isFailure = false := by
  cases e <;> simp_all [request?, isFailure]

theorem Event.isFailure_of_isConsumption {e : Event} (h : e.isConsumption = true) :
    e.isFailure = false := by
  cases e <;> simp_all [isConsumption, isFailure]

/-- An entry of a trace that has grown is one of the old ones or one of the new ones. -/
theorem Entry.split_append {new old later earlier : List Entry} {e : Entry}
    (h : new ++ old = later ++ e :: earlier) :
    (∃ mid, later = new ++ mid ∧ old = mid ++ e :: earlier) ∨
      ∃ mid, new = later ++ e :: mid ∧ earlier = mid ++ old := by
  rcases List.append_eq_append_iff.mp h with ⟨mid, hlater, hold⟩ | ⟨mid, hnew, hearlier⟩
  · exact .inl ⟨mid, hlater, hold⟩
  · cases mid with
    | nil => exact .inl ⟨[], by simpa using hnew.symm, hearlier.symm⟩
    | cons x mid =>
      obtain ⟨rfl, rfl⟩ := List.cons.inj hearlier
      exact .inr ⟨mid, hnew, rfl⟩

variable {ω : Type} {E : Environment ω}

/-- The new requests are among the new proceedings. -/
theorem Course.Proceeds.requests_eq {c c' : Course ω} {new : List Event} (h : c.Proceeds c' new) :
    ∃ entries, c'.trace = entries ++ c.trace ∧ requests entries = new.filterMap Event.request? := by
  obtain ⟨entries, hext, rfl⟩ := h
  exact ⟨entries, hext.trace, Entry.requests_eq entries⟩

theorem Course.Proceeds.eq_of_proceedings {c c' : Course ω} {new new' : List Event}
    (h : c.Proceeds c' new) (hp : c'.proceedings = new' ++ c.proceedings) : new = new' :=
  List.append_cancel_right (h.proceedings_eq.symm.trans hp)

namespace Drain

variable {plan : Plan} {s s' : State ω} {m : Conduct} {cause : DrainError} {asked : List Request}

/-- What a run does about an error when there is no session left to close; `asked` is what it has
requested since, latest first. -/
structure State.MovesOn (s : State ω) (cause : DrainError) (asked : List Request) : Prop where
  /-- An error that may pass leads to another attempt, unless the run is interrupted before it. -/
  transient : cause.isTransient = true → asked.getLast? = some .establish ∨
    (asked = [] ∧ ((∃ attempt wake, s.phase = .connecting (.backingOff attempt wake)) ∨
      ∃ summary, s.result? = some (.ok summary) ∧ summary.outcome = .interrupted))
  /-- Any other error ends the run as it is. -/
  lasting : cause.isTransient = false → asked = [] ∧ s.result? = some (.error cause)

/-- What a run does about an error of a session: it closes the session and moves on. -/
def State.Closes (s : State ω) (cause : DrainError) (asked : List Request) : Prop :=
  (asked = [.close] ∧ ∃ due, s.phase = .closing (.error cause) due) ∨
    ∃ more, asked = more ++ [.close] ∧ s.MovesOn cause more

/-! ### Going on -/

/-- A run that is over does not move. -/
theorem Move.unfinished (h : Move E plan s s') : s.result? = none := by
  cases h with
  | consumer hu _ _ => exact hu
  | time hu _ => exact hu
  | connecting hp _ | connected hp _ | unjoined hp _ | joined hp _ | closed hp _ =>
    rw [State.result?, hp]
  | subscribeFailed hp _ _ | subscribed hp _ _ | polled hp _ _ | abandoned hp _ _
  | cancelled hp _ _ | cancelFailed hp _ _ => rw [State.result?, hp]

theorem giveUp_result? (s : State ω) (plan : Plan) :
    ∃ summary, (s.giveUp plan).result? = some (.ok summary) ∧ summary.outcome = .interrupted := by
  rw [State.giveUp]
  split
  · exact ⟨_, rfl, rfl⟩
  · exact ⟨_, rfl, rfl⟩

/-- From the wait before an attempt a run goes on to the attempt, or it is interrupted. -/
theorem Move.of_backingOff {attempt wake : Nat} (h : Move E plan s s') (hf : s.Follows plan m)
    (hp : s.phase = .connecting (.backingOff attempt wake)) :
    s'.course.proceedings = [.began .establish] ++ s.course.proceedings ∨
    (s'.course.proceedings = [] ++ s.course.proceedings ∧
      (s'.phase = .connecting (.backingOff attempt wake) ∨
        ∃ summary, s'.result? = some (.ok summary) ∧ summary.outcome = .interrupted)) := by
  cases h with
  | connecting hp' hm =>
    cases hp.symm.trans hp'
    cases hm with
    | began hw hi => exact .inl (Course.proceedings_begin _ _)
  | connected hp' hm =>
    cases hp.symm.trans hp'
    cases hm with
    | overtaken hi hr =>
      refine .inr ⟨?_, .inr (giveUp_result? _ plan)⟩
      exact (proceedings_giveUp _).trans hr.proceedings_eq
  | consumer hu hw hm =>
    rw [hf.absent_of_connecting hp] at hw
    cases hw
  | time hu hidle => exact .inr ⟨Course.proceedings_advance _ _, .inl hp⟩
  | unjoined hp' _ | joined hp' _ | closed hp' _ => cases hp.symm.trans hp'
  | subscribeFailed hp' _ _ | subscribed hp' _ _ | polled hp' _ _ | abandoned hp' _ _
  | cancelled hp' _ _ | cancelFailed hp' _ _ => cases hp.symm.trans hp'

/-- From the close of a session a run goes on when it is over. -/
theorem Move.of_closing {ending : Except DrainError Outcome} {due : Option Nat}
    (h : Move E plan s s') (hf : s.Follows plan m) (hp : s.phase = .closing ending due) :
    (∃ value, s'.course.proceedings = [Course.answer .close value] ++ s.course.proceedings ∧
      s' = { s with course := (s.course.finish E .close).1 }.closed plan ending) ∨
    (s'.course.proceedings = [] ++ s.course.proceedings ∧ s'.phase = .closing ending due) := by
  cases h with
  | closed hp' hd =>
    cases hp.symm.trans hp'
    refine .inl ⟨(s.course.finish E .close).2, ?_, rfl⟩
    rw [proceedings_closed]
    exact Course.proceedings_finish _ _
  | consumer hu hw hm =>
    have hphase := hf.phase
    rw [hp] at hphase
    rw [hf.worker.eq_absent (by rw [hphase.1]; rfl)] at hw
    cases hw
  | time hu hidle => exact .inr ⟨Course.proceedings_advance _ _, hp⟩
  | connecting hp' _ | connected hp' _ | unjoined hp' _ | joined hp' _ => cases hp.symm.trans hp'
  | subscribeFailed hp' _ _ | subscribed hp' _ _ | polled hp' _ _ | abandoned hp' _ _
  | cancelled hp' _ _ | cancelFailed hp' _ _ => cases hp.symm.trans hp'

/-- A move carries on what is being done about an error. -/
theorem Move.movesOn {new : List Event} (hm : Move E plan s s') (hf : s.Follows plan m)
    (hnew : s.course.Proceeds s'.course new) (h : s.MovesOn cause asked) :
    s'.MovesOn cause (new.filterMap Event.request? ++ asked) := by
  refine ⟨fun ht => ?_, fun hlast => ?_⟩
  · rcases h.transient ht with hattempt | ⟨rfl, ⟨attempt, wake, hp⟩ | ⟨summary, hresult, -⟩⟩
    · refine .inl ?_
      rw [List.getLast?_append, hattempt]
      rfl
    · rcases hm.of_backingOff hf hp with hp' | ⟨hp', hgoes⟩
      · rw [hnew.eq_of_proceedings hp']
        exact .inl rfl
      · rw [hnew.eq_of_proceedings hp']
        exact .inr ⟨rfl, hgoes.imp_left fun hp => ⟨attempt, wake, hp⟩⟩
    · exact absurd (hm.unfinished.symm.trans hresult) (by simp)
  · exact absurd (hm.unfinished.symm.trans (h.lasting hlast).2) (by simp)

/-- When a session is closed after an error, the run moves on. -/
theorem closed_movesOn (s : State ω) (plan : Plan) (cause : DrainError) :
    (s.closed plan (.error cause)).MovesOn cause [] := by
  rw [State.closed]
  split
  next ht => exact ⟨fun _ => .inr ⟨rfl, .inl ⟨_, _, rfl⟩⟩, fun hlast => absurd (ht.symm.trans hlast)
      (by simp)⟩
  next hlast => exact ⟨fun ht => absurd ht hlast, fun _ => ⟨rfl, rfl⟩⟩

theorem Move.closes {new : List Event} (hm : Move E plan s s') (hf : s.Follows plan m)
    (hnew : s.course.Proceeds s'.course new) (h : s.Closes cause asked) :
    s'.Closes cause (new.filterMap Event.request? ++ asked) := by
  rcases h with ⟨rfl, due, hp⟩ | ⟨more, rfl, hmoves⟩
  · rcases hm.of_closing hf hp with ⟨value, hp', rfl⟩ | ⟨hp', hclosing⟩
    · rw [hnew.eq_of_proceedings hp']
      refine .inr ⟨[], ?_, closed_movesOn _ plan cause⟩
      cases value <;> rfl
    · rw [hnew.eq_of_proceedings hp']
      exact .inl ⟨rfl, due, hclosing⟩
  · exact .inr ⟨_, (List.append_assoc _ _ _).symm, hm.movesOn hf hnew hmoves⟩

/-! ### Every failure -/

/-- What a run does about an event, if it is a failure: the first attempt at a session is the only
one that is not repeated whatever its error. `asked` is what it has requested since, latest first.
-/
def State.DealsWith (s : State ω) (earlier : List Entry) (asked : List Request) : Event → Prop
  | .failed .establish cause =>
    if openings earlier = 0 then asked = [] ∧ s.result? = some (.error cause)
    else s.MovesOn cause asked
  | .failed (.subscribe _) cause | .failed .depth cause => s.Closes cause asked
  | _ => True

/-- Every failure that has been met is dealt with. -/
def State.Attends (s : State ω) : Prop :=
  ∀ later e earlier, s.course.trace = later ++ e :: earlier →
    s.DealsWith earlier (requests later) e.event

theorem State.dealsWith_of_not_isFailure {e : Event} (h : e.isFailure = false)
    (earlier : List Entry) : s.DealsWith earlier asked e := by
  cases e with
  | failed r cause =>
    cases r with
    | establish | subscribe _ | depth => cases h
    | cancel _ | close => trivial
  | _ => trivial

/-- What is being done about a failure is carried on. -/
theorem Move.dealsWith {new : List Event} {e : Event} {earlier : List Entry} (hm : Move E plan s s')
    (hf : s.Follows plan m) (hnew : s.course.Proceeds s'.course new)
    (h : s.DealsWith earlier asked e) :
    s'.DealsWith earlier (new.filterMap Event.request? ++ asked) e := by
  cases hfailure : e.isFailure with
  | false => exact State.dealsWith_of_not_isFailure hfailure earlier
  | true =>
    cases e with
    | failed r cause =>
      cases r with
      | establish =>
        rw [State.DealsWith] at h ⊢
        split at h
        next => exact absurd (hm.unfinished.symm.trans h.2) (by simp)
        next hsome =>
          rw [if_neg hsome]
          exact hm.movesOn hf hnew h
      | subscribe _ | depth => exact hm.closes hf hnew h
      | cancel _ | close => cases hfailure
    | _ => cases hfailure

/-- What a run does at once about a failure. -/
theorem Move.failure_or (h : Move E plan s s') :
    (∃ cause attempt due, s.phase = .connecting (.establishing attempt due) ∧
      s.course.Proceeds s'.course [.failed .establish cause] ∧
      (((attempt = none ∨ cause.isTransient = false) ∧ s'.result? = some (.error cause)) ∨
        (attempt ≠ none ∧ cause.isTransient = true ∧
          ∃ k wake, s'.phase = .connecting (.backingOff k wake)))) ∨
    (∃ r cause due, (r = .depth ∨ ∃ tag, r = .subscribe tag) ∧
      s.course.Proceeds s'.course [.began .close, .failed r cause] ∧
      s'.phase = .closing (.error cause) due) ∨
    ∃ new, s.course.Proceeds s'.course new ∧ ∀ e ∈ new, e.isFailure = false := by
  have hquiet : ∀ {asked : List Event}, (∀ e ∈ asked, e.request? ≠ none) →
      ∀ e ∈ asked, e.isFailure = false := fun hasked e he =>
    Event.isFailure_of_request? (hasked e he)
  have hanswered : ∀ {asked : List Event} (r : Request) (count : Nat),
      (∀ e ∈ asked, e.request? ≠ none) → ∀ e ∈ asked ++ [.answered r count], e.isFailure = false :=
    fun r count hasked e he => (List.mem_append.mp he).elim (hquiet hasked e) fun he => by
      rw [List.mem_singleton.mp he]
      rfl
  rcases h.adds_or with ⟨k, c', stage, hw, hm, rfl⟩ | ⟨⟨new, hnew, hadds⟩, -⟩
  · rcases hm.proceedings with hc | ⟨e, he, hc⟩
    · exact .inr (.inr ⟨[], h.proceeds hc, by simp⟩)
    · exact .inr (.inr ⟨[e], h.proceeds hc, by simpa using Event.isFailure_of_isConsumption he⟩)
  · cases hadds with
    | unestablished cause attempt due hp hat =>
      exact .inl ⟨cause, attempt, due, hp, hnew, hat⟩
    | broken r cause due hr hp => exact .inr (.inl ⟨r, cause, due, hr, hnew, hp⟩)
    | requests hasked => exact .inr (.inr ⟨_, hnew, hquiet hasked⟩)
    | answered r count hasked => exact .inr (.inr ⟨_, hnew, hanswered r count hasked⟩)
    | read count hasked => exact .inr (.inr ⟨_, hnew, hanswered .depth count hasked⟩)
    | passedOver r cause hr =>
      refine .inr (.inr ⟨_, hnew, fun e he => ?_⟩)
      obtain rfl := List.mem_singleton.mp he
      rcases hr with rfl | ⟨tag, rfl⟩ <;> rfl

/-- **Every failure is dealt with**, as far as one move goes. -/
theorem Move.attends (hm : Move E plan s s') (ha : s.Accountable E plan) (h : s.Attends) :
    s'.Attends := by
  obtain ⟨⟨m, hf⟩, hexcuses, -, hblames⟩ := ha
  -- what has been met before is carried on; what is met now is what the move brings
  have hgoes : ∀ new : List Event, s.course.Proceeds s'.course new →
      (∀ later e earlier, new = later ++ e :: earlier → e.isFailure = true →
        ∀ before, (earlier = [] → openings before = openings s.course.trace) →
        s'.DealsWith before (later.filterMap Event.request?) e) → s'.Attends := by
    intro new hnew hmet later e earlier htrace
    obtain ⟨entries, hext, rfl⟩ := id hnew
    rw [hext.trace] at htrace
    rcases Entry.split_append htrace with ⟨mid, rfl, hold⟩ | ⟨mid, hentries, rfl⟩
    · have h := hm.dealsWith hf hnew (h mid e earlier hold)
      rwa [← Entry.requests_eq, ← Entry.requests_append] at h
    · cases hfailure : e.event.isFailure with
      | false => exact State.dealsWith_of_not_isFailure hfailure _
      | true =>
        have haside : e.event.isAside = false := by
          cases hevent : e.event <;> simp_all [Event.isFailure, Event.isAside]
        rw [Entry.requests_eq]
        refine hmet _ e.event (Entry.proceedings mid) ?_ hfailure _ fun hmid => ?_
        · rw [hentries, Entry.proceedings_append, Entry.proceedings_cons, haside]
          rfl
        · have hasides : ∀ e ∈ mid, e.event.isAside = true := by
            simpa [Entry.proceedings] using hmid
          exact (Entry.count_asides hasides _).2
  rcases hm.failure_or with ⟨cause, attempt, due, hp, hnew, hat⟩ |
    ⟨r, cause, due, hr, hnew, hp⟩ | ⟨new, hnew, hall⟩
  · rw [hp] at hexcuses hblames
    refine hgoes _ hnew fun later e earlier hsplit _ before hbefore => ?_
    obtain ⟨rfl, rfl, rfl⟩ : later = [] ∧ e = .failed .establish cause ∧ earlier = [] := by
      cases later <;> simp_all
    rw [State.DealsWith, hbefore rfl]
    rcases hat with ⟨hlast, hresult⟩ | ⟨hsome, ht, hwaits⟩
    · split
      next => exact ⟨rfl, hresult⟩
      next hsome =>
        refine ⟨fun ht => ?_, fun _ => ⟨rfl, hresult⟩⟩
        rcases hlast with rfl | hlast
        · exact absurd hexcuses.2 hsome
        · exact absurd (ht.symm.trans hlast) (by simp)
    · cases attempt with
      | none => exact absurd rfl hsome
      | some k =>
        have hsome : openings s.course.trace ≠ 0 := hblames
        rw [if_neg hsome]
        exact ⟨fun _ => .inr ⟨rfl, .inl hwaits⟩,
          fun hlast => absurd (ht.symm.trans hlast) (by simp)⟩
  · refine hgoes _ hnew fun later e earlier hsplit hfailure before _ => ?_
    obtain ⟨rfl, rfl⟩ : later = [.began .close] ∧ e = .failed r cause := by
      cases later with
      | nil =>
        obtain ⟨rfl, -⟩ := List.cons.inj hsplit
        cases hfailure
      | cons x later => cases later <;> simp_all
    have hcloses : s'.Closes cause [.close] := .inl ⟨rfl, due, hp⟩
    rcases hr with rfl | ⟨tag, rfl⟩
    · exact hcloses
    · exact hcloses
  · refine hgoes _ hnew fun later e earlier hsplit hfailure => ?_
    exact absurd ((hall e (by simp [hsplit])).symm.trans hfailure) (by simp)

/-- **Every failure is dealt with** throughout a run. -/
theorem run_attends (E : Environment ω) (plan : Plan) (now : Nat) (world : ω)
    (rejected : UInt64) (interrupted : Bool) (n : Nat) :
    (run E plan n (start E plan (.opening now world rejected interrupted))).Attends := by
  refine (run_of_move (P := fun s => s.Accountable E plan ∧ s.Attends)
    (fun s s' (hm : Move E plan s s') h => ⟨hm.accountable h.1, hm.attends h.1 h.2⟩)
    ⟨run_accountable E plan now world rejected interrupted 0, ?_⟩ n).2
  -- a run begins with a request at most
  show (start E plan (.opening now world rejected interrupted)).Attends
  intro later e earlier htrace
  refine State.dealsWith_of_not_isFailure (Bool.eq_false_iff.mpr fun hfailure => ?_) _
  have hmem : e.event ∈
      (start E plan (.opening now world rejected interrupted)).course.proceedings :=
    Entry.mem_proceedings.mpr ⟨⟨e, by rw [htrace]; simp, rfl⟩,
      by cases hevent : e.event <;> simp_all [Event.isFailure, Event.isAside]⟩
  rw [proceedings_start] at hmem
  rcases List.mem_append.mp hmem with hmem | hmem
  · split at hmem
    · cases hmem
    · rw [List.mem_singleton.mp hmem] at hfailure
      cases hfailure
  · cases interrupted <;> simp_all [Course.proceedings, Course.opening, Entry.proceedings,
      Event.isAside]

/-! ### What is due -/

/-- While there is no consumer a step is one of the coordinator, or time passes. -/
theorem step_of_absent (hu : s.result? = none) (hw : s.worker = .absent) :
    step E plan s
      = (coordinate E plan s).getD { s with course := s.course.advance E (wakes s) } := by
  have hconsume : consume E plan s = (s, false) := by rw [consume, hw]
  rw [step_of_unfinished hu, hconsume]
  cases hc : coordinate E plan s <;> cases E.consumerFirst s.course.world <;> simp [hc]

/-- A close whose answer is due is over in the next step. -/
theorem step_of_closing {ending : Except DrainError Outcome} {due : Option Nat}
    (hf : s.Follows plan m) (hp : s.phase = .closing ending due)
    (hd : reached due s.course.now = true) :
    step E plan s = { s with course := (s.course.finish E .close).1 }.closed plan ending := by
  have hu : s.result? = none := by rw [State.result?, hp]
  have hcoordinate : coordinate E plan s
      = some ({ s with course := (s.course.finish E .close).1 }.closed plan ending) := by
    rw [coordinate, hp]
    exact if_pos hd
  have hphase := hf.phase
  rw [hp] at hphase
  have hw : s.worker = .absent := hf.worker.eq_absent (by rw [hphase.1]; rfl)
  rw [step_of_absent hu hw, hcoordinate, Option.getD_some]

/-- A wait whose end has come is followed by the attempt in the next step; an interrupt ends the
wait, and the run. -/
theorem step_of_backingOff {attempt wake : Nat} (hf : s.Follows plan m)
    (hp : s.phase = .connecting (.backingOff attempt wake)) :
    (s.course.interrupted = true → ∃ summary,
      (step E plan s).result? = some (.ok summary) ∧ summary.outcome = .interrupted) ∧
    (s.course.interrupted = false → wake ≤ s.course.now →
      (∃ due, (step E plan s).phase = .connecting (.establishing (some attempt) due)) ∧
      (step E plan s).course.proceedings = .began .establish :: s.course.proceedings) := by
  have hu : s.result? = none := by rw [State.result?, hp]
  have hcoordinate : coordinate E plan s
      = coordinateConnecting E plan s (.backingOff attempt wake) := by rw [coordinate, hp]
  rw [step_of_absent hu (hf.absent_of_connecting hp), hcoordinate, coordinateConnecting]
  refine ⟨fun hi => ?_, fun hi hw => ?_⟩
  · obtain ⟨c', -, hover⟩ := Connect.step_of_interrupted E plan.config.reconnectPolicy
      plan.endpoint (.backingOff attempt wake) hi
    rw [hover]
    exact giveUp_result? _ plan
  · have hbegun : Connect.step E plan.config.reconnectPolicy plan.endpoint
        (.backingOff attempt wake) s.course = some ((s.course.begin E .establish).1,
          .ongoing (.establishing (some attempt) (s.course.begin E .establish).2)) := by
      simp [Connect.step, hi, hw, Connect.establish_of_not_interrupted]
    rw [hbegun]
    exact ⟨⟨_, rfl⟩, Course.proceedings_begin _ _⟩

/-! ### A consumer that is over -/

/-- A consumer that is over before the poller has decided is looked at in the next step, unless the
poller has something to do as well and is looked at first. -/
theorem step_of_over (plan : Plan) {a : Poller.Activity} {ending : Consumer.Ending}
    (hp : s.phase = .polling a) (hw : s.worker = .over ending) :
    (s.poller.step E a s.course ≠ none ∧ (E.race s.course.world).2 = true) ∨
      ∃ c', s.course.Raced E c' ∧
        step E plan s = { s with course := c' }.abandoned E plan ending := by
  have hu : s.result? = none := by rw [State.result?, hp]
  have hconsume : consume E plan s = (s, false) := by rw [consume, hw]
  -- the consumer has no more to do, so the coordinator is looked at whoever goes first
  have hstep : ∀ s', coordinate E plan s = some s' → step E plan s = s' := by
    intro s' hs'
    rw [step_of_unfinished hu, hconsume, hs']
    split <;> split at * <;> simp_all
  cases hpoller : s.poller.step E a s.course with
  | none =>
    refine .inr ⟨s.course, .refl _, hstep _ ?_⟩
    rw [coordinate, hp]
    show coordinatePolling E plan s a = _
    rw [coordinatePolling, hw, hpoller]
    rfl
  | some next =>
    cases hfirst : (E.race s.course.world).2 with
    | true => exact .inl ⟨Option.some_ne_none _, rfl⟩
    | false =>
      refine .inr ⟨(s.course.race E).1, Course.raced_race _, hstep _ ?_⟩
      rw [coordinate, hp]
      show coordinatePolling E plan s a = _
      rw [coordinatePolling, hw, hpoller]
      simp only [Course.race, hfirst, Bool.false_eq_true, if_false, ← hw, ← hp]

/-- What is done about an error of a session is carried on throughout a run. -/
theorem run_closes (hf : s.Follows plan m) (h : s.Closes cause asked) (n : Nat) :
    ∃ later, (run E plan n s).course.trace = later ++ s.course.trace ∧
      (run E plan n s).Closes cause (requests later ++ asked) := by
  refine (run_of_move (P := fun s' => (∃ m, s'.Follows plan m) ∧
    ∃ later, s'.course.trace = later ++ s.course.trace ∧
      s'.Closes cause (requests later ++ asked))
    (fun s₁ s₂ (hm : Move E plan s₁ s₂) => ?_) ⟨⟨m, hf⟩, [], rfl, h⟩ n).2
  rintro ⟨⟨m', hf'⟩, later, htrace, hcloses⟩
  obtain ⟨new, hnew⟩ := hm.reaches.extends
  have hproceeds : s₁.course.Proceeds s₂.course (Entry.proceedings new) := ⟨new, hnew, rfl⟩
  refine ⟨hm.follows hf', new ++ later, by rw [hnew.trace, htrace, List.append_assoc], ?_⟩
  have h := hm.closes hf' hproceeds hcloses
  rwa [← Entry.requests_eq, ← List.append_assoc, ← Entry.requests_append] at h

/-- **A consumer that has ended in an error is dealt with** as soon as it is looked at. -/
theorem run_of_over {a : Poller.Activity} {ending : Consumer.Ending} (hf : s.Follows plan m)
    (hp : s.phase = .polling a) (hw : s.worker = .over ending) (n : Nat) :
    (s.poller.step E a s.course ≠ none ∧ (E.race s.course.world).2 = true) ∨
      ∃ later, (run E plan (n + 1) s).course.trace = later ++ s.course.trace ∧
        (run E plan (n + 1) s).Closes (State.endingError plan ending) (requests later) := by
  refine (step_of_over plan hp hw).imp_right ?_
  rintro ⟨c', hr, hstep⟩
  have hm : Move E plan s (step E plan s) := hstep ▸ .abandoned hp hw hr
  have hclose : s.course.Proceeds (step E plan s).course [.began .close] := by
    refine hm.proceeds ?_
    rw [hstep]
    exact (proceedings_close _ _).trans (congrArg _ hr.proceedings_eq)
  obtain ⟨entries, htrace, hasked⟩ := hclose.requests_eq
  obtain ⟨m', hf'⟩ := hm.follows hf
  have hcloses : (step E plan s).Closes (State.endingError plan ending) [.close] :=
    .inl ⟨rfl, by rw [hstep]; exact ⟨_, rfl⟩⟩
  obtain ⟨later, hlater, h⟩ := run_closes (E := E) hf' hcloses n
  have hu : s.result? = none := by rw [State.result?, hp]
  have hrun : run E plan (n + 1) s = run E plan n (step E plan s) := by rw [run, hp]
  refine ⟨later ++ entries, by rw [hrun, hlater, htrace, List.append_assoc], ?_⟩
  rw [hrun, Entry.requests_append, hasked]
  exact h

end Drain

end QueueDrain
