import QueueDrain.Proofs.Conduct
import QueueDrain.Proofs.Moves

/-!
# Every run is orderly

What the trace of a run tells fits the state that the run is in: the coordinator's phase fits the
standing of the session, the consumer's rejections in flight are the unsettled deliveries, the
counters agree. Every move keeps this, so the trace of every run is orderly, whatever the
environment does.

## Main definitions

* `Conduct.Explains` — an outcome that a trace accounts for
* `Drain.Phase.Fits`, `Drain.Worker.Fits` — a phase and a consumer that a trace accounts for
* `Drain.State.Follows` — a state that its trace accounts for

## Main results

* `Drain.Move.follows` — a move leads from such a state to such a state
* `Drain.run_follows` — a run stays in such states
-/

namespace QueueDrain

variable {ω : Type} {E : Environment ω} {m : Conduct}

open Course (Tracks answer)

/-- The outcome is one that a trace accounts for. -/
def Conduct.Explains (m : Conduct) : Outcome → Prop
  | .drained => m.emptied = true
  | .interrupted => m.interrupted = true ∧ m.emptied = false

/-- What a session ended with is something that a trace accounts for. -/
def Conduct.Accounts (m : Conduct) : Except DrainError Outcome → Prop
  | .ok outcome => m.Explains outcome
  | .error _ => m.emptied = false

theorem Conduct.Explains.mono {m' : Conduct} {outcome : Outcome} (h : m.Explains outcome)
    (he : m'.emptied = m.emptied) (hi : m.interrupted = true → m'.interrupted = true) :
    m'.Explains outcome := by
  cases outcome with
  | drained => exact he.trans h
  | interrupted => exact ⟨hi h.1, he.trans h.2⟩

theorem Conduct.Accounts.mono {m' : Conduct} {ending : Except DrainError Outcome}
    (h : m.Accounts ending) (he : m'.emptied = m.emptied)
    (hi : m.interrupted = true → m'.interrupted = true) : m'.Accounts ending := by
  cases ending with
  | ok outcome => exact Explains.mono h he hi
  | error cause => exact he.trans h

/-- A run has an outcome because it was interrupted or because the queue was empty. -/
theorem Conduct.Explains.reason {outcome : Outcome} (h : m.Explains outcome) :
    m.emptied = true ∨ m.interrupted = true := by
  cases outcome with
  | drained => exact .inl h
  | interrupted => exact .inr h.1

namespace Drain

variable {plan : Plan} {s s' : State ω}

/-! ### Phases, consumers and states that a trace accounts for -/

/-- The coordinator's phase is one that a trace accounts for. -/
def Phase.Fits (m : Conduct) : Phase → Prop
  | .connecting (.backingOff _ _) => m.standing = .idle ∧ m.emptied = false
  | .connecting (.establishing _ _) => m.standing = .attempting ∧ m.emptied = false
  | .subscribing _ => m.standing = .subscribing ∧ m.emptied = false
  | .polling (.waiting _) => m.standing = .serving ∧ m.emptied = false
  | .polling (.reading _) => m.standing = .reading ∧ m.emptied = false
  | .cancelling outcome _ => m.standing = .cancelling ∧ m.Explains outcome
  | .joining outcome => m.standing = .cancelled ∧ m.Explains outcome
  | .closing ending _ => m.standing = .closing ∧ m.Accounts ending
  | .finished (.ok summary) =>
    m.standing.isOpen = false ∧ m.Explains summary.outcome ∧
      summary.reconnects = (UInt32.ofNat (m.sessions - 1)).toNat
  | .finished (.error _) => m.standing = .idle ∧ m.emptied = false

/-- The consumer is one that a trace accounts for: one at work has the unsettled deliveries in
flight, and only a mishap leaves a session without a consumer. -/
def Worker.Fits (m : Conduct) : Worker → Prop
  | .absent => m.standing.isServing = true → m.mishap = true
  | .running k => m.IsConsuming ∧ m.unsettled.Perm (k.inFlight.map Consumer.Rejection.tag)
  | .over .stopped => m.standing.isServing = true ∧ m.unsettled = []
  | .over _ => m.standing.isServing = true ∧ m.mishap = true

/-- The trace accounts for the course, the poller and the counters of a state. -/
structure State.Agrees (plan : Plan) (s : State ω) (m : Conduct) : Prop where
  course : s.course.Tracks plan.config.consumerTag m
  emptied : s.poller.done = m.emptied
  reconnects : s.reconnects = UInt32.ofNat (m.sessions - 1)
  initial : s.initialCount = none ↔ m.sessions = 0

/-- The trace accounts for a state. -/
structure State.Follows (plan : Plan) (s : State ω) (m : Conduct) : Prop
    extends s.Agrees plan m where
  phase : s.phase.Fits m
  worker : s.worker.Fits m

/-- A phase fits as long as nothing changes but what the consumer has a part in. -/
theorem Phase.Fits.mono {phase : Phase} {m' : Conduct} (h : phase.Fits m)
    (hs : m'.standing = m.standing) (he : m'.emptied = m.emptied)
    (hn : m'.sessions = m.sessions) (hi : m.interrupted = true → m'.interrupted = true) :
    phase.Fits m' := by
  match phase with
  | .connecting (.backingOff _ _) | .connecting (.establishing _ _) | .subscribing _
  | .polling (.waiting _) | .polling (.reading _) | .finished (.error _) =>
    exact ⟨hs.trans h.1, he.trans h.2⟩
  | .cancelling _ _ | .joining _ => exact ⟨hs.trans h.1, h.2.mono he hi⟩
  | .closing _ _ => exact ⟨hs.trans h.1, h.2.mono he hi⟩
  | .finished (.ok _) => exact ⟨by rw [hs]; exact h.1, h.2.1.mono he hi, by rw [hn]; exact h.2.2⟩

/-- A consumer fits as long as nothing changes but the coordinator's part in the session. -/
theorem Worker.Fits.congr {worker : Worker} {m' : Conduct} (h : worker.Fits m)
    (hs : m'.standing.isServing = m.standing.isServing) (hu : m'.unsettled = m.unsettled)
    (hm : m'.mishap = m.mishap) : worker.Fits m' := by
  match worker with
  | .absent => simpa only [Fits, hs, hm] using h
  | .running k => simpa only [Fits, Conduct.IsConsuming, hs, hu, hm] using h
  | .over .stopped => simpa only [Fits, hs, hu] using h
  | .over (.failed _) | .over (.panicked _) => simpa only [Fits, hs, hm] using h

/-- While there is nothing to consume there is no consumer. -/
theorem Worker.Fits.eq_absent {worker : Worker} (h : worker.Fits m)
    (hs : m.standing.isServing = false) : worker = .absent := by
  match worker with
  | .absent => rfl
  | .running k => exact absurd (h.1.1.symm.trans hs) (by simp)
  | .over .stopped => exact absurd (h.1.symm.trans hs) (by simp)
  | .over (.failed _) | .over (.panicked _) => exact absurd (h.1.symm.trans hs) (by simp)

theorem Worker.fits_absent (hs : m.standing.isServing = false) : Worker.absent.Fits m :=
  fun h => absurd (h.symm.trans hs) (by simp)

/-- A consumer that was stopped in its tracks, or was over before, fits a mishap. -/
theorem Worker.Fits.abort {worker : Worker} {m' : Conduct} (h : worker.Fits m)
    (hs : m'.standing.isServing = m.standing.isServing) (hu : m'.unsettled = m.unsettled)
    (hm : m'.mishap = true) : worker.abort.Fits m' := by
  match worker with
  | .absent | .running k => exact fun _ => hm
  | .over .stopped => exact ⟨hs.trans h.1, hu.trans h.2⟩
  | .over (.failed _) | .over (.panicked _) => exact ⟨hs.trans h.1, hm⟩

/-- A consumer that is over after a cancellation has settled everything, or failed. -/
theorem Worker.Fits.mayClose {worker : Worker} (h : worker.Fits m) (hs : m.standing = .cancelled)
    (hw : ∀ k, worker ≠ .running k) : m.MayClose := by
  refine .inr (.inr (.inr ⟨hs, ?_⟩))
  match worker with
  | .absent => exact .inl (h (by rw [hs]; rfl))
  | .running k => exact absurd rfl (hw k)
  | .over .stopped => exact .inr h.2
  | .over (.failed _) | .over (.panicked _) => exact .inl h.2

/-- A run that is over has no session. -/
theorem State.Follows.isOpen_of_result {result : Except DrainError Summary} (h : s.Follows plan m)
    (hr : s.result? = some result) : m.standing.isOpen = false := by
  have hphase := h.phase
  rw [phase_of_result? hr] at hphase
  cases result with
  | ok summary => exact hphase.1
  | error cause => rw [hphase.1]; rfl

/-! ### The operations of the coordinator -/

theorem State.Agrees.close {ending : Except DrainError Outcome} (h : s.Agrees plan m)
    (hw : s.worker = .absent) (hc : m.MayClose) (he : m.Accounts ending) :
    ∃ m', (s.close E ending).Follows plan m' := by
  obtain ⟨b, hb⟩ := h.course.begin (E := E) (r := .close) hc
  exact ⟨_, ⟨hb, h.emptied, h.reconnects, h.initial⟩,
    ⟨rfl, he.mono rfl fun hi => by simp [Conduct.after, hi]⟩,
    hw ▸ Worker.fits_absent rfl⟩

theorem State.Agrees.cancel {outcome : Outcome} (h : s.Agrees plan m) (hw : s.worker.Fits m)
    (hs : m.standing = .serving) (ho : m.Explains outcome) :
    ∃ m', (s.cancel E plan outcome).Follows plan m' := by
  obtain ⟨b, hb⟩ := h.course.begin (E := E) (r := .cancel plan.config.consumerTag)
    ⟨rfl, hs, ho.reason⟩
  exact ⟨_, ⟨hb, h.emptied, h.reconnects, h.initial⟩,
    ⟨rfl, ho.mono rfl fun hi => by simp [Conduct.after, hi]⟩,
    hw.congr (by rw [hs]; rfl) rfl rfl⟩

theorem State.Agrees.report {outcome : Outcome} (h : s.Agrees plan m) (hw : s.worker.Fits m)
    (hs : m.standing.isOpen = false) (ho : m.Explains outcome) :
    (s.report plan outcome).Follows plan m :=
  ⟨⟨h.course.tell _, h.emptied, h.reconnects, h.initial⟩,
    ⟨hs, ho, congrArg UInt32.toNat h.reconnects⟩, hw⟩

theorem State.Agrees.giveUp (h : s.Agrees plan m) (hw : s.worker.Fits m)
    (hs : m.standing.isOpen = false) (ho : m.Explains .interrupted) :
    (s.giveUp plan).Follows plan m := by
  rw [State.giveUp]
  split
  · exact State.Agrees.report ⟨h.course.tell _, h.emptied, h.reconnects, h.initial⟩ hw hs ho
  · exact h.report hw hs ho

theorem State.Agrees.openSession (h : s.Agrees plan m) (hw : s.worker = .absent)
    (hs : m.standing = .opened) (he : m.emptied = false) :
    ∃ m', (s.openSession E plan).Follows plan m' := by
  rw [State.openSession]
  have hi := h.course.interrupted
  split
  next hint => exact h.close hw (.inl ⟨hs, hi ▸ hint⟩) ⟨hi ▸ hint, he⟩
  next hint =>
    obtain ⟨b, hb⟩ := h.course.begin (E := E) (r := .subscribe plan.config.consumerTag)
      ⟨rfl, hs, by simpa [hi] using hint⟩
    exact ⟨_, ⟨hb, h.emptied, h.reconnects, h.initial⟩, ⟨rfl, he⟩, hw ▸ Worker.fits_absent rfl⟩

/-- A session that is there is counted once. -/
theorem agrees_welcome {m' : Conduct} (declared : Nat)
    (hc : s.course.Tracks plan.config.consumerTag m') (he : s.poller.done = m'.emptied)
    (hr : s.reconnects = UInt32.ofNat (m.sessions - 1))
    (hi : s.initialCount = none ↔ m.sessions = 0) (hs : m'.sessions = m.sessions + 1) :
    (s.welcome plan declared).Agrees plan m' := by
  rw [State.welcome]
  split
  next hnone =>
    have hzero := hi.mp hnone
    exact ⟨hc.tell _, he, by rw [hs, hr, hzero], by simp [hs]⟩
  next hsome =>
    have hpos : m.sessions ≠ 0 := fun h => by simp [hi.mpr h] at hsome
    refine ⟨hc, he, ?_, by simp [hs, hsome]⟩
    show s.reconnects + 1 = UInt32.ofNat (m'.sessions - 1)
    rw [hr, hs, Nat.add_sub_cancel, ← Nat.sub_one_add_one hpos, UInt32.ofNat_add]
    rfl

/-- The poller is entered: it waits, or it is over at once. -/
theorem State.Agrees.enter (h : s.Agrees plan m) (hw : s.worker.Fits m)
    (hs : m.standing = .serving) :
    ∃ m', (s.polled E plan (s.poller.enter s.course)).Follows plan m' := by
  rw [Poller.enter]
  cases hd : s.poller.done with
  | true =>
    rw [if_pos rfl]
    exact h.cancel hw hs (show m.emptied = true from h.emptied ▸ hd)
  | false =>
    rw [if_neg Bool.false_ne_true]
    exact ⟨m, ⟨h.course, h.emptied, h.reconnects, h.initial⟩, ⟨hs, h.emptied ▸ hd⟩, hw⟩

/-! ### Every move -/

theorem follows_connecting {a a' : Connect.Activity} {c' : Course ω} (h : s.Follows plan m)
    (hp : s.phase = .connecting a)
    (hm : Connect.Move E plan.config.reconnectPolicy plan.endpoint s.course a c' (.ongoing a')) :
    ∃ m', { s with course := c', phase := .connecting a' : State ω }.Follows plan m' := by
  have hphase := h.phase
  rw [hp] at hphase
  cases hm with
  | began hw hi =>
    obtain ⟨b, hb⟩ := h.course.begin (E := E) (r := .establish)
      ⟨hphase.1, h.course.interrupted ▸ hi, hphase.2⟩
    have habsent := h.worker.eq_absent (by rw [hphase.1]; rfl)
    exact ⟨_, ⟨hb, h.emptied, h.reconnects, h.initial⟩, ⟨rfl, hphase.2⟩,
      habsent ▸ Worker.fits_absent rfl⟩
  | retried hi hf ht =>
    obtain ⟨b, hb⟩ := h.course.finish hf hphase.1
    have habsent := h.worker.eq_absent (by rw [hphase.1]; rfl)
    exact ⟨_, ⟨(hb.tell _).tell _, h.emptied, h.reconnects, h.initial⟩, ⟨rfl, hphase.2⟩,
      habsent ▸ Worker.fits_absent rfl⟩

theorem follows_connected {a : Connect.Activity} {c' : Course ω} {result : Connect.Result}
    (h : s.Follows plan m) (hp : s.phase = .connecting a)
    (hm : Connect.Move E plan.config.reconnectPolicy plan.endpoint s.course a c' (.over result)) :
    ∃ m', ({ s with course := c' }.established E plan result).Follows plan m' := by
  have hphase := h.phase
  rw [hp] at hphase
  have hidle : m.standing.isOpen = false ∧ m.emptied = false := by
    match a with
    | .backingOff _ _ | .establishing _ _ => exact ⟨by rw [hphase.1]; rfl, hphase.2⟩
  have habsent : s.worker = .absent :=
    h.worker.eq_absent <| Bool.eq_false_iff.mpr fun hserving =>
      absurd (hidle.1.symm.trans (Standing.isOpen_of_isServing hserving)) (by simp)
  -- a session is open: it is counted and opened
  have hopened : ∀ {c₁ : Course ω} {m₁ : Conduct} (declared : Nat),
      c₁.Tracks plan.config.consumerTag m₁ → m₁.standing = .opened → m₁.emptied = false →
      m₁.sessions = m.sessions + 1 →
      ∃ m', (({ s with course := c₁ }.welcome plan declared).openSession E plan).Follows
        plan m' := by
    intro c₁ m₁ declared ht hs he hn
    have hw := agrees_welcome (s := { s with course := c₁ }) declared ht
      (by rw [h.emptied, he, hidle.2]) h.reconnects h.initial hn
    refine hw.openSession ?_ hs he
    rw [State.welcome]
    split
    · exact habsent
    · exact habsent
  cases hm with
  | overtaken hi hr =>
    exact ⟨m, State.Agrees.giveUp ⟨h.course.raced hr, h.emptied, h.reconnects, h.initial⟩ h.worker
      hidle.1 ⟨h.course.interrupted ▸ hi, hidle.2⟩⟩
  | opened hi hf =>
    obtain ⟨b, hb⟩ := h.course.finish hf hphase.1
    exact hopened _ hb rfl hphase.2 rfl
  | reopened hi hf =>
    obtain ⟨b, hb⟩ := h.course.finish hf hphase.1
    exact hopened _ (hb.tell _) rfl hphase.2 rfl
  | failed hi hf hlast =>
    obtain ⟨b, hb⟩ := h.course.finish hf hphase.1
    exact ⟨_, ⟨hb, h.emptied, h.reconnects, h.initial⟩, ⟨rfl, hphase.2⟩,
      habsent ▸ Worker.fits_absent rfl⟩

theorem follows_polled {a : Poller.Activity} {c₀ c' : Course ω} {p' : Poller}
    {stage : Stage Poller.Activity Poller.Result} (h : s.Follows plan m)
    (hp : s.phase = .polling a) (hr : s.course.Raced E c₀)
    (hm : Poller.Move E s.poller c₀ a c' p' stage) :
    ∃ m', ({ s with course := c', poller := p' }.polled E plan stage).Follows plan m' := by
  have hphase := h.phase
  rw [hp] at hphase
  have hc₀ := h.course.raced hr
  cases hm with
  | interrupted hi hr' =>
    exact State.Agrees.cancel ⟨hc₀.raced hr', h.emptied, h.reconnects, h.initial⟩ h.worker hphase.1
      ⟨hc₀.interrupted ▸ hi, hphase.2⟩
  | began hw hr' =>
    obtain ⟨b, hb⟩ := (hc₀.raced hr').begin (E := E) (r := .depth) hphase
    exact ⟨_, ⟨hb, h.emptied, h.reconnects, h.initial⟩, ⟨rfl, hphase.2⟩,
      h.worker.congr (by rw [hphase.1]; rfl) rfl rfl⟩
  | @recorded _ _ count hd hf =>
    obtain ⟨b, hb⟩ := hc₀.finish hf hphase.1
    exact State.Agrees.enter
      (s := { s with
        course := _
        poller := s.poller.record count })
      ⟨hb.tell _, rfl, h.reconnects, h.initial⟩ (h.worker.congr (by rw [hphase.1]; rfl) rfl rfl) rfl
  | @failed _ _ cause hd hf =>
    obtain ⟨b, hb⟩ := hc₀.finish hf hphase.1
    exact State.Agrees.close (s := { s with course := c', worker := .absent })
      ⟨hb, h.emptied, h.reconnects, h.initial⟩ rfl
      (.inr (.inr (.inl ⟨.inl rfl, hphase.2⟩))) hphase.2

/-- A rejection off the flight is its delivery off the unsettled ones. -/
theorem perm_erase_tag {tags : List Nat} {flight : List Consumer.Rejection} {r : Consumer.Rejection}
    (h : tags.Perm (flight.map Consumer.Rejection.tag)) (hr : r ∈ flight) :
    (tags.erase r.tag).Perm ((flight.erase r).map Consumer.Rejection.tag) := by
  have hflight := (List.perm_cons_erase hr).map Consumer.Rejection.tag
  simpa using (h.trans hflight).erase r.tag

theorem follows_consumer {k : Consumer} {c' : Course ω} {stage : Stage Consumer Consumer.Ending}
    (h : s.Follows plan m) (hw : s.worker = .running k)
    (hm : Consumer.Move E plan.config.queueName k s.course c' stage) :
    ∃ m', { s with course := c', worker := .ofStage stage : State ω }.Follows plan m' := by
  have hworker := h.worker
  rw [hw] at hworker
  obtain ⟨hk, hperm⟩ := hworker
  -- whatever becomes of the deliveries, the coordinator's phase still fits
  have hkeep : ∀ {m₁ : Conduct}, c'.Tracks plan.config.consumerTag m₁ →
      m₁.standing = m.standing → m₁.emptied = m.emptied → m₁.sessions = m.sessions →
      (m.interrupted = true → m₁.interrupted = true) → (Worker.ofStage stage).Fits m₁ →
      ∃ m', { s with course := c', worker := .ofStage stage : State ω }.Follows plan m' := by
    intro m₁ ht hs he hn hi hfits
    exact ⟨m₁, ⟨ht, h.emptied.trans he.symm, by rw [hn]; exact h.reconnects,
      by rw [hn]; exact h.initial⟩, h.phase.mono hs he hn hi, hfits⟩
  cases hm with
  | delivered ho hr ha =>
    obtain ⟨b, hb⟩ := h.course.ask hk ha
    obtain ⟨b', hb'⟩ := hb.startReject (E := E)
    refine hkeep hb' rfl rfl rfl (fun hi => ?_) ⟨hk, ?_⟩
    · simp [Offer.event?, Conduct.after, hi]
    · simpa [Offer.event?, Conduct.after] using hperm.append_right _
  | waiting ho hr ha =>
    obtain ⟨b, hb⟩ := h.course.ask hk ha
    exact hkeep hb rfl rfl rfl (fun hi => by simp [Offer.event?, hi]) ⟨hk, hperm⟩
  | streamOver ho hr ha hover =>
    obtain ⟨b, hb⟩ := h.course.ask hk ha
    have hb' : c'.Tracks plan.config.consumerTag (m.interruptIf b) := by
      rcases hover with rfl | rfl
      · exact hb
      · exact hb
    exact hkeep hb' rfl rfl rfl (fun hi => by simp [hi]) ⟨hk, hperm⟩
  | streamFailed ho hr ha =>
    obtain ⟨b, hb⟩ := h.course.ask hk ha
    exact hkeep hb rfl rfl rfl (fun hi => by simp [Offer.event?, Conduct.after, hi]) ⟨hk.1, rfl⟩
  | streamPanicked ho hr ha =>
    obtain ⟨b, hb⟩ := h.course.ask hk ha
    exact hkeep hb rfl rfl rfl (fun hi => by simp [Offer.event?, Conduct.after, hi]) ⟨hk.1, rfl⟩
  | @rejected r _ hr hd hf =>
    have hmem : r.tag ∈ m.unsettled := hperm.mem_iff.mpr (List.mem_map_of_mem hr)
    obtain ⟨b, hb⟩ := h.course.finishReject hk hmem hf
    exact hkeep hb rfl rfl rfl (fun hi => by simp [Settlement.event, Conduct.after, hi])
      ⟨hk, perm_erase_tag hperm hr⟩
  | @rejectFailed r _ _ hr hd hf =>
    have hmem : r.tag ∈ m.unsettled := hperm.mem_iff.mpr (List.mem_map_of_mem hr)
    obtain ⟨b, hb⟩ := h.course.finishReject hk hmem hf
    exact hkeep hb rfl rfl rfl (fun hi => by simp [Settlement.event, Conduct.after, hi])
      ⟨hk.1, rfl⟩
  | @rejectPanicked r _ _ hr hd hf =>
    have hmem : r.tag ∈ m.unsettled := hperm.mem_iff.mpr (List.mem_map_of_mem hr)
    obtain ⟨b, hb⟩ := h.course.finishReject hk hmem hf
    exact hkeep hb rfl rfl rfl (fun hi => by simp [Settlement.event, Conduct.after, hi])
      ⟨hk.1, rfl⟩
  | stopped he ho =>
    rw [he] at hperm
    exact hkeep (h.course.tell _) rfl rfl rfl id ⟨hk.1, hperm.eq_nil⟩

theorem follows_closed {ending : Except DrainError Outcome} (h : s.Agrees plan m)
    (hw : s.worker = .absent) (hs : m.standing = .closing) (he : m.Accounts ending) :
    ∃ m', ({ s with course := (s.course.finish E .close).1 }.closed plan ending).Follows
      plan m' := by
  rcases hf : s.course.finish E .close with ⟨c', value⟩
  -- whatever the answer is, the session is gone
  obtain ⟨m', hc', hidle, he', hn, hi⟩ : ∃ m', c'.Tracks plan.config.consumerTag m' ∧
      m'.standing = .idle ∧ m'.emptied = m.emptied ∧ m'.sessions = m.sessions ∧
      (m.interrupted = true → m'.interrupted = true) := by
    cases value with
    | ok count =>
      obtain ⟨b, hb⟩ := h.course.finish hf hs
      exact ⟨_, hb, rfl, rfl, rfl, fun hi => by simp [Course.answer, Conduct.after, hi]⟩
    | error cause =>
      obtain ⟨b, hb⟩ := h.course.finish hf hs
      exact ⟨_, hb, rfl, rfl, rfl, fun hi => by simp [Course.answer, Conduct.after, hi]⟩
  have hagrees : { s with course := c' : State ω }.Agrees plan m' :=
    ⟨hc', h.emptied.trans he'.symm, by rw [hn]; exact h.reconnects, by rw [hn]; exact h.initial⟩
  have hw' : Worker.absent.Fits m' := Worker.fits_absent (by rw [hidle]; rfl)
  refine ⟨m', ?_⟩
  cases ending with
  | ok outcome =>
    exact hagrees.report (hw ▸ hw') (by rw [hidle]; rfl) (Conduct.Explains.mono he he' hi)
  | error cause =>
    have hnot : m'.emptied = false := he'.trans he
    rw [State.closed]
    split
    · exact ⟨⟨(hc'.tell _).tell _, hagrees.emptied, hagrees.reconnects, hagrees.initial⟩,
        ⟨hidle, hnot⟩, hw ▸ hw'⟩
    · exact ⟨⟨hc', hagrees.emptied, hagrees.reconnects, hagrees.initial⟩, ⟨hidle, hnot⟩, hw ▸ hw'⟩

/-- **A move leads from a state that its trace accounts for to another one.** -/
theorem Move.follows (hm : Move E plan s s') (h : s.Follows plan m) :
    ∃ m', s'.Follows plan m' := by
  have hphase := h.phase
  cases hm with
  | connecting hp hm => exact follows_connecting h hp hm
  | connected hp hm => exact follows_connected h hp hm
  | subscribeFailed hp hd hf =>
    rw [hp] at hphase
    obtain ⟨b, hb⟩ := h.course.finish hf ⟨rfl, hphase.1⟩
    exact State.Agrees.close ⟨hb, h.emptied, h.reconnects, h.initial⟩
      (h.worker.eq_absent (by rw [hphase.1]; rfl)) (.inr (.inl rfl)) hphase.2
  | subscribed hp hd hf =>
    rw [hp] at hphase
    have hfresh := h.course.fresh (.inr hphase.1)
    obtain ⟨b, hb⟩ := h.course.finish hf ⟨rfl, hphase.1⟩
    refine State.Agrees.enter (s := { s with course := _, worker := .running _ })
      ⟨hb, h.emptied, h.reconnects, h.initial⟩ ⟨⟨rfl, hfresh.2⟩, ?_⟩ rfl
    exact .of_eq hfresh.1
  | polled hp hr hm => exact follows_polled h hp hr hm
  | @abandoned a _ _ hp hw hr =>
    rw [hp] at hphase
    have hserved : (m.standing = .serving ∨ m.standing = .reading) ∧ m.emptied = false := by
      match a with
      | .waiting _ => exact ⟨.inl hphase.1, hphase.2⟩
      | .reading _ => exact ⟨.inr hphase.1, hphase.2⟩
    exact State.Agrees.close ⟨h.course.raced hr, h.emptied, h.reconnects, h.initial⟩ rfl
      (.inr (.inr (.inl hserved))) hserved.2
  | cancelled hp hd hf =>
    rw [hp] at hphase
    obtain ⟨b, hb⟩ := h.course.finish hf ⟨rfl, hphase.1⟩
    exact ⟨_, ⟨hb, h.emptied, h.reconnects, h.initial⟩,
      ⟨rfl, hphase.2.mono rfl fun hi => by simp [Course.answer, Conduct.after, hi]⟩,
      h.worker.congr (by rw [hphase.1]; rfl) rfl rfl⟩
  | cancelFailed hp hd hf =>
    rw [hp] at hphase
    obtain ⟨b, hb⟩ := h.course.finish hf ⟨rfl, hphase.1⟩
    exact ⟨_, ⟨hb.tell _, h.emptied, h.reconnects, h.initial⟩,
      ⟨rfl, hphase.2.mono rfl fun hi => by simp [Course.answer, Conduct.after, hi]⟩,
      h.worker.abort (by rw [hphase.1]; rfl) rfl rfl⟩
  | unjoined hp hw =>
    rw [hp] at hphase
    exact h.toAgrees.close hw (h.worker.mayClose hphase.1 (by rw [hw]; simp)) hphase.2
  | @joined outcome ending hp hw =>
    rw [hp] at hphase
    have hclose := h.worker.mayClose hphase.1 (by rw [hw]; simp)
    refine State.Agrees.close ⟨?_, h.emptied, h.reconnects, h.initial⟩ rfl hclose hphase.2
    cases ending with
    | stopped => exact h.course
    | failed cause => exact h.course.tell _
    | panicked text => exact h.course.tell _
  | closed hp hd =>
    rw [hp] at hphase
    exact follows_closed h.toAgrees (h.worker.eq_absent (by rw [hphase.1]; rfl)) hphase.1 hphase.2
  | consumer hu hw hm => exact follows_consumer h hw hm
  | time hu hidle =>
    obtain ⟨b, hb⟩ := h.course.advance (E := E) (wakes s)
    exact ⟨_, ⟨hb, h.emptied, h.reconnects, h.initial⟩,
      h.phase.mono rfl rfl rfl fun hi => by simp [hi], h.worker.congr rfl rfl rfl⟩

/-! ### Every run -/

/-- A course before a run: nothing has happened but an interrupt that came early. -/
theorem tracks_opening (tag : String) (now : Nat) (world : ω) (rejected : UInt64)
    (interrupted : Bool) :
    (Course.opening now world rejected interrupted).Tracks tag { interrupted } := by
  cases interrupted with
  | true => exact ⟨⟨rfl, trivial⟩, rfl, rfl⟩
  | false => exact ⟨trivial, rfl, rfl⟩

theorem start_follows {c : Course ω} {interrupted : Bool}
    (h : c.Tracks plan.config.consumerTag { interrupted }) :
    ∃ m', (start E plan c).Follows plan m' := by
  have hagrees : (untouched plan c).Agrees plan { interrupted } :=
    ⟨h.tell _, rfl, rfl, by simp [untouched]⟩
  cases hi : c.interrupted with
  | true =>
    rw [start_of_interrupted hi]
    exact ⟨_, hagrees.giveUp (Worker.fits_absent rfl) rfl ⟨h.interrupted ▸ hi, rfl⟩⟩
  | false =>
    rw [start_of_not_interrupted hi]
    obtain ⟨b, hb⟩ := hagrees.course.begin (E := E) (r := .establish)
      ⟨rfl, h.interrupted ▸ hi, rfl⟩
    exact ⟨_, ⟨hb, hagrees.emptied, hagrees.reconnects, hagrees.initial⟩, ⟨rfl, rfl⟩,
      Worker.fits_absent rfl⟩

/-- **A run stays in states that its trace accounts for.** -/
theorem run_follows (E : Environment ω) (plan : Plan) (now : Nat) (world : ω) (rejected : UInt64)
    (interrupted : Bool) (n : Nat) :
    let s := run E plan n (start E plan (.opening now world rejected interrupted))
    s.Follows plan (Conduct.of s.course.trace) := by
  intro s
  obtain ⟨m, h⟩ : ∃ m, s.Follows plan m :=
    run_of_move (P := fun s => ∃ m, s.Follows plan m) (fun _ _ hm ⟨_, h⟩ => hm.follows h)
      (start_follows (tracks_opening _ _ _ _ _)) n
  rw [h.course.conduct]
  exact h

/-- The trace of every run is orderly. -/
theorem run_orderly (E : Environment ω) (plan : Plan) (now : Nat) (world : ω) (rejected : UInt64)
    (interrupted : Bool) (n : Nat) :
    QueueDrain.Orderly plan.config.consumerTag
      (run E plan n (start E plan (.opening now world rejected interrupted))).course.trace :=
  (run_follows E plan now world rejected interrupted n).course.orderly

end Drain

end QueueDrain
