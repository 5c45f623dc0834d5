import QueueDrain.Proofs.Conservation

/-!
# Where nothing fails

A broker may have worlds in which nothing goes wrong: every request is answered without a failure,
whatever is ready is delivered when the stream is asked, rejections take their time and succeed,
nothing arrives and nobody interrupts. Nothing leads out of these worlds, and what every operation
gives and enters there is known. How long the answers and the rejections take is not.

## Main definitions

* `Offer.Fulfils` — what a stream gives that holds nothing back
* `Broker.Faultless` — the worlds of a broker in which nothing fails
* `Broker.Faultless.Calm` — a course in such a world
* `Scenario.Succeeds` — a script in which everything succeeds

## Main results

* `Broker.Faultless.Calm.finish`, `Broker.Faultless.Calm.ask`, … — what the operations on a course
  give and leave there
* `Scenario.faultless` — the worlds of a script in which everything succeeds
-/

namespace QueueDrain

/-- Whether deliveries are served after a request that succeeds. -/
def Request.serves : Request → Bool → Bool
  | .subscribe _, _ => true
  | .depth, serving => serving
  | _, _ => false

/-- What a stream gives that holds nothing back: a delivery if a message is ready, and otherwise
nothing yet, as long as deliveries are served. -/
def Offer.Fulfils (now : Nat) (serving : Bool) (ready : Nat) : Offer → Prop
  | .delivery _ => serving = true ∧ 0 < ready
  | .wait wake => serving = true ∧ ready = 0 ∧ ∀ t, wake = some t → now < t
  | .cancelled => serving = false
  | _ => False

variable {ω α : Type} {E : Environment ω} {B : Broker E}

/-- An effect that brings no interrupt and no message, and keeps to a set of worlds. -/
structure Broker.Harmless (B : Broker E) (sound : ω → Prop) (serving : ω → Bool) (w : ω)
    (served : Bool) (effect : Effect ω α) : Prop where
  uninterrupted : effect.interrupts = false
  sound : sound effect.state
  serving : serving effect.state = served
  arrived : (B.ledger effect.state).arrived = (B.ledger w).arrived

/-- The worlds of a broker in which nothing fails, and whether deliveries are served in them. -/
structure Broker.Faultless (B : Broker E) where
  sound : ω → Prop
  serving : ω → Bool
  candid : B.Candid
  /-- Nothing changes without being asked. -/
  nextChange : ∀ w, sound w → E.nextChange w = none
  pass : ∀ t w, sound w → B.Harmless sound serving w (serving w) (E.pass t w)
  start : ∀ t r w, sound w → B.Harmless sound serving w (serving w) (E.start t r w)
  /-- Every request is answered at some time. -/
  start_due : ∀ t r w, sound w → (E.start t r w).value ≠ none
  answer : ∀ t r w, sound w → B.Harmless sound serving w (r.serves (serving w)) (E.answer t r w)
  answer_ok : ∀ t r w, sound w → ∃ count, (E.answer t r w).value = .ok count
  ask : ∀ t w, sound w → B.Harmless sound serving w (serving w) (E.ask t w)
  ask_fulfils : ∀ t w, sound w →
    (E.ask t w).value.Fulfils t (serving w) (B.ledger w).ready
  startReject : ∀ t tag w, sound w → B.Harmless sound serving w (serving w) (E.startReject t tag w)
  /-- A rejection takes some time, and not for ever. -/
  startReject_due : ∀ t tag w, sound w → ∃ due, (E.startReject t tag w).value = some due ∧ t < due
  finishReject : ∀ t tag w, sound w →
    B.Harmless sound serving w (serving w) (E.finishReject t tag w)
  finishReject_done : ∀ t tag w, sound w → (E.finishReject t tag w).value = .done
  race : ∀ w, sound w →
    sound (E.race w).1 ∧ serving (E.race w).1 = serving w ∧
      (B.ledger (E.race w).1).arrived = (B.ledger w).arrived

namespace Broker.Faultless

variable {F : B.Faultless} {c c' : Course ω} {l l' : Ledger} {b b' : Bool}

/-- A course in a world in which nothing fails, its ledger, and whether deliveries are served. -/
structure Calm (F : B.Faultless) (c : Course ω) (l : Ledger) (b : Bool) : Prop where
  sound : F.sound c.world
  interrupted : c.interrupted = false
  ledger : B.ledger c.world = l
  serving : F.serving c.world = b

/-- Where nothing has arrived, nothing was entered ahead. -/
theorem arrive_eq {n : Nat} (h : (l.arrive n).arrived = l.arrived) : l.arrive n = l := by
  have hn : n = 0 := by
    rw [Ledger.arrive_arrived] at h
    omega
  rw [hn, Ledger.arrive_zero]

theorem post_arrive_eq {n : Nat} {e : Event} (h : ((l.arrive n).post e).arrived = l.arrived) :
    (l.arrive n).post e = l.post e := by
  rw [Ledger.post_arrived] at h
  rw [arrive_eq h]

theorem Calm.note (h : F.Calm c l b) (e : Event) : F.Calm (c.note e) l b :=
  ⟨h.sound, h.interrupted, h.ledger, h.serving⟩

theorem Calm.tell (h : F.Calm c l b) (line : Notice) : F.Calm (c.tell line) l b := h.note _

theorem Calm.absorb {effect : Effect ω α} (h : F.Calm c l b)
    (he : B.Harmless F.sound F.serving c.world b' effect) (hl : B.ledger effect.state = l') :
    F.Calm (c.absorb effect) l' b' where
  sound := by rw [Course.absorb_world]; exact he.sound
  interrupted := by rw [Course.absorb_interrupted, h.interrupted, he.uninterrupted]; rfl
  ledger := by rw [Course.absorb_world]; exact hl
  serving := by rw [Course.absorb_world]; exact he.serving

/-- An effect that enters nothing. -/
theorem Calm.absorb_idle {effect : Effect ω α} (h : F.Calm c l b)
    (he : B.Harmless F.sound F.serving c.world (F.serving c.world) effect)
    (hl : ∃ n, B.ledger effect.state = (B.ledger c.world).arrive n) :
    F.Calm (c.absorb effect) l b := by
  obtain ⟨n, hn⟩ := hl
  have harrived := he.arrived
  rw [hn] at harrived
  rw [arrive_eq harrived, h.ledger] at hn
  exact h.absorb (h.serving ▸ he) hn

theorem Calm.begin (h : F.Calm c l b) (r : Request) : F.Calm (c.begin E r).1 l b :=
  (h.note (.began r)).absorb_idle (F.start _ _ _ h.sound) (B.start _ _ _)

/-- The answer to a request comes at some time. -/
theorem Calm.begin_due (h : F.Calm c l b) (r : Request) : (c.begin E r).2 ≠ none :=
  F.start_due _ _ _ h.sound

/-- A request is answered, and the answer is no failure. -/
theorem Calm.finish {r : Request} {value : Except DrainError Nat} (h : F.Calm c l b)
    (hf : c.finish E r = (c', value)) :
    ∃ count, value = .ok count ∧ F.Calm c' (l.post (.answered r count)) (r.serves b) := by
  obtain ⟨count, hcount⟩ := F.answer_ok c.now r c.world h.sound
  have he := F.answer c.now r c.world h.sound
  obtain ⟨n, hn⟩ := B.answer c.now r c.world
  have harrived := he.arrived
  rw [hn] at harrived
  rw [post_arrive_eq harrived, h.ledger, hcount] at hn
  rw [Course.finish_eq] at hf
  obtain ⟨rfl, rfl⟩ := Prod.mk.inj hf
  exact ⟨count, hcount, (h.absorb (h.serving ▸ he) hn).note _⟩

/-- A depth reading is answered with the number of ready messages. -/
theorem Calm.finish_depth {count : Nat} (h : F.Calm c l b)
    (hf : c.finish E .depth = (c', .ok count)) : F.Calm c' l b ∧ count = l.ready := by
  obtain ⟨count', hcount, hc⟩ := h.finish hf
  refine ⟨hc, ?_⟩
  rw [Course.finish_eq] at hf
  obtain ⟨rfl, hvalue⟩ := Prod.mk.inj hf
  have hshown := F.candid _ _ _ hvalue
  have hledger := hc.ledger
  rw [Course.note_world, Course.absorb_world] at hledger
  rw [hledger] at hshown
  exact hshown

/-- The stream gives what is ready, and the end of it only when it is cancelled. -/
theorem Calm.ask {offer : Offer} (h : F.Calm c l b) (ha : c.ask E = (c', offer)) :
    offer.Fulfils c.now b l.ready ∧ F.Calm c' (offer.event?.elim l l.post) b := by
  have he := F.ask c.now c.world h.sound
  have hfulfils := F.ask_fulfils c.now c.world h.sound
  obtain ⟨n, hn⟩ := B.ask c.now c.world
  obtain ⟨rfl, rfl⟩ := Prod.mk.inj ha
  have harrived := he.arrived
  rw [h.serving, h.ledger] at hfulfils
  refine ⟨hfulfils, ?_⟩
  rw [Offer.Enters] at hn
  cases hv : (E.ask c.now c.world).value.event? with
  | none =>
    simp only [hv] at hn
    rw [hn] at harrived
    rw [arrive_eq harrived, h.ledger] at hn
    exact h.absorb (h.serving ▸ he) hn
  | some e =>
    simp only [hv] at hn
    obtain ⟨-, hn⟩ := hn
    rw [hn] at harrived
    rw [post_arrive_eq harrived, h.ledger] at hn
    exact (h.absorb (h.serving ▸ he) hn).note e

theorem Calm.startReject (h : F.Calm c l b) (tag : Nat) : F.Calm (c.startReject E tag).1 l b :=
  h.absorb_idle (F.startReject _ _ _ h.sound) (B.startReject _ _ _)

/-- A rejection is over at some later time. -/
theorem Calm.startReject_due (h : F.Calm c l b) (tag : Nat) :
    ∃ due, (c.startReject E tag).2 = some due ∧ c.now < due :=
  F.startReject_due _ _ _ h.sound

/-- A rejection succeeds. -/
theorem Calm.finishReject {tag : Nat} {settlement : Settlement} (h : F.Calm c l b)
    (hf : c.finishReject E tag = (c', settlement)) :
    settlement = .done ∧ F.Calm c' (l.post (.rejected tag)) b := by
  have he := F.finishReject c.now tag c.world h.sound
  have hdone := F.finishReject_done c.now tag c.world h.sound
  obtain ⟨n, hn⟩ := B.finishReject c.now tag c.world
  have harrived := he.arrived
  rw [hn] at harrived
  rw [post_arrive_eq harrived, h.ledger, hdone] at hn
  obtain ⟨rfl, rfl⟩ := Prod.mk.inj hf
  refine ⟨hdone, Calm.note ?_ _⟩
  have hc := h.absorb (h.serving ▸ he) hn
  rw [if_pos hdone]
  exact ⟨hc.sound, hc.interrupted, hc.ledger, hc.serving⟩

theorem Calm.raced (h : F.Calm c l b) (hr : c.Raced E c') : F.Calm c' l b := by
  induction hr with
  | refl => exact h
  | tail _ hlast ih =>
    subst hlast
    obtain ⟨hsound, hserving, harrived⟩ := F.race _ ih.sound
    obtain ⟨n, hn⟩ := B.race _
    rw [hn] at harrived
    rw [arrive_eq harrived] at hn
    exact ⟨hsound, ih.interrupted, hn.trans ih.ledger, hserving.trans ih.serving⟩

/-- Time passes up to the earliest instant at which something is due. -/
theorem Calm.advance (h : F.Calm c l b) (wakes : List (Option Nat)) :
    F.Calm (c.advance E wakes) l b := by
  rcases c.advance_eq_or (E := E) wakes with heq | ⟨t, -, heq⟩
  · rw [heq]; exact h
  · have hc : F.Calm { c with now := t } l b := ⟨h.sound, h.interrupted, h.ledger, h.serving⟩
    rw [heq]
    exact hc.absorb_idle (F.pass _ _ h.sound) (B.pass _ _)

end Broker.Faultless

/-! ### The worlds of a script -/

namespace Scenario

/-- A scripted action that does not interrupt and does not fail. -/
def Step.Succeeds (step : Step) : Prop := step.interrupts = false ∧ step.error = none

/-- A delivery stream that neither pauses nor ends by itself. -/
def Stream.Succeeds (stream : Stream) : Prop :=
  stream.pace = none ∧ stream.after = none ∧ stream.afterIdle = none

/-- A session in which everything succeeds; its answers may take any time. -/
structure Session.Succeeds (session : Session) : Prop where
  subscribe : session.subscribe.Succeeds
  polls : ∀ reading ∈ session.polls, reading.Succeeds ∧ reading.count = none
  cancel : session.cancel.Succeeds
  stream : session.stream.Succeeds

/-- A script in which everything succeeds, nothing arrives and rejections take some time. -/
structure Succeeds (script : Scenario) : Prop where
  attempts : ∀ attempt ∈ script.attempts, attempt.Succeeds ∧ attempt.stalls = false
  sessions : ∀ session ∈ script.sessions, session.Succeeds
  latencies : script.latencies ≠ [] ∧ ∀ latency ∈ script.latencies, 0 < latency
  rejectFaults : script.rejectFaults = []

/-- Nothing will change by itself, and the stream holds nothing back. -/
structure State.Sound (s : State) : Prop where
  arrivals : s.arrivals = []
  interruptAt : s.interruptAt = none
  cancelAt : s.cancelAt = none
  stream : ∀ st, s.stream = some st → st.script.Succeeds ∧ st.pause = .none

/-- Whether there is a stream that is not cancelled. -/
def State.serves (s : State) : Bool := s.stream.any fun st => !st.cancelled

/-- An entry of a list, or what stands in for it. -/
theorem getD_of_forall {β : Type} {P : β → Prop} {xs : List β} {d : β} (h : ∀ x ∈ xs, P x)
    (hd : P d) (i : Nat) : P ((xs[i]?).getD d) := by
  cases hx : xs[i]? with
  | none => exact hd
  | some x => exact h x (List.mem_of_getElem? hx)

theorem Succeeds.attempt {script : Scenario} (h : script.Succeeds) (s : State) :
    (script.attempt s).Succeeds ∧ (script.attempt s).stalls = false :=
  getD_of_forall (P := fun a : Attempt => a.Succeeds ∧ a.stalls = false) h.attempts
    ⟨⟨rfl, rfl⟩, rfl⟩ _

theorem Succeeds.session {script : Scenario} (h : script.Succeeds) (s : State) :
    (script.session s).Succeeds :=
  getD_of_forall h.sessions ⟨⟨rfl, rfl⟩, by simp, ⟨rfl, rfl⟩, rfl, rfl, rfl⟩ _

theorem Succeeds.reading {script : Scenario} (h : script.Succeeds) (s : State) :
    (script.reading s).Succeeds ∧ (script.reading s).count = none :=
  getD_of_forall (P := fun r : Reading => r.Succeeds ∧ r.count = none) (h.session s).polls
    ⟨⟨rfl, rfl⟩, rfl⟩ _

theorem Succeeds.latency_pos {script : Scenario} (h : script.Succeeds) (tag : Nat) :
    0 < script.latency tag := by
  have hlt : (tag - 1) % script.latencies.length < script.latencies.length :=
    Nat.mod_lt _ (List.length_pos_iff.mpr h.latencies.1)
  rw [latency, List.getElem?_eq_getElem hlt]
  exact h.latencies.2 _ (List.getElem_mem hlt)

theorem State.Sound.pass_eq {s : State} (h : s.Sound) (now : Nat) :
    pass now s = { state := s, value := () } := by
  simp [pass, h.arrivals, h.interruptAt, h.cancelAt, due, reached]

theorem settleStep_of_succeeds {step : Step} (h : step.Succeeds) (s : State)
    (succeed : State → State × Nat) :
    settleStep step s succeed = { state := (succeed s).1, value := .ok (succeed s).2 } := by
  rw [settleStep, h.2, h.1]

/-- The answer to a request in a script in which everything succeeds. -/
theorem Succeeds.answer {script : Scenario} (h : script.Succeeds) {s : State} (hs : s.Sound)
    (r : Request) :
    (script.answer r s).interrupts = false ∧ (∃ count, (script.answer r s).value = .ok count) ∧
      (script.answer r s).state.Sound ∧
      (script.answer r s).state.serves = r.serves s.serves ∧
      (script.answer r s).state.arrived = s.arrived := by
  cases r with
  | establish =>
    rw [Scenario.answer, settleStep_of_succeeds (h.attempt s).1]
    refine ⟨rfl, ⟨_, rfl⟩, ⟨hs.arrivals, hs.interruptAt, hs.cancelAt, fun st hst => ?_⟩, rfl, rfl⟩
    cases hst
  | subscribe tag =>
    rw [Scenario.answer, settleStep_of_succeeds (h.session s).subscribe]
    refine ⟨rfl, ⟨_, rfl⟩, ⟨hs.arrivals, hs.interruptAt, hs.cancelAt, fun st hst => ?_⟩, rfl, rfl⟩
    obtain rfl := Option.some.inj hst
    exact ⟨(h.session s).stream, rfl⟩
  | depth =>
    rw [Scenario.answer, settleStep_of_succeeds (h.reading s).1]
    exact ⟨rfl, ⟨_, rfl⟩, hs, rfl, rfl⟩
  | cancel tag =>
    rw [Scenario.answer, settleStep_of_succeeds (h.session s).cancel]
    refine ⟨rfl, ⟨_, rfl⟩, ⟨hs.arrivals, hs.interruptAt, hs.cancelAt, fun st hst => ?_⟩, ?_, rfl⟩
    · obtain ⟨st, hstream, rfl⟩ := Option.map_eq_some_iff.mp hst
      exact hs.stream st hstream
    · cases hstream : s.stream <;> simp [State.serves, Request.serves]
  | close =>
    refine ⟨rfl, ⟨_, rfl⟩, ⟨hs.arrivals, hs.interruptAt, hs.cancelAt, fun st hst => ?_⟩, rfl, rfl⟩
    cases hst

/-- What a stream gives in a script in which everything succeeds. -/
theorem State.Sound.ask {s : State} (h : s.Sound) (now : Nat) :
    (Scenario.ask now s).interrupts = false ∧
      (Scenario.ask now s).value.Fulfils now s.serves s.ready ∧
      (Scenario.ask now s).state.Sound ∧ (Scenario.ask now s).state.serves = s.serves ∧
      (Scenario.ask now s).state.arrived = s.arrived := by
  cases hstream : s.stream with
  | none => simp [Scenario.ask, hstream, Offer.Fulfils, State.serves, h]
  | some st =>
    obtain ⟨⟨hpace, hafter, hidle⟩, hpause⟩ := h.stream st hstream
    cases hcancelled : st.cancelled with
    | true => simp [Scenario.ask, hstream, hcancelled, Offer.Fulfils, State.serves, h]
    | false =>
      by_cases hready : 0 < s.ready
      · simp only [Scenario.ask, hstream, hcancelled, hafter, hready, State.askReady, hpause, hpace]
        refine ⟨rfl, ⟨by simp [State.serves, hstream, hcancelled], hready⟩,
          ⟨h.arrivals, h.interruptAt, h.cancelAt, fun st' hst' => ?_⟩, ?_, rfl⟩
        · obtain rfl := Option.some.inj hst'
          exact ⟨⟨hpace, hafter, hidle⟩, rfl⟩
        · simp [State.serves, State.deliver, hstream, hcancelled]
      · have hzero : s.ready = 0 := by omega
        simp [Scenario.ask, hstream, hcancelled, hafter, hzero, State.askIdle, hidle, Offer.Fulfils,
          State.serves, h]

/-- The worlds of a script in which everything succeeds. -/
def faultless {script : Scenario} (h : script.Succeeds) : script.broker.Faultless where
  sound := State.Sound
  serving := State.serves
  candid := fun t s count hv => by
    simp only [environment, Scenario.answer, settleStep_of_succeeds (h.reading s).1,
      (h.reading s).2] at hv ⊢
    cases hv
    rfl
  nextChange s hs := by
    show nextChange s = none
    simp [nextChange, hs.interruptAt, hs.cancelAt, hs.arrivals, earliest]
  pass t s hs := by
    show script.broker.Harmless State.Sound State.serves s s.serves (pass t s)
    rw [hs.pass_eq]
    exact ⟨rfl, hs, rfl, rfl⟩
  start t r s hs := by
    cases r <;> exact ⟨rfl, ⟨hs.arrivals, hs.interruptAt, hs.cancelAt, hs.stream⟩, rfl, rfl⟩
  start_due t r s hs := by
    cases r with
    | establish =>
      show (script.start t .establish s).value ≠ none
      simp [start, (h.attempt { s with attempts := s.attempts + 1 }).2]
    | _ => exact Option.some_ne_none _
  answer t r s hs := by
    obtain ⟨hi, -, hsound, hserves, harrived⟩ := h.answer hs r
    exact ⟨hi, hsound, hserves, harrived⟩
  answer_ok t r s hs := (h.answer hs r).2.1
  ask t s hs := by
    obtain ⟨hi, -, hsound, hserves, harrived⟩ := hs.ask t
    exact ⟨hi, hsound, hserves, harrived⟩
  ask_fulfils t s hs := (hs.ask t).2.1
  startReject t tag s hs := ⟨rfl, hs, rfl, rfl⟩
  startReject_due t tag s hs :=
    ⟨_, rfl, Nat.lt_add_of_pos_right (h.latency_pos tag)⟩
  finishReject t tag s hs := by
    show script.broker.Harmless State.Sound State.serves s s.serves (script.finishReject tag s)
    rw [finishReject, h.rejectFaults]
    exact ⟨rfl, ⟨hs.arrivals, hs.interruptAt, hs.cancelAt, hs.stream⟩, rfl, rfl⟩
  finishReject_done t tag s hs := by
    show (script.finishReject tag s).value = .done
    rw [finishReject, h.rejectFaults]
    rfl
  race s hs := ⟨⟨hs.arrivals, hs.interruptAt, hs.cancelAt, hs.stream⟩, rfl, rfl⟩

/-- A script in which everything succeeds begins where nothing fails if nothing arrives. -/
theorem sound_opening {script : Scenario} (h : script.arrivals = []) : script.opening.Sound :=
  ⟨h, rfl, rfl, fun _ hst => nomatch hst⟩

end Scenario

end QueueDrain
