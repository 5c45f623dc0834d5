import QueueDrain.Proofs.Course
import QueueDrain.Scenario

/-!
# Brokers

A broker is an environment with a ledger. A delivery makes a ready message outstanding, a rejection
that succeeds dead-letters an outstanding one, and the close of a session makes what is outstanding
ready again; messages may arrive at any time, and nothing else is entered. The ledger that a run
leaves is then the one that its trace accounts for, entry by entry.

The ledger does not know sessions. That a rejection finds an outstanding message, and the right one,
is the run's doing and not a law of the broker.

## Main definitions

* `Ledger`, `Ledger.post` — the messages of a queue by where they are, and what an event enters
* `Broker` — an environment with a ledger that follows the events
* `Broker.Candid` — a broker that answers a depth reading with the number of ready messages
* `Ledger.Accounts` — the ledgers that a trace accounts for
* `Scenario.broker`, `Scenario.runs` — the broker that a script describes, and a run with it
* `Drain.Plan.sample` — a plan for runs that serve as examples

## Main results

* `Broker.accounts` — a course leaves a ledger that its trace accounts for
-/

namespace QueueDrain

/-- The messages of a queue, by where they are. -/
structure Ledger where
  ready : Nat
  outstanding : Nat
  deadLettered : Nat
  /-- The messages that have arrived so far. -/
  arrived : Nat
deriving DecidableEq, Repr

namespace Ledger

/-- Messages arrive. -/
def arrive (l : Ledger) (n : Nat) : Ledger :=
  { l with ready := l.ready + n, arrived := l.arrived + n }

/-- What an event enters. -/
def post (l : Ledger) : Event → Ledger
  | .delivered _ => { l with ready := l.ready - 1, outstanding := l.outstanding + 1 }
  | .rejected _ =>
    { l with outstanding := l.outstanding - 1, deadLettered := l.deadLettered + 1 }
  | .answered .close _ | .failed .close _ =>
    { l with ready := l.ready + l.outstanding, outstanding := 0 }
  | _ => l

/-- A delivery takes a ready message. -/
def Covers (l : Ledger) : Event → Prop
  | .delivered _ => 0 < l.ready
  | _ => True

/-- A depth reading that succeeds gives the number of ready messages. -/
def Shows (l : Ledger) : Event → Prop
  | .answered .depth count => count = l.ready
  | _ => True

@[simp] theorem arrive_zero (l : Ledger) : l.arrive 0 = l := rfl

theorem post_of_isAside {e : Event} (h : e.isAside = true) (l : Ledger) : l.post e = l := by
  cases e <;> simp_all [Event.isAside, post]

theorem post_arrived (l : Ledger) (e : Event) : (l.post e).arrived = l.arrived := by
  cases e with
  | answered r _ => cases r <;> rfl
  | failed r _ => cases r <;> rfl
  | _ => rfl

end Ledger

/-- What a stream gives leads from one ledger to another. -/
def Offer.Enters (offer : Offer) (before after : Ledger) : Prop :=
  match offer.event? with
  | some e => before.Covers e ∧ after = before.post e
  | none => after = before

/-- An environment with a ledger. Messages may arrive with any change of the environment, ahead of
what the change enters. -/
structure Broker {ω : Type} (E : Environment ω) where
  ledger : ω → Ledger
  pass : ∀ t w, ∃ n, ledger (E.pass t w).state = (ledger w).arrive n
  start : ∀ t r w, ∃ n, ledger (E.start t r w).state = (ledger w).arrive n
  answer : ∀ t r w, ∃ n,
    ledger (E.answer t r w).state
      = ((ledger w).arrive n).post (Course.answer r (E.answer t r w).value)
  ask : ∀ t w, ∃ n,
    (E.ask t w).value.Enters ((ledger w).arrive n) (ledger (E.ask t w).state)
  startReject : ∀ t tag w, ∃ n, ledger (E.startReject t tag w).state = (ledger w).arrive n
  finishReject : ∀ t tag w, ∃ n,
    ledger (E.finishReject t tag w).state
      = ((ledger w).arrive n).post ((E.finishReject t tag w).value.event tag)
  race : ∀ w, ∃ n, ledger (E.race w).1 = (ledger w).arrive n

/-- A depth reading is answered with the number of messages that are ready then. -/
def Broker.Candid {ω : Type} {E : Environment ω} (B : Broker E) : Prop :=
  ∀ t w count, (E.answer t .depth w).value = .ok count →
    count = (B.ledger (E.answer t .depth w).state).ready

/-! ### Ledgers and traces -/

/-- The ledgers that a trace accounts for, from an opening balance on. What is known of the depth
readings in it may depend on the broker. -/
inductive Ledger.Accounts (candid : Prop) (opening : Ledger) : List Entry → Ledger → Prop
  | opening : Accounts candid opening [] opening
  | arrival {trace : List Entry} {l : Ledger} (n : Nat) (h : Accounts candid opening trace l) :
      Accounts candid opening trace (l.arrive n)
  | entry {trace : List Entry} {l : Ledger} (e : Entry) (h : Accounts candid opening trace l)
      (hc : l.Covers e.event) (hs : candid → l.Shows e.event) :
      Accounts candid opening (e :: trace) (l.post e.event)

namespace Ledger.Accounts

variable {candid : Prop} {opening l : Ledger} {trace : List Entry}

/-- Events that enter nothing leave the ledger as it is. -/
theorem idle (h : Accounts candid opening trace l) (e : Entry) (hp : l.post e.event = l)
    (hc : l.Covers e.event) (hs : candid → l.Shows e.event) :
    Accounts candid opening (e :: trace) l := by
  have := h.entry e hc hs
  rwa [hp] at this

theorem asides (h : Accounts candid opening trace l) {new : List Entry}
    (hnew : ∀ e ∈ new, e.event.isAside = true) : Accounts candid opening (new ++ trace) l := by
  induction new with
  | nil => exact h
  | cons e new ih =>
    have he : e.event.isAside = true := hnew e List.mem_cons_self
    refine (ih fun e' he' => hnew e' (List.mem_cons_of_mem _ he')).idle e
      (post_of_isAside he l) ?_ fun _ => ?_
    all_goals revert he; cases e.event <;> simp [Event.isAside, Covers, Shows]

theorem arrived_le (h : Accounts candid opening trace l) : opening.arrived ≤ l.arrived := by
  induction h with
  | opening => exact Nat.le_refl _
  | arrival n _ ih => exact Nat.le_trans ih (Nat.le_add_right _ n)
  | entry e _ _ _ ih => rw [post_arrived]; exact ih

end Ledger.Accounts

/-! ### Courses and ledgers -/

namespace Broker

variable {ω α : Type} {E : Environment ω} {B : Broker E} {c c' : Course ω} {opening : Ledger}
  {old : List Entry}

/-- The ledger at a later time is one that the trace since then accounts for. -/
def Follows (B : Broker E) (opening : Ledger) (old : List Entry) (c : Course ω) : Prop :=
  ∃ new, c.trace = new ++ old ∧ Ledger.Accounts B.Candid opening new (B.ledger c.world)

theorem follows_self (B : Broker E) (c : Course ω) : B.Follows (B.ledger c.world) c.trace c :=
  ⟨[], rfl, .opening⟩

theorem Follows.congr (h : B.Follows opening old c) (ht : c'.trace = c.trace)
    (hw : c'.world = c.world) : B.Follows opening old c' := by
  obtain ⟨new, htrace, hacc⟩ := h
  exact ⟨new, ht.trans htrace, hw ▸ hacc⟩

/-- An event that enters nothing. -/
theorem Follows.note (h : B.Follows opening old c) {e : Event}
    (hp : (B.ledger c.world).post e = B.ledger c.world) (hc : (B.ledger c.world).Covers e)
    (hs : (B.ledger c.world).Shows e) : B.Follows opening old (c.note e) := by
  obtain ⟨new, htrace, hacc⟩ := h
  exact ⟨_ :: new, by rw [Course.note_trace, htrace]; rfl, hacc.idle ⟨c.now, e⟩ hp hc fun _ => hs⟩

/-- An effect that enters nothing. -/
theorem Follows.absorb (h : B.Follows opening old c) {effect : Effect ω α}
    (hl : ∃ n, B.ledger effect.state = (B.ledger c.world).arrive n) :
    B.Follows opening old (c.absorb effect) := by
  obtain ⟨new, htrace, hacc⟩ := h
  obtain ⟨n, hn⟩ := hl
  obtain ⟨asides, hasides, hall⟩ := c.absorb_trace effect
  refine ⟨asides ++ new, by rw [hasides, htrace, List.append_assoc], ?_⟩
  rw [Course.absorb_world, hn]
  exact (hacc.arrival n).asides fun e he => (hall e he).2

/-- An effect with the event that it enters. -/
theorem Follows.absorb_note (h : B.Follows opening old c) {effect : Effect ω α} {e : Event}
    {n : Nat} (hl : B.ledger effect.state = ((B.ledger c.world).arrive n).post e)
    (hc : ((B.ledger c.world).arrive n).Covers e)
    (hs : B.Candid → ((B.ledger c.world).arrive n).Shows e) :
    B.Follows opening old ((c.absorb effect).note e) := by
  obtain ⟨new, htrace, hacc⟩ := h
  obtain ⟨asides, hasides, hall⟩ := c.absorb_trace effect
  refine ⟨⟨c.now, e⟩ :: (asides ++ new), ?_, ?_⟩
  · simp [hasides, htrace]
  · rw [Course.note_world, Course.absorb_world, hl]
    exact ((hacc.arrival n).asides fun e he => (hall e he).2).entry ⟨c.now, e⟩ hc hs

theorem Follows.finish (h : B.Follows opening old c) (r : Request) :
    B.Follows opening old (c.finish E r).1 := by
  obtain ⟨n, hn⟩ := B.answer c.now r c.world
  rw [Course.finish_eq]
  refine h.absorb_note hn ?_ fun hcandid => ?_
  · cases (E.answer c.now r c.world).value <;> trivial
  · cases hv : (E.answer c.now r c.world).value with
    | error cause => trivial
    | ok count =>
      cases r with
      | depth =>
        rw [hv] at hn
        exact (hcandid _ _ _ hv).trans (congrArg Ledger.ready hn)
      | _ => trivial

theorem Follows.ask (h : B.Follows opening old c) : B.Follows opening old (c.ask E).1 := by
  obtain ⟨n, hn⟩ := B.ask c.now c.world
  rw [Offer.Enters] at hn
  rw [Course.ask]
  cases hv : (E.ask c.now c.world).value.event? with
  | none =>
    simp only [hv] at hn ⊢
    exact h.absorb ⟨n, hn⟩
  | some e =>
    simp only [hv] at hn ⊢
    refine h.absorb_note hn.2 hn.1 fun _ => ?_
    cases hoffer : (E.ask c.now c.world).value <;> rw [hoffer] at hv <;> cases hv <;> trivial

theorem Follows.finishReject (h : B.Follows opening old c) (tag : Nat) :
    B.Follows opening old (c.finishReject E tag).1 := by
  obtain ⟨n, hn⟩ := B.finishReject c.now tag c.world
  have hc : ((B.ledger c.world).arrive n).Covers
      ((E.finishReject c.now tag c.world).value.event tag) := by
    cases (E.finishReject c.now tag c.world).value <;> trivial
  have hs : ((B.ledger c.world).arrive n).Shows
      ((E.finishReject c.now tag c.world).value.event tag) := by
    cases (E.finishReject c.now tag c.world).value <;> trivial
  refine (h.absorb_note hn hc fun _ => hs).congr ?_ ?_
  all_goals
    rw [Course.finishReject]
    split <;> rfl

theorem Follows.begin (h : B.Follows opening old c) (r : Request) :
    B.Follows opening old (c.begin E r).1 :=
  (h.note (e := .began r) rfl trivial trivial).absorb (B.start _ _ _)

/-- Every operation on a course keeps its ledger accounted for. -/
theorem Follows.act (h : B.Follows opening old c) (ha : Course.Act E c c') :
    B.Follows opening old c' := by
  cases ha with
  | deed hd =>
    cases hd with
    | tell line => exact h.note rfl trivial trivial
    | begin r _ => exact h.begin r
    | finish r => exact h.finish r
    | ask => exact h.ask
    | startReject tag => exact h.absorb (B.startReject _ _ _)
    | finishReject tag => exact h.finishReject tag
    | race =>
      obtain ⟨new, htrace, hacc⟩ := h
      obtain ⟨n, hn⟩ := B.race c.world
      exact ⟨new, htrace, hn ▸ hacc.arrival n⟩
  | read => exact h.begin .depth
  | advance wakes =>
    rcases c.advance_eq_or (E := E) wakes with heq | ⟨t, -, heq⟩
    · rw [heq]; exact h
    · rw [heq]
      exact Follows.absorb (c := { c with now := t }) (h.congr rfl rfl) (B.pass _ _)

/-- **A course leaves a ledger that its trace accounts for.** -/
theorem accounts (B : Broker E) (h : Course.Reaches E c c') :
    B.Follows (B.ledger c.world) c.trace c' := by
  induction h with
  | refl => exact B.follows_self c
  | tail _ hlast ih => exact ih.act hlast

end Broker

/-! ### The broker of a script -/

/-- A plan for runs that serve as examples. -/
def Drain.Plan.sample : Drain.Plan where
  config :=
    { brokerUri := "amqp://localhost"
      queueName := "jobs"
      prefetchCount := 10
      deadLetterRoutingKey := "in"
      consumerTag := "jobs_rejector"
      pollInterval := Config.defaultPollInterval
      reconnectPolicy := .default }
  endpoint := "amqp://localhost:5672"

namespace Scenario

/-- The ledger that a script keeps. -/
def State.ledger (s : State) : Ledger := ⟨s.ready, s.outstanding, s.deadLettered, s.arrived⟩

theorem pass_ledger (now : Nat) (s : State) :
    ∃ n, (pass now s).state.ledger = s.ledger.arrive n := by
  refine ⟨if (due now s.arrivals).isEmpty then 0
    else ((due now s.arrivals).map Prod.snd).foldr (· + ·) 0, ?_⟩
  simp only [pass]
  split <;> split <;> split <;> rfl

theorem start_ledger (script : Scenario) (now : Nat) (r : Request) (s : State) :
    (script.start now r s).state.ledger = s.ledger := by
  cases r <;> rfl

theorem answer_ledger (script : Scenario) (r : Request) (s : State) :
    (script.answer r s).state.ledger
      = s.ledger.post (Course.answer r (script.answer r s).value) := by
  cases r <;> simp only [answer, settleStep] <;> (try split) <;> rfl

theorem StreamState.faultOffer_enters (stream : StreamState) (l : Ledger) :
    stream.faultOffer.Enters l l := by
  rw [faultOffer]
  split <;> exact ⟨trivial, rfl⟩

theorem State.askReady_enters {s : State} (h : 0 < s.ready) (now : Nat) (stream : StreamState) :
    (s.askReady now stream).value.Enters s.ledger (s.askReady now stream).state.ledger := by
  have hdeliver : (s.deliver stream).value.Enters s.ledger (s.deliver stream).state.ledger :=
    ⟨h, rfl⟩
  rw [askReady]
  split
  · split
    · exact hdeliver
    · rfl
  · split
    · exact hdeliver
    · rfl
  · split
    · exact hdeliver
    · rfl
  · exact hdeliver

theorem State.askIdle_enters (s : State) (now : Nat) (stream : StreamState) :
    (s.askIdle now stream).value.Enters s.ledger (s.askIdle now stream).state.ledger := by
  rw [askIdle]
  split
  · rfl
  · split
    · exact stream.faultOffer_enters _
    · rfl
  · split
    · exact stream.faultOffer_enters _
    · rfl

theorem ask_enters (now : Nat) (s : State) :
    (ask now s).value.Enters s.ledger (ask now s).state.ledger := by
  rw [ask]
  split
  · exact ⟨trivial, rfl⟩
  · split
    · exact ⟨trivial, rfl⟩
    · split
      · exact StreamState.faultOffer_enters _ _
      · split
        next h => exact State.askReady_enters h now _
        next => exact s.askIdle_enters now _

theorem finishReject_ledger (script : Scenario) (tag : Nat) (s : State) :
    (script.finishReject tag s).state.ledger
      = s.ledger.post ((script.finishReject tag s).value.event tag) := by
  rw [finishReject]
  split <;> rfl

/-- The broker that a script describes. -/
def broker (script : Scenario) : Broker script.environment where
  ledger := State.ledger
  pass := pass_ledger
  start t r s := ⟨0, script.start_ledger t r s⟩
  answer _ r s := ⟨0, script.answer_ledger r s⟩
  ask t s := ⟨0, ask_enters t s⟩
  startReject _ _ _ := ⟨0, rfl⟩
  finishReject _ tag s := ⟨0, script.finishReject_ledger tag s⟩
  race _ := ⟨0, rfl⟩

/-- A reading of which the script says nothing gives the number of ready messages. -/
theorem reading_count {script : Scenario}
    (h : ∀ session ∈ script.sessions, ∀ reading ∈ session.polls, reading.count = none)
    (s : State) : (script.reading s).count = none := by
  have hpolls : ∀ reading ∈ (script.session s).polls, reading.count = none := by
    intro reading hr
    rw [session] at hr
    cases hsession : script.sessions[s.sessions - 1]? with
    | none => rw [hsession] at hr; cases hr
    | some session =>
      rw [hsession] at hr
      exact h session (List.mem_of_getElem? hsession) reading hr
  rw [reading]
  cases hreading : (script.session s).polls[s.polls - 1]? with
  | none => rfl
  | some reading => exact hpolls reading (List.mem_of_getElem? hreading)

/-- A script whose readings are not made up describes a candid broker. -/
theorem broker_candid {script : Scenario}
    (h : ∀ session ∈ script.sessions, ∀ reading ∈ session.polls, reading.count = none) :
    script.broker.Candid := by
  intro t s count hv
  have hcount := reading_count h s
  simp only [environment, answer, settleStep, hcount] at hv ⊢
  split at hv
  · cases hv
  · cases hv; rfl

/-- A run of a plan in the surroundings that a script describes. -/
def runs (script : Scenario) (plan : Drain.Plan) (n : Nat) : Drain.State State :=
  Drain.run script.environment plan n
    (Drain.start script.environment plan (.opening 0 script.opening 0 false))

end Scenario

end QueueDrain
