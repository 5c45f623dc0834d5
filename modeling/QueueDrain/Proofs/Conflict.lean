import QueueDrain.Amqp.Client
import QueueDrain.Amqp.Server
import QueueDrain.Proofs.Recovery

/-!
# Errors of a run

Which errors end a run, and what becomes of the others. For an AMQP server there is one more thing
to say: a queue that exists with other properties is found out by the declaration that is the last
step of opening a session. The client closes what it has opened before it gives up, so the conflict
is known some time before it is reported, and nothing that the server sends meanwhile changes it.

## Main definitions

* `Amqp.Trial.IsConflict` — the declaration met a conflict
* `Amqp.Establishment.ending` — how an attempt at a session ends, if it does
* `Amqp.Client.Attempting` — what a client knows of the attempt that is under way
* `Drain.State.Foresees` — a run that waits for an attempt waits for one that the client has made
* `Drain.State.MetConflict`, `Drain.State.Yields` — a conflict, and what a run that has met one may
  be at

## Main results

* `Amqp.establish_conflict` — an attempt whose declaration met a conflict fails with it
* `Drain.run_conflict` — so does the run, unless it is interrupted
* `Drain.run_failures` — which errors end a run
-/

namespace QueueDrain

namespace Amqp

variable {σ : Type} {P : Peer σ} {p : Progress σ} {trial : Trial} {ms : List Method}

/-! ### What was tried -/

/-- How an exchange has failed, if it has. -/
def Result.failure? : Result → Option TransportError
  | .failed cause => some cause
  | _ => none

theorem Result.eq_failed_of_failure? {r : Result} {cause : TransportError}
    (h : r.failure? = some cause) : r = .failed cause := by
  cases r with
  | failed error => exact congrArg Result.failed (Option.some.inj h)
  | _ => cases h

/-- An exchange is one trial, which has failed as the exchange has. -/
theorem exchange_trials (P : Peer σ) (m : Method) (p : Progress σ) :
    ∃ t : Trial, (exchange P m p).1.trials = p.trials ++ [t] ∧ t.method = m ∧
      t.failure = (exchange P m p).2.failure? := by
  rw [exchange]
  split
  next => exact ⟨_, rfl, rfl, rfl⟩
  next =>
    dsimp only
    split
    next => exact ⟨_, rfl, rfl, rfl⟩
    next => split <;> exact ⟨_, rfl, rfl, rfl⟩

theorem mem_trials_exchange {m : Method} (h : trial ∈ (exchange P m p).1.trials) :
    trial ∈ p.trials ∨ (trial.method = m ∧
      ∀ cause, trial.failure = some cause → (exchange P m p).2 = .failed cause) := by
  obtain ⟨t, htrials, hmethod, hfailure⟩ := exchange_trials P m p
  rw [htrials] at h
  refine (List.mem_append.mp h).imp_right fun hlast => ?_
  obtain rfl := List.mem_singleton.mp hlast
  exact ⟨hmethod, fun cause hcause => Result.eq_failed_of_failure? (hfailure ▸ hcause)⟩

theorem mem_trials_exchangeAll (h : trial ∈ (exchangeAll P ms p).1.trials) :
    trial ∈ p.trials ∨ trial.method ∈ ms := by
  induction ms generalizing p with
  | nil => exact .inl h
  | cons m rest ih =>
    have hfirst : trial ∈ (exchange P m p).1.trials → trial ∈ p.trials ∨ trial.method ∈ m :: rest :=
      fun h => (mem_trials_exchange h).imp_right fun hm => by simp [hm.1]
    rw [exchangeAll] at h
    split at h
    next p' _ he =>
      rcases ih h with h | h
      · exact hfirst (by rwa [he])
      · exact .inr (List.mem_cons_of_mem m h)
    next p' _ _ he => exact hfirst (by rwa [he])

theorem mem_trials_closeAll (h : trial ∈ (closeAll P ms p).1.trials) :
    trial ∈ p.trials ∨ trial.method ∈ ms := by
  induction ms generalizing p with
  | nil => exact .inl h
  | cons m rest ih =>
    have hfirst : trial ∈ (exchange P m p).1.trials → trial ∈ p.trials ∨ trial.method ∈ m :: rest :=
      fun h => (mem_trials_exchange h).imp_right fun hm => by simp [hm.1]
    have hrest : ∀ p', (exchange P m p).1.trials = p'.trials →
        trial ∈ (closeAll P rest p').1.trials → trial ∈ p.trials ∨ trial.method ∈ m :: rest := by
      intro p' htrials h
      rcases ih h with h | h
      · exact hfirst (htrials ▸ h)
      · exact .inr (List.mem_cons_of_mem m h)
    rw [closeAll] at h
    split at h
    next he => exact hfirst (by rwa [he])
    next p' _ he =>
      refine hrest _ ?_ h
      rw [he]
      split <;> rfl
    next p' _ he => exact hrest p' (by rw [he]) h

/-! ### An attempt at a session -/

/-- How an attempt ends, if it does. -/
def Establishment.ending : Establishment → Option (Except DrainError Nat)
  | .opened declared => some (.ok declared)
  | .failed cause => some (.error cause)
  | .silent => none

theorem giveUp_eq_or (P : Peer σ) (closes : List Method) (cause : DrainError) (p : Progress σ) :
    (giveUp P closes cause p).1 = (closeAll P closes p).1 ∧
      ((giveUp P closes cause p).2 = .failed cause ∨ (giveUp P closes cause p).2 = .silent) := by
  rw [giveUp]
  split
  next h => exact ⟨by rw [h], .inl rfl⟩
  next h => exact ⟨by rw [h], .inr rfl⟩

variable {t : Target} {text : String}

/-- The declaration of the queue met a conflict: the server answered it by closing the channel with
a failed precondition. -/
def Trial.IsConflict (spec : QueueSpec) (text : String) (trial : Trial) : Prop :=
  trial.method = .ofSpec spec ∧
    trial.failure = some ((Closure.channel 406 text).error (some trial.method))

theorem Trial.IsConflict.failure (h : trial.IsConflict t.spec text) :
    trial.failure = some (.protocol .preconditionFailed text) := by
  rw [h.2, h.1]
  rfl

theorem declareFirst_conflict (hp : trial ∉ p.trials)
    (h : trial ∈ (declareFirst P t p).1.trials) (hc : trial.IsConflict t.spec text) :
    (declareFirst P t p).2 = .failed (.queueConflict t.spec.name text) ∨
      (declareFirst P t p).2 = .silent := by
  -- the declaration has failed, for it is no method of closing
  have hexchange : trial ∈ (exchange P (.ofSpec t.spec) p).1.trials →
      (exchange P (.ofSpec t.spec) p).2 = .failed (.protocol .preconditionFailed text) := fun h =>
    ((mem_trials_exchange h).resolve_left hp).2 _ hc.failure
  rw [declareFirst] at h ⊢
  split at h
  next he => exact absurd (hexchange (by rwa [he])) (by simp [he])
  next p' cause he =>
    obtain ⟨hgive, hresult⟩ := giveUp_eq_or P [closeChannel, closeConnection]
      (.ofDeclare t.spec.name cause) p'
    rw [hgive] at h
    have hmem : trial ∈ p'.trials := by
      refine (mem_trials_closeAll h).resolve_right fun hclose => ?_
      rw [hc.1] at hclose
      simp [Method.ofSpec, closeChannel, closeConnection] at hclose
    have hcause := hexchange (by rwa [he])
    rw [he] at hcause
    cases hcause
    exact hresult
  next he => exact absurd (hexchange (by rwa [he])) (by simp [he])

theorem openChannel_conflict (hp : trial ∉ p.trials) (h : trial ∈ (openChannel P t p).1.trials)
    (hc : trial.IsConflict t.spec text) :
    (openChannel P t p).2 = .failed (.queueConflict t.spec.name text) ∨
      (openChannel P t p).2 = .silent := by
  have hsetup : trial ∉ (exchangeAll P (channelSetup t) p).1.trials := fun h => by
    have hm := (mem_trials_exchangeAll h).resolve_left hp
    rw [hc.1] at hm
    simp [Method.ofSpec, channelSetup] at hm
  rw [openChannel] at h ⊢
  split at h
  next p' _ he =>
    exact declareFirst_conflict (p := p'.tell _) (by rw [he] at hsetup; exact hsetup) h hc
  next p' cause he =>
    have hgive := (giveUp_eq_or P [closeConnection] (.transport cause) p').1
    rw [hgive] at h
    refine absurd ((mem_trials_closeAll h).resolve_right fun hclose => ?_) (by rwa [he] at hsetup)
    rw [hc.1] at hclose
    simp [Method.ofSpec, closeConnection] at hclose
  next he => exact .inr rfl

theorem openConnection_conflict (hp : trial ∉ p.trials)
    (h : trial ∈ (openConnection P t p).1.trials) (hc : trial.IsConflict t.spec text) :
    (openConnection P t p).2 = .failed (.queueConflict t.spec.name text) ∨
      (openConnection P t p).2 = .silent := by
  have hshake : trial ∉ (exchangeAll P (handshake t) p).1.trials := fun h => by
    have hm := (mem_trials_exchangeAll h).resolve_left hp
    rw [hc.1] at hm
    simp [Method.ofSpec, handshake, Method.login] at hm
  rw [openConnection] at h ⊢
  split at h
  next p' _ he =>
    exact openChannel_conflict (p := p'.tell _) (by rw [he] at hshake; exact hshake) h hc
  next p' cause he => exact absurd h (by rwa [he] at hshake)
  next he => exact .inr rfl

/-- A connection that has just been made, or has failed to be. -/
structure Progress.IsFresh (P : Peer σ) (now : Nat) (server : σ) (p : Progress σ) : Prop where
  server : p.server = (P.connect now server).1
  link : p.link = {}
  time : p.time = now
  trials : p.trials = []

/-- An attempt begins with nothing tried; it fails at once, or a connection is opened. -/
theorem establish_eq_or (P : Peer σ) (t : Target) (now : Nat) (server : σ) :
    ∃ p : Progress σ, p.IsFresh P now server ∧
      ((∃ cause, establish P t now server = (p, .failed cause)) ∨
        establish P t now server = openConnection P t p) := by
  let p₀ : Progress σ := { server, link := {}, time := now }
  let p := if t.endpoint.secure then p₀ else p₀.tell (.withoutTls t.shown)
  have hp : p.server = server ∧ p.link = {} ∧ p.time = now ∧ p.trials = [] := by
    dsimp only [p]
    split <;> exact ⟨rfl, rfl, rfl, rfl⟩
  obtain ⟨hserver, hlink, htime, htrials⟩ := hp
  refine ⟨{ p with server := (P.connect now p.server).1 }, ⟨?_, hlink, htime, htrials⟩, ?_⟩
  · rw [hserver]
  · rcases hconnect : P.connect now p.server with ⟨server', _ | cause⟩ <;> unfold establish <;>
      dsimp only [p, p₀] at hconnect ⊢ <;> rw [hconnect]
    · exact .inr rfl
    · exact .inl ⟨_, rfl⟩

/-- **An attempt whose declaration met a conflict fails with it**, unless a close that follows is
never answered. -/
theorem establish_conflict {now : Nat} {server : σ}
    (h : trial ∈ (establish P t now server).1.trials) (hc : trial.IsConflict t.spec text) :
    (establish P t now server).2 = .failed (.queueConflict t.spec.name text) ∨
      (establish P t now server).2 = .silent := by
  obtain ⟨p, hp, ⟨cause, he⟩ | he⟩ := establish_eq_or P t now server
  · rw [he, hp.trials] at h
    cases h
  · rw [he] at h ⊢
    exact openConnection_conflict (by rw [hp.trials]; exact List.not_mem_nil) h hc

/-! ### The client while an attempt is under way -/

namespace Client

/-- What a client knows of an attempt at a session that is under way: what was tried, and how it
ends, if it does. -/
structure Attempting (c : Client σ) (p : Progress σ) (result : Establishment) : Prop where
  trials : c.trials.head? = some p.trials
  waiting : c.waiting = none
  ending : c.ending = result.ending

variable {c : Client σ} {result : Establishment}

/-- An attempt begins. -/
theorem attempting_start (P : Peer σ) (t : Target) (now : Nat) (c : Client σ) :
    let attempt := Amqp.establish P t now c.server
    (start P t now .establish c).state.Attempting attempt.1 attempt.2 ∧
      (start P t now .establish c).value = attempt.2.ending.map fun _ => attempt.1.time := by
  intro attempt
  rw [start]
  dsimp only
  rcases hattempt : Amqp.establish P t now c.server with ⟨p, result⟩
  rw [show attempt = (p, result) from hattempt]
  cases result <;> exact ⟨⟨rfl, rfl, rfl⟩, rfl⟩

/-- Nothing that the server sends meanwhile changes how an attempt ends. -/
theorem Attempting.absorb (h : c.Attempting p result) (t : Target) (push : Push) :
    (Client.absorb t c push).Attempting p result := by
  have hsame : Client.absorb t c push = { c with link := c.link.absorb push } := by
    obtain ⟨_, _, _, waiting, _, _, _, _, _⟩ := c
    obtain rfl : waiting = none := h.waiting
    cases push <;> rfl
  rw [hsame]
  exact ⟨h.trials, h.waiting, h.ending⟩

/-- The operator's interrupt, once it is due. -/
def alert (now : Nat) (c : Client σ) : Effect (Client σ) Unit :=
  match c.interruptAt with
  | some instant =>
    if instant ≤ now then
      { state := { c with interruptAt := none }, value := (), interrupts := true
        notices := [.stopRequested] }
    else { state := c, value := () }
  | none => { state := c, value := () }

/-- The client with what the server has sent. -/
def pushed (P : Peer σ) (t : Target) (now : Nat) (c : Client σ) : Client σ :=
  (P.push now c.server).2.foldl (absorb t) { c.turn with server := (P.push now c.server).1 }

/-- The clock brings what the server has sent, and then the interrupt. -/
theorem pass_eq (P : Peer σ) (t : Target) (now : Nat) (c : Client σ) :
    pass P t now c = (c.pushed P t now).alert now := rfl

theorem alert_state_eq_or (now : Nat) (c : Client σ) :
    (c.alert now).state = c ∨ (c.alert now).state = { c with interruptAt := none } := by
  rw [alert]
  split
  · split
    · exact .inr rfl
    · exact .inl rfl
  · exact .inl rfl

/-- What nothing changes that comes with the clock. -/
theorem pass_keeps {Q : Client σ → Prop} (hserver : ∀ c server, Q c → Q { c.turn with server })
    (habsorb : ∀ c push, Q c → Q (absorb t c push))
    (halert : ∀ c, Q c → Q { c with interruptAt := none }) (now : Nat) (h : Q c) :
    Q (pass P t now c).state := by
  have hall : ∀ (pushes : List Push) (c : Client σ), Q c → Q (pushes.foldl (absorb t) c) := by
    intro pushes
    induction pushes with
    | nil => exact fun _ h => h
    | cons push rest ih => exact fun c h => ih _ (habsorb c push h)
  have h : Q (c.pushed P t now) := hall _ _ (hserver c (P.push now c.server).1 h)
  rw [pass_eq]
  rcases alert_state_eq_or now (c.pushed P t now) with ha | ha <;> rw [ha]
  · exact h
  · exact halert _ h

theorem Attempting.pass (h : c.Attempting p result) (P : Peer σ) (t : Target) (now : Nat) :
    (Client.pass P t now c).state.Attempting p result :=
  pass_keeps (Q := fun c => c.Attempting p result)
    (fun _ _ h => ⟨h.trials, h.waiting, h.ending⟩) (fun _ push h => h.absorb t push)
    (fun _ h => ⟨h.trials, h.waiting, h.ending⟩) now h

/-- The attempt is answered as it ends. -/
theorem Attempting.answer {value : Except DrainError Nat} (h : c.Attempting p result)
    (hresult : result.ending = some value) (P : Peer σ) (t : Target) (now : Nat) :
    (Client.answer P t now .establish c).value = value := by
  simp only [Client.answer, h.ending, hresult]

end Client

end Amqp

/-! ### A run that waits for an attempt -/

namespace Drain

open Amqp (Client Peer Target Progress Establishment)

variable {plan : Plan}

variable {σ : Type} {P : Peer σ} {t : Target} {s s' : State (Client σ)} {m : Conduct}

/-- A run that waits for an attempt at a session waits for one that the client has made, until it is
over. -/
def State.Foresees (P : Peer σ) (t : Target) (s : State (Client σ)) : Prop :=
  ∀ attempt due, s.phase = .connecting (.establishing attempt due) →
    ∃ now server p result, Amqp.establish P t now server = (p, result) ∧
      s.course.world.Attempting p result ∧ due = result.ending.map fun _ => p.time

/-- The end of an attempt at a session is not the beginning of another one. -/
theorem phase_established_ne (s : State (Client σ)) (E : Environment (Client σ)) (plan : Plan)
    (result : Connect.Result) (attempt due : Option Nat) :
    (s.established E plan result).phase ≠ .connecting (.establishing attempt due) := by
  intro hp
  match result with
  | .error _ => cases hp
  | .ok none =>
    obtain ⟨summary, hgive⟩ := phase_giveUp s plan
    cases hgive.symm.trans hp
  | .ok (some declared) =>
    rcases phase_openSession (E := E) (s.welcome plan declared) plan with ⟨_, ho⟩ | ⟨_, ho⟩ <;>
      cases ho.symm.trans hp

theorem phase_closed_ne (s : State (Client σ)) (plan : Plan) (ending : Except DrainError Outcome)
    (attempt due : Option Nat) :
    (s.closed plan ending).phase ≠ .connecting (.establishing attempt due) := by
  match ending with
  | .ok _ => rintro ⟨⟩
  | .error cause =>
    rw [State.closed]
    split <;> rintro ⟨⟩

theorem foresees_begin (s : State (Client σ)) (c : Course (Client σ)) (attempt : Option Nat) :
    State.Foresees P t { s with
      course := (c.begin (Client.environment P t) .establish).1
      phase := .connecting
        (.establishing attempt (c.begin (Client.environment P t) .establish).2) } := by
  intro k due hp
  cases hp
  obtain ⟨hattempting, hdue⟩ := Client.attempting_start P t c.now c.world
  refine ⟨c.now, c.world.server, _, _, rfl, ?_, hdue⟩
  show ((c.begin (Client.environment P t) .establish).1).world.Attempting _ _
  rw [Course.begin_world]
  exact hattempting

/-- Time passes for the client. -/
theorem attempting_advance {c : Course (Client σ)} {p : Progress σ} {result : Establishment}
    (h : c.world.Attempting p result) (wakes : List (Option Nat)) :
    (c.advance (Client.environment P t) wakes).world.Attempting p result := by
  rcases Course.advance_eq_or (E := Client.environment P t) c wakes with ha | ⟨now, -, ha⟩ <;>
    rw [ha]
  · exact h
  · rw [Course.absorb_world]
    exact h.pass P t now

theorem Move.foresees (hm : Move (Client.environment P t) plan s s') (hf : s.Follows plan m)
    (h : s.Foresees P t) : s'.Foresees P t := by
  cases hm with
  | connecting hp hm =>
    cases hm with
    | began hw hi => exact foresees_begin s s.course _
    | retried hi hf ht => rintro k due ⟨⟩
  | connected hp hm => exact fun k due hp => absurd hp (phase_established_ne _ _ plan _ k due)
  | subscribed hp hd hf =>
    intro k due hp
    rw [Poller.enter] at hp
    split at hp <;> cases hp
  | @polled _ _ _ _ stage hp hr hm =>
    intro k due hp
    rcases stage with _ | _ | _ <;> cases hp
  | closed hp hd => exact fun k due hp => absurd hp (phase_closed_ne _ plan _ k due)
  | consumer hu hw hm =>
    intro k due hp
    rw [hf.absent_of_connecting hp] at hw
    cases hw
  | time hu hidle =>
    intro k due hp
    obtain ⟨now, server, p, result, hattempt, hattempting, hdue⟩ := h k due hp
    exact ⟨now, server, p, result, hattempt, attempting_advance hattempting _, hdue⟩
  | _ => rintro k due ⟨⟩

/-! ### A conflict -/

/-- The attempt under way has met a conflict. -/
def State.MetConflict (plan : Plan) (text : String) (s : State (Client σ)) : Prop :=
  ∃ trials, s.course.world.trials.head? = some trials ∧
    ∃ trial ∈ trials, trial.IsConflict (.ofConfig plan.config) text

/-- What a run may be at that has met a conflict: it waits for the end of the attempt, it has failed
with the conflict, or it was interrupted. -/
def State.Yields (plan : Plan) (text : String) (attempt due : Option Nat)
    (s : State (Client σ)) : Prop :=
  (s.phase = .connecting (.establishing attempt due) ∧ s.worker = .absent ∧
    ∃ p result, s.course.world.Attempting p result ∧
      (result = .failed (.queueConflict plan.config.queueName text) ∨ result = .silent) ∧
      due = result.ending.map fun _ => p.time) ∨
  s.result? = some (.error (.queueConflict plan.config.queueName text)) ∨
  ∃ summary, s.result? = some (.ok summary) ∧ summary.outcome = .interrupted

/-- A conflict is what the attempt is answered with when it is over. -/
theorem receive_conflict {c : Course (Client σ)} {p : Progress σ} {cause : DrainError}
    (h : c.world.Attempting p (.failed cause)) (hlast : cause.isTransient = false)
    (policy : Backoff.Policy) (endpoint : String) (attempt : Option Nat) :
    (Connect.receive (Client.environment P t) policy endpoint attempt c).2
      = .over (.error cause) := by
  rcases hf : c.finish (Client.environment P t) .establish with ⟨c', value⟩
  have hvalue : value = .error cause := by
    have hanswer : (c.finish (Client.environment P t) .establish).2 = .error cause := by
      rw [Course.finish_eq]
      exact h.answer rfl P t c.now
    rw [← hanswer, hf]
  subst hvalue
  cases attempt <;> simp [Connect.receive, hf, hlast]

theorem State.Yields.step {text : String} {attempt due : Option Nat}
    (h : s.Yields plan text attempt due) :
    (Drain.step (Client.environment P t) plan s).Yields plan text attempt due ∧
      (reached due s.course.now = true →
        (Drain.step (Client.environment P t) plan s).result? ≠ none) := by
  rcases h with ⟨hp, hw, p, result, hattempting, hresult, hdue⟩ | hdone | ⟨summary, hdone, hout⟩
  · have hu : s.result? = none := by rw [State.result?, hp]
    rw [step_of_absent hu hw]
    have hcoordinate : coordinate (Client.environment P t) plan s
        = coordinateConnecting (Client.environment P t) plan s (.establishing attempt due) := by
      rw [coordinate, hp]
    rw [hcoordinate, coordinateConnecting, Connect.step]
    cases hi : s.course.interrupted with
    | true =>
      obtain ⟨summary, hgive, hout⟩ := giveUp_result? { s with course := s.course } plan
      refine ⟨.inr (.inr ⟨summary, hgive, hout⟩), fun _ hnone => ?_⟩
      exact absurd (hgive.symm.trans hnone) (by simp)
    | false =>
      cases hd : reached due s.course.now with
      | false =>
        exact ⟨.inl ⟨hp, hw, p, result, attempting_advance hattempting _, hresult, hdue⟩,
          fun h => absurd h (by simp)⟩
      | true =>
        -- an attempt that never ends is never due
        rcases hresult with rfl | rfl
        · have hreceive := receive_conflict (P := P) (t := t) hattempting rfl
            plan.config.reconnectPolicy plan.endpoint attempt
          rcases hr : Connect.receive (Client.environment P t) plan.config.reconnectPolicy
            plan.endpoint attempt s.course with ⟨c', stage⟩
          rw [hr] at hreceive
          subst hreceive
          exact ⟨.inr (.inl rfl), fun _ => Option.some_ne_none _⟩
        · subst hdue
          cases hd
  · rw [step_of_finished hdone]
    exact ⟨.inr (.inl hdone), fun _ => by simp [hdone]⟩
  · rw [step_of_finished hdone]
    exact ⟨.inr (.inr ⟨summary, hdone, hout⟩), fun _ => by simp [hdone]⟩

/-- **A conflict ends the run**, unless the attempt is interrupted first: until the attempt is over
the run waits for it, and when it is over the next step ends the run. -/
theorem run_conflict {text : String} {attempt due : Option Nat}
    (ht : t.spec = .ofConfig plan.config) (hf : s.Follows plan m) (hs : s.Foresees P t)
    (hp : s.phase = .connecting (.establishing attempt due)) (hmet : s.MetConflict plan text)
    (n : Nat) :
    (run (Client.environment P t) plan n s).Yields plan text attempt due := by
  have hyields : s.Yields plan text attempt due := by
    obtain ⟨now, server, p, result, hattempt, hattempting, hdue⟩ := hs attempt due hp
    obtain ⟨trials, hhead, trial, hmem, hconflict⟩ := hmet
    refine .inl ⟨hp, hf.absent_of_connecting hp, p, result, hattempting, ?_, hdue⟩
    obtain rfl := Option.some.inj (hhead.symm.trans hattempting.trials)
    have hanswer : trial ∈ (Amqp.establish P t now server).1.trials := by rwa [hattempt]
    have hresult := Amqp.establish_conflict hanswer (ht ▸ hconflict)
    rw [hattempt, ht] at hresult
    exact hresult
  clear hp hmet hs hf
  induction n generalizing s with
  | zero => exact hyields
  | succ n ih =>
    cases hu : s.result? with
    | some result => rwa [run_of_finished hu]
    | none =>
      rw [run]
      split
      next result hp => simp [State.result?, hp] at hu
      next => exact ih hyields.step.1

theorem run_foresees (P : Peer σ) (t : Target) (plan : Plan) (now : Nat) (client : Client σ)
    (rejected : UInt64) (interrupted : Bool) (n : Nat) :
    (run (Client.environment P t) plan n
      (start (Client.environment P t) plan (.opening now client rejected interrupted))).Foresees
        P t := by
  refine (run_of_move (P := fun s => (∃ m, s.Follows plan m) ∧ s.Foresees P t)
    (fun _ _ hm ⟨⟨m, hf⟩, h⟩ => ⟨hm.follows hf, hm.foresees hf h⟩)
    ⟨start_follows (tracks_opening _ _ _ _ _), ?_⟩ n).2
  cases hi : (Course.opening now client rejected interrupted).interrupted with
  | true =>
    rw [start_of_interrupted hi]
    obtain ⟨summary, hgive⟩ :=
      phase_giveUp (untouched plan (.opening now client rejected interrupted)) plan
    exact fun k due hp => by cases hgive.symm.trans hp
  | false =>
    rw [start_of_not_interrupted hi]
    exact foresees_begin (untouched plan _) _ none

/-- **Which errors end a run.** A run fails with the error of its very first attempt at a session;
or, after a session, with an error that no further attempt would mend, of the latest attempt or of
what ended the latest session before its poller had decided. Whatever fails is dealt with: the
session is closed, and then an error that may pass leads to another attempt or to an interrupted
end, and any other one ends the run as it is, without a further attempt. So is the ending of a
consumer from the moment at which the coordinator looks at it. Nothing of this is put off: a close
is over in the step that finds its answer due, and then the run waits for the next attempt or is
over; the attempt begins in the step that finds the end of the wait come, and an interrupt ends the
wait and the run. In particular, a declaration that an AMQP server answers with a failed
precondition while a session is being opened ends the run with the conflict and the server's text,
unless the attempt is interrupted first. -/
theorem run_failures {ω : Type} (E : Environment ω) (plan : Plan) (now : Nat) (world : ω)
    (rejected : UInt64) (interrupted : Bool) (n : Nat) :
    let s := fun k => run E plan k (start E plan (.opening now world rejected interrupted))
    (∀ cause, (s n).result? = some (.error cause) →
      Failed E plan.config.queueName (s n).course.trace cause) ∧
    (s n).Attends ∧
    (∀ k < n, ∀ activity ending, (s k).phase = .polling activity → (s k).worker = .over ending →
      ((s k).poller.step E activity (s k).course ≠ none ∧ (E.race (s k).course.world).2 = true) ∨
        ∃ later, (s n).course.trace = later ++ (s k).course.trace ∧
          (s n).Closes (State.endingError plan ending) (Entry.requests later)) ∧
    (∀ k cause due, (s k).phase = .closing (.error cause) due →
      reached due (s k).course.now = true → (s (k + 1)).MovesOn cause []) ∧
    (∀ k attempt wake, (s k).phase = .connecting (.backingOff attempt wake) →
      ((s k).course.interrupted = true → ∃ summary,
        (s (k + 1)).result? = some (.ok summary) ∧ summary.outcome = .interrupted) ∧
      ((s k).course.interrupted = false → wake ≤ (s k).course.now →
        (∃ due, (s (k + 1)).phase = .connecting (.establishing (some attempt) due)) ∧
        (s (k + 1)).course.proceedings = .began .establish :: (s k).course.proceedings)) ∧
    ∀ {σ : Type} (P : Peer σ) (endpoint : Endpoint) (shown : String) (client : Client σ),
      let E := Client.environment P (.ofConfig endpoint shown plan.config)
      let s := fun k => run E plan k (start E plan (.opening now client rejected interrupted))
      ∀ k attempt due text, (s k).phase = .connecting (.establishing attempt due) →
        (s k).MetConflict plan text → ∀ j,
        ((s (k + j)).phase = .connecting (.establishing attempt due) ∨
          (s (k + j)).result? = some (.error (.queueConflict plan.config.queueName text)) ∨
          ∃ summary, (s (k + j)).result? = some (.ok summary) ∧ summary.outcome = .interrupted) ∧
        (reached due (s (k + j)).course.now = true → (s (k + j + 1)).result? ≠ none) := by
  intro s
  have hfollows := run_follows E plan now world rejected interrupted
  have hsucc : ∀ k, s (k + 1) = step E plan (s k) := fun k => run_succ plan k _
  refine ⟨fun cause hresult => ?_, run_attends E plan now world rejected interrupted n,
    fun k hk activity ending hp hw => ?_, fun k cause due hp hd => ?_,
    fun k attempt wake hp => ?_, fun P endpoint shown client => ?_⟩
  · exact (run_accountable E plan now world rejected interrupted n).failed hresult
  · have hover := run_of_over (E := E) (hfollows k) hp hw (n - k - 1)
    rwa [← run_add, show k + (n - k - 1 + 1) = n by omega] at hover
  · rw [hsucc, step_of_closing (hfollows k) hp hd]
    exact closed_movesOn _ plan cause
  · rw [hsucc]
    exact step_of_backingOff (hfollows k) hp
  · intro E s k attempt due text hp hmet j
    have hyields : ∀ j, (s (k + j)).Yields plan text attempt due := by
      intro j
      have h := run_conflict (t := .ofConfig endpoint shown plan.config) rfl
        (run_follows E plan now client rejected interrupted k)
        (run_foresees P _ plan now client rejected interrupted k) hp hmet j
      rwa [← run_add] at h
    refine ⟨(hyields j).imp_left And.left, fun hd => ?_⟩
    show (run E plan (k + j + 1) _).result? ≠ none
    rw [run_succ]
    exact (hyields j).step.2 hd

end Drain

/-- A first session that is lost at its first reading, and a queue that has changed since. -/
def Scenario.conflicting : Scenario where
  messages := 1
  latencies := [10000]
  attempts := [{}, { error := some (.queueConflict "jobs" "inequivalent arg") }]
  sessions := [{ polls := [{ error := some (.transport .missingHeartbeat) }] }]

/-- A server whose queue has other properties. -/
def Amqp.Server.conflicting : Amqp.Server where
  lines :=
    [{ faults :=
        [{ method := "queue.declare", action := .cut (.channel 406 "inequivalent arg") }] }]

def Endpoint.sample : Endpoint where
  secure := false
  username := "guest"
  password := "guest"
  host := "localhost"
  port := 5672
  vhost := "/"
  frameMax := none
  channelMax := none
  heartbeat := none
  connectionTimeout := none
  authMechanism := none

/-- The lost session is closed and attempted once more, each as soon as it is due, and the conflict
ends the run; a server that reports it at the first attempt ends the run as well. -/
theorem Drain.run_failures_conflict :
    let s := Scenario.conflicting.runs .sample
    let conflict := DrainError.queueConflict "jobs" "inequivalent arg"
    Failed Scenario.conflicting.environment "jobs" (s 10).course.trace conflict ∧
    (s 10).Closes (.transport .missingHeartbeat) [.establish, .close] ∧
    (s 7).MovesOn (.transport .missingHeartbeat) [] ∧
    (s 9).course.proceedings = .began .establish :: (s 8).course.proceedings ∧
    let E := Amqp.Client.environment Amqp.Server.conflicting.peer
      (.ofConfig .sample "localhost" Drain.Plan.sample.config)
    (Drain.run E .sample 1 (Drain.start E .sample
      (.opening 0 { server := Amqp.Server.conflicting.opening } 0 false))).result? ≠ none := by
  intro s conflict
  obtain ⟨hfailed, hattends, -, hclosed, hwaited, hconflict⟩ := Drain.run_failures
    Scenario.conflicting.environment .sample 0 Scenario.conflicting.opening 0 false 10
  refine ⟨hfailed conflict rfl, hattends ((s 10).course.trace.take 6) _ _ rfl,
    hclosed 6 _ (some 5000) rfl rfl, ((hwaited 8 1 6000 rfl).2 rfl (Nat.le_refl _)).2, ?_⟩
  exact (hconflict Amqp.Server.conflicting.peer .sample "localhost"
    { server := Amqp.Server.conflicting.opening } 0 none (some 0) "inequivalent arg" rfl
    ⟨_, rfl, _, List.mem_of_getElem? (i := 5) rfl, rfl, rfl⟩ 0).2 rfl

end QueueDrain
