import QueueDrain.Proofs.Conversation

/-!
# A drain pronounces no verdict

How a run of the program ended is told in one line behind all others: its report, or the error that
it failed with. A drain logs neither by itself. It only passes on what its environment tells beside
its answers, and a client has nothing of the kind to tell.

An environment may keep lines back until it answers, so that it tells no verdict is a fact about the
states that it can be in. Which states these are is a parameter here.

## Main definitions

* `Notice.isVerdict` — the lines that tell how a run of the program ended
* `Environment.Withholds` — an environment that tells no verdict
* `Course.Withholds` — a course in which none has been told

## Main results

* `Drain.Move.withholds`, `Drain.run_withholds` — no move of a drain tells a verdict, so no run does
* `Amqp.Client.environment_withholds` — the client on a server is such an environment
-/

namespace QueueDrain

/-! ### Lines -/

/-- The lines that tell how a run of the program ended. -/
def Notice.isVerdict : Notice → Bool
  | .report _ | .failed _ => true
  | _ => false

/-- A line that is no verdict is neither an error nor a report. -/
theorem Notice.isVerdict_eq_false_iff {line : Notice} :
    line.isVerdict = false ↔ line.level ≠ .error ∧ ∀ json, line ≠ .report json := by
  cases line <;> simp [isVerdict, level]

/-- An event that tells how a run of the program ended. -/
def Event.isVerdict : Event → Bool
  | .notice line => line.isVerdict
  | _ => false

theorem Offer.isVerdict_of_event? {offer : Offer} {e : Event} (h : offer.event? = some e) :
    e.isVerdict = false := by
  cases offer <;> cases h <;> rfl

theorem Settlement.isVerdict_event (settlement : Settlement) (tag : Nat) :
    (settlement.event tag).isVerdict = false := by
  cases settlement <;> rfl

/-! ### Environments and courses -/

variable {ω α : Type} {E : Environment ω} {Q : ω → Prop}

/-- An effect that tells no verdict and leads to such a state again. -/
structure Effect.Withholds (Q : ω → Prop) (effect : Effect ω α) : Prop where
  state : Q effect.state
  notices : ∀ line ∈ effect.notices, line.isVerdict = false

/-- An environment that tells no verdict from certain states on. -/
structure Environment.Withholds (E : Environment ω) (Q : ω → Prop) : Prop where
  pass {w : ω} (h : Q w) (now : Nat) : (E.pass now w).Withholds Q
  start {w : ω} (h : Q w) (now : Nat) (r : Request) : (E.start now r w).Withholds Q
  answer {w : ω} (h : Q w) (now : Nat) (r : Request) : (E.answer now r w).Withholds Q
  ask {w : ω} (h : Q w) (now : Nat) : (E.ask now w).Withholds Q
  startReject {w : ω} (h : Q w) (now tag : Nat) : (E.startReject now tag w).Withholds Q
  finishReject {w : ω} (h : Q w) (now tag : Nat) : (E.finishReject now tag w).Withholds Q
  race {w : ω} (h : Q w) : Q (E.race w).1

/-- A course in which no verdict has been told. -/
structure Course.Withholds (Q : ω → Prop) (c : Course ω) : Prop where
  world : Q c.world
  trace : ∀ e ∈ c.trace, e.event.isVerdict = false

namespace Course

variable {c c' : Course ω}

/-- The lines of such a course. -/
theorem Withholds.log (h : c.Withholds Q) : ∀ entry ∈ c.log, entry.2.isVerdict = false := by
  intro entry hmem
  obtain ⟨e, he, hentry⟩ := List.mem_filterMap.mp hmem
  have hverdict := h.trace e (List.mem_reverse.mp he)
  obtain ⟨t, event⟩ := e
  cases event <;> cases hentry
  exact hverdict

theorem Withholds.note (h : c.Withholds Q) {e : Event} (he : e.isVerdict = false) :
    (c.note e).Withholds Q :=
  ⟨h.world, List.forall_mem_cons.mpr ⟨he, h.trace⟩⟩

theorem Withholds.tell (h : c.Withholds Q) {line : Notice} (hline : line.isVerdict = false) :
    (c.tell line).Withholds Q := h.note hline

theorem Withholds.absorb (h : c.Withholds Q) {effect : Effect ω α} (he : effect.Withholds Q) :
    (c.absorb effect).Withholds Q := by
  rw [absorb_eq]
  refine ⟨he.state, fun e hmem => ?_⟩
  rcases List.mem_append.mp hmem with hnew | hold
  · rcases List.mem_append.mp hnew with hinterrupt | htold
    · split at hinterrupt
      · rw [List.mem_singleton.mp hinterrupt]
        rfl
      · cases hinterrupt
    · obtain ⟨line, hline, rfl⟩ := List.mem_map.mp htold
      exact he.notices line (List.mem_reverse.mp hline)
  · exact h.trace e hold

theorem Withholds.race (hE : E.Withholds Q) (h : c.Withholds Q) : (c.race E).1.Withholds Q :=
  ⟨hE.race h.world, h.trace⟩

theorem Withholds.raced (hE : E.Withholds Q) (h : c.Withholds Q) (hr : c.Raced E c') :
    c'.Withholds Q := by
  induction hr with
  | refl => exact h
  | tail _ hlast ih =>
    subst hlast
    exact ih.race hE

theorem Withholds.begin (hE : E.Withholds Q) (h : c.Withholds Q) (r : Request) :
    (c.begin E r).1.Withholds Q :=
  (h.note (e := .began r) rfl).absorb (hE.start h.world _ r)

theorem Withholds.finish (hE : E.Withholds Q) (h : c.Withholds Q) {r : Request}
    {value : Except DrainError Nat} (hf : c.finish E r = (c', value)) : c'.Withholds Q := by
  rw [finish_eq] at hf
  obtain ⟨rfl, rfl⟩ := Prod.mk.inj hf
  refine (h.absorb (hE.answer h.world _ r)).note ?_
  cases (E.answer c.now r c.world).value <;> rfl

theorem Withholds.ask (hE : E.Withholds Q) (h : c.Withholds Q) {offer : Offer}
    (ha : c.ask E = (c', offer)) : c'.Withholds Q := by
  have habsorb := h.absorb (hE.ask h.world c.now)
  rw [Course.ask] at ha
  obtain ⟨rfl, rfl⟩ := Prod.mk.inj ha
  split
  next event hevent => exact habsorb.note (Offer.isVerdict_of_event? hevent)
  next => exact habsorb

theorem Withholds.startReject (hE : E.Withholds Q) (h : c.Withholds Q) (tag : Nat) :
    (c.startReject E tag).1.Withholds Q := h.absorb (hE.startReject h.world _ tag)

theorem Withholds.finishReject (hE : E.Withholds Q) (h : c.Withholds Q) {tag : Nat}
    {settlement : Settlement} (hf : c.finishReject E tag = (c', settlement)) : c'.Withholds Q := by
  have habsorb := h.absorb (hE.finishReject h.world c.now tag)
  rw [Course.finishReject] at hf
  obtain ⟨rfl, rfl⟩ := Prod.mk.inj hf
  -- the counter is no matter of lines
  suffices hcount : (if (E.finishReject c.now tag c.world).value = .done then
      { c.absorb (E.finishReject c.now tag c.world) with
        rejected := (c.absorb (E.finishReject c.now tag c.world)).rejected + 1 }
      else c.absorb (E.finishReject c.now tag c.world)).Withholds Q from
    hcount.note (Settlement.isVerdict_event _ tag)
  split
  · exact ⟨habsorb.world, habsorb.trace⟩
  · exact habsorb

theorem Withholds.advance (hE : E.Withholds Q) (h : c.Withholds Q) (wakes : List (Option Nat)) :
    (c.advance E wakes).Withholds Q := by
  rcases advance_eq_or (E := E) c wakes with heq | ⟨t, -, heq⟩
  · rwa [heq]
  · rw [heq]
    exact Withholds.absorb (c := { c with now := t }) ⟨h.world, h.trace⟩ (hE.pass h.world t)

end Course

/-! ### The parts of a run -/

section Parts

variable {c c' : Course ω} (hE : E.Withholds Q) (hc : c.Withholds Q)
include hE hc

theorem Connect.Move.withholds {policy : Backoff.Policy} {endpoint : String} {a : Activity}
    {stage : Stage Activity Result} (h : Move E policy endpoint c a c' stage) :
    c'.Withholds Q := by
  cases h with
  | overtaken _ hr => exact hc.raced hE hr
  | began _ _ => exact hc.begin hE .establish
  | opened _ hf => exact hc.finish hE hf
  | reopened _ hf => exact (hc.finish hE hf).tell rfl
  | failed _ hf _ => exact hc.finish hE hf
  | retried _ hf _ => exact ((hc.finish hE hf).tell rfl).tell rfl

theorem Poller.Move.withholds {p p' : Poller} {a : Activity} {stage : Stage Activity Result}
    (h : Move E p c a c' p' stage) : c'.Withholds Q := by
  cases h with
  | interrupted _ hr => exact hc.raced hE hr
  | began _ hr => exact (hc.raced hE hr).begin hE .depth
  | recorded _ hf =>
    refine (hc.finish hE hf).tell ?_
    split <;> rfl
  | failed _ hf => exact hc.finish hE hf

theorem Consumer.Move.withholds {queue : String} {k : Consumer} {stage : Stage Consumer Ending}
    (h : Move E queue k c c' stage) : c'.Withholds Q := by
  cases h with
  | delivered _ _ ha => exact (hc.ask hE ha).startReject hE _
  | waiting _ _ ha | streamOver _ _ ha _ | streamFailed _ _ ha | streamPanicked _ _ ha =>
    exact hc.ask hE ha
  | rejected _ _ hf | rejectFailed _ _ hf | rejectPanicked _ _ hf => exact hc.finishReject hE hf
  | stopped _ _ => exact hc.tell rfl

end Parts

/-! ### A run -/

namespace Drain

variable {plan : Plan} {s s' : State ω}

section Coordinator

variable (hE : E.Withholds Q) (hs : s.course.Withholds Q)
include hs

theorem withholds_report (outcome : Outcome) : (s.report plan outcome).course.Withholds Q :=
  hs.tell rfl

theorem withholds_giveUp : (s.giveUp plan).course.Withholds Q := by
  rw [State.giveUp]
  split
  · exact withholds_report (s := { s with course := s.course.tell .interruptedEarly })
      (hs.tell rfl) .interrupted
  · exact withholds_report hs .interrupted

theorem withholds_welcome (declared : Nat) : (s.welcome plan declared).course.Withholds Q := by
  rw [State.welcome]
  split
  · exact hs.tell rfl
  · exact hs

theorem withholds_closed (ending : Except DrainError Outcome) :
    (s.closed plan ending).course.Withholds Q := by
  match ending with
  | .ok outcome => exact withholds_report hs outcome
  | .error cause =>
    rw [State.closed]
    split
    · exact (hs.tell rfl).tell rfl
    · exact hs

include hE

theorem withholds_openSession : (s.openSession E plan).course.Withholds Q := by
  rw [State.openSession]
  split
  · exact hs.begin hE .close
  · exact hs.begin hE (.subscribe plan.config.consumerTag)

theorem withholds_established (result : Connect.Result) :
    (s.established E plan result).course.Withholds Q := by
  match result with
  | .error _ => exact hs
  | .ok none => exact withholds_giveUp hs
  | .ok (some declared) => exact withholds_openSession hE (withholds_welcome hs declared)

theorem withholds_polled (stage : Stage Poller.Activity Poller.Result) :
    (s.polled E plan stage).course.Withholds Q := by
  match stage with
  | .ongoing _ => exact hs
  | .over (.ok _) => exact hs.begin hE (.cancel plan.config.consumerTag)
  | .over (.error _) => exact hs.begin hE .close

theorem withholds_joined (outcome : Outcome) (ending : Consumer.Ending) :
    (s.joined E outcome ending).course.Withholds Q := by
  cases ending with
  | stopped => exact hs.begin hE .close
  | failed _ | panicked _ => exact Course.Withholds.begin hE (hs.tell rfl) .close

end Coordinator

/-- **No move tells a verdict.** -/
theorem Move.withholds (hE : E.Withholds Q) (h : Move E plan s s') (hs : s.course.Withholds Q) :
    s'.course.Withholds Q := by
  cases h with
  | connecting _ hm => exact hm.withholds hE hs
  | connected _ hm => exact withholds_established hE (by exact hm.withholds hE hs) _
  | subscribeFailed _ _ hf => exact (hs.finish hE hf).begin hE .close
  | subscribed _ _ hf => exact withholds_polled hE (by exact hs.finish hE hf) _
  | polled _ hr hm => exact withholds_polled hE (by exact hm.withholds hE (hs.raced hE hr)) _
  | abandoned _ _ hr => exact (hs.raced hE hr).begin hE .close
  | cancelled _ _ hf => exact hs.finish hE hf
  | cancelFailed _ _ hf => exact (hs.finish hE hf).tell rfl
  | unjoined _ _ => exact hs.begin hE .close
  | joined _ _ => exact withholds_joined hE hs _ _
  | closed _ _ => exact withholds_closed (by exact hs.finish hE rfl) _
  | consumer _ _ hm => exact hm.withholds hE hs
  | time _ _ => exact hs.advance hE _

/-- **No run tells a verdict.** -/
theorem run_withholds (hE : E.Withholds Q) (plan : Plan) {c : Course ω} (hc : c.Withholds Q)
    (n : Nat) : (run E plan n (start E plan c)).course.Withholds Q := by
  have htold : (untouched plan c).course.Withholds Q := hc.tell rfl
  refine run_of_move (P := fun s => s.course.Withholds Q) (fun _ _ hm => hm.withholds hE) ?_ n
  cases hi : c.interrupted with
  | true =>
    rw [start_of_interrupted hi]
    exact withholds_giveUp htold
  | false =>
    rw [start_of_not_interrupted hi]
    exact htold.begin hE .establish

end Drain

/-! ### The client -/

namespace Amqp

variable {σ : Type} {P : Peer σ}

/-- A sequence of methods that has told no verdict. -/
def Progress.Withholds (p : Progress σ) : Prop := ∀ line ∈ p.notices, line.isVerdict = false

namespace Progress.Withholds

variable {p : Progress σ}

theorem tell (h : p.Withholds) {line : Notice} (hline : line.isVerdict = false) :
    (p.tell line).Withholds := by
  intro l hl
  rcases List.mem_append.mp hl with hl | hl
  · exact h l hl
  · rwa [List.mem_singleton.mp hl]

theorem exchange (h : p.Withholds) (m : Method) : (exchange P m p).1.Withholds := by
  rw [Amqp.exchange]
  split
  · exact h
  · dsimp only
    split
    · exact h
    · split <;> exact h

theorem exchangeAll (h : p.Withholds) (ms : List Method) : (exchangeAll P ms p).1.Withholds := by
  induction ms generalizing p with
  | nil => exact h
  | cons m rest ih =>
    have hm := h.exchange (P := P) m
    rw [Amqp.exchangeAll]
    rcases he : Amqp.exchange P m p with ⟨p', _ | _ | _⟩ <;> rw [he] at hm
    · exact ih hm
    · exact hm
    · exact hm

theorem closeAll (h : p.Withholds) (ms : List Method) : (closeAll P ms p).1.Withholds := by
  induction ms generalizing p with
  | nil => exact h
  | cons m rest ih =>
    have hm := h.exchange (P := P) m
    rw [Amqp.closeAll]
    rcases he : Amqp.exchange P m p with ⟨p', _ | _ | _⟩ <;> rw [he] at hm
    · dsimp only
      split
      · exact ih (hm.tell rfl)
      · exact ih hm
    · exact ih hm
    · exact hm

theorem giveUp (h : p.Withholds) (closes : List Method) (cause : DrainError) :
    (giveUp P closes cause p).1.Withholds := by
  rw [(giveUp_eq_or P closes cause p).1]
  exact h.closeAll closes

theorem declareFirst (h : p.Withholds) (t : Target) : (declareFirst P t p).1.Withholds := by
  have hm := h.exchange (P := P) (.ofSpec t.spec)
  rw [Amqp.declareFirst]
  rcases he : Amqp.exchange P (.ofSpec t.spec) p with ⟨p', _ | _ | _⟩ <;> rw [he] at hm
  · exact hm
  · exact hm.giveUp _ _
  · exact hm

theorem openChannel (h : p.Withholds) (t : Target) : (openChannel P t p).1.Withholds := by
  have hm := h.exchangeAll (P := P) (channelSetup t)
  rw [Amqp.openChannel]
  rcases he : Amqp.exchangeAll P (channelSetup t) p with ⟨p', _ | _ | _⟩ <;> rw [he] at hm
  · exact (hm.tell rfl).declareFirst t
  · exact hm.giveUp _ _
  · exact hm

theorem openConnection (h : p.Withholds) (t : Target) : (openConnection P t p).1.Withholds := by
  have hm := h.exchangeAll (P := P) (handshake t)
  rw [Amqp.openConnection]
  rcases he : Amqp.exchangeAll P (handshake t) p with ⟨p', _ | _ | _⟩ <;> rw [he] at hm
  · exact (hm.tell rfl).openChannel t
  · exact hm
  · exact hm

end Progress.Withholds

theorem establish_withholds (P : Peer σ) (t : Target) (now : Nat) (server : σ) :
    (establish P t now server).1.Withholds := by
  let p₀ : Progress σ := { server, link := {}, time := now }
  have hp₀ : p₀.Withholds := List.forall_mem_nil _
  have hp : (if t.endpoint.secure then p₀ else p₀.tell (.withoutTls t.shown)).Withholds := by
    split
    · exact hp₀
    · exact hp₀.tell rfl
  rw [establish]
  split
  · exact hp
  · exact Progress.Withholds.openConnection (by exact hp) t

namespace Client

/-- A client that keeps no verdict back for the answer to a request. -/
def Withholds (c : Client σ) : Prop := ∀ line ∈ c.notices, line.isVerdict = false

theorem note_notices (c : Client σ) (trial : Trial) : (c.note trial).notices = c.notices := by
  rw [note]
  split <;> rfl

theorem requestNotices_withholds (t : Target) (r : Request) :
    ∀ line ∈ requestNotices t r, line.isVerdict = false := by
  cases r <;> simp [requestNotices, Notice.isVerdict]

variable {c : Client σ}

/-- A client that has nothing to tell with an answer. -/
theorem withholds_nil (h : c.notices = []) : c.Withholds := by
  rw [Withholds, h]
  exact List.forall_mem_nil _

theorem submit_withholds (P : Peer σ) (now : Nat) (m : Method) (c : Client σ) :
    (c.submit P now m).Withholds Withholds := by
  rw [submit]
  split
  · exact ⟨withholds_nil (note_notices _ _), List.forall_mem_nil _⟩
  · exact ⟨withholds_nil (note_notices _ _), List.forall_mem_nil _⟩

theorem close_withholds (P : Peer σ) (t : Target) (now : Nat) (c : Client σ) :
    (start P t now .close c).Withholds Withholds := by
  let p : Progress σ := { server := c.server, link := c.link, time := now }
  have hclose : (Amqp.close P p).1.Withholds :=
    Progress.Withholds.closeAll (p := p) (List.forall_mem_nil _) _
  refine ⟨?_, List.forall_mem_nil _⟩
  rw [Withholds, start, foldl_note_keeps note_notices]
  exact hclose

theorem answer_withholds (h : c.Withholds) (P : Peer σ) (t : Target) (now : Nat) (r : Request) :
    (answer P t now r c).Withholds Withholds := by
  rw [answer]
  split
  · exact ⟨withholds_nil rfl, h⟩
  · split
    · exact ⟨withholds_nil rfl, requestNotices_withholds t r⟩
    · exact ⟨withholds_nil rfl, List.forall_mem_nil _⟩

theorem pass_withholds (h : c.Withholds) (P : Peer σ) (t : Target) (now : Nat) :
    (pass P t now c).Withholds Withholds where
  state := by
    refine pass_keeps (Q := Withholds) (fun _ _ h => h) (fun c push h => ?_) (fun _ h => h) now h
    obtain ⟨ending, heq, -⟩ := absorb_eq t c push
    rw [heq]
    exact h
  notices := by
    rw [pass_eq, alert]
    split
    · split
      · exact List.forall_mem_singleton.mpr rfl
      · exact List.forall_mem_nil _
    · exact List.forall_mem_nil _

theorem startReject_withholds (h : c.Withholds) (P : Peer σ) (now tag : Nat) :
    (startReject P now tag c).Withholds Withholds := by
  have hnote : ∀ trial, (c.note trial).Withholds := fun trial => by
    rwa [Withholds, note_notices]
  rw [startReject]
  split
  · exact ⟨hnote _, List.forall_mem_nil _⟩
  · exact ⟨hnote _, List.forall_mem_nil _⟩

theorem finishReject_withholds (h : c.Withholds) (tag : Nat) :
    (finishReject tag c).Withholds Withholds := by
  rw [finishReject]
  split
  · exact ⟨h, List.forall_mem_nil _⟩
  · exact ⟨h, List.forall_mem_nil _⟩

/-- **The client on a server tells no verdict.** -/
theorem environment_withholds (P : Peer σ) (t : Target) :
    (environment P t).Withholds Withholds where
  pass h now := pass_withholds h P t now
  start {c} h now r := by
    cases r with
    | establish => exact ⟨establish_withholds P t now c.server, List.forall_mem_nil _⟩
    | close => exact close_withholds P t now c
    | subscribe _ | depth | cancel _ => exact submit_withholds P now _ c
  answer h now r := answer_withholds h P t now r
  ask h _ := ⟨h, List.forall_mem_nil _⟩
  startReject h now tag := startReject_withholds h P now tag
  finishReject h _ tag := finishReject_withholds h tag
  race h := h

end Client

end Amqp

end QueueDrain
