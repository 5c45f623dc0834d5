import QueueDrain.Proofs.Conflict
import QueueDrain.Proofs.Images

/-!
# Servers that accept different logins

The credentials of a client occur in one method, the login. If two servers behave alike, each to a
client with credentials of its own, then a run against the one and a run against the other have the
same trace and the same result: both are images of a run against the two servers side by side.

## Main definitions

* `Amqp.Method.withResponse` — a method with another response to the login
* `Amqp.Peer.Alike` — two servers that behave alike up to the responses to the login
* `Amqp.Peer.sideBySide` — two such servers as one
* `Amqp.Peer.Mirrors` — a server that is the image of another one

## Main results

* `Amqp.Peer.Mirrors.environment` — the client on the image of a server is an image of the client
* `Amqp.Peer.Alike.runs` — runs against servers that behave alike
* `Amqp.Server.peer_mirrors` — a scripted server does not look at the response to the login
-/

namespace QueueDrain

namespace Amqp

variable {σ σ' σ₁ σ₂ : Type}

/-! ### Responses -/

/-- A method with another response in place of that of a login. -/
def Method.withResponse (response : String) : Method → Method
  | .startOk mechanism _ connectionName => .startOk mechanism response connectionName
  | m => m

/-- Two methods that differ in the response of a login at most. -/
def Method.Alike (m₁ m₂ : Method) : Prop := m₁.withResponse "" = m₂.withResponse ""

/-- A trial with another response in place of that of a login. -/
def Trial.withResponse (response : String) (t : Trial) : Trial :=
  { t with method := t.method.withResponse response }

section Response

variable (r : String) (m : Method)

theorem Method.alike_withResponse (r' : String) : (m.withResponse r).Alike (m.withResponse r') := by
  cases m <;> rfl

theorem Method.name_withResponse : (m.withResponse r).name = m.name := by
  cases m <;> rfl

theorem Link.refusal?_withResponse (l : Link) : l.refusal? (m.withResponse r) = l.refusal? m := by
  cases m <;> rfl

theorem Link.confirm_withResponse (l : Link) : l.confirm (m.withResponse r) = l.confirm m := by
  cases m <;> rfl

theorem Closure.error_withResponse (k : Closure) :
    k.error (some (m.withResponse r)) = k.error (some m) := by
  cases m <;> rfl

theorem withResponse_eq_closeConnection :
    m.withResponse r = closeConnection ↔ m = closeConnection := by
  cases m <;> simp [Method.withResponse, closeConnection]

end Response

/-! ### Images of servers -/

/-- What comes of a method, with the state of the server mapped. -/
def Reception.map (g : σ → σ') (got : Reception σ) : Reception σ' where
  state := g got.state
  due := got.due
  interrupts := got.interrupts

/-- A server that does on the image of a state what the other does on the state, whatever response
it gets in place of the given one. -/
structure Peer.Mirrors (g : σ → σ') (r : String) (P : Peer σ) (P' : Peer σ') : Prop where
  connect (now : Nat) (s : σ) : P'.connect now (g s) = (P.connect now s).map g id
  receive (now : Nat) (m : Method) (s : σ) :
    P'.receive now (m.withResponse r) (g s) = (P.receive now m s).map g
  reply (now : Nat) (m : Method) (s : σ) :
    P'.reply now (m.withResponse r) (g s) = (P.reply now m s).map g id
  nextPush (s : σ) : P'.nextPush (g s) = P.nextPush s
  push (now : Nat) (s : σ) : P'.push now (g s) = (P.push now s).map g id
  race (turns : Nat) (s : σ) : P'.race turns (g s) = P.race turns s
  consumerFirst (turns : Nat) (s : σ) : P'.consumerFirst turns (g s) = P.consumerFirst turns s

/-- A target that differs in the credentials at most, with the response that they lead to. -/
structure Target.Mirrors (r : String) (t t' : Target) : Prop where
  secure : t'.endpoint.secure = t.endpoint.secure
  shown : t'.shown = t.shown
  prefetch : t'.prefetch = t.prefetch
  spec : t'.spec = t.spec
  handshake : handshake t' = (handshake t).map (Method.withResponse r)

/-- How far a sequence has come, with the state of the server mapped. -/
def Progress.map (g : σ → σ') (r : String) (p : Progress σ) : Progress σ' where
  server := g p.server
  link := p.link
  time := p.time
  trials := p.trials.map (Trial.withResponse r)
  notices := p.notices
  interrupts := p.interrupts

/-- A client with the state of its server mapped. -/
def Client.map (g : σ → σ') (r : String) (c : Client σ) : Client σ' where
  server := g c.server
  link := c.link
  trials := c.trials.map (List.map (Trial.withResponse r))
  waiting := c.waiting.map (Method.withResponse r)
  ending := c.ending
  notices := c.notices
  refused := c.refused
  interruptAt := c.interruptAt
  turns := c.turns

section Map

variable (g : σ → σ') (r : String)

theorem Progress.map_note (p : Progress σ) (t : Trial) :
    (p.map g r).note (t.withResponse r) = (p.note t).map g r := by
  simp [Progress.note, Progress.map]

theorem Client.map_note (c : Client σ) (t : Trial) :
    (c.map g r).note (t.withResponse r) = (c.note t).map g r := by
  cases htrials : c.trials with
  | nil => simp [Client.note, Client.map, htrials]
  | cons current earlier => simp [Client.note, Client.map, htrials]

theorem Client.foldl_map_note (trials : List Trial) (c : Client σ) :
    (trials.map (Trial.withResponse r)).foldl Client.note (c.map g r)
      = (trials.foldl Client.note c).map g r := by
  induction trials generalizing c with
  | nil => rfl
  | cons t rest ih => rw [List.map_cons, List.foldl_cons, List.foldl_cons, c.map_note, ih]

theorem Client.map_alert (now : Nat) (c : Client σ) :
    (c.map g r).alert now = (c.alert now).map (Client.map g r) := by
  cases hi : c.interruptAt with
  | none => simp only [alert, show (c.map g r).interruptAt = none from hi, hi]; rfl
  | some instant =>
    simp only [alert, show (c.map g r).interruptAt = some instant from hi, hi]
    split <;> rfl

end Map

namespace Peer.Mirrors

variable {g : σ → σ'} {r : String} {P : Peer σ} {P' : Peer σ'}

/-! ### Sequences of methods -/

section Sequences

variable (h : Mirrors g r P P') (p : Progress σ)
include h

theorem exchange (m : Method) :
    Amqp.exchange P' (m.withResponse r) (p.map g r)
      = (Amqp.exchange P m p).map (Progress.map g r) id := by
  unfold Amqp.exchange
  rw [show (p.map g r).link = p.link from rfl, Link.refusal?_withResponse]
  cases p.link.refusal? m with
  | some cause =>
    exact congrArg (·, Result.failed cause) (p.map_note g r ⟨p.time, m, false, some cause⟩)
  | none =>
    simp only [show (p.map g r).server = g p.server from rfl,
      show (p.map g r).time = p.time from rfl, h.receive]
    rcases P.receive p.time m p.server with ⟨server, _ | due, interrupts⟩
    · simp [Reception.map, Progress.note, Progress.map, Trial.withResponse]
    · simp only [Reception.map, h.reply, Link.confirm_withResponse, Closure.error_withResponse]
      rcases P.reply (max p.time due) m server with ⟨server', messages | k⟩
      · simp [Progress.note, Progress.map, Trial.withResponse]
      · simp [Progress.note, Progress.map, Trial.withResponse]

theorem exchangeAll (ms : List Method) :
    Amqp.exchangeAll P' (ms.map (Method.withResponse r)) (p.map g r)
      = (Amqp.exchangeAll P ms p).map (Progress.map g r) id := by
  induction ms generalizing p with
  | nil => rfl
  | cons m rest ih =>
    rw [List.map_cons, Amqp.exchangeAll, Amqp.exchangeAll, h.exchange]
    rcases Amqp.exchange P m p with ⟨p', messages | cause | _⟩
    · exact ih p'
    · rfl
    · rfl

theorem closeAll (ms : List Method) :
    Amqp.closeAll P' (ms.map (Method.withResponse r)) (p.map g r)
      = (Amqp.closeAll P ms p).map (Progress.map g r) id := by
  induction ms generalizing p with
  | nil => rfl
  | cons m rest ih =>
    rw [List.map_cons, Amqp.closeAll, Amqp.closeAll, h.exchange]
    rcases Amqp.exchange P m p with ⟨p', messages | cause | _⟩
    · have htell : (if m = closeConnection then (p'.map g r).tell .connectionClosed
            else p'.map g r)
          = (if m = closeConnection then p'.tell .connectionClosed else p').map g r := by
        split <;> rfl
      simp only [Prod.map, id, withResponse_eq_closeConnection, htell]
      exact ih _
    · exact ih p'
    · rfl

theorem giveUp (closes : List Method) (cause : DrainError) :
    Amqp.giveUp P' (closes.map (Method.withResponse r)) cause (p.map g r)
      = (Amqp.giveUp P closes cause p).map (Progress.map g r) id := by
  rw [Amqp.giveUp, Amqp.giveUp, h.closeAll]
  rcases Amqp.closeAll P closes p with ⟨p', _ | _⟩ <;> rfl

variable {t t' : Target} (ht : t.Mirrors r t')
include ht

theorem declareFirst :
    Amqp.declareFirst P' t' (p.map g r)
      = (Amqp.declareFirst P t p).map (Progress.map g r) id := by
  have hdeclare := h.exchange p (.ofSpec t.spec)
  rw [show (Method.ofSpec t.spec).withResponse r = .ofSpec t.spec from rfl] at hdeclare
  rw [Amqp.declareFirst, Amqp.declareFirst, ht.spec, hdeclare]
  rcases Amqp.exchange P (.ofSpec t.spec) p with ⟨p', messages | cause | _⟩
  · rfl
  · exact h.giveUp p' [closeChannel, closeConnection] _
  · rfl

theorem openChannel :
    Amqp.openChannel P' t' (p.map g r)
      = (Amqp.openChannel P t p).map (Progress.map g r) id := by
  have hsetup := h.exchangeAll p (channelSetup t)
  rw [show (channelSetup t).map (Method.withResponse r) = channelSetup t' by
    rw [channelSetup, channelSetup, ht.prefetch]; rfl] at hsetup
  rw [Amqp.openChannel, Amqp.openChannel, hsetup, ht.prefetch]
  rcases Amqp.exchangeAll P (channelSetup t) p with ⟨p', messages | cause | _⟩
  · exact h.declareFirst (p'.tell (.prefetchSet t.prefetch)) ht
  · exact h.giveUp p' [closeConnection] _
  · rfl

theorem openConnection :
    Amqp.openConnection P' t' (p.map g r)
      = (Amqp.openConnection P t p).map (Progress.map g r) id := by
  rw [Amqp.openConnection, Amqp.openConnection, ht.handshake, h.exchangeAll, ht.shown]
  rcases Amqp.exchangeAll P (handshake t) p with ⟨p', messages | cause | _⟩
  · exact h.openChannel (p'.tell (.connected t.shown)) ht
  · rfl
  · rfl

omit p in
theorem establish (now : Nat) (server : σ) :
    Amqp.establish P' t' now (g server)
      = (Amqp.establish P t now server).map (Progress.map g r) id := by
  cases hs : t.endpoint.secure with
  | true =>
    simp only [Amqp.establish, ht.secure, hs, if_true, h.connect]
    rcases P.connect now server with ⟨server', _ | cause⟩
    · exact h.openConnection { server := server', link := {}, time := now } ht
    · rfl
  | false =>
    simp only [Amqp.establish, ht.secure, ht.shown, hs, Bool.false_eq_true, if_false, Progress.tell,
      h.connect]
    rcases P.connect now server with ⟨server', _ | cause⟩
    · exact h.openConnection
        { server := server', link := {}, time := now, notices := [.withoutTls t.shown] } ht
    · rfl

end Sequences

/-! ### The client -/

section Client

variable (h : Mirrors g r P P') (c : Client σ)
include h

theorem submit (now : Nat) (m : Method) :
    Client.submit P' now (m.withResponse r) (c.map g r)
      = (Client.submit P now m c).map (Client.map g r) := by
  let c₀ : Client σ := { c with waiting := some m, ending := none, notices := [] }
  simp only [Client.submit, show (c.map g r).link = c.link from rfl, Link.refusal?_withResponse,
    show (c.map g r).server = g c.server from rfl, h.receive]
  cases c.link.refusal? m with
  | some cause =>
    have hnote := c₀.map_note g r ⟨now, m, false, some cause⟩
    exact congrArg (fun c : Client σ' =>
      ({ state := { c with ending := some (.error (.transport cause)) }, value := some now } :
        Effect (Client σ') (Option Nat))) hnote
  | none =>
    have hnote := c₀.map_note g r ⟨now, m, true, none⟩
    exact congrArg (fun c' : Client σ' =>
      ({ state := { c' with server := g (P.receive now m c.server).state }
         value := (P.receive now m c.server).due
         interrupts := (P.receive now m c.server).interrupts } :
        Effect (Client σ') (Option Nat))) hnote

theorem collect (now : Nat) (m : Method) :
    Client.collect P' now (m.withResponse r) (c.map g r)
      = (Client.collect P now m c).map (Client.map g r) id := by
  simp only [Client.collect, show (c.map g r).server = g c.server from rfl, h.reply,
    Closure.error_withResponse, Link.confirm_withResponse]
  rcases P.reply now m c.server with ⟨server, messages | k⟩ <;> rfl

theorem startReject (now tag : Nat) :
    Client.startReject P' now tag (c.map g r)
      = (Client.startReject P now tag c).map (Client.map g r) := by
  have hreceive := h.receive now (.reject tag false) c.server
  rw [show (Method.reject tag false).withResponse r = .reject tag false from rfl] at hreceive
  simp only [Client.startReject, show (c.map g r).link = c.link from rfl,
    show (c.map g r).server = g c.server from rfl, hreceive]
  cases c.link.refusal? (.reject tag false) with
  | some cause =>
    have hnote := c.map_note g r ⟨now, .reject tag false, false, some cause⟩
    exact congrArg (fun c' : Client σ' =>
      ({ state := { c' with refused := (tag, cause) :: c.refused }, value := some now } :
        Effect (Client σ') (Option Nat))) hnote
  | none =>
    have hnote := c.map_note g r ⟨now, .reject tag false, true, none⟩
    exact congrArg (fun c' : Client σ' =>
      ({ state := { c' with server := g (P.receive now (.reject tag false) c.server).state }
         value := (P.receive now (.reject tag false) c.server).due
         interrupts := (P.receive now (.reject tag false) c.server).interrupts } :
        Effect (Client σ') (Option Nat))) hnote

omit h in
theorem ask : (c.map g r).ask = c.ask.map (Client.map g r) := rfl

omit h in
theorem finishReject (tag : Nat) :
    Client.finishReject tag (c.map g r) = (Client.finishReject tag c).map (Client.map g r) := by
  rw [Client.finishReject, Client.finishReject, show (c.map g r).refused = c.refused from rfl]
  split <;> rfl

variable {t t' : Target} (ht : t.Mirrors r t')
include ht

omit h in
theorem absorb (p : Push) : Client.absorb t' (c.map g r) p = (Client.absorb t c p).map g r := by
  obtain ⟨endpoint', shown', prefetch', spec'⟩ := t'
  obtain rfl : spec' = t.spec := ht.spec
  obtain ⟨server, link, trials, waiting, ending, notices, refused, interruptAt, turns⟩ := c
  cases p with
  | delivery tag | consumerCancelled => rfl
  | cut k =>
    cases waiting with
    | none => rfl
    | some m =>
      cases ending with
      | some result => rfl
      | none => cases m <;> rfl

omit h in
theorem foldl_absorb (pushes : List Push) :
    pushes.foldl (Client.absorb t') (c.map g r) = (pushes.foldl (Client.absorb t) c).map g r := by
  induction pushes generalizing c with
  | nil => rfl
  | cons p rest ih => rw [List.foldl_cons, List.foldl_cons, absorb c ht, ih]

theorem pass (now : Nat) :
    Client.pass P' t' now (c.map g r) = (Client.pass P t now c).map (Client.map g r) := by
  have hpushed : Client.pushed P' t' now (c.map g r) = (Client.pushed P t now c).map g r := by
    rw [Client.pushed, Client.pushed, show (c.map g r).server = g c.server from rfl, h.push,
      ← foldl_absorb _ ht]
    rfl
  rw [Client.pass_eq, Client.pass_eq, hpushed, Client.map_alert]

omit h c in
/-- A request of one method is no login. -/
theorem method (request : Request) :
    (Client.method t request).withResponse r = Client.method t' request := by
  cases request <;> simp only [Client.method, ht.spec] <;> rfl

theorem start (now : Nat) (request : Request) :
    Client.start P' t' now request (c.map g r)
      = (Client.start P t now request c).map (Client.map g r) := by
  have hsubmit := fun request => h.submit c now (Client.method t request)
  simp only [method ht] at hsubmit
  cases request with
  | establish =>
    simp only [Client.start, show (c.map g r).server = g c.server from rfl, h.establish ht]
    rcases Amqp.establish P t now c.server with ⟨p, declared | cause | _⟩ <;> rfl
  | close =>
    have hclose : Amqp.close P' { server := g c.server, link := c.link, time := now }
        = (Amqp.close P { server := c.server, link := c.link, time := now }).map
          (Progress.map g r) id :=
      h.closeAll { server := c.server, link := c.link, time := now } [closeChannel, closeConnection]
    simp only [Client.start, show (c.map g r).server = g c.server from rfl,
      show (c.map g r).link = c.link from rfl, hclose]
    rcases Amqp.close P { server := c.server, link := c.link, time := now } with ⟨p, isOver⟩
    have hnote := Client.foldl_map_note g r p.trials
      { c with
        server := p.server, link := { p.link with stream := none }
        waiting := none, ending := some (.ok 0), notices := p.notices }
    exact congrArg (fun c' => ({
      state := c', value := if isOver then some p.time else none
      interrupts := p.interrupts } : Effect (Client σ') (Option Nat))) hnote
  | subscribe tag => exact hsubmit (.subscribe tag)
  | depth => exact hsubmit .depth
  | cancel tag => exact hsubmit (.cancel tag)

theorem answer (now : Nat) (request : Request) :
    Client.answer P' t' now request (c.map g r)
      = (Client.answer P t now request c).map (Client.map g r) := by
  cases he : c.ending with
  | some result =>
    simp only [Client.answer, show (c.map g r).ending = some result from he, he]
    rfl
  | none =>
    have hcollect := h.collect c now (Client.method t request)
    rw [method ht] at hcollect
    simp only [Client.answer, show (c.map g r).ending = none from he, he, hcollect]
    rcases Client.collect P now (Client.method t request) c with ⟨c', cause | ⟨messages, _⟩⟩
    · cases request <;> simp only [Client.requestError, ht.spec] <;> rfl
    · cases request <;> simp only [Client.requestNotices, ht.spec] <;> rfl

omit c in
/-- **The client on the image of a server is an image of the client.** -/
theorem environment :
    (Client.environment P t).Mirrors (Client.map g r) (Client.environment P' t') where
  nextChange c := by
    show earliest [c.interruptAt, P'.nextPush (g c.server)] = _
    rw [h.nextPush]
    rfl
  pass now c := h.pass c ht now
  start now request c := h.start c ht now request
  answer now request c := h.answer c ht now request
  ask _ c := ask c
  startReject now tag c := h.startReject c now tag
  finishReject _ tag c := finishReject c tag
  race c := Prod.ext rfl (h.race c.turns c.server)
  consumerFirst c := h.consumerFirst c.turns c.server

end Client

end Peer.Mirrors

/-! ### Two servers side by side -/

/-- Two servers behave alike in related states: both do the same when they get the same methods, the
responses to the login apart, and are in related states again. The schedulers look at the same
first. -/
structure Peer.Alike (R : σ₁ → σ₂ → Prop) (P₁ : Peer σ₁) (P₂ : Peer σ₂) : Prop where
  connect {s₁ : σ₁} {s₂ : σ₂} (h : R s₁ s₂) (now : Nat) :
    R (P₁.connect now s₁).1 (P₂.connect now s₂).1 ∧
      (P₂.connect now s₂).2 = (P₁.connect now s₁).2
  receive {s₁ : σ₁} {s₂ : σ₂} (h : R s₁ s₂) {m₁ m₂ : Method} (hm : m₁.Alike m₂) (now : Nat) :
    R (P₁.receive now m₁ s₁).state (P₂.receive now m₂ s₂).state ∧
      (P₂.receive now m₂ s₂).due = (P₁.receive now m₁ s₁).due ∧
      (P₂.receive now m₂ s₂).interrupts = (P₁.receive now m₁ s₁).interrupts
  reply {s₁ : σ₁} {s₂ : σ₂} (h : R s₁ s₂) {m₁ m₂ : Method} (hm : m₁.Alike m₂) (now : Nat) :
    R (P₁.reply now m₁ s₁).1 (P₂.reply now m₂ s₂).1 ∧
      (P₂.reply now m₂ s₂).2 = (P₁.reply now m₁ s₁).2
  nextPush {s₁ : σ₁} {s₂ : σ₂} (h : R s₁ s₂) : P₂.nextPush s₂ = P₁.nextPush s₁
  push {s₁ : σ₁} {s₂ : σ₂} (h : R s₁ s₂) (now : Nat) :
    R (P₁.push now s₁).1 (P₂.push now s₂).1 ∧ (P₂.push now s₂).2 = (P₁.push now s₁).2
  race {s₁ : σ₁} {s₂ : σ₂} (h : R s₁ s₂) (turns : Nat) : P₂.race turns s₂ = P₁.race turns s₁
  consumerFirst {s₁ : σ₁} {s₂ : σ₂} (h : R s₁ s₂) (turns : Nat) :
    P₂.consumerFirst turns s₂ = P₁.consumerFirst turns s₁

/-- Two servers with one image, in which they have got no responses, behave alike. -/
theorem Peer.Mirrors.alike {g₁ : σ₁ → σ'} {g₂ : σ₂ → σ'} {P₁ : Peer σ₁} {P₂ : Peer σ₂} {P : Peer σ'}
    (h₁ : P₁.Mirrors g₁ "" P) (h₂ : P₂.Mirrors g₂ "" P) :
    P₁.Alike (fun s₁ s₂ => g₂ s₂ = g₁ s₁) P₂ where
  connect {s₁ s₂} h now := by
    have hboth := (h₂.connect now s₂).symm.trans ((congrArg _ h).trans (h₁.connect now s₁))
    exact ⟨congrArg Prod.fst hboth, congrArg Prod.snd hboth⟩
  receive {s₁ s₂} h {m₁ m₂} hm now := by
    have hboth : (P₂.receive now m₂ s₂).map g₂ = (P₁.receive now m₁ s₁).map g₁ := by
      rw [← h₁.receive, ← h₂.receive, h, hm]
    exact ⟨congrArg Reception.state hboth, congrArg Reception.due hboth,
      congrArg Reception.interrupts hboth⟩
  reply {s₁ s₂} h {m₁ m₂} hm now := by
    have hboth : (P₂.reply now m₂ s₂).map g₂ id = (P₁.reply now m₁ s₁).map g₁ id := by
      rw [← h₁.reply, ← h₂.reply, h, hm]
    exact ⟨congrArg Prod.fst hboth, congrArg Prod.snd hboth⟩
  nextPush {s₁ s₂} h := by rw [← h₁.nextPush, ← h₂.nextPush, h]
  push {s₁ s₂} h now := by
    have hboth := (h₂.push now s₂).symm.trans ((congrArg _ h).trans (h₁.push now s₁))
    exact ⟨congrArg Prod.fst hboth, congrArg Prod.snd hboth⟩
  race {s₁ s₂} h turns := by rw [← h₁.race, ← h₂.race, h]
  consumerFirst {s₁ s₂} h turns := by rw [← h₁.consumerFirst, ← h₂.consumerFirst, h]

section SideBySide

variable {R : σ₁ → σ₂ → Prop} {P₁ : Peer σ₁} {P₂ : Peer σ₂}

/-- Two servers that behave alike as one, each of which gets a response of its own to the login. -/
def Peer.sideBySide (h : Peer.Alike R P₁ P₂) (r₁ r₂ : String) :
    Peer { s : σ₁ × σ₂ // R s.1 s.2 } where
  connect now s :=
    (⟨((P₁.connect now s.1.1).1, (P₂.connect now s.1.2).1), (h.connect s.2 now).1⟩,
      (P₁.connect now s.1.1).2)
  receive now m s :=
    { state :=
        ⟨((P₁.receive now (m.withResponse r₁) s.1.1).state,
            (P₂.receive now (m.withResponse r₂) s.1.2).state),
          (h.receive s.2 (m.alike_withResponse r₁ r₂) now).1⟩
      due := (P₁.receive now (m.withResponse r₁) s.1.1).due
      interrupts := (P₁.receive now (m.withResponse r₁) s.1.1).interrupts }
  reply now m s :=
    (⟨((P₁.reply now (m.withResponse r₁) s.1.1).1, (P₂.reply now (m.withResponse r₂) s.1.2).1),
        (h.reply s.2 (m.alike_withResponse r₁ r₂) now).1⟩,
      (P₁.reply now (m.withResponse r₁) s.1.1).2)
  nextPush s := P₁.nextPush s.1.1
  push now s :=
    (⟨((P₁.push now s.1.1).1, (P₂.push now s.1.2).1), (h.push s.2 now).1⟩, (P₁.push now s.1.1).2)
  race turns s := P₁.race turns s.1.1
  consumerFirst turns s := P₁.consumerFirst turns s.1.1

variable (h : Peer.Alike R P₁ P₂) (r₁ r₂ : String)

theorem Peer.sideBySide_first : (Peer.sideBySide h r₁ r₂).Mirrors (fun s => s.1.1) r₁ P₁ where
  connect _ _ := rfl
  receive _ _ _ := rfl
  reply _ _ _ := rfl
  nextPush _ := rfl
  push _ _ := rfl
  race _ _ := rfl
  consumerFirst _ _ := rfl

theorem Peer.sideBySide_second : (Peer.sideBySide h r₁ r₂).Mirrors (fun s => s.1.2) r₂ P₂ where
  connect now s := Prod.ext rfl (h.connect s.2 now).2
  receive now m s := by
    obtain ⟨-, hdue, hinterrupts⟩ := h.receive s.2 (m.alike_withResponse r₁ r₂) now
    rcases hgot : P₂.receive now (m.withResponse r₂) s.1.2 with ⟨state, due, interrupts⟩
    rw [hgot] at hdue hinterrupts
    obtain rfl := hdue
    obtain rfl := hinterrupts
    simp only [Reception.map, Peer.sideBySide, hgot]
  reply now m s := Prod.ext rfl (h.reply s.2 (m.alike_withResponse r₁ r₂) now).2
  nextPush s := h.nextPush s.2
  push now s := Prod.ext rfl (h.push s.2 now).2
  race turns s := h.race s.2 turns
  consumerFirst turns s := h.consumerFirst s.2 turns

variable {r₁ r₂}
include h

/-- **Runs against servers that behave alike.** Each of two servers gets the credentials that it is
to get. The runs have the same trace and the same result, their clocks show the same, and they leave
the servers in related states. -/
theorem Peer.Alike.runs {t₁ t₂ : Target} (ht₁ : t₁.Mirrors r₁ t₁) (ht₂ : t₁.Mirrors r₂ t₂)
    {server₁ : σ₁} {server₂ : σ₂} (hserver : R server₁ server₂) (plan : Drain.Plan)
    (interruptAt : Option Nat) (now : Nat) (rejected : UInt64) (interrupted : Bool) (n : Nat) :
    let E₁ := Client.environment P₁ t₁
    let E₂ := Client.environment P₂ t₂
    let s₁ := Drain.run E₁ plan n (Drain.start E₁ plan
      (.opening now { server := server₁, interruptAt } rejected interrupted))
    let s₂ := Drain.run E₂ plan n (Drain.start E₂ plan
      (.opening now { server := server₂, interruptAt } rejected interrupted))
    s₂.course.trace = s₁.course.trace ∧ s₂.result? = s₁.result? ∧ s₂.course.now = s₁.course.now ∧
      R s₁.course.world.server s₂.course.world.server := by
  intro E₁ E₂ s₁ s₂
  -- one run against both servers, of which the two runs are images
  let E := Client.environment (Peer.sideBySide h r₁ r₂) t₁
  let world : Client { s : σ₁ × σ₂ // R s.1 s.2 } :=
    { server := ⟨(server₁, server₂), hserver⟩, interruptAt }
  let s := Drain.run E plan n (Drain.start E plan (.opening now world rejected interrupted))
  have hfirst : s₁ = s.map (Client.map (fun s => s.1.1) r₁) :=
    ((Peer.sideBySide_first h r₁ r₂).environment ht₁).runs plan now world rejected interrupted n
  have hsecond : s₂ = s.map (Client.map (fun s => s.1.2) r₂) :=
    ((Peer.sideBySide_second h r₁ r₂).environment ht₂).runs plan now world rejected interrupted n
  rw [hfirst, hsecond]
  exact ⟨rfl, rfl, rfl, s.course.world.server.2⟩

end SideBySide

/-! ### Scripted servers -/

namespace Server

/-- A scripted server with another response in place of the one that it got. -/
def State.withResponse (r : String) (s : State) : State :=
  { s with received := s.received.map fun line => line.map (Prod.map id (Method.withResponse r)) }

section Response

variable (r : String) (s : State) (now : Nat) (m : Method)

theorem State.count_withResponse (name : String) :
    (s.withResponse r).count name = s.count name := by
  rcases s with ⟨_, _, _, _, _ | ⟨current, earlier⟩⟩
  · rfl
  · simp [State.count, State.withResponse, List.filter_map, Function.comp_def,
      Method.name_withResponse]

theorem State.note_withResponse :
    (s.withResponse r).note now (m.withResponse r) = (s.note now m).withResponse r := by
  rcases s with ⟨_, _, _, _, _ | ⟨current, earlier⟩⟩ <;> rfl

theorem State.perform_withResponse :
    (s.withResponse r).perform now (m.withResponse r)
      = (s.perform now m).map (State.withResponse r) id := by
  cases m with
  | declare name options arguments =>
    have hdeclared : (s.withResponse r).declared = s.declared := by
      rw [State.declared, State.declared, State.count_withResponse]
      rfl
    exact Prod.ext rfl hdeclared
  | _ => rfl

theorem settle_withResponse :
    settle now (m.withResponse r) (s.withResponse r) = (settle now m s).withResponse r := by
  cases m <;> rfl

theorem State.cut_withResponse (k : Closure) :
    (s.withResponse r).cut k = (s.cut k).withResponse r := by
  cases k <;> rfl

/-- What a method comes to that was taken down, with the fault that the script has for it. -/
def State.meet (s : State) (now : Nat) (m : Method) (fault : Option Fault) : Reception State :=
  match fault with
  | none => { state := settle now m s, due := some now }
  | some f =>
    match f.action with
    | .cut k =>
      if m.name == "basic.reject" then { state := s.send (now + f.delay) (.cut k), due := some now }
      else { state := { s with fault := some k }, due := some (now + f.delay) }
    | .cancelConsumer =>
      { state :=
          settle now m ({ s with hasConsumer := false }.send (now + f.delay) .consumerCancelled)
        due := some now }
    | .interrupt true =>
      { state := { s with isSilent := true }
        due := if m.name == "basic.reject" then some now else none
        interrupts := true }
    | .interrupt false => { state := settle now m s, due := some now, interrupts := true }

theorem State.meet_withResponse (fault : Option Fault) :
    (s.withResponse r).meet now (m.withResponse r) fault
      = (s.meet now m fault).map (State.withResponse r) := by
  rcases fault with _ | ⟨method, nth, k | _ | _ | _, delay⟩ <;>
    simp only [State.meet, Method.name_withResponse, settle_withResponse]
  · rfl
  · split <;> rfl
  · have hsettle := settle_withResponse r
      ({ s with hasConsumer := false }.send (now + delay) .consumerCancelled) now m
    exact congrArg (fun s => ({ state := s, due := some now } : Reception State)) hsettle
  · rfl
  · rfl

/-- The state that a method is met with, unless the server is silent. -/
def State.noted (s : State) (now : Nat) (m : Method) : State := { s.note now m with fault := none }

theorem State.noted_withResponse :
    (s.withResponse r).noted now (m.withResponse r) = (s.noted now m).withResponse r := by
  rw [State.noted, State.note_withResponse]
  rfl

/-- The fault that the script has for a method that was taken down. -/
def State.fault? (s : State) (m : Method) : Option Fault :=
  s.line.faults.find? fun f => f.method == m.name && f.nth == s.count m.name

theorem State.fault?_withResponse :
    (s.withResponse r).fault? (m.withResponse r) = s.fault? m := by
  simp only [State.fault?, Method.name_withResponse, State.count_withResponse]
  rfl

theorem receive_eq :
    receive now m s = if s.isSilent then { state := s, due := none }
      else (s.noted now m).meet now m ((s.noted now m).fault? m) := by
  rw [receive]
  split
  · rfl
  · rfl

/-- The state after something was sent of the server's own accord. -/
def State.sent (s : State) : Push → State
  | .cut k => s.cut k
  | _ => s

theorem State.foldl_sent_withResponse (pushes : List Push) :
    pushes.foldl State.sent (s.withResponse r) = (pushes.foldl State.sent s).withResponse r :=
  List.foldl_hom (State.withResponse r) fun s p => by
    cases p with
    | delivery tag | consumerCancelled => rfl
    | cut k => exact State.cut_withResponse r s k

theorem push_eq :
    push now s =
      (((s.outbox.filter fun (instant, _) => instant ≤ now).map Prod.snd).foldl State.sent
          { s with outbox := s.outbox.filter fun (instant, _) => now < instant },
        (s.outbox.filter fun (instant, _) => instant ≤ now).map Prod.snd) := rfl

end Response

/-- **A scripted server does not look at the response.** It answers every login in the same way. -/
theorem peer_mirrors (script : Server) (r : String) :
    script.peer.Mirrors (State.withResponse r) r script.peer where
  connect now s := by
    show (script.connect (s.withResponse r), none) = _
    rw [connect, show (s.withResponse r).received.length = s.received.length from
      List.length_map ..]
    rfl
  receive now m s := by
    show receive now (m.withResponse r) (s.withResponse r) = (receive now m s).map _
    rw [receive_eq, receive_eq, State.noted_withResponse, State.fault?_withResponse,
      State.meet_withResponse, show (s.withResponse r).isSilent = s.isSilent from rfl]
    split <;> rfl
  reply now m s := by
    show reply now (m.withResponse r) (s.withResponse r) = (reply now m s).map _ _
    rw [reply, reply, show (s.withResponse r).fault = s.fault from rfl]
    cases s.fault with
    | none => exact State.perform_withResponse r s now m
    | some k => exact Prod.ext (State.cut_withResponse r { s with fault := none } k) rfl
  nextPush _ := rfl
  push now s := by
    show push now (s.withResponse r) = (push now s).map _ _
    rw [push_eq, push_eq, Prod.map, ← State.foldl_sent_withResponse]
    rfl
  race _ _ := rfl
  consumerFirst _ _ := rfl

/-- Two states of scripted servers that differ in the responses at most that they have got. -/
def State.Alike (s₁ s₂ : State) : Prop := s₂.withResponse "" = s₁.withResponse ""

theorem peer_alike (script : Server) : script.peer.Alike State.Alike script.peer :=
  (script.peer_mirrors "").alike (script.peer_mirrors "")

end Server

end Amqp

end QueueDrain
