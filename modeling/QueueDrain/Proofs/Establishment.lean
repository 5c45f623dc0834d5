import QueueDrain.Proofs.Conversation

/-!
# Attempts that fail and attempts that open

An attempt at a session is a handshake, the opening of a channel and the declaration of the queue,
one method after the other. Once the connection is open, the first step that fails is what the
attempt fails with: no later step is tried, and the client closes what it has opened, the channel if
the step was the declaration and then the connection. Whatever becomes of these closes, the error
stays what it was.

## Main definitions

* `Amqp.Trial.Stops`, `Amqp.Trial.Completes` — methods tried up to the first that failed, or all
* `Amqp.Target.Reports` — what a failed step is reported as
* `Amqp.Target.undoing` — the closes in front of that of the connection
* `Amqp.Progress.GivesUp`, `Amqp.Progress.Opened` — the two ways in which an attempt ends
* `Amqp.Progress.HasConnected` — the connection was opened

## Main results

* `Amqp.exchangeAll_trials` — a sequence stops with the first method that fails
* `Amqp.closeAll_trials` — closes that are over have all been tried, whatever has become of each
* `Amqp.openChannel_ends` — what is tried on an open connection
* `Amqp.establish_fails_or_opens` — an attempt that fails closes what it has opened
-/

namespace QueueDrain

namespace Amqp

variable {σ : Type} {P : Peer σ} {t : Target} {p p' p'' : Progress σ} {ms : List Method}

/-! ### Trials that failed, and trials that did not -/

/-- Methods that were tried one after the other, up to the first that failed. -/
structure Trial.Stops (ms : List Method) (error : TransportError) (done : List Trial)
    (failing : Trial) : Prop where
  inOrder : done.map Trial.method ++ [failing.method] <+: ms
  succeeded : ∀ trial ∈ done, trial.failure = none
  failure : failing.failure = some error

/-- Methods that were all tried, none of which failed. -/
structure Trial.Completes (ms : List Method) (done : List Trial) : Prop where
  inOrder : done.map Trial.method = ms
  succeeded : ∀ trial ∈ done, trial.failure = none

theorem Trial.Completes.append {ms ms' : List Method} {done done' : List Trial}
    (h : Completes ms done) (h' : Completes ms' done') :
    Completes (ms ++ ms') (done ++ done') where
  inOrder := by rw [List.map_append, h.inOrder, h'.inOrder]
  succeeded := List.forall_mem_append.mpr ⟨h.succeeded, h'.succeeded⟩

/-- Methods that stop behind others that completed. -/
theorem Trial.Stops.behind {ms ms' : List Method} {done done' : List Trial} {failing : Trial}
    {error : TransportError} (h : Completes ms done) (h' : Stops ms' error done' failing) :
    Stops (ms ++ ms') error (done ++ done') failing where
  inOrder := by
    rw [List.map_append, h.inOrder, List.append_assoc]
    exact (List.prefix_append_right_inj ms).mpr h'.inOrder
  succeeded := List.forall_mem_append.mpr ⟨h.succeeded, h'.succeeded⟩
  failure := h'.failure

theorem Trial.Stops.mono {ms ms' : List Method} {done : List Trial} {failing : Trial}
    {error : TransportError} (h : Stops ms error done failing) (hms : ms <+: ms') :
    Stops ms' error done failing := ⟨h.inOrder.trans hms, h.succeeded, h.failure⟩

/-- A sequence stops with the first method that fails. -/
theorem exchangeAll_trials (P : Peer σ) (ms : List Method) (p : Progress σ) :
    (∀ n, (exchangeAll P ms p).2 = .done n → ∃ done, Trial.Completes ms done ∧
      (exchangeAll P ms p).1.trials = p.trials ++ done) ∧
    (∀ error, (exchangeAll P ms p).2 = .failed error → ∃ done failing,
      Trial.Stops ms error done failing ∧
        (exchangeAll P ms p).1.trials = p.trials ++ done ++ [failing]) := by
  induction ms generalizing p with
  | nil => exact ⟨fun _ _ => ⟨[], ⟨rfl, by simp⟩, by simp [exchangeAll]⟩, fun _ h => by cases h⟩
  | cons m rest ih =>
    obtain ⟨trial, htrials, hmethod, hfailure⟩ := exchange_trials P m p
    rw [exchangeAll]
    rcases he : exchange P m p with ⟨p', messages | cause | _⟩ <;> rw [he] at htrials hfailure
    · obtain ⟨hdone, hfailed⟩ := ih p'
      have hfirst : Trial.Completes [m] [trial] := ⟨by simp [hmethod], by
        simpa [Result.failure?] using hfailure⟩
      dsimp only at htrials
      refine ⟨fun n hn => ?_, fun error herror => ?_⟩
      · obtain ⟨done, hcompletes, hdone⟩ := hdone n hn
        exact ⟨trial :: done, hfirst.append hcompletes, by simp [hdone, htrials]⟩
      · obtain ⟨done, failing, hstops, hfailed⟩ := hfailed error herror
        exact ⟨trial :: done, failing, .behind hfirst hstops, by simp [hfailed, htrials]⟩
    · refine ⟨fun n hn => (by cases hn), fun error herror => ?_⟩
      cases herror
      exact ⟨[], trial, ⟨by simp [hmethod], by simp, hfailure⟩, by simpa using htrials⟩
    · exact ⟨fun n hn => (by cases hn), fun error herror => (by cases herror)⟩

/-! ### What an answer leaves behind -/

/-- A method that was answered in the usual way has changed the link as it does, and the server gave
that answer last. -/
theorem exchange_done (P : Peer σ) (m : Method) (p : Progress σ) (n : Nat)
    (h : (exchange P m p).2 = .done n) :
    (exchange P m p).1.link = p.link.confirm m ∧
      ∃ s consumers, P.reply (exchange P m p).1.time m s
        = ((exchange P m p).1.server, .done n consumers) := by
  revert h
  rw [exchange]
  split
  next => exact fun h => by cases h
  next =>
    dsimp only
    split
    next => exact fun h => by cases h
    next =>
      split
      next hreply =>
        intro h
        cases h
        exact ⟨rfl, _, _, hreply⟩
      next => exact fun h => by cases h

theorem exchangeAll_link (P : Peer σ) (ms : List Method) (p : Progress σ) (n : Nat)
    (h : (exchangeAll P ms p).2 = .done n) :
    (exchangeAll P ms p).1.link = ms.foldl Link.confirm p.link := by
  induction ms generalizing p with
  | nil => rfl
  | cons m rest ih =>
    rw [exchangeAll] at h ⊢
    rcases he : exchange P m p with ⟨p', messages | cause | _⟩ <;> rw [he] at h
    · have hlink := (exchange_done P m p messages (by rw [he])).1
      rw [he] at hlink
      rw [List.foldl_cons, ← hlink]
      exact ih p' h
    · cases h
    · cases h

/-! ### Closing -/

/-- A step of closing that is over: the rest goes on behind one more trial. -/
theorem closeAll_cons {m : Method} (h : (closeAll P (m :: ms) p).2 = true) :
    ∃ p' trial, closeAll P (m :: ms) p = closeAll P ms p' ∧ p'.trials = p.trials ++ [trial] ∧
      trial.method = m ∧ (trial.failure = none → p'.link = p.link.confirm m) := by
  obtain ⟨trial, htrials, hmethod, hfailure⟩ := exchange_trials P m p
  have hlink := exchange_done P m p
  rw [closeAll] at h ⊢
  rcases he : exchange P m p with ⟨p', messages | cause | _⟩ <;> rw [he] at h htrials hfailure hlink
  · refine ⟨_, trial, rfl, ?_, hmethod, fun _ => ?_⟩
    · rw [← htrials]
      split <;> rfl
    · rw [← (hlink messages rfl).1]
      split <;> rfl
  · refine ⟨p', trial, rfl, htrials, hmethod, fun hnone => ?_⟩
    rw [hfailure] at hnone
    cases hnone
  · cases h

/-- Closes that are all over have all been tried, whatever has become of each. The last one is that
of the connection: unless it has failed, nothing is open any more. -/
theorem closeAll_trials (h : (closeAll P (ms ++ [closeConnection]) p).2 = true) :
    ∃ closes last,
      (closeAll P (ms ++ [closeConnection]) p).1.trials = p.trials ++ closes ++ [last] ∧
      closes.map Trial.method = ms ∧ last.method = closeConnection ∧
      (last.failure = none →
        (closeAll P (ms ++ [closeConnection]) p).1.link.connection = .closed ∧
          (closeAll P (ms ++ [closeConnection]) p).1.link.channel = .closed) := by
  induction ms generalizing p with
  | nil =>
    obtain ⟨p', last, hclose, htrials, hmethod, hlink⟩ := closeAll_cons h
    rw [List.nil_append, hclose, closeAll]
    refine ⟨[], last, by simpa using htrials, rfl, hmethod, fun hnone => ?_⟩
    rw [hlink hnone]
    exact ⟨rfl, rfl⟩
  | cons m rest ih =>
    rw [List.cons_append] at h ⊢
    obtain ⟨p', trial, hclose, htrials, hmethod, -⟩ := closeAll_cons h
    rw [hclose] at h ⊢
    obtain ⟨closes, last, hcloses, hmethods, hlast⟩ := ih h
    exact ⟨trial :: closes, last, by simp [hcloses, htrials], by simp [hmethod, hmethods], hlast⟩

/-! ### Opening -/

/-- What a failed step is reported as: a declaration that the server refuses with a failed
precondition is a conflict, and every other failure is reported as it is. -/
inductive Target.Reports (t : Target) (m : Method) : TransportError → DrainError → Prop
  | conflict (text : String) : m = .ofSpec t.spec →
    Reports t m (.protocol .preconditionFailed text) (.queueConflict t.spec.name text)
  | plain (error : TransportError) :
    (m = .ofSpec t.spec → ∀ text, error ≠ .protocol .preconditionFailed text) →
    Reports t m error (.transport error)

/-- A failed declaration is reported as `DrainError.ofDeclare` says. -/
theorem Target.reports_ofDeclare (t : Target) (error : TransportError) :
    t.Reports (.ofSpec t.spec) error (.ofDeclare t.spec.name error) := by
  unfold DrainError.ofDeclare
  split
  next text => exact .conflict text rfl
  next hother => exact .plain error fun _ text h => hother text h

/-- The closes that a failed step asks for in front of that of the connection. -/
def Target.undoing (t : Target) (m : Method) : List Method :=
  if m = .ofSpec t.spec then [closeChannel] else []

/-- A sequence that has come from `p` to `p'` has failed at one of its steps, and then it has closed
what was open, the connection last. -/
def Progress.GivesUp (t : Target) (ms : List Method) (p p' : Progress σ) (cause : DrainError) :
    Prop :=
  ∃ done failing error closes last,
    p'.trials = p.trials ++ done ++ [failing] ++ closes ++ [last] ∧
    Trial.Stops ms error done failing ∧ t.Reports failing.method error cause ∧
    closes.map Trial.method = t.undoing failing.method ∧ last.method = closeConnection ∧
    (last.failure = none → p'.link.connection = .closed ∧ p'.link.channel = .closed)

/-- A sequence that has come from `p` to `p'` has completed with the declaration of the queue, and
has closed nothing. -/
structure Progress.Opened (P : Peer σ) (t : Target) (ms : List Method) (p p' : Progress σ)
    (declared : Nat) : Prop where
  trials : ∃ done, p'.trials = p.trials ++ done ∧ Trial.Completes ms done
  link : p'.link = ms.foldl Link.confirm p.link
  reply : ∃ s consumers, P.reply p'.time (.ofSpec t.spec) s = (p'.server, .done declared consumers)

/-- What is known of a sequence that has come from `p` to `p'`, whichever way it ends. -/
structure Progress.Ends (P : Peer σ) (t : Target) (ms : List Method) (p p' : Progress σ)
    (result : Establishment) : Prop where
  opened {declared : Nat} (h : result = .opened declared) : p.Opened P t ms p' declared
  failed {cause : DrainError} (h : result = .failed cause) : p.GivesUp t ms p' cause

section Behind

variable {ms' : List Method} {done : List Trial} {declared : Nat} {cause : DrainError}

theorem Progress.GivesUp.behind (h : p'.GivesUp t ms' p'' cause) (hdone : Trial.Completes ms done)
    (htrials : p'.trials = p.trials ++ done) : p.GivesUp t (ms ++ ms') p'' cause := by
  obtain ⟨done', failing, error, closes, last, htrials', hstops, hrest⟩ := h
  refine ⟨done ++ done', failing, error, closes, last, ?_, hstops.behind hdone, hrest⟩
  rw [htrials', htrials, List.append_assoc p.trials]

theorem Progress.Opened.behind (h : p'.Opened P t ms' p'' declared)
    (hdone : Trial.Completes ms done) (htrials : p'.trials = p.trials ++ done)
    (hlink : p'.link = ms.foldl Link.confirm p.link) :
    p.Opened P t (ms ++ ms') p'' declared where
  trials := by
    obtain ⟨done', htrials', hdone'⟩ := h.trials
    exact ⟨done ++ done', by rw [htrials', htrials, List.append_assoc], hdone.append hdone'⟩
  link := by rw [h.link, hlink, List.foldl_append]
  reply := h.reply

end Behind

/-- An attempt that has given up fails with the error that it met, and its closes are over. -/
theorem giveUp_failed {closes : List Method} {cause e : DrainError}
    (h : (giveUp P closes cause p).2 = .failed e) : cause = e ∧ (closeAll P closes p).2 = true := by
  rw [giveUp] at h
  split at h
  next hclose =>
    cases h
    exact ⟨rfl, by rw [hclose]⟩
  next => cases h

/-- A sequence that fails gives up. -/
theorem giveUp_ends {closes : List Method} {cause : DrainError} {done : List Trial}
    {failing : Trial} {error : TransportError} (hstops : Trial.Stops ms error done failing)
    (htrials : p'.trials = p.trials ++ done ++ [failing])
    (hreports : t.Reports failing.method error cause)
    (hcloses : closes = t.undoing failing.method ++ [closeConnection]) :
    p.Ends P t ms (giveUp P closes cause p').1 (giveUp P closes cause p').2 := by
  obtain ⟨hgive, hresult⟩ := giveUp_eq_or P closes cause p'
  refine ⟨fun h => ?_, fun {e} h => ?_⟩
  · rcases hresult with hresult | hresult <;> cases hresult.symm.trans h
  · obtain ⟨rfl, hover⟩ := giveUp_failed h
    subst hcloses
    obtain ⟨closes, last, hlast, hmethods, hmethod, hlink⟩ := closeAll_trials hover
    refine ⟨done, failing, error, closes, last, ?_, hstops, hreports, hmethods, hmethod, ?_⟩
    · rw [hgive, hlast, htrials]
    · rwa [hgive]

/-- The declaration of the queue. -/
theorem declareFirst_ends (P : Peer σ) (t : Target) (p : Progress σ) :
    p.Ends P t [.ofSpec t.spec] (declareFirst P t p).1 (declareFirst P t p).2 := by
  obtain ⟨trial, htrials, hmethod, hfailure⟩ := exchange_trials P (.ofSpec t.spec) p
  have hdone := exchange_done P (.ofSpec t.spec) p
  rw [declareFirst]
  rcases he : exchange P (.ofSpec t.spec) p with ⟨p', messages | error | _⟩ <;>
    rw [he] at htrials hfailure hdone
  · refine ⟨fun h => ?_, fun h => by cases h⟩
    cases h
    obtain ⟨hlink, hreply⟩ := hdone messages rfl
    exact ⟨⟨[trial], htrials, by simp [hmethod], by simpa [Result.failure?] using hfailure⟩, hlink,
      hreply⟩
  · have hstops : Trial.Stops [.ofSpec t.spec] error [] trial :=
      ⟨by simp [hmethod], by simp, hfailure⟩
    refine giveUp_ends hstops (by simpa using htrials) ?_ ?_
    · rw [hmethod]
      exact t.reports_ofDeclare error
    · rw [hmethod, Target.undoing, if_pos rfl]
      rfl
  · exact ⟨fun h => (by cases h), fun h => (by cases h)⟩

/-- No step in front of the declaration is one. -/
theorem not_mem_channelSetup (t : Target) : .ofSpec t.spec ∉ channelSetup t := by
  simp [channelSetup, Method.ofSpec]

/-- The channel is opened. -/
theorem openChannel_ends (P : Peer σ) (t : Target) (p : Progress σ) :
    p.Ends P t (channelOpening t) (openChannel P t p).1 (openChannel P t p).2 := by
  obtain ⟨hdone, hfailed⟩ := exchangeAll_trials P (channelSetup t) p
  have hlink := exchangeAll_link P (channelSetup t) p
  rw [openChannel]
  rcases he : exchangeAll P (channelSetup t) p with ⟨p', messages | error | _⟩ <;>
    rw [he] at hdone hfailed hlink
  · obtain ⟨done, hcompletes, htrials⟩ := hdone messages rfl
    have hends := declareFirst_ends P t (p'.tell (.prefetchSet t.prefetch))
    exact ⟨fun h => (hends.opened h).behind hcompletes htrials (hlink messages rfl),
      fun h => (hends.failed h).behind hcompletes htrials⟩
  · obtain ⟨done, failing, hstops, htrials⟩ := hfailed error rfl
    have hne : failing.method ≠ .ofSpec t.spec := fun h =>
      not_mem_channelSetup t (h ▸ hstops.inOrder.subset (by simp))
    refine giveUp_ends (hstops.mono (List.prefix_append _ _)) htrials (.plain error ?_) ?_
    · exact fun h => absurd h hne
    · rw [Target.undoing, if_neg hne]
      rfl
  · exact ⟨fun h => (by cases h), fun h => (by cases h)⟩

/-- The connection was opened: the handshake has completed. -/
def Progress.HasConnected (t : Target) (p : Progress σ) : Prop :=
  ∃ shake later, p.trials = shake ++ later ∧ Trial.Completes (handshake t) shake

/-- A handshake that has failed has opened no connection. -/
theorem not_hasConnected {done : List Trial} {failing : Trial} {error : TransportError}
    (hstops : Trial.Stops (handshake t) error done failing)
    (htrials : p.trials = done ++ [failing]) : ¬ p.HasConnected t := by
  rintro ⟨shake, later, hsplit, hshake⟩
  have hlength : (done ++ [failing]).length ≤ shake.length := by
    have h := hstops.inOrder.length_le
    rw [← hshake.inOrder, List.length_map] at h
    simpa using h
  have hstart : done ++ [failing] <+: shake :=
    List.prefix_of_prefix_length_le (List.prefix_refl _) ⟨later, by rw [← hsplit, htrials]⟩ hlength
  have hfailure := hstops.failure
  rw [hshake.succeeded failing (hstart.subset (by simp))] at hfailure
  cases hfailure

/-- An attempt opens no connection, or it goes on with the channel of an open one. -/
theorem establish_eq_openChannel_or (P : Peer σ) (t : Target) (now : Nat) (server : σ) :
    ((∀ declared, (establish P t now server).2 ≠ .opened declared) ∧
      ∀ cause, (establish P t now server).2 = .failed cause →
        ¬ (establish P t now server).1.HasConnected t) ∨
    ∃ p : Progress σ, Trial.Completes (handshake t) p.trials ∧
      p.link = (handshake t).foldl Link.confirm {} ∧
      establish P t now server = openChannel P t p := by
  obtain ⟨p, hfresh, ⟨cause, he⟩ | he⟩ := establish_eq_or P t now server <;> rw [he]
  · refine .inl ⟨by simp, ?_⟩
    -- nothing was tried at all
    rintro - - ⟨shake, later, hsplit, hshake⟩
    rw [hfresh.trials] at hsplit
    obtain ⟨rfl, -⟩ := List.append_eq_nil_iff.mp hsplit.symm
    cases hshake.inOrder
  · obtain ⟨hdone, hfailed⟩ := exchangeAll_trials P (handshake t) p
    have hlink := exchangeAll_link P (handshake t) p
    rw [hfresh.trials] at hdone hfailed
    rw [hfresh.link] at hlink
    rw [openConnection]
    rcases he : exchangeAll P (handshake t) p with ⟨p', messages | error | _⟩ <;>
      rw [he] at hdone hfailed hlink
    · obtain ⟨done, hcompletes, htrials⟩ := hdone messages rfl
      refine .inr ⟨p'.tell (.connected t.shown), ?_, hlink messages rfl, rfl⟩
      rwa [← List.nil_append done, ← htrials] at hcompletes
    · obtain ⟨done, failing, hstops, htrials⟩ := hfailed error rfl
      exact .inl ⟨by simp, fun _ _ => not_hasConnected hstops (by simpa using htrials)⟩
    · exact .inl ⟨by simp, by simp⟩

/-- **An attempt that fails closes what it has opened.** If it fails on an open connection, then it
fails with the error of its first step that failed, no later step was tried, and the connection was
closed, once, and the channel before it if that step was the declaration. The attempt is over when
these closes are, and whatever becomes of them, the error stays what it was. An attempt that
succeeds has closed nothing, and its count is that of the declaration. -/
theorem establish_fails_or_opens (P : Peer σ) (t : Target) (now : Nat) (server : σ) :
    let p := (establish P t now server).1
    let result := (establish P t now server).2
    (∀ cause, result = .failed cause → p.HasConnected t →
      ∃ shake done failing error closes last,
        p.trials = shake ++ done ++ [failing] ++ closes ++ [last] ∧
        Trial.Completes (handshake t) shake ∧ Trial.Stops (channelOpening t) error done failing ∧
        t.Reports failing.method error cause ∧
        closes.map Trial.method = t.undoing failing.method ∧ last.method = closeConnection ∧
        (last.failure = none → p.link.connection = .closed ∧ p.link.channel = .closed) ∧
        ∀ trial ∈ p.trials, trial.time ≤ p.time) ∧
    ∀ declared, result = .opened declared →
      Trial.Completes (handshake t ++ channelOpening t) p.trials ∧
      p.link = { connection := .connected, channel := .connected } ∧
      ∃ s consumers, P.reply p.time (.ofSpec t.spec) s = (p.server, .done declared consumers) := by
  intro p result
  have htime := (establish_attempts P t now server).time_le
  rcases establish_eq_openChannel_or P t now server with
    ⟨hopened, hfailed⟩ | ⟨p₁, hshake, hlink, he⟩
  · exact ⟨fun cause h hconnected => absurd hconnected (hfailed cause h),
      fun declared h => absurd h (hopened declared)⟩
  · obtain ⟨hopened, hfailed⟩ := he ▸ openChannel_ends P t p₁
    refine ⟨fun cause h _ => ?_, fun declared h => ?_⟩
    · obtain ⟨done, failing, error, closes, last, htrials, hstops, hreports, hcloses, hlast,
        hclosed⟩ := hfailed h
      exact ⟨p₁.trials, done, failing, error, closes, last, htrials, hshake, hstops, hreports,
        hcloses, hlast, hclosed, fun trial hmem => (htime trial hmem).2⟩
    · obtain ⟨⟨done, htrials, hdone⟩, hlink', hreply⟩ := hopened h
      refine ⟨?_, ?_, hreply⟩
      · rw [htrials]
        exact hshake.append hdone
      · rw [hlink', hlink]
        rfl

/-- A server whose queue has other properties, and whose socket is lost while the connection is
closed. -/
def Server.breakingOff : Server where
  lines :=
    [{ faults :=
        [{ method := "queue.declare", action := .cut (.channel 406 "inequivalent arg") },
          { method := "connection.close", action := .cut .lost, delay := 5 }] }]

/-- Neither close succeeds, for the server has closed the channel already and loses the connection,
and the conflict is still what the attempt reports. -/
theorem establish_fails_or_opens_breakingOff :
    let t := Target.ofConfig .sample "localhost" Drain.Plan.sample.config
    let attempt := establish Server.breakingOff.peer t 0 Server.breakingOff.opening
    let cause := DrainError.queueConflict "jobs" "inequivalent arg"
    attempt.2 = .failed cause ∧ attempt.1.HasConnected t ∧
    (attempt.1.trials.drop 6).map (fun trial => (trial.method, trial.failure))
      = [(closeChannel, some (.channelState .closed)),
        (closeConnection, some (.io "connection aborted"))] ∧
    ∃ failing error last, failing ∈ attempt.1.trials ∧ t.Reports failing.method error cause ∧
      last ∈ attempt.1.trials ∧ last.method = closeConnection := by
  intro t attempt cause
  have hfailed : attempt.2 = .failed cause := by decide +kernel
  have hconnected : attempt.1.HasConnected t :=
    ⟨attempt.1.trials.take 3, attempt.1.trials.drop 3, (List.take_append_drop ..).symm,
      ⟨by decide +kernel, by decide +kernel⟩⟩
  obtain ⟨shake, done, failing, error, closes, last, htrials, -, -, hreports, -, hlast, -⟩ :=
    (establish_fails_or_opens Server.breakingOff.peer t 0 Server.breakingOff.opening).1 cause
      hfailed hconnected
  refine ⟨hfailed, hconnected, by decide +kernel, failing, error, last, ?_, hreports, ?_, hlast⟩
  · rw [htrials]
    simp
  · rw [htrials]
    simp

end Amqp

end QueueDrain
