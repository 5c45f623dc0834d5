import QueueDrain.Proofs.Conservation

/-!
# What a drained queue still holds

The poller ends a drain when it reads a depth of zero, and a depth counts ready messages only. What
is outstanding then may still be rejected while the subscription is being cancelled, or may go back
to the queue when the session is closed: teardown logs what goes wrong and goes on. So a run that
reports an empty queue leaves just the deliveries of its last session that it did not come to
reject, and none if nothing went wrong in that session.

## Main definitions

* `Ledger.Emptied` — the ready messages of a queue that was seen empty
* `Drain.QuietSinceZero` — no message arrives from the depth reading on that sees the queue empty

## Main results

* `Ledger.Emptied.after` — one orderly event after the reading of zero
* `Drain.run_drained` — what a run leaves that reports an empty queue
-/

namespace QueueDrain

open Entry (session openings closures rejections)

namespace Ledger

variable {first opening l : Ledger} {m : Conduct} {count : Nat}

/-- Nothing is ready until the close of the session puts the unsettled deliveries back. -/
structure Emptied (m : Conduct) (l : Ledger) : Prop where
  held : m.standing.isOpen = true → l.ready = 0
  released : m.standing.isOpen = false → l.ready = m.unsettled.length

theorem Emptied.congr {m' : Conduct} (h : Emptied m l)
    (hs : m'.standing.isOpen = m.standing.isOpen) (hu : m'.unsettled = m.unsettled) :
    Emptied m' l where
  held := by rw [hs]; exact h.held
  released := by rw [hs, hu]; exact h.released

/-- The end of a close puts back what the session had not rejected. -/
theorem Emptied.close {m' : Conduct} {l' : Ledger} (h : Emptied m l)
    (hb : Balances first m count l) (hfirst : first.outstanding = 0)
    (hbefore : m.standing.isOpen = true) (hafter : m'.standing.isOpen = false)
    (hu : m'.unsettled = m.unsettled) (hl : l'.ready = l.ready + l.outstanding) :
    Emptied m' l' where
  held hs := absurd (hafter.symm.trans hs) (by simp)
  released _ := by
    obtain ⟨hle, hge⟩ := hb.held hbefore
    have hready := h.held hbefore
    rw [hu, hl]
    omega

/-- One orderly event after the reading of zero. -/
theorem Emptied.after {tag : String} {e : Event} (h : Emptied m l) (hb : Balances first m count l)
    (hfirst : first.outstanding = 0) (hpast : m.IsPastZero) (hp : m.Permits tag e)
    (hc : l.Covers e) (hn : ∀ count, e ≠ .answered .depth count) :
    Emptied (m.after e) (l.post e) := by
  cases e with
  | delivered t => exact absurd (h.held (Standing.isOpen_of_isServing hp.1)) (Nat.ne_of_gt hc)
  | rejected t =>
    have hopen := Standing.isOpen_of_isServing hp.1.1
    exact ⟨fun _ => h.held hopen, fun hs => absurd (hopen.symm.trans hs) (by simp)⟩
  | began r => cases r <;> exact h.congr (Conduct.isOpen_after hp rfl rfl) rfl
  | answered r n =>
    cases r with
    | establish => exact absurd hp hpast.not_attempting
    | depth => exact absurd rfl (hn n)
    | close =>
      obtain ⟨hbefore, hafter, -⟩ := Conduct.isOpen_of_isClosure hp rfl
      exact h.close hb hfirst hbefore hafter rfl rfl
    | _ => exact h.congr (Conduct.isOpen_after hp rfl rfl) rfl
  | failed r _ =>
    cases r with
    | close =>
      obtain ⟨hbefore, hafter, -⟩ := Conduct.isOpen_of_isClosure hp rfl
      exact h.close hb hfirst hbefore hafter rfl rfl
    | _ => exact h.congr (Conduct.isOpen_after hp rfl rfl) rfl
  | _ => exact h.congr rfl rfl

/-- What is ready in a queue that was seen empty, if nothing has arrived since. -/
theorem Accounts.emptied {tag : String} {candid : Prop} (hcandid : candid) {new old : List Entry}
    (h : Accounts candid opening new l) (ho : Orderly tag (new ++ old))
    (hb : Balances first (Conduct.of old) (rejections old) opening)
    (hfirst : first.outstanding = 0) (hold : (Conduct.of old).emptied = false)
    (harrived : l.arrived = opening.arrived) (he : (Conduct.of (new ++ old)).emptied = true) :
    Emptied (Conduct.of (new ++ old)) l := by
  induction h with
  | opening => exact absurd (hold.symm.trans he) (by simp)
  | @arrival _ l n hacc ih =>
    have hle := hacc.arrived_le
    rw [arrive_arrived] at harrived
    have hn : n = 0 := by omega
    rw [hn, arrive_zero]
    exact ih ho (by omega) he
  | @entry _ l e hacc hc hs ih =>
    rw [post_arrived] at harrived
    have hbal := hacc.balances ho.2 hb
    have hp := ho.1
    rw [List.cons_append, Conduct.of_cons] at he ⊢
    by_cases hread : ∃ count, e.event = .answered .depth count
    · -- the reading of zero shows that nothing is ready
      obtain ⟨count, hcount⟩ := hread
      rw [hcount] at he ⊢
      have hshown : count = l.ready := by simpa [hcount, Shows] using hs hcandid
      have hzero : count = 0 := by simpa [Conduct.after] using he
      exact ⟨fun _ => hshown.symm.trans hzero, fun hs => absurd hs (by simp [Conduct.after,
        Standing.isOpen])⟩
    · have hn : ∀ count, e.event ≠ .answered .depth count := fun count h => hread ⟨count, h⟩
      rw [Conduct.emptied_after hn] at he
      exact (ih ho.2 harrived he).after hbal hfirst (ho.2.emptied he).1 hp hc hn

end Ledger

namespace Drain

variable {ω : Type} {E : Environment ω}

/-- No message arrives from the depth reading on that sees the queue empty. -/
def QuietSinceZero (B : Broker E) (plan : Plan) (s : State ω) (n : Nat) : Prop :=
  ∀ k < n, (run E plan k s).poller.done = false → (run E plan (k + 1) s).poller.done = true →
    (B.ledger (run E plan n s).course.world).arrived
      = (B.ledger (run E plan k s).course.world).arrived

/-- What becomes true becomes so in some step. -/
theorem exists_flip {P : Nat → Bool} {n : Nat} (h₀ : P 0 = false) (h : P n = true) :
    ∃ k < n, P k = false ∧ P (k + 1) = true := by
  induction n with
  | zero => exact absurd (h₀.symm.trans h) (by simp)
  | succ n ih =>
    cases hn : P n with
    | false => exact ⟨n, Nat.lt_succ_self n, hn, h⟩
    | true =>
      obtain ⟨k, hk, hflip⟩ := ih hn
      exact ⟨k, Nat.lt_succ_of_lt hk, hflip⟩

theorem start_done (plan : Plan) (c : Course ω) : (start E plan c).poller.done = false := by
  cases hi : c.interrupted with
  | true => rw [start_of_interrupted hi]; rfl
  | false => rw [start_of_not_interrupted hi]; rfl

/-- The ledger of a run that has seen the queue empty, where nothing has arrived since. -/
theorem run_emptied (B : Broker E) (hB : B.Candid) (plan : Plan) (now : Nat) (world : ω)
    (rejected : UInt64) (interrupted : Bool) (n : Nat) (h₀ : (B.ledger world).outstanding = 0)
    (hdone : (run E plan n
      (start E plan (.opening now world rejected interrupted))).poller.done = true)
    (hquiet : QuietSinceZero B plan (start E plan (.opening now world rejected interrupted)) n) :
    let s := run E plan n (start E plan (.opening now world rejected interrupted))
    Ledger.Emptied (Conduct.of s.course.trace) (B.ledger s.course.world) := by
  intro s
  obtain ⟨k, hk, hbefore, hafter⟩ :=
    exists_flip (P := fun k =>
      (run E plan k (start E plan (.opening now world rejected interrupted))).poller.done)
      (start_done plan _) hdone
  have hm : s.Follows plan (Conduct.of s.course.trace) :=
    run_follows E plan now world rejected interrupted n
  have hm₀ := run_follows E plan now world rejected interrupted k
  have hreaches : (run E plan k
      (start E plan (.opening now world rejected interrupted))).course.Reaches E s.course := by
    have := run_reaches (E := E) plan (n - k)
      (run E plan k (start E plan (.opening now world rejected interrupted)))
    rwa [← run_add, Nat.add_sub_cancel' (Nat.le_of_lt hk)] at this
  obtain ⟨new, htrace, hacc⟩ := B.accounts hreaches
  have ho := hm.course.orderly
  have he : (Conduct.of s.course.trace).emptied = true := hm.emptied.symm.trans hdone
  have hne := hm₀.emptied.symm.trans hbefore
  rw [htrace] at ho he ⊢
  exact hacc.emptied hB ho (run_balances B plan now world rejected interrupted k) h₀ hne
    (hquiet k hk hbefore hafter) he

/-- **What a drained queue still holds.** A run reports an empty queue, and no message arrived from
the reading on that saw it empty. Then nothing is outstanding, and what is ready is what the last
session took and did not reject. All else is dead-lettered, and so is everything if neither the
cancellation, nor the stream, nor a rejection of that session failed. -/
theorem run_drained (B : Broker E) (hB : B.Candid) (plan : Plan) (now : Nat) (world : ω)
    (rejected : UInt64) (interrupted : Bool) (n : Nat) (summary : Summary)
    (h₀ : (B.ledger world).outstanding = 0)
    (hresult : (run E plan n
      (start E plan (.opening now world rejected interrupted))).result? = some (.ok summary))
    (houtcome : summary.outcome = .drained)
    (hquiet : QuietSinceZero B plan (start E plan (.opening now world rejected interrupted)) n) :
    let s := run E plan n (start E plan (.opening now world rejected interrupted))
    let before := B.ledger world
    let after := B.ledger s.course.world
    after.outstanding = 0 ∧
    (session s.course.trace).countP Event.isDelivery
      = after.ready + (session s.course.trace).countP Event.isRejection ∧
    after.ready + after.deadLettered + before.arrived
      = before.ready + before.deadLettered + after.arrived ∧
    ((session s.course.trace).any Event.isMishap = false → after.ready = 0) := by
  intro s before after
  have hm : s.Follows plan (Conduct.of s.course.trace) :=
    run_follows E plan now world rejected interrupted n
  have ho : Orderly plan.config.consumerTag s.course.trace := hm.course.orderly
  have hclosed : (Conduct.of s.course.trace).standing.isOpen = false :=
    hm.isOpen_of_result hresult
  have he : (Conduct.of s.course.trace).emptied = true := by
    have hphase := hm.phase
    rw [phase_of_result? hresult] at hphase
    simpa [houtcome, Conduct.Explains] using hphase.2.1
  have hpast : (Conduct.of s.course.trace).IsPastZero := (ho.emptied he).1
  have hbal : Ledger.Balances before (Conduct.of s.course.trace) (rejections s.course.trace)
      after := run_balances B plan now world rejected interrupted n
  have hready : after.ready = (Conduct.of s.course.trace).unsettled.length :=
    (run_emptied B hB plan now world rejected interrupted n h₀ (hm.emptied.trans he)
      hquiet).released hclosed
  have hbefore : before.outstanding = 0 := h₀
  have hout : after.outstanding = 0 := by
    have := (hbal.released hclosed).1
    omega
  refine ⟨hout, ?_, ?_, fun hnone => ?_⟩
  · rw [ho.length_unsettled, hready]
  · have htotal := hbal.total
    simp only [Ledger.total] at htotal
    omega
  · rw [← mishap_eq_any] at hnone
    rcases hpast with h | h | h | ⟨-, h | h⟩
    · simp [h, Standing.isOpen] at hclosed
    · simp [h, Standing.isOpen] at hclosed
    · simp [h, Standing.isOpen] at hclosed
    · exact absurd (hnone.symm.trans h) (by simp)
    · rw [hready, h]; rfl

end Drain

/-! ### Two scripts -/

/-- Two messages whose rejections are in flight when the depth is read. -/
def Scenario.slow : Scenario := { messages := 2, latencies := [6000] }

/-- The rejections in flight at the reading of zero come to their end before the close begins. -/
theorem Drain.run_drained_slow :
    let s := Scenario.slow.runs .sample 15
    s.course.world.ledger.outstanding = 0 ∧
    (session s.course.trace).countP Event.isDelivery
      = s.course.world.ledger.ready + (session s.course.trace).countP Event.isRejection ∧
    s.course.world.ledger.ready + s.course.world.ledger.deadLettered + 0
      = 2 + 0 + s.course.world.ledger.arrived ∧
    s.course.world.ledger.ready = 0 := by
  have hquiet : Drain.QuietSinceZero Scenario.slow.broker .sample
      (Drain.start Scenario.slow.environment .sample (.opening 0 Scenario.slow.opening 0 false))
      15 := by
    unfold Drain.QuietSinceZero
    decide
  have h := Drain.run_drained Scenario.slow.broker
    (Scenario.broker_candid (by decide)) .sample 0
    Scenario.slow.opening 0 false 15
    { queue := "jobs", endpoint := "amqp://localhost:5672", outcome := .drained, rejected := 2,
      polls := 1, reconnects := 0, lastMessageCount := some 0 } rfl rfl rfl hquiet
  exact ⟨h.1, h.2.1, h.2.2.1, h.2.2.2 (by decide)⟩

/-- One message whose rejection is in flight when the depth is read, and a cancellation that
fails. -/
def Scenario.lostCancel : Scenario where
  messages := 1
  latencies := [10000]
  sessions := [{ cancel := { error := some (.transport .missingHeartbeat) } }]

/-- A queue that was reported empty need not be empty. -/
theorem Drain.lostCancel_left_ready :
    let s := Scenario.lostCancel.runs .sample 9
    Scenario.lostCancel.broker.Candid ∧ Scenario.lostCancel.opening.ledger = ⟨1, 0, 0, 0⟩ ∧
    (∃ summary, s.result? = some (.ok summary) ∧ summary.outcome = .drained) ∧
    Drain.QuietSinceZero Scenario.lostCancel.broker .sample
      (Drain.start Scenario.lostCancel.environment .sample
        (.opening 0 Scenario.lostCancel.opening 0 false)) 9 ∧
    s.course.world.ledger = ⟨1, 0, 0, 0⟩ ∧
    ¬ (s.course.world.ledger.ready = 0 ∧ s.course.world.ledger.outstanding = 0) := by
  refine ⟨Scenario.broker_candid ?_, rfl, ⟨_, rfl, rfl⟩, ?_, rfl, by decide⟩
  · decide
  · unfold Drain.QuietSinceZero
    decide

end QueueDrain
