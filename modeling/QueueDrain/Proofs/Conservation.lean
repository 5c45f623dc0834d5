import QueueDrain.Proofs.Broker
import QueueDrain.Proofs.Lifecycle

/-!
# No message is lost

A run moves messages and neither makes nor loses any. The ledger alone would not balance: it takes
an outstanding message off for every rejection, and whether there is one to take off is decided by
the run. What makes it balance is that the trace is orderly, so a rejection always belongs to an
unsettled delivery of the session that is open, and none is left over when the session is closed.

## Main definitions

* `Ledger.Balances` — a ledger that fits what the trace tells

## Main results

* `Ledger.Balances.after` — one orderly event keeps the balance
* `Drain.run_balances` — so does a run
* `Drain.run_conserves` — messages are conserved, rejected at most once, and given back
-/

namespace QueueDrain

open Entry (session openings closures rejections)

namespace Ledger

variable {opening l : Ledger} {m : Conduct} {count : Nat}

/-- Where all the messages are. -/
def total (l : Ledger) : Nat := l.ready + l.outstanding + l.deadLettered

@[simp] theorem arrive_outstanding (l : Ledger) (n : Nat) :
    (l.arrive n).outstanding = l.outstanding := rfl

@[simp] theorem arrive_deadLettered (l : Ledger) (n : Nat) :
    (l.arrive n).deadLettered = l.deadLettered := rfl

@[simp] theorem arrive_arrived (l : Ledger) (n : Nat) : (l.arrive n).arrived = l.arrived + n := rfl

@[simp] theorem arrive_total (l : Ledger) (n : Nat) : (l.arrive n).total = l.total + n := by
  simp only [total, arrive]
  omega

/-- A ledger fits an opening balance, what the trace tells, and the number of rejections in it. What
was outstanding at the beginning stays so until the first session is closed. -/
structure Balances (opening : Ledger) (m : Conduct) (count : Nat) (l : Ledger) : Prop where
  total : l.total + opening.arrived = opening.total + l.arrived
  deadLettered : l.deadLettered = opening.deadLettered + count
  /-- While there is a session, its unsettled deliveries are outstanding. -/
  held : m.standing.isOpen = true →
    m.unsettled.length ≤ l.outstanding ∧
      l.outstanding ≤ m.unsettled.length + opening.outstanding
  /-- When the last session is closed, nothing is outstanding. -/
  released : m.standing.isOpen = false →
    l.outstanding ≤ opening.outstanding ∧ (m.sessions ≠ 0 → l.outstanding = 0)

theorem Balances.arrive (h : Balances opening m count l) (n : Nat) :
    Balances opening m count (l.arrive n) where
  total := by
    have := h.total
    rw [arrive_total, arrive_arrived]
    omega
  deadLettered := h.deadLettered
  held := h.held
  released := h.released

/-- An event that moves no message and neither begins nor ends a session. -/
theorem Balances.congr {m' : Conduct} (h : Balances opening m count l)
    (hs : m'.standing.isOpen = m.standing.isOpen) (hu : m'.unsettled = m.unsettled)
    (hn : m'.sessions = m.sessions) : Balances opening m' count l where
  total := h.total
  deadLettered := h.deadLettered
  held := by rw [hs, hu]; exact h.held
  released := by rw [hs, hn]; exact h.released

/-- The end of a close makes ready what was outstanding. -/
theorem Balances.close {m' : Conduct} (h : Balances opening m count l)
    (hs : m'.standing.isOpen = false) {l' : Ledger}
    (hl : l' = { l with ready := l.ready + l.outstanding, outstanding := 0 }) :
    Balances opening m' count l' := by
  subst hl
  refine ⟨?_, h.deadLettered, fun hopen => absurd (hs.symm.trans hopen) (by simp),
    fun _ => ⟨Nat.zero_le _, fun _ => rfl⟩⟩
  have htotal := h.total
  simp only [Ledger.total] at htotal ⊢
  omega

/-- A delivery makes a ready message outstanding, and it is unsettled. -/
theorem Balances.deliver (h : Balances opening m count l) (hs : m.standing.isOpen = true)
    (hready : 0 < l.ready) (t : Nat) :
    Balances opening (m.after (.delivered t)) count (l.post (.delivered t)) := by
  obtain ⟨hle, hge⟩ := h.held hs
  have htotal := h.total
  refine ⟨?_, h.deadLettered, fun _ => ?_, fun hnone => absurd (hs.symm.trans hnone) (by simp)⟩
  · simp only [Ledger.total, post] at htotal ⊢
    omega
  · simp only [Conduct.after, post, List.length_append, List.length_singleton]
    omega

/-- A rejection finds an outstanding message, because it is one of an unsettled delivery. -/
theorem Balances.reject (h : Balances opening m count l) (hs : m.standing.isOpen = true) {t : Nat}
    (ht : t ∈ m.unsettled) :
    Balances opening (m.after (.rejected t)) (count + 1) (l.post (.rejected t)) := by
  obtain ⟨hle, hge⟩ := h.held hs
  have hpos : 0 < m.unsettled.length := List.length_pos_of_mem ht
  have htotal := h.total
  have hdead := h.deadLettered
  refine ⟨?_, ?_, fun _ => ?_, fun hnone => absurd (hs.symm.trans hnone) (by simp)⟩
  · simp only [Ledger.total, post] at htotal ⊢
    omega
  · simp only [post, hdead]
    omega
  · simp only [Conduct.after, post, List.length_erase_of_mem ht]
    omega

/-- One orderly event keeps the balance. -/
theorem Balances.after {tag : String} {e : Event} (h : Balances opening m count l)
    (hp : m.Permits tag e) (hc : l.Covers e) :
    Balances opening (m.after e) (count + if e.isRejection then 1 else 0) (l.post e) := by
  cases e with
  | delivered t => exact h.deliver (Standing.isOpen_of_isServing hp.1) hc t
  | rejected t => exact h.reject (Standing.isOpen_of_isServing hp.1.1) hp.2
  | began r => cases r <;> exact h.congr (Conduct.isOpen_after hp rfl rfl) rfl rfl
  | answered r _ =>
    cases r with
    | close => exact h.close (Conduct.isOpen_of_isClosure hp rfl).2.1 rfl
    | establish =>
      obtain ⟨hbefore, hafter, -⟩ := Conduct.isOpen_of_isOpening hp rfl
      have hout := (h.released hbefore).1
      refine ⟨h.total, h.deadLettered, fun _ => ⟨Nat.zero_le _, ?_⟩,
        fun hs => absurd (hafter.symm.trans hs) (by simp)⟩
      simpa [Conduct.after, post] using hout
    | _ => exact h.congr (Conduct.isOpen_after hp rfl rfl) rfl rfl
  | failed r _ =>
    cases r with
    | close => exact h.close (Conduct.isOpen_of_isClosure hp rfl).2.1 rfl
    | _ => exact h.congr (Conduct.isOpen_after hp rfl rfl) rfl rfl
  | _ => exact h.congr rfl rfl rfl

/-- A ledger that an orderly trace accounts for fits what the trace tells. -/
theorem Accounts.balances {tag : String} {candid : Prop} {new old : List Entry} {first : Ledger}
    (h : Accounts candid opening new l) (ho : Orderly tag (new ++ old))
    (hold : Balances first (Conduct.of old) (rejections old) opening) :
    Balances first (Conduct.of (new ++ old)) (rejections (new ++ old)) l := by
  induction h with
  | opening => exact hold
  | arrival n _ ih => exact (ih ho).arrive n
  | entry e _ hc _ ih =>
    rw [List.cons_append, Conduct.of_cons, Entry.rejections_cons]
    exact (ih ho.2).after ho.1 hc

end Ledger

namespace Drain

variable {ω : Type} {E : Environment ω}

/-- The ledger of a run fits what the trace of the run tells. -/
theorem run_balances (B : Broker E) (plan : Plan) (now : Nat) (world : ω) (rejected : UInt64)
    (interrupted : Bool) (n : Nat) :
    let s := run E plan n (start E plan (.opening now world rejected interrupted))
    Ledger.Balances (B.ledger world) (Conduct.of s.course.trace) (rejections s.course.trace)
      (B.ledger s.course.world) := by
  intro s
  have hreaches : (Course.opening now world rejected interrupted).Reaches E s.course :=
    (start_calmly plan _).reaches.trans (run_reaches plan n _)
  obtain ⟨new, htrace, hacc⟩ := B.accounts hreaches
  have ho := run_orderly E plan now world rejected interrupted n
  rw [htrace] at ho ⊢
  refine hacc.balances ho ?_
  have hbegin := (tracks_opening plan.config.consumerTag now world rejected interrupted).conduct
  rw [hbegin]
  refine ⟨rfl, ?_, fun hs => absurd hs (by simp [Standing.isOpen]),
    fun _ => ⟨Nat.le_refl _, fun h => absurd rfl h⟩⟩
  cases interrupted <;> rfl

/-- The counter of a run counts the rejections in its trace. -/
theorem run_counts (E : Environment ω) (plan : Plan) (now : Nat) (world : ω) (rejected : UInt64)
    (interrupted : Bool) (n : Nat) :
    let s := run E plan n (start E plan (.opening now world rejected interrupted))
    s.course.rejected = rejected + UInt64.ofNat (rejections s.course.trace) := by
  intro s
  have hreaches : (Course.opening now world rejected interrupted).Reaches E s.course :=
    (start_calmly plan _).reaches.trans (run_reaches plan n _)
  obtain ⟨new, hnew⟩ := hreaches.extends
  have hnone : rejections (Course.opening now world rejected interrupted).trace = 0 := by
    cases interrupted <;> rfl
  rw [hnew.rejected, hnew.trace, Entry.rejections_append, hnone, Nat.add_zero]
  rfl

/-- **Messages are conserved.** At any time every message that was there or arrived is ready,
outstanding or dead-lettered. A message is dead-lettered for every rejection, and the counter counts
them. A rejection belongs to a delivery of the session that is open, at most one to each, and comes
before the close of that session begins; what a session took and did not reject is outstanding until
then. When a run returns after it had a session, nothing is outstanding. -/
theorem run_conserves (B : Broker E) (plan : Plan) (now : Nat) (world : ω) (rejected : UInt64)
    (interrupted : Bool) (n : Nat) :
    let s := run E plan n (start E plan (.opening now world rejected interrupted))
    let trace := s.course.trace
    let before := B.ledger world
    let after := B.ledger s.course.world
    after.ready + after.outstanding + after.deadLettered + before.arrived
        = before.ready + before.outstanding + before.deadLettered + after.arrived ∧
    (after.deadLettered = before.deadLettered + rejections trace ∧
      s.course.rejected = rejected + UInt64.ofNat (after.deadLettered - before.deadLettered)) ∧
    (∀ later time tag earlier, trace = later ++ ⟨time, .rejected tag⟩ :: earlier →
      Live earlier ∧
        (session earlier).count (.rejected tag) < (session earlier).count (.delivered tag)) ∧
    (before.outstanding = 0 → openings trace = closures trace + 1 →
      (session trace).countP Event.isDelivery
        = after.outstanding + (session trace).countP Event.isRejection) ∧
    ∀ result, s.result? = some result → openings trace ≠ 0 → after.outstanding = 0 := by
  intro s trace before after
  have hbal : Ledger.Balances before (Conduct.of trace) (rejections trace) after :=
    run_balances B plan now world rejected interrupted n
  have ho : Orderly plan.config.consumerTag trace :=
    run_orderly E plan now world rejected interrupted n
  have hdead : after.deadLettered = before.deadLettered + rejections trace := hbal.deadLettered
  refine ⟨hbal.total, ⟨hdead, ?_⟩, ?_, ?_, ?_⟩
  · rw [hdead, Nat.add_sub_cancel_left]
    exact run_counts E plan now world rejected interrupted n
  · intro later time tag earlier heq
    rw [heq] at ho
    have hearlier : Orderly plan.config.consumerTag earlier := ho.of_append.2
    obtain ⟨hconsuming, hmem⟩ := ho.permits
    refine ⟨hearlier.live (Standing.isLive_of_isServing hconsuming.1), ?_⟩
    have hpos : 0 < (Conduct.of earlier).unsettled.count tag := List.count_pos_iff.mpr hmem
    have hcount := hearlier.count_unsettled tag
    omega
  · intro hzero hopen
    obtain ⟨hle, hge⟩ := hbal.held (ho.isOpen_iff.mpr hopen)
    have hlength := ho.length_unsettled
    omega
  · intro result hresult hsome
    have hnone : (Conduct.of trace).standing.isOpen = false :=
      (run_follows E plan now world rejected interrupted n).isOpen_of_result hresult
    exact (hbal.released hnone).2 (by rw [sessions_eq_openings]; exact hsome)

end Drain

/-- One message whose first session is lost while its rejection is in flight. -/
def Scenario.lostSession : Scenario where
  messages := 1
  latencies := [10000]
  sessions := [{ polls := [{ error := some (.transport .missingHeartbeat) }] }]

/-- A message whose session is lost goes back to the queue and is dead-lettered once, by a rejection
of the next session. -/
theorem Drain.run_conserves_lostSession :
    let s := Scenario.lostSession.runs .sample 21
    let trace := s.course.trace
    let after := s.course.world.ledger
    openings trace = 2 ∧ after.outstanding = 0 ∧ Live (trace.drop 5) ∧
    after.ready + after.outstanding + after.deadLettered + 0 = 1 + 0 + 0 + after.arrived ∧
    after.deadLettered = 0 + rejections trace ∧
    s.course.rejected = 0 + UInt64.ofNat (after.deadLettered - 0) := by
  intro s trace after
  obtain ⟨htotal, ⟨hdead, hcount⟩, hrejected, -, hresult⟩ :=
    Drain.run_conserves Scenario.lostSession.broker .sample 0 Scenario.lostSession.opening 0 false
      21
  have hlast : trace = trace.take 4 ++ ⟨16000, .rejected 2⟩ :: trace.drop 5 := rfl
  exact ⟨rfl, hresult _ rfl (by decide), (hrejected _ _ _ _ hlast).1, htotal, hdead, hcount⟩

end QueueDrain
