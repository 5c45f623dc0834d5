import Mathlib.Data.List.Basic
import QueueDrain.Proofs.Conservation
import QueueDrain.Proofs.Proceedings

/-!
# Backpressure

The consumer asks for a delivery only while fewer rejections are in flight than the prefetch count
allows. What is in flight is not all that is unsettled: a rejection that failed, and those that the
failure dropped, stay unsettled until the session is closed. But then the consumer is over and takes
nothing more, and no other session is opened before that close. So the limit of one consumer is a
limit of the whole run.

## Main definitions

* `Entry.Taken` — every delivery in a trace was taken where a condition held
* `Entry.unsettled` — what was taken and neither rejected nor given back, over all sessions

## Main results

* `Drain.Move.taken` — a move takes a delivery only where the consumer asks for one
* `Orderly.unsettled_eq` — only the session that is open has anything unsettled
* `Drain.run_backpressure` — a run never has more unsettled than the prefetch count
-/

namespace QueueDrain

open Entry (openings proceedings)

theorem Event.isConsumption_of_isDelivery {e : Event} (h : e.isDelivery = true) :
    e.isConsumption = true := by
  cases e <;> simp_all [isDelivery, isConsumption]

theorem Event.isDelivery_of_isAside {e : Event} (h : e.isAside = true) :
    e.isDelivery = false := by
  cases e <;> simp_all [isDelivery, isAside]

/-- Asides bring at most the interrupt. -/
theorem Conduct.of_asides {asides : List Entry} (h : ∀ e ∈ asides, e.event.isAside = true)
    (earlier : List Entry) :
    ∃ b, Conduct.of (asides ++ earlier) = (Conduct.of earlier).interruptIf b := by
  induction asides with
  | nil => exact ⟨false, by simp [interruptIf]⟩
  | cons e asides ih =>
    obtain ⟨he, hrest⟩ := List.forall_mem_cons.mp h
    obtain ⟨b, hb⟩ := ih hrest
    obtain ⟨t, e⟩ := e
    rw [List.cons_append, of_cons, hb]
    cases e with
    | interrupted => exact ⟨true, by simp [after, interruptIf]⟩
    | notice line => exact ⟨b, rfl⟩
    | _ => cases he

/-! ### Where deliveries are taken -/

namespace Entry

/-- Every delivery in a trace was taken where a condition held. -/
def Taken (P : List Entry → Prop) (trace : List Entry) : Prop :=
  ∀ later e earlier, trace = later ++ e :: earlier → e.event.isDelivery = true → P earlier

variable {P : List Entry → Prop} {trace new : List Entry}

theorem Taken.cons (h : Taken P trace) {e : Entry} (he : e.event.isDelivery = true → P trace) :
    Taken P (e :: trace) := by
  intro later e' earlier heq
  cases later with
  | nil =>
    obtain ⟨rfl, rfl⟩ := List.cons.inj heq
    exact he
  | cons _ later => exact h later e' earlier (List.cons.inj heq).2

theorem Taken.append (h : Taken P trace) (hnew : ∀ e ∈ new, e.event.isDelivery = false) :
    Taken P (new ++ trace) := by
  induction new with
  | nil => exact h
  | cons e new ih =>
    obtain ⟨he, hrest⟩ := List.forall_mem_cons.mp hnew
    exact (ih hrest).cons fun hd => absurd (he.symm.trans hd) (by simp)

theorem Taken.of_cons {e : Entry} (h : Taken P (e :: trace)) :
    Taken P trace ∧ (e.event.isDelivery = true → P trace) :=
  ⟨fun later e' earlier heq => h (e :: later) e' earlier (by rw [heq]; rfl),
    h [] e trace rfl⟩

theorem Taken.of_append {later earlier : List Entry} (h : Taken P (later ++ earlier)) :
    Taken P earlier := by
  induction later with
  | nil => exact h
  | cons e later ih => exact ih h.of_cons.1

/-- Asides apart, entries are their proceedings. -/
theorem isDelivery_of_proceedings (h : ∀ x ∈ proceedings new, x.isDelivery = false) :
    ∀ e ∈ new, e.event.isDelivery = false := by
  intro e he
  cases haside : e.event.isAside with
  | true => exact Event.isDelivery_of_isAside haside
  | false => exact h _ (mem_proceedings.mpr ⟨⟨e, he, rfl⟩, haside⟩)

end Entry

open Entry (Taken)

variable {ω : Type} {E : Environment ω}

theorem Entry.Taken.of_proceeds {P : List Entry → Prop} {c c' : Course ω} {new : List Event}
    (h : Taken P c.trace) (hnew : c.Proceeds c' new) (hall : ∀ e ∈ new, e.isDelivery = false) :
    Taken P c'.trace := by
  obtain ⟨entries, hext, rfl⟩ := hnew
  rw [hext.trace]
  exact h.append (Entry.isDelivery_of_proceedings hall)

/-- A delivery is added on top of the asides that come with it. -/
theorem Course.delivery_trace {c c' : Course ω} {tag : Nat} (h : c.ask E = (c', .delivery tag)) :
    ∃ asides, c'.trace = ⟨c.now, .delivered tag⟩ :: (asides ++ c.trace) ∧
      ∀ e ∈ asides, e.event.isAside = true := by
  obtain ⟨asides, htrace, hall⟩ := c.absorb_trace (E.ask c.now c.world)
  obtain ⟨rfl, hoffer⟩ := Prod.mk.inj h
  refine ⟨asides, ?_, fun e he => (hall e he).2⟩
  simp only [hoffer, Offer.event?]
  rw [note_trace, absorb_now, htrace]

/-- A consumer takes a delivery only if its stream is open and there is room for one more. -/
theorem Consumer.Move.delivered_or {queue : String} {k : Consumer} {c c' : Course ω}
    {stage : Stage Consumer Consumer.Ending} (h : Consumer.Move E queue k c c' stage) :
    (∃ tag c₁, k.streamOpen = true ∧ k.hasRoom = true ∧ c.ask E = (c₁, .delivery tag) ∧
      c' = (c₁.startReject E tag).1) ∨
    ∃ new, c'.proceedings = new ++ c.proceedings ∧ ∀ e ∈ new, e.isDelivery = false := by
  have hask : ∀ {c' offer}, c.ask E = (c', offer) → (∀ tag, offer ≠ .delivery tag) →
      ∃ new, c'.proceedings = new ++ c.proceedings ∧ ∀ e ∈ new, e.isDelivery = false := by
    intro c' offer ha hne
    refine ⟨_, Course.proceedings_of_ask ha, fun e he => ?_⟩
    have he := Option.mem_toList.mp he
    cases offer with
    | delivery tag => exact absurd rfl (hne tag)
    | _ => cases he <;> rfl
  have hfinish : ∀ {tag c' settlement}, c.finishReject E tag = (c', settlement) →
      ∃ new, c'.proceedings = new ++ c.proceedings ∧ ∀ e ∈ new, e.isDelivery = false := by
    intro tag c' settlement hf
    refine ⟨[_], Course.proceedings_of_finishReject hf, fun e he => ?_⟩
    obtain rfl := List.mem_singleton.mp he
    cases settlement <;> rfl
  cases h with
  | delivered ho hr ha => exact .inl ⟨_, _, ho, hr, ha, rfl⟩
  | waiting _ _ ha => exact .inr (hask ha (by simp))
  | streamOver _ _ ha hover =>
    refine .inr (hask ha ?_)
    rcases hover with rfl | rfl <;> simp
  | streamFailed _ _ ha => exact .inr (hask ha (by simp))
  | streamPanicked _ _ ha => exact .inr (hask ha (by simp))
  | rejected _ _ hf => exact .inr (hfinish hf)
  | rejectFailed _ _ hf => exact .inr (hfinish hf)
  | rejectPanicked _ _ hf => exact .inr (hfinish hf)
  | stopped _ _ => exact .inr ⟨[], Course.proceedings_tell c _, by simp⟩

namespace Drain

variable {plan : Plan} {s s' : State ω} {m : Conduct}

/-- **A move takes a delivery only where the consumer asks for one.** -/
theorem Move.taken {P : List Entry → Prop} (h : Move E plan s s')
    (hP : ∀ k c' tag, s.worker = .running k → k.streamOpen = true → k.hasRoom = true →
      s.course.ask E = (c', .delivery tag) →
      ∀ asides, (∀ e ∈ asides, e.event.isAside = true) → P (asides ++ s.course.trace))
    (ht : Taken P s.course.trace) : Taken P s'.course.trace := by
  rcases h.consumes_or with ⟨k, c', stage, hw, hm, rfl⟩ | ⟨⟨new, hnew, hall⟩, -⟩
  · rcases hm.delivered_or with ⟨tag, c₁, ho, hr, ha, rfl⟩ | ⟨new, hnew, hall⟩
    · obtain ⟨asides, htrace, hasides⟩ := Course.delivery_trace ha
      obtain ⟨more, hmore, hrest⟩ :=
        Course.absorb_trace c₁ (E.startReject c₁.now tag c₁.world)
      show Taken P (c₁.startReject E tag).1.trace
      rw [Course.startReject, hmore, htrace]
      refine Taken.append (Taken.cons (ht.append ?_) fun _ => ?_) ?_
      · exact fun e he => Event.isDelivery_of_isAside (hasides e he)
      · exact hP k c₁ tag hw ho hr ha asides hasides
      · exact fun e he => Event.isDelivery_of_isAside (hrest e he).2
    · exact ht.of_proceeds (hm.calmly.reaches.proceeds hnew) hall
  · refine ht.of_proceeds hnew fun e he => Bool.eq_false_iff.mpr fun hd => ?_
    exact absurd ((hall e he).1.symm.trans (Event.isConsumption_of_isDelivery hd)) (by simp)

/-! ### What is unsettled -/

/-- A consumer at work has the limit that the configuration sets. -/
def State.Limited (plan : Plan) (s : State ω) : Prop :=
  ∀ k, s.worker = .running k → k.limit = plan.config.prefetchCount.toNat

theorem Move.limited (hm : Move E plan s s') (h : s.Limited plan) : s'.Limited plan := by
  intro k' hw'
  rcases hm.consumes_or with ⟨k, c', stage, hw, hmove, rfl⟩ | ⟨-, hworker⟩
  · have hlimit := h k hw
    cases hmove <;> cases hw' <;> exact hlimit
  · rcases hworker with hw | hw | ⟨hw, -⟩ <;> rw [hw] at hw'
    · exact h k' hw'
    · cases hw'
    · cases hw'
      rfl

end Drain

namespace Entry

/-- What was taken and neither rejected nor given back by the close of its session, each delivery
with the number of its session, oldest first. -/
def unsettled : List Entry → List (Nat × Nat)
  | [] => []
  | e :: earlier =>
    match e.event with
    | .delivered tag => unsettled earlier ++ [(openings earlier, tag)]
    | .rejected tag => (unsettled earlier).erase (openings earlier, tag)
    | .answered .close _ | .failed .close _ =>
      (unsettled earlier).filter fun delivery => delivery.1 != openings earlier
    | _ => unsettled earlier

/-- The end of a close gives back what its session had unsettled. -/
theorem unsettled_of_isClosure {e : Entry} (h : e.event.isClosure = true) (earlier : List Entry) :
    unsettled (e :: earlier)
      = (unsettled earlier).filter fun delivery => delivery.1 != openings earlier := by
  obtain ⟨t, e⟩ := e
  cases e with
  | answered r _ =>
    cases r with
    | close => rfl
    | _ => cases h
  | failed r _ =>
    cases r with
    | close => rfl
    | _ => cases h
  | _ => cases h

theorem unsettled_of_other {e : Entry} (hd : ∀ t, e.event ≠ .delivered t)
    (hr : ∀ t, e.event ≠ .rejected t) (hc : e.event.isClosure = false) (earlier : List Entry) :
    unsettled (e :: earlier) = unsettled earlier := by
  obtain ⟨t, e⟩ := e
  cases e with
  | delivered t => exact absurd rfl (hd t)
  | rejected t => exact absurd rfl (hr t)
  | answered r _ =>
    cases r with
    | close => cases hc
    | _ => rfl
  | failed r _ =>
    cases r with
    | close => cases hc
    | _ => rfl
  | _ => rfl

end Entry

open Entry (unsettled)

variable {tag : String} {trace : List Entry}

/-- Only the session that is open has anything unsettled. -/
theorem Orderly.unsettled_eq (h : Orderly tag trace) :
    unsettled trace = if (Conduct.of trace).standing.isOpen
      then (Conduct.of trace).unsettled.map (Prod.mk (openings trace)) else [] := by
  induction trace with
  | nil => rfl
  | cons e earlier ih =>
    obtain ⟨hp, ho⟩ := h
    have ih := ih ho
    cases hclosure : e.event.isClosure with
    | true =>
      obtain ⟨hbefore, hafter, -⟩ := Conduct.isOpen_of_isClosure hp hclosure
      rw [Entry.unsettled_of_isClosure hclosure, ih, hbefore, Conduct.of_cons, hafter]
      simp
    | false =>
      rw [Conduct.of_cons, Entry.openings_cons]
      rcases Conduct.unsettled_after hp with
        ⟨hopen, hu⟩ | ⟨t, he, hu⟩ | ⟨t, he, hmem, hu⟩ | ⟨hd, hr, hopen, hu⟩
      · have hbefore := (Conduct.isOpen_of_isOpening hp hopen).1
        have hidle : unsettled (e :: earlier) = unsettled earlier := by
          refine Entry.unsettled_of_other (fun t he => ?_) (fun t he => ?_) hclosure earlier
          all_goals rw [he] at hopen; cases hopen
        rw [hidle, ih, hbefore, hu]
        simp
      · rw [he] at hp hu ⊢
        have hserving := Standing.isOpen_of_isServing hp.1
        have hsame := Conduct.isOpen_after hp rfl rfl
        have hlast : unsettled (e :: earlier) = unsettled earlier ++ [(openings earlier, t)] := by
          rw [unsettled, he]
        rw [hlast, ih, hsame, hserving, hu]
        simp [Event.isOpening]
      · rw [he] at hp hu ⊢
        have hserving := Standing.isOpen_of_isServing hp.1.1
        have hsame := Conduct.isOpen_after hp rfl rfl
        have hlast : unsettled (e :: earlier)
            = (unsettled earlier).erase (openings earlier, t) := by
          rw [unsettled, he]
        rw [hlast, ih, hsame, hserving, hu, if_pos rfl, if_pos rfl,
          List.map_erase fun _ _ heq => (Prod.mk.inj heq).2]
        rfl
      · rw [Entry.unsettled_of_other hd hr hclosure, ih, hu, hopen,
          Conduct.isOpen_after hp hopen hclosure]
        simp

/-- Where every delivery was taken with room for it, there is never more unsettled than there is
room for. -/
theorem Orderly.length_unsettled_le {p : Nat} (h : Orderly tag trace)
    (ht : Taken (fun earlier => (Conduct.of earlier).unsettled.length < p) trace) :
    (Conduct.of trace).unsettled.length ≤ p := by
  induction trace with
  | nil => exact Nat.zero_le p
  | cons e earlier ih =>
    obtain ⟨hp, ho⟩ := h
    obtain ⟨hearlier, hroom⟩ := ht.of_cons
    have ih := ih ho hearlier
    rw [Conduct.of_cons]
    rcases Conduct.unsettled_after hp with
      ⟨-, hu⟩ | ⟨t, he, hu⟩ | ⟨t, -, -, hu⟩ | ⟨-, -, -, hu⟩
    · simp [hu]
    · have hlt := hroom (by rw [he]; rfl)
      rw [hu, List.length_append, List.length_singleton]
      exact hlt
    · rw [hu]
      exact Nat.le_trans (List.length_erase_le) ih
    · rw [hu]
      exact ih

/-- An admissible configuration allows at least one unsettled delivery. -/
theorem Config.Builder.prefetchCount_ne_zero {b : Builder} {c : Config} (h : b.build = .ok c) :
    c.prefetchCount ≠ 0 := by
  intro hzero
  simp only [build, bind, Except.bind, pure, Except.pure, throw, throwThe,
    MonadExceptOf.throw] at h
  repeat' split at h
  all_goals simp_all

namespace Drain

variable {plan : Plan} {s s' : State ω} {m : Conduct}

/-- A consumer that asks for a delivery has room for it. -/
theorem State.Follows.length_unsettled_lt {k : Consumer} (h : s.Follows plan m)
    (hlimit : s.Limited plan) (hprefetch : plan.config.prefetchCount ≠ 0)
    (hw : s.worker = .running k) (hr : k.hasRoom = true) :
    m.unsettled.length < plan.config.prefetchCount.toNat := by
  have hworker := h.worker
  rw [hw] at hworker
  have hk := hlimit k hw
  have hpos : plan.config.prefetchCount.toNat ≠ 0 := fun hzero =>
    hprefetch (UInt16.toNat_inj.mp hzero)
  rw [hworker.2.length_eq, List.length_map, ← hk]
  rw [Consumer.hasRoom, hk] at hr
  simpa [hpos, hk] using hr

theorem start_worker (plan : Plan) (c : Course ω) : (start E plan c).worker = .absent := by
  cases hi : c.interrupted with
  | true => rw [start_of_interrupted hi, worker_giveUp]; rfl
  | false => rw [start_of_not_interrupted hi]; rfl

/-- Before a run has done anything it has taken nothing. -/
theorem start_taken {P : List Entry → Prop} (plan : Plan) (now : Nat) (world : ω)
    (rejected : UInt64) (interrupted : Bool) :
    Taken P (start E plan (.opening now world rejected interrupted)).course.trace := by
  have hopening : Taken P (Course.opening now world rejected interrupted).trace := by
    cases interrupted with
    | true => exact Taken.cons (fun _ _ _ h => by simp at h) nofun
    | false => exact fun _ _ _ h => by simp [Course.opening] at h
  have hreaches := (start_calmly (E := E) plan
    (Course.opening now world rejected interrupted)).reaches
  refine hopening.of_proceeds (hreaches.proceeds (proceedings_start plan _)) fun e he => ?_
  split at he
  · cases he
  · obtain rfl := List.mem_singleton.mp he; rfl

/-- Every delivery of a run was taken with room for it. -/
theorem run_taken (E : Environment ω) (hprefetch : plan.config.prefetchCount ≠ 0) (now : Nat)
    (world : ω) (rejected : UInt64) (interrupted : Bool) (n : Nat) :
    Taken (fun earlier => (Conduct.of earlier).unsettled.length < plan.config.prefetchCount.toNat)
      (run E plan n (start E plan (.opening now world rejected interrupted))).course.trace := by
  -- the limit and the account of the trace are carried along
  refine (run_of_move (P := fun s => (∃ m, s.Follows plan m) ∧ s.Limited plan ∧
      Taken (fun earlier =>
        (Conduct.of earlier).unsettled.length < plan.config.prefetchCount.toNat) s.course.trace)
    (fun s s' (hm : Move E plan s s') => ?_)
    ⟨start_follows (tracks_opening _ _ _ _ _), ?_, start_taken plan now world _ _⟩ n).2.2
  · rintro ⟨⟨m, hf⟩, hl, ht⟩
    refine ⟨hm.follows hf, hm.limited hl, hm.taken (fun k c' tag hw ho hr ha asides hall => ?_) ht⟩
    obtain ⟨b, hb⟩ := Conduct.of_asides hall s.course.trace
    have hlt := hf.length_unsettled_lt hl hprefetch hw hr
    rw [hb, hf.course.conduct]
    exact hlt
  · intro k hw
    rw [start_worker] at hw
    cases hw

/-- A run never has more unsettled than the prefetch count. -/
theorem length_unsettled_le_prefetch (E : Environment ω)
    (hprefetch : plan.config.prefetchCount ≠ 0) (now : Nat) (world : ω) (rejected : UInt64)
    (interrupted : Bool) (n : Nat) {later earlier : List Entry}
    (htrace : (run E plan n (start E plan (.opening now world rejected interrupted))).course.trace
      = later ++ earlier) :
    (unsettled earlier).length ≤ plan.config.prefetchCount.toNat := by
  have ho := run_orderly E plan now world rejected interrupted n
  have htaken := run_taken E hprefetch now world rejected interrupted n
  rw [htrace] at ho htaken
  rw [ho.of_append.unsettled_eq]
  split
  · rw [List.length_map]
    exact ho.of_append.length_unsettled_le htaken.of_append
  · exact Nat.zero_le _

/-- **Backpressure.** At every instant of a run with an admissible configuration, the deliveries
that were taken and neither rejected nor given back by the close of their session are at most as
many as the prefetch count, over all sessions together; and so the broker never has more messages
outstanding than that, beyond those that were so before the run. -/
theorem run_backpressure (E : Environment ω) (plan : Plan) (b : Config.Builder)
    (hb : b.build = .ok plan.config) (now : Nat) (world : ω) (rejected : UInt64)
    (interrupted : Bool) (n : Nat) :
    let s := run E plan n (start E plan (.opening now world rejected interrupted))
    (∀ later earlier, s.course.trace = later ++ earlier →
      (unsettled earlier).length ≤ plan.config.prefetchCount.toNat) ∧
    ∀ B : Broker E, (B.ledger s.course.world).outstanding
      ≤ plan.config.prefetchCount.toNat + (B.ledger world).outstanding := by
  intro s
  have ho : QueueDrain.Orderly plan.config.consumerTag s.course.trace :=
    run_orderly E plan now world rejected interrupted n
  have htaken := run_taken E (Config.Builder.prefetchCount_ne_zero hb) now world rejected
    interrupted n
  refine ⟨fun _ _ htrace => length_unsettled_le_prefetch E
    (Config.Builder.prefetchCount_ne_zero hb) now world rejected interrupted n htrace, fun B => ?_⟩
  have hbal : Ledger.Balances (B.ledger world) (Conduct.of s.course.trace)
      (Entry.rejections s.course.trace) (B.ledger s.course.world) :=
    run_balances B plan now world rejected interrupted n
  have hle := ho.length_unsettled_le htaken
  cases hopen : (Conduct.of s.course.trace).standing.isOpen with
  | true =>
    have hheld := (hbal.held hopen).2
    omega
  | false =>
    have hreleased := (hbal.released hopen).1
    omega

end Drain

/-- More messages than the prefetch count, and a rejection that fails while as many are waiting. -/
def Scenario.crowded : Scenario where
  messages := 12
  latencies := [1000]
  rejectFaults := [(1, .fails (.transport .missingHeartbeat))]

/-- What the failure left unsettled goes back to the queue before the next session takes as many
deliveries again. -/
theorem Drain.run_backpressure_crowded :
    let s := Scenario.crowded.runs .sample 30
    let builder : Config.Builder :=
      { brokerUri := "amqp://localhost", queueName := "jobs", prefetchCount := some 10 }
    builder.build = .ok Drain.Plan.sample.config ∧ openings s.course.trace = 2 ∧
    (unsettled s.course.trace).length = 10 ∧ (unsettled (s.course.trace.drop 20)).length ≤ 10 ∧
    s.course.world.ledger.outstanding = 10 ∧ s.course.world.ledger.outstanding ≤ 10 + 0 := by
  intro s builder
  have hbuild : builder.build = .ok Drain.Plan.sample.config := rfl
  obtain ⟨htrace, hledger⟩ := Drain.run_backpressure Scenario.crowded.environment .sample builder
    hbuild 0 Scenario.crowded.opening 0 false 30
  exact ⟨hbuild, rfl, rfl, htrace (s.course.trace.take 20) _ (List.take_append_drop 20 _).symm,
    rfl, hledger Scenario.crowded.broker⟩

end QueueDrain
