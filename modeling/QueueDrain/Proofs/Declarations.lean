import QueueDrain.Proofs.Broker
import QueueDrain.Proofs.Readings

/-!
# The last message count of a report

A run learns how many messages the queue holds from declarations of the queue: whenever it opens a
session and whenever it reads the depth. A report gives the count of the last reading, and where
nothing was read that of the first session. This is the latest count of all, unless the latest
declaration was that of a session that replaced a lost one: its count goes nowhere.

## Main definitions

* `Entry.openingCounts`, `Entry.declarations` — what the declarations in a trace gave
* `Entry.endsReopened` — whether the latest declaration is that of a session that replaced another

## Main results

* `Orderly.declarations_head` — where the latest count is found
* `Drain.Move.welcomes_or`, `Drain.run_initialCount` — a run keeps the count of its first session
* `Drain.run_lastMessageCount` — the last message count of a report
-/

namespace QueueDrain

/-- The count that the opening of a session gave. -/
def Event.opening? : Event → Option Nat
  | .answered .establish count => some count
  | _ => none

/-- The count that a declaration of the queue gave. -/
def Event.declared? : Event → Option Nat
  | .answered .establish count | .answered .depth count => some count
  | _ => none

/-- The queue is declared when a session is opened and when its depth is read. -/
theorem Event.declared?_eq_none {e : Event} :
    e.declared? = none ↔ e.opening? = none ∧ e.reading? = none := by
  cases e with
  | answered r count => cases r <;> simp [declared?, opening?, reading?]
  | _ => simp [declared?, opening?, reading?]

theorem Event.isSome_opening? (e : Event) : e.opening?.isSome = e.isOpening := by
  cases e with
  | answered r count => cases r <;> rfl
  | _ => rfl

/-- A count that was declared is that of an opening or of a reading. -/
theorem Event.eq_answered_of_declared? {e : Event} {count : Nat} (h : e.declared? = some count) :
    e = .answered .establish count ∨ e = .answered .depth count := by
  cases e with
  | answered r n =>
    cases r with
    | establish => obtain rfl : n = count := Option.some.inj h; exact .inl rfl
    | depth => obtain rfl : n = count := Option.some.inj h; exact .inr rfl
    | _ => cases h
  | _ => cases h

namespace Entry

/-- The counts of the sessions that were opened, latest first. -/
def openingCounts (trace : List Entry) : List Nat := trace.filterMap fun e => e.event.opening?

/-- The counts of all declarations of the queue, latest first. -/
def declarations (trace : List Entry) : List Nat := trace.filterMap fun e => e.event.declared?

/-- Whether the latest declaration of the queue is that of a session that replaced another one. -/
def endsReopened : List Entry → Bool
  | [] => false
  | e :: earlier =>
    match e.event with
    | .answered .establish _ => decide (0 < openings earlier)
    | .answered .depth _ => false
    | _ => endsReopened earlier

theorem openingCounts_cons (e : Entry) (earlier : List Entry) :
    openingCounts (e :: earlier) = e.event.opening?.toList ++ openingCounts earlier := by
  rw [openingCounts, List.filterMap_cons, ← openingCounts]
  cases e.event.opening? <;> rfl

theorem declarations_cons (e : Entry) (earlier : List Entry) :
    declarations (e :: earlier) = e.event.declared?.toList ++ declarations earlier := by
  rw [declarations, List.filterMap_cons, ← declarations]
  cases e.event.declared? <;> rfl

/-- Openings are no asides. -/
theorem openingCounts_eq (trace : List Entry) :
    openingCounts trace = (proceedings trace).filterMap Event.opening? := by
  induction trace with
  | nil => rfl
  | cons e earlier ih =>
    obtain ⟨t, e⟩ := e
    rw [openingCounts_cons, ih, proceedings_cons]
    cases e with
    | answered r count => cases r <;> rfl
    | _ => rfl

theorem length_openingCounts (trace : List Entry) :
    (openingCounts trace).length = openings trace := by
  induction trace with
  | nil => rfl
  | cons e earlier ih =>
    rw [openingCounts_cons, List.length_append, ih, openings_cons, Nat.add_comm]
    rw [← Event.isSome_opening?]
    cases e.event.opening? <;> rfl

theorem openingCounts_eq_nil {trace : List Entry} :
    openingCounts trace = [] ↔ openings trace = 0 := by
  rw [← length_openingCounts, List.length_eq_zero_iff]

/-- An entry that declares nothing leaves the latest declaration where it is. -/
theorem endsReopened_cons {e : Entry} (he : e.event.declared? = none) (earlier : List Entry) :
    endsReopened (e :: earlier) = endsReopened earlier := by
  obtain ⟨t, e⟩ := e
  cases e with
  | answered r count => cases r <;> first | rfl | cases he
  | _ => rfl

end Entry

open Entry

variable {tag : String} {trace : List Entry}

/-- Nothing is read before a session is opened. -/
theorem Orderly.readings_eq_nil (h : Orderly tag trace) (hn : openings trace = 0) :
    readings trace = [] := by
  induction trace with
  | nil => rfl
  | cons e earlier ih =>
    obtain ⟨hp, ho⟩ := h
    have hearlier : openings earlier = 0 := by
      rw [openings_cons] at hn
      omega
    rw [readings_cons, ih ho hearlier, List.append_nil]
    cases hread : e.event.reading? with
    | none => rfl
    | some count =>
      -- a depth is read in an open session only
      have hreading : (Conduct.of earlier).standing = .reading := by
        revert hp hread
        cases e.event with
        | answered r n => cases r <;> simp +contextual [Event.reading?, Conduct.Permits]
        | _ => simp [Event.reading?]
      have hopen := ho.isOpen_iff.mp (by rw [hreading]; rfl)
      omega

/-- **Where the latest count is found.** Unless a session was opened again since, it is that of the
last reading, and before the first reading that of the first session. -/
theorem Orderly.declarations_head (h : Orderly tag trace) (hlast : endsReopened trace = false) :
    (declarations trace).head? = ((readings trace).head? <|> (openingCounts trace).getLast?) := by
  induction trace with
  | nil => rfl
  | cons e earlier ih =>
    obtain ⟨hp, ho⟩ := h
    rw [declarations_cons, readings_cons, openingCounts_cons]
    cases hdeclared : e.event.declared? with
    | none =>
      obtain ⟨hopen, hread⟩ := Event.declared?_eq_none.mp hdeclared
      rw [endsReopened_cons hdeclared] at hlast
      rw [hopen, hread]
      exact ih ho hlast
    | some count =>
      rcases Event.eq_answered_of_declared? hdeclared with he | he
      · -- the first session: nothing was read before it
        have hfirst : openings earlier = 0 := by
          rw [endsReopened, he] at hlast
          simpa using hlast
        rw [he, ho.readings_eq_nil hfirst, openingCounts_eq_nil.mpr hfirst]
        rfl
      · rw [he]
        rfl

variable {ω : Type} {E : Environment ω}

namespace Drain

variable {plan : Plan} {s s' : State ω}

/-! ### The count of the first session -/

theorem initialCount_giveUp (s : State ω) : (s.giveUp plan).initialCount = s.initialCount := by
  rw [State.giveUp]
  split <;> rfl

theorem initialCount_openSession (s : State ω) :
    (s.openSession E plan).initialCount = s.initialCount := by
  rw [State.openSession]
  split <;> rfl

/-- The first session's count is kept. -/
theorem initialCount_welcome (s : State ω) (declared : Nat) :
    (s.welcome plan declared).initialCount = some (s.initialCount.getD declared) := by
  rw [State.welcome]
  split
  next hnone => rw [hnone]; rfl
  next hsome => rw [hsome]; rfl

theorem initialCount_polled (s : State ω) (stage : Stage Poller.Activity Poller.Result) :
    (s.polled E plan stage).initialCount = s.initialCount := by
  match stage with
  | .ongoing _ | .over (.ok _) | .over (.error _) => rfl

theorem initialCount_closed (s : State ω) (ending : Except DrainError Outcome) :
    (s.closed plan ending).initialCount = s.initialCount := by
  match ending with
  | .ok _ => rfl
  | .error cause =>
    rw [State.closed]
    split <;> rfl

theorem openingCounts_of_proceeds {c c' : Course ω} {new : List Event} (h : c.Proceeds c' new) :
    openingCounts c'.trace = new.filterMap Event.opening? ++ openingCounts c.trace := by
  rw [openingCounts_eq, openingCounts_eq, ← List.filterMap_append]
  exact congrArg _ h.proceedings_eq

/-- The run has kept the count of its first session. -/
def State.KeepsFirst (s : State ω) : Prop :=
  s.initialCount = (openingCounts s.course.trace).getLast?

theorem filterMap_opening?_eq_nil {new : List Event} (h : ∀ e ∈ new, e.isOpening = false) :
    new.filterMap Event.opening? = [] := by
  refine List.filterMap_eq_nil_iff.mpr fun e he => ?_
  rw [← Option.not_isSome_iff_eq_none, Event.isSome_opening?, h e he]
  exact Bool.false_ne_true

/-- An attempt at a session that is over adds the count of the session if it gave one. -/
theorem welcomes_connected {a : Connect.Activity} {c' : Course ω} {result : Connect.Result}
    (hm : Connect.Move E plan.config.reconnectPolicy plan.endpoint s.course a c' (.over result)) :
    let s' := { s with course := c' }.established E plan result
    (∃ declared new, s'.course.proceedings = new ++ s.course.proceedings ∧
      new.filterMap Event.opening? = [declared] ∧
      s'.initialCount = some (s.initialCount.getD declared)) ∨
    ∃ new, s'.course.proceedings = new ++ s.course.proceedings ∧
      new.filterMap Event.opening? = [] ∧ s'.initialCount = s.initialCount := by
  intro s'
  obtain ⟨asked, hc, hasked⟩ := proceedings_established (E := E) plan { s with course := c' } result
  have hnone : asked.filterMap Event.opening? = [] :=
    filterMap_opening?_eq_nil fun e he => (quiet_of_request? (hasked e he)).2
  -- a session that is open has been welcomed
  have hcount : ∀ declared, (({ s with course := c' }.welcome plan declared).openSession E
      plan).initialCount = some (s.initialCount.getD declared) := fun declared => by
    rw [initialCount_openSession, initialCount_welcome]
  cases hm with
  | overtaken hi hr =>
    exact .inr ⟨asked, by rw [hc, hr.proceedings_eq], hnone, initialCount_giveUp _⟩
  | @opened _ _ declared hi hf =>
    refine .inl ⟨declared, _, hc.trans (Course.append_proceedings_of_finish asked hf), ?_,
      hcount declared⟩
    rw [List.filterMap_append, hnone]
    rfl
  | @reopened k _ c₁ declared hi hf =>
    have htold := congrArg (asked ++ ·) (Course.proceedings_tell c₁ (.reestablished k))
    refine .inl ⟨declared, _, (hc.trans htold).trans (Course.append_proceedings_of_finish asked hf),
      ?_, hcount declared⟩
    rw [List.filterMap_append, hnone]
    rfl
  | @failed _ _ _ cause hi hf hlast =>
    exact .inr ⟨[.failed .establish cause], Course.proceedings_of_finish hf, rfl, rfl⟩

/-- The consumer opens no session. -/
theorem opens_none_of_consumer {k : Consumer} {c' : Course ω}
    {stage : Stage Consumer Consumer.Ending}
    (hm : Consumer.Move E plan.config.queueName k s.course c' stage) :
    ∃ new, c'.proceedings = new ++ s.course.proceedings ∧ new.filterMap Event.opening? = [] := by
  rcases hm.proceedings with hc | ⟨e, he, hc⟩
  · exact ⟨[], hc, rfl⟩
  · refine ⟨[e], hc, filterMap_opening?_eq_nil (List.forall_mem_singleton.mpr ?_)⟩
    cases e <;> simp_all [Event.isConsumption, Event.isOpening]

/-- **What a run keeps.** A session that is opened adds its count to the trace, and the count of the
first one is kept; no other move has a part in this. -/
theorem Move.welcomes_or (h : Move E plan s s') :
    (∃ declared new, s.course.Proceeds s'.course new ∧ new.filterMap Event.opening? = [declared] ∧
      s'.initialCount = some (s.initialCount.getD declared)) ∨
    ∃ new, s.course.Proceeds s'.course new ∧ new.filterMap Event.opening? = [] ∧
      s'.initialCount = s.initialCount := by
  -- where no session is being attempted, none is opened
  have hnone : (∀ a, s.phase ≠ .connecting a) → s'.initialCount = s.initialCount →
      ∃ new, s.course.Proceeds s'.course new ∧ new.filterMap Event.opening? = [] ∧
        s'.initialCount = s.initialCount := by
    intro hphase hcount
    rcases h.consumes_or with ⟨k, c', stage, hw, hm, rfl⟩ | ⟨⟨new, hnew, hquiet⟩, -⟩
    · obtain ⟨new, hc, hopen⟩ := opens_none_of_consumer hm
      exact ⟨new, h.proceeds hc, hopen, hcount⟩
    · refine ⟨new, hnew, filterMap_opening?_eq_nil fun e he => ?_, hcount⟩
      refine Bool.eq_false_iff.mpr fun hopen => ?_
      obtain ⟨a, ha⟩ := (hquiet e he).2 hopen
      exact hphase a ha
  have hproceeds : ∀ new, s'.course.proceedings = new ++ s.course.proceedings →
      s.course.Proceeds s'.course new := fun _ => h.proceeds
  cases h with
  | connecting hp hm =>
    cases hm with
    | began hw hi =>
      exact .inr ⟨[.began .establish], hproceeds _ (Course.proceedings_begin _ _), rfl, rfl⟩
    | @retried _ _ _ cause hi hf ht =>
      exact .inr
        ⟨[.failed .establish cause], hproceeds _ (Course.proceedings_of_finish hf), rfl, rfl⟩
  | connected hp hm =>
    rcases welcomes_connected hm with ⟨declared, new, hc, hopen, hcount⟩ | ⟨new, hc, hopen, hcount⟩
    · exact .inl ⟨declared, new, hproceeds _ hc, hopen, hcount⟩
    · exact .inr ⟨new, hproceeds _ hc, hopen, hcount⟩
  | consumer hu hw hm =>
    obtain ⟨new, hc, hopen⟩ := opens_none_of_consumer hm
    exact .inr ⟨new, hproceeds _ hc, hopen, rfl⟩
  | time hu hidle => exact .inr ⟨[], hproceeds _ (Course.proceedings_advance _ _), rfl, rfl⟩
  | polled hp hr hm => exact .inr (hnone (by simp [hp]) (initialCount_polled _ _))
  | subscribed hp hd hf => exact .inr (hnone (by simp [hp]) (initialCount_polled _ _))
  | closed hp hd => exact .inr (hnone (by simp [hp]) (initialCount_closed _ _))
  | _ hp => exact .inr (hnone (by simp [hp]) rfl)

theorem Move.keepsFirst (hm : Move E plan s s') (h : s.KeepsFirst) : s'.KeepsFirst := by
  rcases hm.welcomes_or with ⟨declared, new, hnew, hopen, hcount⟩ | ⟨new, hnew, hopen, hcount⟩
  · rw [State.KeepsFirst, openingCounts_of_proceeds hnew, hopen, hcount, h]
    exact List.getLast?_cons.symm
  · rw [State.KeepsFirst, openingCounts_of_proceeds hnew, hopen, hcount]
    exact h

/-- In every run the count that is kept is that of the first session. -/
theorem run_keepsFirst (E : Environment ω) (plan : Plan) (now : Nat) (world : ω)
    (rejected : UInt64) (interrupted : Bool) (n : Nat) :
    (run E plan n (start E plan (.opening now world rejected interrupted))).KeepsFirst := by
  refine run_of_move (fun _ _ => Move.keepsFirst) ?_ n
  have hreaches := (start_calmly (E := E) plan
    (Course.opening now world rejected interrupted)).reaches
  have hnone : openingCounts (start E plan
      (Course.opening now world rejected interrupted)).course.trace = [] := by
    rw [openingCounts_of_proceeds (hreaches.proceeds (proceedings_start plan _))]
    cases interrupted <;> rfl
  rw [State.KeepsFirst, hnone]
  cases hi : (Course.opening now world rejected interrupted).interrupted with
  | true => rw [start_of_interrupted hi, initialCount_giveUp]; rfl
  | false => rw [start_of_not_interrupted hi]; rfl

/-- **The last message count of a report.** It is the count of the last reading, and where nothing
was read that of the first session; there is none exactly when no session was opened. Unless a
session was opened again since, it is the latest count that the queue was declared with. -/
theorem run_lastMessageCount (E : Environment ω) (plan : Plan) (now : Nat) (world : ω)
    (rejected : UInt64) (interrupted : Bool) (n : Nat) (summary : Summary)
    (hresult : (run E plan n
      (start E plan (.opening now world rejected interrupted))).result? = some (.ok summary)) :
    let trace :=
      (run E plan n (start E plan (.opening now world rejected interrupted))).course.trace
    summary.lastMessageCount = ((readings trace).head? <|> (openingCounts trace).getLast?) ∧
    (summary.lastMessageCount = none ↔ openings trace = 0) ∧
    (endsReopened trace = false → summary.lastMessageCount = (declarations trace).head?) := by
  intro trace
  have ho : QueueDrain.Orderly plan.config.consumerTag trace :=
    run_orderly E plan now world rejected interrupted n
  have hreports := run_reports E plan now world rejected interrupted n summary hresult
  have hcount : summary.lastMessageCount
      = ((readings trace).head? <|> (openingCounts trace).getLast?) := by
    have hlast := (run_tallies E plan now world rejected interrupted n).2
    have hfirst := run_keepsFirst E plan now world rejected interrupted n
    rw [hreports, State.summary, hlast, hfirst]
  refine ⟨hcount, ?_, fun hlast => hcount.trans (ho.declarations_head hlast).symm⟩
  constructor
  · intro hnone
    rw [hcount, Option.orElse_eq_orElse, Option.orElse_eq_or, Option.or_eq_none_iff] at hnone
    exact openingCounts_eq_nil.mp (List.getLast?_eq_none_iff.mp hnone.2)
  · intro hzero
    rw [hcount, ho.readings_eq_nil hzero, openingCounts_eq_nil.mpr hzero]
    rfl

end Drain

/-! ### Two scripts -/

/-- A stream that fails before it delivers anything. -/
def Scenario.Stream.lost : Stream :=
  { after := some 0, fault := .fails (.transport .missingHeartbeat) }

/-- A session that is lost at once, and another one whose first reading brings the interrupt. -/
def Scenario.reread : Scenario where
  messages := 3
  sessions := [{ stream := .lost }, { polls := [{ count := some 9, interrupts := true }] }]

/-- A reading of the second session is what is reported. -/
theorem Drain.run_lastMessageCount_reread :
    let s := Scenario.reread.runs .sample 20
    let trace := s.course.trace
    s.result? = some (.ok
      { queue := "jobs", endpoint := "amqp://localhost:5672", outcome := .interrupted,
        rejected := 3, polls := 1, reconnects := 1, lastMessageCount := some 9 }) ∧
    (some 9 = none ↔ openings trace = 0) ∧
    endsReopened trace = false ∧ some 9 = (declarations trace).head? := by
  intro s trace
  have hresult : s.result? = some (.ok
      { queue := "jobs", endpoint := "amqp://localhost:5672", outcome := .interrupted,
        rejected := 3, polls := 1, reconnects := 1, lastMessageCount := some 9 }) := rfl
  obtain ⟨-, hnone, hlast⟩ := Drain.run_lastMessageCount Scenario.reread.environment .sample 0
    Scenario.reread.opening 0 false 20 _ hresult
  exact ⟨hresult, hnone, rfl, hlast rfl⟩

/-- A session that is lost at once. Messages arrive before the next one is opened, and the interrupt
comes while that one is subscribed to. -/
def Scenario.reopened : Scenario where
  messages := 3
  arrivals := [(500, 4)]
  sessions := [{ stream := .lost }, { subscribe := { interrupts := true } }]

/-- The count of a session that replaced another one goes nowhere. -/
theorem Drain.reopened_lastMessageCount :
    let s := Scenario.reopened.runs .sample 20
    ∃ summary, s.result? = some (.ok summary) ∧ summary.lastMessageCount = some 3 ∧
      openingCounts s.course.trace = [7, 3] ∧
      summary.lastMessageCount ≠ (declarations s.course.trace).head? :=
  ⟨_, rfl, rfl, rfl, by decide⟩

end QueueDrain
