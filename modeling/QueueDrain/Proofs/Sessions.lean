import QueueDrain.Proofs.Conduct

/-!
# Sessions in a trace

What an orderly trace says about its sessions in plain terms: how often one was opened and closed,
what was asked of the latest one so far, which deliveries of it were rejected.

## Main definitions

* `Entry.openings`, `Entry.closings`, `Entry.closures` — sessions opened, closes begun, closes over
* `Entry.session` — what has happened in the latest session
* `Entry.pending` — the request that has not been answered
* `Standing.Recalls` — what must have happened in a session of some standing

## Main results

* `Orderly.openings_eq_closures`, `Orderly.openings_eq_closings` — sessions are closed one by one
* `Orderly.pending_eq`, `Conduct.pending_of_answer` — requests are answered one by one, too
* `Orderly.recalls` — a session has come to where it stands in the one admissible order
* `Orderly.emptied` — an empty queue was seen in the latest session, which goes on to its close
* `Orderly.count_unsettled` — the unsettled deliveries are those not rejected
-/

namespace QueueDrain

/-- An attempt delivered a session. -/
def Event.isOpening : Event → Bool
  | .answered .establish _ => true
  | _ => false

/-- The close of a session begins. -/
def Event.isClosing : Event → Bool
  | .began .close => true
  | _ => false

/-- The close of a session is over. -/
def Event.isClosure : Event → Bool
  | .answered .close _ | .failed .close _ => true
  | _ => false

/-- A message was taken. -/
def Event.isDelivery : Event → Bool
  | .delivered _ => true
  | _ => false

/-- The cancellation, the stream or a rejection failed. -/
def Event.isMishap : Event → Bool
  | .failed (.cancel _) _ | .rejectFailed _ _ | .rejectPanicked _ | .streamFailed _
  | .streamPanicked _ => true
  | _ => false

namespace Entry

/-- Sessions that were opened. -/
def openings (trace : List Entry) : Nat := trace.countP fun e => e.event.isOpening

/-- Closes that were begun. -/
def closings (trace : List Entry) : Nat := trace.countP fun e => e.event.isClosing

/-- Closes that came to their end. -/
def closures (trace : List Entry) : Nat := trace.countP fun e => e.event.isClosure

/-- What has happened since the latest session was opened, newest first. -/
def session : List Entry → List Event
  | [] => []
  | e :: earlier => if e.event.isOpening then [] else e.event :: session earlier

/-- The request that has begun and was not answered, if there is one. -/
def pending : List Entry → Option Request
  | [] => none
  | e :: earlier =>
    match e.event with
    | .began r => some r
    | .answered _ _ | .failed _ _ => none
    | _ => pending earlier

/-- What happened in the latest session happened lately, or in the session that is still the latest
one. -/
theorem mem_session_append {later earlier : List Entry} {x : Event}
    (h : x ∈ session (later ++ earlier)) :
    (∃ e ∈ later, e.event = x) ∨
      (x ∈ session earlier ∧ ∀ e ∈ later, e.event.isOpening = false) := by
  induction later with
  | nil => exact .inr ⟨h, by simp⟩
  | cons e later ih =>
    rw [List.cons_append, session] at h
    split at h
    next => cases h
    next hopen =>
      rcases List.mem_cons.mp h with rfl | h
      · exact .inl ⟨e, List.mem_cons_self, rfl⟩
      · rcases ih h with ⟨e', he', hx⟩ | ⟨hx, hall⟩
        · exact .inl ⟨e', List.mem_cons_of_mem _ he', hx⟩
        · refine .inr ⟨hx, fun e' he' => ?_⟩
          rcases List.mem_cons.mp he' with rfl | he'
          · simpa using hopen
          · exact hall e' he'

theorem mem_of_mem_session {trace : List Entry} {x : Event} (h : x ∈ session trace) :
    ∃ e ∈ trace, e.event = x := by
  rw [← List.append_nil trace] at h
  rcases mem_session_append h with hmem | ⟨hnil, -⟩
  · exact hmem
  · cases hnil

/-- A request that has not been answered has begun, and none has begun since. -/
theorem began_of_pending {trace : List Entry} {r : Request} (h : pending trace = some r) :
    ∃ since t before, trace = since ++ ⟨t, .began r⟩ :: before ∧
      ∀ e ∈ since, ∀ r', e.event ≠ .began r' := by
  induction trace with
  | nil => cases h
  | cons e earlier ih =>
    obtain ⟨t, e⟩ := e
    -- an event that is neither a request nor an answer leaves the request pending
    have hskip : pending earlier = some r → (∀ r', e ≠ .began r') →
        ∃ since t' before, ⟨t, e⟩ :: earlier = since ++ ⟨t', .began r⟩ :: before ∧
          ∀ e ∈ since, ∀ r', e.event ≠ .began r' := by
      intro hpending hne
      obtain ⟨since, t', before, rfl, hall⟩ := ih hpending
      exact ⟨⟨t, e⟩ :: since, t', before, rfl, List.forall_mem_cons.mpr ⟨hne, hall⟩⟩
    cases e with
    | began r' =>
      obtain rfl : r' = r := Option.some.inj h
      exact ⟨[], t, earlier, rfl, by simp⟩
    | answered _ _ | failed _ _ => cases h
    | _ => exact hskip h (by simp)

@[simp] theorem openings_nil : openings [] = 0 := rfl

@[simp] theorem closings_nil : closings [] = 0 := rfl

@[simp] theorem closures_nil : closures [] = 0 := rfl

@[simp] theorem openings_cons (e : Entry) (earlier : List Entry) :
    openings (e :: earlier) = openings earlier + if e.event.isOpening then 1 else 0 :=
  List.countP_cons

@[simp] theorem closings_cons (e : Entry) (earlier : List Entry) :
    closings (e :: earlier) = closings earlier + if e.event.isClosing then 1 else 0 :=
  List.countP_cons

@[simp] theorem closures_cons (e : Entry) (earlier : List Entry) :
    closures (e :: earlier) = closures earlier + if e.event.isClosure then 1 else 0 :=
  List.countP_cons

end Entry

open Entry

variable {tag : String} {trace : List Entry}

theorem sessions_eq_openings (trace : List Entry) :
    (Conduct.of trace).sessions = openings trace := by
  induction trace with
  | nil => rfl
  | cons e earlier ih =>
    obtain ⟨t, e⟩ := e
    rw [Conduct.of_cons, openings_cons, ← ih]
    cases e with
    | began r => cases r <;> rfl
    | answered r _ => cases r <;> rfl
    | failed r _ => cases r <;> rfl
    | _ => rfl

/-- Sessions come with their opening and go with the end of their close. -/
theorem Conduct.isOpen_after {m : Conduct} {e : Event} (hp : m.Permits tag e)
    (ho : e.isOpening = false) (hc : e.isClosure = false) :
    (m.after e).standing.isOpen = m.standing.isOpen := by
  cases e with
  | began r =>
    cases r with
    | close =>
      rcases MayClose.standing hp with hs | hs | hs | hs | hs <;>
        simp [hs, after, Standing.isOpen]
    | _ => simp_all [after, Permits, Standing.isOpen]
  | answered r _ => cases r <;> simp_all [after, Permits, Standing.isOpen, Event.isOpening,
      Event.isClosure]
  | failed r _ => cases r <;> simp_all [after, Permits, Standing.isOpen, Event.isClosure]
  | _ => rfl

theorem Conduct.attempting_of_isOpening {m : Conduct} {e : Event} (hp : m.Permits tag e)
    (ho : e.isOpening = true) : m.standing = .attempting := by
  cases e with
  | answered r _ =>
    cases r with
    | establish => exact hp
    | _ => cases ho
  | _ => cases ho

/-- A session is opened where there is none, and then there is one. -/
theorem Conduct.isOpen_of_isOpening {m : Conduct} {e : Event} (hp : m.Permits tag e)
    (ho : e.isOpening = true) :
    m.standing.isOpen = false ∧ (m.after e).standing.isOpen = true ∧ e.isClosure = false := by
  cases e with
  | answered r _ =>
    cases r with
    | establish => exact ⟨by rw [show m.standing = .attempting from hp]; rfl, rfl, rfl⟩
    | _ => cases ho
  | _ => cases ho

/-- The end of a close leaves no session. -/
theorem Conduct.isOpen_of_isClosure {m : Conduct} {e : Event} (hp : m.Permits tag e)
    (hc : e.isClosure = true) :
    m.standing.isOpen = true ∧ (m.after e).standing.isOpen = false ∧ e.isOpening = false := by
  cases e with
  | answered r _ =>
    cases r with
    | close => exact ⟨by rw [show m.standing = .closing from hp]; rfl, rfl, rfl⟩
    | _ => cases hc
  | failed r _ =>
    cases r with
    | close => exact ⟨by rw [show m.standing = .closing from hp]; rfl, rfl, rfl⟩
    | _ => cases hc
  | _ => cases hc

/-- Every session but an open one has come to the end of its close. -/
theorem Orderly.openings_eq_closures (h : Orderly tag trace) :
    openings trace = closures trace + if (Conduct.of trace).standing.isOpen then 1 else 0 := by
  induction trace with
  | nil => rfl
  | cons e earlier ih =>
    obtain ⟨hp, ho⟩ := h
    rw [Conduct.of_cons, openings_cons, closures_cons, ih ho]
    cases hopen : e.event.isOpening with
    | true =>
      obtain ⟨hbefore, hafter, hclosure⟩ := Conduct.isOpen_of_isOpening hp hopen
      simp [hbefore, hafter, hclosure]
    | false =>
      cases hclosure : e.event.isClosure with
      | true =>
        obtain ⟨hbefore, hafter, -⟩ := Conduct.isOpen_of_isClosure hp hclosure
        simp [hbefore, hafter]
      | false => simp [Conduct.isOpen_after hp hopen hclosure]

theorem Orderly.isOpen_iff (h : Orderly tag trace) :
    (Conduct.of trace).standing.isOpen = true ↔ openings trace = closures trace + 1 := by
  rw [h.openings_eq_closures]
  cases (Conduct.of trace).standing.isOpen <;> simp

/-- Every session but a live one has begun to be closed. -/
theorem Orderly.openings_eq_closings (h : Orderly tag trace) :
    openings trace = closings trace + if (Conduct.of trace).standing.isLive then 1 else 0 := by
  induction trace with
  | nil => rfl
  | cons e earlier ih =>
    obtain ⟨hp, ho⟩ := h
    obtain ⟨t, e⟩ := e
    rw [Conduct.of_cons, openings_cons, closings_cons, ih ho]
    generalize Conduct.of earlier = m at hp
    cases e with
    | began r =>
      cases r with
      | close =>
        rcases Conduct.MayClose.standing hp with h | h | h | h | h <;>
          simp [h, Conduct.after, Standing.isLive, Event.isOpening, Event.isClosing]
      | _ =>
        simp_all [Conduct.after, Conduct.Permits, Standing.isLive, Event.isOpening, Event.isClosing]
    | answered r _ =>
      cases r <;>
        simp_all [Conduct.after, Conduct.Permits, Standing.isLive, Event.isOpening, Event.isClosing]
    | failed r _ =>
      cases r <;>
        simp_all [Conduct.after, Conduct.Permits, Standing.isLive, Event.isOpening, Event.isClosing]
    | _ => rfl

/-- The request that a standing waits for, in a run that consumes under the given tag. -/
def Standing.pending (tag : String) : Standing → Option Request
  | .attempting => some .establish
  | .subscribing => some (.subscribe tag)
  | .reading => some .depth
  | .cancelling => some (.cancel tag)
  | .closing => some .close
  | .idle | .opened | .broken | .serving | .cancelled => none

/-- An answer is one to the request that the session stands at. -/
theorem Conduct.pending_of_answer {m : Conduct} {r : Request} (value : Except DrainError Nat)
    (hp : m.Permits tag (Course.answer r value)) : m.standing.pending tag = some r := by
  cases r with
  | establish =>
    have hs : m.standing = .attempting := by cases value <;> exact hp
    rw [hs]; rfl
  | subscribe t =>
    obtain ⟨rfl, hs⟩ : t = tag ∧ m.standing = .subscribing := by cases value <;> exact hp
    rw [hs]; rfl
  | depth =>
    have hs : m.standing = .reading := by cases value <;> exact hp
    rw [hs]; rfl
  | cancel t =>
    obtain ⟨rfl, hs⟩ : t = tag ∧ m.standing = .cancelling := by cases value <;> exact hp
    rw [hs]; rfl
  | close =>
    have hs : m.standing = .closing := by cases value <;> exact hp
    rw [hs]; rfl

/-- At most one request is unanswered, and it is the one that the session stands at. -/
theorem Orderly.pending_eq (h : Orderly tag trace) :
    pending trace = (Conduct.of trace).standing.pending tag := by
  induction trace with
  | nil => rfl
  | cons e earlier ih =>
    obtain ⟨hp, ho⟩ := h
    obtain ⟨t, e⟩ := e
    rw [Conduct.of_cons]
    cases e with
    | began r =>
      cases r with
      | subscribe _ => obtain ⟨rfl, -⟩ := hp; rfl
      | cancel _ => obtain ⟨rfl, -⟩ := hp; rfl
      | _ => rfl
    | answered r _ => cases r <;> rfl
    | failed r _ => cases r <;> rfl
    | _ => exact ih ho

/-! ### The latest session -/

/-- Whether a session was neither asked to be cancelled nor to be closed. -/
def Standing.isUncancelled : Standing → Bool
  | .opened | .subscribing | .broken | .serving | .reading => true
  | _ => false

/-- What must have happened in a session of some standing. -/
structure Standing.Recalls (tag : String) (session : List Event) (standing : Standing) : Prop where
  untouched : standing = .opened → ∀ r, .began r ∉ session
  asked : standing.isServing = true ∨ standing = .subscribing → .began (.subscribe tag) ∈ session
  subscribed : standing.isServing = true → ∃ n, .answered (.subscribe tag) n ∈ session
  uncancelled : standing.isUncancelled = true → ∀ t, .began (.cancel t) ∉ session
  unclosed : standing.isLive = true → .began .close ∉ session

/-- An event that is no request leaves untouched what is recalled of a standing. -/
theorem Standing.Recalls.cons {standing : Standing} {session : List Event}
    (h : standing.Recalls tag session) {e : Event} (he : ∀ r, e ≠ .began r) :
    standing.Recalls tag (e :: session) where
  untouched hs r hr := (List.mem_cons.mp hr).elim (fun heq => he r heq.symm) (h.untouched hs r)
  asked hs := List.mem_cons_of_mem _ (h.asked hs)
  subscribed hs := (h.subscribed hs).imp fun _ hn => List.mem_cons_of_mem _ hn
  uncancelled hs t hr := (List.mem_cons.mp hr).elim (fun heq => he _ heq.symm) (h.uncancelled hs t)
  unclosed hs hr := (List.mem_cons.mp hr).elim (fun heq => he _ heq.symm) (h.unclosed hs)

/-- Of a session that is not there or is being closed nothing is recalled. -/
theorem Standing.recalls_of_not_live {standing : Standing} (h : standing.isLive = false)
    (session : List Event) : standing.Recalls tag session := by
  constructor <;> revert h <;> cases standing <;> simp [isLive, isServing, isUncancelled]

/-- A session has come to where it stands in the one admissible order. -/
theorem Orderly.recalls (h : Orderly tag trace) :
    (Conduct.of trace).standing.Recalls tag (session trace) := by
  induction trace with
  | nil => constructor <;> simp [session, Standing.isServing]
  | cons e earlier ih =>
    obtain ⟨hp, ho⟩ := h
    obtain ⟨t, e⟩ := e
    have ih := ih ho
    rw [Conduct.of_cons]
    generalize Conduct.of earlier = m at hp ih
    cases e with
    | began r =>
      cases r with
      | establish | close => exact Standing.recalls_of_not_live rfl _
      | _ =>
        obtain ⟨h1, h2, h3, h4, h5⟩ := ih
        constructor <;> simp_all [Conduct.after, Conduct.Permits, session, Event.isOpening,
          Standing.isServing, Standing.isLive, Standing.isUncancelled]
    | answered r _ =>
      cases r with
      | close => exact Standing.recalls_of_not_live rfl _
      | _ =>
        obtain ⟨h1, h2, h3, h4, h5⟩ := ih
        constructor <;> simp_all [Conduct.after, Conduct.Permits, session, Event.isOpening,
          Standing.isServing, Standing.isLive, Standing.isUncancelled]
    | failed r _ =>
      cases r with
      | establish | close => exact Standing.recalls_of_not_live rfl _
      | _ =>
        obtain ⟨h1, h2, h3, h4, h5⟩ := ih
        constructor <;> simp_all [Conduct.after, Conduct.Permits, session, Event.isOpening,
          Standing.isServing, Standing.isLive, Standing.isUncancelled]
    | _ => exact ih.cons (by simp)

/-- Where a session stands in which an empty queue was seen. -/
def Conduct.IsPastZero (m : Conduct) : Prop :=
  m.standing = .serving ∨ m.standing = .cancelling ∨ m.standing = .cancelled ∨
    ((m.standing = .closing ∨ m.standing = .idle) ∧ (m.mishap = true ∨ m.unsettled = []))

theorem Conduct.IsPastZero.not_attempting {m : Conduct} (h : m.IsPastZero) :
    m.standing ≠ .attempting := by
  rcases h with h | h | h | ⟨h | h, -⟩ <;> simp [h]

/-- Where an empty queue was seen, the answers that may come lead on to the close. -/
theorem Conduct.IsPastZero.answer {m : Conduct} (h : m.IsPastZero) {r : Request}
    (value : Except DrainError Nat) (hp : m.Permits tag (Course.answer r value)) :
    (m.after (Course.answer r value)).IsPastZero := by
  have hpending := pending_of_answer value hp
  rcases h with hs | hs | hs | ⟨hs | hs, hsettled⟩ <;> rw [hs] at hpending
  · cases hpending
  · obtain rfl : Request.cancel tag = r := Option.some.inj hpending
    cases value <;> exact .inr (.inr (.inl rfl))
  · cases hpending
  · obtain rfl : Request.close = r := Option.some.inj hpending
    cases value <;> exact .inr (.inr (.inr ⟨.inr rfl, hsettled⟩))
  · cases hpending

/-- Once an empty queue was seen, a session goes on to its close and stays there. -/
theorem Conduct.IsPastZero.after {m : Conduct} {e : Event} (h : m.IsPastZero)
    (he : m.emptied = true) (hp : m.Permits tag e) : (m.after e).IsPastZero := by
  -- the consumer leaves the session where it stands
  have hconsuming : ∀ m' : Conduct, m'.standing = m.standing → m.IsConsuming → m'.IsPastZero := by
    intro m' hs hk
    rw [IsPastZero, hs]
    rcases h with h | h | h | ⟨h | h, -⟩
    · exact .inl h
    · exact .inr (.inl h)
    · exact .inr (.inr (.inl h))
    · simp [IsConsuming, h, Standing.isServing] at hk
    · simp [IsConsuming, h, Standing.isServing] at hk
  cases e with
  | began r =>
    cases r with
    | establish => exact absurd (he.symm.trans hp.2.2) (by simp)
    | subscribe t => exact absurd h (by simp [IsPastZero, hp.2.1])
    | depth => exact absurd (he.symm.trans hp.2) (by simp)
    | cancel t => exact .inr (.inl rfl)
    | close =>
      rcases hp with ⟨hs, -⟩ | hs | ⟨-, hne⟩ | ⟨-, hsettled⟩
      · exact absurd h (by simp [IsPastZero, hs])
      · exact absurd h (by simp [IsPastZero, hs])
      · exact absurd (he.symm.trans hne) (by simp)
      · exact .inr (.inr (.inr ⟨.inl rfl, hsettled⟩))
  | answered r count => exact h.answer (.ok count) hp
  | failed r cause => exact h.answer (.error cause) hp
  | interrupted | notice _ | streamCancelled | streamEnded => exact h
  | delivered _ | streamFailed _ | streamPanicked _ => exact hconsuming _ rfl hp
  | rejected _ | rejectFailed _ _ | rejectPanicked _ => exact hconsuming _ rfl hp.1

/-- Only a depth reading tells whether the queue is empty. -/
theorem Conduct.emptied_after {m : Conduct} {e : Event} (hn : ∀ count, e ≠ .answered .depth count) :
    (m.after e).emptied = m.emptied := by
  cases e with
  | began r => cases r <;> rfl
  | answered r count =>
    cases r with
    | depth => exact absurd rfl (hn count)
    | _ => rfl
  | failed r _ => cases r <;> rfl
  | _ => rfl

/-- An empty queue was seen in the latest session, which has gone on to its close from there. -/
theorem Orderly.emptied (h : Orderly tag trace) (he : (Conduct.of trace).emptied = true) :
    (Conduct.of trace).IsPastZero ∧ .answered .depth 0 ∈ session trace := by
  induction trace with
  | nil => cases he
  | cons e earlier ih =>
    obtain ⟨hp, ho⟩ := h
    rw [Conduct.of_cons] at he ⊢
    by_cases hread : ∃ count, e.event = .answered .depth count
    · obtain ⟨count, hcount⟩ := hread
      rw [hcount] at he ⊢
      have hzero : count = 0 := by simpa [Conduct.after] using he
      exact ⟨.inl rfl, by simp [session, hcount, hzero, Event.isOpening]⟩
    · have hn : ∀ count, e.event ≠ .answered .depth count := fun count h => hread ⟨count, h⟩
      rw [Conduct.emptied_after hn] at he
      obtain ⟨hpast, hmem⟩ := ih ho he
      refine ⟨hpast.after he hp, ?_⟩
      rw [session, if_neg]
      · exact List.mem_cons_of_mem _ hmem
      · exact fun hopen => hpast.not_attempting (Conduct.attempting_of_isOpening hp hopen)

/-- A run is interrupted if and only if its trace says so. -/
theorem interrupted_iff (trace : List Entry) :
    (Conduct.of trace).interrupted = true ↔ ∃ e ∈ trace, e.event = .interrupted := by
  induction trace with
  | nil => simp
  | cons e earlier ih =>
    rw [Conduct.of_cons]
    by_cases he : e.event = .interrupted
    · simp [he, Conduct.after]
    · rw [Conduct.after_interrupted_of_ne _ he, ih]
      simp [he]

/-- A new session has no unsettled deliveries, a delivery adds one, a rejection takes one off, and
nothing else changes them. -/
theorem Conduct.unsettled_after {m : Conduct} {e : Event} (hp : m.Permits tag e) :
    (e.isOpening = true ∧ (m.after e).unsettled = []) ∨
    (∃ t, e = .delivered t ∧ (m.after e).unsettled = m.unsettled ++ [t]) ∨
    (∃ t, e = .rejected t ∧ t ∈ m.unsettled ∧ (m.after e).unsettled = m.unsettled.erase t) ∨
    ((∀ t, e ≠ .delivered t) ∧ (∀ t, e ≠ .rejected t) ∧ e.isOpening = false ∧
      (m.after e).unsettled = m.unsettled) := by
  cases e with
  | began r => cases r <;> exact .inr (.inr (.inr ⟨nofun, nofun, rfl, rfl⟩))
  | answered r _ =>
    cases r with
    | establish => exact .inl ⟨rfl, rfl⟩
    | _ => exact .inr (.inr (.inr ⟨nofun, nofun, rfl, rfl⟩))
  | failed r _ => cases r <;> exact .inr (.inr (.inr ⟨nofun, nofun, rfl, rfl⟩))
  | delivered t => exact .inr (.inl ⟨t, rfl, rfl⟩)
  | rejected t => exact .inr (.inr (.inl ⟨t, rfl, hp.2, rfl⟩))
  | _ => exact .inr (.inr (.inr ⟨nofun, nofun, rfl, rfl⟩))

/-- The unsettled deliveries are those of the latest session that were not rejected. -/
theorem Orderly.count_unsettled (h : Orderly tag trace) (t : Nat) :
    (session trace).count (.delivered t)
      = (Conduct.of trace).unsettled.count t + (session trace).count (.rejected t) := by
  induction trace with
  | nil => rfl
  | cons e earlier ih =>
    obtain ⟨hp, ho⟩ := h
    obtain ⟨time, e⟩ := e
    have ih := ih ho
    rw [Conduct.of_cons, session]
    rcases Conduct.unsettled_after hp with
      ⟨hopen, hu⟩ | ⟨t', rfl, hu⟩ | ⟨t', rfl, hmem, hu⟩ | ⟨hd, hr, hopen, hu⟩
    · simp [hopen, hu]
    · rw [hu, List.count_append]
      by_cases ht : t' = t
      · subst ht
        simp only [Event.isOpening, Bool.false_eq_true, if_false, List.count_cons_self, ih,
          List.count_nil, ne_eq, reduceCtorEq, not_false_eq_true, List.count_cons_of_ne]
        omega
      · simp [ht, ih, Event.isOpening]
    · have hpos := List.count_pos_iff.mpr hmem
      rw [hu, List.count_erase]
      by_cases ht : t' = t
      · subst ht
        simp only [Event.isOpening, Bool.false_eq_true, if_false, ne_eq, reduceCtorEq,
          not_false_eq_true, List.count_cons_of_ne, ih, BEq.rfl, if_true, List.count_cons_self]
        omega
      · simp [ht, ih, Event.isOpening]
    · simp [hu, ih, hd t, hr t, hopen]

/-- The number of unsettled deliveries. -/
theorem Orderly.length_unsettled (h : Orderly tag trace) :
    (session trace).countP Event.isDelivery
      = (Conduct.of trace).unsettled.length + (session trace).countP Event.isRejection := by
  induction trace with
  | nil => rfl
  | cons e earlier ih =>
    obtain ⟨hp, ho⟩ := h
    obtain ⟨time, e⟩ := e
    have ih := ih ho
    rw [Conduct.of_cons, session]
    rcases Conduct.unsettled_after hp with
      ⟨hopen, hu⟩ | ⟨t, rfl, hu⟩ | ⟨t, rfl, hmem, hu⟩ | ⟨hd, hr, hopen, hu⟩
    · simp [hopen, hu]
    · simp only [Event.isOpening, Bool.false_eq_true, if_false, List.countP_cons, ih,
        Event.isDelivery, if_true, hu, List.length_append, List.length_singleton,
        Event.isRejection]
      omega
    · have hpos := List.length_pos_of_mem hmem
      simp only [Event.isOpening, Bool.false_eq_true, if_false, List.countP_cons, ih,
        Event.isDelivery, hu, List.length_erase_of_mem hmem, Event.isRejection, if_true]
      omega
    · have hneither : e.isDelivery = false ∧ e.isRejection = false := by
        cases e <;> simp_all [Event.isDelivery, Event.isRejection]
      simp [hu, ih, hneither, hopen]

/-- Whether something failed in the latest session. -/
theorem mishap_eq_any (trace : List Entry) :
    (Conduct.of trace).mishap = (session trace).any Event.isMishap := by
  induction trace with
  | nil => rfl
  | cons e earlier ih =>
    obtain ⟨time, e⟩ := e
    rw [Conduct.of_cons]
    cases e with
    | began r => cases r <;> exact ih
    | answered r _ =>
      cases r with
      | establish => rfl
      | _ => exact ih
    | failed r _ =>
      cases r with
      | cancel t => simp [Conduct.after, session, Event.isOpening, Event.isMishap]
      | _ => exact ih
    | rejectFailed _ _ | rejectPanicked _ | streamFailed _ | streamPanicked _ =>
      simp [Conduct.after, session, Event.isOpening, Event.isMishap]
    | _ => exact ih

end QueueDrain
