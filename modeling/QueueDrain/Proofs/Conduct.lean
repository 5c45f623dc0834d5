import QueueDrain.Proofs.Course

/-!
# Orderly conduct

A trace tells where a run stands: whether a session is open, what was last asked of it, which
deliveries are unsettled. What may happen next depends on that alone, and a trace is orderly if
everything in it was allowed when it happened. So one recursion over the trace carries the whole
grammar of a run, over any number of sessions, without mention of the machine that runs.

## Main definitions

* `Standing` — how far the current session has come
* `Conduct`, `Conduct.of` — what a trace tells
* `Conduct.Permits` — what may happen next
* `Orderly` — everything in a trace was allowed when it happened
* `Course.Tracks` — a course with an orderly trace, and what the trace tells

## Main results

* `Orderly.permits` — in an orderly trace every entry was allowed by what stood before it
* `Course.Tracks.begin`, `Course.Tracks.finish`, … — what the operations on a course need and leave
-/

namespace QueueDrain

/-- How far the current session has come. -/
inductive Standing where
  /-- There is none. -/
  | idle
  /-- There is none, and one is being attempted. -/
  | attempting
  /-- It is open, and nothing has been asked of it. -/
  | opened
  | subscribing
  /-- The subscription failed. -/
  | broken
  /-- Deliveries come, and nothing is being asked. -/
  | serving
  /-- Deliveries come while the depth is being read. -/
  | reading
  /-- Deliveries still come while the subscription is being cancelled. -/
  | cancelling
  /-- The cancellation is answered; what is in flight may still be settled. -/
  | cancelled
  | closing
deriving DecidableEq, Repr

/-- Whether deliveries may come. -/
def Standing.isServing : Standing → Bool
  | .serving | .reading | .cancelling | .cancelled => true
  | _ => false

/-- Whether there is a session whose close has not begun. -/
def Standing.isLive : Standing → Bool
  | .idle | .attempting | .closing => false
  | _ => true

/-- Whether there is a session. -/
def Standing.isOpen : Standing → Bool
  | .idle | .attempting => false
  | _ => true

namespace Standing

variable {standing : Standing}

theorem isLive_of_isServing (h : standing.isServing = true) : standing.isLive = true := by
  revert h; cases standing <;> simp [isServing, isLive]

theorem isOpen_of_isLive (h : standing.isLive = true) : standing.isOpen = true := by
  revert h; cases standing <;> simp [isLive, isOpen]

theorem isOpen_of_isServing (h : standing.isServing = true) : standing.isOpen = true :=
  isOpen_of_isLive (isLive_of_isServing h)

end Standing

/-- What a trace tells. -/
structure Conduct where
  standing : Standing := .idle
  /-- The deliveries of the latest session that have not been rejected, oldest first. -/
  unsettled : List Nat := []
  /-- Whether the operator has interrupted. -/
  interrupted : Bool := false
  /-- Whether the last depth reading that succeeded was zero. -/
  emptied : Bool := false
  /-- Whether the cancellation, the stream or a rejection of the latest session failed. -/
  mishap : Bool := false
  /-- Sessions opened so far. -/
  sessions : Nat := 0
deriving DecidableEq, Repr

namespace Conduct

/-- What a trace tells with one more event. -/
def after (m : Conduct) : Event → Conduct
  | .notice _ | .streamCancelled | .streamEnded => m
  | .interrupted => { m with interrupted := true }
  | .began .establish => { m with standing := .attempting }
  | .answered .establish _ =>
    { m with standing := .opened, unsettled := [], mishap := false, sessions := m.sessions + 1 }
  | .failed .establish _ => { m with standing := .idle }
  | .began (.subscribe _) => { m with standing := .subscribing }
  | .answered (.subscribe _) _ => { m with standing := .serving }
  | .failed (.subscribe _) _ => { m with standing := .broken }
  | .began .depth => { m with standing := .reading }
  | .answered .depth count => { m with standing := .serving, emptied := count == 0 }
  | .failed .depth _ => { m with standing := .serving }
  | .began (.cancel _) => { m with standing := .cancelling }
  | .answered (.cancel _) _ => { m with standing := .cancelled }
  | .failed (.cancel _) _ => { m with standing := .cancelled, mishap := true }
  | .began .close => { m with standing := .closing }
  | .answered .close _ | .failed .close _ => { m with standing := .idle }
  | .delivered tag => { m with unsettled := m.unsettled ++ [tag] }
  | .rejected tag => { m with unsettled := m.unsettled.erase tag }
  | .rejectFailed _ _ | .rejectPanicked _ | .streamFailed _ | .streamPanicked _ =>
    { m with mishap := true }

/-- What a trace tells. -/
def of : List Entry → Conduct
  | [] => {}
  | e :: earlier => (of earlier).after e.event

@[simp] theorem of_nil : of [] = {} := rfl

@[simp] theorem of_cons (e : Entry) (earlier : List Entry) :
    of (e :: earlier) = (of earlier).after e.event := rfl

/-- The interrupt may have come. -/
def interruptIf (m : Conduct) (b : Bool) : Conduct := { m with interrupted := m.interrupted || b }

section Interrupt

variable (m : Conduct) (b : Bool)

@[simp] theorem interruptIf_standing : (m.interruptIf b).standing = m.standing := rfl

@[simp] theorem interruptIf_unsettled : (m.interruptIf b).unsettled = m.unsettled := rfl

@[simp] theorem interruptIf_interrupted :
    (m.interruptIf b).interrupted = (m.interrupted || b) := rfl

@[simp] theorem interruptIf_emptied : (m.interruptIf b).emptied = m.emptied := rfl

@[simp] theorem interruptIf_mishap : (m.interruptIf b).mishap = m.mishap := rfl

@[simp] theorem interruptIf_sessions : (m.interruptIf b).sessions = m.sessions := rfl

theorem after_interruptIf (e : Event) : (m.interruptIf b).after e = (m.after e).interruptIf b := by
  cases e with
  | began r => cases r <;> rfl
  | answered r _ => cases r <;> rfl
  | failed r _ => cases r <;> rfl
  | _ => rfl

/-- Only the interrupt interrupts. -/
theorem after_interrupted_of_ne {e : Event} (he : e ≠ .interrupted) :
    (m.after e).interrupted = m.interrupted := by
  cases e with
  | interrupted => exact absurd rfl he
  | began r => cases r <;> rfl
  | answered r _ => cases r <;> rfl
  | failed r _ => cases r <;> rfl
  | _ => rfl

end Interrupt

/-- The consumer is at work: deliveries come, and nothing has gone wrong with them. -/
def IsConsuming (m : Conduct) : Prop := m.standing.isServing = true ∧ m.mishap = false

/-- When a session may be closed: interrupted before anything was asked of it, not subscribed to,
given up while the queue is not known to be empty, or cancelled with nothing in flight unless
something went wrong. -/
def MayClose (m : Conduct) : Prop :=
  (m.standing = .opened ∧ m.interrupted = true) ∨
  m.standing = .broken ∨
  ((m.standing = .serving ∨ m.standing = .reading) ∧ m.emptied = false) ∨
  (m.standing = .cancelled ∧ (m.mishap = true ∨ m.unsettled = []))

/-- A session that may be closed is open and is not being closed. -/
theorem MayClose.standing {m : Conduct} (h : m.MayClose) :
    m.standing = .opened ∨ m.standing = .broken ∨ m.standing = .serving ∨ m.standing = .reading ∨
      m.standing = .cancelled := by
  rcases h with ⟨h, -⟩ | h | ⟨h | h, -⟩ | ⟨h, -⟩ <;> simp [h]

/-- What may happen next, in a run that consumes under the given tag. -/
def Permits (tag : String) (m : Conduct) : Event → Prop
  | .notice _ => True
  | .interrupted => m.interrupted = false
  | .began .establish => m.standing = .idle ∧ m.interrupted = false ∧ m.emptied = false
  | .answered .establish _ | .failed .establish _ => m.standing = .attempting
  | .began (.subscribe t) => t = tag ∧ m.standing = .opened ∧ m.interrupted = false
  | .answered (.subscribe t) _ | .failed (.subscribe t) _ => t = tag ∧ m.standing = .subscribing
  | .began .depth => m.standing = .serving ∧ m.emptied = false
  | .answered .depth _ | .failed .depth _ => m.standing = .reading
  | .began (.cancel t) =>
    t = tag ∧ m.standing = .serving ∧ (m.emptied = true ∨ m.interrupted = true)
  | .answered (.cancel t) _ | .failed (.cancel t) _ => t = tag ∧ m.standing = .cancelling
  | .began .close => m.MayClose
  | .answered .close _ | .failed .close _ => m.standing = .closing
  | .rejected t | .rejectFailed t _ | .rejectPanicked t => m.IsConsuming ∧ t ∈ m.unsettled
  | .delivered _ | .streamCancelled | .streamEnded | .streamFailed _ | .streamPanicked _ =>
    m.IsConsuming

theorem permits_interruptIf_answer {tag : String} {m : Conduct} {b : Bool} {r : Request}
    {value : Except DrainError Nat} (h : m.Permits tag (Course.answer r value)) :
    (m.interruptIf b).Permits tag (Course.answer r value) := by
  cases value <;> cases r <;> exact h

/-- Whatever the stream gives, a consumer at work may get it. -/
theorem IsConsuming.permits_offer {tag : String} {m : Conduct} (h : m.IsConsuming) {offer : Offer}
    {e : Event} (he : offer.event? = some e) : m.Permits tag e := by
  cases offer <;> cases he <;> exact h

/-- However the rejection of an unsettled delivery ends, a consumer at work may end it so. -/
theorem IsConsuming.permits_settlement {tag : String} {m : Conduct} (h : m.IsConsuming) {t : Nat}
    (ht : t ∈ m.unsettled) (settlement : Settlement) : m.Permits tag (settlement.event t) := by
  cases settlement <;> exact ⟨h, ht⟩

end Conduct

/-- Everything in a trace was allowed when it happened. -/
def Orderly (tag : String) : List Entry → Prop
  | [] => True
  | e :: earlier => (Conduct.of earlier).Permits tag e.event ∧ Orderly tag earlier

theorem Orderly.of_append {tag : String} {later earlier : List Entry}
    (h : Orderly tag (later ++ earlier)) : Orderly tag earlier := by
  induction later with
  | nil => exact h
  | cons e later ih => exact ih h.2

/-- In an orderly trace every entry was allowed by what stood before it. -/
theorem Orderly.permits {tag : String} {later earlier : List Entry} {e : Entry}
    (h : Orderly tag (later ++ e :: earlier)) : (Conduct.of earlier).Permits tag e.event :=
  h.of_append.1

/-- Before a session is subscribed to, nothing of it is unsettled and nothing has gone wrong. -/
theorem Orderly.fresh {tag : String} {trace : List Entry} (h : Orderly tag trace)
    (hs : (Conduct.of trace).standing = .opened ∨ (Conduct.of trace).standing = .subscribing) :
    (Conduct.of trace).unsettled = [] ∧ (Conduct.of trace).mishap = false := by
  induction trace with
  | nil => exact ⟨rfl, rfl⟩
  | cons e earlier ih =>
    obtain ⟨hp, ho⟩ := h
    obtain ⟨t, e⟩ := e
    rw [Conduct.of_cons] at hs ⊢
    have ih := ih ho
    generalize Conduct.of earlier = m at hp hs ih ⊢
    -- the consumer has no part in this
    have hquiet : (m.standing = .opened ∨ m.standing = .subscribing) →
        m.standing.isServing ≠ true := by
      rintro (h | h) <;> simp [h, Standing.isServing]
    cases e with
    | began r => cases r <;> simp_all [Conduct.after, Conduct.Permits]
    | answered r _ => cases r <;> simp_all [Conduct.after]
    | failed r _ => cases r <;> simp_all [Conduct.after]
    | interrupted | notice _ | streamCancelled | streamEnded => exact ih hs
    | delivered _ | streamFailed _ | streamPanicked _ => exact absurd hp.1 (hquiet hs)
    | rejected _ | rejectFailed _ _ | rejectPanicked _ => exact absurd hp.1.1 (hquiet hs)

/-! ### Courses with orderly traces -/

namespace Course

variable {ω : Type} {E : Environment ω} {tag : String} {c c' : Course ω} {m : Conduct} {α : Type}

/-- The trace of a course is orderly, and this is what it tells. -/
structure Tracks (tag : String) (c : Course ω) (m : Conduct) : Prop where
  orderly : Orderly tag c.trace
  conduct : Conduct.of c.trace = m
  interrupted : c.interrupted = m.interrupted

theorem Tracks.fresh (h : Tracks tag c m) (hs : m.standing = .opened ∨ m.standing = .subscribing) :
    m.unsettled = [] ∧ m.mishap = false := by
  obtain rfl := h.conduct
  exact h.orderly.fresh hs

theorem Tracks.note {e : Event} (h : Tracks tag c m) (hp : m.Permits tag e)
    (he : e ≠ .interrupted) : Tracks tag (c.note e) (m.after e) where
  orderly := ⟨by rw [h.conduct]; exact hp, h.orderly⟩
  conduct := by rw [note_trace, Conduct.of_cons, h.conduct]
  interrupted := by rw [note_interrupted, h.interrupted, Conduct.after_interrupted_of_ne m he]

theorem Tracks.tell (h : Tracks tag c m) (line : Notice) : Tracks tag (c.tell line) m :=
  h.note trivial (by simp)

/-- An effect may bring the interrupt and changes nothing else of what the trace tells. -/
theorem Tracks.absorb (h : Tracks tag c m) (effect : Effect ω α) :
    Tracks tag (c.absorb effect) (m.interruptIf effect.interrupts) := by
  have hlines : ∀ (lines : List Notice) {c : Course ω}, Tracks tag c m →
      Tracks tag (lines.foldl Course.tell c) m := by
    intro lines
    induction lines with
    | nil => exact fun h => h
    | cons l rest ih => exact fun h => ih (h.tell l)
  have hm : Tracks tag (effect.notices.foldl Course.tell { c with world := effect.state }) m :=
    hlines _ ⟨h.orderly, h.conduct, h.interrupted⟩
  have hi : (effect.notices.foldl Course.tell { c with world := effect.state }).interrupted
      = m.interrupted := hm.interrupted
  rw [Course.absorb]
  by_cases hnew : (effect.interrupts && !m.interrupted) = true
  · obtain ⟨heff, hold⟩ := Bool.and_eq_true_iff.mp hnew
    simp only [hi, hnew, if_true]
    refine ⟨⟨?_, hm.orderly⟩, ?_, by simp [heff]⟩
    · rw [hm.conduct]; simpa [Conduct.Permits] using hold
    · rw [note_trace, Conduct.of_cons, hm.conduct]; simp [Conduct.after, Conduct.interruptIf, heff]
  · simp only [hi, hnew, Bool.false_eq_true, if_false]
    have hsame : (m.interrupted || effect.interrupts) = m.interrupted := by
      revert hnew; cases effect.interrupts <;> cases m.interrupted <;> simp
    rw [Conduct.interruptIf, hsame]; exact hm

theorem Tracks.begin {r : Request} (h : Tracks tag c m) (hp : m.Permits tag (.began r)) :
    ∃ b, Tracks tag (c.begin E r).1 ((m.after (.began r)).interruptIf b) :=
  ⟨_, (h.note hp (by simp)).absorb _⟩

theorem Tracks.finish {r : Request} {value : Except DrainError Nat} (h : Tracks tag c m)
    (hf : c.finish E r = (c', value)) (hp : m.Permits tag (answer r value)) :
    ∃ b, Tracks tag c' ((m.after (answer r value)).interruptIf b) := by
  rw [finish_eq] at hf
  obtain ⟨rfl, rfl⟩ := Prod.mk.inj hf
  refine ⟨(E.answer c.now r c.world).interrupts, ?_⟩
  rw [← Conduct.after_interruptIf]
  refine (h.absorb _).note (Conduct.permits_interruptIf_answer hp) ?_
  cases (E.answer c.now r c.world).value <;> simp [answer]

theorem Tracks.ask {offer : Offer} (h : Tracks tag c m) (hk : m.IsConsuming)
    (ha : c.ask E = (c', offer)) :
    ∃ b, Tracks tag c' ((offer.event?.elim m m.after).interruptIf b) := by
  obtain ⟨rfl, rfl⟩ := Prod.mk.inj ha
  refine ⟨(E.ask c.now c.world).interrupts, ?_⟩
  have hk' : (m.interruptIf (E.ask c.now c.world).interrupts).IsConsuming := hk
  have hm := h.absorb (E.ask c.now c.world)
  cases he : (E.ask c.now c.world).value.event? with
  | none => exact hm
  | some e =>
    simp only [Option.elim_some, ← Conduct.after_interruptIf]
    exact hm.note (hk'.permits_offer he)
      (by rintro rfl; cases hv : (E.ask c.now c.world).value <;> simp [hv, Offer.event?] at he)

theorem Tracks.startReject {t : Nat} (h : Tracks tag c m) :
    ∃ b, Tracks tag (c.startReject E t).1 (m.interruptIf b) := ⟨_, h.absorb _⟩

theorem Tracks.finishReject {t : Nat} {settlement : Settlement} (h : Tracks tag c m)
    (hk : m.IsConsuming) (ht : t ∈ m.unsettled)
    (hf : c.finishReject E t = (c', settlement)) :
    ∃ b, Tracks tag c' ((m.after (settlement.event t)).interruptIf b) := by
  obtain ⟨rfl, rfl⟩ := Prod.mk.inj hf
  refine ⟨(E.finishReject c.now t c.world).interrupts, ?_⟩
  have hk' : (m.interruptIf (E.finishReject c.now t c.world).interrupts).IsConsuming := hk
  have hm := h.absorb (E.finishReject c.now t c.world)
  rw [← Conduct.after_interruptIf]
  refine Tracks.note ?_ (hk'.permits_settlement ht _) ?_
  · split <;> exact ⟨hm.orderly, hm.conduct, hm.interrupted⟩
  · cases (E.finishReject c.now t c.world).value <;> simp [Settlement.event]

theorem Tracks.raced (h : Tracks tag c m) (hr : c.Raced E c') : Tracks tag c' m := by
  obtain ⟨world, rfl⟩ := hr.eq
  exact ⟨h.orderly, h.conduct, h.interrupted⟩

theorem Tracks.advance (h : Tracks tag c m) (wakes : List (Option Nat)) :
    ∃ b, Tracks tag (c.advance E wakes) (m.interruptIf b) := by
  rcases advance_eq_or (E := E) c wakes with heq | ⟨t, -, heq⟩
  · exact ⟨false, by simpa [heq, Conduct.interruptIf] using h⟩
  · have hclock : Tracks tag { c with now := t } m := ⟨h.orderly, h.conduct, h.interrupted⟩
    exact ⟨_, by rw [heq]; exact hclock.absorb _⟩

end Course

end QueueDrain
