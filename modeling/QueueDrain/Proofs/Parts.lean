import QueueDrain.Connect
import QueueDrain.Consumer
import QueueDrain.Poller
import QueueDrain.Proofs.Course

/-!
# What the parts of a run can do

The step functions of the parts are read once, here, and turned into relations with one constructor
for each thing that can happen, guards included.

## Main definitions

* `Connect.Move`, `Poller.Move`, `Consumer.Move` — what the parts of a run can do

## Main results

* `Connect.step_move`, `Poller.step_move`, `Consumer.step_moves` — every step is made of moves
* `Connect.Move.calmly`, `Poller.Move.calmly_or`, `Consumer.Move.calmly` — a move changes the course
  through its operations only, and only the poller begins a reading
-/

namespace QueueDrain

variable {ω : Type} {E : Environment ω}

open Relation (ReflTransGen)
open Course (raced_race)

/-! ### Attempts at a session -/

namespace Connect

variable {policy : Backoff.Policy} {endpoint : String}

/-- One action of an attempt. -/
inductive Move (E : Environment ω) (policy : Backoff.Policy) (endpoint : String) (c : Course ω) :
    Activity → Course ω → Stage Activity Result → Prop
  /-- The interrupt wins, over the wait or over the answer. -/
  | overtaken {a : Activity} {c' : Course ω} (hi : c.interrupted = true) (hr : c.Raced E c') :
      Move E policy endpoint c a c' (.over (.ok none))
  | began {attempt wake : Nat} (hw : wake ≤ c.now) (hi : c.interrupted = false) :
      Move E policy endpoint c (.backingOff attempt wake) (c.begin E .establish).1
        (.ongoing (.establishing (some attempt) (c.begin E .establish).2))
  | opened {due : Option Nat} {c' : Course ω} {declared : Nat} (hi : c.interrupted = false)
      (hf : c.finish E .establish = (c', .ok declared)) (hd : reached due c.now = true) :
      Move E policy endpoint c (.establishing none due) c' (.over (.ok (some declared)))
  | reopened {attempt : Nat} {due : Option Nat} {c' : Course ω} {declared : Nat}
      (hi : c.interrupted = false) (hf : c.finish E .establish = (c', .ok declared))
      (hd : reached due c.now = true) :
      Move E policy endpoint c (.establishing (some attempt) due) (c'.tell (.reestablished attempt))
        (.over (.ok (some declared)))
  /-- The attempt fails, and no further one is worth while. -/
  | failed {attempt due : Option Nat} {c' : Course ω} {cause : DrainError}
      (hi : c.interrupted = false) (hf : c.finish E .establish = (c', .error cause))
      (hlast : attempt = none ∨ cause.isTransient = false) (hd : reached due c.now = true) :
      Move E policy endpoint c (.establishing attempt due) c' (.over (.error cause))
  | retried {attempt : Nat} {due : Option Nat} {c' : Course ω} {cause : DrainError}
      (hi : c.interrupted = false) (hf : c.finish E .establish = (c', .error cause))
      (ht : cause.isTransient = true) (hd : reached due c.now = true) :
      Move E policy endpoint c (.establishing (some attempt) due)
        (backOff policy endpoint (min (attempt + 1) maxAttempt)
          (c'.tell (.attemptFailed attempt cause))).1
        (.ongoing (backOff policy endpoint (min (attempt + 1) maxAttempt)
          (c'.tell (.attemptFailed attempt cause))).2)

theorem receive_move {attempt due : Option Nat} {c : Course ω} (hi : c.interrupted = false)
    (hd : reached due c.now = true) :
    Move E policy endpoint c (.establishing attempt due) (receive E policy endpoint attempt c).1
      (receive E policy endpoint attempt c).2 := by
  rcases hf : c.finish E .establish with ⟨c', cause | declared⟩
  · cases attempt with
    | none => simpa only [receive, hf] using .failed hi hf (.inl rfl) hd
    | some k =>
      by_cases ht : cause.isTransient = true
      · simpa only [receive, hf, ht, if_true] using .retried hi hf ht hd
      · simpa only [receive, hf, ht, if_false] using .failed hi hf (.inr (by simpa using ht)) hd
  · cases attempt with
    | none => simpa only [receive, hf] using .opened hi hf hd
    | some k => simpa only [receive, hf] using .reopened hi hf hd

theorem establish_of_interrupted {attempt : Option Nat} {c : Course ω} (hi : c.interrupted = true) :
    establish E attempt c = (c, .over (.ok none)) := by simp [establish, hi]

theorem establish_of_not_interrupted {attempt : Option Nat} {c : Course ω}
    (hi : c.interrupted = false) :
    establish E attempt c
      = ((c.begin E .establish).1, .ongoing (.establishing attempt (c.begin E .establish).2)) := by
  simp [establish, hi]

/-- Whoever is looked at first, an interrupted run begins no attempt and waits for none. -/
theorem step_of_interrupted (E : Environment ω) (policy : Backoff.Policy) (endpoint : String)
    (a : Activity) {c : Course ω} (hi : c.interrupted = true) :
    ∃ c', c.Raced E c' ∧ step E policy endpoint a c = some (c', .over (.ok none)) := by
  have hnone : (c.race E).1.interrupted = true := hi
  cases a with
  | backingOff attempt wake =>
    simp only [step, hi, if_true]
    by_cases hw : wake ≤ c.now
    · rw [decide_eq_true hw, if_pos rfl, establish_of_interrupted hnone, ite_self]
      exact ⟨_, raced_race c, rfl⟩
    · rw [decide_eq_false hw]
      exact ⟨c, .refl c, rfl⟩
  | establishing attempt due =>
    simp only [step, hi, if_true]
    exact ⟨c, .refl c, rfl⟩

theorem step_move {a : Activity} {c c' : Course ω} {stage : Stage Activity Result}
    (h : step E policy endpoint a c = some (c', stage)) : Move E policy endpoint c a c' stage := by
  cases hi : c.interrupted with
  | true =>
    obtain ⟨c₀, hr, hover⟩ := step_of_interrupted E policy endpoint a hi
    obtain ⟨rfl, rfl⟩ := Prod.mk.inj (Option.some.inj (hover.symm.trans h))
    exact .overtaken hi hr
  | false =>
    cases a with
    | backingOff attempt wake =>
      simp only [step, hi, Bool.false_eq_true, if_false, decide_eq_true_eq] at h
      split at h
      next hw =>
        rw [establish_of_not_interrupted hi] at h
        obtain ⟨rfl, rfl⟩ := Prod.mk.inj (Option.some.inj h)
        exact .began hw hi
      next => cases h
    | establishing attempt due =>
      simp only [step, hi, Bool.false_eq_true, if_false] at h
      split at h
      next hd =>
        obtain ⟨rfl, rfl⟩ := Prod.mk.inj (Option.some.inj h)
        exact receive_move hi hd
      next => cases h

theorem Move.calmly {a : Activity} {c c' : Course ω} {stage : Stage Activity Result}
    (h : Move E policy endpoint c a c' stage) : c.Calmly E c' := by
  have hfinish : ∀ {c' answer}, c.finish E .establish = (c', answer) → c.Calmly E c' :=
    fun hf => by simpa only [hf] using (Course.Deed.finish (E := E) (c := c) .establish).calmly
  cases h with
  | overtaken _ hr => exact hr.calmly
  | began _ _ => exact (Course.Deed.begin .establish nofun).calmly
  | opened _ hf => exact hfinish hf
  | reopened _ hf => exact (hfinish hf).deed (.tell _)
  | failed _ hf _ => exact hfinish hf
  | retried _ hf _ => exact ((hfinish hf).deed (.tell _)).deed (.tell _)

end Connect

/-! ### The poller -/

namespace Poller

/-- One action of the poller. -/
inductive Move (E : Environment ω) (p : Poller) (c : Course ω) :
    Activity → Course ω → Poller → Stage Activity Result → Prop
  | interrupted {wake : Nat} {c' : Course ω} (hi : c.interrupted = true) (hr : c.Raced E c') :
      Move E p c (.waiting wake) c' p (.over (.ok .interrupted))
  /-- The interval is over; an interrupt that came at this instant has lost the race. -/
  | began {wake : Nat} {c' : Course ω} (hw : wake ≤ c.now) (hr : c.Raced E c') :
      Move E p c (.waiting wake) (c'.begin E .depth).1 p
        (.ongoing (.reading (c'.begin E .depth).2))
  | recorded {due : Option Nat} {c' : Course ω} {count : Nat} (hd : reached due c.now = true)
      (hf : c.finish E .depth = (c', .ok count)) :
      Move E p c (.reading due)
        (c'.tell (if (p.record count).done then .emptied (p.record count).polls else .left count))
        (p.record count)
        ((p.record count).enter (c'.tell
          (if (p.record count).done then .emptied (p.record count).polls else .left count)))
  | failed {due : Option Nat} {c' : Course ω} {cause : DrainError}
      (hd : reached due c.now = true) (hf : c.finish E .depth = (c', .error cause)) :
      Move E p c (.reading due) c' p (.over (.error cause))

theorem step_move {p p' : Poller} {a : Activity} {c c' : Course ω} {stage : Stage Activity Result}
    (h : step E p a c = some (c', p', stage)) : Move E p c a c' p' stage := by
  cases a with
  | waiting wake =>
    by_cases hi : c.interrupted = true
    · by_cases hw : wake ≤ c.now
      · simp only [step, hi, hw, decide_true, if_true] at h
        split at h
        next => cases h; exact .interrupted hi (raced_race c)
        next => cases h; exact .began hw (raced_race c)
      · simp only [step, hi, hw, decide_false, if_true, Bool.false_eq_true, if_false] at h
        cases h; exact .interrupted hi (.refl c)
    · simp only [step, hi, Bool.false_eq_true, if_false, decide_eq_true_eq] at h
      split at h
      next hw => cases h; exact .began hw (.refl c)
      next => cases h
  | reading due =>
    rw [step] at h
    split at h
    next hd =>
      rcases hf : c.finish E .depth with ⟨c₁, cause | count⟩
      · simp only [receive, hf] at h
        cases h; exact .failed hd hf
      · simp only [receive, hf] at h
        cases h; exact .recorded hd hf
    next => cases h

/-- The poller begins a reading when the interval is over, and takes no time for anything. -/
theorem Move.calmly_or {p p' : Poller} {a : Activity} {c c' : Course ω}
    {stage : Stage Activity Result} (h : Move E p c a c' p' stage) :
    c.Calmly E c' ∨ ∃ wake c₁, a = .waiting wake ∧ wake ≤ c.now ∧ c.Calmly E c₁ ∧
      c' = (c₁.begin E .depth).1 ∧ p' = p ∧
      stage = .ongoing (.reading (c₁.begin E .depth).2) := by
  have hfinish : ∀ {c' answer}, c.finish E .depth = (c', answer) → c.Calmly E c' :=
    fun hf => by simpa only [hf] using (Course.Deed.finish (E := E) (c := c) .depth).calmly
  cases h with
  | interrupted _ hr => exact .inl hr.calmly
  | began hw hr => exact .inr ⟨_, _, rfl, hw, hr.calmly, rfl, rfl, rfl⟩
  | recorded _ hf => exact .inl ((hfinish hf).deed (.tell _))
  | failed _ hf => exact .inl (hfinish hf)

/-- An interrupted poller does not wait. -/
theorem step_waiting_ne_none {p : Poller} {wake : Nat} {c : Course ω} (hi : c.interrupted = true) :
    step E p (.waiting wake) c ≠ none := by
  rcases hr : (if wake ≤ c.now then c.race E else (c, true)) with ⟨c', first⟩
  cases first <;> simp [step, hi, hr]

end Poller

/-! ### The consumer -/

namespace Consumer

/-- One move of the consumer. -/
inductive Move (E : Environment ω) (queue : String) (k : Consumer) (c : Course ω) :
    Course ω → Stage Consumer Ending → Prop
  | delivered {c' : Course ω} {tag : Nat} (ho : k.streamOpen = true) (hr : k.hasRoom = true)
      (ha : c.ask E = (c', .delivery tag)) :
      Move E queue k c (c'.startReject E tag).1
        (.ongoing { k with
          inFlight := k.inFlight ++ [⟨tag, (c'.startReject E tag).2⟩], wake := none })
  | waiting {c' : Course ω} {wake : Option Nat} (ho : k.streamOpen = true) (hr : k.hasRoom = true)
      (ha : c.ask E = (c', .wait wake)) : Move E queue k c c' (.ongoing { k with wake })
  | streamOver {c' : Course ω} {offer : Offer} (ho : k.streamOpen = true) (hr : k.hasRoom = true)
      (ha : c.ask E = (c', offer)) (hover : offer = .cancelled ∨ offer = .ended) :
      Move E queue k c c' (.ongoing { k with streamOpen := false, wake := none })
  | streamFailed {c' : Course ω} {cause : DrainError} (ho : k.streamOpen = true)
      (hr : k.hasRoom = true) (ha : c.ask E = (c', .failed cause)) :
      Move E queue k c c' (.over (.failed cause))
  | streamPanicked {c' : Course ω} {text : String} (ho : k.streamOpen = true)
      (hr : k.hasRoom = true) (ha : c.ask E = (c', .panicked text)) :
      Move E queue k c c' (.over (.panicked text))
  | rejected {r : Rejection} {c' : Course ω} (hr : r ∈ k.inFlight) (hd : reached r.due c.now = true)
      (hf : c.finishReject E r.tag = (c', .done)) :
      Move E queue k c c' (.ongoing { k with inFlight := k.inFlight.erase r })
  | rejectFailed {r : Rejection} {c' : Course ω} {cause : DrainError} (hr : r ∈ k.inFlight)
      (hd : reached r.due c.now = true) (hf : c.finishReject E r.tag = (c', .failed cause)) :
      Move E queue k c c' (.over (.failed cause))
  | rejectPanicked {r : Rejection} {c' : Course ω} {text : String} (hr : r ∈ k.inFlight)
      (hd : reached r.due c.now = true) (hf : c.finishReject E r.tag = (c', .panicked text)) :
      Move E queue k c c' (.over (.panicked text))
  /-- Everything taken is rejected and nothing more will come. -/
  | stopped (he : k.inFlight = []) (ho : k.streamOpen = false) :
      Move E queue k c (c.tell (.consumerStopped queue)) (.over .stopped)

theorem Move.calmly {queue : String} {k : Consumer} {c c' : Course ω}
    {stage : Stage Consumer Ending} (h : Move E queue k c c' stage) : c.Calmly E c' := by
  have hask : ∀ {c' offer}, c.ask E = (c', offer) → c.Calmly E c' :=
    fun ha => by simpa only [ha] using (Course.Deed.ask (E := E) (c := c)).calmly
  have hfinish : ∀ {tag c' settlement}, c.finishReject E tag = (c', settlement) → c.Calmly E c' :=
    fun {tag} {_} {_} hf => by
      simpa only [hf] using (Course.Deed.finishReject (E := E) (c := c) tag).calmly
  cases h with
  | delivered _ _ ha => exact (hask ha).deed (.startReject _)
  | waiting _ _ ha => exact hask ha
  | streamOver _ _ ha _ => exact hask ha
  | streamFailed _ _ ha => exact hask ha
  | streamPanicked _ _ ha => exact hask ha
  | rejected _ _ hf => exact hfinish hf
  | rejectFailed _ _ hf => exact hfinish hf
  | rejectPanicked _ _ hf => exact hfinish hf
  | stopped _ _ => exact (Course.Deed.tell _).calmly

/-- Several moves of the consumer, which stops moving when it is over. -/
inductive Moves (E : Environment ω) (queue : String) :
    Consumer → Course ω → Course ω → Stage Consumer Ending → Prop
  | none (k : Consumer) (c : Course ω) : Moves E queue k c c (.ongoing k)
  | last {k : Consumer} {c c' : Course ω} {stage : Stage Consumer Ending}
      (h : Move E queue k c c' stage) : Moves E queue k c c' stage
  | more {k k' : Consumer} {c c' c'' : Course ω} {stage : Stage Consumer Ending}
      (h : Move E queue k c c' (.ongoing k')) (h' : Moves E queue k' c' c'' stage) :
      Moves E queue k c c'' stage

theorem Moves.calmly {queue : String} {k : Consumer} {c c' : Course ω}
    {stage : Stage Consumer Ending} (h : Moves E queue k c c' stage) : c.Calmly E c' := by
  induction h with
  | none k c => exact .refl c
  | last hm => exact hm.calmly
  | more hm _ ih => exact hm.calmly.trans ih

theorem take_moves (queue : String) (k : Consumer) (c : Course ω) :
    ((take E k c).1 = c ∧ (take E k c).2.1 = .ongoing k) ∨
      Move E queue k c (take E k c).1 (take E k c).2.1 := by
  by_cases h : (k.streamOpen && k.hasRoom) = true
  · obtain ⟨ho, hr⟩ := Bool.and_eq_true_iff.mp h
    refine .inr ?_
    rcases ha : c.ask E with ⟨c', offer⟩
    cases offer <;> simp only [take, h, ha, if_true]
    case delivery tag => exact .delivered ho hr ha
    case wait wake => exact .waiting ho hr ha
    case cancelled => exact .streamOver ho hr ha (.inl rfl)
    case ended => exact .streamOver ho hr ha (.inr rfl)
    case failed cause => exact .streamFailed ho hr ha
    case panicked text => exact .streamPanicked ho hr ha
  · refine .inl ?_
    simp only [take, h, Bool.false_eq_true, if_false, and_self]

/-- The second half of a round, with the line that says that everything is rejected. -/
theorem settle_moves (queue : String) (k : Consumer) (c : Course ω) :
    ((settle E k c).1 = c ∧ (settle E k c).2.1 = .ongoing k) ∨
      ((settle E k c).2.1 = .over .stopped ∧
        Move E queue k c ((settle E k c).1.tell (.consumerStopped queue)) (.over .stopped)) ∨
      ((settle E k c).2.1 ≠ .over .stopped ∧
        Move E queue k c (settle E k c).1 (settle E k c).2.1) := by
  rcases hfind : k.inFlight.find? (fun r => reached r.due c.now) with _ | r
  · by_cases h : (k.inFlight.isEmpty && !k.streamOpen) = true
    · obtain ⟨he, ho⟩ := Bool.and_eq_true_iff.mp h
      simp only [settle, hfind, h, if_true]
      exact .inr (.inl ⟨trivial, .stopped (List.isEmpty_iff.mp he) (by simpa using ho)⟩)
    · simp only [settle, hfind, h, Bool.false_eq_true, if_false]
      exact .inl ⟨trivial, trivial⟩
  · have hr : r ∈ k.inFlight := List.mem_of_find?_eq_some hfind
    have hd : reached r.due c.now = true := by simpa using List.find?_some hfind
    refine .inr (.inr ?_)
    rcases hf : c.finishReject E r.tag with ⟨c', settlement⟩
    cases settlement <;> simp only [settle, hfind, hf]
    case done => exact ⟨by simp, .rejected hr hd hf⟩
    case failed cause => exact ⟨by simp, .rejectFailed hr hd hf⟩
    case panicked text => exact ⟨by simp, .rejectPanicked hr hd hf⟩

theorem step_moves (queue : String) (k : Consumer) (c : Course ω) :
    Moves E queue k c (step E queue k c).1 (step E queue k c).2.1 := by
  have htake := take_moves (E := E) queue k c
  rcases ht : take E k c with ⟨c₁, k₁ | ending, took⟩ <;> simp only [ht] at htake
  · suffices hsecond : Moves E queue k₁ c₁ (step E queue k c).1 (step E queue k c).2.1 by
      rcases htake with ⟨rfl, hk⟩ | hm
      · cases hk; exact hsecond
      · exact .more hm hsecond
    have hsettle := settle_moves (E := E) queue k₁ c₁
    rcases hs : settle E k₁ c₁ with ⟨c₂, k₂ | ending, settled⟩ <;> simp only [hs] at hsettle
    · simp only [step, ht, hs]
      rcases hsettle with ⟨rfl, hk⟩ | ⟨hstop, -⟩ | ⟨-, hm⟩
      · cases hk; exact .none k₁ c₂
      · cases hstop
      · exact .last hm
    · rcases hsettle with ⟨-, hk⟩ | ⟨hstop, hm⟩ | ⟨hne, hm⟩
      · cases hk
      · cases hstop
        simpa only [step, ht, hs] using .last hm
      · cases ending with
        | stopped => exact absurd rfl hne
        | failed cause => simpa only [step, ht, hs] using .last hm
        | panicked text => simpa only [step, ht, hs] using .last hm
  · simp only [step, ht]
    rcases htake with ⟨-, hk⟩ | hm
    · cases hk
    · exact .last hm

end Consumer

end QueueDrain
