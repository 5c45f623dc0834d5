import Mathlib.Algebra.Order.Ring.Nat
import QueueDrain.Proofs.Orderly
import QueueDrain.Proofs.Sessions

/-!
# The life of a session

Whatever the connector does and whenever the operator interrupts, sessions follow one another: an
attempt begins only when the session before it is closed, a session is subscribed to at most once
and before its depth is read, its subscription is cancelled only after the poller has decided, and
its close comes last. A run that returns has closed every session that it was given.

## Main definitions

* `Live`, `Subscribed`, `Decided` — what is known of the latest session
* `InTurn` — what a connector may be asked, in view of all that happened before

## Main results

* `Orderly.inTurn` — an orderly trace asks for everything in its turn
* `Drain.run_lifecycle` — the life of the sessions of a run
-/

namespace QueueDrain

open Entry

/-- There is a session, and its close has not begun. -/
def Live (earlier : List Entry) : Prop :=
  openings earlier = closures earlier + 1 ∧ openings earlier = closings earlier + 1 ∧
    .began .close ∉ session earlier

/-- The latest session was subscribed to with success. -/
def Subscribed (tag : String) (earlier : List Entry) : Prop :=
  ∃ n, .answered (.subscribe tag) n ∈ session earlier

/-- The poller has reason to end the drain: it has read zero, or the operator has interrupted. -/
def Decided (earlier : List Entry) : Prop :=
  .answered .depth 0 ∈ session earlier ∨ ∃ e ∈ earlier, e.event = .interrupted

/-- No session is open. -/
def NoneOpen (earlier : List Entry) : Prop :=
  openings earlier = closures earlier ∧ openings earlier = closings earlier

/-- What a connector may be asked and what it may answer, in view of all that happened before. Only
the close of a session may begin while a request is unanswered, and then that is a depth reading. -/
def InTurn (tag : String) (earlier : List Entry) : Event → Prop
  | .began .establish => pending earlier = none ∧ NoneOpen earlier
  | .answered .establish _ | .failed .establish _ =>
    pending earlier = some .establish ∧ NoneOpen earlier
  | .began (.subscribe t) =>
    t = tag ∧ pending earlier = none ∧ Live earlier ∧ ∀ r, .began r ∉ session earlier
  | .began .depth =>
    pending earlier = none ∧ Live earlier ∧ Subscribed tag earlier ∧
      ∀ t, .began (.cancel t) ∉ session earlier
  | .began (.cancel t) =>
    t = tag ∧ pending earlier = none ∧ Live earlier ∧ Subscribed tag earlier ∧
      (∀ t, .began (.cancel t) ∉ session earlier) ∧ Decided earlier
  | .began .close => (pending earlier = none ∨ pending earlier = some .depth) ∧ Live earlier
  | .answered r _ | .failed r _ => pending earlier = some r
  | _ => True

section

variable {tag : String} {earlier : List Entry}

theorem Orderly.live (h : Orderly tag earlier)
    (hs : (Conduct.of earlier).standing.isLive = true) : Live earlier :=
  ⟨by rw [h.openings_eq_closures, if_pos (Standing.isOpen_of_isLive hs)],
    by rw [h.openings_eq_closings, if_pos hs], h.recalls.unclosed hs⟩

theorem Orderly.noneOpen (h : Orderly tag earlier)
    (hs : (Conduct.of earlier).standing.isOpen = false) : NoneOpen earlier := by
  have hlive : (Conduct.of earlier).standing.isLive = false :=
    Bool.eq_false_iff.mpr fun h => by simp [Standing.isOpen_of_isLive h] at hs
  exact ⟨by simp [h.openings_eq_closures, hs], by simp [h.openings_eq_closings, hlive]⟩

/-- Sessions are opened, begun to be closed and closed one by one. -/
theorem Orderly.one_by_one (h : Orderly tag earlier) :
    closures earlier ≤ closings earlier ∧ closings earlier ≤ openings earlier ∧
      openings earlier ≤ closures earlier + 1 := by
  have hclosures := h.openings_eq_closures
  have hclosings := h.openings_eq_closings
  cases hlive : (Conduct.of earlier).standing.isLive with
  | true =>
    rw [Standing.isOpen_of_isLive hlive, if_pos rfl] at hclosures
    rw [hlive, if_pos rfl] at hclosings
    omega
  | false =>
    rw [hlive, if_neg Bool.false_ne_true] at hclosings
    split at hclosures <;> omega

/-- An answer comes in its turn. -/
theorem Orderly.inTurn_answer (h : Orderly tag earlier) {r : Request}
    (value : Except DrainError Nat)
    (hp : (Conduct.of earlier).Permits tag (Course.answer r value)) :
    InTurn tag earlier (Course.answer r value) := by
  have hpending : pending earlier = some r :=
    h.pending_eq.trans (Conduct.pending_of_answer value hp)
  cases r with
  | establish =>
    have hs : (Conduct.of earlier).standing = .attempting := by cases value <;> exact hp
    have hnone := h.noneOpen (by rw [hs]; rfl)
    cases value <;> exact ⟨hpending, hnone⟩
  | _ => cases value <;> exact hpending

/-- Everything an orderly trace allows comes in its turn. -/
theorem Orderly.inTurn_of_permits (h : Orderly tag earlier) {e : Event}
    (hp : (Conduct.of earlier).Permits tag e) : InTurn tag earlier e := by
  have hrecalls := h.recalls
  have hpending := h.pending_eq
  cases e with
  | began r =>
    cases r with
    | establish =>
      obtain ⟨hs, -⟩ := hp
      exact ⟨by rw [hpending, hs]; rfl, h.noneOpen (by rw [hs]; rfl)⟩
    | subscribe t =>
      obtain ⟨ht, hs, -⟩ := hp
      exact ⟨ht, by rw [hpending, hs]; rfl, h.live (by rw [hs]; rfl), hrecalls.untouched hs⟩
    | depth =>
      obtain ⟨hs, -⟩ := hp
      exact ⟨by rw [hpending, hs]; rfl, h.live (by rw [hs]; rfl),
        hrecalls.subscribed (by rw [hs]; rfl), hrecalls.uncancelled (by rw [hs]; rfl)⟩
    | cancel t =>
      obtain ⟨ht, hs, hreason⟩ := hp
      exact ⟨ht, by rw [hpending, hs]; rfl, h.live (by rw [hs]; rfl),
        hrecalls.subscribed (by rw [hs]; rfl), hrecalls.uncancelled (by rw [hs]; rfl),
        hreason.imp (fun he => (h.emptied he).2) (interrupted_iff earlier).mp⟩
    | close =>
      refine ⟨?_, h.live ?_⟩
      · rw [hpending]
        rcases Conduct.MayClose.standing hp with hs | hs | hs | hs | hs <;>
          simp [hs, Standing.pending]
      · rcases Conduct.MayClose.standing hp with hs | hs | hs | hs | hs <;> rw [hs] <;> rfl
  | answered r n => exact h.inTurn_answer (.ok n) hp
  | failed r cause => exact h.inTurn_answer (.error cause) hp
  | _ => trivial

/-- **An orderly trace asks for everything in its turn.** -/
theorem Orderly.inTurn {later : List Entry} {e : Entry}
    (h : Orderly tag (later ++ e :: earlier)) : InTurn tag earlier e.event :=
  (h.of_append).2.inTurn_of_permits h.permits

end

/-- **The life of the sessions of a run.** At any time everything came in its turn and at most one
session is open. A run that returns has closed every session exactly once, and one that returns a
summary has counted every session but the first, in a word of 32 bits. -/
theorem Drain.run_lifecycle {ω : Type} (E : Environment ω) (plan : Drain.Plan) (now : Nat)
    (world : ω) (rejected : UInt64) (interrupted : Bool) (n : Nat) :
    let s := Drain.run E plan n (Drain.start E plan (.opening now world rejected interrupted))
    let trace := s.course.trace
    (∀ later e earlier, trace = later ++ e :: earlier →
      InTurn plan.config.consumerTag earlier e.event) ∧
    (closures trace ≤ closings trace ∧ closings trace ≤ openings trace ∧
      openings trace ≤ closures trace + 1) ∧
    ∀ result, s.result? = some result →
      (closures trace = openings trace ∧ closings trace = openings trace) ∧
      ∀ summary, result = .ok summary →
        summary.reconnects = (openings trace - 1) % 2 ^ 32 := by
  intro s trace
  have hm : s.Follows plan (Conduct.of trace) :=
    Drain.run_follows E plan now world rejected interrupted n
  have ho : Orderly plan.config.consumerTag trace := hm.course.orderly
  refine ⟨fun later e earlier heq => Orderly.inTurn (heq ▸ ho), ho.one_by_one, ?_⟩
  intro result hresult
  have hclosed := ho.noneOpen (hm.isOpen_of_result hresult)
  refine ⟨⟨hclosed.1.symm, hclosed.2.symm⟩, ?_⟩
  rintro summary rfl
  have hphase := hm.phase
  rw [Drain.phase_of_result? hresult] at hphase
  rw [hphase.2.2, sessions_eq_openings, UInt32.toNat_ofNat']

end QueueDrain
