import QueueDrain.Proofs.Conversation
import QueueDrain.Proofs.Proceedings

/-!
# Attempts at a session are connections

Whether a run has connected is for the server to tell: it may keep a record with a line for each
connection. The trace tells how many attempts at a session there were. Both go up together, because
no operation of a run but the beginning of an attempt makes a connection.

## Main definitions

* `Environment.Counts` — a count of the attempts at a session
* `Course.attempts` — the attempts in a trace

## Main results

* `Course.Act.counts`, `Course.Reaches.counts` — the count goes up with each attempt, and with
  nothing else
* `Amqp.Client.environment_counts` — any record that a server keeps is such a count
-/

namespace QueueDrain

variable {ω : Type} {E : Environment ω} {count : ω → Nat}

/-- A count that goes up with every attempt at a session, and with nothing else. -/
structure Environment.Counts (E : Environment ω) (count : ω → Nat) : Prop where
  pass (now : Nat) (w : ω) : count (E.pass now w).state = count w
  start (now : Nat) (r : Request) (w : ω) :
    count (E.start now r w).state = count w + [r].count .establish
  answer (now : Nat) (r : Request) (w : ω) : count (E.answer now r w).state = count w
  ask (now : Nat) (w : ω) : count (E.ask now w).state = count w
  startReject (now tag : Nat) (w : ω) : count (E.startReject now tag w).state = count w
  finishReject (now tag : Nat) (w : ω) : count (E.finishReject now tag w).state = count w
  race (w : ω) : count (E.race w).1 = count w

namespace Course

variable {c c' : Course ω}

/-- How many attempts at a session there were. -/
def attempts (c : Course ω) : Nat := (Entry.requests c.trace).count .establish

theorem attempts_eq (new : List Event) (h : c'.proceedings = new ++ c.proceedings) :
    c'.attempts = (new.filterMap Event.request?).count .establish + c.attempts := by
  have hrequests : ∀ c : Course ω, Entry.requests c.trace
      = c.proceedings.filterMap Event.request? := fun c => Entry.requests_eq c.trace
  rw [attempts, attempts, hrequests, hrequests, h, List.filterMap_append, List.count_append]

/-- An operation that asks for no session changes neither the count nor the attempts. -/
theorem counts_of_quiet (new : List Event) (h : c'.proceedings = new ++ c.proceedings)
    (hquiet : new.filterMap Event.request? = []) (hcount : count c'.world = count c.world) :
    count c'.world + c.attempts = count c.world + c'.attempts := by
  rw [attempts_eq new h, hquiet, hcount, List.count_nil, Nat.zero_add]

theorem counts_begin (hE : E.Counts count) (c : Course ω) (r : Request) :
    count (c.begin E r).1.world + c.attempts = count c.world + (c.begin E r).1.attempts := by
  have hattempts := attempts_eq (c := c) [.began r] (proceedings_begin (E := E) c r)
  have hrequest : [Event.began r].filterMap Event.request? = [r] := rfl
  rw [begin_world, hE.start, hattempts, hrequest]
  omega

/-- **The count goes up with each attempt, and with nothing else.** -/
theorem Act.counts (hE : E.Counts count) (h : Act E c c') :
    count c'.world + c.attempts = count c.world + c'.attempts := by
  cases h with
  | read => exact counts_begin hE c .depth
  | advance wakes =>
    refine counts_of_quiet [] (proceedings_advance c wakes) rfl ?_
    rcases advance_eq_or (E := E) c wakes with heq | ⟨t, -, heq⟩ <;> rw [heq]
    rw [absorb_world, hE.pass]
  | deed h =>
    cases h with
    | tell line => exact counts_of_quiet [] (proceedings_tell c line) rfl rfl
    | begin r _ => exact counts_begin hE c r
    | finish r =>
      refine counts_of_quiet [_] (proceedings_finish c r) ?_ ?_
      · cases (c.finish E r).2 <;> rfl
      · rw [finish_world, hE.answer]
    | ask =>
      refine counts_of_quiet _ (proceedings_of_ask rfl) ?_ ?_
      · cases (E.ask c.now c.world).value <;> rfl
      · rw [ask_world, hE.ask]
    | startReject tag =>
      refine counts_of_quiet [] (proceedings_startReject c tag) rfl ?_
      rw [startReject_world, hE.startReject]
    | finishReject tag =>
      refine counts_of_quiet [_] (proceedings_of_finishReject rfl) ?_ ?_
      · cases (E.finishReject c.now tag c.world).value <;> rfl
      · rw [finishReject_world, hE.finishReject]
    | race => exact counts_of_quiet [] rfl rfl (hE.race c.world)

theorem Reaches.counts (hE : E.Counts count) (h : c.Reaches E c') :
    count c'.world + c.attempts = count c.world + c'.attempts := by
  induction h with
  | refl => rfl
  | tail _ hlast ih =>
    have hlast := hlast.counts hE
    omega

theorem Reaches.attempts_le (h : c.Reaches E c') : c.attempts ≤ c'.attempts := by
  obtain ⟨new, hnew⟩ := h.extends
  rw [attempts, attempts, hnew.trace, Entry.requests_append, List.count_append]
  exact Nat.le_add_left _ _

end Course

namespace Amqp

variable {σ : Type} {P : Peer σ} {told : σ → List (List Nat)}

theorem length_deliverMore (tags : List Nat) (told : List (List Nat)) :
    (deliverMore tags told).length = told.length := by
  cases told <;> rfl

namespace Client

section Records

variable (hP : P.Records told)
include hP

theorem told_submit (now : Nat) (m : Method) (c : Client σ) :
    told (c.submit P now m).state.server = told c.server := by
  rw [submit]
  split
  · exact congrArg told (note_server _ _)
  · exact hP.receive now m c.server

theorem told_close (t : Target) (now : Nat) (c : Client σ) :
    told (start P t now .close c).state.server = told c.server := by
  obtain ⟨_, hsends, -⟩ := closeAll_sends P [closeChannel, closeConnection]
    { server := c.server, link := c.link, time := now }
  rw [start, foldl_note_keeps note_server]
  exact hsends.told hP

theorem told_pass (t : Target) (now : Nat) (c : Client σ) :
    (told (pass P t now c).state.server).length = (told c.server).length := by
  have hserver : (pass P t now c).state.server = (P.push now c.server).1 := by
    obtain ⟨-, hserver, -⟩ := pushed_keeps P t now c
    rw [pass_eq]
    rcases alert_state_eq_or now (c.pushed P t now) with ha | ha <;> rw [ha]
    · exact hserver
    · exact hserver
  rw [hserver, hP.push, length_deliverMore]

theorem told_startReject (now tag : Nat) (c : Client σ) :
    told (startReject P now tag c).state.server = told c.server := by
  rw [startReject]
  split
  · exact congrArg told (note_server _ _)
  · exact hP.receive now _ c.server

end Records

/-- **Each attempt at a session is a connection**, by any record that the server keeps. -/
theorem environment_counts (hP : P.Records told) (t : Target) :
    (environment P t).Counts fun c => (told c.server).length where
  pass now c := told_pass hP t now c
  start now r c := by
    cases r with
    | establish => exact congrArg List.length ((establish_attempts P t now c.server).told hP)
    | close => exact congrArg List.length (told_close hP t now c)
    | subscribe _ | depth | cancel _ => exact congrArg List.length (told_submit hP now _ c)
  answer now r c := congrArg List.length ((answer_adds P t now r c).told hP)
  ask _ _ := rfl
  startReject now tag c := congrArg List.length (told_startReject hP now tag c)
  finishReject _ tag c := congrArg (fun c => (told c.server).length) (finishReject_state tag c)
  race _ := rfl

end Client

end Amqp

end QueueDrain
