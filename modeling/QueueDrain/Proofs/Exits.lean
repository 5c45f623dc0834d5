import QueueDrain.Proofs.Arguments
import QueueDrain.Proofs.Connections
import QueueDrain.Proofs.Credentials
import QueueDrain.Proofs.Reports
import QueueDrain.Proofs.Verdicts

/-!
# How the program ends

The program looks at its arguments, then at the configuration that they make, then at the URI, and
connects only if nothing of these is wrong. So it ends in one of four ways, each with a status and a
log of its own: refused without a word in the log, failed before a connection is made, failed, or
done. Which one it is depends on the arguments, or on what the drain comes to.

A run may go on for ever, so a run ends if some number of steps suffices, and more of them change
nothing. That the program has connected or not is told by the server: whatever record it keeps of
its connections, there is one more in it for each attempt at a session, and for nothing else.

## Main definitions

* `Program.Setting.Ends` — a run of the program is over
* `Program.Setting.drained`, `Program.Setting.Returns` — the drain of a run, and what it comes to
* `Program.Setting.Refuses`, `Program.Setting.Fails`, `Program.Setting.Drains` — the ways to end

## Main results

* `Program.Setting.Ends.unique` — a run ends in one way
* `Program.execute_exits` — in which way a run of the program ends
-/

namespace QueueDrain

/-! ### What is shown of a log -/

/-- Unless a filter is set, all that the program logs is shown. -/
theorem LogFilter.shows_default (line : Notice) : LogFilter.default.shows line = true := by
  have hdefault : LogFilter.default = { directives := [{ target := none, limit := 3 }] } := by
    decide
  have hrank : line.level.rank ≤ 3 := by cases line <;> simp [Notice.level, Level.rank]
  rw [hdefault]
  simpa [shows, decisive?, Directive.isFor] using hrank

/-! ### Runs of the program -/

namespace Program

open Amqp (Client)
open CommandLine (Arguments IsName IsPrefetch IsPositional)

variable {σ : Type}

namespace Setting

/-- A run of the program is over, in whatever number of steps, and leaves something behind. -/
def Ends (s : Setting σ) (arguments : List String) (x : Execution σ) : Prop :=
  ∃ fuel, execute s fuel arguments = some x

/-- The drain of a run, after so many steps. -/
def drained (s : Setting σ) (config : Config) (e : Endpoint) (n : Nat) : Drain.State (Client σ) :=
  let E := Client.environment s.peer (.ofConfig e (s.shown e) config)
  let plan : Drain.Plan := { config, endpoint := s.shown e }
  let world : Client σ := { server := s.server, interruptAt := s.interruptAt }
  Drain.run E plan n (Drain.start E plan (.opening 0 world 0 false))

/-- The drain of a run comes to a result. -/
def Returns (s : Setting σ) (config : Config) (e : Endpoint)
    (result : Except DrainError Drain.Summary) : Prop :=
  ∃ n, (s.drained config e n).result? = some result

/-- The arguments are refused: nothing is logged, and the server is left alone. -/
structure Refuses (s : Setting σ) (x : Execution σ) : Prop where
  exitCode : x.exitCode = 2
  log : x.log = []
  server : x.server = s.server

/-- The run fails before it connects: an error is the only line of the log, and the server is left
alone. -/
structure Fails (s : Setting σ) (x : Execution σ) : Prop where
  exitCode : x.exitCode = 1
  log : ∃ line, x.log = [line] ∧ line.level = .error
  server : x.server = s.server

end Setting

/-- What a run leaves behind whose drain has come to a result: behind the lines of the drain, the
log has the report on one line, or the error. -/
def Execution.Concludes (x : Execution σ) (d : Drain.State (Client σ)) :
    Except DrainError Drain.Summary → Prop
  | .ok summary => x.exitCode = 0 ∧ ∃ report : Report, report.toSummary = summary ∧
      Json.IsValue report.json.toList ∧ Json.IsPrinted report.json.toList ∧
      x.log = d.course.log.map Prod.snd ++ [.report report.json]
  | .error cause => x.exitCode = 1 ∧ x.log = d.course.log.map Prod.snd ++ [.failed cause]

/-- A run of the program drains the queue. -/
structure Setting.Drains (s : Setting σ) (arguments : List String) (config : Config)
    (e : Endpoint) : Prop where
  /-- It connects, and goes on connecting: there is a connection for each attempt at a session, by
  any record that the server keeps. -/
  connects (n : Nat) : 1 ≤ (s.drained config e n).course.attempts ∧
    ∀ told, s.peer.Records told → (told (s.drained config e n).course.world.server).length
      = (told s.server).length + (s.drained config e n).course.attempts
  /-- No line of the drain is an error or a report. -/
  lines (n : Nat) : ∀ entry ∈ (s.drained config e n).course.log,
    entry.2.level ≠ .error ∧ ∀ json, entry.2 ≠ .report json
  /-- It is over when the drain is, and not before. -/
  ends {result : Except DrainError Drain.Summary} (h : s.Returns config e result) :
    ∃ x, s.Ends arguments x
  concludes {x : Execution σ} (h : s.Ends arguments x) :
    ∃ n result, (s.drained config e n).result? = some result ∧
      x.server = (s.drained config e n).course.world.server ∧
      x.Concludes (s.drained config e n) result
  succeeds_iff : (∃ x, s.Ends arguments x ∧ x.exitCode = 0) ↔
    ∃ summary, s.Returns config e (.ok summary)
  fails_iff : (∃ x, s.Ends arguments x ∧ x.exitCode = 1) ↔
    ∃ cause, s.Returns config e (.error cause)

variable {s : Setting σ} {arguments : List String} {x y : Execution σ} {config : Config}
  {e : Endpoint}

/-! ### The drain of a run -/

section Drained

variable (s config e) (n : Nat)

/-- The first attempt at a session begins at once. -/
theorem reaches_drained :
    let E := Client.environment s.peer (.ofConfig e (s.shown e) config)
    let line : Notice := .connecting (s.shown e) config.queueName
    let told : Course (Client σ) :=
      (Course.opening 0 { server := s.server, interruptAt := s.interruptAt } 0 false).tell line
    (told.begin E .establish).1.Reaches E (s.drained config e n).course := by
  intro E line told
  have hrun := Drain.run_reaches (E := E) { config, endpoint := s.shown e } n
    (Drain.start E { config, endpoint := s.shown e }
      (.opening 0 { server := s.server, interruptAt := s.interruptAt } 0 false))
  rw [Drain.start_of_not_interrupted rfl] at hrun
  rw [Setting.drained, Drain.start_of_not_interrupted rfl]
  exact hrun

theorem connects_drained : 1 ≤ (s.drained config e n).course.attempts ∧
    ∀ told, s.peer.Records told → (told (s.drained config e n).course.world.server).length
      = (told s.server).length + (s.drained config e n).course.attempts := by
  have hreaches := reaches_drained s config e n
  extract_lets E line told at hreaches
  have hfirst := Course.attempts_eq (c := told) [.began .establish]
    (Course.proceedings_begin (E := E) told .establish)
  refine ⟨Nat.le_trans ?_ hreaches.attempts_le, fun record hrecord => ?_⟩
  · rw [hfirst]
    exact Nat.le_add_right 1 _
  · have hE : E.Counts fun c => (record c.server).length :=
      Client.environment_counts hrecord (.ofConfig e (s.shown e) config)
    have hbegin := Course.counts_begin hE told .establish
    have hrest := hreaches.counts hE
    have hnone : told.attempts = 0 := rfl
    have hserver : told.world.server = s.server := rfl
    rw [hnone, hserver] at hbegin
    omega

theorem lines_drained : ∀ entry ∈ (s.drained config e n).course.log,
    entry.2.level ≠ .error ∧ ∀ json, entry.2 ≠ .report json := by
  intro entry hentry
  have hwithholds : (s.drained config e n).course.Withholds Client.Withholds :=
    Drain.run_withholds (Client.environment_withholds s.peer _) _
      ⟨Client.withholds_nil rfl, List.forall_mem_nil _⟩ n
  exact Notice.isVerdict_eq_false_iff.mp (hwithholds.log entry hentry)

theorem log_drained_ne_nil : (s.drained config e n).course.log ≠ [] := by
  have hreaches := reaches_drained s config e n
  extract_lets E line told at hreaches
  obtain ⟨asides, hbegin, -⟩ := Course.begin_trace (E := E) told .establish
  obtain ⟨new, hnew⟩ := hreaches.extends
  have hmem : ⟨0, .notice line⟩ ∈ (s.drained config e n).course.trace := by
    rw [hnew.trace, hbegin]
    exact List.mem_append_right _ (List.mem_append_right _
      (List.mem_cons_of_mem _ List.mem_cons_self))
  exact List.ne_nil_of_mem
    (List.mem_filterMap.mpr ⟨⟨0, .notice line⟩, List.mem_reverse.mpr hmem, rfl⟩)

end Drained

theorem drained_add {n : Nat} {result : Except DrainError Drain.Summary}
    (h : (s.drained config e n).result? = some result) (k : Nat) :
    s.drained config e (n + k) = s.drained config e n := by
  rw [Setting.drained, Drain.run_add]
  exact Drain.run_of_finished h k

/-! ### The steps of a run -/

theorem executed_of_result {d : Drain.State (Client σ)}
    {result : Except DrainError Drain.Summary} (h : d.result? = some result)
    (startedAt : Timestamp) :
    ∃ x, executed startedAt d = some x ∧ x.server = d.course.world.server ∧
      x.Concludes d result := by
  rw [executed, h]
  cases result with
  | ok summary =>
    exact ⟨_, rfl, rfl, rfl, reportOf summary startedAt d.course.now, rfl,
      Report.isValue_json _, Report.isPrinted_json _, rfl⟩
  | error cause => exact ⟨_, rfl, rfl, rfl, rfl⟩

theorem result_of_executed {d : Drain.State (Client σ)} {startedAt : Timestamp}
    (h : executed startedAt d = some x) :
    ∃ result, d.result? = some result ∧ x.server = d.course.world.server ∧
      x.Concludes d result := by
  obtain ⟨result, hresult, -⟩ := Option.map_eq_some_iff.mp h
  obtain ⟨y, hy, hconcludes⟩ := executed_of_result hresult startedAt
  rw [h] at hy
  cases hy
  exact ⟨result, hresult, hconcludes⟩

theorem execute_of_refused {cause : CommandLine.Refusal}
    (h : CommandLine.parse arguments = .refused cause) (fuel : Nat) :
    execute s fuel arguments
      = some { exitCode := 2, usageError := cause.message, server := s.server } := by
  rw [execute, h]
  rfl

theorem execute_of_error {a : Arguments} {cause : DrainError}
    (h : CommandLine.parse arguments = .run a) (hc : configure a = .error cause) (fuel : Nat) :
    execute s fuel arguments
      = some { exitCode := 1, log := [.failed cause], server := s.server } := by
  rw [execute, h]
  dsimp only
  rw [hc]

theorem execute_of_ok {a : Arguments} (h : CommandLine.parse arguments = .run a)
    (hc : configure a = .ok (config, e)) (fuel : Nat) :
    execute s fuel arguments = executed s.startedAt (s.drained config e fuel) := by
  rw [execute, h]
  dsimp only
  rw [hc]
  rfl

/-- More steps change nothing. -/
theorem execute_add {fuel : Nat} (h : execute s fuel arguments = some x) (k : Nat) :
    execute s (fuel + k) arguments = some x := by
  cases hp : CommandLine.parse arguments with
  | run a =>
    rcases hc : configure a with cause | ⟨config, e⟩
    · rw [execute_of_error hp hc] at h ⊢
      exact h
    · rw [execute_of_ok hp hc] at h ⊢
      obtain ⟨result, hresult, -⟩ := result_of_executed h
      rwa [drained_add hresult]
  | help _ | version | refused _ =>
    rw [execute, hp] at h ⊢
    exact h

/-- **A run ends in one way.** -/
theorem Setting.Ends.unique (hx : s.Ends arguments x) (hy : s.Ends arguments y) : x = y := by
  obtain ⟨n, hx⟩ := hx
  obtain ⟨m, hy⟩ := hy
  have hsum := execute_add hx m
  rw [Nat.add_comm, execute_add hy n] at hsum
  exact (Option.some.inj hsum).symm

/-! ### The ways to end -/

theorem exists_refuses {cause : CommandLine.Refusal}
    (h : CommandLine.parse arguments = .refused cause) :
    ∃ x, s.Ends arguments x ∧ s.Refuses x :=
  ⟨_, ⟨0, execute_of_refused h 0⟩, rfl, rfl, rfl⟩

theorem exists_fails {a : Arguments} {cause : DrainError}
    (h : CommandLine.parse arguments = .run a) (hc : configure a = .error cause) :
    ∃ x, s.Ends arguments x ∧ s.Fails x :=
  ⟨_, ⟨0, execute_of_error h hc 0⟩, rfl, ⟨_, rfl, rfl⟩, rfl⟩

theorem drains {a : Arguments} (h : CommandLine.parse arguments = .run a)
    (hc : configure a = .ok (config, e)) : s.Drains arguments config e := by
  have hends {n : Nat} {result : Except DrainError Drain.Summary}
      (hresult : (s.drained config e n).result? = some result) :
      ∃ x, s.Ends arguments x ∧ x.Concludes (s.drained config e n) result := by
    obtain ⟨x, hx, -, hconcludes⟩ := executed_of_result hresult s.startedAt
    exact ⟨x, ⟨n, (execute_of_ok h hc n).trans hx⟩, hconcludes⟩
  have hconcludes {x : Execution σ} (hx : s.Ends arguments x) :
      ∃ n result, (s.drained config e n).result? = some result ∧
        x.server = (s.drained config e n).course.world.server ∧
        x.Concludes (s.drained config e n) result := by
    obtain ⟨n, hn⟩ := hx
    rw [execute_of_ok h hc] at hn
    exact ⟨n, result_of_executed hn⟩
  refine ⟨connects_drained s config e, lines_drained s config e, ?_, hconcludes, ⟨?_, ?_⟩,
    ⟨?_, ?_⟩⟩
  · rintro result ⟨n, hresult⟩
    obtain ⟨x, hx, -⟩ := hends hresult
    exact ⟨x, hx⟩
  · rintro ⟨x, hx, hcode⟩
    obtain ⟨n, cause | summary, hresult, -, hconcludes⟩ := hconcludes hx
    · have hone := hconcludes.1
      omega
    · exact ⟨summary, n, hresult⟩
  · rintro ⟨summary, n, hresult⟩
    obtain ⟨x, hx, hconcludes⟩ := hends hresult
    exact ⟨x, hx, hconcludes.1⟩
  · rintro ⟨x, hx, hcode⟩
    obtain ⟨n, cause | summary, hresult, -, hconcludes⟩ := hconcludes hx
    · exact ⟨cause, n, hresult⟩
    · have hzero := hconcludes.1
      omega
  · rintro ⟨cause, n, hresult⟩
    obtain ⟨x, hx, hconcludes⟩ := hends hresult
    exact ⟨x, hx, hconcludes.1⟩

theorem Execution.Concludes.exists_log {d : Drain.State (Client σ)}
    {result : Except DrainError Drain.Summary} (h : x.Concludes d result) :
    ∃ verdict, x.log = d.course.log.map Prod.snd ++ [verdict] := by
  cases result with
  | ok summary =>
    obtain ⟨-, report, -, -, -, hlog⟩ := h
    exact ⟨_, hlog⟩
  | error cause => exact ⟨_, h.2⟩

namespace Setting.Drains

variable (h : s.Drains arguments config e) (hx : s.Ends arguments x)
include h hx

/-- A run that drains the queue logs more than one line. -/
theorem not_fails : ¬s.Fails x := by
  rintro ⟨-, ⟨line, hline, -⟩, -⟩
  obtain ⟨n, result, -, -, hconcludes⟩ := h.concludes hx
  obtain ⟨verdict, hlog⟩ := hconcludes.exists_log
  have hlength := congrArg List.length (hline.symm.trans hlog)
  have hpos := List.length_pos_iff.mpr (log_drained_ne_nil s config e n)
  rw [List.length_append, List.length_map, List.length_singleton, List.length_singleton] at hlength
  omega

theorem exitCode_ne : x.exitCode ≠ 2 := by
  obtain ⟨n, cause | summary, -, -, hconcludes⟩ := h.concludes hx
  · have hone := hconcludes.1
    omega
  · have hzero := hconcludes.1
    omega

end Setting.Drains

/-- Only arguments that are refused have their status. -/
theorem exitCode_ne_of_run {a : Arguments} (h : CommandLine.parse arguments = .run a)
    (hx : s.Ends arguments x) : x.exitCode ≠ 2 := by
  cases hc : configure a with
  | ok made => exact (drains h hc).exitCode_ne hx
  | error cause =>
    obtain ⟨y, hy, hfails⟩ := exists_fails (s := s) h hc
    have hone := hfails.exitCode
    rw [hx.unique hy]
    omega

/-- **How the program ends.** A run of the program ends in one way, if it ends, and unless a filter
is set all its lines are shown. Let no argument begin with a dash.

Other than three arguments are refused. Of three, the second has to be a number from 1 to 65535, and
if it is not, and only then, the arguments are refused: the status is 2, nothing is logged, and the
server is left alone. Otherwise the third has to be a queue's name of at most 246 octets and the
first a URI, and if one of them is not, and only then, the run fails without a connection: the
status is 1 and the only line of the log is an error. Otherwise the run connects; the status is 0
if and only if the drain comes to a summary, which is reported in the last line, and 1 if and only
if it comes to an error, which is the last line; and no other line is an error or a report. -/
theorem execute_exits (s : Setting σ) (arguments : List String)
    (h : ∀ argument ∈ arguments, IsPositional argument) :
    (∀ x y, s.Ends arguments x → s.Ends arguments y → x = y) ∧
    (∀ x, s.Ends arguments x → ∀ line ∈ x.log, LogFilter.default.shows line = true) ∧
    (arguments.length ≠ 3 → ∃ x, s.Ends arguments x ∧ s.Refuses x) ∧
    ∀ uri prefetch queue, arguments = [uri, prefetch, queue] →
      ((∃ x, s.Ends arguments x ∧ s.Refuses x) ↔ ¬∃ limit, IsPrefetch prefetch limit) ∧
      ((∃ x, s.Ends arguments x ∧ x.exitCode = 2) ↔ ¬∃ limit, IsPrefetch prefetch limit) ∧
      ∀ limit, IsPrefetch prefetch limit →
        ((∃ x, s.Ends arguments x ∧ s.Fails x) ↔
          ¬(IsName queue ∧ ∃ e, Endpoint.parse uri = .ok e)) ∧
        ∀ e, IsName queue → Endpoint.parse uri = .ok e →
          s.Drains arguments (Arguments.config { uri, prefetch := limit, queue }) e := by
  refine ⟨fun _ _ => Setting.Ends.unique, fun _ _ line _ => LogFilter.shows_default line,
    fun hlength => ?_, ?_⟩
  · obtain ⟨cause, hcause⟩ := CommandLine.parse_refused h hlength
    exact exists_refuses hcause
  rintro uri prefetch queue rfl
  have hparse := CommandLine.parse_three h
  cases hread : CommandLine.readPrefetch prefetch with
  | error cause =>
    rw [hread] at hparse
    have hnone : ¬∃ limit, IsPrefetch prefetch limit := by
      rintro ⟨limit, hlimit⟩
      rw [CommandLine.readPrefetch_eq_ok_iff.mpr hlimit] at hread
      cases hread
    obtain ⟨x, hx, hrefuses⟩ := exists_refuses (s := s) hparse
    exact ⟨iff_of_true ⟨x, hx, hrefuses⟩ hnone, iff_of_true ⟨x, hx, hrefuses.exitCode⟩ hnone,
      fun limit hlimit => absurd ⟨limit, hlimit⟩ hnone⟩
  | ok limit =>
    rw [hread] at hparse
    have hsome : ∃ limit, IsPrefetch prefetch limit :=
      ⟨limit, CommandLine.readPrefetch_eq_ok_iff.mp hread⟩
    refine ⟨iff_of_false ?_ (not_not_intro hsome), iff_of_false ?_ (not_not_intro hsome),
      fun limit' hlimit => ?_⟩
    · rintro ⟨x, hx, hrefuses⟩
      exact exitCode_ne_of_run hparse hx hrefuses.exitCode
    · rintro ⟨x, hx, hcode⟩
      exact exitCode_ne_of_run hparse hx hcode
    · rw [CommandLine.readPrefetch_eq_ok_iff.mpr hlimit] at hread
      obtain rfl := Except.ok.inj hread
      have hconfigure {c : Config} {e : Endpoint} := configure_eq_ok_iff
        (a := { uri, prefetch := limit', queue }) hlimit.2 (c := c) (e := e)
      refine ⟨⟨?_, fun hnot => ?_⟩, fun e hname he =>
        drains hparse (hconfigure.mpr ⟨hname, he, rfl⟩)⟩
      · rintro ⟨x, hx, hfails⟩ ⟨hname, e, he⟩
        exact (drains hparse (hconfigure.mpr ⟨hname, he, rfl⟩)).not_fails hx hfails
      · rcases hc : configure { uri, prefetch := limit', queue } with cause | ⟨c, e⟩
        · exact exists_fails hparse hc
        · obtain ⟨hname, he, -⟩ := hconfigure.mp hc
          exact absurd ⟨hname, e, he⟩ hnot

/-- A plus sign and zeros in front do not matter for a prefetch limit; one more than the largest is
refused, and so are two arguments. A queue's name of 247 octets leaves no room for the suffix of the
consumer tag. -/
theorem execute_exits_limits :
    let script : Amqp.Server := { messages := 3 }
    let s : Setting (Amqp.Server.State × List (List Nat)) :=
      { peer := script.peer.recording, server := (script.opening, []) }
    let longName := String.ofList (List.replicate 247 'q')
    (∃ x, s.Ends ["amqp://broker", "+007", "jobs"] x ∧ x.exitCode = 0) ∧
    (∃ x, s.Ends ["amqp://broker", "65536", "jobs"] x ∧ s.Refuses x) ∧
    (∃ x, s.Ends ["amqp://broker", "65535"] x ∧ s.Refuses x) ∧
    ∃ x, s.Ends ["amqp://broker", "65535", longName] x ∧ s.Fails x := by
  intro script s longName
  have hlimit : IsPrefetch "+007" 7 :=
    CommandLine.readPrefetch_eq_ok_iff.mp (by decide +kernel)
  have hlargest : IsPrefetch "65535" 65535 :=
    CommandLine.readPrefetch_eq_ok_iff.mp (by decide +kernel)
  have hnone : ¬∃ limit, IsPrefetch "65536" limit := by
    rintro ⟨limit, h⟩
    have hread : CommandLine.readPrefetch "65536"
        = .error (.invalidPrefetch "65536" "65536 is not in 1..=65535") := by decide +kernel
    rw [CommandLine.readPrefetch_eq_ok_iff.mpr h] at hread
    cases hread
  have hlong : ¬IsName longName := by decide +kernel
  obtain ⟨-, -, -, hdone⟩ := execute_exits s ["amqp://broker", "+007", "jobs"] (by decide)
  obtain ⟨-, -, hrefused, -⟩ := execute_exits s ["amqp://broker", "65535"] (by decide)
  obtain ⟨-, -, -, htooLarge⟩ := execute_exits s ["amqp://broker", "65536", "jobs"] (by decide)
  obtain ⟨-, -, -, htooLong⟩ :=
    execute_exits s ["amqp://broker", "65535", longName] (by decide +kernel)
  refine ⟨?_, (htooLarge _ _ _ rfl).1.mpr hnone, hrefused (by decide), ?_⟩
  · obtain ⟨-, hdrains⟩ := (hdone _ _ _ rfl).2.2 7 hlimit
    let summary : Drain.Summary :=
      { queue := "jobs", endpoint := "amqp://broker:5672 (vhost '/')", outcome := .drained
        rejected := 3, polls := 1, reconnects := 0, lastMessageCount := some 0 }
    exact (hdrains { Endpoint.sample with host := "broker" } (by decide)
      (by decide +kernel)).succeeds_iff.mpr ⟨summary, 13, by decide +kernel⟩
  · exact ((htooLong _ _ _ rfl).2.2 65535 hlargest).1.mpr fun h => hlong h.1

end Program

end QueueDrain
