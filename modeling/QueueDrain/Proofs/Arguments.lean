import QueueDrain.CommandLine.Program
import QueueDrain.Proofs.Configuration
import QueueDrain.Proofs.Tokens

/-!
# What arguments ask for

Arguments that are no options are values, and three of them make a run. The second is the prefetch
limit, which is checked as soon as a third value or the end has come, so that nothing is made of the
others if it is not admissible. Then the configuration is checked, and after it the URI.

The queue's name may be nine octets shorter than a short string, because the default consumer tag
is made of it.

## Main definitions

* `Decimal.IsNumeral` — a natural number with an optional plus sign
* `CommandLine.IsPositional` — an argument that is no option
* `CommandLine.IsPrefetch` — an admissible prefetch limit
* `CommandLine.Arguments.config` — the configuration that arguments make

## Main results

* `CommandLine.readPrefetch_eq_ok_iff` — which texts are prefetch limits
* `CommandLine.parse_three`, `CommandLine.parse_refused` — what values ask for
* `Program.configure_eq_ok_iff` — which arguments make a configuration and an endpoint
-/

namespace QueueDrain

open Json (IsDigit IsDigits)
open Json.Number (valueFrom)

/-! ### Numerals -/

namespace Decimal

/-- The numeral of a natural number: digits behind an optional plus sign. -/
def IsNumeral (text : List Char) (n : Nat) : Prop :=
  ∃ sign ds, (sign = [] ∨ sign = ['+']) ∧ IsDigits ds ∧ text = sign ++ ds ∧ value ds = n

/-- Digits are read as what they denote, unless it is too much. -/
theorem readDigits_eq_ok_iff {limit n m : Nat} {cs : List Char} (hn : n ≤ limit) :
    readDigits limit n cs = .ok m ↔ (∀ c ∈ cs, IsDigit c) ∧ valueFrom n cs = m ∧ m ≤ limit := by
  induction cs generalizing n with
  | nil =>
    have hvalue : valueFrom n [] = n := rfl
    rw [readDigits, hvalue, Except.ok.injEq]
    constructor
    · rintro rfl
      exact ⟨by simp, rfl, hn⟩
    · exact fun h => h.2.1
  | cons c cs ih =>
    rw [readDigits, List.forall_mem_cons, ← Json.Number.isDigit_iff, Json.Number.isDigit]
    cases hc : digitValue? c with
    | none => simp
    | some d =>
      have hvalue : valueFrom n (c :: cs) = valueFrom (n * 10 + d) cs := by
        simp only [valueFrom, List.foldl_cons, hc, Option.getD_some]
      rw [hvalue]
      dsimp only
      by_cases hd : limit < n * 10 + d
      · -- more digits would only make it larger
        have hle := Json.Number.le_valueFrom (n * 10 + d) cs
        rw [if_pos hd]
        refine iff_of_false (by simp) ?_
        rintro ⟨-, rfl, hm⟩
        omega
      · rw [if_neg hd, ih (Nat.not_lt.mp hd)]
        simp

theorem isNumeral_plus {cs : List Char} {n : Nat} :
    IsNumeral ('+' :: cs) n ↔ IsDigits cs ∧ value cs = n := by
  constructor
  · rintro ⟨sign, ds, rfl | rfl, hds, hcs, hvalue⟩
    · -- a plus sign is no digit
      rw [List.nil_append] at hcs
      exact absurd (hds.2 '+' (by simp [← hcs])) (by decide)
    · obtain rfl : cs = ds := (List.cons.inj hcs).2
      exact ⟨hds, hvalue⟩
  · rintro ⟨hds, hvalue⟩
    exact ⟨['+'], cs, .inr rfl, hds, rfl, hvalue⟩

theorem isNumeral_of_head?_ne {cs : List Char} {n : Nat} (h : cs.head? ≠ some '+') :
    IsNumeral cs n ↔ IsDigits cs ∧ value cs = n := by
  constructor
  · rintro ⟨sign, ds, rfl | rfl, hds, rfl, hvalue⟩
    · exact ⟨hds, hvalue⟩
    · exact absurd rfl h
  · rintro ⟨hds, hvalue⟩
    exact ⟨[], cs, .inl rfl, hds, rfl, hvalue⟩

theorem readUpTo_eq_ok_iff {limit n : Nat} {cs : List Char} :
    readUpTo limit cs = .ok n ↔ IsNumeral cs n ∧ n ≤ limit := by
  have hread {ds : List Char} (hne : ds ≠ []) :
      readDigits limit 0 ds = .ok n ↔ (IsDigits ds ∧ value ds = n) ∧ n ≤ limit := by
    rw [readDigits_eq_ok_iff (Nat.zero_le limit), IsDigits, and_assoc, and_assoc, ne_eq,
      and_iff_right hne]
    rfl
  unfold readUpTo
  split
  next =>
    rw [isNumeral_of_head?_ne (show [].head? ≠ some '+' from nofun)]
    simp [IsDigits]
  next =>
    rw [isNumeral_plus]
    simp [IsDigits]
  next ds hne => rw [isNumeral_plus, hread fun h => hne h]
  next hnil _ hplus =>
    rw [isNumeral_of_head?_ne, hread hnil]
    intro hhead
    obtain ⟨ds, rfl⟩ := List.head?_eq_some_iff.mp hhead
    exact hplus ds rfl

/-- A numeral does not begin with a minus sign. -/
theorem IsNumeral.head?_ne {text : List Char} {n : Nat} (h : IsNumeral text n) :
    text.head? ≠ some '-' := by
  obtain ⟨sign, ds, rfl | rfl, ⟨hne, hdigits⟩, rfl, -⟩ := h
  · obtain ⟨c, ds, rfl⟩ := List.exists_cons_of_ne_nil hne
    rintro ⟨⟩
    exact absurd (hdigits '-' List.mem_cons_self) (by decide)
  · nofun

/-- Behind a minus sign a number is zero at most. -/
theorem readSigned_eq_ok_iff {bound n : Nat} {cs : List Char} (hn : 1 ≤ n) :
    readSigned bound cs = .ok (n : Int) ↔ IsNumeral cs n ∧ n ≤ bound := by
  unfold readSigned
  split
  next c cs =>
    refine iff_of_false ?_ fun h => h.1.head?_ne rfl
    rcases readDigits (bound + 1) 0 (c :: cs) with fault | m
    · cases fault <;> nofun
    · rw [Except.ok.injEq]
      omega
  next =>
    rw [← readUpTo_eq_ok_iff]
    cases readUpTo bound cs with
    | error fault => exact iff_of_false nofun nofun
    | ok m =>
      rw [Except.map, Except.ok.injEq, Except.ok.injEq]
      exact Int.ofNat_inj

end Decimal

/-! ### Values -/

namespace CommandLine

/-- An argument that is no option, wherever it stands. -/
def IsPositional (argument : String) : Prop := argument.toList.head? ≠ some '-'

instance : DecidablePred IsPositional := fun _ => inferInstanceAs (Decidable (_ ≠ _))

/-- An admissible prefetch limit. -/
def IsPrefetch (text : String) (limit : UInt16) : Prop :=
  Decimal.IsNumeral text.toList limit.toNat ∧ 1 ≤ limit.toNat

/-- **Which texts are prefetch limits.** -/
theorem readPrefetch_eq_ok_iff {text : String} {limit : UInt16} :
    readPrefetch text = .ok limit ↔ IsPrefetch text limit := by
  have hsigned : readPrefetch text = .ok limit ↔ 1 ≤ limit.toNat ∧
      Decimal.readSigned 9223372036854775807 text.toList = .ok (limit.toNat : Int) := by
    have hlimit := limit.toNat_lt
    rw [readPrefetch]
    rcases Decimal.readSigned 9223372036854775807 text.toList with fault | i
    · exact iff_of_false nofun nofun
    · dsimp only
      rw [Except.ok.injEq]
      split
      next hi =>
        rw [Except.ok.injEq, ← UInt16.toNat_inj, UInt16.toNat_ofNat', Nat.mod_eq_of_lt (by omega)]
        omega
      next hi => exact iff_of_false nofun (by omega)
  rw [hsigned, IsPrefetch, and_comm]
  refine and_congr_left fun hpos => ?_
  have hlimit := limit.toNat_lt
  rw [Decimal.readSigned_eq_ok_iff hpos]
  exact and_iff_left (by omega)

/-! ### Three values -/

theorem parseFrom_cons {argument : String} (h : IsPositional argument) (given : Given)
    (rest : List String) :
    parseFrom false given (argument :: rest) =
      match give given argument with
      | .ok given => parseFrom false given rest
      | .error cause => .refused cause := by
  rw [parseFrom, if_neg Bool.false_ne_true]
  split
  next heq => exact absurd (congrArg List.head? heq) h
  next heq => exact absurd (congrArg List.head? heq) h
  next heq => exact absurd (congrArg List.head? heq) h
  next => rfl

theorem eq_of_give {given given' : Given} {value : String} (h : give given value = .ok given') :
    given' = given ++ [value] := by
  rw [give] at h
  split at h
  · cases h
  · cases hcheck : check given with
    | error cause =>
      rw [hcheck] at h
      cases h
    | ok _ =>
      rw [hcheck] at h
      exact (Except.ok.inj h).symm

section Values

variable {arguments : List String} (h : ∀ argument ∈ arguments, IsPositional argument)
include h

/-- Values make a run if they are three, together with those that have come before. -/
theorem parseFrom_cases (given : Given) :
    (∃ cause, parseFrom false given arguments = .refused cause) ∨
      ((∃ a, parseFrom false given arguments = .run a) ∧ given.length + arguments.length = 3) := by
  induction arguments generalizing given with
  | nil =>
    rw [parseFrom]
    unfold finish
    split
    next => exact .inl ⟨_, rfl⟩
    next =>
      split
      next _ value _ _ =>
        cases readPrefetch value with
        | error cause => exact .inl ⟨_, rfl⟩
        | ok limit => exact .inr ⟨⟨_, rfl⟩, rfl⟩
      next => exact .inl ⟨_, rfl⟩
  | cons argument rest ih =>
    obtain ⟨hargument, hrest⟩ := List.forall_mem_cons.mp h
    rw [parseFrom_cons hargument]
    split
    next given' hgive =>
      obtain rfl := eq_of_give hgive
      have hlength : (given ++ [argument]).length + rest.length
          = given.length + (argument :: rest).length := by
        simp only [List.length_append, List.length_cons, List.length_nil]
        omega
      rw [← hlength]
      exact ih hrest _
    next => exact .inl ⟨_, rfl⟩

/-- **Values that are not three are refused.** -/
theorem parse_refused (hlength : arguments.length ≠ 3) :
    ∃ cause, parse arguments = .refused cause := by
  rcases parseFrom_cases h [] with hrefused | ⟨-, hthree⟩
  · exact hrefused
  · rw [List.length_nil, Nat.zero_add] at hthree
    exact absurd hthree hlength

end Values

/-- **Three values make a run**, unless the second is no prefetch limit. -/
theorem parse_three {uri prefetch queue : String}
    (h : ∀ argument ∈ [uri, prefetch, queue], IsPositional argument) :
    parse [uri, prefetch, queue] =
      match readPrefetch prefetch with
      | .ok limit => .run { uri, prefetch := limit, queue }
      | .error cause => .refused cause := by
  simp only [List.forall_mem_cons, List.not_mem_nil, false_implies, implies_true, and_true] at h
  obtain ⟨huri, hprefetch, hqueue⟩ := h
  have hfirst : give [] uri = .ok [uri] := rfl
  have hsecond : give [uri] prefetch = .ok [uri, prefetch] := rfl
  have hthird : give [uri, prefetch] queue
      = (readPrefetch prefetch).map fun _ => [uri, prefetch, queue] := by
    have hroom : ¬names.length ≤ [uri, prefetch].length := show ¬3 ≤ 2 by decide
    rw [give, if_neg hroom, check]
    cases readPrefetch prefetch <;> rfl
  rw [parse, parseFrom_cons huri, hfirst]
  dsimp only
  rw [parseFrom_cons hprefetch, hsecond]
  dsimp only
  rw [parseFrom_cons hqueue, hthird]
  cases hread : readPrefetch prefetch with
  | error cause => rfl
  | ok limit => simp only [Except.map, parseFrom, finish, check, hread]

/-- The configuration that arguments make. Everything that they do not say is the default. -/
def Arguments.config (a : Arguments) : Config where
  brokerUri := a.uri
  queueName := a.queue
  prefetchCount := a.prefetch
  deadLetterRoutingKey := "in"
  consumerTag := a.queue ++ "_rejector"
  pollInterval := Config.defaultPollInterval
  reconnectPolicy := .default

/-- A queue's name that fits a short string together with the suffix of the consumer tag. -/
def IsName (queue : String) : Prop := queue ≠ "" ∧ queue.utf8ByteSize ≤ 246

instance : DecidablePred IsName := fun _ => inferInstanceAs (Decidable (_ ∧ _))

/-- **Which arguments make a configuration.** -/
theorem Arguments.meets_config {a : Arguments} (h : 1 ≤ a.prefetch.toNat) :
    (∀ k, a.config.Meets k) ↔ IsName a.queue := by
  have hname : a.config.Meets .queueName ↔
      1 ≤ a.queue.utf8ByteSize ∧ a.queue.utf8ByteSize ≤ 255 := Iff.rfl
  have htag : a.config.Meets .consumerTag ↔ a.queue.utf8ByteSize + 9 ≤ 255 := by
    rw [← show "_rejector".utf8ByteSize = 9 by decide, ← String.utf8ByteSize_append]
    exact Iff.rfl
  have hempty : a.queue ≠ "" ↔ 1 ≤ a.queue.utf8ByteSize := by
    simp [Nat.one_le_iff_ne_zero]
  rw [IsName, hempty]
  constructor
  · intro hall
    have hname := hname.mp (hall .queueName)
    have htag := htag.mp (hall .consumerTag)
    omega
  · intro hqueue k
    cases k with
    | queueName => exact hname.mpr (by omega)
    | prefetchCount => exact h
    | pollInterval => exact show Config.defaultPollInterval ≠ .zero by decide
    | consumerTag => exact htag.mpr (by omega)
    | deadLetterRoutingKey => exact show "in".utf8ByteSize ≤ 255 by decide

end CommandLine

namespace Program

open CommandLine (IsName)

theorem configuration_eq (a : CommandLine.Arguments) :
    configuration a =
      match a.config.firstViolated? with
      | none => .ok a.config
      | some k => .error (a.config.complaint k).toError := by
  have hfilled : (({ brokerUri := a.uri, queueName := a.queue } : Config.Builder).set
      (.prefetchCount a.prefetch)).filled = a.config := rfl
  rw [configuration, Config.Builder.build_eq, hfilled]
  cases a.config.firstViolated? <;> rfl

/-- **Which arguments make a configuration and an endpoint.** -/
theorem configure_eq_ok_iff {a : CommandLine.Arguments} (h : 1 ≤ a.prefetch.toNat) {c : Config}
    {e : Endpoint} :
    configure a = .ok (c, e) ↔ IsName a.queue ∧ Endpoint.parse a.uri = .ok e ∧ c = a.config := by
  rw [← CommandLine.Arguments.meets_config h, ← Config.firstViolated?_eq_none_iff, configure,
    configuration_eq]
  cases hviolated : a.config.firstViolated? with
  | some k => exact iff_of_false nofun fun h => nomatch h.1
  | none =>
    have huri : a.config.brokerUri = a.uri := rfl
    simp only [bind, Except.bind, huri, true_and]
    cases Endpoint.parse a.uri with
    | error fault => exact iff_of_false nofun fun h => nomatch h.1
    | ok e' =>
      rw [Except.ok.injEq]
      constructor
      · rintro ⟨⟩
        exact ⟨rfl, rfl⟩
      · rintro ⟨rfl, rfl⟩
        rfl

end Program

end QueueDrain
