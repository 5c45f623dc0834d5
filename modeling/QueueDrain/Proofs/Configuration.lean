import QueueDrain.Config

/-!
# What a builder builds

A builder takes settings in any number and order, and of each field the last one counts. Building
looks at five conditions in a fixed order and complains of the first that is not met. The default
consumer tag is made of the queue's name, so a name that is admissible may still be too long unless
a tag is set.

## Main definitions

* `Config.Field`, `Config.lastValue?` — what can be set, and the last value that settings give to it
* `Config.requested` — what settings ask for: the last value of each field, or else its default
* `Config.Condition`, `Config.Meets` — what an admissible configuration has to satisfy
* `Config.complaint` — what is wrong with a configuration that does not satisfy a condition

## Main results

* `Config.Builder.value?_ofSettings` — the last setting of a field is the one that counts
* `Config.Builder.build_eq` — building is looking at the conditions in their order
* `Config.build_exact` — when settings make a configuration, and which; else, with which error
-/

namespace QueueDrain

namespace Config

/-! ### Settings -/

/-- What can be set. -/
inductive Field where
  | prefetchCount
  | deadLetterRoutingKey
  | consumerTag
  | pollInterval
  | reconnectPolicy
deriving DecidableEq, Repr

/-- What a field holds. -/
@[reducible] def Field.Value : Field → Type
  | .prefetchCount => UInt16
  | .deadLetterRoutingKey | .consumerTag => String
  | .pollInterval => Duration
  | .reconnectPolicy => Backoff.Policy

/-- The field that a setting sets. -/
def Setting.field : Setting → Field
  | .prefetchCount _ => .prefetchCount
  | .deadLetterRoutingKey _ => .deadLetterRoutingKey
  | .consumerTag _ => .consumerTag
  | .pollInterval _ => .pollInterval
  | .reconnectPolicy _ => .reconnectPolicy

/-- The value that a setting gives to its field. -/
def Setting.value : (s : Setting) → s.field.Value
  | .prefetchCount count => count
  | .deadLetterRoutingKey key => key
  | .consumerTag tag => tag
  | .pollInterval interval => interval
  | .reconnectPolicy policy => policy

/-- The value that a setting gives to a field, if it sets it. -/
def Setting.value? (f : Field) (s : Setting) : Option f.Value :=
  if h : s.field = f then some (h ▸ s.value) else none

/-- The value that a builder has for a field. -/
def Builder.value? (b : Builder) : (f : Field) → Option f.Value
  | .prefetchCount => b.prefetchCount
  | .deadLetterRoutingKey => b.deadLetterRoutingKey
  | .consumerTag => b.consumerTag
  | .pollInterval => b.pollInterval
  | .reconnectPolicy => b.reconnectPolicy

/-- The last value that settings give to a field. -/
def lastValue? (f : Field) (settings : List Setting) : Option f.Value :=
  (settings.filterMap (Setting.value? f)).getLast?

theorem Builder.value?_set (b : Builder) (s : Setting) (f : Field) :
    (b.set s).value? f = (s.value? f).or (b.value? f) := by
  cases s <;> cases f <;> rfl

@[simp] theorem Builder.set_brokerUri (b : Builder) (s : Setting) :
    (b.set s).brokerUri = b.brokerUri := by
  cases s <;> rfl

@[simp] theorem Builder.set_queueName (b : Builder) (s : Setting) :
    (b.set s).queueName = b.queueName := by
  cases s <;> rfl

/-- A builder is what it holds. -/
theorem Builder.ext_value? {b b' : Builder} (huri : b.brokerUri = b'.brokerUri)
    (hname : b.queueName = b'.queueName) (hvalue : ∀ f, b.value? f = b'.value? f) : b = b' :=
  Builder.ext huri hname (hvalue .prefetchCount) (hvalue .deadLetterRoutingKey)
    (hvalue .consumerTag) (hvalue .pollInterval) (hvalue .reconnectPolicy)

/-- The builder that settings make, one after the other. -/
def Builder.ofSettings (brokerUri queueName : String) (settings : List Setting) : Builder :=
  settings.foldl set { brokerUri, queueName }

section Settings

variable (brokerUri queueName : String) (settings : List Setting)

theorem Builder.value?_foldl_set (b : Builder) (f : Field) :
    (settings.foldl set b).value? f = (lastValue? f settings).or (b.value? f) := by
  induction settings generalizing b with
  | nil => simp [lastValue?]
  | cons s rest ih =>
    rw [List.foldl_cons, ih, value?_set, ← Option.or_assoc]
    congr 1
    rw [lastValue?, lastValue?, List.filterMap_cons]
    cases s.value? f with
    | none => simp
    | some v => simp [List.getLast?_cons]

/-- **The last setting of a field is the one that counts.** -/
theorem Builder.value?_ofSettings (f : Field) :
    (ofSettings brokerUri queueName settings).value? f = lastValue? f settings := by
  rw [ofSettings, value?_foldl_set]
  cases f <;> exact Option.or_none

theorem Builder.ofSettings_names :
    (ofSettings brokerUri queueName settings).brokerUri = brokerUri ∧
      (ofSettings brokerUri queueName settings).queueName = queueName := by
  suffices h : ∀ b : Builder, (settings.foldl set b).brokerUri = b.brokerUri ∧
      (settings.foldl set b).queueName = b.queueName from h _
  induction settings with
  | nil => exact fun b => ⟨rfl, rfl⟩
  | cons s rest ih =>
    intro b
    rw [List.foldl_cons, (ih _).1, (ih _).2]
    exact ⟨b.set_brokerUri s, b.set_queueName s⟩

/-- What settings ask for: the last value of each field, or else its default. The default consumer
tag is made of the queue's name. -/
def requested : Config where
  brokerUri
  queueName
  prefetchCount := (lastValue? .prefetchCount settings).getD defaultPrefetchCount
  deadLetterRoutingKey :=
    (lastValue? .deadLetterRoutingKey settings).getD defaultDeadLetterRoutingKey
  consumerTag := (lastValue? .consumerTag settings).getD (queueName ++ "_rejector")
  pollInterval := (lastValue? .pollInterval settings).getD defaultPollInterval
  reconnectPolicy := (lastValue? .reconnectPolicy settings).getD .default

theorem Builder.filled_ofSettings :
    (ofSettings brokerUri queueName settings).filled
      = requested brokerUri queueName settings := by
  have hvalue := value?_ofSettings brokerUri queueName settings
  obtain ⟨huri, hname⟩ := ofSettings_names brokerUri queueName settings
  ext1
  · exact huri
  · exact hname
  · exact congrArg (Option.getD · _) (hvalue .prefetchCount)
  · exact congrArg (Option.getD · _) (hvalue .deadLetterRoutingKey)
  · rw [requested, ← hvalue .consumerTag]
    simp only [filled, hname]
    rfl
  · exact congrArg (Option.getD · _) (hvalue .pollInterval)
  · exact congrArg (Option.getD · _) (hvalue .reconnectPolicy)

end Settings

/-! ### Conditions -/

/-- What an admissible configuration has to satisfy. -/
inductive Condition where
  | queueName
  | prefetchCount
  | pollInterval
  | consumerTag
  | deadLetterRoutingKey
deriving DecidableEq, Repr

/-- The conditions in the order in which they are looked at. -/
def Condition.inOrder : List Condition :=
  [queueName, prefetchCount, pollInterval, consumerTag, deadLetterRoutingKey]

theorem Condition.mem_inOrder (k : Condition) : k ∈ inOrder := by
  cases k <;> decide

/-- Whether a configuration satisfies a condition. Lengths are those of the octets. -/
def Meets (c : Config) : Condition → Prop
  | .queueName => 1 ≤ c.queueName.utf8ByteSize ∧ c.queueName.utf8ByteSize ≤ 255
  | .prefetchCount => 1 ≤ c.prefetchCount.toNat
  | .pollInterval => c.pollInterval ≠ .zero
  | .consumerTag => c.consumerTag.utf8ByteSize ≤ 255
  | .deadLetterRoutingKey => c.deadLetterRoutingKey.utf8ByteSize ≤ 255

instance (c : Config) : DecidablePred c.Meets
  | .queueName => inferInstanceAs (Decidable (_ ∧ _))
  | .prefetchCount => inferInstanceAs (Decidable (_ ≤ _))
  | .pollInterval => inferInstanceAs (Decidable (_ ≠ _))
  | .consumerTag => inferInstanceAs (Decidable (_ ≤ _))
  | .deadLetterRoutingKey => inferInstanceAs (Decidable (_ ≤ _))

/-- What is wrong with a configuration that does not satisfy a condition. -/
def complaint (c : Config) : Condition → Fault
  | .queueName =>
    if c.queueName = "" then .emptyQueueName else .tooLong .queueName c.queueName.utf8ByteSize
  | .prefetchCount => .zeroPrefetch
  | .pollInterval => .zeroPollInterval
  | .consumerTag => .tooLong .consumerTag c.consumerTag.utf8ByteSize
  | .deadLetterRoutingKey => .tooLong .deadLetterRoutingKey c.deadLetterRoutingKey.utf8ByteSize

variable {c : Config}

/-- The first condition that a configuration does not satisfy. -/
def firstViolated? (c : Config) : Option Condition :=
  Condition.inOrder.find? fun k => ¬ c.Meets k

section Checks

variable {α : Type} (next : Except Fault α)

theorem throw_or {p : Prop} [Decidable p] (fault : Fault) :
    (do
      if p then throw fault
      next) = if ¬ p then next else .error fault := by
  by_cases h : p
  · rw [if_pos h, if_neg (not_not_intro h)]
    rfl
  · rw [if_neg h, if_pos h]

theorem checkShortString_or (what : ShortName) (value : String) :
    (do
      checkShortString what value
      next)
        = if value.utf8ByteSize ≤ 255 then next else .error (.tooLong what value.utf8ByteSize) := by
  rw [checkShortString, maxShortStringBytes]
  by_cases h : value.utf8ByteSize ≤ 255
  · rw [if_neg (Nat.not_lt.mpr h), if_pos h]
    rfl
  · rw [if_pos (Nat.not_le.mp h), if_neg h]
    rfl

end Checks

theorem prefetchCount_ne_zero_iff : ¬ c.prefetchCount = 0 ↔ c.Meets .prefetchCount := by
  rw [Meets, Nat.one_le_iff_ne_zero]
  exact not_congr UInt16.toNat_inj.symm

theorem isZero_pollInterval_iff : ¬ c.pollInterval.isZero = true ↔ c.Meets .pollInterval := by
  rw [Meets, Duration.isZero, beq_iff_eq]
  exact not_congr ⟨fun h => Duration.ext h, fun h => congrArg Duration.nanos h⟩

theorem queueName_ne_empty_iff : ¬ c.queueName.isEmpty = true ↔ 1 ≤ c.queueName.utf8ByteSize := by
  simp [Nat.one_le_iff_ne_zero]

/-- The checks of a builder are the conditions in their order. -/
theorem Builder.build_eq_foldr (b : Builder) :
    b.build = Condition.inOrder.foldr
      (fun k next => if b.filled.Meets k then next else .error (b.filled.complaint k))
      (.ok b.filled) := by
  rw [build]
  simp only [checkShortString_or, throw_or, prefetchCount_ne_zero_iff, isZero_pollInterval_iff,
    queueName_ne_empty_iff, Condition.inOrder, List.foldr]
  generalize b.filled = c
  by_cases hempty : c.queueName = ""
  · simp [hempty, Meets, complaint]
  · have hpos : 1 ≤ c.queueName.utf8ByteSize := by
      simpa [Nat.one_le_iff_ne_zero] using hempty
    simp only [Meets, complaint, hempty, hpos, true_and, if_true, if_false]
    rfl

/-- **Building is looking at the conditions in their order.** -/
theorem Builder.build_eq (b : Builder) :
    b.build = match b.filled.firstViolated? with
      | none => .ok b.filled
      | some k => .error (b.filled.complaint k) := by
  rw [build_eq_foldr, firstViolated?]
  induction Condition.inOrder with
  | nil => rfl
  | cons k rest ih =>
    by_cases hk : b.filled.Meets k
    · simpa [hk] using ih
    · simp [hk]

theorem firstViolated?_eq_none_iff : c.firstViolated? = none ↔ ∀ k, c.Meets k := by
  simp [firstViolated?, Condition.mem_inOrder]

theorem firstViolated?_eq_some_iff {k : Condition} :
    c.firstViolated? = some k ↔ ¬ c.Meets k ∧
      ∃ before after, Condition.inOrder = before ++ k :: after ∧ ∀ k' ∈ before, c.Meets k' := by
  simp [firstViolated?, List.find?_eq_some_iff_append]

/-! ### Settings of different fields -/

theorem Setting.value?_of_ne {s : Setting} {f : Field} (h : s.field ≠ f) : s.value? f = none :=
  dif_neg h

/-- Two settings of different fields say the same in either order. -/
theorem lastValue?_swap {a b : Setting} (h : a.field ≠ b.field) (f : Field)
    (before after : List Setting) :
    lastValue? f (before ++ a :: b :: after) = lastValue? f (before ++ b :: a :: after) := by
  simp only [lastValue?, List.filterMap_append, List.filterMap_cons]
  by_cases ha : a.field = f
  · rw [Setting.value?_of_ne fun hb => h (ha.trans hb.symm)]
  · rw [Setting.value?_of_ne ha]

/-- A builder depends on the last value of each field only. -/
theorem Builder.ofSettings_congr {brokerUri queueName : String} {settings settings' : List Setting}
    (h : ∀ f, lastValue? f settings = lastValue? f settings') :
    ofSettings brokerUri queueName settings = ofSettings brokerUri queueName settings' := by
  obtain ⟨huri, hname⟩ := ofSettings_names brokerUri queueName settings
  obtain ⟨huri', hname'⟩ := ofSettings_names brokerUri queueName settings'
  refine ext_value? (huri.trans huri'.symm) (hname.trans hname'.symm) fun f => ?_
  rw [value?_ofSettings, value?_ofSettings, h]

/-- **Building is exact.** Settings make a configuration if and only if what they ask for meets
every condition, and then it is what they ask for; otherwise the error is that of the first
condition that is not met. Settings of different fields may be exchanged. -/
theorem build_exact (brokerUri queueName : String) (settings : List Setting) :
    let c := requested brokerUri queueName settings
    let result := (Builder.ofSettings brokerUri queueName settings).build.mapError Fault.toError
    (∀ built, result = .ok built ↔ (∀ k, c.Meets k) ∧ built = c) ∧
    (∀ cause, result = .error cause ↔ ∃ k before after,
      Condition.inOrder = before ++ k :: after ∧ (∀ k' ∈ before, c.Meets k') ∧ ¬ c.Meets k ∧
        cause = .invalidConfig (c.complaint k).message) ∧
    ∀ a b : Setting, a.field ≠ b.field → ∀ before after, settings = before ++ a :: b :: after →
      (Builder.ofSettings brokerUri queueName (before ++ b :: a :: after)).build.mapError
        Fault.toError = result := by
  intro c result
  have hresult : result = match c.firstViolated? with
      | none => .ok c
      | some k => .error (.invalidConfig (c.complaint k).message) := by
    dsimp only [result]
    rw [Builder.build_eq, Builder.filled_ofSettings]
    cases c.firstViolated? <;> rfl
  refine ⟨fun built => ?_, fun cause => ?_, ?_⟩
  · rw [hresult, ← firstViolated?_eq_none_iff]
    cases c.firstViolated? <;> simp [eq_comm]
  · have hfirst : result = .error cause ↔
        ∃ k, c.firstViolated? = some k ∧ cause = .invalidConfig (c.complaint k).message := by
      rw [hresult]
      cases c.firstViolated? <;> simp [eq_comm]
    simp only [hfirst, firstViolated?_eq_some_iff]
    constructor
    · rintro ⟨k, ⟨hk, before, after, horder, hbefore⟩, hcause⟩
      exact ⟨k, before, after, horder, hbefore, hk, hcause⟩
    · rintro ⟨k, before, after, horder, hbefore, hk, hcause⟩
      exact ⟨k, ⟨hk, before, after, horder, hbefore⟩, hcause⟩
  · rintro a b h before after rfl
    dsimp only [result]
    rw [Builder.ofSettings_congr fun f => lastValue?_swap h f before after]

/-- A queue's name of 250 octets leaves no room for the default consumer tag. With a tag of its own
the name is admissible, whether the tag is set before the prefetch count or behind it. -/
theorem build_exact_longName :
    let queueName := String.ofList (List.replicate 125 'ü')
    let build := fun settings =>
      (Builder.ofSettings "amqp://localhost" queueName settings).build.mapError Fault.toError
    let tag : Setting := .consumerTag "janitor"
    let count : Setting := .prefetchCount 7
    let c := requested "amqp://localhost" queueName [.prefetchCount 0, tag, count]
    build [.prefetchCount 0, count] = .error (.invalidConfig
      "consumer tag is 259 bytes long, at most 255 are allowed") ∧
    c.prefetchCount = 7 ∧ c.consumerTag = "janitor" ∧ tag.field ≠ count.field ∧
    build [.prefetchCount 0, tag, count] = .ok c ∧
    build [.prefetchCount 0, count, tag] = .ok c := by
  intro queueName build tag count c
  obtain ⟨hok, -, hswap⟩ :=
    build_exact "amqp://localhost" queueName [.prefetchCount 0, tag, count]
  obtain ⟨-, herror, -⟩ := build_exact "amqp://localhost" queueName [.prefetchCount 0, count]
  have hfield : tag.field ≠ count.field := by decide
  have hmeets : ∀ k, c.Meets k := fun k => by cases k <;> decide +kernel
  have hbuilt : build [.prefetchCount 0, tag, count] = .ok c := (hok c).mpr ⟨hmeets, rfl⟩
  refine ⟨(herror _).mpr ?_, rfl, rfl, hfield, hbuilt, ?_⟩
  · exact ⟨.consumerTag, [.queueName, .prefetchCount, .pollInterval], [.deadLetterRoutingKey], rfl,
      by decide +kernel, by decide +kernel, by decide +kernel⟩
  · exact (hswap tag count hfield [.prefetchCount 0] [] rfl).trans hbuilt

end Config

end QueueDrain
