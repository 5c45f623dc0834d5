import QueueDrain.Report
import QueueDrain.Proofs.Instants
import QueueDrain.Proofs.Records

/-!
# Reports in texts

The text of a report is one line of JSON, and nothing of the report is lost in it: whoever reads the
members of the object, each as what it is, has the report again. Queue and endpoint may be any
texts, so what a literal denotes matters as well as that it is one; times may be of any year and
leap seconds, so they are read by the rules of the calendar. Only a leap second that ends no minute
cannot be told from the second behind it.

## Main definitions

* `Report.Fits` — the counters of a report are words
* `Report.IsNormal`, `Report.normal` — a report whose leap seconds end minutes
* `Report.record`, `Report.ofJson` — the report of a text

## Main results

* `Report.json_lossless` — the text of a report is printable JSON and is read as the report
* `Report.json_of_misplaced` — a leap second elsewhere is written like the second behind it
-/

namespace QueueDrain

open Json

/-! ### Printable texts -/

namespace Json

/-- A text without control characters. -/
def IsPrinted (cs : List Char) : Prop := ∀ c ∈ cs, 32 ≤ c.toNat

instance (cs : List Char) : Decidable (IsPrinted cs) := List.decidableBAll _ cs

theorem isPrinted_append {cs cs' : List Char} :
    IsPrinted (cs ++ cs') ↔ IsPrinted cs ∧ IsPrinted cs' := List.forall_mem_append

theorem isPrinted_cons {c : Char} {cs : List Char} :
    IsPrinted (c :: cs) ↔ 32 ≤ c.toNat ∧ IsPrinted cs := List.forall_mem_cons

theorem isPrinted_nil : IsPrinted [] := List.forall_mem_nil _

theorem isPrinted_isHex {digits : List Char} {n : Nat} (h : IsHex digits n) :
    IsPrinted digits := by
  have hdigit {c : Char} {k : Nat} (hc : Percent.hexValue? c = some k) : 32 ≤ c.toNat := by
    unfold Percent.hexValue? at hc
    split_ifs at hc with hdecimal hupper hlower
    · exact Nat.le_trans (by decide) hdecimal.1
    · exact Nat.le_trans (by decide) hupper.1
    · exact Nat.le_trans (by decide) hlower.1
  obtain ⟨ha, hb, hc, hd⟩ := h
  simp only [isPrinted_cons]
  exact ⟨hdigit ha, hdigit hb, hdigit hc, hdigit hd, isPrinted_nil⟩

/-- A string of the grammar has no control characters, whatever it denotes. -/
theorem IsLiteral.isPrinted {literal : List Char} (h : IsLiteral literal) : IsPrinted literal := by
  obtain ⟨pieces, hpieces, rfl⟩ := h
  have hletters : ∀ p ∈ escapeLetters, 32 ≤ p.1.toNat := by decide
  have hflatten : IsPrinted pieces.flatten := by
    intro c hc
    obtain ⟨piece, hmem, hc⟩ := List.mem_flatten.mp hc
    suffices hpiece : IsPrinted piece from hpiece c hc
    cases hpieces piece hmem with
    | plain h => exact isPrinted_cons.mpr ⟨h.2.2, isPrinted_nil⟩
    | letter h =>
      exact isPrinted_cons.mpr ⟨by decide, isPrinted_cons.mpr ⟨hletters _ h, isPrinted_nil⟩⟩
    | code h =>
      exact isPrinted_cons.mpr ⟨by decide, isPrinted_cons.mpr ⟨by decide, isPrinted_isHex h⟩⟩
  exact isPrinted_cons.mpr ⟨by decide,
    isPrinted_append.mpr ⟨hflatten, isPrinted_cons.mpr ⟨by decide, isPrinted_nil⟩⟩⟩

theorem isPrinted_digits (n : Nat) : IsPrinted (Decimal.digits n) := fun _ hc =>
  Nat.le_trans (by decide) (Decimal.isDigit_of_mem_digits hc).1

/-- Texts with commas between them are printed if the texts are. -/
theorem isPrinted_intercalate {texts : List (List Char)} (h : ∀ text ∈ texts, IsPrinted text) :
    IsPrinted (List.intercalate [','] texts) := by
  cases texts with
  | nil => exact isPrinted_nil
  | cons text texts =>
    rw [intercalate_cons, isPrinted_append]
    refine ⟨h text List.mem_cons_self, fun c hc => ?_⟩
    obtain ⟨next, hnext, hc⟩ := List.mem_flatMap.mp hc
    exact isPrinted_cons.mpr ⟨by decide, h next (List.mem_cons_of_mem text hnext)⟩ c hc

/-- The digits of a number are a number of the grammar. -/
theorem Number.isNumber_digits (n : Nat) : IsNumber (Decimal.digits n) := by
  obtain ⟨d, ds, hdigits, hd, hds, -, hzero⟩ := Number.digits_eq_cons n
  have hwhole : IsWhole (Decimal.digits n) := by
    rw [hdigits]
    refine ⟨⟨List.cons_ne_nil _ _, List.forall_mem_cons.mpr ⟨isDigit_digitChar d, hds⟩⟩,
      fun hhead => ?_⟩
    -- the digit zero is that of the number zero
    have hchar : Decimal.digitChar d = '0' := by simpa using hhead
    have hvalue : d = 0 := by
      have hall : ∀ k : Fin 10, Decimal.digitChar k = '0' → (k : Nat) = 0 := by decide
      exact hall ⟨d, hd⟩ hchar
    rw [hzero hvalue, hchar]
  exact ⟨[], Decimal.digits n, [], [], .inl rfl, hwhole, .inl rfl, .inl rfl, by simp⟩

/-! ### Strings and words -/

/-- A string. -/
def readString (cs : List Char) : Reading String :=
  match skipBlanks cs with
  | [] => stopAt .unfinishedValue []
  | c :: rest =>
    if c = '"' then (Quoted.read rest).map fun (text, rest) => (String.ofList text, rest)
    else .error (wrongType "a string" (c :: rest))

/-- A natural number up to `limit`, or nothing. -/
def readOptional (expected : String) (limit : Nat) (cs : List Char) : Reading (Option Nat) :=
  match skipBlanks cs with
  | 'n' :: rest => (skipWord "ull".toList rest).map (none, ·)
  | cs => (readNatural expected limit cs).map fun (n, rest) => (some n, rest)

/-- The text of a number or of nothing. -/
def optionalText : Option Nat → List Char
  | some n => Decimal.digits n
  | none => "null".toList

/-- **A string is read as what it denotes.** -/
theorem readsAs_string {literal : List Char} {text : String} (h : Denotes literal text.toList) :
    ReadsAs readString literal text := by
  intro ws rest hws _
  obtain ⟨body, hbody, hread⟩ := Quoted.read_denotes h rest
  rw [hbody, readString, skipBlanks_of_isBlanks hws (by decide)]
  simp only [if_true, hread, Except.map, String.ofList_toList]

/-- A word or the digits of a number are read as nothing or as the number. -/
theorem readsAs_optional (expected : String) {limit : Nat} (n : Option Nat)
    (hn : ∀ k, n = some k → k ≤ limit) (hlimit : limit ≤ Number.significandLimit) :
    ReadsAs (readOptional expected limit) (optionalText n) n := by
  intro ws rest hws hrest
  cases n with
  | none =>
    have htext : ws ++ (optionalText none ++ rest) = ws ++ 'n' :: ("ull".toList ++ rest) := rfl
    rw [htext, readOptional, skipBlanks_of_isBlanks hws (by decide)]
    rfl
  | some k =>
    have hread := readsAs_natural expected (hn k rfl) hlimit [] rest isBlanks_nil hrest
    obtain ⟨d, ds, hdigits, hd, -⟩ := Number.digits_eq_cons k
    have hdigit := Number.isDigit_digitChar d
    have hne : Decimal.digitChar d ≠ 'n' := fun h => absurd (h ▸ hdigit) (by decide)
    rw [hdigits, List.cons_append] at hread
    rw [optionalText, hdigits, List.cons_append]
    rw [readOptional, skipBlanks_of_isBlanks hws (Number.ne_delimiter hdigit).1]
    split
    next heq => exact absurd (List.cons.inj heq).1 hne
    next =>
      rw [List.nil_append] at hread
      rw [hread]
      rfl

end Json

/-! ### Reading a report -/

namespace Report

/-- The parts of a report that are known. -/
structure Parts where
  queue : Option String := none
  endpoint : Option String := none
  outcome : Option String := none
  rejected : Option Nat := none
  polls : Option Nat := none
  reconnects : Option Nat := none
  lastMessageCount : Option (Option Nat) := none
  startedAt : Option String := none
  finishedAt : Option String := none

/-- A field of a report: how its value is read, and where it is kept. -/
def field {β : Type} (name : String) (read : List Char → Reading β) (get : Parts → Option β)
    (set : Parts → β → Parts) : Json.Field Parts where
  name := name
  isKnown := fun parts => (get parts).isSome
  read := fun parts cs => (read cs).map fun (value, rest) => (set parts value, rest)

/-- The outcome of its name. -/
def outcome? (text : String) : Option Outcome :=
  [Outcome.drained, Outcome.interrupted].find? fun outcome => outcome.json == text

/-- The report of the parts, if the names in them have a meaning. -/
def Parts.report? (parts : Parts) : Option Report := do
  let outcome ← outcome? (← parts.outcome)
  let startedAt ← Timestamp.ofText? (← parts.startedAt).toList
  let finishedAt ← Timestamp.ofText? (← parts.finishedAt).toList
  some
    { queue := ← parts.queue
      endpoint := ← parts.endpoint
      outcome := outcome
      rejected := ← parts.rejected
      polls := ← parts.polls
      reconnects := ← parts.reconnects
      lastMessageCount := ← parts.lastMessageCount
      startedAt := startedAt
      finishedAt := finishedAt }

/-- A report in JSON. -/
def record : Record Parts Report where
  fields :=
    [field "queue" readString (·.queue) fun parts text => { parts with queue := some text },
     field "endpoint" readString (·.endpoint)
       fun parts text => { parts with endpoint := some text },
     field "outcome" readString (·.outcome) fun parts text => { parts with outcome := some text },
     field "rejected" (readNatural "u64" 18446744073709551615) (·.rejected)
       fun parts n => { parts with rejected := some n },
     field "polls" (readNatural "u64" 18446744073709551615) (·.polls)
       fun parts n => { parts with polls := some n },
     field "reconnects" (readNatural "u32" 4294967295) (·.reconnects)
       fun parts n => { parts with reconnects := some n },
     field "last_message_count" (readOptional "u32" 4294967295) (·.lastMessageCount)
       fun parts n => { parts with lastMessageCount := some n },
     field "started_at" readString (·.startedAt)
       fun parts text => { parts with startedAt := some text },
     field "finished_at" readString (·.finishedAt)
       fun parts text => { parts with finishedAt := some text }]
  nothing := {}
  complete := fun parts =>
    match parts.report? with
    | some r => .ok r
    | none => .error .noValue
  expected := "a report"
  expectedArray := "a report"
  isOpen := false

/-- A report, or nothing if it is none. -/
theorem conclude_record {parts : Parts} {r : Report}
    (hfind : (record.fields.find? fun field => !field.isKnown parts) = none)
    (h : parts.report? = some r) : record.conclude parts = .ok r := by
  have hcomplete : record.complete = fun parts =>
      match parts.report? with
      | some r => .ok r
      | none => .error .noValue := rfl
  rw [Record.conclude_of_known hfind, hcomplete]
  simp only [h]

/-- The report of a text in JSON. -/
def ofJson (text : String) : Except Fault Report := readAll record.read text

/-! ### Reading a report back -/

/-- The counters of a report are words of 64 and of 32 bits. -/
def Fits (r : Report) : Prop :=
  r.rejected < 18446744073709551616 ∧ r.polls < 18446744073709551616 ∧
    r.reconnects < 4294967296 ∧ ∀ n, r.lastMessageCount = some n → n < 4294967296

/-- Leap seconds of the report end minutes. -/
def IsNormal (r : Report) : Prop := r.startedAt.IsNormal ∧ r.finishedAt.IsNormal

/-- The report with its times in their normal form. -/
def normal (r : Report) : Report :=
  { r with startedAt := r.startedAt.normal, finishedAt := r.finishedAt.normal }

theorem normal_of_isNormal {r : Report} (h : r.IsNormal) : r.normal = r := by
  rw [normal, Timestamp.normal_of_isNormal h.1, Timestamp.normal_of_isNormal h.2]

/-- **The text of a report shows its times in their normal form.** -/
theorem json_normal (r : Report) : r.normal.json = r.json := by
  have hmembers : r.normal.members = r.members := by
    simp only [members, normal, Timestamp.text_normal]
  rw [json, json, hmembers]

/-- The members of a report, in order. -/
def written (r : Report) : List Member :=
  [.bare "queue" (Quoted.encode r.queue.toList),
    .bare "endpoint" (Quoted.encode r.endpoint.toList),
    .bare "outcome" (Quoted.encode r.outcome.json.toList),
    .bare "rejected" (Decimal.digits r.rejected),
    .bare "polls" (Decimal.digits r.polls),
    .bare "reconnects" (Decimal.digits r.reconnects),
    .bare "last_message_count" (optionalText r.lastMessageCount),
    .bare "started_at" (Quoted.encode r.startedAt.text),
    .bare "finished_at" (Quoted.encode r.finishedAt.text)]

/-- The text of a report is an object without blanks. -/
theorem toList_json (r : Report) : r.json.toList = objectText [] r.written := by
  have htexts : r.written.map Member.text = r.members := by
    simp only [written, members, member, List.map_cons, List.map_nil, Member.text_bare,
      List.append_assoc, List.singleton_append]
    rfl
  rw [json, String.toList_ofList, objectText, htexts]
  rfl

/-- What is known when all the members have been read. -/
def parts (r : Report) : Parts where
  queue := some r.queue
  endpoint := some r.endpoint
  outcome := some r.outcome.json
  rejected := some r.rejected
  polls := some r.polls
  reconnects := some r.reconnects
  lastMessageCount := some r.lastMessageCount
  startedAt := some (String.ofList r.startedAt.text)
  finishedAt := some (String.ofList r.finishedAt.text)

theorem outcome?_json (o : Outcome) : outcome? o.json = some o := by
  cases o <;> decide

theorem report?_parts (r : Report) : r.parts.report? = some r.normal := by
  simp only [Parts.report?, parts, Option.bind_eq_bind, Option.bind_some, outcome?_json,
    String.toList_ofList, Timestamp.ofText?_text, normal]

/-- A field that is not known yet is taken. -/
theorem takes_field {β : Type} {name : String} {core : List Char} {value : β} {known : Parts}
    {read : List Char → Reading β} {get : Parts → Option β} {set : Parts → β → Parts}
    (hread : ReadsAs read core value) (hfield : record.field? name = some (field name read get set))
    (hknown : (get known).isSome = false) :
    record.Takes known (.bare name core) (set known value) :=
  Record.takes_field (Member.isNamed_bare name core) hfield hknown (hread.map (set known))

theorem gathers_written {r : Report} (h : r.Fits) :
    record.Gathers record.nothing r.written r.parts := by
  obtain ⟨hrejected, hpolls, hreconnects, hlast⟩ := h
  have hstring (text : String) := readsAs_string (Quoted.denotes_encode text.toList)
  have htime (t : Timestamp) : ReadsAs readString (Quoted.encode t.text) (String.ofList t.text) :=
    readsAs_string (by rw [String.toList_ofList]; exact Quoted.denotes_encode t.text)
  have hcounter (n : Nat) (hn : n < 18446744073709551616) :=
    readsAs_natural "u64" (Nat.le_of_lt_succ hn) (by decide)
  have hattempts := readsAs_natural "u32" (Nat.le_of_lt_succ hreconnects) (by decide)
  have hcount := readsAs_optional "u32" r.lastMessageCount
    (fun n hn => Nat.le_of_lt_succ (hlast n hn)) (by decide)
  refine .cons (takes_field (hstring r.queue) rfl rfl) ?_
  refine .cons (takes_field (hstring r.endpoint) rfl rfl) ?_
  refine .cons (takes_field (hstring r.outcome.json) rfl rfl) ?_
  refine .cons (takes_field (hcounter r.rejected hrejected) rfl rfl) ?_
  refine .cons (takes_field (hcounter r.polls hpolls) rfl rfl) ?_
  refine .cons (takes_field hattempts rfl rfl) ?_
  refine .cons (takes_field hcount rfl rfl) ?_
  refine .cons (takes_field (htime r.startedAt) rfl rfl) ?_
  refine .cons (takes_field (htime r.finishedAt) rfl rfl) ?_
  exact .nil

/-- The members of a report are values of the grammar without control characters. -/
theorem exists_of_mem_written {r : Report} {m : Member} (h : m ∈ r.written) :
    ∃ name core, m = .bare name core ∧ IsValue core ∧ IsPrinted core := by
  have hliteral (cs : List Char) : IsValue (Quoted.encode cs) ∧ IsPrinted (Quoted.encode cs) :=
    have hliteral := (Quoted.denotes_encode cs).isLiteral
    ⟨.string hliteral, hliteral.isPrinted⟩
  have hnumber (n : Nat) : IsValue (Decimal.digits n) ∧ IsPrinted (Decimal.digits n) :=
    ⟨.number (Number.isNumber_digits n), isPrinted_digits n⟩
  have hoptional (n : Option Nat) : IsValue (optionalText n) ∧ IsPrinted (optionalText n) := by
    cases n with
    | none => exact ⟨.word (.inl rfl), show IsPrinted "null".toList by decide⟩
    | some n => exact hnumber n
  simp only [written, List.mem_cons, List.not_mem_nil, or_false] at h
  rcases h with rfl | rfl | rfl | rfl | rfl | rfl | rfl | rfl | rfl
  · exact ⟨_, _, rfl, hliteral _⟩
  · exact ⟨_, _, rfl, hliteral _⟩
  · exact ⟨_, _, rfl, hliteral _⟩
  · exact ⟨_, _, rfl, hnumber _⟩
  · exact ⟨_, _, rfl, hnumber _⟩
  · exact ⟨_, _, rfl, hnumber _⟩
  · exact ⟨_, _, rfl, hoptional _⟩
  · exact ⟨_, _, rfl, hliteral _⟩
  · exact ⟨_, _, rfl, hliteral _⟩

/-- The text of a report is a value of the grammar. -/
theorem isValue_json (r : Report) : IsValue r.json.toList := by
  rw [toList_json]
  refine .object isBlanks_nil (fun m hm => ?_) fun m hm => ?_
  · obtain ⟨name, core, rfl, -⟩ := exists_of_mem_written hm
    exact (Quoted.denotes_encode name.toList).isLiteral
  · obtain ⟨name, core, rfl, hcore, -⟩ := exists_of_mem_written hm
    exact hcore

/-- The text of a report has no control characters, line breaks in particular. -/
theorem isPrinted_json (r : Report) : IsPrinted r.json.toList := by
  have hmembers : IsPrinted (List.intercalate [','] (r.written.map Member.text)) := by
    refine isPrinted_intercalate fun text htext => ?_
    obtain ⟨m, hm, rfl⟩ := List.mem_map.mp htext
    obtain ⟨name, core, rfl, -, hcore⟩ := exists_of_mem_written hm
    rw [Member.text_bare, isPrinted_append, isPrinted_cons]
    exact ⟨(Quoted.denotes_encode name.toList).isLiteral.isPrinted, by decide, hcore⟩
  rw [toList_json, objectText, bracketed, isPrinted_cons, List.nil_append, isPrinted_append,
    isPrinted_cons]
  exact ⟨by decide, hmembers, by decide, isPrinted_nil⟩

/-- The text of a report is read as the report, with its times in their normal form. -/
theorem ofJson_json {r : Report} (h : r.Fits) : ofJson r.json = .ok r.normal := by
  have hconclude : record.conclude r.parts = .ok r.normal := conclude_record rfl r.report?_parts
  have hread := Record.readsAs_object (gathers_written h) hconclude isBlanks_nil [] []
    isBlanks_nil isDelimited_nil
  rw [List.nil_append, ← toList_json] at hread
  have hall := readAll_ok hread isBlanks_nil
  rwa [List.append_nil, String.ofList_toList] at hall

/-- **The text of a report loses nothing.** It is printable, so it is one line; it is a value of the
grammar; and it is read as the report, so that another report has another text, as long as leap
seconds end minutes. For all the others it is read as the report with the seconds behind them. -/
theorem json_lossless {r : Report} (h : r.Fits) :
    IsPrinted r.json.toList ∧ IsValue r.json.toList ∧
      (r.IsNormal → ofJson r.json = .ok r ∧
        ∀ r' : Report, r'.Fits → r'.IsNormal → (r'.json = r.json ↔ r' = r)) ∧
      ofJson r.json = .ok r.normal ∧
      ∀ r' : Report, r'.Fits → (r'.json = r.json ↔ r'.normal = r.normal) := by
  have hjson : ∀ r' : Report, r'.Fits → (r'.json = r.json ↔ r'.normal = r.normal) := by
    refine fun r' h' => ⟨fun hjson => ?_, fun hnormal => ?_⟩
    · have hread := ofJson_json h'
      rw [hjson, ofJson_json h] at hread
      exact (Except.ok.inj hread).symm
    · rw [← json_normal r', hnormal, json_normal]
  refine ⟨r.isPrinted_json, r.isValue_json, fun hr => ?_, ofJson_json h, hjson⟩
  refine ⟨(ofJson_json h).trans (congrArg Except.ok (normal_of_isNormal hr)), fun r' h' hr' => ?_⟩
  rw [hjson r' h', normal_of_isNormal hr, normal_of_isNormal hr']

/-- A report of a queue whose name has to be escaped, with counters at their limits, from before the
year zero to a leap second of a year of six digits. -/
def farReaching : Report where
  queue := "a\"\\\n\x01é"
  endpoint := "amqp://broker"
  outcome := .interrupted
  rejected := 18446744073709551615
  polls := 18446744073709551615
  reconnects := 4294967295
  lastMessageCount := some 4294967295
  startedAt := ⟨-8334601228800, 1, by decide, by decide, by decide⟩
  finishedAt := ⟨8210266876799, 1999999999, by decide, by decide, by decide⟩

theorem json_lossless_farReaching :
    farReaching.Fits ∧ farReaching.IsNormal ∧ ofJson farReaching.json = .ok farReaching := by
  have hfits : farReaching.Fits := by
    refine ⟨by decide, by decide, by decide, ?_⟩
    rintro n ⟨⟩
    decide
  have hnormal : farReaching.IsNormal := ⟨.inl (by decide), .inr (by decide)⟩
  exact ⟨hfits, hnormal, ((json_lossless hfits).2.2.1 hnormal).1⟩

/-- A report that begins in a leap second behind 23:56:04. -/
def misplaced : Report where
  queue := "orders.dlq"
  endpoint := "amqp://broker"
  outcome := .drained
  rejected := 1
  polls := 1
  reconnects := 0
  lastMessageCount := some 0
  startedAt := ((Timestamp.ofParts? 1767311764 0).bind (·.withNanos? 1333333333)).getD .epoch
  finishedAt := (Timestamp.ofParts? 1767311825 0).getD .epoch

/-- Its text is that of another report, which begins at 23:56:05 and a third. -/
theorem json_of_misplaced :
    (Timestamp.ofParts? 1767311764 0).bind (·.withNanos? 1333333333)
      = some misplaced.startedAt ∧
    misplaced.Fits ∧ misplaced.normal.Fits ∧ misplaced.normal ≠ misplaced ∧
    misplaced.normal.startedAt.secs = 1767311765 ∧
    misplaced.normal.startedAt.nanos = 333333333 ∧
    misplaced.normal.json = misplaced.json := by
  have hfits : misplaced.Fits := by
    refine ⟨by decide, by decide, by decide, ?_⟩
    rintro n ⟨⟩
    decide
  have hne : misplaced.normal ≠ misplaced := fun h =>
    absurd (congrArg (·.startedAt.nanos) h) (by decide)
  exact ⟨by decide, hfits, hfits, hne, by decide, by decide, json_normal misplaced⟩

end Report

end QueueDrain
