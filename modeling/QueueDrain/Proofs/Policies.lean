import Mathlib.Data.List.Perm.Basic
import QueueDrain.Backoff.Json
import QueueDrain.Proofs.Records

/-!
# Policies in texts

A text that is an object says something of a policy with each of its members: one of the three
fields, or something else that no field is. The layout of the text is free. The members stand in any
order, blanks stand wherever JSON allows them, a key may be spelled with escapes, and what no field
is may be any value. What matters is which of the fields are said and how often: a text is read as a
policy exactly if it says each field of that policy once, and it is rejected if it leaves a field
out or says one again.

## Main definitions

* `Duration.IsWritten` — the objects that say a duration
* `Backoff.Policy.Entry` — what a member of an object says of a policy
* `Backoff.Policy.IsWritten` — the texts that say entries, one after the other
* `Backoff.Policy.entries` — what says a policy

## Main results

* `Backoff.Policy.isWritten_json` — the text of a policy says the policy
* `Backoff.Policy.ofJson_written` — what a text is read as
-/

namespace QueueDrain

open Json

/-! ### Durations -/

namespace Duration

/-- An object says a duration with the two parts of it, in either order. -/
def IsWritten (d : Duration) (core : List Char) : Prop :=
  ∃ ws secs nanos ms, IsBlanks ws ∧ secs.Counts "secs" d.secs ∧
    nanos.Counts "nanos" d.subsecNanos ∧ (ms = [secs, nanos] ∨ ms = [nanos, secs]) ∧
    core = objectText ws ms

/-- A part that is not known counts as zero, and too many seconds are refused. -/
theorem complete_eq : record.complete = fun parts =>
    match ofParts? (parts.secs.getD 0) (parts.nanos.getD 0) with
    | some d => .ok d
    | none => .error .durationTooLong :=
  rfl

/-- Two parts make the duration that they are the parts of. -/
theorem conclude_parts {parts : Parts} {secs nanos : Nat} {d : Duration}
    (hsecs : parts.secs = some secs) (hnanos : parts.nanos = some nanos)
    (h : ofParts? secs nanos = some d) : record.conclude parts = .ok d := by
  have hfind : (record.fields.find? fun field => !field.isKnown parts) = none := by
    simp [record, hsecs, hnanos]
  rw [Record.conclude_of_known hfind, complete_eq]
  simp only [hsecs, hnanos, Option.getD_some, h]

/-- **A duration that an object says is read.** -/
theorem readsAs_isWritten {d : Duration} {core : List Char} (h : d.IsWritten core) :
    ReadsAs record.read core d := by
  obtain ⟨ws, secs, nanos, ms, hws, hsecs, hnanos, hms, rfl⟩ := h
  have hsecsLimit : d.secs ≤ 18446744073709551615 := by
    have := d.secs_lt
    omega
  have hnanosLimit : d.subsecNanos ≤ 4294967295 := by
    have := d.subsecNanos_lt
    omega
  have htakesSecs (known : Parts) (h : known.secs.isSome = false) :
      record.Takes known secs { known with secs := some d.secs } :=
    Record.takes_natural "u64" 18446744073709551615 (fun n => { known with secs := some n })
      hsecs rfl rfl h hsecsLimit (by decide)
  have htakesNanos (known : Parts) (h : known.nanos.isSome = false) :
      record.Takes known nanos { known with nanos := some d.subsecNanos } :=
    Record.takes_natural "u32" 4294967295 (fun n => { known with nanos := some n })
      hnanos rfl rfl h hnanosLimit (by decide)
  have hgathers : record.Gathers record.nothing ms ⟨some d.secs, some d.subsecNanos⟩ := by
    rcases hms with rfl | rfl
    · exact .cons (htakesSecs _ rfl) (.cons (htakesNanos _ rfl) .nil)
    · exact .cons (htakesNanos _ rfl) (.cons (htakesSecs _ rfl) .nil)
  exact Record.readsAs_object hgathers (conclude_parts rfl rfl d.ofParts?_secs_subsecNanos) hws

/-- The text of a duration says the duration. -/
theorem isWritten_json (d : Duration) : d.IsWritten d.json.toList := by
  refine ⟨[], .bare "secs" (Decimal.digits d.secs), .bare "nanos" (Decimal.digits d.subsecNanos), _,
    isBlanks_nil, Member.counts_bare _ _, Member.counts_bare _ _, .inl rfl, ?_⟩
  simp [json, objectText, bracketed, Member.text_bare, Decimal.text, Bracket.opening,
    Bracket.closing, Quoted.encode, Quoted.escape]

end Duration

namespace Backoff

namespace Policy

/-! ### What a text says -/

/-- What a member of an object says of a policy. -/
inductive Entry where
  | initialDelay (d : Duration)
  | maxDelay (d : Duration)
  | multiplier (k : UInt32)
  /-- Something that is no field. -/
  | other (name : String)
deriving DecidableEq

/-- The name that an entry goes by. -/
def Entry.name : Entry → String
  | initialDelay _ => "initial_delay"
  | maxDelay _ => "max_delay"
  | multiplier _ => "multiplier"
  | other name => name

/-- The names of the fields. -/
def fieldNames : List String := ["initial_delay", "max_delay", "multiplier"]

/-- A member says an entry. -/
def Entry.IsWritten (e : Entry) (m : Member) : Prop :=
  match e with
  | initialDelay d => m.IsNamed "initial_delay" ∧ d.IsWritten m.value.core
  | maxDelay d => m.IsNamed "max_delay" ∧ d.IsWritten m.value.core
  | multiplier k => m.Counts "multiplier" k.toNat
  | other name => m.IsNamed name ∧ name ∉ fieldNames ∧ IsValue m.value.core

/-- A text says entries: it is an object with a member for each of them, one after the other, and
blanks around it. -/
def IsWritten (es : List Entry) (text : String) : Prop :=
  ∃ ws ws' ws'' ms, IsBlanks ws ∧ IsBlanks ws' ∧ IsBlanks ws'' ∧
    List.Forall₂ Entry.IsWritten es ms ∧ text.toList = ws ++ (objectText ws' ms ++ ws'')

/-- The entries that say a field. -/
def fields (es : List Entry) : List Entry := es.filter (·.name ∈ fieldNames)

/-- How often a name occurs. -/
def occurrences (name : String) (es : List Entry) : Nat := (es.map Entry.name).count name

/-- What says a policy. -/
def entries (p : Policy) : List Entry :=
  [.initialDelay p.initialDelay, .maxDelay p.maxDelay, .multiplier p.multiplier]

/-- What stands between the values of three members makes an object of them. -/
theorem toList_members {a b c d x y z : String} {first second third : String} {core : List Char}
    (ha : a.toList = '\x7b' :: (Quoted.encode first.toList ++ [':']))
    (hb : b.toList = ',' :: (Quoted.encode second.toList ++ [':']))
    (hc : c.toList = ',' :: (Quoted.encode third.toList ++ [':'])) (hd : d.toList = ['\x7d'])
    (hz : z.toList = core) :
    (a ++ x ++ b ++ y ++ c ++ z ++ d).toList = objectText []
      [.bare first x.toList, .bare second y.toList, .bare third core] := by
  simp only [String.toList_append, ha, hb, hc, hd, hz, objectText, bracketed, List.map_cons,
    List.map_nil, intercalate_cons, List.flatMap_cons, List.flatMap_nil, Member.text_bare,
    Bracket.opening, Bracket.closing, List.cons_append, List.append_assoc, List.nil_append,
    List.append_nil]

theorem toList_json (p : Policy) : p.json.toList = objectText []
    [.bare "initial_delay" p.initialDelay.json.toList, .bare "max_delay" p.maxDelay.json.toList,
      .bare "multiplier" (Decimal.digits p.multiplier.toNat)] :=
  toList_members (by decide) (by decide) (by decide) (by decide) String.toList_ofList

/-- **The text of a policy says the policy.** -/
theorem isWritten_json (p : Policy) : IsWritten p.entries p.json := by
  refine ⟨[], [], [], _, isBlanks_nil, isBlanks_nil, isBlanks_nil, ?_,
    by rw [List.nil_append, List.append_nil, toList_json]⟩
  exact .cons ⟨Member.isNamed_bare _ _, p.initialDelay.isWritten_json⟩
    (.cons ⟨Member.isNamed_bare _ _, p.maxDelay.isWritten_json⟩
      (.cons (Member.counts_bare _ _) .nil))

/-! ### What reading knows -/

/-- The entries that are known. -/
def Parts.entries (parts : Parts) : List Entry :=
  parts.initialDelay.toList.map .initialDelay ++ parts.maxDelay.toList.map .maxDelay
    ++ parts.multiplier.toList.map fun k => .multiplier (UInt32.ofNat k)

/-- What is known with another entry. -/
def Parts.add (parts : Parts) : Entry → Parts
  | .initialDelay d => { parts with initialDelay := some d }
  | .maxDelay d => { parts with maxDelay := some d }
  | .multiplier k => { parts with multiplier := some k.toNat }
  | .other _ => parts

/-- The names of what is known. -/
def Parts.names (parts : Parts) : List String := parts.entries.map Entry.name

theorem Parts.names_eq (parts : Parts) : parts.names =
    (if parts.initialDelay.isSome then ["initial_delay"] else [])
      ++ (if parts.maxDelay.isSome then ["max_delay"] else [])
      ++ (if parts.multiplier.isSome then ["multiplier"] else []) := by
  obtain ⟨initialDelay, maxDelay, multiplier⟩ := parts
  cases initialDelay <;> cases maxDelay <;> cases multiplier <;> rfl

theorem Parts.nodup_names (parts : Parts) : parts.names.Nodup := by
  rw [names_eq]
  cases parts.initialDelay.isSome <;> cases parts.maxDelay.isSome <;>
    cases parts.multiplier.isSome <;> decide

theorem Parts.mem_fieldNames {parts : Parts} {name : String} (h : name ∈ parts.names) :
    name ∈ fieldNames := by
  revert name
  show ∀ name ∈ parts.names, name ∈ fieldNames
  rw [names_eq]
  cases parts.initialDelay.isSome <;> cases parts.maxDelay.isSome <;>
    cases parts.multiplier.isSome <;> decide

/-- A field of which something is known is one that the record knows. -/
theorem exists_known {parts : Parts} {name : String} (h : name ∈ parts.names) :
    ∃ field, record.field? name = some field ∧ field.isKnown parts = true := by
  have hname := Parts.mem_fieldNames h
  rw [Parts.names_eq] at h
  simp only [fieldNames, List.mem_cons, List.not_mem_nil, or_false] at hname
  rcases hname with rfl | rfl | rfl
  · exact ⟨_, rfl, show parts.initialDelay.isSome = true by simpa using h⟩
  · exact ⟨_, rfl, show parts.maxDelay.isSome = true by simpa using h⟩
  · exact ⟨_, rfl, show parts.multiplier.isSome = true by simpa using h⟩

/-- A name that is no field's is none that the record knows. -/
theorem field?_eq_none {name : String} (h : name ∉ fieldNames) : record.field? name = none := by
  have hnames : record.fields.map (·.name) = fieldNames := rfl
  rw [Record.field?, List.find?_eq_none]
  intro field hfield hname
  rw [← hnames, ← eq_of_beq hname] at h
  exact h (List.mem_map_of_mem hfield)

/-- **An entry that is new is taken.** -/
theorem takes_entry {e : Entry} {m : Member} {parts : Parts} (h : e.IsWritten m)
    (hnew : e.name ∉ parts.names) : record.Takes parts m (parts.add e) := by
  rw [Parts.names_eq] at hnew
  cases e with
  | initialDelay d =>
    have hnone : parts.initialDelay.isSome = false := by simpa [Entry.name] using hnew
    exact Record.takes_field h.1 rfl hnone
      ((Duration.readsAs_isWritten h.2).map fun d => { parts with initialDelay := some d })
  | maxDelay d =>
    have hnone : parts.maxDelay.isSome = false := by simpa [Entry.name] using hnew
    exact Record.takes_field h.1 rfl hnone
      ((Duration.readsAs_isWritten h.2).map fun d => { parts with maxDelay := some d })
  | multiplier k =>
    have hnone : parts.multiplier.isSome = false := by simpa [Entry.name] using hnew
    exact Record.takes_natural (r := record) (n := k.toNat) "u32" 4294967295
      (fun n => { parts with multiplier := some n }) h rfl rfl hnone
      (Nat.le_of_lt_succ k.toNat_lt) (by decide)
  | other name => exact Record.takes_other h.1 (field?_eq_none h.2.1) rfl h.2.2

/-- What is known then is the entry, if it says a field, and what was known. -/
theorem entries_add {e : Entry} {m : Member} {parts : Parts} (h : e.IsWritten m)
    (hnew : e.name ∉ parts.names) :
    (parts.add e).entries.Perm (fields [e] ++ parts.entries) := by
  obtain ⟨initialDelay, maxDelay, multiplier⟩ := parts
  rw [Parts.names_eq] at hnew
  cases e with
  | initialDelay d =>
    obtain rfl : initialDelay = none := by simpa [Entry.name] using hnew
    exact .refl _
  | maxDelay d =>
    obtain rfl : maxDelay = none := by simpa [Entry.name] using hnew
    have hfields : fields [.maxDelay d] = [.maxDelay d] := rfl
    simp only [Parts.add, Parts.entries, hfields, Option.toList_some, Option.toList_none,
      List.map_cons, List.map_nil, List.append_assoc, List.append_nil, List.singleton_append]
    exact List.perm_middle
  | multiplier k =>
    obtain rfl : multiplier = none := by simpa [Entry.name] using hnew
    have hfields : fields [.multiplier k] = [.multiplier k] := rfl
    simp only [Parts.add, Parts.entries, hfields, Option.toList_some, Option.toList_none,
      List.map_cons, List.map_nil, List.append_nil, UInt32.ofNat_toNat]
    exact List.perm_append_comm
  | other name =>
    have hfields : fields [.other name] = [] :=
      List.filter_cons_of_neg (by simp [Entry.name, h.2.1])
    rw [hfields]
    exact .refl _

/-! ### What a text is read as -/

variable {es : List Entry} {ms : List Member}

theorem fields_append (es es' : List Entry) : fields (es ++ es') = fields es ++ fields es' :=
  List.filter_append es es'

/-- Reading takes all the members and knows the fields that they say, or it takes members up to one
that says again what is known. -/
theorem gathers_or (h : List.Forall₂ Entry.IsWritten es ms) (parts : Parts) :
    (∃ parts', record.Gathers parts ms parts' ∧
      parts'.entries.Perm (fields es ++ parts.entries)) ∨
    ∃ es₁ e es₂ ms₁ m ms₂ parts', es = es₁ ++ e :: es₂ ∧ ms = ms₁ ++ m :: ms₂ ∧
      record.Gathers parts ms₁ parts' ∧ parts'.entries.Perm (fields es₁ ++ parts.entries) ∧
      e.IsWritten m ∧ e.name ∈ parts'.names := by
  induction h generalizing parts with
  | nil => exact .inl ⟨parts, .nil, .refl _⟩
  | @cons e m es ms hm hms ih =>
    by_cases hnew : e.name ∈ parts.names
    · exact .inr ⟨[], e, es, [], m, ms, parts, rfl, rfl, .nil, .refl _, hm, hnew⟩
    · have htakes := takes_entry hm hnew
      have hstep {rest : List Entry} {parts' : Parts}
          (h : parts'.entries.Perm (fields rest ++ (parts.add e).entries)) :
          parts'.entries.Perm (fields (e :: rest) ++ parts.entries) := by
        have hadd := h.trans ((entries_add hm hnew).append_left (fields rest))
        rw [← List.singleton_append, fields_append, List.append_assoc]
        exact hadd.trans (List.perm_append_comm_assoc _ _ _)
      rcases ih (parts.add e) with ⟨parts', hgathers, hperm⟩ |
        ⟨es₁, e', es₂, ms₁, m', ms₂, parts', rfl, rfl, hgathers, hperm, hm', hknown⟩
      · exact .inl ⟨parts', .cons htakes hgathers, hstep hperm⟩
      · exact .inr ⟨e :: es₁, e', es₂, m :: ms₁, m', ms₂, parts', rfl, rfl, .cons htakes hgathers,
          hstep hperm, hm', hknown⟩

/-- What is known is a policy, or one of its fields is missing. -/
theorem conclude_or (parts : Parts) :
    (∃ p, record.conclude parts = .ok p ∧ parts.entries = p.entries) ∨
    ∃ name ∈ fieldNames, record.conclude parts = .error (.missingField name) ∧
      name ∉ parts.names := by
  obtain ⟨_ | initialDelay, maxDelay, multiplier⟩ := parts
  · exact .inr ⟨"initial_delay", by decide, rfl, by rw [Parts.names_eq]; simp⟩
  obtain _ | maxDelay := maxDelay
  · exact .inr ⟨"max_delay", by decide, rfl, by rw [Parts.names_eq]; simp⟩
  obtain _ | multiplier := multiplier
  · exact .inr ⟨"multiplier", by decide, rfl, by rw [Parts.names_eq]; simp⟩
  · exact .inl ⟨_, rfl, rfl⟩

/-- A policy is known from what says it, in any order. -/
theorem entries_inj {p q : Policy} (h : p.entries.Perm q.entries) : p = q := by
  have hinitialDelay : .initialDelay p.initialDelay ∈ q.entries := h.mem_iff.mp (by simp [entries])
  have hmaxDelay : .maxDelay p.maxDelay ∈ q.entries := h.mem_iff.mp (by simp [entries])
  have hmultiplier : .multiplier p.multiplier ∈ q.entries := h.mem_iff.mp (by simp [entries])
  obtain ⟨initialDelay, maxDelay, multiplier⟩ := p
  simp only [entries, List.mem_cons, List.not_mem_nil, or_false, false_or, reduceCtorEq,
    Entry.initialDelay.injEq, Entry.maxDelay.injEq, Entry.multiplier.injEq]
    at hinitialDelay hmaxDelay hmultiplier
  rw [hinitialDelay, hmaxDelay, hmultiplier]

/-- A field occurs as often as it does among the entries that say fields. -/
theorem occurrences_fields {name : String} (h : name ∈ fieldNames) (es : List Entry) :
    occurrences name (fields es) = occurrences name es := by
  induction es with
  | nil => rfl
  | cons e es ih =>
    simp only [occurrences, fields, List.filter_cons, List.map_cons, List.count_cons] at ih ⊢
    split
    next hfield => rw [List.map_cons, List.count_cons, ih]
    next hfield =>
      have hne : e.name ≠ name := fun heq => hfield (by simpa [heq] using h)
      rw [ih, if_neg (by simpa using hne), Nat.add_zero]

/-- What is known occurs once, and no other field occurs. -/
theorem occurrences_of_perm {parts : Parts} {name : String} (h : name ∈ fieldNames)
    (hperm : parts.entries.Perm (fields es)) :
    occurrences name es = if name ∈ parts.names then 1 else 0 := by
  rw [← occurrences_fields h, occurrences, ← (hperm.map Entry.name).count_eq]
  exact parts.nodup_names.count

/-- A field of which something is known occurs again. -/
theorem one_lt_occurrences {es₁ es₂ : List Entry} {e : Entry} {parts : Parts}
    (hperm : parts.entries.Perm (fields es₁)) (h : e.name ∈ parts.names) :
    1 < occurrences e.name (es₁ ++ e :: es₂) := by
  have hbefore := occurrences_of_perm (Parts.mem_fieldNames h) hperm
  rw [if_pos h] at hbefore
  rw [occurrences] at hbefore ⊢
  rw [List.map_append, List.count_append, hbefore, List.map_cons, List.count_cons_self]
  omega

/-- A text is read as the policy whose fields it says, or a field is missing, or one occurs
again. -/
theorem ofJson_or {text : String} (h : IsWritten es text) :
    (∃ p, ofJson text = .ok p ∧ (fields es).Perm p.entries) ∨
    ∃ fault name, ofJson text = .error fault ∧ name ∈ fieldNames ∧
      (fault.issue = .missingField name ∧ occurrences name es = 0 ∧
          (∀ name ∈ fieldNames, occurrences name es ≤ 1) ∨
        fault.issue = .duplicateField name ∧ 1 < occurrences name es) := by
  obtain ⟨ws, ws', ws'', ms, hws, hws', hws'', hms, htext⟩ := h
  obtain rfl : text = String.ofList (ws ++ (objectText ws' ms ++ ws'')) := by
    rw [← htext, String.ofList_toList]
  rcases gathers_or hms record.nothing with ⟨parts, hgathers, hperm⟩ |
    ⟨es₁, e, es₂, ms₁, m, ms₂, parts, rfl, rfl, hgathers, hperm, hm, hknown⟩
  · replace hperm : parts.entries.Perm (fields es) := by simpa [record, Parts.entries] using hperm
    rcases conclude_or parts with ⟨p, hp, hentries⟩ | ⟨name, hname, hissue, hmissing⟩
    · have hdelimited : IsDelimited ws'' := by
        rw [← List.append_nil ws'']
        exact IsDelimited.append hws'' isDelimited_nil
      have hread := Record.readsAs_object hgathers hp hws' ws ws'' hws hdelimited
      exact .inl ⟨p, readAll_ok hread hws'', hentries ▸ hperm.symm⟩
    · obtain ⟨cs, hread⟩ := Record.read_object_wrong hgathers hissue hws' hws ws''
      obtain ⟨fault, hfault, hissue⟩ := readAll_stop hread
      refine .inr ⟨fault, name, hfault, hname, .inl ⟨hissue, ?_, fun other hother => ?_⟩⟩
      · rw [occurrences_of_perm hname hperm, if_neg hmissing]
      · rw [occurrences_of_perm hother hperm]
        split <;> omega
  · replace hperm : parts.entries.Perm (fields es₁) := by simpa [record, Parts.entries] using hperm
    obtain ⟨field, hfield, hisKnown⟩ := exists_known hknown
    have hnamed : m.IsNamed e.name := by
      cases e <;> exact hm.1
    obtain ⟨cs, hread⟩ := Record.read_object_again hgathers hnamed hfield hisKnown hws' hws ws''
    obtain ⟨fault, hfault, hissue⟩ := readAll_stop hread
    exact .inr ⟨fault, e.name, hfault, Parts.mem_fieldNames hknown,
      .inr ⟨hissue, one_lt_occurrences hperm hknown⟩⟩

/-- In what says a policy, every field occurs once. -/
theorem occurrences_eq_one {p : Policy} {name : String} (h : name ∈ fieldNames)
    (hperm : (fields es).Perm p.entries) : occurrences name es = 1 := by
  have hnames : p.entries.map Entry.name = fieldNames := rfl
  have hnodup : fieldNames.Nodup := by decide
  rw [← occurrences_fields h, occurrences, (hperm.map Entry.name).count_eq, hnames,
    hnodup.count, if_pos h]

/-- **A policy survives its text**, and so it does every other layout of the text: a text that is an
object is read as the policy exactly if its members say each field of the policy once, in any order,
among whatever else. A text that leaves a field out or says one again is rejected, and the issue
names a field that occurs again if one does, and otherwise one that is missing. -/
theorem ofJson_written (p : Policy) :
    ofJson p.json = .ok p ∧ ∀ es text, IsWritten es text →
      (ofJson text = .ok p ↔ (fields es).Perm p.entries) ∧
      ∀ name ∈ fieldNames, occurrences name es ≠ 1 →
        ∃ fault name', ofJson text = .error fault ∧ name' ∈ fieldNames ∧
          (fault.issue = .missingField name' ∧ occurrences name' es = 0 ∧
              (∀ name ∈ fieldNames, occurrences name es ≤ 1) ∨
            fault.issue = .duplicateField name' ∧ 1 < occurrences name' es) := by
  have hread {es : List Entry} {text : String} (h : IsWritten es text) :
      ofJson text = .ok p ↔ (fields es).Perm p.entries := by
    rcases ofJson_or h with ⟨q, hq, hperm⟩ | ⟨fault, name, hfault, hname, hissue⟩
    · rw [hq, Except.ok.injEq]
      exact ⟨fun heq => heq ▸ hperm, fun h => entries_inj (hperm.symm.trans h)⟩
    · refine ⟨fun hok => ?_, fun hperm => ?_⟩
      · rw [hfault] at hok
        cases hok
      · have hone := occurrences_eq_one hname hperm
        omega
  refine ⟨(hread (isWritten_json p)).mpr (.refl _), fun es text h => ⟨hread h, ?_⟩⟩
  intro name hname hne
  rcases ofJson_or h with ⟨q, -, hperm⟩ | hfault
  · exact absurd (occurrences_eq_one hname hperm) hne
  · exact hfault

/-- A policy with its members in another order, with blanks, and with something else among them. -/
def shuffled : String :=
  " \x7b \"note\":[null],\"multiplier\" : 0,\"max_delay\":\x7b\"nanos\":5,\"secs\":0\x7d,"
    ++ "\"initial_delay\":\x7b\"secs\":0,\"nanos\":1\x7d\x7d\n"

/-- The layout does not matter, and neither does it that the multiplier is zero. -/
theorem ofJson_written_shuffled :
    ofJson shuffled = .ok ⟨⟨1, by decide⟩, ⟨5, by decide⟩, 0⟩ := by
  have hzero : Decimal.digits 0 = ['0'] := by rw [Decimal.digits]; rfl
  have hone : Decimal.digits 1 = ['1'] := by rw [Decimal.digits]; rfl
  have hfive : Decimal.digits 5 = ['5'] := by rw [Decimal.digits]; rfl
  have hnote : (Entry.other "note").IsWritten (.bare "note" "[null]".toList) := by
    refine ⟨Member.isNamed_bare _ _, by decide, ?_⟩
    show IsValue (arrayText [] [.bare "null".toList])
    exact .array isBlanks_nil fun item hitem => by
      rw [List.mem_singleton.mp hitem]
      exact .word (.inl rfl)
  let spaced : Member :=
    ⟨⟨[], Quoted.encode "multiplier".toList, [' '], by decide, by decide⟩,
      ⟨[' '], ['0'], [], by decide, by decide⟩⟩
  have hspaced : (Entry.multiplier 0).IsWritten spaced := ⟨Quoted.denotes_encode _, hzero.symm⟩
  have hmaxDelay : (Entry.maxDelay ⟨5, by decide⟩).IsWritten
      (.bare "max_delay" "\x7b\"nanos\":5,\"secs\":0\x7d".toList) :=
    ⟨Member.isNamed_bare _ _, [], .bare "secs" ['0'], .bare "nanos" ['5'], _, isBlanks_nil,
      ⟨Member.isNamed_bare _ _, hzero.symm⟩, ⟨Member.isNamed_bare _ _, hfive.symm⟩, .inr rfl,
      by decide⟩
  have hinitialDelay : (Entry.initialDelay ⟨1, by decide⟩).IsWritten
      (.bare "initial_delay" "\x7b\"secs\":0,\"nanos\":1\x7d".toList) :=
    ⟨Member.isNamed_bare _ _, [], .bare "secs" ['0'], .bare "nanos" ['1'], _, isBlanks_nil,
      ⟨Member.isNamed_bare _ _, hzero.symm⟩, ⟨Member.isNamed_bare _ _, hone.symm⟩, .inl rfl,
      by decide⟩
  have hwritten : IsWritten [.other "note", .multiplier 0, .maxDelay ⟨5, by decide⟩,
      .initialDelay ⟨1, by decide⟩] shuffled :=
    ⟨[' '], [' '], ['\n'], _, by decide, by decide, by decide,
      .cons hnote (.cons hspaced (.cons hmaxDelay (.cons hinitialDelay .nil))), by decide⟩
  exact ((ofJson_written _).2 _ _ hwritten).1.mpr (by decide)

end Policy

end Backoff

end QueueDrain
