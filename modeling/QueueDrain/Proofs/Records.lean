import QueueDrain.Json.Record
import QueueDrain.Proofs.Grammar

/-!
# Records of JSON texts

What a record makes of an object of the grammar. The members are taken one by one, in whatever order
they stand and however their keys are spelled; what is known of the fields goes through them like a
state. A record asks of each of its fields only that it reads its own value, blanks in front of it
included, and leaves what follows the value.

## Main definitions

* `Json.ReadsAs` — a reader makes this of a value, whatever is around it
* `Json.Member.IsNamed` — the key of a member denotes this name
* `Json.Record.Takes`, `Json.Record.Gathers` — what a member, and what members one after the other,
  make known of the fields
* `Json.Record.conclude` — the record of what is known in the end, or what is wrong with it

## Main results

* `Json.readsAs_natural` — the digits of a number are read as the number
* `Json.Record.takes_field`, `Json.Record.takes_other` — a field is read, another member passed over
* `Json.Record.readsAs_object` — an object is read as the record of its members
* `Json.Record.read_object_wrong`, `Json.Record.read_object_again` — a record that its members do
  not make, and a field that occurs again
-/

namespace QueueDrain

namespace Json

variable {σ α β : Type}

/-! ### Readers of values -/

/-- A reader makes `b` of a value, whatever blanks are in front of it and whatever follows. -/
def ReadsAs (read : List Char → Reading β) (core : List Char) (b : β) : Prop :=
  ∀ ws rest, IsBlanks ws → IsDelimited rest → read (ws ++ (core ++ rest)) = .ok (b, rest)

theorem ReadsAs.map {read : List Char → Reading α} {core : List Char} {a : α}
    (h : ReadsAs read core a) (f : α → β) :
    ReadsAs (fun cs => (read cs).map fun (a, rest) => (f a, rest)) core (f a) := by
  intro ws rest hws hrest
  show (read _).map _ = _
  rw [h ws rest hws hrest]
  rfl

/-- **The digits of a number are read as the number.** -/
theorem readsAs_natural (expected : String) {limit n : Nat} (hn : n ≤ limit)
    (hlimit : limit ≤ Number.significandLimit) :
    ReadsAs (readNatural expected limit) (Decimal.digits n) n := by
  intro ws rest hws hrest
  have hread := Number.read_digits (Nat.le_trans hn hlimit) hrest
  obtain ⟨d, ds, hdigits, -⟩ := Number.digits_eq_cons n
  have hdigit := Number.isDigit_digitChar d
  rw [hdigits, List.cons_append] at hread ⊢
  rw [readNatural, skipBlanks_of_isBlanks hws (Number.ne_delimiter hdigit).1]
  simp only [Number.isDigit_iff.mpr hdigit, Bool.or_true, if_true, hread, if_pos hn]

/-- A text that a reader reads to its end is read whole. -/
theorem readAll_ok {read : List Char → Reading α} {cs ws : List Char} {a : α}
    (h : read cs = .ok (a, ws)) (hws : IsBlanks ws) : readAll read (String.ofList cs) = .ok a := by
  have hend : skipBlanks ws = [] := by
    rw [← List.append_nil ws, skipBlanks_append hws]
    rfl
  simp only [readAll, String.toList_ofList, h, hend]

/-- The issue that a reader stops with is the issue of the text. -/
theorem readAll_stop {read : List Char → Reading α} {cs rest : List Char} {issue : Issue}
    (h : read cs = stopAt issue rest) :
    ∃ fault, readAll read (String.ofList cs) = .error fault ∧ fault.issue = issue := by
  simp only [readAll, String.toList_ofList, h, stopAt]
  exact ⟨_, rfl, rfl⟩

/-! ### Members -/

/-- The key of a member denotes a name. -/
def Member.IsNamed (m : Member) (name : String) : Prop := Denotes m.key.core name.toList

/-- A member has a name and a natural number as its value. -/
def Member.Counts (m : Member) (name : String) (n : Nat) : Prop :=
  m.IsNamed name ∧ m.value.core = Decimal.digits n

theorem Member.isNamed_bare (name : String) (core : List Char) : (bare name core).IsNamed name :=
  Quoted.denotes_encode name.toList

theorem Member.counts_bare (name : String) (n : Nat) :
    (bare name (Decimal.digits n)).Counts name n := ⟨isNamed_bare name _, rfl⟩

/-- The rest of an object's members. A comma is due behind a member. -/
def remaining (isFirst : Bool) : List Member → List Char
  | [] => []
  | m :: ms => (if isFirst then [] else [',']) ++ (m.text ++ remaining false ms)

theorem remaining_eq_flatMap (ms : List Member) :
    remaining false ms = (ms.map Member.text).flatMap (',' :: ·) := by
  induction ms with
  | nil => rfl
  | cons m ms ih => rw [remaining, ih]; rfl

/-- The members of an object are its members up to the bracket. -/
theorem intercalate_members (ms : List Member) :
    List.intercalate [','] (ms.map Member.text) = remaining true ms := by
  cases ms with
  | nil => rfl
  | cons m ms =>
    rw [List.map_cons, intercalate_cons, ← remaining_eq_flatMap, remaining]
    rfl

theorem length_le_remaining (isFirst : Bool) (ms : List Member) :
    ms.length ≤ (remaining isFirst ms).length := by
  induction ms generalizing isFirst with
  | nil => exact Nat.zero_le _
  | cons m ms ih =>
    have := ih false
    simp only [remaining, Member.text, List.length_append, List.length_cons]
    omega

/-- What follows a member of an object: the next one behind its comma, or the closing bracket. -/
theorem isDelimited_remaining (ms : List Member) (rest : List Char) :
    IsDelimited (remaining false ms ++ '\x7d' :: rest) := by
  cases ms with
  | nil => exact isDelimited_cons (by decide) rest
  | cons m ms => exact isDelimited_cons (by decide) _

/-- The key of the next member is read. -/
theorem readKey_member {m : Member} {name : String} (h : m.IsNamed name) {ws : List Char}
    (hws : IsBlanks ws) (isFirst : Bool) (rest : List Char) :
    readKey isFirst (ws ++ ((if isFirst then [] else [',']) ++ (m.key.text ++ rest)))
      = .ok (some name, m.key.after ++ rest) := by
  obtain ⟨body, hbody, hread⟩ := Quoted.read_denotes h (m.key.after ++ rest)
  have htext : m.key.text ++ rest = m.key.before ++ '"' :: body := by
    rw [Spaced.text, List.append_assoc, List.append_assoc, hbody]
  have hname : ((Quoted.read body).map fun found => (some (String.ofList found.1), found.2))
      = .ok (some name, m.key.after ++ rest) := by
    simp only [hread, Except.map, String.ofList_toList]
  rw [htext]
  cases isFirst with
  | true =>
    rw [if_pos rfl, List.nil_append, ← List.append_assoc, readKey,
      skipBlanks_of_isBlanks (hws.append m.key.isBlanks_before) (by decide)]
    exact hname
  | false =>
    rw [if_neg (by decide), List.singleton_append, readKey, skipBlanks_of_isBlanks hws (by decide)]
    simp only [skipBlanks_of_isBlanks m.key.isBlanks_before (c := '"') (by decide)]
    exact hname

/-! ### Gathering the fields -/

namespace Record

variable {r : Record σ α}

/-- A member takes what is known of the fields from `known` to `known'`. -/
def Takes (r : Record σ α) (known : σ) (m : Member) (known' : σ) : Prop :=
  ∃ name, m.IsNamed name ∧ ∀ rest, IsDelimited rest →
    r.readMember known name (m.key.after ++ ':' :: (m.value.before ++ (m.value.core ++ rest)))
      = .ok (known', rest)

/-- Members, one after the other, take what is known from `known` to `known'`. -/
inductive Gathers (r : Record σ α) : σ → List Member → σ → Prop where
  | nil {known : σ} : Gathers r known [] known
  | cons {known known' known'' : σ} {m : Member} {ms : List Member} (h : r.Takes known m known')
      (hs : Gathers r known' ms known'') : Gathers r known (m :: ms) known''

theorem skipColon_append {ws : List Char} (h : IsBlanks ws) (cs : List Char) :
    skipColon (ws ++ ':' :: cs) = .ok cs := by
  rw [skipColon, skipBlanks_of_isBlanks h (by decide)]
  rfl

/-- **A field is read**, if it is not known yet. -/
theorem takes_field {known known' : σ} {m : Member} {name : String} {field : Field σ}
    (hname : m.IsNamed name) (hfield : r.field? name = some field)
    (hknown : field.isKnown known = false)
    (hread : ReadsAs (field.read known) m.value.core known') : r.Takes known m known' := by
  refine ⟨name, hname, fun rest hrest => ?_⟩
  simp only [readMember, hfield, hknown, Bool.false_eq_true, if_false,
    skipColon_append m.key.isBlanks_after]
  exact hread m.value.before rest m.value.isBlanks_before hrest

/-- A field that is a natural number is read as the number. -/
theorem takes_natural {known : σ} {m : Member} {name : String} {field : Field σ} {n : Nat}
    (expected : String) (limit : Nat) (set : Nat → σ) (hm : m.Counts name n)
    (hfield : r.field? name = some field)
    (hread : field.read known =
      fun cs => (readNatural expected limit cs).map fun (n, rest) => (set n, rest))
    (hknown : field.isKnown known = false) (hn : n ≤ limit)
    (hlimit : limit ≤ Number.significandLimit) : r.Takes known m (set n) := by
  refine takes_field hm.1 hfield hknown ?_
  rw [hread, hm.2]
  exact (readsAs_natural expected hn hlimit).map set

/-- **A member that is no field is passed over**, if other fields are. -/
theorem takes_other {known : σ} {m : Member} {name : String} (hname : m.IsNamed name)
    (hfield : r.field? name = none) (hopen : r.isOpen = true) (hvalue : IsValue m.value.core) :
    r.Takes known m known := by
  refine ⟨name, hname, fun rest hrest => ?_⟩
  simp only [readMember, hfield, hopen, if_true, skipColon_append m.key.isBlanks_after]
  show (skipValue _).map _ = _
  rw [skipValue_isValue hvalue m.value.isBlanks_before hrest]
  rfl

/-- Reading goes on behind a member with what it makes known. -/
theorem readMembers_takes {known known' : σ} {m : Member} (h : r.Takes known m known')
    {ws rest : List Char} (hws : IsBlanks ws) (hrest : IsDelimited rest) (limit : Nat)
    (isFirst : Bool) :
    r.readMembers (limit + 1) isFirst known
        (ws ++ ((if isFirst then [] else [',']) ++ (m.text ++ rest)))
      = r.readMembers limit false known' (m.value.after ++ rest) := by
  obtain ⟨name, hname, hread⟩ := h
  have htext : m.text ++ rest
      = m.key.text ++ ':' :: (m.value.before ++ (m.value.core ++ (m.value.after ++ rest))) := by
    simp only [Member.text, Spaced.text, List.append_assoc, List.cons_append]
  simp only [readMembers, htext, readKey_member hname hws,
    hread _ (hrest.append m.value.isBlanks_after)]

/-- Reading goes on behind members with what they make known. Blanks behind the last of them are
left. -/
theorem readMembers_gathers {known known' : σ} {ms : List Member} (h : r.Gathers known ms known')
    {ws : List Char} (hws : IsBlanks ws) (limit : Nat) (isFirst : Bool) (ms' : List Member)
    (rest : List Char) :
    ∃ ws', IsBlanks ws' ∧
      r.readMembers (limit + ms.length) isFirst known
          (ws ++ (remaining isFirst (ms ++ ms') ++ '\x7d' :: rest))
        = r.readMembers limit (isFirst && ms.isEmpty) known'
          (ws' ++ (remaining (isFirst && ms.isEmpty) ms' ++ '\x7d' :: rest)) := by
  induction h generalizing ws isFirst with
  | nil => exact ⟨ws, hws, by rw [List.isEmpty_nil, Bool.and_true]; rfl⟩
  | @cons known _ _ m ms hm _ ih =>
    obtain ⟨ws', hws', hrest⟩ := ih m.value.isBlanks_after false
    refine ⟨ws', hws', ?_⟩
    rw [List.cons_append, remaining, List.length_cons, ← Nat.add_assoc, List.append_assoc,
      List.append_assoc, readMembers_takes hm hws (isDelimited_remaining _ _), hrest,
      Bool.false_and, List.isEmpty_cons, Bool.and_false]

/-- Reading ends at the closing bracket. -/
theorem readMembers_closing {ws : List Char} (hws : IsBlanks ws) (limit : Nat) (isFirst : Bool)
    (known : σ) (rest : List Char) :
    r.readMembers (limit + 1) isFirst known (ws ++ '\x7d' :: rest)
      = .ok (known, '\x7d' :: rest) := by
  have hkey : readKey isFirst (ws ++ '\x7d' :: rest) = .ok (none, '\x7d' :: rest) := by
    rw [readKey, skipBlanks_of_isBlanks hws (by decide)]
    rfl
  rw [readMembers, hkey]

/-- Reading stops at a field that is known. -/
theorem readMembers_again {known : σ} {m : Member} {name : String} {field : Field σ}
    (hname : m.IsNamed name) (hfield : r.field? name = some field)
    (hknown : field.isKnown known = true) {ws : List Char} (hws : IsBlanks ws) (limit : Nat)
    (isFirst : Bool) (rest : List Char) :
    ∃ cs, r.readMembers (limit + 1) isFirst known
        (ws ++ ((if isFirst then [] else [',']) ++ (m.text ++ rest)))
      = stopPending (.duplicateField name) cs := by
  have htext : m.text ++ rest = m.key.text ++ (':' :: m.value.text ++ rest) := by
    rw [Member.text, List.append_assoc]
  simp only [readMembers, htext, readKey_member hname hws, readMember, hfield, hknown, if_true,
    stopPending]
  exact ⟨_, rfl⟩

/-! ### Whole objects -/

/-- The record of what is known in the end, or what is wrong with it. -/
def conclude (r : Record σ α) (known : σ) : Except Issue α :=
  match r.fields.find? fun field => !field.isKnown known with
  | some field => .error (.missingField field.name)
  | none => r.complete known

theorem conclude_of_known {known : σ}
    (h : (r.fields.find? fun field => !field.isKnown known) = none) :
    r.conclude known = r.complete known := by
  rw [conclude, h]

theorem finish_eq (r : Record σ α) (known : σ) (cs : List Char) :
    r.finish known cs = match r.conclude known with
      | .ok a => .ok (a, cs)
      | .error issue => stopPending issue cs := by
  rw [finish, conclude]
  cases r.fields.find? fun field => !field.isKnown known <;> rfl

/-- An issue of the record as a whole is what reading stops with. -/
theorem close_pending (closing : List Char → Except Stop (List Char)) (issue : Issue)
    (cs : List Char) :
    ∃ rest, close closing (stopPending issue cs : Reading α) = stopAt issue rest := by
  simp only [close, stopPending, if_true]
  cases closing cs with
  | error failed => exact ⟨failed.rest, rfl⟩
  | ok rest => exact ⟨rest, rfl⟩

/-- Reading an object reads its members, with a limit that lets all of them through. -/
theorem read_object (r : Record σ α) {ws : List Char} (hws : IsBlanks ws) (ws' : List Char)
    (ms : List Member) (rest : List Char) :
    ∃ limit, r.read (ws ++ (objectText ws' ms ++ rest)) = close closeObject
      ((r.readMembers (limit + 1 + ms.length) true r.nothing
        (ws' ++ (remaining true ms ++ '\x7d' :: rest))).bind fun (known, rest) =>
          r.finish known rest) := by
  have htext : objectText ws' ms ++ rest
      = '\x7b' :: (ws' ++ (remaining true ms ++ '\x7d' :: rest)) := by
    simp only [objectText, bracketed, intercalate_members, Bracket.opening, Bracket.closing,
      List.cons_append, List.append_assoc, List.nil_append]
  have hlength : (ws' ++ (remaining true ms ++ '\x7d' :: rest)).length
      = (ws' ++ (remaining true ms ++ '\x7d' :: rest)).length - ms.length + ms.length := by
    have := length_le_remaining true ms
    simp only [List.length_append]
    omega
  refine ⟨(ws' ++ (remaining true ms ++ '\x7d' :: rest)).length - ms.length, ?_⟩
  rw [htext, Record.read, skipBlanks_of_isBlanks hws (by decide), Nat.add_right_comm, ← hlength]
  rfl

variable {known : σ} {ms : List Member} {ws' : List Char}

/-- What reading an object comes to, when its members can be gathered. -/
theorem read_object_gathers (h : r.Gathers r.nothing ms known) (hws' : IsBlanks ws')
    {ws : List Char} (hws : IsBlanks ws) (rest : List Char) :
    r.read (ws ++ (objectText ws' ms ++ rest))
      = close closeObject (r.finish known ('\x7d' :: rest)) := by
  obtain ⟨limit, hread⟩ := read_object r hws ws' ms rest
  obtain ⟨ws'', hws'', hmembers⟩ := readMembers_gathers h hws' (limit + 1) true [] rest
  rw [List.append_nil] at hmembers
  rw [hread, hmembers, remaining, List.nil_append, readMembers_closing hws'']
  rfl

/-- **An object is read as the record of its members.** -/
theorem readsAs_object {a : α} (h : r.Gathers r.nothing ms known) (ha : r.conclude known = .ok a)
    (hws' : IsBlanks ws') : ReadsAs r.read (objectText ws' ms) a := by
  intro ws rest hws _
  rw [read_object_gathers h hws' hws, finish_eq, ha]
  rfl

/-- **Members that make no record** are what reading stops with. -/
theorem read_object_wrong {issue : Issue} (h : r.Gathers r.nothing ms known)
    (hissue : r.conclude known = .error issue) (hws' : IsBlanks ws') {ws : List Char}
    (hws : IsBlanks ws) (rest : List Char) :
    ∃ cs, r.read (ws ++ (objectText ws' ms ++ rest)) = stopAt issue cs := by
  rw [read_object_gathers h hws' hws, finish_eq, hissue]
  exact close_pending closeObject issue _

/-- **A field that occurs again** is what reading stops with, whatever comes behind it. -/
theorem read_object_again {m : Member} {ms' : List Member} {name : String} {field : Field σ}
    (h : r.Gathers r.nothing ms known) (hname : m.IsNamed name)
    (hfield : r.field? name = some field) (hknown : field.isKnown known = true)
    (hws' : IsBlanks ws') {ws : List Char} (hws : IsBlanks ws) (rest : List Char) :
    ∃ cs, r.read (ws ++ (objectText ws' (ms ++ m :: ms') ++ rest))
      = stopAt (.duplicateField name) cs := by
  obtain ⟨limit, hread⟩ := read_object r hws ws' (ms ++ m :: ms') rest
  have hlimit : limit + 1 + (ms ++ m :: ms').length = limit + ms'.length + 1 + 1 + ms.length := by
    simp only [List.length_append, List.length_cons]
    omega
  obtain ⟨ws'', hws'', hmembers⟩ :=
    readMembers_gathers h hws' (limit + ms'.length + 1 + 1) true (m :: ms') rest
  obtain ⟨cs, hagain⟩ := readMembers_again hname hfield hknown hws'' (limit + ms'.length + 1)
    (true && ms.isEmpty) (remaining false ms' ++ '\x7d' :: rest)
  rw [hread, hlimit, hmembers, remaining, List.append_assoc, List.append_assoc, hagain]
  exact close_pending closeObject _ _

end Record

end Json

end QueueDrain
