import QueueDrain.Proofs.Tokens

/-!
# Values of JSON texts

The grammar of JSON values with blanks between their tokens, and that a value of the grammar is
passed over whole. Passing over a value keeps the brackets that are open in a list and has a limit
on how many values it looks at, while the grammar is a tree. So what is said of a value is said for
all brackets around it and for any limit that is left: passing over the value uses up no more of the
limit than the value has characters, and goes on behind it as if it had been a single token.

## Main definitions

* `Json.Spaced`, `Json.Member` — values and members of objects, with blanks
* `Json.arrayText`, `Json.objectText` — arrays and objects
* `Json.IsValue` — the values of the grammar

## Main results

* `Json.IsValue.isPassed` — what passing over a value comes to, within any brackets
* `Json.skipValue_isValue` — a value is passed over whole
-/

namespace QueueDrain

namespace Json

/-! ### The grammar -/

/-- A token or a value with blanks around it. -/
structure Spaced where
  before : List Char
  core : List Char
  after : List Char
  isBlanks_before : IsBlanks before
  isBlanks_after : IsBlanks after

/-- The text of a token or a value with its blanks. -/
def Spaced.text (s : Spaced) : List Char := s.before ++ (s.core ++ s.after)

/-- A token or a value without blanks around it. -/
def Spaced.bare (core : List Char) : Spaced := ⟨[], core, [], isBlanks_nil, isBlanks_nil⟩

/-- A member of an object. -/
structure Member where
  key : Spaced
  value : Spaced

/-- The text of a member. -/
def Member.text (m : Member) : List Char := m.key.text ++ ':' :: m.value.text

/-- A member without blanks. -/
def Member.bare (name : String) (core : List Char) : Member :=
  ⟨.bare (Quoted.encode name.toList), .bare core⟩

theorem Member.text_bare (name : String) (core : List Char) :
    (bare name core).text = Quoted.encode name.toList ++ ':' :: core := by
  simp only [text, bare, Spaced.text, Spaced.bare, List.nil_append, List.append_nil]

/-- The character that opens a bracket. -/
def Bracket.opening : Bracket → Char
  | array => '['
  | object => '\x7b'

/-- Texts between brackets, with commas between them and blanks in front of the first. -/
def bracketed (b : Bracket) (ws : List Char) (texts : List (List Char)) : List Char :=
  b.opening :: (ws ++ (List.intercalate [','] texts ++ [b.closing]))

/-- The text of an array. -/
def arrayText (ws : List Char) (items : List Spaced) : List Char :=
  bracketed .array ws (items.map Spaced.text)

/-- The text of an object. -/
def objectText (ws : List Char) (members : List Member) : List Char :=
  bracketed .object ws (members.map Member.text)

/-- A value. -/
inductive IsValue : List Char → Prop where
  | word {word : List Char} (h : word = "null".toList ∨ word = "true".toList ∨
      word = "false".toList) : IsValue word
  | number {number : List Char} (h : IsNumber number) : IsValue number
  | string {literal : List Char} (h : IsLiteral literal) : IsValue literal
  | array {ws : List Char} {items : List Spaced} (hws : IsBlanks ws)
      (hitems : ∀ item ∈ items, IsValue item.core) : IsValue (arrayText ws items)
  | object {ws : List Char} {members : List Member} (hws : IsBlanks ws)
      (hkeys : ∀ m ∈ members, IsLiteral m.key.core)
      (hvalues : ∀ m ∈ members, IsValue m.value.core) : IsValue (objectText ws members)

/-! ### Texts with commas between them -/

theorem intercalate_singleton (text : List Char) : List.intercalate [','] [text] = text := by
  simp [List.intercalate]

theorem intercalate_cons_cons (text next : List Char) (texts : List (List Char)) :
    List.intercalate [','] (text :: next :: texts)
      = text ++ ',' :: List.intercalate [','] (next :: texts) := by
  simp [List.intercalate]

/-- The first of several texts, and each of the others behind its comma. -/
theorem intercalate_cons (text : List Char) (texts : List (List Char)) :
    List.intercalate [','] (text :: texts) = text ++ texts.flatMap (',' :: ·) := by
  induction texts generalizing text with
  | nil => rw [intercalate_singleton, List.flatMap_nil, List.append_nil]
  | cons next texts ih =>
    rw [intercalate_cons_cons, ih, List.flatMap_cons, List.cons_append]

/-! ### What comes next -/

/-- What follows the key that has to come within a bracket, if one has to. -/
def enter : Bracket → List Char → Except Stop (List Char)
  | .array, cs => .ok cs
  | .object, cs => skipKey cs

/-- What follows a value, from where the next value within the open brackets comes. -/
def proceed (limit : Nat) (next : Except Stop (List Bracket × List Char)) :
    Except Stop (List Char) :=
  next.bind fun
    | ([], rest) => .ok rest
    | (b :: outer, rest) => (enter b rest).bind (skipWithin limit (b :: outer))

/-- Passing over a value looks at its first token and then at what comes next. -/
theorem skipWithin_succ (limit : Nat) (around : List Bracket) (cs : List Char) :
    skipWithin (limit + 1) around cs = (skipToken cs).bind fun
      | (none, rest) => proceed limit (skipToValue true around rest)
      | (some b, rest) => proceed limit (skipToValue false (b :: around) rest) := by
  rw [skipWithin]
  rcases skipToken cs with stop | ⟨_ | b, rest⟩
  · rfl
  · rcases h : skipToValue true around rest with stop | ⟨_ | ⟨_ | _, outer⟩, rest'⟩ <;>
      simp only [h, proceed, Except.bind, enter]
  · rcases h : skipToValue false (b :: around) rest with stop | ⟨_ | ⟨_ | _, outer⟩, rest'⟩ <;>
      simp only [h, proceed, Except.bind, enter]

/-- Blanks in front of a value do not matter. -/
theorem skipWithin_append {ws : List Char} (h : IsBlanks ws) (limit : Nat) (around : List Bracket)
    (cs : List Char) :
    skipWithin (limit + 1) around (ws ++ cs) = skipWithin (limit + 1) around cs := by
  rw [skipWithin_succ, skipWithin_succ, skipToken, skipBlanks_append h, ← skipToken]

theorem skipKey_append {ws : List Char} (h : IsBlanks ws) (cs : List Char) :
    skipKey (ws ++ cs) = skipKey cs := by
  rw [skipKey, skipBlanks_append h, ← skipKey]

theorem enter_append {ws : List Char} (h : IsBlanks ws) (b : Bracket) (limit : Nat)
    (around : List Bracket) (cs : List Char) :
    (enter b (ws ++ cs)).bind (skipWithin (limit + 1) around)
      = (enter b cs).bind (skipWithin (limit + 1) around) := by
  cases b with
  | array => exact skipWithin_append h limit around cs
  | object => rw [enter, enter, skipKey_append h]

theorem Bracket.closing_ne (b : Bracket) : isBlank b.closing = false ∧ b.closing ≠ ',' := by
  cases b <;> decide

/-- Behind a value in brackets, a comma takes to the next value. -/
theorem skipToValue_comma {ws : List Char} (h : IsBlanks ws) (b : Bracket) (outer : List Bracket)
    (rest : List Char) :
    skipToValue true (b :: outer) (ws ++ ',' :: rest) = .ok (b :: outer, rest) := by
  rw [skipToValue, skipBlanks_of_isBlanks h (by decide)]
  rfl

/-- A closing bracket ends the value that its bracket is. -/
theorem skipToValue_closing {ws : List Char} (h : IsBlanks ws) (isBehindValue : Bool) (b : Bracket)
    (outer : List Bracket) (rest : List Char) :
    skipToValue isBehindValue (b :: outer) (ws ++ b.closing :: rest)
      = skipToValue true outer rest := by
  obtain ⟨hblank, hcomma⟩ := b.closing_ne
  rw [skipToValue, skipBlanks_of_isBlanks h hblank]
  simp [hcomma]

/-- Behind an opening bracket comes the first value, if something else than the closing bracket
comes. -/
theorem skipToValue_first {ws : List Char} (h : IsBlanks ws) {b : Bracket} {c : Char}
    (hblank : isBlank c = false) (hc : c ≠ b.closing) (outer : List Bracket) (rest : List Char) :
    skipToValue false (b :: outer) (ws ++ c :: rest) = .ok (b :: outer, c :: rest) := by
  rw [skipToValue, skipBlanks_of_isBlanks h hblank]
  simp [hc]

/-! ### Passing over a value -/

/-- Passing over the text, within any brackets, looks at no more values than the text has
characters and goes on with what comes next. -/
def IsPassed (text : List Char) : Prop :=
  ∃ n < text.length, ∀ limit around rest, IsDelimited rest →
    skipWithin (limit + n + 1) around (text ++ rest) = proceed limit (skipToValue true around rest)

/-- A token that is a value of its own is passed over. -/
theorem isPassed_of_token {text : List Char} (hne : text ≠ [])
    (h : ∀ rest, IsDelimited rest → skipToken (text ++ rest) = .ok (none, rest)) :
    IsPassed text := by
  refine ⟨0, List.length_pos_iff.mpr hne, fun limit around rest hrest => ?_⟩
  rw [Nat.add_zero, skipWithin_succ, h rest hrest]
  rfl

/-- Values within a bracket are passed over one by one. What stands in front of each, a key in an
object, is `lead`. -/
theorem skipWithin_items {b : Bracket} {items : List (List Char × Spaced)} (hne : items ≠ [])
    (hlead : ∀ item ∈ items, ∀ cs, enter b (item.1 ++ cs) = .ok cs)
    (hpassed : ∀ item ∈ items, IsPassed item.2.core) :
    ∃ n < (List.intercalate [','] (items.map fun item => item.1 ++ item.2.text)).length,
      ∀ limit around rest,
        (enter b (List.intercalate [','] (items.map fun item => item.1 ++ item.2.text)
            ++ b.closing :: rest)).bind (skipWithin (limit + n + 1) (b :: around))
          = proceed limit (skipToValue true around rest) := by
  induction items with
  | nil => exact absurd rfl hne
  | cons item items ih =>
    obtain ⟨lead, value⟩ := item
    obtain ⟨hlead, hleads⟩ := List.forall_mem_cons.mp hlead
    obtain ⟨⟨n, hn, hpass⟩, hpasses⟩ := List.forall_mem_cons.mp hpassed
    dsimp only at hlead hn hpass
    have htext : value.core.length ≤ value.text.length := by
      simp only [Spaced.text, List.length_append]
      omega
    -- the first value is passed over whatever delimits it
    have hvalue (limit : Nat) (around : List Bracket) (rest : List Char)
        (hrest : IsDelimited rest) :
        (enter b (lead ++ (value.text ++ rest))).bind (skipWithin (limit + n + 1) (b :: around))
          = proceed limit (skipToValue true (b :: around) (value.after ++ rest)) := by
      rw [hlead, Spaced.text, List.append_assoc, List.append_assoc]
      exact (skipWithin_append value.isBlanks_before _ _ _).trans
        (hpass limit (b :: around) _ (hrest.append value.isBlanks_after))
    cases items with
    | nil =>
      refine ⟨n, ?_, fun limit around rest => ?_⟩
      · simp only [List.map_cons, List.map_nil, intercalate_singleton, List.length_append]
        omega
      · simp only [List.map_cons, List.map_nil, intercalate_singleton, List.append_assoc]
        rw [hvalue _ _ _ (isDelimited_cons (by cases b <;> decide) rest),
          skipToValue_closing value.isBlanks_after]
    | cons next items =>
      obtain ⟨m, hm, hitems⟩ := ih (by simp) hleads hpasses
      simp only [List.map_cons, intercalate_cons_cons] at hm hitems ⊢
      refine ⟨n + m + 1, ?_, fun limit around rest => ?_⟩
      · simp only [List.length_append, List.length_cons] at hm ⊢
        omega
      · have hlimit : limit + (n + m + 1) + 1 = (limit + m + 1) + n + 1 := by omega
        simp only [List.append_assoc, List.cons_append]
        rw [hlimit, hvalue _ _ _ (isDelimited_cons (by decide) _),
          skipToValue_comma value.isBlanks_after]
        exact hitems limit around rest

/-- What brackets enclose is passed over, if every value in them is. -/
theorem isPassed_bracketed (b : Bracket) (items : List (List Char × Spaced)) {ws : List Char}
    (hws : IsBlanks ws)
    (hlead : ∀ item ∈ items, ∀ cs, enter b (item.1 ++ cs) = .ok cs)
    (hhead : ∀ item ∈ items, ∃ ws' c cs, IsBlanks ws' ∧ isBlank c = false ∧ c ≠ b.closing ∧
      item.1 ++ item.2.text = ws' ++ c :: cs)
    (hpassed : ∀ item ∈ items, IsPassed item.2.core) :
    IsPassed (bracketed b ws (items.map fun item => item.1 ++ item.2.text)) := by
  have htoken (cs : List Char) : skipToken (b.opening :: cs) = .ok (some b, cs) := by
    rw [skipToken, skipBlanks_cons (by cases b <;> decide)]
    cases b <;> rfl
  have hstart (limit : Nat) (around : List Bracket) (cs : List Char) :
      skipWithin (limit + 1) around (b.opening :: cs)
        = proceed limit (skipToValue false (b :: around) cs) := by
    rw [skipWithin_succ, htoken]
    rfl
  cases items with
  | nil =>
    refine ⟨0, by simp [bracketed], fun limit around rest _ => ?_⟩
    have htext : bracketed b ws [] ++ rest = b.opening :: (ws ++ b.closing :: rest) := by
      simp [bracketed, List.intercalate]
    rw [List.map_nil, htext, Nat.add_zero, hstart, skipToValue_closing hws]
  | cons item items =>
    obtain ⟨n, hn, hitems⟩ := skipWithin_items (List.cons_ne_nil item items) hlead hpassed
    obtain ⟨ws', c, cs, hws', hblank, hc, hcs⟩ := hhead item List.mem_cons_self
    refine ⟨n + 1, ?_, fun limit around rest _ => ?_⟩
    · simp only [bracketed, List.length_cons, List.length_append]
      omega
    · have hfirst (tail : List Char) :
          skipToValue false (b :: around) (ws ++ (ws' ++ c :: tail))
            = .ok (b :: around, c :: tail) := by
        rw [← List.append_assoc]
        exact skipToValue_first (hws.append hws') hblank hc around tail
      have hlisted := hitems limit around rest
      rw [List.map_cons, intercalate_cons, hcs] at hlisted
      simp only [List.append_assoc, List.cons_append, enter_append hws'] at hlisted
      simp only [bracketed, List.map_cons, intercalate_cons, hcs, List.append_assoc,
        List.cons_append, List.nil_append]
      rw [← Nat.add_assoc, hstart, hfirst]
      exact hlisted

/-- A value does not begin with a blank or a closing bracket. -/
theorem IsValue.exists_head {text : List Char} (h : IsValue text) :
    ∃ c cs, text = c :: cs ∧ isBlank c = false ∧ c ≠ ']' := by
  cases h with
  | word h =>
    rcases h with rfl | rfl | rfl
    · exact ⟨'n', "ull".toList, rfl, by decide, by decide⟩
    · exact ⟨'t', "rue".toList, rfl, by decide, by decide⟩
    · exact ⟨'f', "alse".toList, rfl, by decide, by decide⟩
  | number h =>
    obtain ⟨c, cs, hcs, hc⟩ := h.exists_head
    refine ⟨c, cs, hcs, ?_⟩
    rcases hc with rfl | hc
    · decide
    · exact ⟨(Number.ne_delimiter hc).1, (Number.ne_delimiter hc).2.2.1⟩
  | string h =>
    obtain ⟨pieces, -, rfl⟩ := h
    exact ⟨'"', _, rfl, by decide, by decide⟩
  | array => exact ⟨'[', _, rfl, by decide, by decide⟩
  | object => exact ⟨'\x7b', _, rfl, by decide, by decide⟩

theorem skipToken_word {word : List Char}
    (h : word = "null".toList ∨ word = "true".toList ∨ word = "false".toList) (rest : List Char) :
    skipToken (word ++ rest) = .ok (none, rest) := by
  rcases h with rfl | rfl | rfl <;> rfl

theorem skipToken_number {number rest : List Char} (h : IsNumber number)
    (hrest : IsDelimited rest) : skipToken (number ++ rest) = .ok (none, rest) := by
  have hskip := Number.skip_isNumber h hrest
  obtain ⟨c, cs, rfl, hc⟩ := h.exists_head
  have hfirst : isBlank c = false ∧ c ≠ 'n' ∧ c ≠ 't' ∧ c ≠ 'f' ∧
      (c = '-' || Number.isDigit c) = true := by
    rcases hc with rfl | hc
    · decide
    · exact Number.forall_isDigit (P := fun c => isBlank c = false ∧ c ≠ 'n' ∧ c ≠ 't' ∧ c ≠ 'f' ∧
        (c = '-' || Number.isDigit c) = true) (by decide) hc
  obtain ⟨hblank, hn, ht, hf, hnumber⟩ := hfirst
  rw [List.cons_append] at hskip ⊢
  rw [skipToken, skipBlanks_cons hblank]
  simp only [if_neg hn, if_neg ht, if_neg hf, if_pos hnumber, hskip]
  rfl

theorem skipToken_literal {literal : List Char} (h : IsLiteral literal) (rest : List Char) :
    skipToken (literal ++ rest) = .ok (none, rest) := by
  obtain ⟨body, hbody, hskip⟩ := Quoted.skip_isLiteral h rest
  rw [hbody, skipToken, skipBlanks_cons (by decide)]
  show (Quoted.skip body).map _ = _
  rw [hskip]
  rfl

/-- A key and its colon are passed over. -/
theorem skipKey_member {key : Spaced} (h : IsLiteral key.core) (cs : List Char) :
    skipKey (key.text ++ ':' :: cs) = .ok cs := by
  obtain ⟨body, hbody, hskip⟩ := Quoted.skip_isLiteral h (key.after ++ ':' :: cs)
  rw [Spaced.text, List.append_assoc, List.append_assoc, skipKey_append key.isBlanks_before, hbody,
    skipKey, skipBlanks_cons (by decide)]
  simp only [if_true, hskip]
  show skipColon _ = _
  rw [skipColon, skipBlanks_of_isBlanks key.isBlanks_after (by decide)]
  rfl

/-- **A value is passed over**, within any brackets, as if it were a single token. -/
theorem IsValue.isPassed {text : List Char} (h : IsValue text) : IsPassed text := by
  induction h with
  | word h =>
    refine isPassed_of_token ?_ fun rest _ => skipToken_word h rest
    rcases h with rfl | rfl | rfl <;> decide
  | number h =>
    refine isPassed_of_token ?_ fun rest hrest => skipToken_number h hrest
    obtain ⟨c, cs, rfl, -⟩ := h.exists_head
    exact List.cons_ne_nil c cs
  | string h =>
    refine isPassed_of_token ?_ fun rest _ => skipToken_literal h rest
    obtain ⟨pieces, -, rfl⟩ := h
    exact List.cons_ne_nil _ _
  | @array ws items hws hitems ih =>
    have hpassed := isPassed_bracketed .array (items.map (([], ·))) hws (by simp [enter]) ?_
      (by simpa using ih)
    · simpa [arrayText, Function.comp_def] using hpassed
    · intro item hmem
      obtain ⟨value, hvalue, rfl⟩ := List.mem_map.mp hmem
      obtain ⟨c, cs, hcore, hblank, hc⟩ := (hitems value hvalue).exists_head
      exact ⟨value.before, c, cs ++ value.after, value.isBlanks_before, hblank, hc,
        by rw [List.nil_append, Spaced.text, hcore, List.cons_append]⟩
  | @object ws members hws hkeys hvalues ih =>
    have hpassed := isPassed_bracketed .object
      (members.map fun m => (m.key.text ++ [':'], m.value)) hws ?_ ?_ (by simpa using ih)
    · have htexts : (members.map fun m => (m.key.text ++ [':'], m.value)).map
          (fun item => item.1 ++ item.2.text) = members.map Member.text := by
        rw [List.map_map]
        exact List.map_congr_left fun m _ => by simp [Member.text]
      rwa [htexts] at hpassed
    · intro item hmem cs
      obtain ⟨m, hm, rfl⟩ := List.mem_map.mp hmem
      rw [List.append_assoc, List.singleton_append]
      exact skipKey_member (hkeys m hm) cs
    · intro item hmem
      obtain ⟨m, hm, rfl⟩ := List.mem_map.mp hmem
      obtain ⟨pieces, -, hcore⟩ := hkeys m hm
      refine ⟨m.key.before, '"', pieces.flatten ++ '"' :: (m.key.after ++ ':' :: m.value.text),
        m.key.isBlanks_before, by decide, by decide, ?_⟩
      simp only [Spaced.text, hcore, List.append_assoc, List.cons_append, List.nil_append]

/-- **A value is passed over whole**, with the blanks in front of it. -/
theorem skipValue_isValue {value ws rest : List Char} (h : IsValue value) (hws : IsBlanks ws)
    (hrest : IsDelimited rest) : skipValue (ws ++ (value ++ rest)) = .ok rest := by
  obtain ⟨n, hn, hpass⟩ := h.isPassed
  have hlimit : (ws ++ (value ++ rest)).length + 1
      = ((ws ++ (value ++ rest)).length - n) + n + 1 := by
    simp only [List.length_append]
    omega
  rw [skipValue, hlimit, skipWithin_append hws, hpass _ _ _ hrest]
  rfl

end Json

end QueueDrain
