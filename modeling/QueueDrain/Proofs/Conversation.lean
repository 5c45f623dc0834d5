import QueueDrain.Proofs.Dialogue

/-!
# What a client sends

How far the dialogue on a connection has come, and what each operation of a client adds to it. A
client keeps what it has tried on every connection; the instants tell that nothing was tried out of
turn; and the deliveries that the stream still has to give, with those that were rejected, are never
more than the server has delivered.

## Main definitions

* `Amqp.Opened`, `Amqp.Consuming`, `Amqp.Leaving` — how far a dialogue has come
* `Amqp.Client.Speaks` — how far the dialogue of a client has come
* `Amqp.Client.Lines`, `Amqp.Client.Books` — whatever was sent conforms, and was delivered before
* `Amqp.Client.Adds` — what a client does that neither connects nor receives anything

## Main results

* `Amqp.Client.submit_adds`, `Amqp.Client.reject_adds`, … — what the operations of a client add
* `Amqp.Client.pass_books`, `Amqp.Client.establish_books` — what the server sends, and a connection
-/

namespace QueueDrain

namespace Amqp

variable {σ : Type} {P : Peer σ} {t : Target} {tag : String} {ms : List Method}

/-! ### How far a dialogue has come -/

/-- A session is open. -/
def Opened (t : Target) (ms : List Method) : Prop := ms = handshake t ++ channelOpening t

/-- There is a subscription, or there was one. -/
def Consuming (t : Target) (tag : String) (ms : List Method) : Prop :=
  ∃ middle, (∀ m ∈ middle, IsService t m) ∧ ms = handshake t ++ (opening t tag ++ middle)

/-- The subscription has been cancelled. -/
def Leaving (t : Target) (tag : String) (ms : List Method) : Prop :=
  ∃ middle late, (∀ m ∈ middle, IsService t m) ∧ (∀ m ∈ late, m.IsRejection) ∧
    ms = handshake t ++ (opening t tag ++ middle ++ .cancel tag false :: late)

/-- There is a subscription, or it has been cancelled. -/
def Serving (t : Target) (tag : String) (ms : List Method) : Prop :=
  Consuming t tag ms ∨ Leaving t tag ms

/-- Nothing has been closed. -/
def IsOpen (t : Target) (tag : String) (ms : List Method) : Prop :=
  ∃ dialogue, Dialogue t tag dialogue ∧ ms = handshake t ++ dialogue

theorem Opened.isOpen (h : Opened t ms) : IsOpen t tag ms :=
  ⟨_, dialogue_of_channelOpening (List.prefix_refl _), h⟩

theorem Consuming.isOpen (h : Consuming t tag ms) : IsOpen t tag ms := by
  obtain ⟨middle, hmiddle, rfl⟩ := h
  exact ⟨_, ⟨middle, [], hmiddle, by simp, List.prefix_append _ _⟩, rfl⟩

theorem Leaving.isOpen (h : Leaving t tag ms) : IsOpen t tag ms := by
  obtain ⟨middle, late, hmiddle, hlate, rfl⟩ := h
  exact ⟨_, ⟨middle, late, hmiddle, hlate, List.prefix_refl _⟩, rfl⟩

theorem Serving.isOpen (h : Serving t tag ms) : IsOpen t tag ms := h.elim (·.isOpen) (·.isOpen)

theorem IsOpen.close {closing : List Method} (h : IsOpen t tag ms)
    (hclosing : closing.Sublist [closeChannel, closeConnection]) :
    Conforms t tag (ms ++ closing) := by
  obtain ⟨dialogue, hdialogue, rfl⟩ := h
  exact hdialogue.conforms hclosing

theorem IsOpen.conforms (h : IsOpen t tag ms) : Conforms t tag ms := by
  simpa using h.close (List.nil_sublist _)

theorem Opened.subscribe (h : Opened t ms) (tag : String) :
    Consuming t tag (ms ++ [.consume t.spec.name tag {} []]) :=
  ⟨[], by simp, by rw [show ms = _ from h, opening_eq]; simp⟩

theorem Consuming.serve {m : Method} (h : Consuming t tag ms) (hm : IsService t m) :
    Consuming t tag (ms ++ [m]) := by
  obtain ⟨middle, hmiddle, rfl⟩ := h
  refine ⟨middle ++ [m], fun m' hm' => ?_, by simp⟩
  rcases List.mem_append.mp hm' with hm' | hm'
  · exact hmiddle m' hm'
  · exact List.mem_singleton.mp hm' ▸ hm

theorem Consuming.cancel (h : Consuming t tag ms) : Leaving t tag (ms ++ [.cancel tag false]) := by
  obtain ⟨middle, hmiddle, rfl⟩ := h
  exact ⟨middle, [], hmiddle, by simp, by simp⟩

theorem Leaving.reject {m : Method} (h : Leaving t tag ms) (hm : m.IsRejection) :
    Leaving t tag (ms ++ [m]) := by
  obtain ⟨middle, late, hmiddle, hlate, rfl⟩ := h
  refine ⟨middle, late ++ [m], hmiddle, fun m' hm' => ?_, by simp⟩
  rcases List.mem_append.mp hm' with hm' | hm'
  · exact hlate m' hm'
  · exact List.mem_singleton.mp hm' ▸ hm

theorem Serving.reject {m : Method} (h : Serving t tag ms) (hm : m.IsRejection) :
    Serving t tag (ms ++ [m]) := h.imp (·.serve (.inr hm)) (·.reject hm)

/-! ### Clients -/

/-- Of trials that are in order, those by some instant come first. -/
theorem sentBy_isPrefix {trials : List Trial} (h : InOrder trials) (now : Nat) :
    (trials.filter fun t => t.isSent && t.time ≤ now).map Trial.method <+: sent trials := by
  induction trials with
  | nil => exact List.prefix_refl _
  | cons trial rest ih =>
    obtain ⟨hfirst, hrest⟩ := List.pairwise_cons.mp h
    by_cases htime : trial.time ≤ now
    · have ih := ih hrest
      cases hsent : trial.isSent <;> simpa [sent, hsent, htime] using ih
    · -- nothing behind it is earlier
      rw [List.filter_eq_nil_iff.mpr]
      · exact List.nil_prefix
      · intro later hmem
        rcases List.mem_cons.mp hmem with rfl | hmem
        · simp [htime]
        · have := hfirst later hmem
          simp [show ¬later.time ≤ now by omega]

theorem modifyHead_append_nil (trials : List (List Trial)) :
    trials.modifyHead (· ++ []) = trials := by
  cases trials <;> simp

namespace Client

variable {c c' : Client σ} {now : Nat} {new : List Trial} {form form' : List Method → Prop}

/-- What was tried on the current connection was tried in order and by now, and what was sent of it
is of some form. -/
def Speaks (c : Client σ) (now : Nat) (form : List Method → Prop) : Prop :=
  ∃ current earlier, c.trials = current :: earlier ∧ InOrder current ∧
    (∀ trial ∈ current, trial.time ≤ now) ∧ form (sent current)

/-- Whatever was tried was tried in order, and what was sent of it conforms. -/
def Lines (t : Target) (tag : String) (c : Client σ) : Prop :=
  ∀ trials ∈ c.trials, InOrder trials ∧ Conforms t tag (sent trials)

/-- What was rejected was delivered on the same connection before. On the current connection, so was
what the stream still has to give, besides what was rejected. -/
structure Books (told : σ → List (List Nat)) (c : Client σ) : Prop where
  lines : List.Forall₂ (fun trials tags => ∀ tag,
    (sent trials).count (.reject tag false) ≤ tags.count tag) c.trials (told c.server)
  current {tags : List Nat} {earlier : List (List Nat)} (h : told c.server = tags :: earlier)
    (tag : Nat) :
    (sent (c.trials.headD [])).count (.reject tag false) + c.link.awaits tag ≤ tags.count tag

/-- What a client does that neither connects nor receives anything: it tries some methods on the
current connection, from now on. -/
structure Adds (P : Peer σ) (now : Nat) (c c' : Client σ) (new : List Trial) : Prop where
  trials : c'.trials = c.trials.modifyHead (· ++ new)
  inOrder : InOrder new
  time_le : ∀ trial ∈ new, now ≤ trial.time
  awaits (tag : Nat) : (sent new).count (.reject tag false) + c'.link.awaits tag ≤ c.link.awaits tag
  told {told : σ → List (List Nat)} (h : P.Records told) : told c'.server = told c.server

theorem Speaks.mono {now' : Nat} (h : c.Speaks now form) (hnow : now ≤ now')
    (htrials : c'.trials = c.trials) (hform : ∀ ms, form ms → form' ms) :
    c'.Speaks now' form' := by
  obtain ⟨current, earlier, hc, horder, htime, hsent⟩ := h
  exact ⟨current, earlier, htrials.trans hc, horder,
    fun trial hmem => Nat.le_trans (htime trial hmem) hnow, hform _ hsent⟩

theorem Adds.speaks (h : Adds P now c c' new) (hs : c.Speaks now form)
    (htime : ∀ trial ∈ new, trial.time = now) (hform : ∀ ms, form ms → form' (ms ++ sent new)) :
    c'.Speaks now form' := by
  obtain ⟨current, earlier, hc, horder, hle, hsent⟩ := hs
  refine ⟨current ++ new, earlier, by rw [h.trials, hc]; rfl, ?_, fun trial hmem => ?_, ?_⟩
  · exact List.pairwise_append.mpr ⟨horder, h.inOrder, fun a ha b hb =>
      Nat.le_trans (hle a ha) (h.time_le b hb)⟩
  · rcases List.mem_append.mp hmem with hmem | hmem
    · exact hle trial hmem
    · exact Nat.le_of_eq (htime trial hmem)
  · rw [sent_append]
    exact hform _ hsent

theorem Adds.lines (h : Adds P now c c' new) (hl : c.Lines t tag) (hs : c.Speaks now form)
    (hform : ∀ ms, form ms → Conforms t tag (ms ++ sent new)) : c'.Lines t tag := by
  obtain ⟨current, earlier, hc, horder, hle, hsent⟩ := hs
  intro trials hmem
  rw [h.trials, hc, List.modifyHead_cons, List.mem_cons] at hmem
  rcases hmem with rfl | hmem
  · refine ⟨List.pairwise_append.mpr ⟨horder, h.inOrder, fun a ha b hb =>
      Nat.le_trans (hle a ha) (h.time_le b hb)⟩, ?_⟩
    rw [sent_append]
    exact hform _ hsent
  · exact hl trials (hc ▸ List.mem_cons_of_mem _ hmem)

/-- What was delivered was delivered, or is delivered now, and what is tried is accounted for. -/
theorem Books.of_trials {told : σ → List (List Nat)} (tags : List Nat) (hb : c.Books told)
    (htrials : c'.trials = c.trials.modifyHead (· ++ new))
    (htold : told c'.server = deliverMore tags (told c.server))
    (hawaits : ∀ tag, (sent new).count (.reject tag false) + c'.link.awaits tag
      ≤ c.link.awaits tag + tags.count tag) : c'.Books told := by
  have hlines := hb.lines
  rcases hc : c.trials with _ | ⟨current, earlier⟩ <;>
    rcases ht : told c.server with _ | ⟨before, earlierTags⟩ <;>
    rw [hc, ht] at hlines <;> rw [hc] at htrials <;> rw [ht] at htold
  · refine ⟨by rw [htrials, htold]; exact .nil, fun h => ?_⟩
    cases htold.symm.trans h
  · cases hlines
  · cases hlines
  · obtain _ | ⟨-, htail⟩ := hlines
    have hsum : ∀ tag, (sent (current ++ new)).count (.reject tag false) + c'.link.awaits tag
        ≤ (before ++ tags).count tag := fun tag => by
      have hbefore := hb.current ht tag
      have hnew := hawaits tag
      rw [hc, List.headD_cons] at hbefore
      rw [sent_append, List.count_append, List.count_append]
      omega
    refine ⟨?_, fun h tag => ?_⟩
    · rw [htrials, htold]
      exact .cons (fun tag => Nat.le_trans (Nat.le_add_right ..) (hsum tag)) htail
    · cases htold.symm.trans h
      rw [htrials]
      exact hsum tag

theorem Adds.books {told : σ → List (List Nat)} (h : Adds P now c c' new) (hP : P.Records told)
    (hb : c.Books told) : c'.Books told := by
  refine hb.of_trials [] h.trials ?_ fun tag => by simpa using h.awaits tag
  rw [h.told hP]
  cases told c.server <;> simp [deliverMore]

/-! ### What a client does -/

/-- Nothing is tried, and nothing is received. -/
theorem adds_nil (htrials : c'.trials = c.trials) (hserver : c'.server = c.server)
    (hawaits : ∀ tag, c'.link.awaits tag ≤ c.link.awaits tag) (now : Nat) :
    Adds P now c c' [] where
  trials := by rw [htrials, modifyHead_append_nil]
  inOrder := .nil
  time_le := by simp
  awaits tag := by simpa using hawaits tag
  told _ := by rw [hserver]

/-- A turn is nothing that a peer could see. -/
theorem turn_adds (P : Peer σ) (now : Nat) (c : Client σ) : Adds P now c c.turn [] := by
  refine adds_nil ?_ ?_ (fun tag => ?_) now
  · rfl
  · rfl
  · exact Nat.le_refl _

theorem finishReject_state (tag : Nat) (c : Client σ) : (finishReject tag c).state = c.turn := by
  rw [finishReject]
  split <;> rfl

theorem note_eq {current : List Trial} {earlier : List (List Trial)}
    (h : c.trials = current :: earlier) (trial : Trial) :
    c.note trial = { c with trials := c.trials.modifyHead (· ++ [trial]) } := by
  simp [note, h]

/-- A method with an answer is sent, unless its request fails because it cannot be. -/
theorem submit_adds {m : Method} (hs : c.Speaks now form) (hm : ∀ tag, m ≠ .reject tag false)
    (P : Peer σ) :
    ∃ new, Adds P now c (submit P now m c).state new ∧ (∀ trial ∈ new, trial.time = now) ∧
      (sent new = [m] ∨
        (sent new = [] ∧ ∃ cause, (submit P now m c).state.ending = some (.error cause))) := by
  obtain ⟨current, earlier, hc, -⟩ := hs
  have hnote := note_eq (c := { c with waiting := some m, ending := none, notices := [] }) hc
  rw [submit]
  split
  next cause _ =>
    refine ⟨[⟨now, m, false, some cause⟩], ⟨?_, List.pairwise_singleton .., by simp, fun tag => ?_,
      fun _ => ?_⟩, by simp, .inr ⟨rfl, _, rfl⟩⟩ <;> rw [hnote]
    simp [sent]
  next =>
    refine ⟨[⟨now, m, true, none⟩], ⟨?_, List.pairwise_singleton .., by simp, fun tag => ?_,
      fun hP => hP.receive _ _ _⟩, by simp, .inl rfl⟩ <;> rw [hnote]
    simp [sent, hm tag]

/-- What the stream gives is not given again. -/
theorem count_ask_le (l : Link) (tag : Nat) :
    [l.ask.2].count (.delivery tag) + l.ask.1.awaits tag ≤ l.awaits tag := by
  rcases l with ⟨connection, channel, _ | _ | ⟨offer, rest⟩⟩
  · simp [Link.ask, Link.awaits]
  · simp [Link.ask, Link.awaits]
  · cases offer <;> simp [Link.ask, Link.awaits, List.count_cons]
    omega

theorem ask_adds (P : Peer σ) (now : Nat) (c : Client σ) : Adds P now c c.ask.state [] := by
  refine adds_nil ?_ ?_ (fun tag => ?_) now
  · rfl
  · rfl
  · exact Nat.le_trans (Nat.le_add_left ..) (count_ask_le c.link tag)

/-- A delivery that the stream has given is rejected. -/
theorem reject_adds {n : Nat} (hs : c.Speaks now form)
    (hask : c.ask.value = .delivery n) (P : Peer σ) :
    ∃ new, Adds P now c (startReject P now n c.ask.state).state new ∧
      (∀ trial ∈ new, trial.time = now) ∧ (sent new = [.reject n false] ∨ sent new = []) := by
  obtain ⟨current, earlier, hc, -⟩ := hs
  have hnote := note_eq (c := c.ask.state) hc
  have hawaits (tag : Nat) :
      (if n = tag then 1 else 0) + c.ask.state.link.awaits tag ≤ c.link.awaits tag := by
    have hcount : [c.ask.value].count (.delivery tag) + c.ask.state.link.awaits tag
        ≤ c.link.awaits tag := count_ask_le c.link tag
    simpa [hask, List.count_singleton] using hcount
  rw [startReject]
  split
  next cause _ =>
    refine ⟨[⟨now, .reject n false, false, some cause⟩], ⟨?_, List.pairwise_singleton .., by simp,
      fun tag => ?_, fun _ => ?_⟩, by simp, .inr rfl⟩ <;> rw [hnote]
    · rfl
    · simpa [sent] using Nat.le_trans (Nat.le_add_left ..) (hawaits tag)
    · rfl
  next =>
    refine ⟨[⟨now, .reject n false, true, none⟩], ⟨?_, List.pairwise_singleton .., by simp,
      fun tag => ?_, fun hP => hP.receive _ _ _⟩, by simp, .inl rfl⟩ <;> rw [hnote]
    · rfl
    · simpa [sent, List.count_singleton] using hawaits tag

theorem note_server (c : Client σ) (trial : Trial) : (c.note trial).server = c.server := by
  rw [note]
  split <;> rfl

theorem note_link (c : Client σ) (trial : Trial) : (c.note trial).link = c.link := by
  rw [note]
  split <;> rfl

theorem foldl_note_keeps {α : Type} {f : Client σ → α} (hf : ∀ c trial, f (c.note trial) = f c)
    (trials : List Trial) (c : Client σ) : f (trials.foldl note c) = f c := by
  induction trials generalizing c with
  | nil => rfl
  | cons trial rest ih => rw [List.foldl_cons, ih, hf]

theorem foldl_note_trials {current : List Trial} {earlier : List (List Trial)}
    (trials : List Trial) (h : c.trials = current :: earlier) :
    (trials.foldl note c).trials = (current ++ trials) :: earlier := by
  induction trials generalizing c current with
  | nil => simpa using h
  | cons trial rest ih =>
    have hnote : (c.note trial).trials = (current ++ [trial]) :: earlier := by
      rw [note_eq h, h]
      rfl
    rw [List.foldl_cons, ih hnote, List.append_assoc]
    rfl

/-- The channel and the connection are closed, as far as they can be. -/
theorem close_adds (hs : c.Speaks now form) (P : Peer σ) (t : Target) :
    ∃ new, Adds P now c (start P t now .close c).state new ∧
      (sent new).Sublist [closeChannel, closeConnection] := by
  obtain ⟨current, earlier, hc, -⟩ := hs
  obtain ⟨ms, hsends, hsublist⟩ := closeAll_sends P [closeChannel, closeConnection]
    { server := c.server, link := c.link, time := now }
  obtain ⟨new, htrials, rfl, horder, htime⟩ := hsends.trials
  rw [List.nil_append] at htrials
  have hnone : ∀ tag, (sent new).count (.reject tag false) = 0 := fun tag =>
    List.count_eq_zero_of_not_mem fun hmem => by
      simpa [closeChannel, closeConnection] using hsublist.subset hmem
  refine ⟨new, ⟨?_, horder, fun trial hmem => (htime trial hmem).1, fun tag => ?_, fun hP => ?_⟩,
    hsublist⟩ <;> simp only [start, close, htrials]
  · rw [hc, List.modifyHead_cons]
    exact foldl_note_trials new rfl
  · rw [foldl_note_keeps note_link, hnone]
    exact Nat.le_trans (Nat.le_of_eq (Nat.zero_add _)) (Nat.zero_le _)
  · rw [foldl_note_keeps note_server]
    exact hsends.told hP

theorem collect_adds (P : Peer σ) (now : Nat) (m : Method) (c : Client σ) :
    Adds P now c (c.collect P now m).1 [] := by
  rw [collect]
  split
  next server messages consumers h =>
    exact ⟨(modifyHead_append_nil _).symm, .nil, by simp,
      fun tag => by simpa using c.link.awaits_confirm_le tag m, fun hP => by
        rw [← hP.reply now m c.server, h]⟩
  next server k h =>
    exact ⟨(modifyHead_append_nil _).symm, .nil, by simp,
      fun tag => by simpa using Nat.le_of_eq (c.link.awaits_cut tag k), fun hP => by
        rw [← hP.reply now m c.server, h]⟩

/-- Whatever the answer to a request is, nothing is tried. -/
theorem answer_adds (P : Peer σ) (t : Target) (now : Nat) (request : Request) (c : Client σ) :
    Adds P now c (answer P t now request c).state [] := by
  have hidle : ∀ {c' : Client σ}, Adds P now c c' [] → Adds P now c
      { c' with waiting := none, ending := none, notices := [] } [] :=
    fun h => ⟨h.trials, h.inOrder, h.time_le, h.awaits, h.told⟩
  have hcollect := collect_adds P now (method t request) c
  rw [answer]
  split
  · exact hidle (adds_nil rfl rfl (fun _ => Nat.le_refl _) now)
  · rcases hc : c.collect P now (method t request) with ⟨c', cause | ⟨messages, _⟩⟩ <;>
      rw [hc] at hcollect
    · exact hidle hcollect
    · exact hidle hcollect

/-! ### What comes with the clock -/

/-- Something comes: the link takes it in, and a request whose end was not known may fail. -/
theorem absorb_eq (t : Target) (c : Client σ) (push : Push) :
    ∃ ending, absorb t c push = { c with link := c.link.absorb push, ending } ∧
      ∀ result, c.ending = some result → ending = some result := by
  obtain ⟨server, link, trials, waiting, ending, notices, refused, interruptAt, turns⟩ := c
  cases push with
  | delivery tag | consumerCancelled => exact ⟨ending, rfl, fun _ h => h⟩
  | cut k =>
    cases waiting with
    | none => exact ⟨ending, rfl, fun _ h => h⟩
    | some m =>
      cases ending with
      | some result => exact ⟨some result, rfl, fun _ h => h⟩
      | none => exact ⟨_, rfl, fun _ h => by cases h⟩

theorem foldl_absorb (t : Target) (pushes : List Push) (c : Client σ) :
    (pushes.foldl (absorb t) c).trials = c.trials ∧
      (pushes.foldl (absorb t) c).server = c.server ∧
      ∀ tag, (pushes.foldl (absorb t) c).link.awaits tag
        ≤ c.link.awaits tag + (pushes.filterMap Push.tag?).count tag := by
  induction pushes generalizing c with
  | nil => exact ⟨rfl, rfl, fun _ => Nat.le_refl _⟩
  | cons push rest ih =>
    obtain ⟨ending, heq, -⟩ := absorb_eq t c push
    obtain ⟨htrials, hserver, hawaits⟩ := ih (absorb t c push)
    rw [heq] at htrials hserver hawaits
    rw [List.foldl_cons, heq]
    refine ⟨htrials, hserver, fun tag => ?_⟩
    have hcount : ((push :: rest).filterMap Push.tag?).count tag
        = push.tag?.toList.count tag + (rest.filterMap Push.tag?).count tag := by
      rw [List.filterMap_cons]
      cases push.tag? <;> simp [List.count_cons, Nat.add_comm]
    have hrest := hawaits tag
    have hfirst := c.link.awaits_absorb_le tag push
    rw [hcount]
    dsimp only at hrest
    omega

theorem pushed_keeps (P : Peer σ) (t : Target) (now : Nat) (c : Client σ) :
    (c.pushed P t now).trials = c.trials ∧ (c.pushed P t now).server = (P.push now c.server).1 ∧
      ∀ tag, (c.pushed P t now).link.awaits tag
        ≤ c.link.awaits tag + ((P.push now c.server).2.filterMap Push.tag?).count tag :=
  foldl_absorb t _ _

theorem pass_ending {result : Except DrainError Nat} (h : c.ending = some result) (P : Peer σ)
    (t : Target) (now : Nat) : (pass P t now c).state.ending = some result :=
  pass_keeps (Q := fun c => c.ending = some result) (fun _ _ h => h)
    (fun c push h => by
      obtain ⟨ending, heq, hending⟩ := absorb_eq t c push
      rw [heq]
      exact hending _ h)
    (fun _ h => h) now h

theorem pass_trials (P : Peer σ) (t : Target) (now : Nat) (c : Client σ) :
    (pass P t now c).state.trials = c.trials :=
  pass_keeps (Q := fun c' => c'.trials = c.trials) (fun _ _ h => h)
    (fun c push h => by
      obtain ⟨ending, heq, -⟩ := absorb_eq t c push
      rw [heq]
      exact h)
    (fun _ h => h) now rfl

/-- What the server has delivered is in the stream now, or lost. -/
theorem pass_books {told : σ → List (List Nat)} (hP : P.Records told) (hb : c.Books told)
    (t : Target) (now : Nat) : (pass P t now c).state.Books told := by
  obtain ⟨htrials, hserver, hawaits⟩ := pushed_keeps P t now c
  have hbooks : (c.pushed P t now).Books told :=
    hb.of_trials _ (htrials.trans (modifyHead_append_nil c.trials).symm)
      (by rw [hserver]; exact hP.push now c.server) fun tag => by simpa using hawaits tag
  rw [pass_eq]
  rcases alert_state_eq_or now (c.pushed P t now) with ha | ha <;> rw [ha]
  · exact hbooks
  · exact ⟨hbooks.lines, hbooks.current⟩

/-! ### Another connection -/

/-- An attempt at a session is one connection more. -/
theorem establish_eq (P : Peer σ) (t : Target) (now : Nat) (c : Client σ) :
    let attempt := Amqp.establish P t now c.server
    (start P t now .establish c).state.trials = attempt.1.trials :: c.trials ∧
      (start P t now .establish c).state.server = attempt.1.server ∧
      (start P t now .establish c).state.link = attempt.1.link := ⟨rfl, rfl, rfl⟩

theorem establish_lines (hl : c.Lines t tag) (P : Peer σ) (now : Nat) :
    (start P t now .establish c).state.Lines t tag := by
  have hattempts := establish_attempts P t now c.server
  intro trials hmem
  rw [(establish_eq P t now c).1, List.mem_cons] at hmem
  rcases hmem with rfl | hmem
  · exact ⟨hattempts.inOrder, hattempts.isAttempt.conforms tag⟩
  · exact hl trials hmem

theorem establish_books {told : σ → List (List Nat)} (hP : P.Records told) (hb : c.Books told)
    (t : Target) (now : Nat) : (start P t now .establish c).state.Books told := by
  have hattempts := establish_attempts P t now c.server
  obtain ⟨htrials, hserver, hlink⟩ := establish_eq P t now c
  have hnone := fun tag => hattempts.isAttempt.count_reject tag
  have htold := hattempts.told hP
  rw [← hserver] at htold
  refine ⟨?_, fun h tag => ?_⟩
  · rw [htrials, htold]
    exact .cons (fun tag => Nat.le_trans (Nat.le_of_eq (hnone tag)) (Nat.zero_le _)) hb.lines
  · rw [htrials, List.headD_cons, hlink, hnone, hattempts.awaits]
    exact Nat.zero_le _

end Client

end Amqp

end QueueDrain
