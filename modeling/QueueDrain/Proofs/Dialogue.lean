import QueueDrain.Proofs.Conflict

/-!
# What is sent on a connection

A session is one connection with one channel, and what the client sends there follows one pattern:
the handshake; then the channel is opened, limited, and the queue declared; a subscription, with
declarations and rejections in any order while it lasts; its cancellation, with rejections behind
it; and in the end the channel and the connection are closed, each unless it is closed already. The
pattern may be cut off anywhere. Here it is stated, and proved of the sequences that open and close
a session.

## Main definitions

* `Amqp.sent` — the methods of some trials that were sent
* `Amqp.Dialogue`, `Amqp.Conforms` — the pattern
* `Amqp.Ends` — the pattern, with closes for whatever reason
* `Amqp.Peer.Records`, `Amqp.Peer.recording` — a record of what a server has delivered on each
  connection
* `Amqp.Returns` — whatever is rejected was delivered, and is not rejected twice
* `Amqp.Link.awaits` — how often a delivery will still be given
* `Amqp.Progress.Sends` — what a sequence of methods has sent, and all that it leaves as it was

## Main results

* `Amqp.Conforms.cut_off`, `Amqp.Conforms.part` — the pattern may be cut off anywhere, and handles
  may be dropped at any time
* `Amqp.closeAll_sends`, `Amqp.establish_attempts` — what closing and opening a session sends
-/

namespace QueueDrain

namespace Amqp

variable {σ : Type} {P : Peer σ} {t : Target} {tag : String} {p p' p'' : Progress σ}

/-! ### The pattern -/

/-- The methods of some trials that were sent, in order. -/
def sent (trials : List Trial) : List Method := (trials.filter Trial.isSent).map Trial.method

@[simp] theorem sent_nil : sent [] = [] := rfl

@[simp] theorem sent_append (ts ts' : List Trial) : sent (ts ++ ts') = sent ts ++ sent ts' := by
  simp [sent]

/-- Trials in the order of their instants. -/
def InOrder (trials : List Trial) : Prop := trials.Pairwise fun earlier later =>
  earlier.time ≤ later.time

/-- A delivery is rejected, not to be queued again. -/
def Method.IsRejection (m : Method) : Prop := ∃ tag, m = .reject tag false

/-- The methods up to the first declaration of the queue. -/
def channelOpening (t : Target) : List Method := channelSetup t ++ [.ofSpec t.spec]

/-- The methods up to the subscription. -/
def opening (t : Target) (tag : String) : List Method :=
  [.openChannel 1, .qos t.prefetch false, .ofSpec t.spec, .consume t.spec.name tag {} []]

/-- What is sent while the subscription lasts. -/
def IsService (t : Target) (m : Method) : Prop := m = .ofSpec t.spec ∨ m.IsRejection

/-- What is sent on an open connection until it is closed, cut off anywhere. -/
def Dialogue (t : Target) (tag : String) (ms : List Method) : Prop :=
  ∃ middle late, (∀ m ∈ middle, IsService t m) ∧ (∀ m ∈ late, m.IsRejection) ∧
    ms <+: opening t tag ++ middle ++ .cancel tag false :: late

/-- What is sent on a connection: the handshake, a dialogue, and the closes of the channel and of
the connection, or one of them, or none. -/
def Conforms (t : Target) (tag : String) (ms : List Method) : Prop :=
  ms <+: handshake t ∨
    ∃ dialogue closing, ms = handshake t ++ dialogue ++ closing ∧ Dialogue t tag dialogue ∧
      closing.Sublist [closeChannel, closeConnection]

theorem opening_eq (t : Target) (tag : String) :
    opening t tag = channelOpening t ++ [.consume t.spec.name tag {} []] := rfl

theorem Dialogue.cut_off {ms ms' : List Method} (h : Dialogue t tag ms) (hp : ms' <+: ms) :
    Dialogue t tag ms' := by
  obtain ⟨middle, late, hmiddle, hlate, hms⟩ := h
  exact ⟨middle, late, hmiddle, hlate, hp.trans hms⟩

theorem dialogue_of_channelOpening {ms : List Method} (h : ms <+: channelOpening t) :
    Dialogue t tag ms := by
  refine ⟨[], [], by simp, by simp, h.trans ?_⟩
  rw [opening_eq, List.append_nil, List.append_assoc]
  exact List.prefix_append _ _

/-- **The pattern may be cut off anywhere.** -/
theorem Conforms.cut_off {ms ms' : List Method} (h : Conforms t tag ms) (hp : ms' <+: ms) :
    Conforms t tag ms' := by
  rcases h with h | ⟨dialogue, closing, rfl, hdialogue, hclosing⟩
  · exact .inl (hp.trans h)
  rw [List.prefix_iff_eq_take, List.append_assoc, List.take_append, List.take_append] at hp
  have htake := fun n (l : List Method) => List.take_prefix n l
  rcases Nat.le_total ms'.length (handshake t).length with hle | hle
  · refine .inl ?_
    rw [hp, Nat.sub_eq_zero_of_le hle, Nat.zero_sub, List.take_zero, List.take_zero,
      List.append_nil, List.append_nil]
    exact htake _ _
  · rw [List.take_of_length_le hle, ← List.append_assoc] at hp
    exact .inr ⟨_, _, hp, hdialogue.cut_off (htake _ _),
      (List.take_sublist _ _).trans hclosing⟩

/-- A dialogue is closed. -/
theorem Dialogue.conforms {ms closing : List Method} (h : Dialogue t tag ms)
    (hclosing : closing.Sublist [closeChannel, closeConnection]) :
    Conforms t tag (handshake t ++ ms ++ closing) := .inr ⟨ms, closing, rfl, h, hclosing⟩

/-- The pattern, with closes for whatever reason. -/
def Ends (t : Target) (tag : String) (ms : List Method) : Prop :=
  ∃ before closing, ms = before ++ closing ∧
    (before <+: handshake t ∨
      ∃ dialogue, before = handshake t ++ dialogue ∧ Dialogue t tag dialogue) ∧
    (closing.map Method.name).Sublist ["channel.close", "connection.close"]

theorem parting_sublist (ms : List Method) :
    ((parting ms).map Method.name).Sublist ["channel.close", "connection.close"] := by
  rw [parting]
  split
  · exact List.nil_sublist _
  · split
    · exact .refl _
    · exact List.sublist_cons_self _ _

theorem parting_of_closeChannel {ms : List Method} (h : closeChannel ∈ ms) :
    ((parting ms).map Method.name).Sublist ["connection.close"] := by
  have hsent : (ms.any fun m => m.name == "channel.close") = true :=
    List.any_eq_true.mpr ⟨_, h, rfl⟩
  simp only [parting, hsent]
  split
  · exact List.nil_sublist _
  · simp [Method.name]

theorem parting_of_closeConnection {ms : List Method} (h : closeConnection ∈ ms) :
    parting ms = [] := by
  have hsent : (ms.any fun m => m.name == "connection.close") = true :=
    List.any_eq_true.mpr ⟨_, h, rfl⟩
  rw [parting, if_pos hsent]

/-- **Handles may be dropped at any time**: what they close keeps to the pattern. -/
theorem Conforms.part {ms closing : List Method} (h : Conforms t tag ms)
    (hclosing : closing.Sublist (parting ms)) : Ends t tag (ms ++ closing) := by
  have hnames := hclosing.map Method.name
  rcases h with h | ⟨dialogue, closes, rfl, hdialogue, hcloses⟩
  · exact ⟨ms, closing, rfl, .inl h, hnames.trans (parting_sublist ms)⟩
  refine ⟨handshake t ++ dialogue, closes ++ closing, List.append_assoc ..,
    .inr ⟨_, rfl, hdialogue⟩, ?_⟩
  rw [List.map_append]
  by_cases hconnection : closeConnection ∈ closes
  · rw [parting_of_closeConnection (List.mem_append_right _ hconnection)] at hnames
    rw [List.sublist_nil.mp hnames, List.append_nil]
    exact hcloses.map Method.name
  · -- then the channel is closed at most
    rcases List.sublist_cons_iff.mp hcloses with hrest | ⟨rest, rfl, hrest⟩ <;>
      rcases List.sublist_singleton.mp hrest with rfl | rfl
    · exact hnames.trans (parting_sublist _)
    · exact absurd List.mem_cons_self hconnection
    · have hparting := parting_of_closeChannel
        (List.mem_append_right (handshake t ++ dialogue) (List.mem_singleton_self closeChannel))
      exact (hnames.trans hparting).cons_cons _
    · exact absurd (List.mem_cons_of_mem _ List.mem_cons_self) hconnection

/-- What stands in a sequence of the pattern. -/
theorem Conforms.mem {ms : List Method} {m : Method} (h : Conforms t tag ms) (hm : m ∈ ms) :
    m ∈ handshake t ∨ m ∈ opening t tag ∨ IsService t m ∨ m = .cancel tag false ∨
      m ∈ [closeChannel, closeConnection] := by
  rcases h with h | ⟨dialogue, closing, rfl, ⟨middle, late, hmiddle, hlate, hcut⟩, hclosing⟩
  · exact .inl (h.subset hm)
  rw [List.append_assoc, List.mem_append, List.mem_append] at hm
  rcases hm with hm | hm | hm
  · exact .inl hm
  · have hm := hcut.subset hm
    rw [List.append_assoc, List.mem_append, List.mem_append, List.mem_cons] at hm
    rcases hm with hm | hm | rfl | hm
    · exact .inr (.inl hm)
    · exact .inr (.inr (.inl (hmiddle m hm)))
    · exact .inr (.inr (.inr (.inl rfl)))
    · exact .inr (.inr (.inl (.inr (hlate m hm))))
  · exact .inr (.inr (.inr (.inr (hclosing.subset hm))))

/-- One queue is declared, always in the same way. -/
theorem Conforms.declare_eq {ms : List Method} {name : String} {options : DeclareOptions}
    {arguments : List (String × String)} (h : Conforms t tag ms)
    (hm : .declare name options arguments ∈ ms) :
    Method.declare name options arguments = .ofSpec t.spec := by
  rcases h.mem hm with hm | hm | (hm | ⟨_, hm⟩) | hm | hm
  · simp [handshake, Method.login] at hm
  · simpa [opening] using hm
  · exact hm
  · cases hm
  · cases hm
  · simp [closeChannel, closeConnection] at hm

/-- Nothing is queued again. -/
theorem Conforms.requeue_eq {ms : List Method} {n : Nat} {requeue : Bool} (h : Conforms t tag ms)
    (hm : .reject n requeue ∈ ms) : requeue = false := by
  rcases h.mem hm with hm | hm | (hm | ⟨_, hm⟩) | hm | hm
  · simp [handshake, Method.login] at hm
  · simp [opening, Method.ofSpec] at hm
  · simp [Method.ofSpec] at hm
  · exact (Method.reject.inj hm).2
  · cases hm
  · simp [closeChannel, closeConnection] at hm

/-! ### Deliveries -/

/-- The delivery that something is which a server sends of its own accord. -/
def Push.tag? : Push → Option Nat
  | .delivery tag => some tag
  | _ => none

/-- More deliveries on the latest connection, if there is one. -/
def deliverMore (tags : List Nat) : List (List Nat) → List (List Nat)
  | [] => []
  | current :: earlier => (current ++ tags) :: earlier

/-- A record of what a server has delivered on each connection, the latest connection first. -/
structure Peer.Records (P : Peer σ) (told : σ → List (List Nat)) : Prop where
  connect (now : Nat) (s : σ) : told (P.connect now s).1 = [] :: told s
  receive (now : Nat) (m : Method) (s : σ) : told (P.receive now m s).state = told s
  reply (now : Nat) (m : Method) (s : σ) : told (P.reply now m s).1 = told s
  push (now : Nat) (s : σ) :
    told (P.push now s).1 = deliverMore ((P.push now s).2.filterMap Push.tag?) (told s)

/-- A server that keeps such a record, and behaves as the given one otherwise. -/
def Peer.recording (P : Peer σ) : Peer (σ × List (List Nat)) where
  connect now s := (((P.connect now s.1).1, [] :: s.2), (P.connect now s.1).2)
  receive now m s :=
    let got := P.receive now m s.1
    { state := (got.state, s.2), due := got.due, interrupts := got.interrupts }
  reply now m s := (((P.reply now m s.1).1, s.2), (P.reply now m s.1).2)
  nextPush s := P.nextPush s.1
  push now s :=
    let (server, pushes) := P.push now s.1
    ((server, deliverMore (pushes.filterMap Push.tag?) s.2), pushes)
  race turns s := P.race turns s.1
  consumerFirst turns s := P.consumerFirst turns s.1

theorem recording_records (P : Peer σ) : P.recording.Records Prod.snd where
  connect _ _ := rfl
  receive _ _ _ := rfl
  reply _ _ _ := rfl
  push _ _ := rfl

/-- Whatever is rejected was delivered, and is rejected no more often than it was delivered; once at
most, if the server tells its deliveries apart. -/
structure Returns (tags : List Nat) (ms : List Method) : Prop where
  delivered {n : Nat} {requeue : Bool} (h : .reject n requeue ∈ ms) : requeue = false ∧ n ∈ tags
  count_le (n : Nat) : ms.count (.reject n false) ≤ tags.count n
  once (h : tags.Nodup) (n : Nat) : ms.count (.reject n false) ≤ 1

theorem Conforms.returns {ms : List Method} {tags : List Nat} (h : Conforms t tag ms)
    (hcount : ∀ n, ms.count (.reject n false) ≤ tags.count n) : Returns tags ms where
  delivered {n _} hm := by
    obtain rfl := h.requeue_eq hm
    exact ⟨rfl, List.count_pos_iff.mp (Nat.lt_of_lt_of_le (List.count_pos_iff.mpr hm) (hcount n))⟩
  count_le := hcount
  once hnodup n := Nat.le_trans (hcount n) (List.nodup_iff_count.mp hnodup n)

namespace Link

variable (l : Link) (tag : Nat)

/-- How often the delivery stream will still give a delivery. -/
def awaits (l : Link) (tag : Nat) : Nat := (l.stream.getD []).count (.delivery tag)

/-- Something that is no delivery is added to what the stream still has to give. -/
theorem count_append_of_ne {offers : List Offer} (h : .delivery tag ∉ offers) :
    ((l.stream.map (· ++ offers)).getD []).count (.delivery tag) = l.awaits tag := by
  rw [awaits]
  cases l.stream with
  | none => rfl
  | some stream => simp [List.count_eq_zero_of_not_mem h]

theorem awaits_confirm_le (m : Method) : (l.confirm m).awaits tag ≤ l.awaits tag := by
  cases m with
  | cancel name nowait => exact Nat.le_of_eq (l.count_append_of_ne tag (by simp))
  | consume | closeChannel | closeConnection => exact Nat.zero_le _
  | _ => exact Nat.le_refl _

theorem awaits_cut (k : Closure) : (l.cut k).awaits tag = l.awaits tag := by
  cases k <;> exact l.count_append_of_ne tag (by simp)

/-- A delivery that comes will be given once, if there is a subscription. -/
theorem awaits_absorb_le (push : Push) :
    (l.absorb push).awaits tag ≤ l.awaits tag + push.tag?.toList.count tag := by
  cases push with
  | delivery other =>
    rw [awaits, awaits, absorb]
    cases l.stream with
    | none => simp
    | some stream => simp [List.count_append, List.count_singleton, Push.tag?]
  | consumerCancelled => exact Nat.le_of_eq (l.count_append_of_ne tag (by simp))
  | cut k => exact Nat.le_of_eq (l.awaits_cut tag k)

end Link

/-! ### Sequences of methods -/

/-- A sequence that has come from `p` to `p'` has sent `ms`, one after the other, and has left the
deliveries to the stream and to the server. -/
structure Progress.Sends (P : Peer σ) (p p' : Progress σ) (ms : List Method) : Prop where
  trials : ∃ new, p'.trials = p.trials ++ new ∧ sent new = ms ∧ InOrder new ∧
    ∀ trial ∈ new, p.time ≤ trial.time ∧ trial.time ≤ p'.time
  time_le : p.time ≤ p'.time
  awaits (tag : Nat) : p'.link.awaits tag ≤ p.link.awaits tag
  told {told : σ → List (List Nat)} (h : P.Records told) : told p'.server = told p.server

namespace Progress

theorem Sends.refl (P : Peer σ) (p : Progress σ) : p.Sends P p [] where
  trials := ⟨[], by simp, rfl, .nil, by simp⟩
  time_le := Nat.le_refl _
  awaits _ := Nat.le_refl _
  told _ := rfl

theorem Sends.trans {ms ms' : List Method} (h : p.Sends P p' ms) (h' : p'.Sends P p'' ms') :
    p.Sends P p'' (ms ++ ms') where
  trials := by
    obtain ⟨new, htrials, hsent, horder, htime⟩ := h.trials
    obtain ⟨new', htrials', hsent', horder', htime'⟩ := h'.trials
    have hle := h.time_le
    have hle' := h'.time_le
    refine ⟨new ++ new', by rw [htrials', htrials, List.append_assoc], by
      rw [sent_append, hsent, hsent'], ?_, fun trial hmem => ?_⟩
    · exact List.pairwise_append.mpr ⟨horder, horder', fun a ha b hb =>
        Nat.le_trans (htime a ha).2 (htime' b hb).1⟩
    · rcases List.mem_append.mp hmem with hmem | hmem
      · exact ⟨(htime trial hmem).1, Nat.le_trans (htime trial hmem).2 hle'⟩
      · exact ⟨Nat.le_trans hle (htime' trial hmem).1, (htime' trial hmem).2⟩
  time_le := Nat.le_trans h.time_le h'.time_le
  awaits tag := Nat.le_trans (h'.awaits tag) (h.awaits tag)
  told hrecords := (h'.told hrecords).trans (h.told hrecords)

theorem Sends.tell {ms : List Method} (h : p.Sends P p' ms) (line : Notice) :
    p.Sends P (p'.tell line) ms := ⟨h.trials, h.time_le, h.awaits, h.told⟩

/-- One trial more. -/
theorem sends_trial (trial : Trial) (htrials : p'.trials = p.trials ++ [trial])
    (htime : trial.time = p.time) (hle : p.time ≤ p'.time)
    (hawaits : ∀ tag, p'.link.awaits tag ≤ p.link.awaits tag)
    (htold : ∀ {told : σ → List (List Nat)}, P.Records told → told p'.server = told p.server) :
    p.Sends P p' (sent [trial]) where
  trials := by
    refine ⟨[trial], htrials, rfl, List.pairwise_singleton .., ?_⟩
    rintro _ (_ | ⟨_, ⟨⟩⟩)
    exact ⟨Nat.le_of_eq htime.symm, Nat.le_trans (Nat.le_of_eq htime) hle⟩
  time_le := hle
  awaits := hawaits
  told := htold

end Progress

/-- One method is tried. It is sent, unless the exchange fails because it cannot be. -/
theorem exchange_sends (P : Peer σ) (m : Method) (p : Progress σ) :
    ∃ ms, p.Sends P (exchange P m p).1 ms ∧
      (ms = [m] ∨ (ms = [] ∧ ∃ cause, (exchange P m p).2 = .failed cause)) := by
  rw [exchange]
  split
  next cause _ =>
    exact ⟨[], Progress.sends_trial ⟨p.time, m, false, some cause⟩ rfl rfl (Nat.le_refl _)
      (fun _ => Nat.le_refl _) fun _ => rfl, .inr ⟨rfl, cause, rfl⟩⟩
  next =>
    dsimp only
    split
    next =>
      exact ⟨[m], Progress.sends_trial ⟨p.time, m, true, none⟩ rfl rfl (Nat.le_refl _)
        (fun _ => Nat.le_refl _) fun hrecords => hrecords.receive _ _ _, .inl rfl⟩
    next due _ =>
      -- the answer changes the link, and the stream with it
      have htold : ∀ {told}, P.Records told → ∀ time,
          told (P.reply time m (P.receive p.time m p.server).state).1 = told p.server :=
        fun hrecords time => by rw [hrecords.reply, hrecords.receive]
      split
      next server messages _ hreply =>
        refine ⟨[m], Progress.sends_trial ⟨p.time, m, true, none⟩ rfl rfl (Nat.le_max_left ..)
          (fun tag => Link.awaits_confirm_le _ tag m) fun hrecords => ?_, .inl rfl⟩
        rw [← htold hrecords (max p.time due), hreply]
      next server k hreply =>
        refine ⟨[m], Progress.sends_trial ⟨p.time, m, true, some _⟩ rfl rfl (Nat.le_max_left ..)
          (fun tag => Nat.le_of_eq (Link.awaits_cut _ tag k)) fun hrecords => ?_, .inl rfl⟩
        rw [← htold hrecords (max p.time due), hreply]

/-- Methods one after the other, up to the first that is not answered in the usual way. -/
theorem exchangeAll_sends (P : Peer σ) (ms : List Method) (p : Progress σ) :
    ∃ ms', p.Sends P (exchangeAll P ms p).1 ms' ∧ ms' <+: ms ∧
      ∀ n, (exchangeAll P ms p).2 = .done n → ms' = ms := by
  induction ms generalizing p with
  | nil => exact ⟨[], .refl P p, List.prefix_refl _, fun _ _ => rfl⟩
  | cons m rest ih =>
    obtain ⟨first, hfirst, hm⟩ := exchange_sends P m p
    rcases he : exchange P m p with ⟨p', result⟩
    rw [he] at hfirst hm
    cases result with
    | done n =>
      rcases hm with rfl | ⟨-, cause, hfailed⟩
      · obtain ⟨later, hlater, hcut, hdone⟩ := ih p'
        simp only [exchangeAll, he]
        exact ⟨_, hfirst.trans hlater, List.prefix_cons_inj m |>.mpr hcut,
          fun n hn => by rw [hdone n hn]; rfl⟩
      · cases hfailed
    | failed cause | silent =>
      simp only [exchangeAll, he]
      refine ⟨first, hfirst, ?_, (fun _ h => by cases h)⟩
      rcases hm with rfl | ⟨rfl, -⟩
      · exact ⟨rest, rfl⟩
      · exact List.nil_prefix

/-- Closes are tried one after the other, and each that can be is sent. -/
theorem closeAll_sends (P : Peer σ) (ms : List Method) (p : Progress σ) :
    ∃ ms', p.Sends P (closeAll P ms p).1 ms' ∧ ms'.Sublist ms := by
  induction ms generalizing p with
  | nil => exact ⟨[], .refl P p, List.Sublist.refl _⟩
  | cons m rest ih =>
    obtain ⟨first, hfirst, hm⟩ := exchange_sends P m p
    have hsub : first.Sublist [m] := by
      rcases hm with rfl | ⟨rfl, -⟩
      · exact List.Sublist.refl _
      · exact List.nil_sublist _
    have hcons : ∀ {later : List Method}, later.Sublist rest →
        (first ++ later).Sublist (m :: rest) := fun h => hsub.append h
    rcases he : exchange P m p with ⟨p', result⟩
    rw [he] at hfirst
    simp only [closeAll, he]
    cases result with
    | silent => exact ⟨first, hfirst, by simpa using hcons (List.nil_sublist rest)⟩
    | failed cause =>
      obtain ⟨later, hlater, hsublist⟩ := ih p'
      exact ⟨_, hfirst.trans hlater, hcons hsublist⟩
    | done n =>
      obtain ⟨later, hlater, hsublist⟩ :=
        ih (if m = closeConnection then p'.tell .connectionClosed else p')
      refine ⟨_, Progress.Sends.trans ?_ hlater, hcons hsublist⟩
      split
      · exact hfirst.tell _
      · exact hfirst

/-! ### Opening a session -/

/-- A part of the opening of a session: some of its methods, and closes if it has failed. -/
def Progress.Opens (P : Peer σ) (p p' : Progress σ) (ms : List Method) (result : Establishment) :
    Prop :=
  ∃ ms' closing, p.Sends P p' (ms' ++ closing) ∧ ms' <+: ms ∧
    closing.Sublist [closeChannel, closeConnection] ∧
    ∀ n, result = .opened n → ms' = ms ∧ closing = []

theorem giveUp_opens {ms ms' closes : List Method} (hp : p.Sends P p' ms') (hms : ms' <+: ms)
    (hcloses : closes.Sublist [closeChannel, closeConnection]) (cause : DrainError) :
    p.Opens P (giveUp P closes cause p').1 ms (giveUp P closes cause p').2 := by
  obtain ⟨hgive, hresult⟩ := giveUp_eq_or P closes cause p'
  obtain ⟨closing, hclosing, hsublist⟩ := closeAll_sends P closes p'
  refine ⟨ms', closing, hgive ▸ hp.trans hclosing, hms, hsublist.trans hcloses, fun n hn => ?_⟩
  rcases hresult with h | h <;> cases h.symm.trans hn

theorem declareFirst_opens (P : Peer σ) (t : Target) (p : Progress σ) :
    p.Opens P (declareFirst P t p).1 [.ofSpec t.spec] (declareFirst P t p).2 := by
  obtain ⟨ms, hms, hm⟩ := exchange_sends P (.ofSpec t.spec) p
  have hcut : ms <+: [.ofSpec t.spec] := by
    rcases hm with rfl | ⟨rfl, -⟩
    · exact List.prefix_refl _
    · exact List.nil_prefix
  rcases he : exchange P (.ofSpec t.spec) p with ⟨p', messages | cause | _⟩ <;>
    rw [he] at hms hm <;> rw [declareFirst, he]
  · refine ⟨ms, [], by simpa using hms, hcut, List.nil_sublist _, fun _ _ => ⟨?_, rfl⟩⟩
    rcases hm with rfl | ⟨-, cause, hfailed⟩
    · rfl
    · cases hfailed
  · exact giveUp_opens hms hcut (List.Sublist.refl _) _
  · exact ⟨ms, [], by simpa using hms, hcut, List.nil_sublist _, (fun _ h => by cases h)⟩

theorem openChannel_opens (P : Peer σ) (t : Target) (p : Progress σ) :
    p.Opens P (openChannel P t p).1 (channelOpening t) (openChannel P t p).2 := by
  obtain ⟨ms, hms, hcut, hdone⟩ := exchangeAll_sends P (channelSetup t) p
  have hcut' : ms <+: channelOpening t := hcut.trans (List.prefix_append _ _)
  rcases he : exchangeAll P (channelSetup t) p with ⟨p', messages | cause | _⟩ <;>
    rw [he] at hms hdone <;> rw [openChannel, he]
  · obtain ⟨ms', closing, hsends, hms', hclosing, hopened⟩ :=
      declareFirst_opens P t (p'.tell (.prefetchSet t.prefetch))
    obtain rfl := hdone messages rfl
    refine ⟨channelSetup t ++ ms', closing, ?_, (List.prefix_append_right_inj _).mpr hms', hclosing,
      fun n hn => ?_⟩
    · rw [List.append_assoc]
      exact (hms.tell _).trans hsends
    · obtain ⟨rfl, rfl⟩ := hopened n hn
      exact ⟨rfl, rfl⟩
  · exact giveUp_opens hms hcut' (by simp) _
  · exact ⟨ms, [], by simpa using hms, hcut', List.nil_sublist _, (fun _ h => by cases h)⟩

/-- What an attempt at a session may have sent: the handshake, cut off anywhere, or what opens the
channel behind it, cut off anywhere, and closes. -/
def IsAttempt (t : Target) (ms : List Method) : Prop :=
  ms <+: handshake t ∨
    ∃ ms' closing, ms = handshake t ++ ms' ++ closing ∧ ms' <+: channelOpening t ∧
      closing.Sublist [closeChannel, closeConnection]

/-- What an attempt at a session has sent, and what it has left to the stream and to the server. -/
structure Progress.Attempts (P : Peer σ) (t : Target) (now : Nat) (server : σ) (p : Progress σ)
    (result : Establishment) : Prop where
  inOrder : InOrder p.trials
  time_le : ∀ trial ∈ p.trials, now ≤ trial.time ∧ trial.time ≤ p.time
  isAttempt : IsAttempt t (sent p.trials)
  opened {n : Nat} (h : result = .opened n) : sent p.trials = handshake t ++ channelOpening t
  awaits (tag : Nat) : p.link.awaits tag = 0
  told {told : σ → List (List Nat)} (h : P.Records told) : told p.server = [] :: told server

theorem Progress.IsFresh.attempts {now : Nat} {server : σ} {ms : List Method}
    {result : Establishment} (hp : p.IsFresh P now server) (hsends : p.Sends P p' ms)
    (hms : IsAttempt t ms)
    (hopened : ∀ n, result = .opened n → ms = handshake t ++ channelOpening t) :
    p'.Attempts P t now server result := by
  obtain ⟨new, htrials, hsent, horder, htime⟩ := hsends.trials
  rw [hp.trials, List.nil_append] at htrials
  rw [hp.time] at htime
  have hsent' : sent p'.trials = ms := htrials ▸ hsent
  refine ⟨htrials ▸ horder, htrials ▸ htime, hsent' ▸ hms, fun h => hsent'.trans (hopened _ h),
    fun tag => ?_, fun hrecords => ?_⟩
  · have hawaits := hsends.awaits tag
    rw [hp.link] at hawaits
    exact Nat.le_zero.mp hawaits
  · rw [hsends.told hrecords, hp.server, hrecords.connect]

theorem openConnection_attempts {now : Nat} {server : σ} (hp : p.IsFresh P now server) :
    (openConnection P t p).1.Attempts P t now server (openConnection P t p).2 := by
  obtain ⟨ms, hms, hcut, hdone⟩ := exchangeAll_sends P (handshake t) p
  rcases he : exchangeAll P (handshake t) p with ⟨p', messages | cause | _⟩ <;>
    rw [he] at hms hdone <;> rw [openConnection, he]
  · obtain ⟨ms', closing, hsends, hms', hclosing, hopened⟩ :=
      openChannel_opens P t (p'.tell (.connected t.shown))
    obtain rfl := hdone messages rfl
    refine hp.attempts ((hms.tell _).trans hsends)
      (.inr ⟨ms', closing, by rw [List.append_assoc], hms', hclosing⟩) fun n hn => ?_
    obtain ⟨rfl, rfl⟩ := hopened n hn
    rw [List.append_nil]
  · exact hp.attempts hms (.inl hcut) (fun _ h => by cases h)
  · exact hp.attempts hms (.inl hcut) (fun _ h => by cases h)

/-- **What an attempt at a session sends.** If it succeeds, then it has sent the handshake and all
that opens the channel. -/
theorem establish_attempts (P : Peer σ) (t : Target) (now : Nat) (server : σ) :
    (establish P t now server).1.Attempts P t now server (establish P t now server).2 := by
  obtain ⟨p, hp, ⟨cause, he⟩ | he⟩ := establish_eq_or P t now server <;> rw [he]
  · exact hp.attempts (.refl P p) (.inl List.nil_prefix) fun _ h => by cases h
  · exact openConnection_attempts hp

/-- An attempt conforms, and rejects nothing. -/
theorem IsAttempt.conforms {ms : List Method} (h : IsAttempt t ms) (tag : String) :
    Conforms t tag ms := by
  rcases h with h | ⟨ms', closing, rfl, hms', hclosing⟩
  · exact .inl h
  · exact (dialogue_of_channelOpening hms').conforms hclosing

theorem IsAttempt.count_reject {ms : List Method} (h : IsAttempt t ms) (tag : Nat) :
    ms.count (.reject tag false) = 0 := by
  refine List.count_eq_zero_of_not_mem fun hmem => ?_
  rcases h with h | ⟨ms', closing, rfl, hms', hclosing⟩
  · simpa [handshake, Method.login] using h.subset hmem
  · rcases List.mem_append.mp hmem with hmem | hmem
    · rcases List.mem_append.mp hmem with hmem | hmem
      · simp [handshake, Method.login] at hmem
      · simpa [channelOpening, channelSetup, Method.ofSpec] using hms'.subset hmem
    · simpa [closeChannel, closeConnection] using hclosing.subset hmem

end Amqp

end QueueDrain
