import QueueDrain.Proofs.Hosts

/-!
# Escaped URIs

A URI whose components are escaped throughout says what they are, whatever characters they have: no
character of an escape delimits anything, so that every state of the parser ends where the component
ends, and reading a component undoes the escapes. Only the segments that are one or two dots mean
something else, escaped or not.

## Main definitions

* `Percent.escaped` — a text with every octet of it escaped
* `Credential.ofText` — the credential that denotes a text
* `Endpoint.escapedUri` — a URI whose components are escaped

## Main results

* `Percent.mem_encode` — an escaped text has unreserved characters and percent signs only
* `Url.spanPort_digits` — a port is read back
* `Url.segments_encode` — an escaped text is one segment, unless it is dots
* `Url.parseSite_escaped` — a site with an escaped host and an escaped path
* `Endpoint.parse_escapedUri` — reading a URI undoes the escapes
-/

namespace QueueDrain

/-! ### Unreserved characters -/

namespace Url

section Unreserved

variable {c : Char} (h : c = '%' ∨ isUnreserved c)
include h

theorem ne_of_isUnreserved {d : Char} (hd : ¬(d = '%' ∨ isUnreserved d)) : c ≠ d :=
  fun hcd => hd (hcd ▸ h)

theorem isControlOrSpace_of_isUnreserved : isControlOrSpace c = false := by
  -- the characters up to the blank are few enough to look at each
  have hnone : ∀ k : Fin 33, ¬(Char.ofNat k = '%' ∨ isUnreserved (Char.ofNat k)) := by decide
  by_contra hc
  have hle : c.toNat < 33 := by
    have hc : c ≤ ' ' := by simpa [isControlOrSpace] using hc
    exact Nat.lt_succ_of_le hc
  exact hnone ⟨c.toNat, hle⟩ (by rwa [Char.ofNat_toNat])

/-- A host may have any of these characters. -/
theorem not_mem_forbidden : c ∉ Host.forbidden := fun hc => by
  have hnone : Host.forbidden.all (fun d => !(d == '%' || isUnreserved d)) := by decide
  obtain ⟨hpercent, hreserved⟩ : ¬c = '%' ∧ isUnreserved c = false := by
    simpa using List.all_eq_true.mp hnone c hc
  simp [hpercent, hreserved] at h

end Unreserved

end Url

/-! ### Escaped texts -/

namespace Percent

variable {cs : List Char}

/-- A text with every octet of it escaped. -/
def escaped (s : String) : String := String.ofList (encode s.toList)

/-- Escapes are unreserved. -/
theorem isUnreservedText_encode (cs : List Char) : Url.isUnreservedText (encode cs) := by
  rw [encode]
  induction Utf8.encode cs with
  | nil => rfl
  | cons b bs ih =>
    have hb := b.toNat_lt
    have hhigh := hexValue?_hexDigit (show b.toNat / 16 < 16 by omega)
    have hlow := hexValue?_hexDigit (show b.toNat % 16 < 16 by omega)
    simp [List.flatMap_cons, escape, Url.isUnreservedText, hhigh, hlow, ih]

theorem mem_encode {c : Char} (hc : c ∈ encode cs) : c = '%' ∨ Url.isUnreserved c :=
  Url.mem_of_isUnreservedText (isUnreservedText_encode cs) c hc

/-- An escaped text is what its octets are. -/
theorem eq_of_decode_encode {cs' : List Char} (h : decode (encode cs) = Utf8.encode cs') :
    cs = cs' := by
  have hdecode := congrArg Utf8.decode h
  rw [decode_encode, Utf8.decode_encode, Utf8.decode_encode] at hdecode
  exact Except.ok.inj hdecode

theorem encode_ne_nil (h : cs ≠ []) : encode cs ≠ [] := by
  intro hnil
  have hdecode : decode (encode cs) = Utf8.encode [] := by
    rw [hnil]
    rfl
  exact h (eq_of_decode_encode hdecode)

/-- Reading an escaped text gives the text. -/
theorem readText_encode (s : String) : Endpoint.readText (encode s.toList) = .ok s := by
  rw [Endpoint.readText_eq_ok_iff, decode_encode, Utf8.decode_encode]

end Percent

/-! ### Ports -/

namespace Url

theorem spanPort_cons {k : Kind} {port : Option Nat} {n : Nat} (rest : List Char)
    (h : port.getD 0 = n / 10) (hn : n ≤ 65535) :
    spanPort k port (Decimal.digitChar n :: rest) = spanPort k (some n) rest := by
  have hvalue : port.getD 0 * 10 + n % 10 = n := by omega
  rw [spanPort, Decimal.digitValue?_digitChar]
  simp only [hvalue, if_neg (Nat.not_lt.mpr hn)]

/-- The digits of a number are read as that number. -/
theorem spanPort_digits (k : Kind) (n : Nat) (rest : List Char) (hn : n ≤ 65535) :
    spanPort k none (Decimal.digits n ++ rest) = spanPort k (some n) rest := by
  induction n using Decimal.digits.induct generalizing rest with
  | case1 n h =>
    rw [Decimal.digits, if_pos h, List.singleton_append]
    exact spanPort_cons rest (by simp; omega) hn
  | case2 n h ih =>
    rw [Decimal.digits, if_neg h, List.append_assoc, ih _ (by omega), List.singleton_append]
    exact spanPort_cons rest rfl hn

theorem parsePort_of_spanPort {cs rest : List Char} {n : Nat}
    (h : spanPort .ordinary none cs = .ok (some n, rest)) :
    parsePort .ordinary (':' :: cs) = .ok (some n, rest) := by
  unfold parsePort
  split
  next behind hcons =>
    obtain ⟨-, rfl⟩ := List.cons.inj hcons
    rw [h]
    rfl
  next hother => exact absurd rfl (hother cs)

/-- A port ends at a slash. -/
theorem parsePort_digits (n : Nat) (rest : List Char) (hn : n ≤ 65535) :
    parsePort .ordinary (':' :: (Decimal.digits n ++ '/' :: rest)) = .ok (some n, '/' :: rest) := by
  have hslash : Decimal.digitValue? '/' = none := by decide
  refine parsePort_of_spanPort ?_
  rw [spanPort_digits .ordinary n _ hn, spanPort, hslash]
  rfl

/-- A digit is unreserved. -/
theorem isUnreserved_of_mem_digits {c : Char} {n : Nat} (hc : c ∈ Decimal.digits n) :
    isUnreserved c := by
  have hdigit : ∀ m, isUnreserved (Decimal.digitChar m) := fun m => by
    have hall : ∀ k : Fin 10, isUnreserved (Decimal.digitChar k) := by decide
    simpa [Decimal.digitChar] using hall ⟨m % 10, Nat.mod_lt m (by decide)⟩
  induction n using Decimal.digits.induct with
  | case1 n h =>
    rw [Decimal.digits, if_pos h, List.mem_singleton] at hc
    exact hc ▸ hdigit n
  | case2 n h ih =>
    rw [Decimal.digits, if_neg h, List.mem_append, List.mem_singleton] at hc
    rcases hc with hc | rfl
    · exact ih hc
    · exact hdigit n

/-! ### Segments -/

/-- Texts that are written in several ways denote what each of them does. -/
theorem decode_of_any {texts : List String} {octets : List UInt8} {s : Segment}
    (htexts : ∀ t ∈ texts, Percent.decode t.toList = octets) (h : texts.any (·.toList == s)) :
    Percent.decode s = octets := by
  obtain ⟨t, ht, hs⟩ := List.any_eq_true.mp h
  rw [← beq_iff_eq.mp hs]
  exact htexts t ht

theorem decode_of_isSingleDot {s : Segment} (h : Path.isSingleDot s) :
    Percent.decode s = Utf8.encode ['.'] := decode_of_any (by decide) h

theorem decode_of_isDoubleDot {s : Segment} (h : Path.isDoubleDot s) :
    Percent.decode s = Utf8.encode ['.', '.'] := decode_of_any (by decide) h

/-- An escaped text is one segment, unless it means a directory. -/
theorem segments_encode {cs : List Char} (hcs : cs ≠ ['.'] ∧ cs ≠ ['.', '.']) :
    Kind.ordinary.segments ('/' :: Percent.encode cs) = [Percent.encode cs] := by
  have hne : ∀ c ∈ Percent.encode cs, c ≠ '/' := fun c hc =>
    ne_of_isUnreserved (Percent.mem_encode hc) (by decide)
  have hslashes : (Percent.encode cs).map (fun c => if Kind.ordinary.isSlash c then '/' else c)
      = Percent.encode cs := by
    conv_rhs => rw [← List.map_id (Percent.encode cs)]
    refine List.map_congr_left fun c hc => ?_
    simp [Kind.isSlash, Kind.isSpecial, hne c hc]
  have hsplit : Kind.ordinary.splitSlashes (Percent.encode cs) = [Percent.encode cs] := by
    rw [Kind.splitSlashes, hslashes, splitOn_eq]
    exact List.splitOn_eq_singleton fun hmem => hne _ hmem rfl
  have hsingle : Path.isSingleDot (Percent.encode cs) = false := by
    by_contra h
    exact hcs.1 (Percent.eq_of_decode_encode (decode_of_isSingleDot (by simpa using h)))
  have hdouble : Path.isDoubleDot (Percent.encode cs) = false := by
    by_contra h
    exact hcs.2 (Percent.eq_of_decode_encode (decode_of_isDoubleDot (by simpa using h)))
  rw [Kind.segments, if_pos (by decide), hsplit]
  simp [Path.resolve, Path.resolveOnto, hsingle, hdouble]

/-! ### Sites -/

/-- What is left out everywhere is a control character. -/
theorem isControlOrSpace_of_isIgnored {c : Char} (h : isIgnored c) : isControlOrSpace c := by
  have hcases : c = '\t' ∨ c = '\n' ∨ c = '\x0d' := by
    simpa [isIgnored, or_assoc, ← Char.toNat_inj] using h
  rcases hcases with rfl | rfl | rfl <;> decide

/-- A text without blanks and control characters counts as it stands. -/
theorem significantEnd_of_forall {cs : List Char} (h : ∀ c ∈ cs, isControlOrSpace c = false) :
    significantEnd cs = cs := by
  have htrim : cs.reverse.dropWhile isControlOrSpace = cs.reverse := by
    rw [List.dropWhile_eq_self_iff]
    intro hlength
    simp [h]
  rw [significantEnd, htrim, List.reverse_reverse, List.filter_eq_self]
  intro c hc
  have hc := h c hc
  simpa using mt isControlOrSpace_of_isIgnored (by simp [hc])

section Site

variable {host vhost : List Char} {port : Nat}

/-- The site of a URI whose components are escaped. -/
def escapedSite (host : List Char) (port : Nat) (vhost : List Char) : List Char :=
  Percent.encode host ++ ':' :: (Decimal.digits port ++ '/' :: Percent.encode vhost)

theorem mem_escapedSite {c : Char} (hc : c ∈ escapedSite host port vhost) :
    c = ':' ∨ c = '/' ∨ c = '%' ∨ isUnreserved c := by
  simp only [escapedSite, List.mem_append, List.mem_cons] at hc
  rcases hc with hc | rfl | hc | rfl | hc
  · exact .inr (.inr (Percent.mem_encode hc))
  · exact .inl rfl
  · exact .inr (.inr (.inr (isUnreserved_of_mem_digits hc)))
  · exact .inr (.inl rfl)
  · exact .inr (.inr (Percent.mem_encode hc))

theorem parseOpaque_encode (cs : List Char) :
    Host.parseOpaque (Percent.encode cs) = .ok (.name (Percent.encode cs)) := by
  have hbracket : ∀ rest, Percent.encode cs ≠ '[' :: rest := fun rest h =>
    ne_of_isUnreserved (Percent.mem_encode (h ▸ List.mem_cons_self)) (by decide) rfl
  have hforbidden : (Percent.encode cs).any (Host.forbidden.contains ·) = false := by
    simpa using fun c hc => not_mem_forbidden (Percent.mem_encode hc)
  rw [Host.parseOpaque, hforbidden]
  · rfl
  · exact hbracket

/-- Behind an escaped path there is no query. -/
theorem splitQuery_encode (cs : List Char) :
    splitQuery ('/' :: Percent.encode cs) = ('/' :: Percent.encode cs, none) := by
  have hne : ∀ d, ¬(d = '%' ∨ isUnreserved d) → d ≠ '/' →
      ∀ c ∈ '/' :: Percent.encode cs, (c != d) = true := by
    intro d hd hslash c hc
    rcases List.mem_cons.mp hc with rfl | hc
    · exact bne_iff_ne.mpr hslash.symm
    · exact bne_iff_ne.mpr (ne_of_isUnreserved (Percent.mem_encode hc) hd)
  have hfragment := List.takeWhile_eq_self_iff.mpr (hne '#' (by decide) (by decide))
  have hmark := List.dropWhile_eq_nil_iff.mpr (hne '?' (by decide) (by decide))
  rw [splitQuery, hfragment]
  simp only [hmark]

/-- An escaped host ends in front of the port. -/
theorem spanHost_escapedSite : spanHost .ordinary false (escapedSite host port vhost)
    = (Percent.encode host, ':' :: (Decimal.digits port ++ '/' :: Percent.encode vhost)) := by
  have hbehind : IsBehindHost (':' :: (Decimal.digits port ++ '/' :: Percent.encode vhost)) :=
    fun c hc => .inl (by simpa [eq_comm] using hc)
  rw [escapedSite]
  refine spanHost_name hbehind fun c hc => ?_
  have hc := Percent.mem_encode hc
  have hplain := isPlain_of_isUnreserved hc
  exact ⟨hplain.ne_colon, ne_of_isUnreserved hc (by decide), hplain.endsAuthority⟩

/-- A site with an escaped host and an escaped path is read as it was written. -/
theorem parseSite_escaped (scheme : String) (hhost : host ≠ []) (hport : port ≤ 65535)
    (hvhost : vhost ≠ ['.'] ∧ vhost ≠ ['.', '.']) :
    parseSite scheme (escapedSite host port vhost) = .ok
      { scheme, port, host := some (.name (Percent.encode host))
        segments := [Percent.encode vhost] } := by
  have hempty : (Percent.encode host).isEmpty = false := by
    simpa using Percent.encode_ne_nil hhost
  unfold parseSite
  rw [spanHost_escapedSite]
  dsimp only
  rw [parseOpaque_encode, hempty, parsePort_digits port _ hport]
  simp only [bind, Except.bind, splitQuery_encode, segments_encode hvhost]
  rfl

end Site

end Url

/-! ### Credentials -/

/-- The credential that denotes a text. -/
def Credential.ofText (s : String) (hs : s ≠ "") : Credential where
  text := Percent.encode s.toList
  text_ne_nil := Percent.encode_ne_nil (by simpa using hs)
  isUnreservedText := Percent.isUnreservedText_encode s.toList
  value := s
  readText_text := Percent.readText_encode s

/-! ### Endpoints -/

namespace Endpoint

/-- A URI whose components are escaped. -/
def escapedUri (scheme username password host : String) (port : Nat) (vhost : String) : String :=
  scheme ++ "://" ++ Percent.escaped username ++ ":" ++ Percent.escaped password ++ "@"
    ++ Percent.escaped host ++ ":" ++ Decimal.text port ++ "/" ++ Percent.escaped vhost

section Escaped

variable {secure : Bool} {username password host vhost : String} {port : Nat}

theorem escapedUri_eq (husername : username ≠ "") (hpassword : password ≠ "") :
    escapedUri (schemeText secure) username password host port vhost
      = Credential.uri secure (.ofText username husername) (.ofText password hpassword)
        (Url.escapedSite host.toList port vhost.toList) := by
  simp [escapedUri, Credential.uri, Credential.ofText, Percent.escaped, Url.escapedSite,
    Decimal.text, ← String.toList_inj]

/-- What an escaped site denotes. -/
theorem site_escaped (hhost : host ≠ "") (hport : port ≤ 65535)
    (hvhost : vhost ≠ "." ∧ vhost ≠ "..") :
    Credential.site secure (Url.escapedSite host.toList port vhost.toList) = .ok
      { secure, username := defaultCredential, password := defaultCredential, host, port, vhost
        frameMax := none, channelMax := none, heartbeat := none, connectionTimeout := none
        authMechanism := none } := by
  have hcounts : ∀ c ∈ Url.escapedSite host.toList port vhost.toList,
      Url.isControlOrSpace c = false := fun c hc => by
    rcases Url.mem_escapedSite hc with rfl | rfl | hc
    · decide
    · decide
    · exact Url.isControlOrSpace_of_isUnreserved hc
  have hdots : vhost.toList ≠ ['.'] ∧ vhost.toList ≠ ['.', '.'] :=
    ⟨fun h => hvhost.1 (String.toList_inj.mp h), fun h => hvhost.2 (String.toList_inj.mp h)⟩
  rw [Credential.site, Url.significantEnd_of_forall hcounts,
    Url.parseSite_escaped _ (by simpa using hhost) hport hdots]
  have hscheme : readScheme (schemeText secure) = .ok secure := by cases secure <;> rfl
  have htext : Url.Path.text [Percent.encode vhost.toList] = Percent.encode vhost.toList := by
    simp [Url.Path.text]
  dsimp only
  rw [ofUrl_eq _ _ rfl]
  simp only [hscheme, readHost, readVhost, htext, Percent.readText_encode]
  rfl

/-- **Reading a URI undoes the escapes.** Whatever characters user name, password, host and virtual
host have, the endpoint has the same, and the port; and it is shown with them. -/
theorem parse_escapedUri {scheme : String} (port : UInt16)
    (hscheme : scheme = "amqp" ∨ scheme = "amqps") (husername : username ≠ "")
    (hpassword : password ≠ "") (hhost : host ≠ "") (hvhost : vhost ≠ "." ∧ vhost ≠ "..") :
    let e : Endpoint :=
      { secure := scheme == "amqps", username, password, host, port := port.toNat, vhost
        frameMax := none, channelMax := none, heartbeat := none, connectionTimeout := none
        authMechanism := none }
    parse (escapedUri scheme username password host port.toNat vhost) = .ok e ∧
      e.shown = scheme ++ "://" ++ host ++ ":" ++ Decimal.text port.toNat
        ++ " (vhost '" ++ vhost ++ "')" := by
  intro e
  obtain ⟨secure, rfl⟩ : ∃ secure, scheme = schemeText secure :=
    hscheme.elim (fun h => ⟨false, h⟩) fun h => ⟨true, h⟩
  have hsecure : (schemeText secure == "amqps") = secure := by cases secure <;> decide
  have hport : port.toNat ≤ 65535 := Nat.le_of_lt_succ port.toNat_lt
  have hat : '@' ∉ Url.escapedSite host.toList port.toNat vhost.toList := fun hmem => by
    rcases Url.mem_escapedSite hmem with h | h | h
    · cases h
    · cases h
    · exact absurd h (by decide)
  constructor
  · rw [escapedUri_eq husername hpassword, Credential.parse_uri _ _ fun hmem =>
      hat ((List.takeWhile_prefix _).subset hmem), site_escaped hhost hport hvhost]
    simp only [e, hsecure]
    rfl
  · simp only [e, shown, shownAt, Endpoint.scheme, hsecure]

/-- Delimiters of a URI, a blank, a line break and a character beyond ASCII: all are read back. -/
theorem parse_escapedUri_delimiters :
    let e : Endpoint :=
      { secure := true, username := "üs:er@/", password := "p%40?#", host := "[::1]", port := 0
        vhost := "a/../\"b'\n ", frameMax := none, channelMax := none, heartbeat := none
        connectionTimeout := none, authMechanism := none }
    let raw := escapedUri "amqps" e.username e.password e.host 0 e.vhost
    raw = "amqps://%C3%BC%73%3A%65%72%40%2F:%70%25%34%30%3F%23@%5B%3A%3A%31%5D:0/"
      ++ "%61%2F%2E%2E%2F%22%62%27%0A%20" ∧
    parse raw = .ok e ∧ e.shown = "amqps://[::1]:0 (vhost 'a/../\"b'\n ')" := by
  intro e raw
  have husername : e.username ≠ "" := by decide
  have hpassword : e.password ≠ "" := by decide
  have hhost : e.host ≠ "" := by decide
  have hvhost : e.vhost ≠ "." ∧ e.vhost ≠ ".." := by decide
  obtain ⟨hparse, hshown⟩ :=
    parse_escapedUri 0 (.inr rfl) husername hpassword hhost hvhost
  exact ⟨by decide +kernel, hparse, hshown.trans (by decide +kernel)⟩

end Escaped

end Endpoint

end QueueDrain
