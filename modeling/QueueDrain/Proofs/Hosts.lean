import QueueDrain.Proofs.Authorities

/-!
# The host of an endpoint

The host of a broker stands in the authority of its URI. A name is taken over, its escapes resolved;
IPv4 addresses count as names, since the schemes of endpoints are ordinary ones. An IPv6 address in
brackets is a host of a URL, too, but the host of an endpoint is the default one then.

## Main definitions

* `Endpoint.readUsername`, `Endpoint.readPassword`, … — the components of an endpoint

## Main results

* `Endpoint.ofUrl_eq` — an endpoint is read component by component
* `Endpoint.parse_host` — what becomes of a name, and of an address in brackets
* `Endpoint.literal_host_lost` — the host of a URI that is not the one of the endpoint
-/

namespace QueueDrain

namespace Url

variable {scheme : String} {cs : List Char}

/-! ### Schemes -/

/-- The scheme ends at the first colon. -/
theorem exists_of_scheme? {rest : List Char} (h : scheme? cs = some (scheme, rest)) :
    ∃ front, cs = front ++ ':' :: rest ∧ ':' ∉ front := by
  rw [scheme?.eq_def] at h
  split at h
  next c tail =>
    split at h
    next =>
      split at h
      next behind hdrop =>
        cases h
        refine ⟨(c :: tail).takeWhile isSchemeChar, ?_, fun hmem => ?_⟩
        · rw [← hdrop, List.takeWhile_append_dropWhile]
        · exact absurd (List.mem_takeWhile_imp hmem) (by decide)
      next => cases h
    next => cases h
  next => cases h

end Url

namespace Endpoint

variable {raw : String} {e : Endpoint} {url : Url}

theorem of_readScheme {scheme : String} {secure : Bool} (h : readScheme scheme = .ok secure) :
    scheme = schemeText secure := by
  rw [readScheme] at h
  split at h
  next hscheme =>
    cases h
    exact hscheme
  next =>
    split at h
    next hscheme =>
      cases h
      exact hscheme
    next => cases h

/-! ### The components of an endpoint -/

/-- The user name of a URL, or the default one. -/
def readUsername (url : Url) : Except Fault String :=
  if url.username.isEmpty then .ok defaultCredential else readText url.username

/-- The password of a URL, or the default one. -/
def readPassword (url : Url) : Except Fault String :=
  match url.password with
  | none => .ok defaultCredential
  | some password => readText password

/-- The virtual host of a URL, or the default one. -/
def readVhost (url : Url) : Except Fault String :=
  if url.segments.isEmpty then .ok defaultVhost else readText (Url.Path.text url.segments)

/-- The mechanism that fields ask for, if they do. -/
def readAuthMechanism (fields : List (String × String)) : Except Fault (Option SaslMechanism) :=
  match Url.Query.first? "auth_mechanism" fields with
  | none => .ok none
  | some name => some <$> readMechanism (Lowercase.text name)

/-- An endpoint is read component by component. -/
theorem ofUrl_eq (raw : String) (url : Url) (hpath : url.hasOpaquePath = false) :
    ofUrl raw url = do
      let secure ← readScheme url.scheme
      let username ← readUsername url
      let password ← readPassword url
      let host ← readHost url.host
      let vhost ← readVhost url
      let fields := Url.Query.fields (url.query.getD [])
      let frameMax ← readNumber fields "frame_max" 4294967295
      let channelMax ← readNumber fields "channel_max" 65535
      let heartbeat ← readNumber fields "heartbeat" 65535
      let connectionTimeout ← readNumber fields "connection_timeout" 18446744073709551615
      let authMechanism ← readAuthMechanism fields
      return { secure, username, password, host, port := url.port.getD (defaultPort secure), vhost,
               frameMax, channelMax, heartbeat, connectionTimeout, authMechanism } := by
  obtain ⟨scheme, username, password, host, port, hasOpaquePath, segments, query⟩ := url
  obtain rfl : hasOpaquePath = false := hpath
  simp only [ofUrl, readAuthMechanism]
  cases username <;> cases password <;> cases segments <;>
    cases Url.Query.first? "auth_mechanism" (Url.Query.fields (query.getD [])) <;> rfl

/-- What an endpoint takes from its URL. -/
theorem of_ofUrl (h : ofUrl raw url = .ok e) :
    url.hasOpaquePath = false ∧ url.scheme = schemeText e.secure ∧
      readHost url.host = .ok e.host := by
  cases hpath : url.hasOpaquePath with
  | true =>
    rw [ofUrl, if_pos hpath] at h
    cases h
  | false =>
    rw [ofUrl_eq raw url hpath] at h
    obtain ⟨secure, hscheme, h⟩ := exists_of_bind_eq_ok h
    obtain ⟨username, -, h⟩ := exists_of_bind_eq_ok h
    obtain ⟨password, -, h⟩ := exists_of_bind_eq_ok h
    obtain ⟨host, hhost, h⟩ := exists_of_bind_eq_ok h
    iterate 6 obtain ⟨_, -, h⟩ := exists_of_bind_eq_ok h
    cases h
    exact ⟨rfl, of_readScheme hscheme, hhost⟩

theorem ofScheme_schemeText (secure : Bool) :
    Url.Kind.ofScheme (schemeText secure) = .ordinary := by
  cases secure <;> rfl

/-- An endpoint takes its host from a URL. If two slashes follow the first colon, then the URL is
read from an authority behind them. -/
theorem of_parse (h : parse raw = .ok e) :
    ∃ front behind url, Url.significant raw = front ++ ':' :: behind ∧ ':' ∉ front ∧
      readHost url.host = .ok e.host ∧
      ∀ cs, behind = '/' :: '/' :: cs →
        Url.parseAuthority (schemeText e.secure) .ordinary cs = .ok url := by
  rw [parse] at h
  split at h
  next url hurl =>
    obtain ⟨-, hscheme, hhost⟩ := of_ofUrl h
    rw [Url.parse] at hurl
    split at hurl
    next => cases hurl
    next scheme behind hsplit =>
      obtain ⟨front, hsignificant, hfront⟩ := Url.exists_of_scheme? hsplit
      refine ⟨front, behind, url, hsignificant, hfront, hhost, ?_⟩
      rintro cs rfl
      -- the other kinds of schemes are none of an endpoint
      have hordinary : url.scheme = scheme → Url.Kind.ofScheme scheme = .ordinary := fun hurl => by
        rw [← hurl, hscheme, ofScheme_schemeText]
      split at hurl
      next hkind =>
        have := hkind.symm.trans (hordinary (Url.scheme_of_parseFile hurl))
        cases this
      next hkind =>
        have := hkind.symm.trans (hordinary (Url.scheme_of_parseAuthority hurl))
        cases this
      next =>
        have hscheme' := Url.scheme_of_parseAuthority hurl
        rwa [← hscheme, hscheme']
  next => cases h

theorem readText_eq_ok_iff {component : List Char} {s : String} :
    readText component = .ok s ↔ Utf8.decode (Percent.decode component) = .ok s.toList := by
  unfold readText
  cases Utf8.decode (Percent.decode component) with
  | error fault => simp
  | ok cs =>
    simp [← String.toList_inj]

/-- A text has one first colon. -/
theorem eq_of_append_colon {x₁ x₂ z₁ z₂ : List Char} (h : x₁ ++ ':' :: z₁ = x₂ ++ ':' :: z₂)
    (h₁ : ':' ∉ x₁) (h₂ : ':' ∉ x₂) : x₁ = x₂ ∧ z₁ = z₂ := by
  rcases List.append_eq_append_iff.mp h with ⟨_ | ⟨c, mid⟩, rfl, hmid⟩ | ⟨_ | ⟨c, mid⟩, rfl, hmid⟩
  · exact ⟨by simp, (List.cons.inj hmid).2⟩
  · obtain ⟨rfl, -⟩ := List.cons.inj hmid
    simp at h₂
  · exact ⟨by simp, (List.cons.inj hmid).2.symm⟩
  · obtain ⟨rfl, -⟩ := List.cons.inj hmid
    simp at h₁

/-- **Only a name becomes the host of an endpoint.** A name in the authority of an accepted URI is
what the host denotes, its escapes resolved; for an address in brackets the endpoint has the default
host. A URI with two slashes behind its scheme has an authority. -/
theorem parse_host (h : parse raw = .ok e) :
    (∀ a : Url.Authority, a.IsOf raw → a.host ≠ [] →
      (a.HasName → Utf8.decode (Percent.decode a.host) = .ok e.host.toList) ∧
      ∀ address, a.HasLiteral address →
        (Url.Ipv6.parse? address).isSome ∧ e.host = defaultHost) ∧
    ∀ scheme behind : List Char,
      Url.significant raw = scheme ++ ':' :: '/' :: '/' :: behind → ':' ∉ scheme →
      ∃ a : Url.Authority, a.IsOf raw := by
  obtain ⟨front, behind, url, hsignificant, hfront, hhost, hurl⟩ := of_parse h
  -- the first colon is where the scheme ends
  have hbehind : ∀ scheme cs : List Char,
      Url.significant raw = scheme ++ ':' :: '/' :: '/' :: cs → ':' ∉ scheme →
      scheme = front ∧ Url.parseAuthority (schemeText e.secure) .ordinary cs = .ok url := by
    intro scheme cs hraw hscheme
    rw [hsignificant] at hraw
    obtain ⟨rfl, rfl⟩ := eq_of_append_colon hraw hfront hscheme
    exact ⟨rfl, hurl cs rfl⟩
  constructor
  · rintro a ⟨ha, scheme, rest, hraw, hscheme, hrest⟩ hne
    obtain ⟨-, hurl⟩ := hbehind scheme _ hraw hscheme
    obtain ⟨host, hparse, hurl⟩ := ha.parseHost hrest hne hurl
    rw [hurl] at hhost
    constructor
    · intro hname
      rw [Url.parseOpaque_name (fun hmem => (hname _ hmem).2.1 rfl) hparse] at hhost
      exact readText_eq_ok_iff.mp hhost
    · rintro address ⟨hliteral, -⟩
      rw [hliteral] at hparse
      obtain ⟨pieces, hpieces, rfl⟩ := Url.parseOpaque_literal hparse
      exact ⟨by rw [hpieces]; rfl, (Except.ok.inj hhost).symm⟩
  · intro scheme cs hraw hscheme
    obtain ⟨-, hurl⟩ := hbehind scheme cs hraw hscheme
    obtain ⟨a, ha, rest, rfl, hrest⟩ := Url.Authority.exists_of_parseAuthority hurl
    exact ⟨a, ha, scheme, rest, hraw, hscheme, hrest⟩

/-- The escapes of a name are resolved. -/
theorem parse_host_escaped :
    let raw := "amqp://guest:guest@b%C3%BCro.example:5672/%2f"
    let a : Url.Authority :=
      { login := some "guest:guest".toList, host := "b%C3%BCro.example".toList
        port := some "5672".toList }
    ∃ e, parse raw = .ok e ∧ a.IsOf raw ∧ a.host ≠ [] ∧ a.HasName ∧
      Utf8.decode (Percent.decode a.host) = .ok e.host.toList ∧ e.host = "büro.example" := by
  intro raw a
  let e : Endpoint :=
    { secure := false, username := "guest", password := "guest", host := "büro.example"
      port := 5672, vhost := "/", frameMax := none, channelMax := none, heartbeat := none
      connectionTimeout := none, authMechanism := none }
  have hparse : parse raw = .ok e := by decide +kernel
  have hname : a.HasName := by decide +kernel
  have hends : a.text.all (fun c => !Url.Kind.ordinary.endsAuthority c) := by decide +kernel
  have ha : a.IsOf raw := by
    refine ⟨⟨by simpa using hends, by decide +kernel, .inl hname⟩, "amqp".toList,
      '/' :: "%2f".toList, by decide +kernel, by decide +kernel, ?_⟩
    rintro c ⟨⟩
    rfl
  have hne : a.host ≠ [] := by decide
  exact ⟨e, hparse, ha, hne, hname, ((parse_host hparse).1 a ha hne).1 hname, rfl⟩

/-- The host of this URI is an address in brackets. The endpoint has another host, and shows it. -/
theorem literal_host_lost :
    let raw := "amqp://guest:guest@[2001:db8::1]:5672/%2f"
    let a : Url.Authority :=
      { login := some "guest:guest".toList, host := "[2001:db8::1]".toList
        port := some "5672".toList }
    ∃ e, parse raw = .ok e ∧ a.IsOf raw ∧ a.HasLiteral "2001:db8::1".toList ∧
      Url.Ipv6.parse? "2001:db8::1".toList = some [0x2001, 0xdb8, 0, 0, 0, 0, 0, 1] ∧
      e.host = "localhost" ∧ e.shown = "amqp://localhost:5672 (vhost '/')" := by
  intro raw a
  let e : Endpoint :=
    { secure := false, username := "guest", password := "guest", host := "localhost"
      port := 5672, vhost := "/", frameMax := none, channelMax := none, heartbeat := none
      connectionTimeout := none, authMechanism := none }
  have hliteral : a.HasLiteral "2001:db8::1".toList := ⟨by decide +kernel, by decide +kernel⟩
  have hends : a.text.all (fun c => !Url.Kind.ordinary.endsAuthority c) := by decide +kernel
  have ha : a.IsOf raw := by
    refine ⟨⟨by simpa using hends, by decide +kernel, .inr ⟨_, hliteral⟩⟩, "amqp".toList,
      '/' :: "%2f".toList, by decide +kernel, by decide +kernel, ?_⟩
    rintro c ⟨⟩
    rfl
  exact ⟨e, by decide +kernel, ha, hliteral, by decide +kernel, rfl, by decide +kernel⟩

end Endpoint

end QueueDrain
