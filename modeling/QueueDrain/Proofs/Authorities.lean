import QueueDrain.Proofs.Credentials

/-!
# Authorities

A URI of an ordinary scheme has an authority behind its scheme: user information up to the last at
sign, a host, and a port behind a colon. The host is a name or an address in brackets. What a URL
has as its host is the host of this authority, and every URL has such an authority.

## Main definitions

* `Url.parseBehind` — a URL from its host on
* `Url.Ipv6.isAddressChar` — the characters of an address in brackets
* `Url.Authority` — user information, host and port as they stand in a URI
* `Url.Authority.IsOf` — the authority of a text

## Main results

* `Url.spanHost_name`, `Url.spanHost_literal` — where the text of a host ends
* `Url.of_parseOpaque` — a host is a name or an address in brackets
* `Url.Authority.IsProper.parseHost` — the host of an authority is the one that the URL has
* `Url.Authority.exists_of_parseAuthority` — a URL has an authority of which no delimiter is missing
-/

namespace QueueDrain

/-! ### Computations that succeed -/

/-- A computation succeeds with its first step and with what follows it. -/
theorem exists_of_bind_eq_ok {ε α β : Type} {x : Except ε α} {f : α → Except ε β} {b : β}
    (h : x >>= f = .ok b) : ∃ a, x = .ok a ∧ f a = .ok b := by
  cases x with
  | error fault => cases h
  | ok a => exact ⟨a, rfl, h⟩

/-- Behind a check that fails there is no success. -/
theorem of_throw_or_eq_ok {ε α : Type} {p : Prop} [Decidable p] {fault : ε} {x : Except ε α} {a : α}
    (h : (do
      if p then throw fault
      x) = .ok a) : x = .ok a := by
  by_cases hp : p
  · rw [if_pos hp] at h
    cases h
  · rwa [if_neg hp] at h

/-- Where a function succeeds on a list it succeeds on each element. -/
theorem isSome_of_mapM {α β : Type} {f : α → Option β} {l : List α} {ys : List β}
    (h : l.mapM f = some ys) : ∀ x ∈ l, (f x).isSome := by
  induction l generalizing ys with
  | nil => simp
  | cons a l ih =>
    rw [List.mapM_cons, Option.bind_eq_bind, Option.bind_eq_some_iff] at h
    obtain ⟨b, hb, h⟩ := h
    obtain ⟨bs, hbs, -⟩ := Option.bind_eq_some_iff.mp h
    simpa [hb] using ih hbs

/-! ### From the authority on -/

namespace Url

variable {scheme : String} {k : Kind} {cs : List Char} {url : Url}

/-- A URL from its host on, behind its user information. -/
def parseBehind (scheme : String) (k : Kind) (userinfo cs : List Char) : Except Fault Url := do
  let (username, password) := credentials userinfo
  let (hostText, rest) := spanHost k false cs
  let host ← k.parseHost hostText
  if hostText.isEmpty && (rest.head? = some ':' || k.isSpecial) then throw .emptyHost
  let (port, rest) ← parsePort k rest
  if hostText.isEmpty && (!username.isEmpty || password.isSome) then throw .emptyHost
  let (path, query) := splitQuery rest
  return { scheme, username, password, port, query
           host := if hostText.isEmpty then none else some host
           segments := k.segments path }

/-- The user information of an authority ends at its last at sign. -/
theorem exists_of_parseAuthority (h : parseAuthority scheme k cs = .ok url) :
    ∃ userinfo site, parseBehind scheme k userinfo
        (site ++ cs.dropWhile fun c => !k.endsAuthority c) = .ok url ∧
      (splitAtLast? '@' (cs.takeWhile fun c => !k.endsAuthority c) = some (userinfo, site) ∨
        splitAtLast? '@' (cs.takeWhile fun c => !k.endsAuthority c) = none ∧
          site = cs.takeWhile fun c => !k.endsAuthority c) := by
  rw [parseAuthority] at h
  rcases hsplit : splitAtLast? '@' (cs.takeWhile fun c => !k.endsAuthority c) with
    _ | ⟨_ | ⟨c, userinfo⟩, site⟩ <;> simp only [hsplit] at h
  · exact ⟨[], _, h, .inr ⟨rfl, rfl⟩⟩
  · exact ⟨[], site, of_throw_or_eq_ok h, .inl rfl⟩
  · exact ⟨c :: userinfo, site, h, .inl rfl⟩

/-- The host of a URL is the one that its text denotes, if there is a text. -/
theorem host_of_parseBehind {userinfo : List Char}
    (h : parseBehind scheme k userinfo cs = .ok url) :
    url.scheme = scheme ∧ ∃ host, k.parseHost (spanHost k false cs).1 = .ok host ∧
      url.host = if (spanHost k false cs).1.isEmpty then none else some host := by
  rw [parseBehind] at h
  simp only at h
  obtain ⟨host, hhost, h⟩ := exists_of_bind_eq_ok h
  obtain ⟨⟨port, rest⟩, -, h⟩ := exists_of_bind_eq_ok (of_throw_or_eq_ok h)
  have h := of_throw_or_eq_ok h
  cases h
  exact ⟨rfl, host, hhost, rfl⟩

theorem scheme_of_parseAuthority (h : parseAuthority scheme k cs = .ok url) :
    url.scheme = scheme := by
  obtain ⟨userinfo, site, h, -⟩ := exists_of_parseAuthority h
  exact (host_of_parseBehind h).1

theorem scheme_of_parseFile (h : parseFile scheme cs = .ok url) : url.scheme = scheme := by
  unfold parseFile at h
  dsimp only at h
  split at h
  next a b rest =>
    split at h
    next =>
      split at h
      next =>
        cases h
        rfl
      next =>
        obtain ⟨host, -, h⟩ := exists_of_bind_eq_ok h
        cases h
        rfl
    next =>
      cases h
      rfl
  next =>
    cases h
    rfl

/-! ### The text of a host -/

/-- What follows a text begins with a colon or ends the authority, or nothing follows. -/
def IsBehindHost (rest : List Char) : Prop :=
  ∀ c ∈ rest.head?, c = ':' ∨ Kind.ordinary.endsAuthority c

/-- A name goes on up to a colon or to the end of the authority. -/
theorem spanHost_name {name rest : List Char} (hrest : IsBehindHost rest)
    (hname : ∀ c ∈ name, c ≠ ':' ∧ c ≠ '[' ∧ Kind.ordinary.endsAuthority c = false) :
    spanHost .ordinary false (name ++ rest) = (name, rest) := by
  induction name with
  | nil =>
    cases rest with
    | nil => rfl
    | cons c rest =>
      have hc : c = ':' ∨ Kind.ordinary.endsAuthority c := hrest c rfl
      rw [List.nil_append, spanHost, if_pos (by simpa using hc)]
  | cons c name ih =>
    obtain ⟨hcolon, hbracket, hends⟩ := hname c List.mem_cons_self
    have ih := ih fun d hd => hname d (List.mem_cons_of_mem c hd)
    rw [List.cons_append, spanHost, if_neg (by simp [hcolon, hends])]
    simp [beq_false_of_ne hbracket, ih]

/-- An address in brackets goes on up to the closing one. -/
theorem spanHost_literal {address rest : List Char} (hrest : IsBehindHost rest)
    (haddress : ∀ c ∈ address, c ≠ ']' ∧ Kind.ordinary.endsAuthority c = false) :
    spanHost .ordinary false ('[' :: (address ++ ']' :: rest))
      = ('[' :: (address ++ [']']), rest) := by
  have hinside : spanHost .ordinary true (address ++ ']' :: rest) = (address ++ [']'], rest) := by
    induction address with
    | nil =>
      have hbehind : spanHost .ordinary false ([] ++ rest) = ([], rest) :=
        spanHost_name hrest (by simp)
      rw [List.nil_append] at hbehind
      rw [List.nil_append, spanHost, if_neg (by decide)]
      simp [hbehind]
    | cons c address ih =>
      obtain ⟨hbracket, hends⟩ := haddress c List.mem_cons_self
      have ih := ih fun d hd => haddress d (List.mem_cons_of_mem c hd)
      rw [List.cons_append, spanHost, if_neg (by simp [hends])]
      simp [bne_iff_ne.mpr hbracket, ih]
  rw [spanHost, if_neg (by decide)]
  simp [hinside]

/-- Where the text of a host ends. -/
theorem of_spanHost (bracketed : Bool) (cs : List Char) :
    cs = (spanHost .ordinary bracketed cs).1 ++ (spanHost .ordinary bracketed cs).2 ∧
    (∀ c ∈ (spanHost .ordinary bracketed cs).1, Kind.ordinary.endsAuthority c = false) ∧
    IsBehindHost (spanHost .ordinary bracketed cs).2 := by
  -- whether a bracket is open changes on the way
  induction cs generalizing bracketed with
  | nil => simp [spanHost, IsBehindHost]
  | cons c cs ih =>
    rw [spanHost]
    split
    next hends =>
      refine ⟨rfl, by simp, fun d hd => ?_⟩
      obtain rfl : c = d := by simpa using hd
      rcases Bool.or_eq_true_iff.mp hends with hcolon | hends
      · exact .inl (by simpa using (Bool.and_eq_true_iff.mp hcolon).1)
      · exact .inr hends
    next hends =>
      obtain ⟨hsplit, hhost, hrest⟩ := ih (c == '[' || (c != ']' && bracketed))
      simp only [Bool.or_eq_true, not_or, Bool.not_eq_true] at hends
      refine ⟨by simpa using hsplit, ?_, hrest⟩
      simpa [hends.2] using hhost

/-! ### Addresses in brackets -/

/-- Cutting a text is cutting a list. -/
theorem splitOn_eq (sep : Char) (cs : List Char) : splitOn sep cs = cs.splitOn sep := by
  induction cs with
  | nil => rfl
  | cons c cs ih =>
    rw [splitOn, ih, List.splitOn_cons_eq_if_modifyHead]
    rcases hparts : cs.splitOn sep with _ | ⟨part, parts⟩
    · exact absurd hparts (List.splitOn_ne_nil _ _)
    · by_cases hc : c = sep <;> simp [hc]

/-- Every character of a text is the separator or stands in one of the parts. -/
theorem mem_splitOn (sep : Char) {c : Char} {cs : List Char} (hc : c ∈ cs) :
    c = sep ∨ ∃ part ∈ splitOn sep cs, c ∈ part := by
  induction cs with
  | nil => cases hc
  | cons d cs ih =>
    rw [splitOn]
    split
    next hnil => exact absurd hnil (by rw [splitOn_eq]; exact List.splitOn_ne_nil _ _)
    next part parts hparts =>
      rw [hparts] at ih
      by_cases hd : d = sep
      · rw [if_pos hd]
        rcases List.mem_cons.mp hc with rfl | hc
        · exact .inl hd
        · exact (ih hc).imp_right fun ⟨p, hp, hcp⟩ => ⟨p, List.mem_cons_of_mem _ hp, hcp⟩
      · rw [if_neg hd]
        rcases List.mem_cons.mp hc with rfl | hc
        · exact .inr ⟨_, List.mem_cons_self, List.mem_cons_self⟩
        · refine (ih hc).imp_right fun ⟨p, hp, hcp⟩ => ?_
          rcases List.mem_cons.mp hp with rfl | hp
          · exact ⟨_, List.mem_cons_self, List.mem_cons_of_mem _ hcp⟩
          · exact ⟨p, List.mem_cons_of_mem _ hp, hcp⟩

namespace Ipv6

/-- Whether a character may stand in an address. -/
def isAddressChar (c : Char) : Bool := (Percent.hexValue? c).isSome || c == ':' || c == '.'

@[simp] theorem isAddressChar_colon : isAddressChar ':' = true := by decide

/-- A decimal digit is a hexadecimal one. -/
theorem isAddressChar_of_digitValue? {c : Char} (h : (Decimal.digitValue? c).isSome) :
    isAddressChar c := by
  unfold Decimal.digitValue? at h
  split at h
  next hc => simp [isAddressChar, Percent.hexValue?, hc]
  next => cases h

/-- A dotted ending is made of digits and dots. -/
theorem isAddressChar_of_tail? {cs : List Char} {pieces : List Nat} (h : tail? cs = some pieces) :
    ∀ c ∈ cs, isAddressChar c := by
  intro c hc
  rcases mem_splitOn '.' hc with rfl | ⟨part, hpart, hc⟩
  · rfl
  · have hnumber : (tailNumber? part).isSome := by
      unfold tail? at h
      split at h
      next hparts => exact isSome_of_mapM hparts part hpart
      next => cases h
    unfold tailNumber? at hnumber
    split at hnumber
    next => cases hnumber
    next d rest =>
      split at hnumber
      next hdigits =>
        simp only [Bool.and_eq_true] at hdigits
        exact isAddressChar_of_digitValue? (List.all_eq_true.mp hdigits.1.1 c hc)
      next => cases hnumber

/-- The leading digits of a text are part of it. -/
theorem of_spanHex {limit : Nat} {cs digits rest : List Char}
    (h : spanHex limit cs = (digits, rest)) :
    cs = digits ++ rest ∧ ∀ c ∈ digits, isAddressChar c := by
  induction limit generalizing cs digits with
  | zero =>
    obtain ⟨rfl, rfl⟩ : [] = digits ∧ cs = rest := by simpa [spanHex] using h
    exact ⟨rfl, by simp⟩
  | succ limit ih =>
    cases cs with
    | nil =>
      cases h
      exact ⟨rfl, by simp⟩
    | cons c cs =>
      rw [spanHex] at h
      split at h
      next hc =>
        cases h
        obtain ⟨hsplit, hdigits⟩ := ih rfl
        refine ⟨congrArg (c :: ·) hsplit, ?_⟩
        simpa [isAddressChar, hc] using hdigits
      next =>
        cases h
        exact ⟨rfl, by simp⟩

/-- An address is made of digits, colons and dots. -/
theorem isAddressChar_of_pieces? {known : List Nat} {gap : Option Nat} {cs : List Char}
    {found : List Nat × Option Nat} (h : pieces? known gap cs = some found) :
    ∀ c ∈ cs, isAddressChar c := by
  -- a gap goes on behind its colon, and a run of digits behind the one that ends it
  fun_induction pieces? known gap cs with
  | case1 => simp
  | case2 | case4 | case6 | case8 | case10 => cases h
  | case3 _ _ rest _ ih => simpa using ih h
  | case5 _ _ _ _ _ _ digits hspan =>
    obtain ⟨hsplit, hdigits⟩ := of_spanHex hspan
    rw [hsplit, List.append_nil]
    exact hdigits
  | case7 =>
    obtain ⟨two, htwo, -⟩ := Option.map_eq_some_iff.mp h
    exact isAddressChar_of_tail? htwo
  | case9 _ _ _ _ _ _ digits behind _ hspan _ ih =>
    obtain ⟨hsplit, hdigits⟩ := of_spanHex hspan
    rw [hsplit]
    simp only [List.mem_append, List.mem_cons]
    rintro c (hc | rfl | hc)
    · exact hdigits c hc
    · rfl
    · exact ih h c hc

/-- No bracket stands in an address. -/
theorem not_mem_of_parse? {cs : List Char} (h : (parse? cs).isSome) : ']' ∉ cs := by
  have hchars : ∀ c ∈ cs, isAddressChar c := by
    unfold parse? at h
    split at h
    next rest =>
      cases hfound : pieces? [0] (some 1) rest with
      | none =>
        rw [hfound] at h
        cases h
      | some found => simpa using isAddressChar_of_pieces? hfound
    next => cases h
    next => cases h
    next => cases h
    next =>
      cases hfound : pieces? [] none cs with
      | none =>
        rw [hfound] at h
        cases h
      | some found => exact isAddressChar_of_pieces? hfound
  exact fun hmem => absurd (hchars _ hmem) (by decide)

end Ipv6

/-! ### Hosts of ordinary schemes -/

section Opaque

variable {host : Host}

theorem parseOpaque_name (hbracket : '[' ∉ cs) (h : Host.parseOpaque cs = .ok host) :
    host = .name cs := by
  rw [Host.parseOpaque.eq_def] at h
  split at h
  next => simp at hbracket
  next =>
    split at h
    next => cases h
    next =>
      cases h
      rfl

theorem parseOpaque_literal {address : List Char}
    (h : Host.parseOpaque ('[' :: (address ++ [']'])) = .ok host) :
    ∃ pieces, Ipv6.parse? address = some pieces ∧ host = .ipv6 pieces := by
  have hlast : ('[' :: (address ++ [']'])).getLast? = some ']' :=
    List.getLast?_concat (l := '[' :: address)
  have hinside : (('[' :: (address ++ [']'])).drop 1).dropLast = address := by simp
  rw [Host.parseOpaque, Host.parseBracketed, if_pos hlast, hinside] at h
  cases hpieces : Ipv6.parse? address with
  | none =>
    rw [hpieces] at h
    cases h
  | some pieces =>
    rw [hpieces] at h
    cases h
    exact ⟨pieces, rfl, rfl⟩

/-- What is a host is a name or an address in brackets. -/
theorem of_parseOpaque (h : Host.parseOpaque cs = .ok host) :
    (∀ c ∈ cs, c ≠ ':' ∧ c ≠ '[' ∧ c ≠ ']') ∨
      ∃ address, cs = '[' :: (address ++ [']']) ∧ ']' ∉ address := by
  rw [Host.parseOpaque.eq_def] at h
  split at h
  next tail =>
    rw [Host.parseBracketed] at h
    split at h
    next hlast =>
      obtain ⟨front, hfront⟩ := List.getLast?_eq_some_iff.mp hlast
      -- the brackets are two characters
      obtain ⟨address, rfl⟩ : ∃ address, front = '[' :: address := by
        cases front with
        | nil => cases hfront
        | cons c address =>
          rw [List.cons_append] at hfront
          exact ⟨address, by rw [(List.cons.inj hfront).1]⟩
      refine .inr ⟨address, hfront, ?_⟩
      rw [hfront, List.cons_append, List.drop_one, List.tail_cons, List.dropLast_concat] at h
      cases haddress : Ipv6.parse? address with
      | none => simp [haddress] at h
      | some pieces => exact Ipv6.not_mem_of_parse? (by rw [haddress]; rfl)
    next => cases h
  next =>
    split at h
    next => cases h
    next hforbidden =>
      have hother : ∀ d, Host.forbidden.contains d = true → ∀ c ∈ cs, c ≠ d := by
        rintro d hd c hc rfl
        exact hforbidden (List.any_eq_true.mpr ⟨c, hc, hd⟩)
      exact .inl fun c hc =>
        ⟨hother _ (by decide) c hc, hother _ (by decide) c hc, hother _ (by decide) c hc⟩

end Opaque

/-! ### Authorities -/

/-- Without an at sign nothing stands in front of one. -/
theorem splitAtLast?_of_not_mem {sep : Char} (h : sep ∉ cs) : splitAtLast? sep cs = none := by
  have hcs : ∀ c ∈ cs.reverse, (c != sep) = true := fun c hc =>
    bne_iff_ne.mpr fun hcs => h (hcs ▸ List.mem_reverse.mp hc)
  rw [splitAtLast?]
  simp only [List.dropWhile_eq_nil_iff.mpr hcs]

theorem of_splitAtLast?_eq_some {sep : Char} {front behind : List Char}
    (h : splitAtLast? sep cs = some (front, behind)) :
    cs = front ++ sep :: behind ∧ sep ∉ behind := by
  rw [splitAtLast?] at h
  split at h
  next => cases h
  next c before hdrop =>
    cases h
    obtain rfl : c = sep := by
      have := List.head?_dropWhile_not (· != sep) cs.reverse
      simpa [hdrop] using this
    have hsplit : cs.reverse = cs.reverse.takeWhile (· != c) ++ c :: before := by
      rw [← hdrop, List.takeWhile_append_dropWhile]
    refine ⟨?_, fun hmem => ?_⟩
    · calc cs = (cs.reverse.takeWhile (· != c) ++ c :: before).reverse :=
            List.reverse_eq_iff.mp hsplit
        _ = before.reverse ++ c :: (cs.reverse.takeWhile (· != c)).reverse := by simp
    · have := List.mem_takeWhile_imp (List.mem_reverse.mp hmem)
      simp at this

theorem not_mem_of_splitAtLast?_eq_none {sep : Char} (h : splitAtLast? sep cs = none) :
    sep ∉ cs := by
  rw [splitAtLast?] at h
  split at h
  next hdrop =>
    intro hmem
    have := List.dropWhile_eq_nil_iff.mp hdrop sep (List.mem_reverse.mpr hmem)
    simp at this
  next => cases h

/-- The authority of a URI as it stands there. -/
structure Authority where
  /-- What stands in front of the at sign, if there is one. -/
  login : Option (List Char)
  host : List Char
  /-- What stands behind the colon that the host ends with, if there is one. -/
  port : Option (List Char)

namespace Authority

variable {a : Authority} {raw scheme : String} {url : Url}

/-- The host and what follows it. -/
def site (a : Authority) : List Char :=
  match a.port with
  | none => a.host
  | some port => a.host ++ ':' :: port

def text (a : Authority) : List Char :=
  match a.login with
  | none => a.site
  | some login => login ++ '@' :: a.site

/-- The host is a name, or an IPv4 address. -/
def HasName (a : Authority) : Prop := ∀ c ∈ a.host, c ≠ ':' ∧ c ≠ '[' ∧ c ≠ ']'

instance (a : Authority) : Decidable a.HasName := List.decidableBAll _ a.host

/-- The host is an IPv6 address in brackets. -/
def HasLiteral (a : Authority) (address : List Char) : Prop :=
  a.host = '[' :: (address ++ [']']) ∧ ']' ∉ address

/-- An authority of which no delimiter is missing: it ends where it has to, the at sign is the last
one, and the colon in front of the port is none of the host. -/
structure IsProper (a : Authority) : Prop where
  endsAuthority : ∀ c ∈ a.text, Kind.ordinary.endsAuthority c = false
  not_mem_site : '@' ∉ a.site
  host : a.HasName ∨ ∃ address, a.HasLiteral address

/-- An authority stands in a URI behind the first colon and two slashes, and in front of the path,
the query or the fragment. -/
def IsOf (a : Authority) (raw : String) : Prop :=
  a.IsProper ∧ ∃ scheme rest : List Char,
    significant raw = scheme ++ ':' :: '/' :: '/' :: (a.text ++ rest) ∧ ':' ∉ scheme ∧
      ∀ c ∈ rest.head?, Kind.ordinary.endsAuthority c

theorem text_of_login_eq_none (h : a.login = none) : a.text = a.site := by
  rw [text, h]

theorem text_of_login_eq_some {login : List Char} (h : a.login = some login) :
    a.text = login ++ '@' :: a.site := by
  rw [text, h]

/-- A host is part of its authority. -/
theorem mem_text_of_mem_host {c : Char} (hc : c ∈ a.host) : c ∈ a.text := by
  have hsite : c ∈ a.site := by
    unfold site
    cases a.port with
    | none => exact hc
    | some port => exact List.mem_append_left _ hc
  unfold text
  cases a.login with
  | none => exact hsite
  | some login => exact List.mem_append_right _ (List.mem_cons_of_mem _ hsite)

/-- The at sign behind the user information is the last one. -/
theorem IsProper.splitAtLast? (h : a.IsProper) :
    splitAtLast? '@' a.text = a.login.map fun login => (login, a.site) := by
  cases hlogin : a.login with
  | none =>
    rw [text_of_login_eq_none hlogin]
    exact splitAtLast?_of_not_mem h.not_mem_site
  | some login =>
    rw [text_of_login_eq_some hlogin]
    exact splitAtLast?_append login h.not_mem_site

section Rest

variable {rest : List Char} (hrest : ∀ c ∈ rest.head?, Kind.ordinary.endsAuthority c)
include hrest

/-- A text goes on with what follows it up to the end of the authority. -/
theorem split_append {cs : List Char} (hcs : ∀ c ∈ cs, Kind.ordinary.endsAuthority c = false) :
    (cs ++ rest).takeWhile (fun c => !Kind.ordinary.endsAuthority c) = cs ∧
      (cs ++ rest).dropWhile (fun c => !Kind.ordinary.endsAuthority c) = rest := by
  have hcs : ∀ c ∈ cs, (!Kind.ordinary.endsAuthority c) = true := fun c hc => by simp [hcs c hc]
  rw [List.takeWhile_append_of_pos hcs, List.dropWhile_append_of_pos hcs]
  cases rest with
  | nil => simp
  | cons c rest =>
    have hc := hrest c rfl
    simp [hc]

/-- The host ends in front of the port. -/
theorem IsProper.spanHost (h : a.IsProper) :
    ∃ behind, spanHost .ordinary false (a.site ++ rest) = (a.host, behind) := by
  obtain ⟨behind, hsplit, hbehind⟩ :
      ∃ behind, a.site ++ rest = a.host ++ behind ∧ IsBehindHost behind := by
    unfold site
    cases a.port with
    | none => exact ⟨rest, rfl, fun c hc => .inr (hrest c hc)⟩
    | some port =>
      refine ⟨':' :: port ++ rest, by simp, fun c hc => .inl ?_⟩
      simpa [eq_comm] using hc
  have hhost : ∀ c ∈ a.host, Kind.ordinary.endsAuthority c = false := fun c hc =>
    h.endsAuthority c (mem_text_of_mem_host hc)
  refine ⟨behind, ?_⟩
  rw [hsplit]
  rcases h.host with hname | ⟨address, hliteral, haddress⟩
  · exact spanHost_name hbehind fun c hc => ⟨(hname c hc).1, (hname c hc).2.1, hhost c hc⟩
  · rw [hliteral] at hhost ⊢
    have haddress : ∀ c ∈ address, c ≠ ']' ∧ Kind.ordinary.endsAuthority c = false := fun c hc =>
      ⟨fun hc' => haddress (hc' ▸ hc), hhost c (by simp [hc])⟩
    simpa using spanHost_literal hbehind haddress

/-- The host of an authority is the one that the URL has. -/
theorem IsProper.parseHost (h : a.IsProper) (hne : a.host ≠ [])
    (hurl : parseAuthority scheme .ordinary (a.text ++ rest) = .ok url) :
    ∃ host, Host.parseOpaque a.host = .ok host ∧ url.host = some host := by
  obtain ⟨userinfo, site, hbehind, hsite⟩ := exists_of_parseAuthority hurl
  obtain ⟨htake, hdrop⟩ := split_append hrest h.endsAuthority
  obtain rfl : site = a.site := by
    rw [htake, h.splitAtLast?] at hsite
    cases hlogin : a.login with
    | none => simpa [hlogin, text] using hsite
    | some login =>
      obtain ⟨-, hsite⟩ : login = userinfo ∧ a.site = site := by simpa [hlogin] using hsite
      exact hsite.symm
  obtain ⟨behind, hspan⟩ := h.spanHost hrest
  obtain ⟨-, host, hhost, hurl⟩ := host_of_parseBehind hbehind
  rw [hdrop, hspan] at hhost hurl
  exact ⟨host, hhost, by simpa [hne] using hurl⟩

/-- What is read as a host is the host of an authority. -/
theorem exists_of_spanHost {site : List Char} (login : Option (List Char))
    (hsite : ∀ c ∈ site, Kind.ordinary.endsAuthority c = false) :
    ∃ a : Authority, a.login = login ∧ a.host = (Url.spanHost .ordinary false (site ++ rest)).1 ∧
      a.site = site := by
  obtain ⟨hsplit, hends, hbehind⟩ := of_spanHost false (site ++ rest)
  generalize Url.spanHost .ordinary false (site ++ rest) = found at hsplit hends hbehind ⊢
  obtain ⟨host, behind⟩ := found
  -- what stands behind the host belongs to the site up to the end of the authority
  have hgoes : site = host ++ behind.takeWhile fun c => !Kind.ordinary.endsAuthority c := by
    rw [← (split_append hrest hsite).1, hsplit,
      List.takeWhile_append_of_pos fun c hc => by simp [hends c hc]]
  cases behind with
  | nil => exact ⟨⟨login, host, none⟩, rfl, rfl, by simpa [Authority.site] using hgoes.symm⟩
  | cons c behind =>
    rcases hbehind c rfl with rfl | hc
    · exact ⟨⟨login, host, some _⟩, rfl, rfl, hgoes.symm⟩
    · rw [List.takeWhile_cons_of_neg (by simp [hc]), List.append_nil] at hgoes
      exact ⟨⟨login, host, none⟩, rfl, rfl, hgoes.symm⟩

end Rest

/-- A URL has an authority of which no delimiter is missing. -/
theorem exists_of_parseAuthority {cs : List Char}
    (hurl : Url.parseAuthority scheme .ordinary cs = .ok url) :
    ∃ a : Authority, a.IsProper ∧ ∃ rest, cs = a.text ++ rest ∧
      ∀ c ∈ rest.head?, Kind.ordinary.endsAuthority c := by
  obtain ⟨userinfo, site, hbehind, hsplit⟩ := Url.exists_of_parseAuthority hurl
  have hauthority := List.takeWhile_append_dropWhile (p := fun c => !Kind.ordinary.endsAuthority c)
    (l := cs)
  generalize hfront : (cs.takeWhile fun c => !Kind.ordinary.endsAuthority c) = front
    at hsplit hauthority
  have hends : ∀ c ∈ front, Kind.ordinary.endsAuthority c = false := fun c hc => by
    rw [← hfront] at hc
    have := List.mem_takeWhile_imp hc
    simpa using this
  have hrest : ∀ c ∈ (cs.dropWhile fun c => !Kind.ordinary.endsAuthority c).head?,
      Kind.ordinary.endsAuthority c := fun c hc => by
    have := List.head?_dropWhile_not (fun c => !Kind.ordinary.endsAuthority c) cs
    rw [hc] at this
    simpa using this
  obtain ⟨-, host, hhost, -⟩ := host_of_parseBehind hbehind
  have hhost := of_parseOpaque hhost
  rcases hsplit with hsplit | ⟨hsplit, rfl⟩
  · obtain ⟨htext, hat⟩ := of_splitAtLast?_eq_some hsplit
    have hsite : ∀ c ∈ site, Kind.ordinary.endsAuthority c = false := fun c hc =>
      hends c (by rw [htext]; simp [hc])
    obtain ⟨a, hlogin, hahost, hsite⟩ := exists_of_spanHost hrest (some userinfo) hsite
    rw [← hsite, ← text_of_login_eq_some hlogin] at htext
    rw [← hahost] at hhost
    exact ⟨a, ⟨htext ▸ hends, hsite ▸ hat, hhost⟩, _, by rw [← htext, hauthority], hrest⟩
  · obtain ⟨a, hlogin, hahost, hsite⟩ := exists_of_spanHost hrest none hends
    have hat := not_mem_of_splitAtLast?_eq_none hsplit
    rw [← hahost] at hhost
    rw [← hsite] at hat hends hauthority
    rw [← text_of_login_eq_none hlogin] at hends hauthority
    exact ⟨a, ⟨hends, hat, hhost⟩, _, hauthority.symm, hrest⟩

end Authority

end Url

end QueueDrain
