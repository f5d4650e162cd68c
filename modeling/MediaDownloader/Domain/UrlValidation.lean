import MediaDownloader.Domain.Text

/-!
# URL validation

`validate_url` checks structure, `validate_url_against_allowlist` the domain.
Both go through `urllib.parse.urlparse`, which comes first.

* `validateUrl_ok`: what `validate_url` accepts it returns stripped;
* `validateUrlAgainstAllowlist_ok`: the URL it hands on is accepted again, so
  a checked URL stays checked.
-/

namespace MediaDownloader

/-! ## IPv6 hosts -/

/-- `IPv4Address._parse_octet` succeeds. -/
def isOctet (s : Str) : Bool :=
  !s.isEmpty && s.all isAsciiDigit && s.length ≤ 3 &&
    (s == str "0" || s.head? != some 48) && s.foldl (fun n c => 10 * n + (c - 48)) 0 ≤ 255

def isIPv4 (s : Str) : Bool :=
  let octets := splitOn 46 s
  octets.length == 4 && octets.all isOctet

/-- `IPv6Address._parse_hextet` succeeds. -/
def isHextet (s : Str) : Bool := !s.isEmpty && s.all isHexDigit && s.length ≤ 4

/-- The parts between colons, an IPv4 suffix as its two hextets. -/
def hextets (s : Str) : Option (List Str) :=
  let parts := splitOn 58 s
  let last := parts.getLastD []
  if parts.length < 3 then none
  else if 46 ∈ last then
    if isIPv4 last then some (parts.dropLast ++ [str "0", str "0"]) else none
  else some parts

/-- `IPv6Address._ip_int_from_string` succeeds on these parts. -/
def checkHextets (parts : List Str) : Bool :=
  let n := parts.length
  let skips := (List.range n).filter fun i => 1 ≤ i && i + 1 < n && (parts.getD i []).isEmpty
  let headEmpty := (parts.headD []).isEmpty
  let lastEmpty := (parts.getLastD []).isEmpty
  if n > 9 then false
  else
    match skips with
    | [] => n == 8 && parts.all isHextet
    | [skip] =>
      let hi := if headEmpty then skip - 1 else skip
      let lo := if lastEmpty then n - skip - 2 else n - skip - 1
      !(headEmpty && hi != 0) && !(lastEmpty && lo != 0) && hi + lo < 8 &&
        (parts.take hi).all isHextet && (parts.drop (n - lo)).all isHextet
    | _ => false

/-- `ip_address(s)` is an IPv6 address. -/
def isIPv6 (s : Str) : Bool :=
  match partition 37 s with
  | (addr, percent, scope) =>
    !(percent && (scope.isEmpty || decide (37 ∈ scope))) &&
      match hextets addr with
      | some parts => checkHextets parts
      | none => false

/-! ## urlparse -/

/-- The fields of `urlparse(url)` that are read. -/
structure ParseResult where
  scheme : Str
  netloc : Str
  deriving DecidableEq

/-- `_check_bracketed_host`: `IPvFuture` or IPv6. -/
def checkBracketedHost (hostname : Str) : Bool :=
  if startsWith (str "v") hostname then
    match partition 46 hostname.tail with
    | (version, dotted, rest) =>
      !version.isEmpty && version.all isHexDigit && dotted && !rest.isEmpty
  else isIPv6 hostname

/-- `_check_bracketed_netloc`. -/
def checkBracketedNetloc (netloc : Str) : Bool :=
  match partition 91 (rpartition 64 netloc).2.2 with
  | (beforeBracket, true, bracketed) =>
    match partition 93 bracketed with
    | (hostname, _, port) =>
      beforeBracket.isEmpty && (port.isEmpty || startsWith (str ":") port) &&
        checkBracketedHost hostname
  | (hostnameAndPort, false, _) => checkBracketedHost (partition 58 hostnameAndPort).1

/-- `_checknetloc`: no character that NFKC turns into a delimiter. -/
def checkNetloc (u : Unicode) (netloc : Str) : Bool :=
  if netloc.all (· < 128) then true
  else
    let n := removeChar 63 (removeChar 35 (removeChar 58 (removeChar 64 netloc)))
    let n' := u.nfkc n
    n == n' || (str "/?#@:").all fun c => !decide (c ∈ n')

def isSchemeChar (c : Nat) : Bool :=
  isAsciiAlpha c || isAsciiDigit c || c == 43 || c == 45 || c == 46

/-- The scheme and what follows its colon. -/
def splitScheme (url : Str) : Str × Str :=
  match partition 58 url with
  | (head, found, rest) =>
    if found && (head.head?.elim false isAsciiAlpha) && head.all isSchemeChar then
      (asciiLower head, rest)
    else ([], url)

def urlparse (u : Unicode) (url : Str) : Except Exc ParseResult :=
  let url := url.dropWhile (· ≤ 32)
  let url := removeChar 10 (removeChar 13 (removeChar 9 url))
  match splitScheme url with
  | (scheme, rest) =>
    let netloc :=
      if startsWith (str "//") rest then
        (rest.drop 2).takeWhile fun c => !(c == 47 || c == 63 || c == 35)
      else []
    if decide (91 ∈ netloc) != decide (93 ∈ netloc) then .error Exc.valueError
    else if decide (91 ∈ netloc) && !checkBracketedNetloc netloc then .error Exc.valueError
    else if !checkNetloc u netloc then .error Exc.valueError
    else .ok ⟨scheme, netloc⟩

/-- `parsed.hostname or ""`. -/
def ParseResult.hostname (u : Unicode) (parsed : ParseResult) : Str :=
  let hostinfo := (rpartition 64 parsed.netloc).2.2
  let host :=
    match partition 91 hostinfo with
    | (_, true, bracketed) => (partition 93 bracketed).1
    | (_, false, _) => (partition 58 hostinfo).1
  match partition 37 host with
  | (name, percent, zone) => u.lower name ++ (if percent then [37] else []) ++ zone

/-! ## Validation -/

def validateUrl (u : Unicode) (rawUrl : Str) : Except Exc Str :=
  let url := strip rawUrl
  if url.isEmpty then .error (.unsupportedURL (str "Пустая ссылка"))
  else
    match urlparse u url with
    | .error e => .error e
    | .ok parsed =>
      if parsed.scheme ≠ str "http" ∧ parsed.scheme ≠ str "https" then
        .error (.unsupportedURL (str "Неподдерживаемая схема ссылки: " ++
          if parsed.scheme.isEmpty then str "(отсутствует)" else parsed.scheme))
      else if parsed.netloc.isEmpty then
        .error (.unsupportedURL (str "Ссылка не содержит домен"))
      else .ok url

/-- `_host_matches`. -/
def hostMatches (u : Unicode) (hostname domain : Str) : Bool :=
  let d := (u.lower domain).dropWhile (· == 46)
  hostname == d || endsWith (46 :: d) hostname

/-- The decision on a validated URL. -/
def hostAllowed (u : Unicode) (allowedDomains blockedDomains : List Str) (hostname : Str) :
    Bool :=
  !blockedDomains.any (hostMatches u hostname) &&
    (allowedDomains.isEmpty || allowedDomains.any (hostMatches u hostname))

/-- The text of a refusal names each allowed domain once: they are a `frozenset`. -/
def validateUrlAgainstAllowlist (u : Unicode) (rawUrl : Str)
    (allowedDomains blockedDomains : List Str) : Except Exc Str :=
  match validateUrl u rawUrl with
  | .error e => .error e
  | .ok url =>
    match urlparse u url with
    | .error e => .error e
    | .ok parsed =>
      let hostname := (u.lower (parsed.hostname u)).rdropWhile (· == 46)
      if hostAllowed u allowedDomains blockedDomains hostname then .ok url
      else
        .error (.unsupportedURL (str "Этот сайт не поддерживается. Поддерживаемые: " ++
          join (str ", ") (allowedDomains.eraseDups.mergeSort strLe)))

/-! ## What is accepted -/

theorem validateUrl_ok {u : Unicode} {raw url : Str} (h : validateUrl u raw = .ok url) :
    url = strip raw := by
  simp only [validateUrl] at h
  split at h
  · cases h
  · split at h
    · cases h
    · split at h
      · cases h
      · split at h
        · cases h
        · exact (Except.ok.inj h).symm

theorem validateUrl_strip (u : Unicode) (raw : Str) :
    validateUrl u (strip raw) = validateUrl u raw := by
  simp only [validateUrl, strip_strip]

/-- What structural validation accepts it accepts again, unchanged. -/
theorem validateUrl_idem {u : Unicode} {raw url : Str} (h : validateUrl u raw = .ok url) :
    validateUrl u url = .ok url := by
  have hs := validateUrl_ok h
  rw [hs, validateUrl_strip, h, hs]

theorem validateUrlAgainstAllowlist_validateUrl {u : Unicode} {raw url : Str}
    {allowed blocked : List Str}
    (h : validateUrlAgainstAllowlist u raw allowed blocked = .ok url) :
    validateUrl u raw = .ok url := by
  simp only [validateUrlAgainstAllowlist] at h
  split at h
  · cases h
  · next url' hv =>
    split at h
    · cases h
    · split at h
      · cases h
        exact hv
      · cases h

/-- A URL the allowlist let through is let through again. -/
theorem validateUrlAgainstAllowlist_ok {u : Unicode} {raw url : Str}
    {allowed blocked : List Str}
    (h : validateUrlAgainstAllowlist u raw allowed blocked = .ok url) :
    validateUrlAgainstAllowlist u url allowed blocked = .ok url := by
  have hv := validateUrlAgainstAllowlist_validateUrl h
  have hi := validateUrl_idem hv
  simp only [validateUrlAgainstAllowlist, hv, hi] at h ⊢
  exact h

end MediaDownloader
