import RustDesk.Lib.Authority
import RustDesk.Lib.Base64
import RustDesk.Lib.Utf8

/-!
# Proxies and their targets

An HTTP proxy is kept as the text of its host and port.  Four functions cut that text: what is
resolved is cut at the first colon, the TLS name is what stands in front of it, and the default
port is put behind a text that has none.  To the target the proxy is asked to connect by a
`CONNECT` line and a `Host` header.

* `addressed_iff`: **the proxy is addressed as its URL says, and the target as it is**, exactly
  when they are no IPv6 addresses.
-/

open Authority

namespace RustDesk

open List

inductive ProxyError where
  | ioError
  | urlParseScheme
  | urlBadScheme (scheme : Text)
  | addressResolutionFailed (host : Text)

/-- `Auth`. -/
structure ProxyAuth where
  userName : Text
  password : Text

/-- `SocketAddr`; the host is an address. -/
structure ProxySocketAddr where
  ip : Host
  port : UInt16

/-- `SocketAddr` as a text. -/
def ProxySocketAddr.show (addr : ProxySocketAddr) : Text :=
  addr.ip.written ++ ':' :: digits addr.port

inductive ProxyUrlScheme where
  | http
  | https
  | socks5
  | other (name : Text)
  deriving DecidableEq

structure ProxyUrl where
  scheme : ProxyUrlScheme
  username : Text
  password : Option Text
  host : Host
  port : Option UInt16

def ProxyUrl.hostPort (url : ProxyUrl) : Text :=
  match url.port with
  | some port => url.host.written ++ ':' :: digits port
  | none => url.host.written

inductive ProxyScheme where
  | http (auth : Option ProxyAuth) (host : Text)
  | https (auth : Option ProxyAuth) (host : Text)
  | socks5 (addr : ProxySocketAddr) (auth : Option ProxyAuth) (remoteDns : Bool)

namespace ProxyScheme

def maybeAuth : ProxyScheme → Option ProxyAuth
  | http auth _ => auth
  | https auth _ => auth
  | socks5 _ auth _ => auth

def setBasicAuth (username password : Text) : ProxyScheme → ProxyScheme
  | http _ host => http (some ⟨username, password⟩) host
  | https _ host => https (some ⟨username, password⟩) host
  | socks5 addr _ remoteDns => socks5 addr (some ⟨username, password⟩) remoteDns

/-- `ProxyScheme::parse`; `toAddr` resolves the URL of a SOCKS5 proxy. -/
def parse (toAddr : ProxyUrl → Except ProxyError ProxySocketAddr) (url : ProxyUrl) :
    Except ProxyError ProxyScheme := do
  let scheme ← match url.scheme with
    | .http => .ok (http none url.hostPort)
    | .https => .ok (https none url.hostPort)
    | .socks5 => (toAddr url).map (socks5 · none false)
    | .other name => .error (.urlBadScheme name)
  match url.password with
  | some pwd => .ok (scheme.setBasicAuth url.username pwd)
  | none => .ok scheme

/-- `str::parse::<u16>`. -/
def parseU16 (t : Text) : Option UInt16 :=
  match t with
  | '+' :: ds => parsePort ds
  | ds => parsePort ds

/-- The pair that `resolve_host` looks up. -/
def lookedUp (host : Text) (defaultPort : UInt16) : Text × UInt16 :=
  match splitOnce ':' host with
  | some (h, p) => (h, (parseU16 p).getD defaultPort)
  | none => (host, defaultPort)

/-- `to_socket_addrs` of a host and a port, which may fail. -/
abbrev Lookup := Text × UInt16 → Option (List ProxySocketAddr)

def resolveHost (toSocketAddrs : Lookup) (host : Text) (defaultPort : UInt16) :
    Except ProxyError ProxySocketAddr :=
  match toSocketAddrs (lookedUp host defaultPort) with
  | none => .error .ioError
  | some [] => .error (.addressResolutionFailed host)
  | some (addr :: _) => .ok addr

def socketAddrs (toSocketAddrs : Lookup) : ProxyScheme → Except ProxyError ProxySocketAddr
  | http _ host => resolveHost toSocketAddrs host 80
  | https _ host => resolveHost toSocketAddrs host 443
  | socks5 addr _ _ => .ok addr

def getDomain : ProxyScheme → Text
  | http _ host => host.takeWhile (· ≠ ':')
  | https _ host => host.takeWhile (· ≠ ':')
  | socks5 addr _ _ => addr.ip.text

def appendDefaultPort (host : Text) (defaultPort : UInt16) : Text :=
  if ':' ∈ host then host else host ++ ':' :: digits defaultPort

def getHostAndPort : ProxyScheme → Text
  | http _ host => appendDefaultPort host 80
  | https _ host => appendDefaultPort host 443
  | socks5 addr _ _ => addr.show

end ProxyScheme

inductive TargetAddr where
  | ip (addr : ProxySocketAddr)
  | domain (name : Text) (plain : ∀ c ∈ name, isPlain c = true) (port : UInt16)

namespace TargetAddr

def host : TargetAddr → Host
  | ip addr => addr.ip
  | domain name plain _ => .name name plain

def port : TargetAddr → UInt16
  | ip addr => addr.port
  | domain _ _ port => port

def getDomainAndPort : TargetAddr → Text × UInt16
  | ip addr => (addr.ip.text, addr.port)
  | domain name _ port => (name, port)

end TargetAddr

namespace ProxyAuth

def getBasicAuthorization (auth : ProxyAuth) : Text :=
  Base64.encode (Utf8.bytes (auth.userName ++ ':' :: auth.password))

def getProxyAuthorization (auth : ProxyAuth) : Text :=
  "Proxy-Authorization: Basic ".toList ++ auth.getBasicAuthorization ++ ['\r', '\n']

end ProxyAuth

namespace ProxyScheme

def makeRequest (intercept : ProxyScheme) (host : Text) (port : UInt16) : Text :=
  let request := "CONNECT ".toList ++ host ++ ':' :: digits port ++
    " HTTP/1.1\r\nHost: ".toList ++ host ++ ':' :: digits port ++ ['\r', '\n']
  (match intercept.maybeAuth with
    | some auth => request ++ auth.getProxyAuthorization
    | none => request) ++ ['\r', '\n']

/-- The request of `http_connect`. -/
def connectRequest (intercept : ProxyScheme) (target : TargetAddr) : Text :=
  intercept.makeRequest target.getDomainAndPort.1 target.getDomainAndPort.2

end ProxyScheme

def requestTarget (request : Text) : Option Text := do
  let (_, rest) ← splitOnce ' ' request
  let (target, _) ← splitOnce ' ' rest
  some target

/-- The value of the `Host` header, which is the second line of a request. -/
def hostHeader (request : Text) : Option Text := do
  let (_, rest) ← splitOnce '\n' request
  let (_, value) ← splitOnce ' ' rest
  let (host, _) ← splitOnce '\r' value
  some host

theorem appended_eq (intercept : ProxyScheme) (host : Text) (port : UInt16) :
    ∃ rest, intercept.makeRequest host port = "CONNECT".toList ++ ' ' ::
      (host ++ ':' :: digits port ++ ' ' :: ("HTTP/1.1\r".toList ++ '\n' ::
        ("Host:".toList ++ ' ' :: (host ++ ':' :: digits port ++ '\r' :: rest)))) := by
  unfold ProxyScheme.makeRequest
  cases intercept.maybeAuth with
  | none =>
    refine ⟨['\n', '\r', '\n'], ?_⟩
    simp
  | some auth =>
    refine ⟨'\n' :: auth.getProxyAuthorization ++ ['\r', '\n'], ?_⟩
    simp

section

variable {host : Text}

theorem notMem_hostPort {c : Char} (h : c ∉ host) (hcolon : c ≠ ':') (hdigit : c.isDigit = false)
    (port : UInt16) : c ∉ host ++ ':' :: digits port := by
  rw [mem_append, mem_cons]
  rintro (hmem | heq | hmem)
  · exact h hmem
  · exact hcolon heq
  · exact Bool.noConfusion (hdigit.symm.trans (isDigit_digits hmem))

theorem requestTarget_makeRequest (intercept : ProxyScheme) (port : UInt16) (h : ' ' ∉ host) :
    requestTarget (intercept.makeRequest host port) = some (host ++ ':' :: digits port) := by
  obtain ⟨rest, heq⟩ := appended_eq intercept host port
  have hfirst : ' ' ∉ "CONNECT".toList := by decide
  rw [requestTarget, heq, splitOnce_append hfirst]
  simp only [Option.bind_eq_bind, Option.bind_some]
  rw [splitOnce_append (notMem_hostPort h (by decide) rfl port)]
  rfl

theorem hostHeader_makeRequest (intercept : ProxyScheme) (port : UInt16) (hcr : '\r' ∉ host)
    (hlf : '\n' ∉ host) :
    hostHeader (intercept.makeRequest host port) = some (host ++ ':' :: digits port) := by
  obtain ⟨rest, heq⟩ := appended_eq intercept host port
  have hline : '\n' ∉ "CONNECT".toList ++ ' ' ::
      (host ++ ':' :: digits port ++ ' ' :: "HTTP/1.1\r".toList) := by
    have hport := notMem_hostPort hlf (by decide) rfl port
    rw [mem_append, mem_cons, mem_append]
    rintro (hmem | hmem | hmem | hmem)
    · exact absurd hmem (by decide)
    · cases hmem
    · exact hport hmem
    · exact absurd hmem (by decide)
  have hname : ' ' ∉ "Host:".toList := by decide
  have hsplit := splitOnce_append hline
    ("Host:".toList ++ ' ' :: (host ++ ':' :: digits port ++ '\r' :: rest))
  rw [hostHeader, heq]
  simp only [append_assoc, cons_append] at hsplit ⊢
  rw [hsplit]
  simp only [Option.bind_eq_bind, Option.bind_some]
  rw [splitOnce_append hname]
  simp only [Option.bind_some]
  rw [← cons_append, ← append_assoc, splitOnce_append (notMem_hostPort hcr (by decide) rfl port)]
  rfl

end

def Names (t : Text) (host : Host) : Prop := t = host.text ∨ t = host.written

def ProxyScheme.Resolves (proxy : ProxyScheme) (pair : Text × UInt16) : Prop :=
  ∀ toSocketAddrs : Lookup, match toSocketAddrs pair with
    | none => proxy.socketAddrs toSocketAddrs = .error .ioError
    | some [] => ∃ host, proxy.socketAddrs toSocketAddrs = .error (.addressResolutionFailed host)
    | some (addr :: _) => proxy.socketAddrs toSocketAddrs = .ok addr

/-- All that is made of the URL names the host and the port that it has. -/
structure Addressed (proxy : ProxyScheme) (host : Host) (port : UInt16) : Prop where
  resolves : ∃ t, Names t host ∧ proxy.Resolves (t, port)
  hostAndPort : Authority.parse proxy.getHostAndPort = some (host.written, port)
  domain : Names proxy.getDomain host

def ProxyUrl.isHttp (url : ProxyUrl) : Bool := url.scheme = .http || url.scheme = .https

def ProxyUrl.httpPort (url : ProxyUrl) : UInt16 :=
  url.port.getD (if url.scheme = .https then 443 else 80)

def ProxyAddressed (toAddr : ProxyUrl → Except ProxyError ProxySocketAddr) (url : ProxyUrl) :
    Prop :=
  ∃ proxy, ProxyScheme.parse toAddr url = .ok proxy ∧ Addressed proxy url.host url.httpPort

/-- The request names the target in both places. -/
structure TargetAddressed (proxy : ProxyScheme) (target : TargetAddr) : Prop where
  connect : (requestTarget (proxy.connectRequest target)).bind Authority.parse =
    some (target.host.written, target.port)
  host : (hostHeader (proxy.connectRequest target)).bind Authority.parse =
    some (target.host.written, target.port)

structure ProxyScheme.Holds (proxy : ProxyScheme) (host : Text) (defaultPort : UInt16) : Prop where
  socketAddrs : ∀ toSocketAddrs, proxy.socketAddrs toSocketAddrs =
    ProxyScheme.resolveHost toSocketAddrs host defaultPort
  domain : proxy.getDomain = host.takeWhile (· ≠ ':')
  hostAndPort : proxy.getHostAndPort = ProxyScheme.appendDefaultPort host defaultPort

section

variable {toAddr : ProxyUrl → Except ProxyError ProxySocketAddr} {url : ProxyUrl}
  {proxy : ProxyScheme} {host : Text} {defaultPort : UInt16}

theorem parse_of_isHttp (h : url.isHttp = true) : ∃ proxy,
    ProxyScheme.parse toAddr url = .ok proxy ∧
      proxy.Holds url.hostPort (if url.scheme = .https then 443 else 80) := by
  obtain ⟨scheme, username, password, urlHost, port⟩ := url
  cases scheme with
  | http =>
    cases password with
    | none => exact ⟨_, rfl, fun _ => rfl, rfl, rfl⟩
    | some pwd => exact ⟨_, rfl, fun _ => rfl, rfl, rfl⟩
  | https =>
    cases password with
    | none => exact ⟨_, rfl, fun _ => rfl, rfl, rfl⟩
    | some pwd => exact ⟨_, rfl, fun _ => rfl, rfl, rfl⟩
  | socks5 => exact absurd h Bool.noConfusion
  | other name => exact absurd h Bool.noConfusion

theorem parseU16_digits (port : UInt16) : ProxyScheme.parseU16 (digits port) = some port := by
  cases hds : digits port with
  | nil => exact absurd hds Nat.toDigits_ne_nil
  | cons c ds =>
    have hplus : c ≠ '+' := by
      rintro rfl
      exact absurd (@isDigit_digits port _ (hds ▸ mem_cons_self)) (by decide)
    rw [ProxyScheme.parseU16, ← hds, parsePort_digits]
    exact fun ds' heq => hplus (List.cons.inj heq).1

theorem ProxyScheme.Holds.resolves_iff (hholds : proxy.Holds host defaultPort)
    (pair : Text × UInt16) :
    proxy.Resolves pair ↔ ProxyScheme.lookedUp host defaultPort = pair := by
  constructor
  · intro h
    by_contra hne
    -- a lookup that knows no other pair
    have hanswer := h fun asked => if asked = pair then
      some [⟨.name [] fun _ hc => absurd hc not_mem_nil, 0⟩] else none
    rw [hholds.socketAddrs, ProxyScheme.resolveHost, if_neg hne] at hanswer
    simp at hanswer
  · rintro rfl toSocketAddrs
    rw [hholds.socketAddrs, ProxyScheme.resolveHost]
    cases toSocketAddrs (ProxyScheme.lookedUp host defaultPort) with
    | none => rfl
    | some addrs =>
      cases addrs with
      | nil => exact ⟨host, rfl⟩
      | cons addr addrs => rfl

theorem colon_mem_written {name : Host} (hname : name.isIpv6 = false) : ':' ∉ name.written := by
  rw [← Host.text_eq_written hname, name.colon_mem_text_iff, hname]
  exact Bool.noConfusion

theorem colon_mem_hostPort (hipv6 : url.host.isIpv6 = true) : ':' ∈ url.hostPort := by
  obtain ⟨scheme, username, password, urlHost, port⟩ := url
  have hwritten : ':' ∈ urlHost.written := by
    cases urlHost with
    | name text plain => exact absurd hipv6 Bool.noConfusion
    | ipv6 text colon plain => exact mem_cons_of_mem _ (mem_append_left _ colon)
  cases port with
  | none => exact hwritten
  | some port => exact mem_append_left _ hwritten

theorem lookedUp_append {a : Text} (ha : ':' ∉ a) (b : Text) :
    ProxyScheme.lookedUp (a ++ ':' :: b) defaultPort =
      (a, (ProxyScheme.parseU16 b).getD defaultPort) := by
  rw [ProxyScheme.lookedUp, splitOnce_append ha]

theorem lookedUp_of_notMem (hhost : ':' ∉ host) :
    ProxyScheme.lookedUp host defaultPort = (host, defaultPort) := by
  rw [ProxyScheme.lookedUp, splitOnce_of_notMem hhost]

theorem lookedUp_hostPort (hname : url.host.isIpv6 = false) :
    ProxyScheme.lookedUp url.hostPort defaultPort =
      (url.host.written, url.port.getD defaultPort) := by
  have hcolon := colon_mem_written hname
  obtain ⟨scheme, username, password, urlHost, port⟩ := url
  cases port with
  | none => exact lookedUp_of_notMem hcolon
  | some port =>
    rw [ProxyUrl.hostPort, lookedUp_append hcolon, parseU16_digits]

theorem not_names_lookedUp (hipv6 : url.host.isIpv6 = true) :
    ¬Names (ProxyScheme.lookedUp url.hostPort defaultPort).1 url.host := by
  obtain ⟨a, b, heq, ha⟩ := eq_append_cons_of_mem (colon_mem_hostPort hipv6)
  have htext : ':' ∈ url.host.text := url.host.colon_mem_text_iff.mpr hipv6
  have hwritten : ':' ∈ url.host.written := by
    cases hhost : url.host with
    | name text plain => exact absurd (hhost ▸ hipv6) Bool.noConfusion
    | ipv6 text colon plain => exact mem_cons_of_mem _ (mem_append_left _ colon)
  rw [heq, lookedUp_append ha]
  rintro (hnames | hnames)
  · have hfront : a = url.host.text := hnames
    exact ha (hfront ▸ htext)
  · have hfront : a = url.host.written := hnames
    exact ha (hfront ▸ hwritten)

theorem takeWhile_hostPort (hname : url.host.isIpv6 = false) :
    url.hostPort.takeWhile (· ≠ ':') = url.host.written := by
  have hcolon := colon_mem_written hname
  have hall : ∀ c ∈ url.host.written, decide (c ≠ ':') = true := fun c hc =>
    decide_eq_true fun heq => hcolon (heq ▸ hc)
  obtain ⟨scheme, username, password, urlHost, port⟩ := url
  cases port with
  | none => exact takeWhile_eq_self_iff.mpr hall
  | some port =>
    rw [ProxyUrl.hostPort, takeWhile_append_of_pos hall,
      takeWhile_cons_of_neg (by simp), append_nil]

theorem appendDefaultPort_hostPort (hname : url.host.isIpv6 = false) :
    ProxyScheme.appendDefaultPort url.hostPort defaultPort =
      url.host.written ++ ':' :: digits (url.port.getD defaultPort) := by
  have hcolon := colon_mem_written hname
  obtain ⟨scheme, username, password, urlHost, port⟩ := url
  cases port with
  | none => exact if_neg hcolon
  | some port => exact if_pos (mem_append_right _ mem_cons_self)

/-- **A proxy is addressed as its URL says** exactly when its host is no IPv6 address. -/
theorem addressed_url_iff (hholds : proxy.Holds url.hostPort defaultPort) :
    Addressed proxy url.host (url.port.getD defaultPort) ↔ url.host.isIpv6 = false := by
  constructor
  · rintro ⟨⟨t, hnames, hresolves⟩, -, -⟩
    rw [hholds.resolves_iff] at hresolves
    by_contra hipv6
    have hlookedUp : ¬Names (ProxyScheme.lookedUp url.hostPort defaultPort).1 url.host :=
      not_names_lookedUp (eq_true_of_ne_false hipv6)
    apply hlookedUp
    rw [hresolves]
    exact hnames
  · intro hname
    refine ⟨⟨url.host.written, .inr rfl, ?_⟩, ?_, .inr ?_⟩
    · rw [hholds.resolves_iff, lookedUp_hostPort hname]
    · rw [hholds.hostAndPort, appendDefaultPort_hostPort hname, parse_written]
    · rw [hholds.domain, takeWhile_hostPort hname]

end

theorem connectRequest_reads (proxy : ProxyScheme) (target : TargetAddr) :
    requestTarget (proxy.connectRequest target) =
        some (target.host.text ++ ':' :: digits target.port) ∧
      hostHeader (proxy.connectRequest target) =
        some (target.host.text ++ ':' :: digits target.port) := by
  have hpair : target.getDomainAndPort = (target.host.text, target.port) := by
    cases target with
    | ip addr => rfl
    | domain name plain port => rfl
  rw [ProxyScheme.connectRequest, hpair]
  exact ⟨requestTarget_makeRequest _ _ (target.host.notMem_text rfl (by decide)),
    hostHeader_makeRequest _ _ (target.host.notMem_text rfl (by decide))
      (target.host.notMem_text rfl (by decide))⟩

theorem targetAddressed_iff (proxy : ProxyScheme) (target : TargetAddr) :
    TargetAddressed proxy target ↔ target.host.isIpv6 = false := by
  obtain ⟨hconnect, hheader⟩ := connectRequest_reads proxy target
  have hread : Authority.parse (target.host.text ++ ':' :: digits target.port) =
      some (target.host.written, target.port) ↔ target.host.isIpv6 = false := by
    constructor
    · intro h
      by_contra hipv6
      rw [parse_bare (eq_true_of_ne_false hipv6)] at h
      exact absurd h.symm (Option.some_ne_none _)
    · intro hname
      rw [Host.text_eq_written hname, parse_written]
  constructor
  · rintro ⟨h, -⟩
    rw [hconnect] at h
    exact hread.mp h
  · intro hname
    refine ⟨?_, ?_⟩
    · rw [hconnect]
      exact hread.mpr hname
    · rw [hheader]
      exact hread.mpr hname

/-- `http://[::1]:8080`. -/
def ipv6Proxy : ProxyUrl where
  scheme := .http
  username := []
  password := none
  host := .ipv6 [':', ':', '1'] (by decide) (forall_mem_cons.mpr ⟨.inr rfl,
    forall_mem_cons.mpr ⟨.inr rfl, forall_mem_singleton.mpr (.inl rfl)⟩⟩)
  port := some 8080

/-- `http://p:3128`. -/
def namedProxy : ProxyUrl where
  scheme := .http
  username := []
  password := none
  host := .name ['p'] (forall_mem_singleton.mpr rfl)
  port := some 3128

/-- A proxy at an IPv6 address is looked up as `[` at the port of the scheme, and a target at one
is named without its brackets. -/
theorem not_addressed_ipv6 :
    ProxyScheme.lookedUp ipv6Proxy.hostPort 80 = (['['], 80) ∧
      ¬ProxyAddressed (fun _ => .error .ioError) ipv6Proxy ∧
      ¬TargetAddressed (.http none ['p']) (.ip ⟨ipv6Proxy.host, 8080⟩) := by
  have hipv6 : ipv6Proxy.host.isIpv6 ≠ false := Bool.noConfusion
  refine ⟨by decide, ?_, ?_⟩
  · rintro ⟨proxy, heq, haddressed⟩
    have hproxy : .http none ipv6Proxy.hostPort = proxy := Except.ok.inj heq
    subst hproxy
    exact hipv6 ((addressed_url_iff ⟨fun _ => rfl, rfl, rfl⟩).mp haddressed)
  · exact fun h => hipv6 ((targetAddressed_iff _ _).mp h)

/-- **The proxy and the target are addressed as configured** exactly when they are no IPv6
addresses. -/
theorem addressed_iff (toAddr : ProxyUrl → Except ProxyError ProxySocketAddr) {url : ProxyUrl}
    (h : url.isHttp = true) (proxy : ProxyScheme) (target : TargetAddr) :
    (ProxyAddressed toAddr url ↔ url.host.isIpv6 = false) ∧
      (TargetAddressed proxy target ↔ target.host.isIpv6 = false) := by
  refine ⟨?_, targetAddressed_iff proxy target⟩
  obtain ⟨parsed, hparse, hholds⟩ := @parse_of_isHttp toAddr _ h
  rw [← addressed_url_iff hholds, ProxyAddressed, hparse]
  constructor
  · rintro ⟨other, heq, haddressed⟩
    rw [Except.ok.inj heq]
    exact haddressed
  · exact fun haddressed => ⟨parsed, rfl, haddressed⟩

/-- A proxy and a target with names. -/
theorem names_addressed : namedProxy.isHttp = true ∧
    ProxyAddressed (fun _ => .error .ioError) namedProxy ∧
    TargetAddressed (.http none ['p']) (.domain ['t'] (forall_mem_singleton.mpr rfl) 21116) :=
  have h : namedProxy.isHttp = true := rfl
  have hboth := addressed_iff (fun _ => .error .ioError) h (.http none ['p'])
    (.domain ['t'] (forall_mem_singleton.mpr rfl) 21116)
  ⟨h, hboth.1.mpr rfl, hboth.2.mpr rfl⟩

end RustDesk
