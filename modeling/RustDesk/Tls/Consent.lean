import Mathlib.Data.List.TakeWhile
import RustDesk.Lib.Run
import RustDesk.Tls.Fallback

/-!
# Invalid certificates by consent

The caches are shared by all operations, under the text that is cut out of a URL as its host and
port.  That text is what stands behind the last `@` of the whole URL, not of its authority: a
path or a query with an `@` in it gives the key of another server.

**As long as no two URLs with the same key lead to different servers, an attempt accepts invalid
certificates only if the option was on and an attempt with checks to the same server has failed
since the last reset; strict clients always check; no operation makes more than four attempts**
(`accepted_by_consent`).
-/

namespace RustDesk.Tls

open List

variable {τ : Type*} (target : Text → τ)

def FailedChecked (a : Try × Outcome) : Prop := a.1.accepts = false ∧ a.2 ≠ .success

def recent : List Item → List Operation
  | [] => []
  | .reset :: _ => []
  | .operation o :: log => o :: recent log

def FailedSince (server : τ) (log : List Item) : Prop :=
  ∃ o ∈ recent log, target o.url = server ∧ ∃ a ∈ o.attempts, FailedChecked a

/-- **What an operation may do**: accept invalid certificates if it was allowed and an attempt
with checks has failed, earlier or in it; if it is strict, never; and four attempts. -/
structure Operation.Consented (o : Operation) (earlier : Prop) : Prop where
  attempts : ∀ before a after, o.attempts = before ++ a :: after → a.1.accepts = true →
    o.allowed = true ∧ (earlier ∨ ∃ b ∈ before, FailedChecked b)
  client : ∀ t, o.client = some t → t.accepts = true →
    o.allowed = true ∧ (earlier ∨ ∃ b ∈ o.attempts, FailedChecked b)
  strict : o.strict = true →
    (∀ a ∈ o.attempts, a.1.accepts = false) ∧ ∀ t, o.client = some t → t.accepts = false
  length : o.attempts.length ≤ 4

/-- **Invalid certificates were accepted only by consent.** -/
def Consented : List Item → Prop
  | [] => True
  | .reset :: log => Consented log
  | .operation o :: log => o.Consented (FailedSince target (target o.url) log) ∧ Consented log

def Event.tlsUrl : Event → Option Text
  | .createHttpClientWithUrl url proxyConf _ | .createHttpClientWithUrlStrict url proxyConf _ =>
    some (getUrlForTls url proxyConf)
  | .webSocketConnect url _ => some url
  | .httpsProxyConnect host _ => some ("https://".toList ++ appendDefaultPort host "443".toList)
  | .setOption _ | .resetTlsCache => none

/-- Two URLs with one cache key lead to one server. -/
def Apart (s : Caches) (ev : Event) : Prop :=
  ∀ url ∈ ev.tlsUrl, isPlain url = false → ∀ o ∈ recent s.log, isPlain o.url = false →
    getDomainAndPortFromUrl o.url = getDomainAndPortFromUrl url → target o.url = target url

instance decidableApart [DecidableEq τ] (s : Caches) (ev : Event) : Decidable (Apart target s ev) :=
  inferInstanceAs (Decidable (∀ url ∈ ev.tlsUrl, _ → ∀ o ∈ recent s.log, _ → _ → _))

def Try.rank (t : Try) : Nat :=
  match t.tlsType, t.dangerAcceptInvalidCert with
  | .rustls, none => 3
  | .rustls, some _ => 2
  | .nativeTls, none => 1
  | _, _ => 0

/-- What a fallback does: it comes nearer to the last try, and accepts what the cache said, or
what was not accepted if the cache said nothing. -/
structure Fallback (next : Try → Option Try) : Prop where
  lowers : ∀ t t', next t = some t' → t'.rank < t.rank
  keeps : ∀ t t', next t = some t' →
    t'.originalDangerAcceptInvalidCert = t.originalDangerAcceptInvalidCert ∧
    (t'.dangerAcceptInvalidCert = t.originalDangerAcceptInvalidCert ∨
      t.dangerAcceptInvalidCert = none ∧ t'.dangerAcceptInvalidCert = some true)

theorem next_cases {t t' : Try} (h : next t = some t') :
    (t.dangerAcceptInvalidCert = none ∧ (t.tlsType = .rustls ∨ t.tlsType = .nativeTls) ∧
      t' = { t with dangerAcceptInvalidCert := some true }) ∨
    (t.tlsType = .rustls ∧ t.dangerAcceptInvalidCert ≠ none ∧
      t' = { t with
        tlsType := .nativeTls
        dangerAcceptInvalidCert := t.originalDangerAcceptInvalidCert }) := by
  obtain ⟨tlsType, cached, danger, original⟩ := t
  unfold next at h
  dsimp only at h ⊢
  split at h
  · exact .inl ⟨rfl, .inl rfl, (Option.some.inj h).symm⟩
  · exact .inr ⟨rfl, nofun, (Option.some.inj h).symm⟩
  · exact .inl ⟨rfl, .inr rfl, (Option.some.inj h).symm⟩
  · cases h

theorem nextProxy_cases {t t' : Try} (h : nextProxy t = some t') : next t = some t' := by
  obtain ⟨tlsType, cached, danger, original⟩ := t
  cases tlsType with
  | plain | nativeTls => cases h
  | rustls =>
    cases danger with
    | none => exact h
    | some b => cases cached <;> exact h

theorem fallback_next : Fallback next where
  lowers t t' h := by
    obtain ⟨tlsType, cached, danger, original⟩ := t
    rcases next_cases h with ⟨rfl, (rfl | rfl), rfl⟩ | ⟨rfl, hsome, rfl⟩
    · exact Nat.lt_succ_self 2
    · exact Nat.lt_succ_self 0
    · obtain ⟨b, rfl⟩ := Option.ne_none_iff_exists'.mp hsome
      cases original with
      | none => exact Nat.lt_succ_self 1
      | some b' => exact Nat.zero_lt_succ 1
  keeps t t' h := by
    rcases next_cases h with ⟨hnone, -, rfl⟩ | ⟨-, -, rfl⟩
    · exact ⟨rfl, .inr ⟨hnone, rfl⟩⟩
    · exact ⟨rfl, .inl rfl⟩

theorem fallback_nextProxy : Fallback nextProxy where
  lowers t t' h := fallback_next.lowers t t' (nextProxy_cases h)
  keeps t t' h := fallback_next.keeps t t' (nextProxy_cases h)

def Try.Sane (t : Try) (failed : Prop) : Prop :=
  t.dangerAcceptInvalidCert = t.originalDangerAcceptInvalidCert ∨
    t.dangerAcceptInvalidCert = some true ∧ t.originalDangerAcceptInvalidCert = none ∧ failed

/-- A try that accepts has a reason: the cache said so, or said nothing and an attempt with checks
has failed, among these or before. -/
def Try.Warranted (t : Try) (failed : Prop) (before : List (Try × Outcome)) : Prop :=
  t.originalDangerAcceptInvalidCert = some true ∨
    t.originalDangerAcceptInvalidCert = none ∧ (failed ∨ ∃ b ∈ before, FailedChecked b)

theorem Try.Sane.warranted {t : Try} {failed : Prop} (h : t.Sane failed)
    (haccepts : t.accepts = true) (before : List (Try × Outcome)) : t.Warranted failed before := by
  rcases h with hsame | ⟨-, hnone, hfailed⟩
  · left
    unfold Try.accepts at haccepts
    rw [hsame] at haccepts
    exact (Option.getD_eq_iff.mp haccepts).resolve_right fun hdefault => nomatch hdefault.2
  · exact .inr ⟨hnone, .inl hfailed⟩

theorem Try.Warranted.cons {t t' : Try} {failed : Prop} {a : Try × Outcome}
    {before : List (Try × Outcome)} (h : t'.Warranted (failed ∨ FailedChecked a) before)
    (hsame : t'.originalDangerAcceptInvalidCert = t.originalDangerAcceptInvalidCert) :
    t.Warranted failed (a :: before) := by
  unfold Try.Warranted at h
  rw [hsame] at h
  refine h.imp id fun ⟨hunknown, hfailed⟩ => ⟨hunknown, ?_⟩
  rcases hfailed with (hfailed | hself) | ⟨b, hb, hfailed⟩
  · exact .inl hfailed
  · exact .inr ⟨a, mem_cons_self, hself⟩
  · exact .inr ⟨b, mem_cons_of_mem a hb, hfailed⟩

section Attempts

variable {known : Try → Bool} {next : Try → Option Try}

theorem Fallback.sane (hnext : Fallback next) {t t' : Try} {failed : Prop} (h : t.Sane failed)
    (ht' : next t = some t') :
    t'.Sane (failed ∨ FailedChecked (t, .error)) ∧
      t'.originalDangerAcceptInvalidCert = t.originalDangerAcceptInvalidCert := by
  obtain ⟨horiginal, hdanger⟩ := hnext.keeps t t' ht'
  refine ⟨?_, horiginal⟩
  rcases hdanger with hsame | ⟨hnone, hsome⟩
  · exact .inl (hsame.trans horiginal.symm)
  · have hunknown : t.originalDangerAcceptInvalidCert = none := by
      rcases h with hsame | ⟨htrue, -⟩
      · exact hsame.symm.trans hnone
      · exact absurd (hnone.symm.trans htrue) nofun
    have hchecked : t.accepts = false := by
      unfold Try.accepts
      rw [hnone]
      rfl
    exact .inr ⟨hsome, horiginal.trans hunknown, .inr ⟨hchecked, nofun⟩⟩

theorem tryConnect_cons (known : Try → Bool) (next : Try → Option Try) (o : Outcome)
    (os : List Outcome) (t : Try) :
    tryConnect known next (o :: os) t = ⟨[], t⟩ ∨
    tryConnect known next (o :: os) t = ⟨[(t, o)], t⟩ ∨
    ∃ t', o = .error ∧ next t = some t' ∧ tryConnect known next (o :: os) t =
      ⟨(t, .error) :: (tryConnect known next os t').attempts,
        (tryConnect known next os t').last⟩ := by
  cases hknown : known t with
  | true => exact .inl (by simp [tryConnect, hknown])
  | false =>
    cases hnext : next t with
    | none => exact .inr (.inl (by cases o <;> simp [tryConnect, hknown, hnext]))
    | some t' =>
      cases o with
      | error => exact .inr (.inr ⟨t', rfl, rfl, by simp [tryConnect, hknown, hnext]⟩)
      | success | abort => exact .inr (.inl (by simp [tryConnect, hknown]))

/-- **An attempt accepts invalid certificates** only if the cache said so, or said nothing and an
attempt with checks has failed before; so does the last try. -/
theorem accepts_tryConnect (hnext : Fallback next) (os : List Outcome) :
    ∀ (t : Try) (failed : Prop), t.Sane failed →
      (∀ before a after, (tryConnect known next os t).attempts = before ++ a :: after →
        a.1.accepts = true → t.Warranted failed before) ∧
      ((tryConnect known next os t).last.accepts = true →
        t.Warranted failed (tryConnect known next os t).attempts) := by
  induction os with
  | nil =>
    intro t failed hsane
    exact ⟨fun before a after hsplit => absurd hsplit.symm
      (append_ne_nil_of_right_ne_nil _ (cons_ne_nil _ _)),
      fun haccepts => hsane.warranted haccepts _⟩
  | cons o os ih =>
    intro t failed hsane
    rcases tryConnect_cons known next o os t with
      hnone | hone | ⟨t', rfl, ht', hmore⟩
    · rw [hnone]
      exact ⟨fun before a after hsplit => absurd hsplit.symm
        (append_ne_nil_of_right_ne_nil _ (cons_ne_nil _ _)),
        fun haccepts => hsane.warranted haccepts _⟩
    · rw [hone]
      refine ⟨fun before a after hsplit haccepts => ?_, fun haccepts => hsane.warranted haccepts _⟩
      have hlist : [(t, o)] = before ++ a :: after := hsplit
      have hmem : a ∈ [(t, o)] := by
        rw [hlist]
        exact mem_append_right _ mem_cons_self
      rw [mem_singleton.mp hmem] at haccepts
      exact hsane.warranted haccepts before
    · obtain ⟨hsane', hsame⟩ := hnext.sane hsane ht'
      obtain ⟨hattempts, hlast⟩ := ih t' _ hsane'
      rw [hmore]
      refine ⟨fun before a after hsplit haccepts => ?_, fun haccepts => (hlast haccepts).cons hsame⟩
      cases before with
      | nil =>
        obtain ⟨rfl, -⟩ := List.cons.inj hsplit
        exact hsane.warranted haccepts []
      | cons b before =>
        obtain ⟨rfl, hrest⟩ := List.cons.inj hsplit
        exact (hattempts before a after hrest haccepts).cons hsame

theorem length_tryConnect (hnext : Fallback next) (os : List Outcome) :
    ∀ t, (tryConnect known next os t).attempts.length ≤ t.rank + 1 := by
  induction os with
  | nil => exact fun t => Nat.zero_le _
  | cons o os ih =>
    intro t
    rcases tryConnect_cons known next o os t with
      hnone | hone | ⟨t', -, ht', hmore⟩
    · rw [hnone]
      exact Nat.zero_le _
    · rw [hone]
      exact Nat.le_add_left 1 _
    · rw [hmore]
      have hrest := ih t'
      have hlower := hnext.lowers t t' ht'
      simp only [length_cons]
      omega

end Attempts

theorem Try.rank_le (t : Try) : t.rank ≤ 3 := by
  unfold Try.rank
  split <;> decide

variable {target} in
theorem FailedSince.cons {server : τ} {log : List Item} (h : FailedSince target server log)
    (o : Operation) : FailedSince target server (.operation o :: log) := by
  obtain ⟨o', ho', hserver⟩ := h
  exact ⟨o', mem_cons_of_mem o ho', hserver⟩

namespace Caches

/-- **The invariant**: what a cache entry accepts, an attempt with checks has failed for, to the
server of a URL with that key. -/
structure Sound (s : Caches) : Prop where
  consented : Consented target s.log
  cached : ∀ key, s.urlTlsDangerAcceptInvalidCerts key = some true →
    ∃ o ∈ recent s.log, isPlain o.url = false ∧ getDomainAndPortFromUrl o.url = key ∧
      FailedSince target (target o.url) s.log

variable {target} {s : Caches}

theorem upsertTlsCache_eq_some {url key : Text} {tlsType : TlsType} {accepts : Bool}
    (h : (s.upsertTlsCache url tlsType accepts).urlTlsDangerAcceptInvalidCerts key = some true) :
    s.urlTlsDangerAcceptInvalidCerts key = some true ∨
      (isPlain url = false ∧ getDomainAndPortFromUrl url = key ∧ accepts = true) := by
  unfold upsertTlsCache at h
  split at h
  case isTrue => exact .inl h
  case isFalse hplain =>
    by_cases hkey : key = getDomainAndPortFromUrl url
    · subst hkey
      simp only [Function.update_self, Option.some.injEq] at h
      exact .inr ⟨Bool.eq_false_iff.mpr hplain, rfl, h⟩
    · simp only [Function.update_of_ne hkey] at h
      exact .inl h

theorem Sound.record (h : s.Sound target) {o : Operation}
    (ho : o.Consented (FailedSince target (target o.url) s.log)) : (s.record o).Sound target := by
  have hold : ∀ key, s.urlTlsDangerAcceptInvalidCerts key = some true →
      ∃ o' ∈ recent (.operation o :: s.log), isPlain o'.url = false ∧
        getDomainAndPortFromUrl o'.url = key ∧
        FailedSince target (target o'.url) (.operation o :: s.log) := by
    intro key hkey
    obtain ⟨o', ho', hplain, hsame, hfailed⟩ := h.cached key hkey
    exact ⟨o', mem_cons_of_mem o ho', hplain, hsame, hfailed.cons o⟩
  unfold Caches.record
  split
  case h_1 t hlast =>
    refine ⟨?_, fun key hkey => ?_⟩
    · exact ⟨ho, h.consented⟩
    · rcases upsertTlsCache_eq_some hkey with hbefore | ⟨hplain, rfl, haccepts⟩
      · exact hold key hbefore
      · obtain ⟨before, hsplit⟩ := List.getLast?_eq_some_iff.mp hlast
        obtain ⟨-, hfailed⟩ := ho.attempts before (t, .success) [] hsplit haccepts
        refine ⟨o, mem_cons_self, hplain, rfl, ?_⟩
        rcases hfailed with hearlier | ⟨b, hb, hchecked⟩
        · exact hearlier.cons o
        · have hmem : b ∈ o.attempts := by
            rw [hsplit]
            exact mem_append_left _ hb
          exact ⟨o, mem_cons_self, rfl, b, hmem, hchecked⟩
  case h_2 => exact ⟨⟨ho, h.consented⟩, hold⟩

theorem Sound.accept (h : s.Sound target) {url : Text}
    (hapart : isPlain url = false → ∀ o ∈ recent s.log, isPlain o.url = false →
      getDomainAndPortFromUrl o.url = getDomainAndPortFromUrl url → target o.url = target url)
    {failed : Prop}
    (haccept : s.getCachedTlsAcceptInvalidCert url = some true ∨
      s.getCachedTlsAcceptInvalidCert url = none ∧ (False ∨ failed)) :
    s.allowInsecureTlsFallback = true ∧ (FailedSince target (target url) s.log ∨ failed) := by
  unfold getCachedTlsAcceptInvalidCert at haccept
  split at haccept
  case isTrue =>
    rcases haccept with htrue | ⟨hnone, -⟩
    · cases htrue
    · cases hnone
  case isFalse hallow =>
    refine ⟨by simpa using hallow, ?_⟩
    split at haccept
    case isTrue =>
      rcases haccept with htrue | ⟨hnone, -⟩
      · cases htrue
      · cases hnone
    case isFalse hplain =>
      rcases haccept with htrue | ⟨-, hfailed⟩
      · obtain ⟨o, ho, hplain', hkey, hfailed⟩ := h.cached _ htrue
        rw [hapart (Bool.eq_false_iff.mpr hplain) o ho hplain' hkey] at hfailed
        exact .inl hfailed
      · exact .inr (hfailed.resolve_left id)

theorem Sound.consented_firstTry (h : s.Sound target) {url : Text}
    (hapart : isPlain url = false → ∀ o ∈ recent s.log, isPlain o.url = false →
      getDomainAndPortFromUrl o.url = getDomainAndPortFromUrl url → target o.url = target url)
    {known : Try → Bool} {next : Try → Option Try} (hnext : Fallback next)
    (outcomes : List Outcome) (client : Option Try)
    (hclient : ∀ t ∈ client, t = (tryConnect known next outcomes (s.firstTry url)).last) :
    Operation.Consented ⟨false, url, s.allowInsecureTlsFallback,
      (tryConnect known next outcomes (s.firstTry url)).attempts, client⟩
      (FailedSince target (target url) s.log) where
  attempts before a after hsplit haccepts :=
    h.accept hapart ((accepts_tryConnect hnext outcomes _ False (.inl rfl)).1 before a after
      hsplit haccepts)
  client t ht haccepts := by
    rw [hclient t ht] at haccepts
    exact h.accept hapart ((accepts_tryConnect hnext outcomes _ False (.inl rfl)).2 haccepts)
  strict hstrict := nomatch hstrict
  length := Nat.le_trans (length_tryConnect hnext outcomes _) (Nat.succ_le_succ (Try.rank_le _))

theorem consented_firstTryStrict (url : Text) (outcomes : List Outcome) (earlier : Prop) :
    Operation.Consented ⟨true, url, s.allowInsecureTlsFallback,
      (tryConnect Caches.known next outcomes (s.firstTryStrict url)).attempts,
      some (tryConnect Caches.known next outcomes (s.firstTryStrict url)).last⟩ earlier := by
  have hattempts : ∀ before a after,
      (tryConnect Caches.known next outcomes (s.firstTryStrict url)).attempts =
        before ++ a :: after → a.1.accepts = false := by
    intro before a after hsplit
    by_contra haccepts
    rcases (accepts_tryConnect fallback_next outcomes _ False (.inl rfl)).1 before a after hsplit
      (Bool.not_eq_false _ ▸ haccepts) with htrue | ⟨hnone, -⟩
    · cases htrue
    · cases hnone
  have hlast : (tryConnect Caches.known next outcomes (s.firstTryStrict url)).last.accepts =
      false := by
    by_contra haccepts
    rcases (accepts_tryConnect fallback_next outcomes _ False (.inl rfl)).2
      (Bool.not_eq_false _ ▸ haccepts) with htrue | ⟨hnone, -⟩
    · cases htrue
    · cases hnone
  refine ⟨fun before a after hsplit haccepts => ?_, fun t ht haccepts => ?_, fun _ => ⟨?_, ?_⟩,
    Nat.le_trans (length_tryConnect fallback_next outcomes _) (Nat.succ_le_succ (Try.rank_le _))⟩
  · exact absurd haccepts (by rw [hattempts before a after hsplit]; decide)
  · cases ht
    exact absurd haccepts (by rw [hlast]; decide)
  · intro a ha
    obtain ⟨before, after, hsplit⟩ := mem_iff_append.mp ha
    exact hattempts before a after hsplit
  · intro t ht
    cases ht
    exact hlast

variable (parsedScheme : Text → Option Text)

theorem Sound.step (h : s.Sound target) (ev : Event) (hapart : Apart target s ev) :
    (s.step parsedScheme ev).Sound target := by
  cases ev with
  | createHttpClientWithUrl url proxyConf outcomes =>
    exact h.record (h.consented_firstTry (hapart _ rfl) fallback_next outcomes (some _)
      fun t ht => (Option.some.inj ht).symm)
  | createHttpClientWithUrlStrict url proxyConf outcomes =>
    unfold Caches.step
    dsimp only
    split
    · exact h.record (consented_firstTryStrict _ outcomes _)
    · exact h
  | webSocketConnect url outcomes =>
    exact h.record (h.consented_firstTry (hapart _ rfl) fallback_next outcomes none nofun)
  | httpsProxyConnect host outcomes =>
    unfold Caches.step
    dsimp only
    refine h.record ?_
    split
    · exact ⟨fun before a after hsplit => absurd hsplit.symm
        (append_ne_nil_of_right_ne_nil _ (cons_ne_nil _ _)), nofun, nofun,
        Nat.zero_le 4⟩
    all_goals exact h.consented_firstTry (hapart _ rfl) fallback_nextProxy outcomes none nofun
  | setOption allow => exact ⟨h.consented, h.cached⟩
  | resetTlsCache => exact ⟨h.consented, nofun⟩

/-- **Invalid certificates are accepted only by consent**, in every run in which URLs with the
same key lead to the same server. -/
theorem accepted_by_consent (allow : Bool) (events : List Event)
    (hapart : Run.Along (step · parsedScheme) (Apart target) (init allow) events) :
    Run.Always (step · parsedScheme) (fun s => Consented target s.log) (init allow) events := by
  have hinit : (init allow).Sound target := ⟨trivial, nofun⟩
  have hsound : Run.Always (step · parsedScheme) (Sound target) (init allow) events :=
    Run.always_of_along (fun s ev hs hev => hs.step parsedScheme ev hev) hinit hapart
  exact fun pre hpre => (hsound pre hpre).consented

end Caches

def inAuthority (c : Char) : Bool := c ≠ '/' && c ≠ '?' && c ≠ '#' && c ≠ '\\'

def authority (url : Text) : Text := ((afterScheme url).getD url).takeWhile inAuthority

def afterAuthority (url : Text) : Text := ((afterScheme url).getD url).dropWhile inAuthority

def hostPort (url : Text) : Text := afterLastAt (authority url)

/-- Such a character ends no host and is not skipped. -/
def isHostChar (c : Char) : Bool :=
  c.isAlphanum || c = '.' || c = '-' || c = ':' || c = '[' || c = ']'

/-- A URL with its scheme in small letters and a host, and without an `@` behind its authority. -/
def Ordinary (url : Text) : Prop :=
  (∃ scheme ∈ ["http://", "https://", "ws://", "wss://"], scheme.toList <+: url) ∧
    hostPort url ≠ [] ∧ (hostPort url).all isHostChar = true ∧ '@' ∉ afterAuthority url

instance (url : Text) : Decidable (Ordinary url) := inferInstanceAs (Decidable (_ ∧ _))

/-- **How URL libraries read an ordinary TLS URL**: its host and port say where it leads. -/
def ReadsHosts (target : Text → τ) : Prop :=
  ∀ url url', Ordinary url → Ordinary url' → isPlain url = false → isPlain url' = false →
    hostPort url = hostPort url' → target url = target url'

/-- Where the URLs of the runs below lead. -/
def serverOf (url : Text) : Text :=
  appendDefaultPort (hostPort url) (if isPlain url then "80".toList else "443".toList)

theorem serverOf_reads : ReadsHosts serverOf := by
  intro url url' _ _ hplain hplain' hhost
  rw [serverOf, serverOf, hplain, hplain', hhost]

theorem afterLastAt_append {url rest : Text} (h : '@' ∉ rest) :
    afterLastAt (url ++ rest) = afterLastAt url ++ rest := by
  have hall : ∀ c ∈ rest.reverse, decide (c ≠ '@') = true := by
    intro c hc
    have hmem : c ∈ rest := mem_reverse.mp hc
    exact decide_eq_true fun heq => h (heq ▸ hmem)
  unfold afterLastAt
  rw [reverse_append, takeWhile_append_of_pos hall, reverse_append, reverse_reverse]

theorem mem_afterLastAt {url : Text} {c : Char} (h : c ∈ afterLastAt url) : c ∈ url :=
  mem_reverse.mp ((takeWhile_sublist _).subset (mem_reverse.mp h))

theorem takeWhile_afterAuthority (url : Text) :
    (afterAuthority url).takeWhile inAuthority = [] := by
  have hhead := List.head?_dropWhile_not inAuthority ((afterScheme url).getD url)
  unfold afterAuthority
  cases hrest : ((afterScheme url).getD url).dropWhile inAuthority with
  | nil => rfl
  | cons c cs =>
    rw [hrest] at hhead
    exact takeWhile_cons_of_neg (by simpa using hhead)

theorem takeWhile_key {url : Text} (h : Ordinary url) :
    (getDomainAndPortFromUrl url).takeWhile inAuthority = hostPort url := by
  have hsplit : (afterScheme url).getD url = authority url ++ afterAuthority url :=
    takeWhile_append_dropWhile.symm
  have hauthority : ∀ c ∈ afterLastAt (authority url), inAuthority c = true :=
    fun c hc => mem_takeWhile_imp (mem_afterLastAt hc)
  have hweaker : (fun c => inAuthority c && (c ≠ '/' && c ≠ '?')) = inAuthority := by
    funext c
    unfold inAuthority
    cases hslash : decide (c ≠ '/') <;> cases hmark : decide (c ≠ '?') <;> simp
  calc (getDomainAndPortFromUrl url).takeWhile inAuthority
      = (afterLastAt (authority url) ++ afterAuthority url).takeWhile inAuthority := by
        unfold getDomainAndPortFromUrl
        rw [hsplit]
        dsimp only
        rw [afterLastAt_append h.2.2.2, takeWhile_takeWhile]
        simp only [Bool.decide_and, Bool.decide_eq_true, hweaker]
    _ = afterLastAt (authority url) ++ (afterAuthority url).takeWhile inAuthority :=
        takeWhile_append_of_pos hauthority
    _ = afterLastAt (authority url) := by rw [takeWhile_afterAuthority, append_nil]

namespace Caches

variable {target} (hreads : ReadsHosts target) (parsedScheme : Text → Option Text)

theorem recent_step (s : Caches) (ev : Event) (o : Operation)
    (ho : o ∈ recent (s.step parsedScheme ev).log) : o ∈ recent s.log ∨ some o.url = ev.tlsUrl := by
  have hrecord : ∀ o', o ∈ recent (s.record o').log → o ∈ recent s.log ∨ o = o' := by
    intro o' hmem
    exact (mem_cons.mp hmem).symm
  cases ev with
  | createHttpClientWithUrl url proxyConf outcomes =>
    exact (hrecord _ ho).imp id fun heq => by rw [heq]; rfl
  | createHttpClientWithUrlStrict url proxyConf outcomes =>
    unfold step at ho
    dsimp only at ho
    split at ho
    · exact (hrecord _ ho).imp id fun heq => by rw [heq]; rfl
    · exact .inl ho
  | webSocketConnect url outcomes =>
    exact (hrecord _ ho).imp id fun heq => by rw [heq]; rfl
  | httpsProxyConnect host outcomes =>
    exact (hrecord _ ho).imp id fun heq => by rw [heq]; rfl
  | setOption allow => exact .inl ho
  | resetTlsCache => cases ho

include hreads

theorem apart_of_ordinary (allow : Bool) (events : List Event)
    (hordinary : Run.Along (step · parsedScheme) (fun _ ev => ∀ url ∈ ev.tlsUrl, Ordinary url)
      (init allow) events) :
    Run.Along (step · parsedScheme) (Apart target) (init allow) events := by
  refine Run.Along.of_invariant (P := fun s => ∀ o ∈ recent s.log, Ordinary o.url)
    (fun s ev hs hev o ho => ?_) (fun s ev hs hev url hurl hplain o ho hplain' hkey => ?_)
    (fun o ho => absurd ho not_mem_nil) hordinary
  · rcases recent_step parsedScheme s ev o ho with hold | hnew
    · exact hs o hold
    · exact hev o.url hnew.symm
  · refine hreads _ _ (hs o ho) (hev url hurl) hplain' hplain ?_
    rw [← takeWhile_key (hs o ho), ← takeWhile_key (hev url hurl), hkey]

/-- **With ordinary URLs** an invalid certificate is accepted only by consent, of the server that
shows it, as long as URL libraries read them as they say. -/
theorem consented_of_ordinary (allow : Bool) (events : List Event)
    (hordinary : Run.Along (step · parsedScheme) (fun _ ev => ∀ url ∈ ev.tlsUrl, Ordinary url)
      (init allow) events) :
    Run.Always (step · parsedScheme) (fun s => Consented target s.log) (init allow) events := by
  have hapart := apart_of_ordinary hreads parsedScheme allow events hordinary
  have hsound : Run.Always (step · parsedScheme) (Sound target) (init allow) events :=
    Run.always_of_along (fun s ev hs hev => hs.step parsedScheme ev hev) ⟨trivial, nofun⟩ hapart
  exact fun pre hpre => (hsound pre hpre).consented

omit hreads

def schemeOf (url : Text) : Option Text :=
  (afterScheme url).map fun rest => url.take (url.length - rest.length - 3)

def ordinaryRun : List Event :=
  [.createHttpClientWithUrl "https://user:pw@self.example/api".toList none [.error, .success],
    .webSocketConnect "wss://self.example/ws?id=1".toList [.success],
    .createHttpClientWithUrlStrict "https://self.example/api".toList none [.error, .error, .error],
    .resetTlsCache,
    .createHttpClientWithUrl "http://plain.example/".toList (some "https://proxy.example".toList)
      [.error, .error, .error, .error],
    .httpsProxyConnect "proxy.example".toList [.error, .error, .success],
    .setOption false,
    .webSocketConnect "wss://self.example/ws".toList [.error, .error, .error]]

theorem accepted_by_consent_ordinary :
    Run.Always (step · schemeOf) (fun s => Consented serverOf s.log) (init true) ordinaryRun :=
  accepted_by_consent schemeOf true ordinaryRun (by decide +kernel)

theorem consented_of_ordinary_run :
    Run.Always (step · schemeOf) (fun s => Consented serverOf s.log) (init true) ordinaryRun :=
  consented_of_ordinary serverOf_reads schemeOf true ordinaryRun (by decide +kernel)

def craftedRun : List Event :=
  [.createHttpClientWithUrl "https://evil.example/@good.example".toList none [.error, .success],
    .webSocketConnect "wss://good.example/".toList [.success]]

/-- **A server's certificate is not checked** because another server's was not valid: the key of
its URL is cut out of the path. -/
theorem accepted_for_another_server :
    ¬ Run.Always (step · schemeOf) (fun s => Consented serverOf s.log) (init true) craftedRun := by
  intro h
  have hlog : (Run.exec (step · schemeOf) (init true) craftedRun).log =
      .operation ⟨false, "wss://good.example/".toList, true,
        [(⟨.rustls, true, some true, some true⟩, .success)], none⟩ ::
        (Run.exec (step · schemeOf) (init true) (craftedRun.take 1)).log := by decide +kernel
  have hservers : ∀ o ∈ recent (Run.exec (step · schemeOf) (init true) (craftedRun.take 1)).log,
      serverOf o.url = "evil.example:443".toList := by decide +kernel
  have hconsented := h.last
  rw [hlog] at hconsented
  obtain ⟨-, ⟨o, ho, hserver, -⟩ | ⟨b, hb, -⟩⟩ := hconsented.1.attempts [] _ [] rfl rfl
  · rw [hservers o ho] at hserver
    exact absurd hserver (by decide +kernel)
  · cases hb

end Caches
end RustDesk.Tls
