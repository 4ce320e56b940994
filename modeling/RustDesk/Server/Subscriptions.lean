import RustDesk.Server.Confinement
import RustDesk.Server.Service

/-!
# Services before authorization

The server holds the services.  A connection acts on it through the effects in its log:
it subscribes, it is added with all services but some, it captures displays.  Other
connections and the threads of the services act on the server at the same time.

`unheard_before_authorization`: as long as the peer is not let in, its connection is
subscribed to nothing, exactly if the user does not switch on the keyboard or the
clipboard for it in the meantime.
-/

namespace RustDesk

open List

structure ServiceTmpl (M : Type) where
  inner : ServiceInner M
  apart : inner.Apart

/-- `need_snapshot` of each service. -/
def Service.needSnapshot : Service → Bool
  | .audio | .cursor | .video _ _ => true
  | .clipboard | .fileClipboard | .cursorPos | .windowFocus => false

/-- `is_video_service_name`. -/
def Service.isVideo : Service → Bool
  | .video _ _ => true
  | _ => false

def Effect.takesUp : Effect → Bool
  | .subscribe _ on => on
  | .addConnection _ | .addCameraConnection => true
  | .captureDisplays _ _ include' _ => include'
  | _ => false

/-- It changes the server otherwise than by `subscribe`. -/
def Effect.rebuilds : Effect → Bool
  | .addConnection _ | .addCameraConnection | .addVideoService _ _ | .captureDisplays _ _ _ _ => true
  | _ => false

/-- What a call of `subscribe` says about a service. -/
def Effect.decides (name : Service) : Effect → Option Bool
  | .subscribe n on => if n = name then some on else none
  | _ => none

def decision (name : Service) : List Effect → Option Bool
  | [] => none
  | e :: effects => decision name effects <|> e.decides name

theorem decision_append (name : Service) (xs ys : List Effect) :
    decision name (xs ++ ys) = (decision name ys <|> decision name xs) := by
  induction xs with
  | nil => simp [decision]
  | cons x xs ih => simp only [cons_append, decision, ih, Option.orElse_eq_orElse,
      Option.orElse_eq_or, Option.or_assoc]

namespace ServiceTmpl

variable {M : Type}

def new (needSnapshot : Bool) : ServiceTmpl M := ⟨.new needSnapshot, ⟨fun _ _ => rfl, fun _ => rfl⟩⟩

def isSubed (s : ServiceTmpl M) (id : Int) : Bool := s.inner.isSubed id

def onSubscribe (s : ServiceTmpl M) (id : Int) : ServiceTmpl M :=
  ⟨s.inner.onSubscribe id, s.apart.onSubscribe id⟩

def onUnsubscribe (s : ServiceTmpl M) (id : Int) : ServiceTmpl M :=
  ⟨s.inner.onUnsubscribe id, s.apart.onUnsubscribe id⟩

inductive Publication (M : Type) where
  | shared (m : M)
  | snapshot (call : Nat) (m : M)
  | swap (call : Nat) (sent : List M)

def publish (s : ServiceTmpl M) : Publication M → ServiceTmpl M
  | .shared m => ⟨s.inner.sendShared m, s.apart.sendShared m⟩
  | .snapshot call m => ⟨s.inner.sendNewSubscribes call m, s.apart.sendNewSubscribes call m⟩
  | .swap call sent => ⟨s.inner.swapNewSubscribes call sent, .swapNewSubscribes call sent⟩

def reached (s : ServiceTmpl M) : Publication M → List Int
  | .shared _ => s.inner.subscribes.map Subscriber.id
  | .snapshot _ _ => s.inner.newSubscribes.map Subscriber.id
  | .swap _ _ => []

/-- The service's part of `Server::subscribe`. -/
def subscribe (s : ServiceTmpl M) (id : Int) (sub : Bool) : ServiceTmpl M :=
  if s.isSubed id = sub then s
  else if sub then s.onSubscribe id
  else s.onUnsubscribe id

variable {s : ServiceTmpl M} {id other : Int}

@[simp] theorem isSubed_new {b : Bool} : (new b : ServiceTmpl M).isSubed id = false := rfl

theorem isSubed_onSubscribe :
    (s.onSubscribe other).isSubed id = (decide (other = id) || s.isSubed id) := by
  rw [Bool.eq_iff_iff, Bool.or_eq_true, decide_eq_true_eq]
  exact ServiceInner.isSubed_onSubscribe

theorem isSubed_onUnsubscribe :
    (s.onUnsubscribe other).isSubed id = (decide (id ≠ other) && s.isSubed id) := by
  rw [Bool.eq_iff_iff, Bool.and_eq_true, decide_eq_true_eq]
  exact ServiceInner.isSubed_onUnsubscribe s.apart

theorem isSubed_subscribe {sub : Bool} :
    (s.subscribe other sub).isSubed id = if id = other then sub else s.isSubed id := by
  unfold subscribe
  by_cases hid : id = other
  · subst hid
    rw [if_pos rfl]
    cases sub <;> cases hsub : s.isSubed id <;>
      simp [hsub, isSubed_onSubscribe, isSubed_onUnsubscribe]
  · rw [if_neg hid]
    split
    · rfl
    · split
      · simp [isSubed_onSubscribe, Ne.symm hid]
      · simp [isSubed_onUnsubscribe, hid]

theorem isSubed_publish (a : Publication M) : (s.publish a).isSubed id = s.isSubed id := by
  cases a with
  | shared m => simp [publish, isSubed, ServiceInner.isSubed, ServiceInner.sendShared]
  | snapshot call m => simp [publish, isSubed, ServiceInner.isSubed, ServiceInner.sendNewSubscribes]
  | swap call sent =>
    rw [Bool.eq_iff_iff]
    have hswap : ServiceInner.has id (s.inner.swapNewSubscribes call sent).subscribes = true
        ↔ s.inner.isSubed id = true := ServiceInner.has_swap
    simpa [publish, isSubed, ServiceInner.isSubed, ServiceInner.swapNewSubscribes,
      ServiceInner.has] using hswap

theorem not_mem_reached (h : s.isSubed id = false) (a : Publication M) : id ∉ s.reached a := by
  obtain ⟨hsubscribes, hwaiting⟩ := Bool.or_eq_false_iff.mp h
  cases a with
  | shared => simpa [reached, ServiceInner.has] using hsubscribes
  | snapshot => simpa [reached, ServiceInner.has] using hwaiting
  | swap => exact not_mem_nil

end ServiceTmpl

/-- `Server`, as far as services are concerned. -/
structure Server (M : Type) where
  services : List (Service × ServiceTmpl M)
  primaryDisplayIdx : Nat
  primaryCameraExists : Bool

namespace Server

variable {M : Type}

def contains (srv : Server M) (name : Service) : Bool := srv.services.any fun x => x.1 = name

def isSubed (srv : Server M) (name : Service) (id : Int) : Bool :=
  srv.services.any fun x => x.1 = name && x.2.isSubed id

def reached (srv : Server M) (name : Service) (a : ServiceTmpl.Publication M) : List Int :=
  srv.services.flatMap fun x => if x.1 = name then x.2.reached a else []

def modify (srv : Server M) (f : Service → ServiceTmpl M → ServiceTmpl M) : Server M :=
  { srv with services := srv.services.map fun x => (x.1, f x.1 x.2) }

/-- `add_service`, if it is not there yet. -/
def tryAddService (srv : Server M) (name : Service) : Server M :=
  if srv.contains name then srv
  else { srv with services := srv.services ++ [(name, .new name.needSnapshot)] }

def subscribe (srv : Server M) (name : Service) (id : Int) (sub : Bool) : Server M :=
  srv.modify fun n s => if n = name then s.subscribe id sub else s

def tryAddPrimayVideoService (srv : Server M) : Server M :=
  srv.tryAddService (.video .monitor srv.primaryDisplayIdx)

def tryAddPrimaryCameraService (srv : Server M) : Server M :=
  if srv.primaryCameraExists then srv.tryAddService (.video .camera 0) else srv

def addConnection (srv : Server M) (id : Int) (noperms : List Service) : Server M :=
  srv.modify fun n s =>
    if n.isVideo && n ≠ .video .monitor srv.primaryDisplayIdx then s
    else if noperms.contains n then s
    else s.onSubscribe id

def addCameraConnection (srv : Server M) (id : Int) : Server M :=
  if srv.primaryCameraExists then
    srv.modify fun n s => if n = .video .camera 0 then s.onSubscribe id else s
  else srv

def captureDisplays (srv : Server M) (id : Int) (source : VideoSource) (displays : List Nat)
    (include' exclude : Bool) : Server M :=
  srv.modify fun n s =>
    if n.isVideo then
      if (displays.map (Service.video source)).contains n then
        if include' then s.subscribe id true else s
      else if exclude then s.subscribe id false
      else s
    else s

def perform (srv : Server M) (id : Int) : Effect → Server M
  | .subscribe name on => srv.subscribe name id on
  | .addConnection noperms => srv.tryAddPrimayVideoService.addConnection id noperms
  | .addCameraConnection => srv.tryAddPrimaryCameraService.addCameraConnection id
  | .addVideoService source display => srv.tryAddService (.video source display)
  | .captureDisplays source displays include' exclude =>
    srv.captureDisplays id source displays include' exclude
  | _ => srv

variable {srv : Server M} {id other : Int} {name n : Service}
variable {f : Service → ServiceTmpl M → ServiceTmpl M}

@[simp] theorem contains_modify : (srv.modify f).contains name = srv.contains name := by
  simp [contains, modify, Function.comp_def]

@[simp] theorem contains_subscribe {sub : Bool} :
    (srv.subscribe n other sub).contains name = srv.contains name :=
  contains_modify

theorem not_mem_reached (h : srv.isSubed name id = false) (a : ServiceTmpl.Publication M) :
    id ∉ srv.reached name a := by
  intro hmem
  obtain ⟨x, hx, hreached⟩ := mem_flatMap.mp hmem
  split at hreached
  · rename_i hname
    have hsub : x.2.isSubed id = false := by
      have hall := any_eq_false.mp h x hx
      simpa [hname] using hall
    exact ServiceTmpl.not_mem_reached hsub a hreached
  · exact not_mem_nil hreached

theorem isSubed_modify_of_eq (h : ∀ n s, (f n s).isSubed id = s.isSubed id) :
    (srv.modify f).isSubed name id = srv.isSubed name id := by
  simp [isSubed, modify, Function.comp_def, h]

theorem isSubed_of_modify (h : ∀ n s, (f n s).isSubed id = true → s.isSubed id = true)
    (hsub : (srv.modify f).isSubed name id = true) : srv.isSubed name id = true := by
  simp only [isSubed, modify, any_map, any_eq_true, Function.comp_apply,
    Bool.and_eq_true, decide_eq_true_eq] at hsub ⊢
  obtain ⟨x, hx, hname, hid⟩ := hsub
  exact ⟨x, hx, hname, h x.1 x.2 hid⟩

@[simp] theorem isSubed_tryAddService :
    (srv.tryAddService n).isSubed name id = srv.isSubed name id := by
  unfold tryAddService
  split
  · rfl
  · simp [isSubed]

@[simp] theorem isSubed_tryAddPrimaryCameraService :
    srv.tryAddPrimaryCameraService.isSubed name id = srv.isSubed name id := by
  unfold tryAddPrimaryCameraService
  split_ifs <;> simp

theorem isSubed_subscribe {sub : Bool} :
    (srv.subscribe n other sub).isSubed name id =
      if name = n ∧ id = other then srv.contains n && sub else srv.isSubed name id := by
  have hall : ∀ x : Service × ServiceTmpl M,
      (decide (x.1 = name) && (if x.1 = n then x.2.subscribe other sub else x.2).isSubed id) =
        if name = n ∧ id = other then decide (x.1 = n) && sub
        else decide (x.1 = name) && x.2.isSubed id := by
    intro x
    by_cases hx : x.1 = name
    · by_cases hn : name = n
      · simp only [hx, hn, if_true, ServiceTmpl.isSubed_subscribe, true_and, decide_true,
          Bool.true_and]
      · simp [hx, hn]
    · by_cases hn : name = n
      · subst hn
        simp [hx]
      · simp [hx, hn]
  unfold subscribe isSubed modify contains
  rw [any_map]
  simp only [Function.comp_def, hall]
  split
  · cases sub <;> simp
  · rfl

theorem isSubed_perform_other (hne : other ≠ id) (e : Effect) :
    (srv.perform other e).isSubed name id = srv.isSubed name id := by
  have hsubscribe : ∀ (s : ServiceTmpl M) sub, (s.subscribe other sub).isSubed id = s.isSubed id := by
    intro s sub
    rw [ServiceTmpl.isSubed_subscribe, if_neg (Ne.symm hne)]
  have honSubscribe : ∀ s : ServiceTmpl M, (s.onSubscribe other).isSubed id = s.isSubed id := by
    intro s
    simp [ServiceTmpl.isSubed_onSubscribe, hne]
  unfold perform
  split
  · rw [isSubed_subscribe, if_neg fun h => hne h.2.symm]
  · unfold addConnection tryAddPrimayVideoService
    rw [isSubed_modify_of_eq, isSubed_tryAddService]
    intro n s
    split_ifs <;> simp [honSubscribe]
  · refine Eq.trans ?_ isSubed_tryAddPrimaryCameraService
    unfold addCameraConnection
    split
    · refine isSubed_modify_of_eq fun n s => ?_
      split_ifs <;> simp [honSubscribe]
    · rfl
  · exact isSubed_tryAddService
  · refine isSubed_modify_of_eq fun n s => ?_
    split_ifs <;> simp [hsubscribe]
  · rfl

variable {e : Effect}

theorem isSubed_of_perform (he : e.takesUp = false)
    (h : (srv.perform id e).isSubed name id = true) : srv.isSubed name id = true := by
  unfold perform at h
  split at h
  · rename_i n on
    have hoff : on = false := he
    rw [isSubed_subscribe, hoff, Bool.and_false] at h
    split at h
    · cases h
    · exact h
  · cases he
  · cases he
  · rwa [isSubed_tryAddService] at h
  · rename_i source displays include' exclude
    have hoff : include' = false := he
    refine isSubed_of_modify (fun n s hs => ?_) h
    simp only [hoff, Bool.false_eq_true, if_false] at hs
    split_ifs at hs
    · exact hs
    · simp [ServiceTmpl.isSubed_subscribe] at hs
    · exact hs
    · exact hs
  · exact h

def performAll (srv : Server M) (id : Int) (effects : List Effect) : Server M :=
  effects.foldl (fun srv e => srv.perform id e) srv

theorem contains_perform (he : e.rebuilds = false) :
    (srv.perform id e).contains name = srv.contains name := by
  cases e with
  | subscribe => exact contains_subscribe
  | addConnection => cases he
  | addCameraConnection => cases he
  | addVideoService => cases he
  | captureDisplays => cases he
  | _ => rfl

variable {effects : List Effect}

theorem contains_performAll (h : ∀ e ∈ effects, e.rebuilds = false) :
    (srv.performAll id effects).contains name = srv.contains name := by
  induction effects generalizing srv with
  | nil => rfl
  | cons e rest ih =>
    have hrest : ((srv.perform id e).performAll id rest).contains name
        = (srv.perform id e).contains name := ih fun e he => h e (mem_cons_of_mem _ he)
    exact hrest.trans (contains_perform (h e mem_cons_self))

theorem isSubed_perform (he : e.rebuilds = false) : (srv.perform id e).isSubed name id =
      match e.decides name with
      | some on => srv.contains name && on
      | none => srv.isSubed name id := by
  cases e with
  | subscribe n on =>
    have hsub : (srv.perform id (.subscribe n on)).isSubed name id
        = if name = n ∧ id = id then srv.contains n && on else srv.isSubed name id :=
      isSubed_subscribe
    rw [hsub, Effect.decides]
    by_cases hn : n = name
    · simp [hn]
    · simp [hn, Ne.symm hn]
  | addConnection => cases he
  | addCameraConnection => cases he
  | addVideoService => cases he
  | captureDisplays => cases he
  | _ => rfl

/-- **The last call of `subscribe`** for a service decides. -/
theorem isSubed_performAll (h : ∀ e ∈ effects, e.rebuilds = false) :
    (srv.performAll id effects).isSubed name id =
      match decision name effects with
      | some on => srv.contains name && on
      | none => srv.isSubed name id := by
  induction effects generalizing srv with
  | nil => rfl
  | cons e rest ih =>
    have hhead : e.rebuilds = false := h e mem_cons_self
    have hrest : (srv.performAll id (e :: rest)).isSubed name id
        = ((srv.perform id e).performAll id rest).isSubed name id := rfl
    rw [hrest, ih fun e he => h e (mem_cons_of_mem _ he), contains_perform hhead,
      isSubed_perform hhead, decision]
    cases decision name rest <;> rfl

theorem isSubed_of_performAll (heffects : ∀ e ∈ effects, e.takesUp = false)
    (h : (srv.performAll id effects).isSubed name id = true) : srv.isSubed name id = true := by
  induction effects generalizing srv with
  | nil => exact h
  | cons e rest ih =>
    have hrest := ih (fun e he => heffects e (mem_cons_of_mem _ he)) h
    exact isSubed_of_perform (heffects e mem_cons_self) hrest

end Server

namespace Connection

open Logged

variable {p : Platform} {env : Env p} {c c' c'' : Connection}

/-- Takes up no service. -/
abbrev Idle (e : Effect) : Prop := e.takesUp = false

/-- Only such effects were added to the log. -/
abbrev Idles : Connection → Connection → Prop := Within log (fun _ => ()) Idle

def Waited (c c' : Connection) : Prop := c'.authorized = true ∨ Idles c c'

theorem Waits.idle {e : Effect} (h : Waits e) : Idle e := by
  cases e with
  | subscribe service on =>
    have hoff : (!on) = true := h
    simpa [Idle, Effect.takesUp] using hoff
  | addConnection => cases h
  | addCameraConnection => cases h
  | captureDisplays => cases h
  | _ => rfl

theorem idles {φ : Type} {view : Connection → φ} (h : Within log view Waits c c') : Idles c c' :=
  (h.mono fun _ => Waits.idle).weaken (fun _ => ()) fun _ => rfl

theorem Waited.after (h : Idles c c') (h' : Waited c' c'') : Waited c c'' := by
  rcases h' with hin | hidle
  · exact .inl hin
  · exact .inr (h.trans hidle)

theorem Waited.then (h : Waited c c') (hauth : c''.authorized = c'.authorized)
    (hidle : Idles c' c'') : Waited c c'' := by
  rcases h with hin | hbefore
  · exact .inl (hauth.trans hin)
  · exact .inr (hbefore.trans hidle)

theorem Waited.steady (h : Waited c c') (hsame : Steady Waits c' c'') : Waited c c'' :=
  h.then (congrArg Auth.authorized hsame.auth) (idles hsame)

variable {r : Bool × Connection}

theorem Logon.waited (h : Logon env c r) : Waited c r.2 := by
  cases h with
  | waits _ _ hsame => exact .inr (idles hsame)
  | refused hsame => exact .inr (idles hsame)
  | enters s =>
    have hquiet : (s.authorize.logonResponse env).toAuth = s.authorize.toAuth :=
      logonResponse_quiet.same
    exact .inl ((congrArg Auth.authorized hquiet).trans authorize_spec.2.1)

theorem logonAndTell_waited {lr : LoginRequest}
    (hauth : c.authorized = false) (hr : c.logonAndTell env lr = r) : Waited c r.2 := by
  have hlogon : Waited c (c.sendLogonResponseAndKeepAlive env).2 :=
    (sendLogonResponseAndKeepAlive_logon hauth).waited
  subst hr
  unfold logonAndTell
  rcases hr : c.sendLogonResponseAndKeepAlive env with ⟨_ | _, c₁⟩
  · rw [hr] at hlogon
    exact hlogon
  · rw [hr] at hlogon
    exact hlogon.then rfl (.one rfl rfl rfl)

theorem Approval.waited {lr : LoginRequest} {s : Connection}
    (h : Approval env lr s r) (hauth : s.authorized = false) : Waited s r.2 := by
  have hset : ∀ auth, Idles s (s.setConnAuditPrimaryAuth auth) := fun _ => .silent rfl rfl
  cases h with
  | silent auth _ _ hsame => exact .inr ((hset auth).trans (idles hsame))
  | tells c₁ hsame hafter =>
    have htold : Idles c₁ (c₁.tryStartCm lr.myId lr.myName false) := .one rfl rfl rfl
    exact .inr ((idles hsame).trans (htold.trans (idles hafter)))
  | refused hsame => exact .inr (idles hsame)
  | logsOn c₁ auth _ hsame =>
    have hauth₁ : c₁.authorized = false := (congrArg Auth.authorized hsame.auth).trans hauth
    exact .after ((hset auth).trans (idles hsame)) (logonAndTell_waited hauth₁ rfl)

/-- **Before login** an event that switches no permission takes up no service, or lets
the peer in. -/
theorem handle_waited (hshared : c.shared = env.shared) (hauth : c.authorized = false)
    (htype : c.authedConnId = none) {e : Event}
    (he : ∀ name enabled, e ≠ .cm (.switchPermission name enabled)) :
    Waited c (c.handle env e).2 := by
  have hbefore := handle_before hshared hauth e
  generalize c.handle env e = r at hbefore
  cases hbefore with
  | calm _ hwaits =>
    have hcamera : c.isAuthedViewCameraConn = false := by simp [isAuthedViewCameraConn, htype]
    exact .inr (idles (hwaits he hcamera).quiet)
  | click _ hlogon =>
    have hclicked : Idles c c.clicked := .silent rfl rfl
    exact .after hclicked hlogon.waited
  | rejected s hstaged hsame =>
    exact .inr ((idles hstaged.untouched).trans (idles hsame))
  | login s _ hstaged _ happroval =>
    have hs : s.authorized = false :=
      (congrArg (fun v => v.2.2.1) hstaged.untouched.same).trans hauth
    exact .after (idles hstaged.untouched) (happroval.waited hs)
  | code _ hway =>
    cases hway with
    | ignored hsame => exact .inr (idles hsame)
    | @accepted c₁ _ _ _ _ hsame hlogon hafter =>
      have hset : Idles c { c with require2fa := none, connAuditTwoFactor := .totp } :=
        .silent rfl rfl
      have hauth₁ : c₁.authorized = false := (congrArg Auth.authorized hsame.auth).trans hauth
      exact .steady (.after (hset.trans (idles hsame)) (logonAndTell_waited hauth₁ hlogon)) hafter
  | switch _ hway =>
    cases hway with
    | ignored _ hsame => exact .inr (idles hsame)
    | accepted s _ _ hstaged _ _ hlogon hafter =>
      have hs : s.authorized = false := (congrArg (fun v => v.2.2.1) hstaged.same).trans hauth
      have hset : Idles s ({ s with fromSwitch := true }.setConnAuditPrimaryAuth .switchSides) :=
        .silent rfl rfl
      exact .steady (.after ((idles hstaged).trans hset) (logonAndTell_waited hs hlogon)) hafter

/-- From `c` to `c'` the server was changed by `subscribe` only, and the last calls said `d`. -/
def Decides (c c' : Connection) (d : Service → Option Bool) : Prop :=
  ∃ new, c'.log = c.log ++ new ∧ (∀ e ∈ new, e.rebuilds = false) ∧
    ∀ name, decision name new = d name

def undecided : Service → Option Bool := fun _ => none

namespace Decides

variable {d d' : Service → Option Bool}

theorem silent (h : c'.log = c.log) : Decides c c' undecided :=
  ⟨[], by rw [h, append_nil], fun e he => (not_mem_nil he).elim, fun _ => rfl⟩

theorem congr (h : Decides c c' d) (hd : ∀ name, d name = d' name) : Decides c c' d' := by
  obtain ⟨new, hnew, hplain, hdecides⟩ := h
  exact ⟨new, hnew, hplain, fun name => (hdecides name).trans (hd name)⟩

theorem trans (h : Decides c c' d) (h' : Decides c' c'' d') :
    Decides c c'' fun name => d' name <|> d name := by
  obtain ⟨new, hnew, hplain, hd⟩ := h
  obtain ⟨new', hnew', hplain', hd'⟩ := h'
  refine ⟨new ++ new', ?_, ?_, fun name => ?_⟩
  · rw [hnew', hnew, append_assoc]
  · intro e he
    rcases mem_append.mp he with he | he
    · exact hplain e he
    · exact hplain' e he
  · rw [decision_append, hd, hd']

theorem emit (h : Decides c c' d) {e : Effect} (hplain : e.rebuilds = false)
    (hnone : ∀ name, e.decides name = none) : Decides c (c'.emit e) d := by
  have hone : Decides c' (c'.emit e) undecided :=
    ⟨[e], rfl, by simpa using hplain, fun name => by simp [decision, hnone, undecided]⟩
  exact (h.trans hone).congr fun _ => rfl

theorem send (h : Decides c c' d) (m : PeerMessage) : Decides c (c'.send m) d :=
  h.emit rfl fun _ => rfl

theorem sendPermission (h : Decides c c' d) (q : Permission) (b : Bool) :
    Decides c (c'.sendPermission q b) d :=
  h.send _

theorem sendToCm (h : Decides c c' d) (m : CmData) : Decides c (c'.sendToCm m) d :=
  h.emit rfl fun _ => rfl

theorem set (h : Decides c c' d) (hlog : c''.log = c'.log) : Decides c c'' d :=
  (h.trans (.silent hlog)).congr fun _ => rfl

theorem subscribe (h : Decides c c' d) (service : Service) (on : Bool) :
    Decides c (c'.subscribe env service on)
      fun name => if env.serverAlive = true ∧ name = service then some on else d name := by
  unfold Connection.subscribe
  split
  · rename_i halive
    have hone : Decides c' (c'.emit (.subscribe service on))
        fun name => if name = service then some on else none := by
      refine ⟨[.subscribe service on], rfl, by simp [Effect.rebuilds], fun name => ?_⟩
      simp [decision, Effect.decides, eq_comm]
    refine (h.trans hone).congr fun name => ?_
    by_cases hname : name = service <;> simp [hname, halive]
  · rename_i hdead
    exact h.congr fun name => by simp [hdead]

end Decides

def audioDecision (c : Connection) : Option Bool :=
  if c.isAuthedViewCameraConn && !(c.voiceCalling || !c.audioEnabled) then none
  else some c.audioEnabled

theorem Decides.subscribeAudio {d : Service → Option Bool} (h : Decides c c' d) :
    Decides c
      (if c'.isAuthedViewCameraConn && !(c'.voiceCalling || !c'.audioEnabled) then c'
        else c'.subscribe env .audio c'.audioEnabled)
      fun name => if env.serverAlive = true ∧ name = .audio then c'.audioDecision <|> d name
        else d name := by
  unfold audioDecision
  split
  · exact h.congr fun name => by simp
  · exact (h.subscribe _ _).congr fun name => by simp

def switchDecides (c : Connection) (env : Env p) (permission : String) (enabled : Bool)
    (name : Service) : Option Bool :=
  if env.serverAlive = false then none
  else if permission = "keyboard" then
    let c := { c with keyboard := enabled }
    match name with
    | .clipboard => some (c.canSubClipboardService env)
    | .fileClipboard =>
      if p.build.unixFileCopyPaste then some (c.canSubFileClipboardService env) else none
    | .cursor => some (enabled || c.showRemoteCursor)
    | _ => none
  else if permission = "clipboard" ∧ name = .clipboard then
    some ({ c with clipboard := enabled }.canSubClipboardService env)
  else if permission = "audio" ∧ name = .audio then
    if !c.authorized then none else { c with audio := enabled }.audioDecision
  else if permission = "file" ∧ name = .fileClipboard ∧ p.build.unixFileCopyPaste = true then
    some ({ c with file := enabled }.canSubFileClipboardService env)
  else none

section Emitted

variable {service : Service} {on : Bool} {q : Permission}

@[simp] theorem canSubClipboardService_sendPermission :
    (c.sendPermission q on).canSubClipboardService env = c.canSubClipboardService env := rfl

@[simp] theorem canSubFileClipboardService_sendPermission :
    (c.sendPermission q on).canSubFileClipboardService env = c.canSubFileClipboardService env := rfl

@[simp] theorem toPeerOptions_subscribe :
    (c.subscribe env service on).toPeerOptions = c.toPeerOptions := by
  unfold Connection.subscribe
  split <;> rfl

@[simp] theorem canSubFileClipboardService_subscribe :
    (c.subscribe env service on).canSubFileClipboardService env
      = c.canSubFileClipboardService env := by
  unfold Connection.subscribe
  split <;> rfl

end Emitted

variable {enabled : Bool}

theorem switchKeyboard_decides :
    Decides c (c.switchKeyboard env enabled) (c.switchDecides env "keyboard" enabled) := by
  have hset : Decides c { c with keyboard := enabled } undecided := .silent rfl
  have hsent := hset.sendPermission .keyboard enabled
  unfold switchKeyboard
  dsimp only
  split
  · rename_i hunix
    refine (((hsent.subscribe _ _).subscribe _ _).subscribe _ _).congr fun name => ?_
    cases halive : env.serverAlive with
    | false => simp [switchDecides, undecided, halive]
    | true =>
      cases name <;> simp [switchDecides, undecided, halive, hunix]
      rfl
  · rename_i hunix
    refine ((hsent.subscribe _ _).subscribe _ _).congr fun name => ?_
    cases halive : env.serverAlive with
    | false => simp [switchDecides, undecided, halive]
    | true =>
      cases name <;> simp [switchDecides, undecided, halive, hunix]
      rfl

theorem switchAudio_decides :
    Decides c (c.switchAudio env enabled) (c.switchDecides env "audio" enabled) := by
  have hset : Decides c { c with audio := enabled } undecided := .silent rfl
  have hsent := hset.sendPermission .audio enabled
  have hauth : ({ c with audio := enabled }.sendPermission .audio enabled).authorized
      = c.authorized := rfl
  have hdecision : ({ c with audio := enabled }.sendPermission .audio enabled).audioDecision
      = { c with audio := enabled }.audioDecision := rfl
  unfold switchAudio
  dsimp only
  generalize { c with audio := enabled }.sendPermission .audio enabled = c₁ at hsent hauth hdecision ⊢
  rw [hauth]
  cases hin : c.authorized with
  | false => exact hsent.congr fun name => by simp [switchDecides, undecided, hin]
  | true =>
    refine hsent.subscribeAudio.congr fun name => ?_
    simp only [switchDecides, hin, hdecision]
    cases halive : env.serverAlive <;> cases name <;> simp [undecided]

theorem switchFile_decides :
    Decides c (c.switchFile env enabled) (c.switchDecides env "file" enabled) := by
  have hset : Decides c { c with file := enabled } undecided := .silent rfl
  have hsent := hset.sendPermission .file enabled
  unfold switchFile
  dsimp only
  split
  · rename_i hunix
    cases enabled with
    | true =>
      refine (hsent.subscribe _ _).congr fun name => ?_
      cases halive : env.serverAlive <;> simp [switchDecides, undecided, halive, hunix]
    | false =>
      have hemptied := hsent.emit (e := .emptyFileClipboard) rfl fun _ => rfl
      refine (hemptied.subscribe _ _).congr fun name => ?_
      cases halive : env.serverAlive <;> simp [switchDecides, undecided, halive, hunix]
      rfl
  · rename_i hunix
    exact hsent.congr fun name => by simp [switchDecides, undecided, hunix]

theorem switchPrivacyMode_decides : Decides c (c.switchPrivacyMode env enabled) undecided := by
  have hsilent : Decides c c undecided := .silent rfl
  have hturned := hsilent.emit (e := .turnOffPrivacy) rfl fun _ => rfl
  unfold switchPrivacyMode
  dsimp only
  split
  · split
    · exact ((hturned.send _).set (by rfl)).sendPermission _ _
    · exact (hturned.send _).sendToCm _
  · exact (hsilent.set (by rfl)).sendPermission _ _

theorem onSwitchPermission_decides {permission : String} :
    Decides c (c.onSwitchPermission env permission enabled)
      (c.switchDecides env permission enabled) := by
  have hsilent : Decides c c undecided := .silent rfl
  unfold onSwitchPermission
  split
  · rename_i h
    rw [h]
    exact switchKeyboard_decides
  · rename_i hkeyboard
    have hset : Decides c { c with clipboard := enabled } undecided := .silent rfl
    split
    · rename_i h
      rw [h]
      refine ((hset.sendPermission _ _).subscribe _ _).congr fun name => ?_
      cases halive : env.serverAlive <;> simp [switchDecides, undecided, halive]
    · rename_i hclipboard
      split
      · rename_i h
        rw [h]
        exact switchAudio_decides
      · rename_i haudio
        split
        · rename_i h
          rw [h]
          exact switchFile_decides
        · rename_i hfile
          have hnone : ∀ name, undecided name = c.switchDecides env permission enabled name := by
            intro name
            simp [switchDecides, undecided, hkeyboard, hclipboard, haudio, hfile]
          refine Decides.congr ?_ hnone
          split
          · exact (hsilent.set (by rfl)).sendPermission _ _
          · split
            · exact (hsilent.set (by rfl)).sendPermission _ _
            · split
              · exact (hsilent.set (by rfl)).sendPermission _ _
              · split
                · exact switchPrivacyMode_decides
                · exact hsilent

end Connection

structure Hosted (M : Type) where
  id : Int
  loop : Loop
  server : Server M

namespace Hosted

open Connection Logged Run

variable {M : Type} {p : Platform}

inductive Input (M : Type) (p : Platform) where
  | handle (env : Env p) (e : Event)
  | other (id : Int) (e : Effect)
  | publish (name : Service) (a : ServiceTmpl.Publication M)

def newEffects (before after : Loop) : List Effect := after.conn.log.drop before.conn.log.length

def step (w : Hosted M) : Input M p → Hosted M
  | .handle env e =>
    let loop := w.loop.step (env, e)
    { w with
      loop := loop
      server := w.server.performAll w.id (newEffects w.loop loop) }
  | .other id e => if id = w.id then w else { w with server := w.server.perform id e }
  | .publish name a =>
    { w with server := w.server.modify fun n s => if n = name then s.publish a else s }

def start (env : Env p) (m : Meta) (server : Server M) : Hosted M :=
  ⟨m.id, Connection.start env m, server⟩

/-- The connection is subscribed to nothing and reached by nothing. -/
structure Unheard (w : Hosted M) : Prop where
  subscribed : ∀ name, w.server.isSubed name w.id = false
  published : ∀ name a, w.id ∉ w.server.reached name a

/-- Switching on this permission subscribes: the keyboard, where the server has the
service of the cursor; the keyboard and the clipboard, the other being on, where it has the
service of the clipboard and the clipboard is not redirected one way. -/
def Subscribes (w : Hosted M) (env : Env p) (permission : String) : Prop :=
  let clipboard := w.server.contains .clipboard = true ∧
    env.builtinOption "one-way-clipboard-redirection" ≠ "Y"
  permission = "keyboard" ∧
      (w.server.contains .cursor = true ∨ w.loop.conn.clipboard = true ∧ clipboard) ∨
    permission = "clipboard" ∧ w.loop.conn.keyboard = true ∧ clipboard

/-- No permission that subscribes is granted before the peer is in. -/
def NoEarlyGrant (w : Hosted M) : Input M p → Prop
  | .handle env (.cm (.switchPermission permission true)) =>
    w.loop.running = true → w.loop.conn.authorized = false → env.serverAlive = true →
      ¬w.Subscribes env permission
  | _ => True

variable {w : Hosted M}

theorem Unheard.of_subscribed (h : ∀ name, w.server.isSubed name w.id = false) : w.Unheard :=
  ⟨h, fun name => Server.not_mem_reached (h name)⟩

theorem step_stopped (hrunning : w.loop.running = false) {env : Env p} {e : Event} :
    w.step (.handle env e) = w := by
  simp [step, Loop.step_stopped hrunning, newEffects, Server.performAll]

theorem newEffects_eq {before after : Loop} {new : List Effect}
    (h : after.conn.log = before.conn.log ++ new) : newEffects before after = new := by
  rw [newEffects, h, drop_left]

theorem decides_subscribes {env : Env p} {permission : String} {enabled : Bool}
    (hc : w.loop.conn.Unopened) :
    (∃ name, w.loop.conn.switchDecides env permission enabled name = some true ∧
        w.server.contains name = true) ↔
      env.serverAlive = true ∧ enabled = true ∧ w.Subscribes env permission := by
  have hoptions := hc.options
  have hauth := hc.authorized
  unfold Subscribes
  generalize w.loop.conn = c at hoptions hauth ⊢
  have hcursor : c.showRemoteCursor = false := congrArg PeerOptions.showRemoteCursor hoptions
  have hclipboard : c.disableClipboard = false := congrArg PeerOptions.disableClipboard hoptions
  have hkeyboard : c.disableKeyboard = false := congrArg PeerOptions.disableKeyboard hoptions
  have hfile : c.enableFileTransfer = false := congrArg PeerOptions.enableFileTransfer hoptions
  cases halive : env.serverAlive with
  | false => simp [switchDecides, halive]
  | true =>
    simp only [switchDecides, halive, Bool.true_eq_false, if_false, hauth, Bool.not_false, if_true]
    by_cases hp : permission = "keyboard"
    · subst hp
      simp only [if_true]
      constructor
      · rintro ⟨name, hname, hhas⟩
        cases name <;> simp_all [canSubClipboardService, clipboardEnabled, peerKeyboardEnabled,
          canSubFileClipboardService, fileTransferEnabled]
      · rintro ⟨-, rfl, h⟩
        rcases h with ⟨-, hhas | ⟨hon, hhas, hone⟩⟩ | ⟨hne, -⟩
        · exact ⟨.cursor, rfl, hhas⟩
        · refine ⟨.clipboard, ?_, hhas⟩
          simp [canSubClipboardService, clipboardEnabled, peerKeyboardEnabled, hon, hone,
            hclipboard, hkeyboard]
        · exact absurd hne (by decide)
    · simp only [if_neg hp]
      constructor
      · rintro ⟨name, hname, hhas⟩
        split_ifs at hname with hclip haudio hcopy
        · obtain ⟨rfl, rfl⟩ := hclip
          simp_all [canSubClipboardService, clipboardEnabled, peerKeyboardEnabled]
        · simp [canSubFileClipboardService, fileTransferEnabled, hfile] at hname
      · rintro ⟨-, rfl, ⟨hne, -⟩ | ⟨rfl, hon, hhas, hone⟩⟩
        · exact absurd hne hp
        · refine ⟨.clipboard, ?_, hhas⟩
          simp [canSubClipboardService, clipboardEnabled, peerKeyboardEnabled, hon, hone,
            hclipboard, hkeyboard]

/-- **Switching a permission** before login leaves the connection unheard exactly if it
does not subscribe. -/
theorem switchPermission_unheard {env : Env p} {permission : String} {enabled : Bool}
    (hrunning : w.loop.running = true) (hc : w.loop.conn.Unopened) (hw : w.Unheard) :
    (w.step (.handle env (.cm (.switchPermission permission enabled)))).Unheard ↔
      ¬(env.serverAlive = true ∧ enabled = true ∧ w.Subscribes env permission) := by
  obtain ⟨new, hnew, hplain, hdecides⟩ : Decides w.loop.conn
      ((w.loop.conn.seeing env).onSwitchPermission env permission enabled)
      (w.loop.conn.switchDecides env permission enabled) :=
    onSwitchPermission_decides (c := w.loop.conn.seeing env)
  have hserver : (w.step (.handle env (.cm (.switchPermission permission enabled)))).server
      = w.server.performAll w.id new := by
    have heffects : newEffects w.loop
        (w.loop.step (env, .cm (.switchPermission permission enabled))) = new := by
      refine newEffects_eq ?_
      rw [Loop.step_running hrunning]
      exact hnew
    simp only [step, heffects]
  have hsubed : ∀ name, (w.server.performAll w.id new).isSubed name w.id = true ↔
      w.loop.conn.switchDecides env permission enabled name = some true ∧
        w.server.contains name = true := by
    intro name
    rw [Server.isSubed_performAll hplain, hdecides]
    split
    · rename_i on hon
      rw [hon]
      cases on <;> simp
    · rename_i hnone
      rw [hnone, hw.subscribed]
      simp
  rw [← decides_subscribes hc]
  constructor
  · rintro h ⟨name, hname⟩
    have hfalse := h.subscribed name
    rw [hserver] at hfalse
    exact Bool.eq_false_iff.mp hfalse ((hsubed name).mpr hname)
  · intro h
    refine .of_subscribed fun name => ?_
    rw [hserver]
    refine Bool.eq_false_iff.mpr fun htrue => h ⟨name, (hsubed name).mp htrue⟩

def Waiting (w : Hosted M) : Prop := w.loop.conn.authorized = false → w.Unheard

theorem noEarlyGrant_of {i : Input M p}
    (h : ¬(w.loop.running = true ∧ w.loop.conn.authorized = false)) : w.NoEarlyGrant i := by
  unfold NoEarlyGrant
  split
  · intro hrunning hauth
    exact absurd ⟨hrunning, hauth⟩ h
  · trivial

theorem handle_waiting {env : Env p} (hrunning : w.loop.running = true)
    (hc : w.loop.conn.Unopened) (hw : w.Unheard) (e : Event) :
    (w.step (.handle env e)).Waiting ↔ w.NoEarlyGrant (.handle env e) := by
  have hloop := Loop.step_running hrunning env e
  by_cases hswitch : ∃ permission enabled, e = .cm (.switchPermission permission enabled)
  · obtain ⟨permission, enabled, rfl⟩ := hswitch
    have hauth : (w.step (.handle env (.cm (.switchPermission permission enabled)))
        ).loop.conn.authorized = false := by
      have hsteady : Steady Plain (w.loop.conn.seeing env)
          ((w.loop.conn.seeing env).onSwitchPermission env permission enabled) :=
        onSwitchPermission_steady
      have hkept : (w.loop.step (env, .cm (.switchPermission permission enabled))).conn.authorized
          = w.loop.conn.authorized := by
        rw [hloop]
        exact congrArg Auth.authorized hsteady.auth
      exact hkept.trans hc.authorized
    have hunheard : (w.step (.handle env (.cm (.switchPermission permission enabled)))).Unheard ↔
        ¬(env.serverAlive = true ∧ enabled = true ∧ w.Subscribes env permission) :=
      switchPermission_unheard hrunning hc hw
    have hwaiting : (w.step (.handle env (.cm (.switchPermission permission enabled)))).Waiting ↔
        (w.step (.handle env (.cm (.switchPermission permission enabled)))).Unheard :=
      ⟨fun h => h hauth, fun h _ => h⟩
    rw [hwaiting, hunheard]
    cases enabled with
    | false => exact iff_of_true (by simp) trivial
    | true => simp [NoEarlyGrant, hrunning, hc.authorized]
  · have hother : ∀ permission enabled, e ≠ .cm (.switchPermission permission enabled) :=
      fun permission enabled he => hswitch ⟨permission, enabled, he⟩
    have hgrants : w.NoEarlyGrant (.handle env e) := by
      cases e with
      | cm d => cases d with
        | switchPermission permission enabled => exact absurd rfl (hother permission enabled)
        | _ => trivial
      | _ => trivial
    refine iff_of_true (fun hauth => .of_subscribed fun name => ?_) hgrants
    have hwaited : Waited (w.loop.conn.seeing env) ((w.loop.conn.seeing env).handle env e).2 :=
      handle_waited (c := w.loop.conn.seeing env) rfl hc.authorized hc.authedConnId hother
    have hout : ((w.loop.conn.seeing env).handle env e).2.authorized = false := by
      have h : (w.loop.step (env, e)).conn.authorized = false := hauth
      rwa [hloop] at h
    rcases hwaited with hin | hidle
    · rw [hin] at hout
      cases hout
    · obtain ⟨new, hnew, hnone⟩ := hidle.emits
      have heffects : newEffects w.loop (w.loop.step (env, e)) = new := by
        refine newEffects_eq ?_
        rw [hloop]
        exact hnew
      refine Bool.eq_false_iff.mpr fun htrue => ?_
      have hbefore : w.server.isSubed name w.id = true := by
        refine Server.isSubed_of_performAll hnone ?_
        rw [← heffects]
        exact htrue
      rw [hw.subscribed] at hbefore
      cases hbefore

/-- **One step** keeps a waiting connection unheard exactly if it grants nothing early. -/
theorem step_waiting (hscoped : w.loop.Scoped) (hw : w.Waiting) (i : Input M p) :
    (w.step i).Waiting ↔ w.NoEarlyGrant i := by
  cases i with
  | other id e =>
    refine iff_of_true (fun hauth => ?_) trivial
    simp only [step] at hauth ⊢
    split at hauth
    · rename_i hid
      rw [if_pos hid]
      exact hw hauth
    · rename_i hid
      rw [if_neg hid]
      exact .of_subscribed fun name =>
        (Server.isSubed_perform_other hid e).trans ((hw hauth).subscribed name)
  | publish n a =>
    refine iff_of_true (fun hauth => .of_subscribed fun name => ?_) trivial
    refine Eq.trans (Server.isSubed_modify_of_eq fun m s => ?_) ((hw hauth).subscribed name)
    split
    · exact ServiceTmpl.isSubed_publish a
    · rfl
  | handle env e =>
    cases hrunning : w.loop.running with
    | false =>
      rw [step_stopped hrunning]
      exact iff_of_true hw (noEarlyGrant_of (by simp [hrunning]))
    | true =>
      have hloop := Loop.step_running hrunning env e
      rcases hscoped hrunning with hc | hc
      · exact handle_waiting hrunning hc (hw hc.authorized) e
      · have hstays : StaysIn (w.loop.conn.seeing env) ((w.loop.conn.seeing env).handle env e).2 :=
          handle_staysIn (c := w.loop.conn.seeing env) rfl hc.1 e
        refine iff_of_true (fun hauth => ?_) (noEarlyGrant_of (by simp [hc.1]))
        have hin : (w.loop.step (env, e)).conn.authorized = true := by
          rw [hloop]
          exact hstays.authorized
        exact absurd (hin.symm.trans hauth) (by simp)

/-- **Nothing before authorization.**  As long as the peer is not let in, its connection
is subscribed to no service and nothing published reaches it, exactly if no permission that
subscribes is switched on for it in the meantime. -/
theorem unheard_before_authorization (env₀ : Env p) (m : Meta) (server : Server M)
    (hfresh : ∀ name, server.isSubed name m.id = false) (is : List (Input M p)) :
    Always step (fun w => w.loop.conn.authorized = false → w.Unheard) (start env₀ m server) is ↔
      Along step NoEarlyGrant (start env₀ m server) is := by
  have hscoped : (start env₀ m server).loop.Scoped := start_scoped env₀ m
  have hfirst : (start env₀ m server).Waiting := fun _ => .of_subscribed hfresh
  refine always_iff_along (P := Waiting) (W := fun _ _ => True) (J := fun _ w => w.loop.Scoped)
    (N := is.length) (n := 0) ?_ ?_ (by simp) hscoped hfirst
    (along_of_forall (fun _ _ => trivial) _ _)
  · intro _ w i _ hscoped
    cases i with
    | handle env e => exact Loop.step_scoped w.loop (env, e) hscoped
    | other id e =>
      simp only [step]
      split <;> exact hscoped
    | publish => exact hscoped
  · intro _ w i _ _ hscoped hw
    exact step_waiting hscoped hw i

def desktop : Server Unit :=
  ⟨[(.cursor, .new true), (.clipboard, .new false), (.audio, .new true)], 0, false⟩

theorem desktop_isSubed (name : Service) (id : Int) : desktop.isSubed name id = false := by
  simp [desktop, Server.isSubed]

/-- Audio may be switched on for a peer that waits. -/
theorem audio_granted_early :
    desktop.isSubed .audio 1 = false ∧
    Always step (fun w => w.loop.conn.authorized = false → w.Unheard)
      (start (.idle linux) .idle desktop)
      [.handle (.idle linux) (.cm (.switchPermission "audio" true))] :=
  ⟨desktop_isSubed .audio 1,
    (unheard_before_authorization (.idle linux) .idle desktop (fun name => desktop_isSubed name 1)
      [.handle (.idle linux) (.cm (.switchPermission "audio" true))]).mpr
      ⟨fun _ _ _ => by simp [Subscribes], trivial⟩⟩

/-- **The keyboard switched on for a peer that waits.**  The peer has sent nothing yet,
and the cursor and the clipboard reach it. -/
theorem keyboard_granted_early :
    (start (.idle linux) .idle desktop).Unheard ∧
    ((start (.idle linux) .idle desktop).step
      (.handle (.idle linux) (.cm (.switchPermission "keyboard" true)))
        ).loop.conn.authorized = false ∧
    ((start (.idle linux) .idle desktop).step
      (.handle (.idle linux) (.cm (.switchPermission "keyboard" true)))
        ).server.isSubed .cursor 1 = true ∧
    1 ∈ ((start (.idle linux) .idle desktop).step
      (.handle (.idle linux) (.cm (.switchPermission "keyboard" true)))
        ).server.reached .clipboard (.shared ()) :=
  ⟨.of_subscribed fun name => desktop_isSubed name 1, by decide, by decide, by decide⟩

end Hosted
end RustDesk
