import RustDesk.Lib.Run

/-!
# The client's clipboard loop

All sessions share one loop thread, which sends what is copied to them.  The first session that
is logged in starts it, and a session that is over stops it unless another one is connected.
`CLIPBOARD_STATE.running` says that it runs, and the clipboard listener has the sender that
wakes it.

To start it is one critical section.  To stop it is three: the other sessions are looked at,
the sender is removed with a `Stop` behind what it has sent, and `running` is cleared.  A loop
clears `running` once more when it ends.  Nothing tells either which loop is running by then.

* `loop_kept`: **if no session starts the loop while another stops it or an old one ends, it
  runs as long as a session that started it is connected**, and only then.
* `loop_lost`: a session that starts it between two sections of a stop is left without it.
-/

open Run

namespace RustDesk.ClipboardLoop

open List

/-- A default session: its connection is over, being made, or made, with whether
`try_start_clipboard` has been called since, or its last window is closed and it will end. -/
inductive Session where
  | disconnected
  | connecting
  | connected (started : Bool)
  | closing
  deriving DecidableEq

inductive CallbackResult where
  | next
  | stop
  deriving DecidableEq

/-- Where a loop thread is: before the check of `running`, in `recv_timeout`, behind the loop,
and over. -/
inductive Phase where
  | check
  | receive
  | leave
  | exited
  deriving DecidableEq

structure Loop where
  phase : Phase
  queue : List CallbackResult

/-- What a `try_stop_clipboard` does next: it looks for connected sessions, unsubscribes, or
clears `running`. -/
inductive Stopper where
  | check
  | unsubscribe
  | clear
  deriving DecidableEq

/-- The sessions, `CLIPBOARD_STATE.running`, the loop whose sender the listener has, the loops
there were, and the calls of `try_stop_clipboard` in progress. -/
structure State where
  sessions : List Session
  running : Bool
  subscriber : Option Nat
  loops : List Loop
  stoppers : List Stopper

namespace State

def start (n : Nat) : State where
  sessions := .replicate n .disconnected
  running := false
  subscriber := none
  loops := []
  stoppers := []

def hasConnectedSessionsRunning (s : State) : Bool :=
  s.sessions.any fun
    | .connected _ => true
    | _ => false

def send (s : State) (t : Nat) (r : CallbackResult) : State :=
  { s with loops := s.loops.modify t fun x => { x with queue := x.queue ++ [r] } }

def onClipboardChange (s : State) : State :=
  match s.subscriber with
  | some t => s.send t .next
  | none => s

def tryStartClipboard (s : State) : State :=
  if s.running then s
  else { s with
    running := true
    subscriber := some s.loops.length
    loops := s.loops ++ [⟨.check, []⟩] }

def unsubscribe (s : State) : State :=
  match s.subscriber with
  | some t => { s.send t .stop with subscriber := none }
  | none => s

/-- The next section of a `try_stop_clipboard`. -/
def tryStopClipboard (s : State) (j : Nat) : State :=
  match s.stoppers[j]? with
  | some .check =>
    if s.hasConnectedSessionsRunning then { s with stoppers := s.stoppers.eraseIdx j }
    else { s with stoppers := s.stoppers.set j .unsubscribe }
  | some .unsubscribe => { s.unsubscribe with stoppers := s.stoppers.set j .clear }
  | some .clear => { s with running := false, stoppers := s.stoppers.eraseIdx j }
  | none => s

/-- What `recv_timeout` returns to a loop, and the loop does with it. -/
def received (s : State) (t : Nat) (x : Loop) : Loop :=
  match x.queue with
  | .next :: queue => ⟨.check, queue⟩
  | .stop :: queue => ⟨.leave, queue⟩
  -- without a sender the receiver is disconnected, otherwise it is a timeout
  | [] => if s.subscriber = some t then ⟨.check, []⟩ else ⟨.leave, []⟩

def loopThread (s : State) (t : Nat) : State :=
  match s.loops[t]? with
  | some x =>
    match x.phase with
    | .check =>
      let phase := if s.running then .receive else .leave
      { s with loops := s.loops.set t { x with phase } }
    | .receive => { s with loops := s.loops.set t (s.received t x) }
    | .leave => { s with running := false, loops := s.loops.set t { x with phase := .exited } }
    | .exited => s
  | none => s

end State

/-- What happens: a round of a session begins, its connection is made, `try_start_clipboard` is
called for it, its last window is closed, it is over and calls `try_stop_clipboard`; a call of
that, or a loop thread, does its next section; something is copied. -/
inductive Input where
  | newRound (i : Nat)
  | setConnected (i : Nat)
  | tryStart (i : Nat)
  | close (i : Nat)
  | setDisconnected (i : Nat)
  | stopper (j : Nat)
  | loop (t : Nat)
  | change

namespace State

def step (s : State) : Input → State
  | .newRound i => { s with sessions := s.sessions.set i .connecting }
  | .setConnected i =>
    if s.sessions[i]? = some .connecting then
      { s with sessions := s.sessions.set i (.connected false) }
    else s
  | .tryStart i =>
    match s.sessions[i]? with
    | some (.connected _) =>
      { s.tryStartClipboard with sessions := s.sessions.set i (.connected true) }
    | some .closing => s.tryStartClipboard
    | _ => s
  | .close i =>
    match s.sessions[i]? with
    | some (.connected _) => { s with sessions := s.sessions.set i .closing }
    | _ => s
  | .setDisconnected i =>
    match s.sessions[i]? with
    | some .disconnected | none => s
    | some _ => { s with
        sessions := s.sessions.set i .disconnected
        stoppers := s.stoppers ++ [.check] }
  | .stopper j => s.tryStopClipboard j
  | .loop t => s.loopThread t
  | .change => s.onClipboardChange

def Alive (s : State) (t : Nat) : Prop := ∃ x, s.loops[t]? = some x ∧ x.phase ≠ .exited

/-- A loop thread will end: it has left the loop, it has a `Stop` or no sender, or `running` is
cleared. -/
def Ending (s : State) (t : Nat) : Prop :=
  ∃ x, s.loops[t]? = some x ∧ x.phase ≠ .exited ∧
    (x.phase = .leave ∨ .stop ∈ x.queue ∨ s.subscriber ≠ some t ∨ s.running = false)

instance decidableEnding (s : State) (t : Nat) : Decidable (s.Ending t) :=
  match h : s.loops[t]? with
  | none => isFalse fun ⟨x, hx, _⟩ => Option.some_ne_none x (hx.symm.trans h)
  | some x => decidable_of_iff
      (x.phase ≠ .exited ∧
        (x.phase = .leave ∨ .stop ∈ x.queue ∨ s.subscriber ≠ some t ∨ s.running = false))
      ⟨fun hx => ⟨x, h, hx⟩, fun ⟨_, hy, hx⟩ => Option.some.inj (h.symm.trans hy) ▸ hx⟩

/-- Only the loops there were can end. -/
instance decidableNoneEnding (s : State) : Decidable (∀ t, ¬s.Ending t) :=
  decidable_of_iff (∀ t < s.loops.length, ¬s.Ending t)
    ⟨fun h t he => h t (he.elim fun _ hx => (List.getElem?_eq_some_iff.mp hx.1).1) he,
      fun h t _ => h t⟩

/-- No step and no `Stop` that ends something remains. -/
def Settled (s : State) : Prop := s.stoppers = [] ∧ ∀ t, ¬s.Ending t

instance decidableSettled (s : State) : Decidable s.Settled :=
  inferInstanceAs (Decidable (_ ∧ _))

/-- **What the loop owes the sessions**: when everything is done, a connected session that
started it has the one loop there is; and when all sessions are over, no loop stays alive. -/
structure Good (s : State) : Prop where
  kept : s.Settled → .connected true ∈ s.sessions →
    s.running = true ∧ ∃ t, s.subscriber = some t ∧ ∀ u, s.Alive u ↔ u = t
  ended : s.stoppers = [] → (∀ x ∈ s.sessions, x = .disconnected) →
    ∀ t, ∃ n, ¬(exec step s (.replicate n (.loop t))).Alive t

/-- Nothing is about to end the loop, or has ended it without clearing `running`. -/
def Calm (s : State) : Prop := (∀ x ∈ s.stoppers, x = .check) ∧ ∀ t, ¬s.Ending t

instance decidableCalm (s : State) : Decidable s.Calm := inferInstanceAs (Decidable (_ ∧ _))

/-- A start that finds a session connected comes while no earlier loop is on its way out. -/
def Meets (s : State) : Input → Prop
  | .tryStart i => (∃ b, s.sessions[i]? = some (.connected b)) → s.Calm
  | _ => True

instance decidableMeets (s : State) : ∀ i, Decidable (s.Meets i)
  | .tryStart i =>
    inferInstanceAs (Decidable ((∃ b, s.sessions[i]? = some (.connected b)) → s.Calm))
  | .newRound _ | .setConnected _ | .close _ | .setDisconnected _ | .stopper _ | .loop _
  | .change => isTrue trivial

structure Inv (s : State) : Prop where
  /-- `running` is cleared when a loop exits. -/
  running : s.running = true → ∃ t, s.Alive t
  /-- A stop that has looked at the sessions has found none. -/
  stopping : .connected true ∈ s.sessions → ∀ x ∈ s.stoppers, x = .check
  started : .connected true ∈ s.sessions → s.running = true ∧ ∀ t, ¬s.Ending t
  /-- While the loop runs, there is a session that will stop it, or a stop that has begun. -/
  owned : s.running = true → s.subscriber ≠ none →
    (∃ x ∈ s.sessions, x ≠ .disconnected) ∨ ∃ x ∈ s.stoppers, x ≠ .clear

variable {s : State} {t i j : Nat}

def Sound (s : State) : Prop := s.running = true ∧ ∀ t, ¬s.Ending t

theorem Sound.alive (h : s.Sound) {x : Loop} (hx : s.loops[t]? = some x) (ha : x.phase ≠ .exited) :
    s.subscriber = some t ∧ x.phase ≠ .leave ∧ .stop ∉ x.queue := by
  have hending := h.2 t
  refine ⟨?_, ?_, ?_⟩
  · by_contra hsub
    exact hending ⟨x, hx, ha, .inr (.inr (.inl hsub))⟩
  · exact fun hleave => hending ⟨x, hx, ha, .inl hleave⟩
  · exact fun hstop => hending ⟨x, hx, ha, .inr (.inl hstop)⟩

theorem sound_of (hrun : s.running = true)
    (h : ∀ t x, s.loops[t]? = some x → x.phase ≠ .exited →
      s.subscriber = some t ∧ x.phase ≠ .leave ∧ .stop ∉ x.queue) : s.Sound := by
  refine ⟨hrun, ?_⟩
  rintro t ⟨x, hx, ha, hleave | hstop | hsub | hclear⟩
  · exact (h t x hx ha).2.1 hleave
  · exact (h t x hx ha).2.2 hstop
  · exact hsub (h t x hx ha).1
  · exact absurd (hrun.symm.trans hclear) Bool.noConfusion

/-- **Starting the loop when nothing is about to end it** gives a loop that nothing ends. -/
theorem Calm.tryStartClipboard (h : s.Calm) : s.tryStartClipboard.Sound := by
  unfold State.tryStartClipboard
  split
  case isTrue hr => exact ⟨hr, h.2⟩
  case isFalse hr =>
    refine sound_of rfl fun t x hx ha => ?_
    rw [List.getElem?_append] at hx
    split at hx
    case isTrue hlt =>
      -- a loop that is alive while `running` is cleared is about to end
      exact absurd ⟨x, hx, ha, .inr (.inr (.inr (Bool.eq_false_iff.mpr hr)))⟩ (h.2 t)
    case isFalse hge =>
      obtain ⟨hlt, hget⟩ := List.getElem?_eq_some_iff.mp hx
      have hlen : t = s.loops.length := by
        rw [length_singleton] at hlt
        omega
      have hnew : x = ⟨.check, []⟩ := by
        rw [← hget]
        exact getElem_singleton _
      subst hlen hnew
      exact ⟨rfl, Phase.noConfusion, not_mem_nil⟩

theorem Sound.set (h : s.Sound) {y : Loop}
    (hy : s.subscriber = some t ∧ y.phase ≠ .leave ∧ .stop ∉ y.queue) :
    State.Sound { s with loops := s.loops.set t y } := by
  refine sound_of h.1 fun u x hx ha => ?_
  by_cases hu : t = u
  · subst hu
    obtain ⟨hlt, hget⟩ := List.getElem?_eq_some_iff.mp hx
    rw [← hget, getElem_set_self]
    exact hy
  · rw [List.getElem?_set_ne hu] at hx
    exact h.alive hx ha

theorem Sound.loopThread (h : s.Sound) (t : Nat) : (s.loopThread t).Sound := by
  unfold State.loopThread
  cases hx : s.loops[t]? with
  | none => exact h
  | some x =>
    cases hphase : x.phase with
    | exited => simpa only [hphase] using h
    | leave =>
      exact absurd hphase (h.alive hx (by rw [hphase]; exact Phase.noConfusion)).2.1
    | check =>
      obtain ⟨hsub, -, hstop⟩ := h.alive hx (by rw [hphase]; exact Phase.noConfusion)
      simp only [hphase]
      rw [if_pos h.1]
      exact h.set ⟨hsub, Phase.noConfusion, hstop⟩
    | receive =>
      obtain ⟨hsub, -, hstop⟩ := h.alive hx (by rw [hphase]; exact Phase.noConfusion)
      simp only [hphase]
      refine h.set ⟨hsub, ?_⟩
      unfold received
      split
      case h_1 queue heq =>
        exact ⟨Phase.noConfusion, fun hmem => hstop (heq ▸ mem_cons_of_mem _ hmem)⟩
      case h_2 queue heq => exact absurd (heq ▸ mem_cons_self) hstop
      case h_3 heq =>
        rw [if_pos hsub]
        exact ⟨Phase.noConfusion, not_mem_nil⟩

theorem Sound.onClipboardChange (h : s.Sound) : s.onClipboardChange.Sound := by
  unfold State.onClipboardChange
  split
  case h_1 t hsub =>
    refine sound_of h.1 fun u y hy ha => ?_
    rw [send, List.getElem?_modify] at hy
    obtain ⟨x, hx, rfl⟩ := Option.map_eq_some_iff.mp hy
    by_cases hu : t = u
    · simp only [hu, if_true] at ha ⊢
      obtain ⟨hsub', hleave, hstop⟩ := h.alive hx ha
      exact ⟨hsub', hleave, by simpa using hstop⟩
    · simp only [hu, if_false] at ha ⊢
      exact h.alive hx ha
  case h_2 => exact h

def sectionsLeft (running : Bool) (x : Loop) : Nat :=
  match x.phase with
  | .check => if running then 2 * x.queue.length + 4 else 2
  | .receive => 2 * x.queue.length + 3
  | .leave => 1
  | .exited => 0

theorem sectionsLeft_received {x : Loop}
    (h : .stop ∈ x.queue ∨ s.subscriber ≠ some t ∨ s.running = false) :
    sectionsLeft s.running (s.received t x) < 2 * x.queue.length + 3 := by
  obtain ⟨phase, queue⟩ := x
  cases queue with
  | nil =>
    by_cases hsub : s.subscriber = some t
    · have hrun : s.running = false := by simpa [hsub] using h
      simp [received, hsub, sectionsLeft, hrun]
    · simp [received, hsub, sectionsLeft]
  | cons r queue =>
    cases r with
    | next =>
      simp only [received, sectionsLeft, length_cons]
      split <;> omega
    | stop => simp [received, sectionsLeft]

theorem ending_loopThread {x : Loop} (hx : s.loops[t]? = some x) (he : s.Ending t) :
    ∃ y, (s.loopThread t).loops[t]? = some y ∧
      (y.phase = .exited ∨ (s.loopThread t).Ending t) ∧
      sectionsLeft (s.loopThread t).running y < sectionsLeft s.running x := by
  obtain ⟨x', hx', ha, hend⟩ := he
  obtain rfl : x' = x := Option.some.inj (hx'.symm.trans hx)
  have hget := fun y => List.getElem?_set_self (a := y) (List.getElem?_eq_some_iff.mp hx).1
  unfold State.loopThread
  simp only [hx]
  cases hphase : x'.phase with
  | exited => exact absurd hphase ha
  | leave =>
    refine ⟨_, hget _, .inl rfl, ?_⟩
    simp [sectionsLeft, hphase]
  | check =>
    refine ⟨_, hget _, .inr ⟨_, hget _, ?_⟩, ?_⟩
    · cases hrun : s.running with
      | false => exact ⟨by simp, .inl (by simp)⟩
      | true => exact ⟨by simp, .inr (by simpa [hphase, hrun] using hend)⟩
    · cases hrun : s.running with
      | false => simp [sectionsLeft, hphase]
      | true => simp [sectionsLeft, hphase]
  | receive =>
    have hend' : .stop ∈ x'.queue ∨ s.subscriber ≠ some t ∨ s.running = false :=
      hend.resolve_left (by rw [hphase]; exact Phase.noConfusion)
    refine ⟨_, hget _, .inr ⟨_, hget _, ?_⟩, ?_⟩
    · unfold received
      split
      case h_1 queue heq => exact ⟨Phase.noConfusion, .inr (by simpa [heq] using hend')⟩
      case h_2 queue heq => exact ⟨Phase.noConfusion, .inl rfl⟩
      case h_3 heq =>
        split
        case isTrue hsub => exact ⟨Phase.noConfusion, .inr (by simpa [heq] using hend')⟩
        case isFalse hsub => exact ⟨Phase.noConfusion, .inl rfl⟩
    · have hleft : sectionsLeft s.running x' = 2 * x'.queue.length + 3 := by
        simp [sectionsLeft, hphase]
      rw [hleft]
      exact sectionsLeft_received hend'

theorem Ending.exits (he : s.Ending t) : ∃ n, ¬(exec step s (.replicate n (.loop t))).Alive t := by
  obtain ⟨x, hx, -⟩ := id he
  induction hn : sectionsLeft s.running x using Nat.strongRecOn generalizing s x with
  | ind n ih =>
    obtain ⟨y, hy, hphase, hlt⟩ := ending_loopThread hx he
    rcases hphase with hexited | hending
    · refine ⟨1, ?_⟩
      rintro ⟨z, hz, hza⟩
      obtain rfl : z = y := Option.some.inj (hz.symm.trans hy)
      exact hza hexited
    · obtain ⟨m, hm⟩ := ih _ (hn ▸ hlt) hending y hy rfl
      exact ⟨m + 1, hm⟩

theorem exists_set {sessions : List Session} {x : Session} (hx : x ≠ .disconnected) (i : Nat)
    (h : ∃ y ∈ sessions, y ≠ .disconnected) : ∃ y ∈ sessions.set i x, y ≠ .disconnected := by
  obtain ⟨y, hy, hne⟩ := h
  obtain ⟨k, hk⟩ := mem_iff_getElem?.mp hy
  by_cases hik : i = k
  · subst hik
    exact ⟨x, mem_set (List.getElem?_eq_some_iff.mp hk).1 x, hx⟩
  · exact ⟨y, mem_of_getElem? ((List.getElem?_set_ne hik).trans hk), hne⟩

theorem inv_start (n : Nat) : (start n).Inv where
  running h := Bool.noConfusion h
  stopping _ _ h := absurd h not_mem_nil
  started h := Session.noConfusion (eq_of_mem_replicate h)
  owned h := Bool.noConfusion h

theorem Inv.setSession (h : s.Inv) {x : Session} (hx : x ≠ .disconnected)
    (hx' : x ≠ .connected true) (i : Nat) :
    State.Inv { s with sessions := s.sessions.set i x } := by
  have hold : .connected true ∈ s.sessions.set i x → .connected true ∈ s.sessions := fun hmem =>
    (mem_or_eq_of_mem_set hmem).resolve_right hx'.symm
  refine ⟨h.running, fun hmem => h.stopping (hold hmem), fun hmem => h.started (hold hmem),
    fun hrun hsub => (h.owned hrun hsub).imp_left ?_⟩
  exact exists_set hx i

theorem Inv.setDisconnected (h : s.Inv) (i : Nat) :
    State.Inv { s with
      sessions := s.sessions.set i .disconnected
      stoppers := s.stoppers ++ [.check] } := by
  have hold : .connected true ∈ s.sessions.set i .disconnected → .connected true ∈ s.sessions :=
    fun hmem => (mem_or_eq_of_mem_set hmem).resolve_right Session.noConfusion
  refine ⟨h.running, fun hmem x hx => ?_, fun hmem => h.started (hold hmem), fun _ _ => ?_⟩
  · rcases mem_append.mp hx with hx | hx
    · exact h.stopping (hold hmem) x hx
    · exact mem_singleton.mp hx
  · exact .inr ⟨.check, mem_append_right _ (mem_singleton_self _), Stopper.noConfusion⟩

theorem alive_tryStartClipboard (h : s.running = true → ∃ t, s.Alive t) :
    ∃ t, s.tryStartClipboard.Alive t := by
  unfold State.tryStartClipboard
  split
  case isTrue hrun => exact h hrun
  case isFalse hrun =>
    exact ⟨s.loops.length, ⟨.check, []⟩, List.getElem?_concat_length, Phase.noConfusion⟩

theorem sessions_tryStartClipboard : s.tryStartClipboard.sessions = s.sessions := by
  unfold State.tryStartClipboard
  split <;> rfl

theorem stoppers_tryStartClipboard : s.tryStartClipboard.stoppers = s.stoppers := by
  unfold State.tryStartClipboard
  split <;> rfl

theorem Inv.tryStart (h : s.Inv) (hc : s.Calm) (hi : i < s.sessions.length) :
    State.Inv { s.tryStartClipboard with sessions := s.sessions.set i (.connected true) } := by
  refine ⟨fun _ => alive_tryStartClipboard h.running, fun _ x hx => ?_,
    fun _ => hc.tryStartClipboard, fun _ _ => .inl ?_⟩
  · have hold : x ∈ s.tryStartClipboard.stoppers := hx
    rw [stoppers_tryStartClipboard] at hold
    exact hc.1 x hold
  · exact ⟨.connected true, mem_set hi _, Session.noConfusion⟩

theorem Inv.tryStart_closing (h : s.Inv) (hi : s.sessions[i]? = some .closing) :
    s.tryStartClipboard.Inv := by
  refine ⟨fun _ => alive_tryStartClipboard h.running, fun hmem => ?_, fun hmem => ?_,
    fun _ _ => .inl ?_⟩
  · rw [sessions_tryStartClipboard] at hmem
    rw [stoppers_tryStartClipboard]
    exact h.stopping hmem
  · rw [sessions_tryStartClipboard] at hmem
    have hsound := h.started hmem
    rwa [State.tryStartClipboard, if_pos hsound.1]
  · rw [sessions_tryStartClipboard]
    exact ⟨.closing, mem_of_getElem? hi, Session.noConfusion⟩

theorem none_started (h : s.hasConnectedSessionsRunning = false) :
    .connected true ∉ s.sessions := by
  intro hmem
  exact absurd rfl (any_eq_false.mp h _ hmem)

theorem exists_of_hasConnected (h : s.hasConnectedSessionsRunning = true) :
    ∃ x ∈ s.sessions, x ≠ .disconnected := by
  obtain ⟨x, hx, hconnected⟩ := any_eq_true.mp h
  refine ⟨x, hx, ?_⟩
  rintro rfl
  cases hconnected

theorem alive_send (r : CallbackResult) (u : Nat) (h : s.Alive t) : (s.send u r).Alive t := by
  obtain ⟨x, hx, ha⟩ := h
  refine ⟨if u = t then { x with queue := x.queue ++ [r] } else x, ?_, ?_⟩
  · rw [send, List.getElem?_modify, hx]
    rfl
  · split <;> exact ha

theorem alive_unsubscribe (h : s.Alive t) : s.unsubscribe.Alive t := by
  unfold State.unsubscribe
  split
  case h_1 u _ => exact alive_send .stop u h
  case h_2 => exact h

theorem sessions_unsubscribe : s.unsubscribe.sessions = s.sessions := by
  unfold State.unsubscribe
  split <;> rfl

theorem running_unsubscribe : s.unsubscribe.running = s.running := by
  unfold State.unsubscribe
  split <;> rfl

theorem subscriber_unsubscribe : s.unsubscribe.subscriber = none := by
  unfold State.unsubscribe
  split
  case h_1 => rfl
  case h_2 hnone => exact hnone

theorem Inv.not_started (h : s.Inv) {x : Stopper} (hj : s.stoppers[j]? = some x)
    (hx : x ≠ .check) : .connected true ∉ s.sessions :=
  fun hmem => hx (h.stopping hmem x (mem_of_getElem? hj))

theorem Inv.tryStopClipboard (h : s.Inv) (j : Nat) : (s.tryStopClipboard j).Inv := by
  unfold State.tryStopClipboard
  split
  case h_1 hj =>
    split
    case isTrue hconnected =>
      refine ⟨h.running, fun hmem x hx => ?_, h.started, fun _ _ => ?_⟩
      · exact h.stopping hmem x (mem_of_mem_eraseIdx hx)
      · exact .inl (exists_of_hasConnected hconnected)
    case isFalse hnone =>
      have hnot := none_started (Bool.eq_false_iff.mpr hnone)
      refine ⟨h.running, fun hmem => absurd hmem hnot, h.started, fun _ _ => .inr ?_⟩
      exact ⟨.unsubscribe, mem_set (List.getElem?_eq_some_iff.mp hj).1 _, Stopper.noConfusion⟩
  case h_2 hj =>
    have hnot := h.not_started hj Stopper.noConfusion
    rw [← sessions_unsubscribe] at hnot
    refine ⟨fun hrun => ?_, fun hmem => absurd hmem hnot, fun hmem => absurd hmem hnot,
      fun _ hsub => absurd subscriber_unsubscribe hsub⟩
    obtain ⟨t, ha⟩ := h.running (running_unsubscribe ▸ hrun)
    exact ⟨t, alive_unsubscribe ha⟩
  case h_3 hj =>
    have hnot := h.not_started hj Stopper.noConfusion
    exact ⟨fun hrun => Bool.noConfusion hrun, fun hmem => absurd hmem hnot,
      fun hmem => absurd hmem hnot, fun hrun => Bool.noConfusion hrun⟩
  case h_4 => exact h

theorem Inv.onClipboardChange (h : s.Inv) : s.onClipboardChange.Inv := by
  have hsound := fun hmem => Sound.onClipboardChange (h.started hmem)
  unfold State.onClipboardChange at hsound ⊢
  split
  case h_1 t hsub =>
    simp only [hsub] at hsound
    refine ⟨fun hrun => ?_, h.stopping, hsound, h.owned⟩
    obtain ⟨u, ha⟩ := h.running hrun
    exact ⟨u, alive_send .next t ha⟩
  case h_2 => exact h

theorem Inv.set (h : s.Inv) {y : Loop} (ha : y.phase ≠ .exited)
    (hs : s.Sound → State.Sound { s with loops := s.loops.set t y }) :
    State.Inv { s with loops := s.loops.set t y } := by
  refine ⟨fun hrun => ?_, h.stopping, fun hmem => hs (h.started hmem), h.owned⟩
  obtain ⟨u, x, hx, hxa⟩ := h.running hrun
  by_cases htu : t = u
  · subst htu
    exact ⟨t, y, List.getElem?_set_self (List.getElem?_eq_some_iff.mp hx).1, ha⟩
  · exact ⟨u, x, (List.getElem?_set_ne htu).trans hx, hxa⟩

theorem Inv.loopThread (h : s.Inv) (t : Nat) : (s.loopThread t).Inv := by
  have hsound := fun hs : s.Sound => hs.loopThread t
  unfold State.loopThread at hsound ⊢
  cases hx : s.loops[t]? with
  | none => exact h
  | some x =>
    simp only [hx] at hsound ⊢
    cases hphase : x.phase with
    | check =>
      simp only [hphase] at hsound ⊢
      exact h.set (by split <;> exact Phase.noConfusion) hsound
    | receive =>
      simp only [hphase] at hsound ⊢
      refine h.set ?_ hsound
      unfold received
      split
      case h_1 | h_2 => exact Phase.noConfusion
      case h_3 => split <;> exact Phase.noConfusion
    | leave =>
      simp only [hphase] at hsound ⊢
      exact ⟨fun hrun => Bool.noConfusion hrun, h.stopping, fun hmem => hsound (h.started hmem),
        fun hrun => Bool.noConfusion hrun⟩
    | exited => exact h

theorem inv_step (h : s.Inv) (i : Input) (hm : s.Meets i) : (s.step i).Inv := by
  cases i with
  | newRound i => exact h.setSession Session.noConfusion Session.noConfusion i
  | setConnected i =>
    simp only [step]
    split
    case isTrue => exact h.setSession Session.noConfusion (by simp) i
    case isFalse => exact h
  | tryStart i =>
    simp only [step]
    split
    case h_1 b hi => exact h.tryStart (hm ⟨b, hi⟩) (List.getElem?_eq_some_iff.mp hi).1
    case h_2 hi => exact h.tryStart_closing hi
    case h_3 => exact h
  | close i =>
    simp only [step]
    split
    case h_1 => exact h.setSession Session.noConfusion Session.noConfusion i
    case h_2 => exact h
  | setDisconnected i =>
    simp only [step]
    split
    case h_1 | h_2 => exact h
    case h_3 => exact h.setDisconnected i
  | stopper j => exact h.tryStopClipboard j
  | loop t => exact h.loopThread t
  | change => exact h.onClipboardChange

theorem Inv.good (h : s.Inv) : s.Good where
  kept _ hmem := by
    have hsound : s.Sound := h.started hmem
    obtain ⟨t, x, hx, ha⟩ := h.running hsound.1
    have hsub := (hsound.alive hx ha).1
    refine ⟨hsound.1, t, hsub, fun u => ⟨?_, ?_⟩⟩
    · rintro ⟨y, hy, hya⟩
      exact Option.some.inj ((hsound.alive hy hya).1.symm.trans hsub)
    · rintro rfl
      exact ⟨x, hx, ha⟩
  ended hstop hover t := by
    by_cases ha : s.Alive t
    · -- no session and no stop is left that the loop could be waiting for
      obtain ⟨x, hx, hxa⟩ := ha
      refine Ending.exits ⟨x, hx, hxa, .inr (.inr ?_)⟩
      by_contra hends
      obtain ⟨hsub, hrun⟩ := not_or.mp hends
      have hsome : s.subscriber ≠ none := by
        rw [not_ne_iff.mp hsub]
        exact Option.some_ne_none t
      rcases h.owned (Bool.not_eq_false _ ▸ hrun) hsome with ⟨y, hy, hne⟩ | ⟨y, hy, -⟩
      · exact hne (hover y hy)
      · exact absurd (hstop ▸ hy) not_mem_nil
    · exact ⟨0, ha⟩

/-- **A connected session that started the loop has it, and without sessions none stays alive, in
every run in which no connected session starts the loop while it is being stopped or is about to
end.** -/
theorem loop_kept (n : Nat) {is : List Input} (h : Along step Meets (start n) is) :
    Always step Good (start n) is := by
  have hinv : Always step Inv (start n) is :=
    always_of_along (fun _ i hi hm => inv_step hi i hm) (inv_start n) h
  exact fun pre hpre => (hinv pre hpre).good

/-- A session starts the loop, a second one is logged in while it runs, and the first is over. -/
theorem second_session_keeps : Always step Good (start 2)
    [.newRound 0, .setConnected 0, .tryStart 0, .loop 0, .newRound 1, .setConnected 1,
      .tryStart 1, .setDisconnected 0, .stopper 0] :=
  loop_kept 2 (by decide)

/-- The last session is over and a new one is logged in between the first two sections of the
stop: it finds the loop running, which then ends. -/
theorem loop_lost : ¬(exec step (start 2)
    [.newRound 0, .setConnected 0, .tryStart 0, .loop 0, .setDisconnected 0, .stopper 0,
      .newRound 1, .setConnected 1, .tryStart 1, .stopper 0, .stopper 0, .loop 0,
      .loop 0]).Good := by
  intro h
  have hrun := (h.kept (by decide) (by decide)).1
  cases hrun

end State
end RustDesk.ClipboardLoop
