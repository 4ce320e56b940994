import RustDesk.KeyboardProxy.Moves
import RustDesk.Lib.Run

/-!
# The two ends of the keyboard proxy

A controller follows the manager by the states it is sent, and runs ahead of it when the user
presses the keyboard button.  The call that goes with that either changes the state of the
manager or is answered with the state as it is, so that in the end the two agree, provided
the answer reaches the engine the keyboard belongs to.

The manager sends to the channel it was given last, and a `prepare` or an `open` of another
engine gives it that engine's channel even when the keyboard is in use.  From then on the
engine it belongs to hears nothing.  **As long as no other engine calls `prepare` or `open`
while the proxy is in use, the ends agree whenever no message is under way** (`ends_agree`).
-/

namespace RustDesk.KeyboardProxy

open List

namespace Engine

def states (x : Engine) : List Snapshot :=
  x.inbox.filterMap fun
    | .state v => some v
    | .input .. => none

def upcoming (x : Engine) : Snapshot := x.states.getLast?.getD x.controller.value

def requestIds (x : Engine) : List Nat :=
  x.controller.value.requestId :: x.states.map (·.requestId)

def sent (x : Engine) (v : Snapshot) : Engine := { x with inbox := x.inbox ++ [.state v] }

@[simp] theorem states_sent (x : Engine) (v : Snapshot) : (x.sent v).states = x.states ++ [v] := by
  simp [states, sent]

@[simp] theorem upcoming_sent (x : Engine) (v : Snapshot) : (x.sent v).upcoming = v := by
  simp [upcoming]

theorem requestIds_sent (x : Engine) (v : Snapshot) :
    (x.sent v).requestIds = x.requestIds ++ [v.requestId] := by
  simp [requestIds]
  rfl

end Engine

def Call.takesChannel : Call → Bool
  | .openProxy _ | .prepare => true
  | .close _ | .release => false

namespace System

/-- No call and no message is on its way. -/
def Quiet (s : System) : Prop := ∀ e, (s.engines e).calls = [] ∧ (s.engines e).inbox = []

/-- **The ends agree**: when no message is under way, the engine whose open was accepted last
shows the state and the request of the manager, or was reset and is hidden; and no controller
opens or closes while the manager is hidden. -/
def EndsAgree (s : System) : Prop :=
  s.Quiet →
    (∀ e, s.lastAccepted = some e →
      ((s.engines e).controller.value.state = s.manager.state ∧
        (s.engines e).controller.value.requestId = s.manager.requestId) ∨
      ((s.engines e).wasReset = true ∧ (s.engines e).controller.value.state = .hidden)) ∧
    (s.manager.state = .hidden → ∀ e, (s.engines e).controller.value.isTransitioning = false)

/-- The steps that leave the channel to the engine the keyboard belongs to: while the proxy is
not hidden, no `prepare` or `open` arrives from another engine than the one whose open was
accepted last. -/
def Steady (s : System) : Event → Prop
  | .receive e _ _ => s.manager.state = .hidden ∨ s.lastAccepted = some e ∨
      ∀ c ∈ (s.engines e).calls.head?, c.takesChannel = false
  | _ => True

instance decidableSteady (s : System) : ∀ ev, Decidable (s.Steady ev)
  | .receive .. => inferInstanceAs (Decidable (_ ∨ _ ∨ _))
  | .openKeyboard .. | .openKeyboardUnlocked _ | .call .. | .reset _ | .setSession ..
  | .deliver _ | .openTimeout | .activate _ | .create .. | .reportImeInsets ..
  | .onBackPressed _ | .hideTimeout _ | .onDestroy _ | .onTextChanged .. | .onKey ..
  | .onDisplayRemoved _ | .onDisplayChanged .. | .release _ => isTrue trivial

def target (s : System) (e : Nat) : ProxyState :=
  if s.lastAccepted = some e then s.manager.state else .hidden

def Shows (s : System) (e : Nat) (v : Snapshot) : Prop :=
  v.state = s.target e ∧ (s.lastAccepted = some e → v.requestId = s.manager.requestId)

/-- No state is under way to the engine, and it was reset, or opens or closes the keyboard and
its call is under way. -/
def Awaits (s : System) (e : Nat) (x : Engine) : Prop :=
  x.states = [] ∧
    ((x.wasReset = true ∧ x.controller.value.state = .hidden) ∨
    (x.controller.value.state = .opening ∧ ∃ sessionId, .openProxy sessionId ∈ x.calls) ∨
    (x.controller.value.state = .closing ∧ .close (some s.manager.requestId) ∈ x.calls ∧
      s.manager.state ≠ .hidden ∧ s.lastAccepted = some e))

def Follows (s : System) (e : Nat) (x : Engine) : Prop := s.Shows e x.upcoming ∨ s.Awaits e x

structure Numbered (s : System) : Prop where
  channel : s.manager.state ≠ .hidden → ∃ e, s.manager.channel = some e ∧ s.lastAccepted = some e
  issued : s.manager.requestId ≤ s.manager.requestIds
  sorted : ∀ e, (s.engines e).requestIds.Pairwise (· ≤ ·)
  bounded : ∀ e, ∀ n ∈ (s.engines e).requestIds, n ≤ s.manager.requestId

/-- **The invariant.** -/
structure Coherent (s : System) : Prop extends Numbered s where
  follows : ∀ e, s.Follows e (s.engines e)

variable {s : System}

theorem Coherent.endsAgree (h : s.Coherent) : s.EndsAgree := by
  intro hquiet
  have hsettled : ∀ e, s.Shows e (s.engines e).controller.value ∨
      ((s.engines e).wasReset = true ∧ (s.engines e).controller.value.state = .hidden) := by
    intro e
    obtain ⟨hcalls, hinbox⟩ := hquiet e
    have hstates : (s.engines e).states = [] := by rw [Engine.states, hinbox]; rfl
    rcases h.follows e with hshows | ⟨-, hreset | ⟨-, sessionId, hopen⟩ | ⟨-, hclose, -⟩⟩
    · left
      rw [Engine.upcoming, hstates] at hshows
      exact hshows
    · exact .inr hreset
    · rw [hcalls] at hopen
      cases hopen
    · rw [hcalls] at hclose
      cases hclose
  refine ⟨fun e he => ?_, fun hhidden e => ?_⟩
  · rcases hsettled e with ⟨hstate, hrequest⟩ | hreset
    · rw [target, if_pos he] at hstate
      exact .inl ⟨hstate, hrequest he⟩
    · exact .inr hreset
  · have hstate : (s.engines e).controller.value.state = .hidden := by
      rcases hsettled e with ⟨hstate, -⟩ | ⟨-, hstate⟩
      · rw [hstate, target, hhidden, ite_self]
      · exact hstate
    simp [Snapshot.isTransitioning, hstate]

theorem Numbered.publish (h : s.Numbered) (reason : String)
    (hchannel : ∀ e, s.manager.channel = some e → s.manager.state = s.target e)
    (hothers : ∀ e, s.manager.channel ≠ some e → s.Follows e (s.engines e)) :
    (s.publishState reason).Coherent := by
  have hengine : ∀ e, (s.publishState reason).engines e =
      if s.manager.channel = some e then (s.engines e).sent (s.payload reason)
      else s.engines e := s.publishState_engines reason
  refine ⟨⟨?_, ?_, fun e => ?_, fun e n hn => ?_⟩, fun e => ?_⟩
  · simpa using h.channel
  · simpa using h.issued
  · rw [hengine]
    split
    · rw [Engine.requestIds_sent, pairwise_append]
      refine ⟨h.sorted e, pairwise_singleton .., fun n hn m hm => ?_⟩
      rw [mem_singleton.mp hm]
      exact h.bounded e n hn
    · exact h.sorted e
  · rw [publishState_manager]
    rw [hengine] at hn
    split at hn
    · rw [Engine.requestIds_sent] at hn
      rcases mem_append.mp hn with hold | hnew
      · exact h.bounded e n hold
      · rw [mem_singleton.mp hnew]
        exact Nat.le_refl _
    · exact h.bounded e n hn
  · have htarget : (s.publishState reason).target e = s.target e := by simp [target]
    by_cases he : s.manager.channel = some e
    · left
      rw [hengine, if_pos he, Engine.upcoming_sent, Shows, htarget, publishState_manager]
      exact ⟨hchannel e he, fun _ => rfl⟩
    · have hsame : (s.publishState reason).engines e = s.engines e := by
        rw [hengine, if_neg he]
      rw [Follows, Shows, Awaits, hsame, htarget, publishState_lastAccepted, publishState_manager]
      exact hothers e he

theorem Numbered.enter (h : s.Numbered) (state : ProxyState) (reason : String)
    (hstate : state = .hidden ∨ s.manager.state ≠ .hidden)
    (hothers : ∀ e, s.manager.channel ≠ some e → s.Follows e (s.engines e)) :
    (s.enter state reason).Coherent := by
  have hused : state ≠ .hidden → s.manager.state ≠ .hidden := fun hne =>
    hstate.resolve_left hne
  apply Numbered.publish
  · exact ⟨fun hne => h.channel (hused hne), h.issued, h.sorted, h.bounded⟩
  · intro e he
    unfold target
    split
    case isTrue => rfl
    case isFalse hne =>
      by_contra hnot
      obtain ⟨c, hc, hlast⟩ := h.channel (hused hnot)
      obtain rfl : c = e := Option.some.inj (hc.symm.trans he)
      exact hne hlast
  · intro e he
    have hunused : s.lastAccepted = some e → s.manager.state = .hidden ∧ state = .hidden := by
      intro hlast
      have hhidden : s.manager.state = .hidden := by
        by_contra hne
        obtain ⟨c, hc, hlast'⟩ := h.channel hne
        rw [hlast] at hlast'
        exact he (hc.trans hlast'.symm)
      exact ⟨hhidden, hstate.resolve_right (not_not.mpr hhidden)⟩
    rcases hothers e he with ⟨hshown, hrequest⟩ | ⟨hstates, hreset | hopening | ⟨-, -, hin, hlast⟩⟩
    · refine .inl ⟨?_, hrequest⟩
      rw [hshown]
      unfold target
      split
      case isTrue hlast =>
        obtain ⟨hhidden, hnew⟩ := hunused hlast
        rw [hhidden, hnew]
      case isFalse => rfl
    · exact .inr ⟨hstates, .inl hreset⟩
    · exact .inr ⟨hstates, .inr (.inl hopening)⟩
    · exact absurd (hunused hlast).1 hin

theorem Coherent.frame {s s' : System} (h : s.Coherent)
    (hstate : s'.manager.state = s.manager.state)
    (hrequest : s'.manager.requestId = s.manager.requestId)
    (hrequests : s'.manager.requestIds = s.manager.requestIds)
    (hchannel : s'.manager.channel = s.manager.channel)
    (hengines : s'.engines = s.engines) (hlast : s'.lastAccepted = s.lastAccepted) :
    s'.Coherent := by
  obtain ⟨⟨hc, hi, hs, hb⟩, hf⟩ := h
  unfold Follows Shows Awaits target at hf
  rw [← hengines] at hs hb hf
  rw [← hstate, ← hlast, ← hrequest] at hf
  exact ⟨⟨by rw [hstate, hchannel, hlast]; exact hc, by rw [hrequest, hrequests]; exact hi, hs,
    by rw [hrequest]; exact hb⟩, hf⟩

theorem Numbered.finishHidden (h : s.Numbered) (reason : String)
    (hothers : ∀ e, s.manager.channel ≠ some e → s.Follows e (s.engines e)) :
    (s.finishHidden reason false).Coherent := by
  have hstopped : Numbered { s with manager := { s.manager with openTimeout := false } } :=
    ⟨h.channel, h.issued, h.sorted, h.bounded⟩
  have hentered := hstopped.enter .hidden reason (.inl rfl) hothers
  have hstate : (s.finishHidden reason false).manager.state = .hidden := by simp
  exact ⟨⟨fun hne => absurd hstate hne, hentered.issued, hentered.sorted, hentered.bounded⟩,
    hentered.follows⟩

theorem Numbered.startClosing (h : s.Numbered) (hstate : s.manager.state ≠ .hidden)
    (reason : String) (hothers : ∀ e, s.manager.channel ≠ some e → s.Follows e (s.engines e)) :
    (s.startClosing reason).Coherent :=
  (h.enter .closing reason (.inr hstate) hothers).frame rfl rfl rfl rfl rfl rfl

variable {e : Nat}

theorem Numbered.announce (h : s.Numbered) (sessionId : String)
    (d : Displays) (hstate : s.manager.state = .hidden)
    (hothers : ∀ e', e' ≠ e → s.Follows e' (s.engines e')) :
    (s.announce e sessionId d).Coherent := by
  have hnumbered : (s.request e sessionId d).Numbered := by
    refine ⟨fun _ => ⟨e, rfl, rfl⟩, Nat.le_refl _, h.sorted, fun e' n hn => ?_⟩
    exact Nat.le_succ_of_le (Nat.le_trans (h.bounded e' n hn) h.issued)
  have hpublished : ((s.request e sessionId d).publishState "open_requested").Coherent := by
    apply hnumbered.publish
    · exact fun e' he' => (if_pos he').symm
    · intro e' he'
      have hne : e' ≠ e := fun heq => he' (heq ▸ rfl)
      rcases hothers e' hne with ⟨hshown, -⟩ | ⟨hstates, hreset | hopening | ⟨-, -, hused, -⟩⟩
      · left
        refine ⟨?_, fun hlast => absurd hlast he'⟩
        have hother : (s.request e sessionId d).target e' = .hidden := if_neg he'
        have hidle : s.target e' = .hidden := by rw [target, hstate, ite_self]
        exact hshown.trans (hidle.trans hother.symm)
      · exact .inr ⟨hstates, .inl hreset⟩
      · exact .inr ⟨hstates, .inr (.inl hopening)⟩
      · exact absurd hstate hused
  exact hpublished.frame rfl rfl rfl rfl rfl rfl

variable {x : Engine}

theorem Coherent.setEngine (h : s.Coherent) (e : Nat) (hsorted : x.requestIds.Pairwise (· ≤ ·))
    (hbounded : ∀ n ∈ x.requestIds, n ≤ s.manager.requestId) (hfollows : s.Follows e x) :
    (s.setEngine e x).Coherent := by
  refine ⟨⟨h.channel, h.issued, fun e' => ?_, fun e' n hn => ?_⟩, fun e' => ?_⟩
  · by_cases he : e' = e
    · subst he
      rw [setEngine_self]
      exact hsorted
    · rw [setEngine_of_ne s he]
      exact h.sorted e'
  · by_cases he : e' = e
    · subst he
      rw [setEngine_self] at hn
      exact hbounded n hn
    · rw [setEngine_of_ne s he] at hn
      exact h.bounded e' n hn
  · by_cases he : e' = e
    · subst he
      rw [setEngine_self]
      exact hfollows
    · rw [setEngine_of_ne s he]
      exact h.follows e'

theorem Coherent.setEngine_of_same (h : s.Coherent) (e : Nat)
    (hvalue : x.controller.value = (s.engines e).controller.value)
    (hstates : x.states = (s.engines e).states) (hreset : x.wasReset = (s.engines e).wasReset)
    (hcalls : (s.engines e).calls ⊆ x.calls) : (s.setEngine e x).Coherent := by
  have hids : x.requestIds = (s.engines e).requestIds := by
    rw [Engine.requestIds, Engine.requestIds, hvalue, hstates]
  have hupcoming : x.upcoming = (s.engines e).upcoming := by
    rw [Engine.upcoming, Engine.upcoming, hvalue, hstates]
  refine h.setEngine e (hids ▸ h.sorted e) (hids ▸ h.bounded e) ?_
  rcases h.follows e with hshows | ⟨hnone, hreset' | ⟨hopening, sessionId, hopen⟩ |
    ⟨hclosing, hclose, hused⟩⟩
  · exact .inl (hupcoming ▸ hshows)
  · exact .inr ⟨hstates.trans hnone, .inl (by rw [hvalue, hreset]; exact hreset')⟩
  · exact .inr ⟨hstates.trans hnone, .inr (.inl ⟨by rw [hvalue]; exact hopening, sessionId,
      hcalls hopen⟩)⟩
  · exact .inr ⟨hstates.trans hnone, .inr (.inr ⟨by rw [hvalue]; exact hclosing, hcalls hclose,
      hused⟩)⟩

theorem Coherent.input (h : s.Coherent) (e requestId : Nat) (sessionId : String)
    (input : Input) (ticket : Nat) :
    (s.invokeMethod e (.input requestId sessionId input ticket)).Coherent :=
  h.setEngine_of_same e rfl (by simp [Engine.states]) rfl (List.Subset.refl _)

theorem Move.coherent {s s' : System} (hmove : Move s s') (h : s.Coherent) : s'.Coherent := by
  cases hmove with
  | silent => exact h.frame rfl rfl rfl rfl rfl rfl
  | closing reason hstate =>
    exact h.toNumbered.enter .closing reason (.inr hstate) fun e _ => h.follows e
  | visible reason hstate =>
    have hshown : Coherent { s with shown := s.shown ++ [s.manager.requestId] } :=
      h.frame rfl rfl rfl rfl rfl rfl
    have hused : s.manager.state ≠ .hidden := fun hhidden =>
      absurd (hstate.symm.trans hhidden) nofun
    exact hshown.toNumbered.enter .visible reason (.inr hused) fun e _ => hshown.follows e
  | hidden reason => exact h.toNumbered.finishHidden reason fun e _ => h.follows e
  | typed a x input hx hfocus =>
    have hrecord : (s.record a x input).Coherent := h.frame rfl rfl rfl rfl rfl rfl
    rcases commit_cases (s.record a x input) x.requestId x.sessionId input s.typed.length with
      heq | ⟨-, -, -, e, heq⟩
    · rw [heq]
      exact hrecord
    · rw [heq]
      exact hrecord.input ..

theorem Moves.coherent {s s' : System} (hmoves : Moves s s') (h : s.Coherent) : s'.Coherent :=
  hmoves.keeps (fun _ _ hmove => hmove.coherent) h

theorem Follows.ahead {x y : Engine} (h : s.Follows e x)
    (hsome : x.states ≠ []) (hstates : y.states = x.states) : s.Follows e y := by
  rcases h with hshows | ⟨hnone, -⟩
  · obtain ⟨v, hv⟩ := Option.isSome_iff_exists.mp (List.getLast?_isSome.mpr hsome)
    rw [Engine.upcoming, hv] at hshows
    left
    rw [Engine.upcoming, hstates, hv]
    exact hshows
  · exact absurd hnone hsome

/-- **The user opens the keyboard**: the controller opens, and its call is under way. -/
theorem Coherent.openKeyboardUnlocked (h : s.Coherent) (e : Nat) :
    (s.openKeyboardUnlocked e).Coherent := by
  rcases openKeyboardUnlocked_cases s e with heq | ⟨hstate, heq⟩
  · rw [heq]
    exact h
  · have hbegun : ((s.engines e).controller.tryBeginOpen (s.engines e).sessionId).1 =
        ⟨{ (s.engines e).controller.value with
          state := .opening, reason := "local_open_requested" }, (s.engines e).sessionId⟩ := by
      simp [Controller.tryBeginOpen, hstate]
    rw [heq, hbegun]
    refine h.setEngine e (h.sorted e) (h.bounded e) ?_
    by_cases hnone : (s.engines e).states = []
    · exact .inr ⟨hnone, .inr (.inl ⟨rfl, _, mem_append_right _ (mem_singleton.mpr rfl)⟩)⟩
    · exact (h.follows e).ahead hnone rfl

/-- **The user closes the keyboard**: it is the keyboard of this engine, and the call names its
request. -/
theorem Coherent.openKeyboard (h : s.Coherent) (e : Nat) (closeIntent : Option Bool)
    (prompt : Bool) : (s.openKeyboard e closeIntent prompt).Coherent := by
  rcases openKeyboard_cases s e closeIntent prompt with heq | ⟨hstate, heq⟩ | heq
  · rw [heq]
    exact h
  · have hbegun : (s.engines e).controller.tryBeginClose.1 =
        { (s.engines e).controller with value := { (s.engines e).controller.value with
          state := .closing, reason := "local_close_requested" } } := by
      simp [Controller.tryBeginClose, hstate]
    rw [heq, hbegun]
    refine h.setEngine e (h.sorted e) (h.bounded e) ?_
    by_cases hnone : (s.engines e).states = []
    · rcases h.follows e with ⟨hshown, hrequest⟩ | ⟨-, ⟨-, hother⟩ | ⟨hother, -⟩ | ⟨hother, -⟩⟩
      · rw [Engine.upcoming, hnone] at hshown hrequest
        have hvisible : s.target e = .visible := hshown.symm.trans hstate
        have hlast : s.lastAccepted = some e := by
          by_contra hne
          rw [target, if_neg hne] at hvisible
          cases hvisible
        rw [target, if_pos hlast] at hvisible
        refine .inr ⟨hnone, .inr (.inr ⟨rfl, ?_, ?_, hlast⟩)⟩
        · rw [← hrequest hlast]
          exact mem_append_right _ (mem_singleton.mpr rfl)
        · exact fun hhidden => absurd (hvisible.symm.trans hhidden) nofun
      · exact absurd (hstate.symm.trans hother) nofun
      · exact absurd (hstate.symm.trans hother) nofun
      · exact absurd (hstate.symm.trans hother) nofun
    · exact (h.follows e).ahead hnone rfl
  · rw [heq]
    exact h.openKeyboardUnlocked e

theorem Coherent.reset (h : s.Coherent) (e : Nat) : (s.reset e).Coherent := by
  have hsorted := h.sorted e
  rw [Engine.requestIds, pairwise_cons] at hsorted
  refine h.setEngine e ?_ (fun n hn => ?_) ?_
  · exact pairwise_cons.mpr ⟨fun n _ => Nat.zero_le n, hsorted.2⟩
  · rcases mem_cons.mp hn with hzero | hold
    · rw [hzero]
      exact Nat.zero_le _
    · exact h.bounded e n (mem_cons_of_mem _ hold)
  · by_cases hnone : (s.engines e).states = []
    · exact .inr ⟨hnone, .inl ⟨rfl, rfl⟩⟩
    · exact (h.follows e).ahead hnone rfl

theorem Coherent.deliver (h : s.Coherent) (e : Nat) : (s.deliver e).Coherent := by
  rcases deliver_cases s e with heq | ⟨m, rest, hinbox, heq⟩
  · rw [heq]
    exact h
  · rw [heq]
    rcases handle_cases (s.setEngine e { s.engines e with inbox := rest }) e m with
      ⟨v, rfl, hhandled⟩ | ⟨requestId, sessionId, input, ticket, rfl, hhandled⟩
    · have hstates : (s.engines e).states =
          v :: Engine.states { s.engines e with inbox := rest } := by
        simp [Engine.states, hinbox]
      have hsorted := h.sorted e
      have hbounded := h.bounded e
      rw [Engine.requestIds, hstates, map_cons, pairwise_cons] at hsorted
      rw [Engine.requestIds, hstates, map_cons] at hbounded
      have hnotolder : ¬v.requestId < (s.engines e).controller.value.requestId :=
        Nat.not_lt.mpr (hsorted.1 _ mem_cons_self)
      have htaken : ((s.engines e).controller.handleState v).value = v := by
        rw [Controller.handleState, if_neg hnotolder]
      rw [hhandled, setEngine_self, setEngine_setEngine]
      refine h.setEngine e ?_ (fun n hn => ?_) ?_
      · rw [Engine.requestIds, htaken]
        exact hsorted.2
      · rw [Engine.requestIds, htaken] at hn
        exact hbounded n (mem_cons_of_mem _ hn)
      · rcases h.follows e with hshows | ⟨hnone, -⟩
        · left
          rw [Engine.upcoming, hstates, List.getLast?_cons] at hshows
          rw [Engine.upcoming, htaken]
          exact hshows
        · rw [hstates] at hnone
          cases hnone
    · have hrest : (s.setEngine e { s.engines e with inbox := rest }).Coherent :=
        h.setEngine_of_same e rfl (by simp [Engine.states, hinbox]) rfl (List.Subset.refl _)
      rcases hhandled with hsame | ⟨-, hpassed⟩
      · rw [hsame]
        exact hrest
      · rw [hpassed]
        exact hrest.frame rfl rfl rfl rfl rfl rfl

theorem Follows.taken (h : s.Follows e x) {c : Call}
    {rest : List Call} (hcalls : x.calls = c :: rest) :
    s.Follows e { x with calls := rest } ∨ (∃ sessionId, c = .openProxy sessionId) ∨
      (c = .close (some s.manager.requestId) ∧ s.manager.state ≠ .hidden ∧
        s.lastAccepted = some e) := by
  rcases h with hshows | ⟨hnone, hreset | ⟨hopening, sessionId, hopen⟩ | ⟨hclosing, hclose, hused⟩⟩
  · exact .inl (.inl hshows)
  · exact .inl (.inr ⟨hnone, .inl hreset⟩)
  · rw [hcalls] at hopen
    rcases mem_cons.mp hopen with hhead | hrest
    · exact .inr (.inl ⟨sessionId, hhead.symm⟩)
    · exact .inl (.inr ⟨hnone, .inr (.inl ⟨hopening, sessionId, hrest⟩)⟩)
  · rw [hcalls] at hclose
    rcases mem_cons.mp hclose with hhead | hrest
    · exact .inr (.inr ⟨hhead.symm, hused⟩)
    · exact .inl (.inr ⟨hnone, .inr (.inr ⟨hclosing, hrest, hused⟩)⟩)

theorem Numbered.openProxy (h : s.Numbered) (sessionId : String) (d : Displays) (launched : Bool)
    (howner : s.manager.state = .hidden ∨ s.lastAccepted = some e)
    (hothers : ∀ e', e' ≠ e → s.Follows e' (s.engines e')) :
    (s.openProxy e sessionId d launched).Coherent := by
  by_cases hstate : s.manager.state = .hidden
  · exact (openProxy_moves hstate).coherent (h.announce sessionId d hstate hothers)
  · have hlast := howner.resolve_left hstate
    have heq : s.openProxy e sessionId d launched =
        (s.prepare e).publishState "open_rejected_busy" := if_pos hstate
    have hprepared : (s.prepare e).Numbered :=
      ⟨fun _ => ⟨e, rfl, hlast⟩, h.issued, h.sorted, h.bounded⟩
    rw [heq]
    apply hprepared.publish
    · intro e' he'
      obtain rfl : e = e' := Option.some.inj he'
      exact (if_pos hlast).symm
    · exact fun e' he' => hothers e' fun hsame => he' (hsame ▸ rfl)

theorem Numbered.close (h : s.Numbered) (reason : String) (expected : Option Nat)
    (hothers : ∀ e, s.manager.channel ≠ some e → s.Follows e (s.engines e))
    (hignored : expected.any (· ≠ s.manager.requestId) = true ∨ s.manager.state = .hidden →
      s.Coherent) : (s.close reason expected).Coherent := by
  rcases close_cases s reason expected with
    ⟨hignore, heq⟩ | ⟨hstate, ⟨a, -, heq⟩ | ⟨-, heq⟩⟩
  · rw [heq]
    exact hignored hignore
  · rw [heq]
    exact (modify_move a fun x _ => x.hideIme_genuine reason).coherent
      (h.startClosing hstate reason hothers)
  · rw [heq]
    exact (Move.hidden _ reason).coherent (h.startClosing hstate reason hothers)

theorem Coherent.receive (h : s.Coherent) (e : Nat) (d : Displays) (launched : Bool)
    (hsteady : s.Steady (.receive e d launched)) : (s.receive e d launched).Coherent := by
  unfold System.receive
  split
  case h_2 => exact h
  case h_1 c rest hcalls =>
    have hnumbered : (s.setEngine e { s.engines e with calls := rest }).Numbered := by
      refine ⟨h.channel, h.issued, fun e' => ?_, fun e' n hn => ?_⟩
      · by_cases he : e' = e
        · subst he
          rw [setEngine_self]
          exact h.sorted e'
        · rw [setEngine_of_ne s he]
          exact h.sorted e'
      · by_cases he : e' = e
        · subst he
          rw [setEngine_self] at hn
          exact h.bounded e' n hn
        · rw [setEngine_of_ne s he] at hn
          exact h.bounded e' n hn
    have hothers : ∀ e', e' ≠ e → (s.setEngine e { s.engines e with calls := rest }).Follows e'
        ((s.setEngine e { s.engines e with calls := rest }).engines e') := by
      intro e' he
      rw [setEngine_of_ne s he]
      exact h.follows e'
    have hwhole : s.Follows e { s.engines e with calls := rest } →
        (s.setEngine e { s.engines e with calls := rest }).Coherent :=
      h.setEngine e (h.sorted e) (h.bounded e)
    have howner : c.takesChannel = true → s.manager.state = .hidden ∨ s.lastAccepted = some e := by
      intro htakes
      rcases hsteady with hhidden | hlast | hkeeps
      · exact .inl hhidden
      · exact .inr hlast
      · rw [hcalls] at hkeeps
        exact absurd (htakes.symm.trans (hkeeps c rfl)) nofun
    have htaken := (h.follows e).taken hcalls
    have hkept : c = .prepare ∨ c = .release → s.Follows e { s.engines e with calls := rest } := by
      intro hplain
      rcases htaken with hkept | ⟨_, rfl⟩ | ⟨rfl, -⟩
      · exact hkept
      · rcases hplain with hplain | hplain <;> cases hplain
      · rcases hplain with hplain | hplain <;> cases hplain
    cases c with
    | openProxy sessionId =>
      exact hnumbered.openProxy sessionId d launched (howner rfl) hothers
    | prepare =>
      have hcoherent := hwhole (hkept (.inl rfl))
      refine ⟨⟨fun hused => ⟨e, rfl, (howner rfl).resolve_left hused⟩, hcoherent.issued,
        hcoherent.sorted, hcoherent.bounded⟩, hcoherent.follows⟩
    | close expected =>
      refine hnumbered.close "close_requested" expected (fun e' he' => ?_) fun hignored => ?_
      · by_cases he : e' = e
        · subst he
          rw [setEngine_self]
          rcases htaken with hkept | ⟨_, hopen⟩ | ⟨-, hused, hlast⟩
          · exact hkept
          · cases hopen
          · obtain ⟨c, hc, hlast'⟩ := h.channel hused
            rw [hlast] at hlast'
            exact absurd (hc.trans hlast'.symm) he'
        · exact hothers e' he
      · rcases htaken with hkept | ⟨_, hopen⟩ | ⟨hclose, hused, -⟩
        · exact hwhole hkept
        · cases hopen
        · obtain rfl : expected = some s.manager.requestId := Call.close.inj hclose
          rcases hignored with hother | hhidden
          · simp at hother
            exact absurd rfl hother
          · exact absurd hhidden hused
    | release =>
      exact (release_moves "release_requested").coherent (hwhole (hkept (.inr rfl)))

theorem Coherent.step (h : s.Coherent) {ev : Event} (hsteady : s.Steady ev) :
    (s.step ev).Coherent := by
  cases hnative : ofEngine ev with
  | false => exact (step_moves hnative).coherent h
  | true =>
    cases ev with
    | openKeyboard e closeIntent prompt => exact h.openKeyboard e closeIntent prompt
    | openKeyboardUnlocked e => exact h.openKeyboardUnlocked e
    | call e c => exact h.setEngine_of_same e rfl rfl rfl (subset_append_left ..)
    | reset e => exact h.reset e
    | setSession e sessionId => exact h.setEngine_of_same e rfl rfl rfl (List.Subset.refl _)
    | deliver e => exact h.deliver e
    | receive e d launched => exact h.receive e d launched hsteady
    | _ => cases hnative

theorem init_coherent (sessions : Nat → String) : (init sessions).Coherent where
  channel := fun hused => absurd rfl hused
  issued := Nat.le_refl 0
  sorted := fun _ => pairwise_singleton ..
  bounded := fun _ n hn => by rw [mem_singleton.mp hn]; exact Nat.le_refl 0
  follows := fun e => .inl ⟨by simp [target, init, Engine.upcoming, Engine.states,
    Controller.reset, Snapshot.default], nofun⟩

/-- **The two ends agree** in every state of a run in which no other engine calls `prepare` or
`open` while the proxy is in use. -/
theorem ends_agree (sessions : Nat → String) (events : List Event)
    (hsteady : Run.Along step Steady (init sessions) events) :
    Run.Always step EndsAgree (init sessions) events := by
  have hcoherent : Run.Always step Coherent (init sessions) events :=
    Run.always_of_along (fun _ _ h hev => h.step hev) (init_coherent sessions) hsteady
  exact fun pre hpre => (hcoherent pre hpre).endsAgree

/-- An engine opens the keyboard and closes it; another opens it then, and resets. -/
theorem ends_agree_two_engines : Run.Always step EndsAgree (init fun _ => "session")
    [.openKeyboard 0 none false, .receive 0 ⟨0, [(1, true)]⟩ true, .create ⟨1, "session", 1⟩ 1,
      .activate 0, .reportImeInsets 0 true, .deliver 0, .deliver 0, .openKeyboard 0 none false,
      .receive 0 ⟨0, []⟩ true, .reportImeInsets 0 false, .deliver 0, .deliver 0,
      .openKeyboard 1 none false, .receive 1 ⟨0, [(1, true)]⟩ true, .reset 1, .deliver 1] :=
  ends_agree _ _ (by decide +kernel)

/-- **Another engine takes the channel**: its open is rejected while the keyboard of the first
is visible.  From then on the first hears nothing: the keyboard goes, the first shows it as
visible, and as its user closes it again the call does nothing and it is closing for good. -/
theorem left_closing_after_rejected_open :
    let s := Run.exec step (init fun _ => "session")
      [.openKeyboard 0 none false, .receive 0 ⟨0, [(1, true)]⟩ true,
        .create ⟨1, "session", 1⟩ 1, .activate 0, .reportImeInsets 0 true, .deliver 0,
        .deliver 0, .openKeyboard 1 none false, .receive 1 ⟨0, []⟩ true, .deliver 1,
        .onBackPressed 0, .deliver 1, .hideTimeout 0, .deliver 1, .onDestroy 0,
        .openKeyboard 0 none false, .receive 0 ⟨0, []⟩ true]
    s.Quiet ∧ s.manager.state = .hidden ∧ s.lastAccepted = some 0 ∧
      (s.engines 0).controller.value.state = .closing ∧ s.manager.openTimeout = false ∧
      s.posted = [] ∧ s.activities.all (·.destroyed) = true ∧ ¬s.EndsAgree := by
  intro s
  have hquiet : s.Quiet := by
    intro e
    match e with
    | 0 => exact ⟨by decide +kernel, by decide +kernel⟩
    | 1 => exact ⟨by decide +kernel, by decide +kernel⟩
    | e + 2 => exact ⟨rfl, rfl⟩
  have hhidden : s.manager.state = .hidden := by decide +kernel
  have hclosing : (s.engines 0).controller.value.state = .closing := by decide +kernel
  refine ⟨hquiet, hhidden, by decide +kernel, hclosing, by decide +kernel, by decide +kernel,
    by decide +kernel, fun hagree => ?_⟩
  have hcalm := (hagree hquiet).2 hhidden 0
  rw [Snapshot.isTransitioning, hclosing] at hcalm
  cases hcalm

end System
end RustDesk.KeyboardProxy
