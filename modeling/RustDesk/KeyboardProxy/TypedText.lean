import Mathlib.Data.List.Nodup
import RustDesk.KeyboardProxy.Moves
import RustDesk.Lib.Run

/-!
# Where typed text goes

Text and keys typed in the proxy's activity go to the manager, from there to the engine whose
channel it has, and from there to the session the engine shows.  Each of the three compares
the request and the session with its own, and other events change all of them in between.

**What an engine passes on to a session was typed in an activity while that was activated for
a request whose open named this session, with the keyboard of that request visible, and it is
passed on once** (`typed_right`).  An activity takes input only while it is active and for what
it was activated for, the manager sends an input only with the request and session it has,
which those of the open, and the engine passes it on only to the session it came with.
-/

namespace RustDesk.KeyboardProxy

open List Function

structure Sent where
  requestId : Nat
  sessionId : String
  input : Input
  ticket : Nat

namespace Engine

def inputs (x : Engine) : List Sent :=
  x.inbox.filterMap fun
    | .input requestId sessionId input ticket => some ⟨requestId, sessionId, input, ticket⟩
    | .state _ => none

def tickets (x : Engine) : List Nat := x.inputs.map (·.ticket)

end Engine

structure Once (under : Nat → List Nat) (done : List Nat) : Prop where
  single : ∀ e, (under e).Nodup
  apart : ∀ e e', e ≠ e' → (under e).Disjoint (under e')
  undone : ∀ e, (under e).Disjoint done
  done : done.Nodup

namespace Once

variable {under : Nat → List Nat} {done : List Nat}

theorem send (h : Once under done) (e : Nat) {n : Nat} (hunder : ∀ e', n ∉ under e')
    (hdone : n ∉ done) : Once (update under e (under e ++ [n])) done := by
  have hother : ∀ e', e' ≠ e → (under e ++ [n]).Disjoint (under e') := by
    intro e' he m hm hm'
    rcases mem_append.mp hm with hold | hnew
    · exact h.apart e e' (Ne.symm he) hold hm'
    · rw [mem_singleton.mp hnew] at hm'
      exact hunder e' hm'
  refine ⟨fun e₁ => ?_, fun e₁ e₂ hne => ?_, fun e₁ => ?_, h.done⟩
  · by_cases h₁ : e₁ = e
    · subst h₁
      rw [update_self]
      refine nodup_append.mpr ⟨h.single e₁, nodup_singleton n, fun m hm m' hm' => ?_⟩
      rw [mem_singleton.mp hm']
      exact fun heq => hunder e₁ (heq ▸ hm)
    · rw [update_of_ne h₁]
      exact h.single e₁
  · by_cases h₁ : e₁ = e
    · subst h₁
      rw [update_self, update_of_ne (Ne.symm hne)]
      exact hother e₂ (Ne.symm hne)
    · rw [update_of_ne h₁]
      by_cases h₂ : e₂ = e
      · subst h₂
        rw [update_self]
        exact fun m hm hm' => hother e₁ h₁ hm' hm
      · rw [update_of_ne h₂]
        exact h.apart e₁ e₂ hne
  · by_cases h₁ : e₁ = e
    · subst h₁
      rw [update_self]
      intro m hm hm'
      rcases mem_append.mp hm with hold | hnew
      · exact h.undone e₁ hold hm'
      · rw [mem_singleton.mp hnew] at hm'
        exact hdone hm'
    · rw [update_of_ne h₁]
      exact h.undone e₁

theorem drop (h : Once under done) {e n : Nat} {rest : List Nat} (he : under e = n :: rest) :
    Once (update under e rest) done := by
  have hsub : ∀ e', update under e rest e' ⊆ under e' := by
    intro e'
    by_cases h' : e' = e
    · subst h'
      rw [update_self, he]
      exact subset_cons_self n rest
    · rw [update_of_ne h']
      exact List.Subset.refl _
  refine ⟨fun e' => ?_, fun e₁ e₂ hne => ?_, fun e' => ?_, h.done⟩
  · by_cases h' : e' = e
    · subst h'
      rw [update_self]
      exact (nodup_cons.mp (he ▸ h.single e')).2
    · rw [update_of_ne h']
      exact h.single e'
  · exact fun m hm hm' => h.apart e₁ e₂ hne (hsub e₁ hm) (hsub e₂ hm')
  · exact fun m hm hm' => h.undone e' (hsub e' hm) hm'

theorem pass (h : Once under done) {e n : Nat} {rest : List Nat} (he : under e = n :: rest) :
    Once (update under e rest) (done ++ [n]) := by
  have hdropped := h.drop he
  have hn : n ∈ under e := he ▸ mem_cons_self
  refine ⟨hdropped.single, hdropped.apart, fun e' m hm hm' => ?_, ?_⟩
  · rcases mem_append.mp hm' with hold | hnew
    · exact hdropped.undone e' hm hold
    · rw [mem_singleton.mp hnew] at hm
      by_cases h' : e' = e
      · subst h'
        rw [update_self] at hm
        exact (nodup_cons.mp (he ▸ h.single e')).1 hm
      · rw [update_of_ne h'] at hm
        exact h.apart e' e h' hm hn
  · refine nodup_append.mpr ⟨h.done, nodup_singleton n, fun m hm m' hm' => ?_⟩
    rw [mem_singleton.mp hm']
    exact fun heq => h.undone e hn (heq ▸ hm)

end Once

namespace System

/-- **Typed text reaches the session that opened the keyboard**: each input passed on was typed
in an activity that was active for a request and this session, which is the one the accepted
open of that request named, while the keyboard of the request was visible; and none is passed
on twice. -/
structure TypedRight (s : System) : Prop where
  session : ∀ p ∈ s.passed, ∃ t, s.typed[p.ticket]? = some t ∧ t.input = p.input ∧
    t.activation = some (t.requestId, p.sessionId) ∧
    (∀ named, (t.requestId, named) ∈ s.accepted ↔ named = p.sessionId) ∧
    t.requestId ∈ s.shown ∧ t.state = .visible
  once : (s.passed.map (·.ticket)).Nodup

def Right (s : System) (m : Sent) : Prop :=
  ∃ t, s.typed[m.ticket]? = some t ∧ t.input = m.input ∧
    t.activation = some (m.requestId, m.sessionId) ∧ t.requestId = m.requestId ∧
    t.state = .visible ∧ (m.requestId, m.sessionId) ∈ s.accepted ∧ m.requestId ∈ s.shown

/-- **The invariant**: the manager's request and session are those of an accepted open, the
activities are genuine, and every input under way or passed on is right. -/
structure Faithful (s : System) : Prop where
  genuine : ∀ x ∈ s.activities, x.Genuine
  current : s.manager.state ≠ .hidden → (s.manager.requestId, s.manager.sessionId) ∈ s.accepted
  visible : s.manager.state = .visible → s.manager.requestId ∈ s.shown
  issued : ∀ p ∈ s.accepted, p.1 ≤ s.manager.requestIds
  named : (s.accepted.map Prod.fst).Nodup
  sent : ∀ e, ∀ m ∈ (s.engines e).inputs, s.Right m
  passed : ∀ p ∈ s.passed, ∃ requestId, s.Right ⟨requestId, p.sessionId, p.input, p.ticket⟩
  once : Once (fun e => (s.engines e).tickets) (s.passed.map (·.ticket))

variable {s : System}

theorem Right.ticket_lt {m : Sent} (h : s.Right m) : m.ticket < s.typed.length := by
  obtain ⟨t, ht, -⟩ := h
  exact (List.getElem?_eq_some_iff.mp ht).1

theorem Right.mono {s s' : System} {m : Sent} (h : s.Right m) (htyped : s.typed <+: s'.typed)
    (haccepted : s.accepted ⊆ s'.accepted) (hshown : s.shown ⊆ s'.shown) : s'.Right m := by
  obtain ⟨t, ht, hinput, hactivation, hrequest, hstate, hopened, hvisible⟩ := h
  have ht' : s'.typed[m.ticket]? = some t := by
    obtain ⟨later, heq⟩ := htyped
    rw [← heq, List.getElem?_append_left (List.getElem?_eq_some_iff.mp ht).1]
    exact ht
  exact ⟨t, ht', hinput, hactivation, hrequest, hstate, haccepted hopened, hshown hvisible⟩

theorem Faithful.named_eq (h : s.Faithful) {requestId : Nat} {a b : String}
    (ha : (requestId, a) ∈ s.accepted) (hb : (requestId, b) ∈ s.accepted) : a = b :=
  (Prod.mk.inj (inj_on_of_nodup_map h.named ha hb rfl)).2

theorem Faithful.typedRight (h : s.Faithful) : s.TypedRight := by
  refine ⟨fun p hp => ?_, h.once.done⟩
  obtain ⟨requestId, t, ht, hinput, hactivation, rfl, hstate, hopened, hvisible⟩ := h.passed p hp
  refine ⟨t, ht, hinput, hactivation, fun named => ⟨fun hnamed => ?_, ?_⟩, hvisible, hstate⟩
  · exact h.named_eq hnamed hopened
  · rintro rfl
    exact hopened

theorem tickets_setEngine (s : System) (e : Nat) (x : Engine) :
    (fun e' => ((s.setEngine e x).engines e').tickets) =
      update (fun e' => (s.engines e').tickets) e x.tickets := by
  funext e'
  by_cases he : e' = e
  · subst he
    rw [setEngine_self, update_self]
  · rw [setEngine_of_ne s he, update_of_ne he]

theorem Faithful.setEngine (h : s.Faithful) (e : Nat) {x : Engine}
    (hinputs : x.inputs ⊆ (s.engines e).inputs)
    (honce : Once (update (fun e' => (s.engines e').tickets) e x.tickets)
      (s.passed.map (·.ticket))) : (s.setEngine e x).Faithful := by
  refine ⟨h.genuine, h.current, h.visible, h.issued, h.named, fun e' m hm => ?_, h.passed, ?_⟩
  · by_cases he : e' = e
    · subst he
      rw [setEngine_self] at hm
      exact h.sent e' m (hinputs hm)
    · rw [setEngine_of_ne s he] at hm
      exact h.sent e' m hm
  · rw [tickets_setEngine]
    exact honce

theorem Faithful.setEngine_of_same (h : s.Faithful) (e : Nat) {x : Engine}
    (hinputs : x.inputs = (s.engines e).inputs) : (s.setEngine e x).Faithful := by
  have htickets : x.tickets = (s.engines e).tickets := by
    rw [Engine.tickets, hinputs]
    rfl
  refine h.setEngine e (hinputs ▸ List.Subset.refl _) ?_
  rw [htickets, update_eq_self]
  exact h.once

theorem Faithful.publishState (h : s.Faithful) (reason : String) :
    (s.publishState reason).Faithful := by
  unfold System.publishState
  split
  case h_1 e _ => exact h.setEngine_of_same e (by simp [Engine.inputs])
  case h_2 => exact h

/-- **Something is typed**: if the manager sends it, it goes with the request and session the
activity is active for. -/
theorem Faithful.typed (h : s.Faithful) {a : Nat} {x : Activity} (input : Input)
    (hx : s.activities[a]? = some x) (hfocus : x.focusable = true) :
    ((s.record a x input).commit x.requestId x.sessionId input s.typed.length).Faithful := by
  have hkept : ∀ m, s.Right m → (s.record a x input).Right m := fun m hm =>
    hm.mono (prefix_append ..) (List.Subset.refl _) (List.Subset.refl _)
  have hrecord : (s.record a x input).Faithful := by
    refine ⟨h.genuine, h.current, h.visible, h.issued, h.named, fun e m hm => ?_, fun p hp => ?_,
      h.once⟩
    · exact hkept m (h.sent e m hm)
    · obtain ⟨requestId, hright⟩ := h.passed p hp
      exact ⟨requestId, hkept _ hright⟩
  rcases commit_cases (s.record a x input) x.requestId x.sessionId input s.typed.length with
    heq | ⟨hrequest, hsession, hstate, e, heq⟩
  · rw [heq]
    exact hrecord
  · have hrequest' : x.requestId = s.manager.requestId := hrequest
    have hsession' : x.sessionId = s.manager.sessionId := hsession
    have hstate' : s.manager.state = .visible := hstate
    obtain ⟨hactive, hactivation⟩ := h.genuine x (mem_of_getElem? hx) hfocus
    have hright : (s.record a x input).Right
        ⟨s.manager.requestId, s.manager.sessionId, input, s.typed.length⟩ := by
      refine ⟨⟨a, x.activation, input, s.manager.requestId, s.manager.state⟩, ?_, rfl, ?_, rfl,
        hstate', h.current (by rw [hstate']; nofun), h.visible hstate'⟩
      · simp [record, hactive]
      · rw [← hrequest', ← hsession']
        exact hactivation
    rw [heq]
    have hinputs : Engine.inputs { s.engines e with
        inbox := (s.engines e).inbox ++ [.input s.manager.requestId s.manager.sessionId input
          s.typed.length] } = (s.engines e).inputs ++
        [⟨s.manager.requestId, s.manager.sessionId, input, s.typed.length⟩] := by
      simp [Engine.inputs]
    refine ⟨hrecord.genuine, hrecord.current, hrecord.visible, hrecord.issued, hrecord.named,
      fun e' m hm => ?_, hrecord.passed, ?_⟩
    · by_cases he : e' = e
      · subst he
        rw [invokeMethod, setEngine_self] at hm
        rcases mem_append.mp (hinputs ▸ hm) with hold | hnew
        · exact hrecord.sent e' m hold
        · rw [mem_singleton.mp hnew]
          exact hright
      · rw [invokeMethod, setEngine_of_ne _ he] at hm
        exact hrecord.sent e' m hm
    · rw [invokeMethod, tickets_setEngine]
      have htickets : Engine.tickets { s.engines e with
          inbox := (s.engines e).inbox ++ [.input s.manager.requestId s.manager.sessionId input
            s.typed.length] } = (s.engines e).tickets ++ [s.typed.length] := by
        rw [Engine.tickets, hinputs, map_append]
        rfl
      have honce := h.once.send e (n := s.typed.length) (fun e' hmem => ?_) (fun hmem => ?_)
      · exact htickets ▸ honce
      · obtain ⟨m, hm, hticket⟩ := mem_map.mp hmem
        exact absurd (h.sent e' m hm).ticket_lt (by omega)
      · obtain ⟨p, hp, hticket⟩ := mem_map.mp hmem
        obtain ⟨requestId, hright'⟩ := h.passed p hp
        have hlt : p.ticket < s.typed.length := hright'.ticket_lt
        omega

theorem Move.faithful {s s' : System} (hmove : Move s s') (h : s.Faithful) : s'.Faithful := by
  cases hmove with
  | silent _ _ _ _ _ _ hgenuine =>
    exact ⟨hgenuine h.genuine, h.current, h.visible, h.issued, h.named, h.sent, h.passed, h.once⟩
  | closing reason hstate =>
    apply Faithful.publishState
    exact ⟨h.genuine, fun _ => h.current hstate, nofun, h.issued, h.named, h.sent, h.passed, h.once⟩
  | visible reason hstate =>
    have hused : s.manager.state ≠ .hidden := fun hhidden =>
      absurd (hstate.symm.trans hhidden) nofun
    have hkept : ∀ m, s.Right m →
        Right { s with shown := s.shown ++ [s.manager.requestId] } m := fun m hm =>
      hm.mono (prefix_refl _) (List.Subset.refl _) (subset_append_left ..)
    apply Faithful.publishState
    refine ⟨h.genuine, fun _ => h.current hused, fun _ => ?_, h.issued, h.named,
      fun e m hm => hkept m (h.sent e m hm), fun p hp => ?_, h.once⟩
    · exact mem_append_right _ (mem_singleton.mpr rfl)
    · obtain ⟨requestId, hright⟩ := h.passed p hp
      exact ⟨requestId, hkept _ hright⟩
  | hidden reason =>
    have hpublished : Faithful (System.enter { s with
        manager := { s.manager with openTimeout := false } } .hidden reason) := by
      apply Faithful.publishState
      exact ⟨h.genuine, fun hused => absurd rfl hused, nofun, h.issued, h.named, h.sent,
        h.passed, h.once⟩
    have hstate : (s.finishHidden reason false).manager.state = .hidden := by simp
    refine ⟨hpublished.genuine, fun hused => absurd hstate hused, fun hvisible => ?_,
      hpublished.issued, hpublished.named, hpublished.sent, hpublished.passed, hpublished.once⟩
    exact absurd (hstate.symm.trans hvisible) nofun
  | typed a x input hx hfocus => exact h.typed input hx hfocus

theorem Moves.faithful {s s' : System} (hmoves : Moves s s') (h : s.Faithful) : s'.Faithful :=
  hmoves.keeps (fun _ _ hmove => hmove.faithful) h

/-- **An open is accepted**: the manager's request and session are those of this open. -/
theorem Faithful.openProxy (h : s.Faithful) (e : Nat) (sessionId : String)
    (d : Displays) (launched : Bool) : (s.openProxy e sessionId d launched).Faithful := by
  by_cases hstate : s.manager.state = .hidden
  · have hkept : ∀ m, s.Right m → (s.request e sessionId d).Right m := fun m hm =>
      hm.mono (prefix_refl _) (subset_append_left ..) (List.Subset.refl _)
    have hnew : s.manager.requestIds + 1 ∉ s.accepted.map Prod.fst := by
      intro hmem
      obtain ⟨p, hp, hid⟩ := mem_map.mp hmem
      have hle := h.issued p hp
      omega
    have hrequest : (s.request e sessionId d).Faithful := by
      refine ⟨h.genuine, fun _ => ?_, nofun, fun p hp => ?_, ?_, fun e' m hm => ?_,
        fun p hp => ?_, h.once⟩
      · exact mem_append_right _ (mem_singleton.mpr rfl)
      · rcases mem_append.mp hp with hold | hlast
        · exact Nat.le_succ_of_le (h.issued p hold)
        · rw [mem_singleton.mp hlast]
          exact Nat.le_refl _
      · have hmap : (s.request e sessionId d).accepted.map Prod.fst =
            s.accepted.map Prod.fst ++ [s.manager.requestIds + 1] :=
          map_append
        rw [hmap]
        refine nodup_append.mpr ⟨h.named, nodup_singleton _, fun n hn n' hn' => ?_⟩
        rw [mem_singleton.mp hn']
        exact fun heq => hnew (heq ▸ hn)
      · exact hkept m (h.sent e' m hm)
      · obtain ⟨requestId, hright⟩ := h.passed p hp
        exact ⟨requestId, hkept _ hright⟩
    have hpublished := hrequest.publishState "open_requested"
    have hannounced : (s.announce e sessionId d).Faithful :=
      ⟨hpublished.genuine, hpublished.current, hpublished.visible, hpublished.issued,
        hpublished.named, hpublished.sent, hpublished.passed, hpublished.once⟩
    exact (openProxy_moves hstate).faithful hannounced
  · have heq : s.openProxy e sessionId d launched =
        (s.prepare e).publishState "open_rejected_busy" := if_pos hstate
    have hprepared : (s.prepare e).Faithful :=
      ⟨h.genuine, h.current, h.visible, h.issued, h.named, h.sent, h.passed, h.once⟩
    rw [heq]
    exact hprepared.publishState _

theorem Faithful.receive (h : s.Faithful) (e : Nat) (d : Displays)
    (launched : Bool) : (s.receive e d launched).Faithful := by
  unfold System.receive
  split
  case h_2 => exact h
  case h_1 c rest _ =>
    have hrest : (s.setEngine e { s.engines e with calls := rest }).Faithful :=
      h.setEngine_of_same e rfl
    cases c with
    | openProxy sessionId => exact hrest.openProxy e sessionId d launched
    | prepare =>
      exact ⟨hrest.genuine, hrest.current, hrest.visible, hrest.issued, hrest.named,
        hrest.sent, hrest.passed, hrest.once⟩
    | close expected => exact (close_moves "close_requested" expected).faithful hrest
    | release => exact (release_moves "release_requested").faithful hrest

theorem Faithful.openKeyboardUnlocked (h : s.Faithful) (e : Nat) :
    (s.openKeyboardUnlocked e).Faithful := by
  rcases openKeyboardUnlocked_cases s e with heq | ⟨-, heq⟩
  · rw [heq]
    exact h
  · rw [heq]
    exact h.setEngine_of_same e rfl

theorem Faithful.openKeyboard (h : s.Faithful) (e : Nat)
    (closeIntent : Option Bool) (prompt : Bool) :
    (s.openKeyboard e closeIntent prompt).Faithful := by
  rcases openKeyboard_cases s e closeIntent prompt with heq | ⟨-, heq⟩ | heq
  · rw [heq]
    exact h
  · rw [heq]
    exact h.setEngine_of_same e rfl
  · rw [heq]
    exact h.openKeyboardUnlocked e

theorem Faithful.deliver (h : s.Faithful) (e : Nat) : (s.deliver e).Faithful := by
  rcases deliver_cases s e with heq | ⟨m, rest, hinbox, heq⟩
  · rw [heq]
    exact h
  · rw [heq]
    rcases handle_cases (s.setEngine e { s.engines e with inbox := rest }) e m with
      ⟨v, rfl, hhandled⟩ | ⟨requestId, sessionId, input, ticket, rfl, hhandled⟩
    · have hinputs : Engine.inputs { s.engines e with inbox := rest } = (s.engines e).inputs := by
        simp [Engine.inputs, hinbox]
      rw [hhandled]
      exact (h.setEngine_of_same e hinputs).setEngine_of_same e (by simp [Engine.inputs])
    · have hinputs : (s.engines e).inputs = ⟨requestId, sessionId, input, ticket⟩ ::
          Engine.inputs { s.engines e with inbox := rest } := by
        simp [Engine.inputs, hinbox]
      have htickets : (s.engines e).tickets = ticket ::
          Engine.tickets { s.engines e with inbox := rest } := by
        rw [Engine.tickets, hinputs]
        rfl
      have hright := h.sent e ⟨requestId, sessionId, input, ticket⟩ (hinputs ▸ mem_cons_self)
      have hdropped : (s.setEngine e { s.engines e with inbox := rest }).Faithful :=
        h.setEngine e (hinputs ▸ subset_cons_self ..) (h.once.drop htickets)
      rcases hhandled with hsame | ⟨hsession, hpassed⟩
      · rw [hsame]
        exact hdropped
      · rw [hpassed]
        refine ⟨hdropped.genuine, hdropped.current, hdropped.visible, hdropped.issued,
          hdropped.named, hdropped.sent, fun p hp => ?_, ?_⟩
        · rcases mem_append.mp hp with hold | hnew
          · exact hdropped.passed p hold
          · rw [mem_singleton.mp hnew, ← hsession]
            exact ⟨requestId, hright⟩
        · have honce := h.once.pass htickets
          rw [← tickets_setEngine] at honce
          have hmap : (s.passed ++ [Passed.mk e sessionId input ticket]).map Passed.ticket =
              s.passed.map Passed.ticket ++ [ticket] :=
            map_append
          rw [← hmap] at honce
          rw [← hsession]
          exact honce

theorem Faithful.step (h : s.Faithful) (ev : Event) : (s.step ev).Faithful := by
  cases hnative : ofEngine ev with
  | false => exact (step_moves hnative).faithful h
  | true =>
    cases ev with
    | openKeyboard e closeIntent prompt => exact h.openKeyboard e closeIntent prompt
    | openKeyboardUnlocked e => exact h.openKeyboardUnlocked e
    | call e c => exact h.setEngine_of_same e rfl
    | reset e => exact h.setEngine_of_same e rfl
    | setSession e sessionId => exact h.setEngine_of_same e rfl
    | deliver e => exact h.deliver e
    | receive e d launched => exact h.receive e d launched
    | _ => cases hnative

theorem init_faithful (sessions : Nat → String) : (init sessions).Faithful where
  genuine := fun _ hx => absurd hx not_mem_nil
  current := fun hused => absurd rfl hused
  visible := nofun
  issued := nofun
  named := nodup_nil
  sent := fun _ _ hm => absurd hm not_mem_nil
  passed := nofun
  once := ⟨fun _ => nodup_nil, fun _ _ _ => disjoint_nil_left _,
    fun _ => disjoint_nil_left _, nodup_nil⟩

/-- **Typed text only reaches the session that opened the keyboard**, in every state of every
run. -/
theorem typed_right (sessions : Nat → String) (events : List Event) :
    Run.Always step TypedRight (init sessions) events := by
  have hfaithful : Run.Always step Faithful (init sessions) events :=
    Run.always_of_step (fun _ ev h => h.step ev) (init_faithful sessions) events
  exact fun pre hpre => (hfaithful pre hpre).typedRight

end System
end RustDesk.KeyboardProxy
