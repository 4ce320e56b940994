import RustDesk.KeyboardProxy.System

/-!
# What each operation changes

Most operations of the manager change its state, publish it and go on.  Here are the fields
they leave alone, as rewriting rules, and for the longer ones the cases of what they do.
-/

namespace RustDesk.KeyboardProxy

def Activity.hid (x : Activity) : Activity :=
  { x with hideTimeout := false, closeRequested := false }

/-- An activity after `onDestroy`. -/
def Activity.gone (x : Activity) : Activity :=
  { x with destroyed := true, hideTimeout := false }

namespace System

def forget (s : System) : System :=
  { s with manager := { s.manager with proxyActivity := none, preparingRequestId := 0 } }

variable (s : System)

@[simp] theorem setEngine_self (e : Nat) (x : Engine) : (s.setEngine e x).engines e = x :=
  Function.update_self ..

theorem setEngine_of_ne {e e' : Nat} (hne : e' ≠ e) (x : Engine) :
    (s.setEngine e x).engines e' = s.engines e' :=
  Function.update_of_ne hne ..

@[simp] theorem setEngine_setEngine (e : Nat) (x y : Engine) :
    (s.setEngine e x).setEngine e y = s.setEngine e y := by
  simp only [setEngine, Function.update_idem]

theorem openKeyboardUnlocked_cases (e : Nat) :
    s.openKeyboardUnlocked e = s ∨
    ((s.engines e).controller.value.state = .hidden ∧
      s.openKeyboardUnlocked e = s.setEngine e { s.engines e with
        controller := ((s.engines e).controller.tryBeginOpen (s.engines e).sessionId).1
        calls := (s.engines e).calls ++ [.openProxy (s.engines e).sessionId] }) := by
  unfold openKeyboardUnlocked Controller.tryBeginOpen
  by_cases hstate : (s.engines e).controller.value.state = .hidden
  · refine .inr ⟨hstate, ?_⟩
    simp [hstate, call]
  · simp [hstate]

/-- A tap does nothing, asks for a close, or opens the proxy. -/
theorem openKeyboard_cases (e : Nat) (closeIntent : Option Bool) (prompt : Bool) :
    s.openKeyboard e closeIntent prompt = s ∨
    ((s.engines e).controller.value.state = .visible ∧
      s.openKeyboard e closeIntent prompt = s.setEngine e { s.engines e with
        controller := (s.engines e).controller.tryBeginClose.1
        calls := (s.engines e).calls ++
          [.close (some (s.engines e).controller.value.requestId)] }) ∨
    s.openKeyboard e closeIntent prompt = s.openKeyboardUnlocked e := by
  unfold openKeyboard
  dsimp only
  split
  case isTrue =>
    unfold Controller.tryBeginClose
    by_cases hstate : (s.engines e).controller.value.state = .visible
    · refine .inr (.inl ⟨hstate, ?_⟩)
      simp [hstate, call]
    · simp [hstate]
  case isFalse =>
    split
    case isTrue => exact .inl rfl
    case isFalse => exact .inr (.inr rfl)

/-- A message of the host is a state or an input. -/
theorem handle_cases (e : Nat) (m : ToDart) :
    (∃ v, m = .state v ∧ s.handle e m = s.setEngine e { s.engines e with
      controller := (s.engines e).controller.handleState v
      wasReset := (s.engines e).wasReset &&
        v.requestId < (s.engines e).controller.value.requestId }) ∨
    (∃ requestId sessionId input ticket, m = .input requestId sessionId input ticket ∧
      (s.handle e m = s ∨ (sessionId = (s.engines e).sessionId ∧
        s.handle e m = { s with
          passed := s.passed ++ [⟨e, (s.engines e).sessionId, input, ticket⟩] }))) := by
  cases m with
  | state v => exact .inl ⟨v, rfl, rfl⟩
  | input requestId sessionId input ticket =>
    refine .inr ⟨requestId, sessionId, input, ticket, rfl, ?_⟩
    unfold handle
    dsimp only
    split
    case isTrue haccepts =>
      refine .inr ⟨?_, rfl⟩
      simp only [Controller.acceptsInput, Bool.and_eq_true, decide_eq_true_eq] at haccepts
      exact haccepts.1.2
    case isFalse => exact .inl rfl

theorem deliver_cases (e : Nat) :
    s.deliver e = s ∨ ∃ m rest, (s.engines e).inbox = m :: rest ∧
      s.deliver e = (s.setEngine e { s.engines e with inbox := rest }).handle e m := by
  unfold deliver
  split
  case h_1 m rest hinbox => exact .inr ⟨m, rest, hinbox, rfl⟩
  case h_2 => exact .inl rfl

section Publish

variable (reason : String)

@[simp] theorem publishState_manager : (s.publishState reason).manager = s.manager := by
  unfold publishState
  split <;> rfl

@[simp] theorem publishState_activities : (s.publishState reason).activities = s.activities := by
  unfold publishState
  split <;> rfl

@[simp] theorem publishState_intents : (s.publishState reason).intents = s.intents := by
  unfold publishState
  split <;> rfl

@[simp] theorem publishState_posted : (s.publishState reason).posted = s.posted := by
  unfold publishState
  split <;> rfl

@[simp] theorem publishState_accepted : (s.publishState reason).accepted = s.accepted := by
  unfold publishState
  split <;> rfl

@[simp] theorem publishState_lastAccepted :
    (s.publishState reason).lastAccepted = s.lastAccepted := by
  unfold publishState
  split <;> rfl

@[simp] theorem publishState_shown : (s.publishState reason).shown = s.shown := by
  unfold publishState
  split <;> rfl

@[simp] theorem publishState_typed : (s.publishState reason).typed = s.typed := by
  unfold publishState
  split <;> rfl

@[simp] theorem publishState_passed : (s.publishState reason).passed = s.passed := by
  unfold publishState
  split <;> rfl

theorem publishState_engines (e : Nat) : (s.publishState reason).engines e =
    if s.manager.channel = some e then
      { s.engines e with inbox := (s.engines e).inbox ++ [.state (s.payload reason)] }
    else s.engines e := by
  unfold publishState
  cases hchannel : s.manager.channel with
  | none => rfl
  | some c =>
    by_cases hc : c = e
    · subst hc
      rw [if_pos rfl]
      exact setEngine_self ..
    · have hne : some c ≠ some e := fun heq => hc (Option.some.inj heq)
      rw [if_neg hne]
      exact setEngine_of_ne s (Ne.symm hc) _

variable (state : ProxyState)

@[simp] theorem enter_manager :
    (s.enter state reason).manager = { s.manager with state := state } :=
  publishState_manager ..

@[simp] theorem enter_activities : (s.enter state reason).activities = s.activities :=
  publishState_activities ..

@[simp] theorem enter_intents : (s.enter state reason).intents = s.intents :=
  publishState_intents ..

@[simp] theorem enter_posted : (s.enter state reason).posted = s.posted :=
  publishState_posted ..

@[simp] theorem finishHidden_manager : (s.finishHidden reason false).manager =
    { s.manager with
      openTimeout := false
      state := .hidden
      sessionId := ""
      proxyActivity := none
      displayManager := false
      channel := none } := by
  simp [finishHidden]

@[simp] theorem finishHidden_activities :
    (s.finishHidden reason false).activities = s.activities := by
  simp [finishHidden]

@[simp] theorem finishHidden_intents : (s.finishHidden reason false).intents = s.intents := by
  simp [finishHidden]

@[simp] theorem startClosing_manager : (s.startClosing reason).manager =
    { s.manager with state := .closing, openTimeout := false } := by
  simp [startClosing]

@[simp] theorem startClosing_activities : (s.startClosing reason).activities = s.activities := by
  simp [startClosing]

@[simp] theorem startClosing_intents : (s.startClosing reason).intents = s.intents := by
  simp [startClosing]

@[simp] theorem startClosing_posted : (s.startClosing reason).posted = s.posted := by
  simp [startClosing]

variable (e : Nat) (sessionId : String) (d : Displays)

@[simp] theorem announce_manager : (s.announce e sessionId d).manager =
    { s.manager with
      requestIds := s.manager.requestIds + 1
      state := .opening
      requestId := s.manager.requestIds + 1
      sessionId := sessionId
      sourceDisplayId := d.source
      targetDisplayId := findTargetDisplay d
      channel := some e
      displayManager := true
      openTimeout := true } := by
  simp [announce, request]

@[simp] theorem announce_activities : (s.announce e sessionId d).activities = s.activities := by
  simp [announce, request]

@[simp] theorem announce_intents : (s.announce e sessionId d).intents = s.intents := by
  simp [announce, request]

end Publish

/-- A close ends at the activity, or at once without one. -/
theorem close_cases (reason : String) (expected : Option Nat) :
    ((expected.any (· ≠ s.manager.requestId) = true ∨ s.manager.state = .hidden) ∧
      s.close reason expected = s) ∨
    (s.manager.state ≠ .hidden ∧ ((∃ a, s.manager.proxyActivity = some a ∧
        s.close reason expected = (s.startClosing reason).modify a (·.hideIme reason)) ∨
      (s.manager.proxyActivity = none ∧
        s.close reason expected = (s.startClosing reason).finishHidden reason false))) := by
  unfold close
  split
  case isTrue hstop =>
    rw [Bool.or_eq_true, decide_eq_true_eq] at hstop
    exact .inl ⟨hstop, rfl⟩
  case isFalse hgo =>
    have hstate : s.manager.state ≠ .hidden := by
      intro hhidden
      simp [hhidden] at hgo
    refine .inr ⟨hstate, ?_⟩
    dsimp only
    rw [startClosing_manager]
    cases hproxy : s.manager.proxyActivity with
    | some a => exact .inl ⟨a, rfl, rfl⟩
    | none => exact .inr ⟨rfl, rfl⟩

theorem release_cases (reason : String) :
    (∃ a, s.manager.proxyActivity = some a ∧
      s.release reason = s.startRelease.modify a (·.releaseAndFinish reason)) ∨
    (s.manager.proxyActivity = none ∧
      s.release reason = s.startRelease.finishHidden reason false) := by
  unfold release
  dsimp only
  have hproxy : s.startRelease.manager.proxyActivity = s.manager.proxyActivity := rfl
  rw [hproxy]
  cases s.manager.proxyActivity with
  | some a => exact .inl ⟨a, rfl, rfl⟩
  | none => exact .inr ⟨rfl, rfl⟩

theorem modify_modify (a : Nat) (f g : Activity → Activity) :
    (s.modify a f).modify a g = s.modify a fun x => g (f x) := by
  have hactivities : (s.activities.modify a f).modify a g = s.activities.modify a (g ∘ f) :=
    List.modify_modify_eq ..
  simp only [modify, hactivities]
  rfl

/-- The end of hiding: nothing was asked for, a release, or a close. -/
theorem completeHide_cases {a : Nat} {x : Activity} (hx : s.activities[a]? = some x) :
    (x.closeRequested = false ∧
      s.completeHide a = s.modify a fun x => { x with hideTimeout := false }) ∨
    (x.closeRequested = true ∧ x.releaseRequested = true ∧
      s.completeHide a = s.modify a fun x => x.hid.finish) ∨
    (x.closeRequested = true ∧ x.releaseRequested = false ∧
      s.completeHide a = (s.modify a Activity.hid).onImeHidden x.requestId x.finishReason) := by
  unfold completeHide
  simp only [hx]
  cases hclose : x.closeRequested with
  | false => exact .inl ⟨rfl, rfl⟩
  | true =>
    have hhid : (s.modify a fun y => { y with hideTimeout := false }).modify a
        (fun y => { y with closeRequested := false }) = s.modify a Activity.hid :=
      modify_modify ..
    rw [if_neg (by decide), hhid]
    cases hrelease : x.releaseRequested with
    | true => exact .inr (.inl ⟨rfl, rfl, modify_modify ..⟩)
    | false => exact .inr (.inr ⟨rfl, rfl, rfl⟩)

theorem completeHide_none {a : Nat} (hx : s.activities[a]? = none) : s.completeHide a = s := by
  unfold completeHide
  rw [hx]

/-- A hidden keyboard counts only for the request that is closing. -/
theorem onImeHidden_cases (requestId : Nat) (reason : String) :
    ((requestId ≠ s.manager.requestId ∨ s.manager.state ≠ .closing) ∧
      s.onImeHidden requestId reason = s) ∨
    (s.manager.state = .closing ∧
      (s.onImeHidden requestId reason = s.finishHidden reason false ∨
      ∃ a, s.onImeHidden requestId reason =
        (s.finishHidden reason false).modify a (·.releaseAndFinish reason))) := by
  unfold onImeHidden
  split
  case isTrue hstop =>
    rw [Bool.or_eq_true, decide_eq_true_eq, decide_eq_true_eq] at hstop
    exact .inl ⟨hstop, rfl⟩
  case isFalse hgo =>
    rw [Bool.or_eq_true, decide_eq_true_eq, decide_eq_true_eq, not_or, not_not, not_not] at hgo
    split
    case h_1 a _ => exact .inr ⟨hgo.2, .inr ⟨a, rfl⟩⟩
    case h_2 => exact .inr ⟨hgo.2, .inl rfl⟩

/-- Only the current activity's end is heard. -/
theorem onActivityDestroyed_cases (a : Nat) (reason : String) :
    (s.manager.proxyActivity ≠ some a ∧ s.onActivityDestroyed a reason = s) ∨
    (s.manager.proxyActivity = some a ∧ s.manager.state = .hidden ∧
      s.onActivityDestroyed a reason = s.forget) ∨
    (s.manager.proxyActivity = some a ∧ s.manager.state ≠ .hidden ∧
      s.onActivityDestroyed a reason = s.forget.finishHidden reason false) := by
  by_cases ha : s.manager.proxyActivity = some a
  · have heq : s.onActivityDestroyed a reason =
        if s.manager.state ≠ .hidden then s.forget.finishHidden reason false else s.forget :=
      if_neg (not_not.mpr ha)
    rw [heq]
    by_cases hstate : s.manager.state = .hidden
    · exact .inr (.inl ⟨ha, hstate, if_neg (not_not.mpr hstate)⟩)
    · exact .inr (.inr ⟨ha, hstate, if_pos hstate⟩)
  · exact .inl ⟨ha, if_pos ha⟩

theorem onDestroy_of_live {a : Nat} {x : Activity} (hx : s.activities[a]? = some x)
    (hlive : x.destroyed = false) : s.onDestroy a =
      (s.modify a Activity.gone).onActivityDestroyed a x.finishReason := by
  unfold onDestroy
  rw [hx]
  exact if_neg (by simp [hlive])

theorem onDestroy_cases (a : Nat) :
    s.onDestroy a = s ∨ ∃ x, s.activities[a]? = some x ∧ x.destroyed = false ∧
      s.onDestroy a = (s.modify a Activity.gone).onActivityDestroyed a x.finishReason := by
  cases hx : s.activities[a]? with
  | none =>
    left
    unfold onDestroy
    rw [hx]
  | some x =>
    cases hlive : x.destroyed with
    | true =>
      left
      unfold onDestroy
      rw [hx]
      exact if_pos hlive
    | false => exact .inr ⟨x, rfl, hlive, s.onDestroy_of_live hx hlive⟩

theorem launchIfCurrent_cases (i : Intent) (launched : Bool) :
    s.launchIfCurrent i launched = s ∨
    (s.manager.requestId = i.requestId ∧
      s.launchIfCurrent i launched = { s with intents := s.intents ++ [i] }) ∨
    s.launchIfCurrent i launched = s.finishHidden "launch_failed" false := by
  unfold launchIfCurrent
  split
  case isTrue => exact .inl rfl
  case isFalse hgo =>
    rw [Bool.or_eq_true, decide_eq_true_eq, not_or, not_not] at hgo
    split
    case isTrue => exact .inr (.inl ⟨hgo.1.symm, rfl⟩)
    case isFalse => exact .inr (.inr rfl)

/-- An open is refused, wakes the activity, or launches one. -/
theorem openProxy_cases (e : Nat) (sessionId : String) (d : Displays) (launched : Bool) :
    (s.manager.state ≠ .hidden ∧
      s.openProxy e sessionId d launched = (s.prepare e).publishState "open_rejected_busy") ∨
    (s.manager.state = .hidden ∧
      ((∃ a requestId, s.manager.proxyActivity = some a ∧
        s.openProxy e sessionId d launched =
          (s.announce e sessionId d).modify a (·.activate requestId sessionId)) ∨
      (∃ i, s.openProxy e sessionId d launched =
        (s.announce e sessionId d).launchIfCurrent i launched) ∨
      s.openProxy e sessionId d launched = s.announce e sessionId d)) := by
  unfold openProxy
  split
  case isTrue hbusy => exact .inl ⟨hbusy, rfl⟩
  case isFalse hhidden =>
    refine .inr ⟨not_not.mp hhidden, ?_⟩
    dsimp only
    split
    case h_1 a x hx =>
      have ha : s.manager.proxyActivity = some a := by
        obtain ⟨b, hb, hx⟩ := Option.bind_eq_some_iff.mp hx
        obtain ⟨y, -, hy⟩ := Option.map_eq_some_iff.mp hx
        obtain rfl : b = a := (Prod.mk.inj hy).1
        simpa using hb
      split
      case isTrue => exact .inl ⟨a, _, ha, rfl⟩
      case isFalse =>
        split
        case isTrue => exact .inr (.inl ⟨_, rfl⟩)
        case isFalse => exact .inr (.inr rfl)
    case h_2 =>
      split
      case isTrue => exact .inr (.inl ⟨_, rfl⟩)
      case isFalse => exact .inr (.inr rfl)

/-- Input is passed on only for the visible request of its session. -/
theorem commit_cases (requestId : Nat) (sessionId : String) (input : Input) (ticket : Nat) :
    s.commit requestId sessionId input ticket = s ∨
    (requestId = s.manager.requestId ∧ sessionId = s.manager.sessionId ∧
      s.manager.state = .visible ∧ ∃ e, s.commit requestId sessionId input ticket =
        s.invokeMethod e (.input s.manager.requestId s.manager.sessionId input ticket)) := by
  unfold commit
  split
  case isTrue => exact .inl rfl
  case isFalse hgo =>
    simp only [Bool.or_eq_true, decide_eq_true_eq, not_or, not_not] at hgo
    split
    case h_1 e _ => exact .inr ⟨hgo.1.1.1, hgo.1.1.2, hgo.1.2, e, rfl⟩
    case h_2 => exact .inl rfl

theorem record_ticket (a : Nat) (x : Activity) (input : Input) :
    (s.record a x input).typed.length - 1 = s.typed.length := by
  simp [record]

theorem onTextChanged_cases (a start before : Nat) (inserted : List Char) (composing : Bool) :
    s.onTextChanged a start before inserted composing = s ∨
    (∃ text, s.onTextChanged a start before inserted composing =
      s.modify a fun x => { x with text := text }) ∨
    ∃ x text, s.activities[a]? = some x ∧ x.focusable = true ∧
      s.onTextChanged a start before inserted composing =
        ((s.record a x (.text text)).commit x.requestId x.sessionId (.text text)
          s.typed.length).modify a fun x => { x with text := [] } := by
  unfold onTextChanged
  split
  case h_1 x hx =>
    split
    case isTrue => exact .inl rfl
    case isFalse hlive =>
      dsimp only
      split
      case isTrue => exact .inr (.inl ⟨_, rfl⟩)
      case isFalse =>
        have hboth : x.destroyed = false ∧ x.focusable = true := by simpa using hlive
        exact .inr (.inr ⟨x, _, hx, hboth.2, by rw [record_ticket]⟩)
  case h_2 => exact .inl rfl

theorem onKey_cases (a : Nat) (key : String) :
    s.onKey a key = s ∨ ∃ x, s.activities[a]? = some x ∧ x.focusable = true ∧
      s.onKey a key = (s.record a x (.key key)).commit x.requestId x.sessionId (.key key)
        s.typed.length := by
  unfold onKey
  split
  case h_1 x hx =>
    split
    case isTrue => exact .inl rfl
    case isFalse hlive =>
      have hboth : x.destroyed = false ∧ x.focusable = true := by simpa using hlive
      dsimp only
      exact .inr ⟨x, hx, hboth.2, by rw [record_ticket]⟩
  case h_2 => exact .inl rfl

end System
end RustDesk.KeyboardProxy
