import Mathlib.Logic.Relation
import RustDesk.KeyboardProxy.Effects

/-!
# The moves of the native side

Whatever happens natively, what an engine can tell of it is one of a few moves: the state
becomes closing, visible or hidden and that is published, an input is sent, or nothing can be
told.  Every native event is a sequence of such moves (`step_moves`), so what each move keeps
every event keeps.
-/

namespace RustDesk.KeyboardProxy

namespace Activity

def Genuine (x : Activity) : Prop :=
  x.focusable = true → x.active = true ∧ x.activation = some (x.requestId, x.sessionId)

theorem activate_genuine (x : Activity) (requestId : Nat) (sessionId : String) :
    (x.activate requestId sessionId).Genuine :=
  fun _ => ⟨rfl, rfl⟩

theorem hideIme_genuine (x : Activity) (reason : String) : (x.hideIme reason).Genuine :=
  nofun

theorem Genuine.releaseAndFinish {x : Activity} (h : x.Genuine) (reason : String) :
    (x.releaseAndFinish reason).Genuine := by
  unfold Activity.releaseAndFinish
  dsimp only
  split
  · exact hideIme_genuine _ reason
  · exact h

end Activity

namespace System

inductive Move : System → System → Prop
  /-- Nothing that an engine could tell: the manager's activity and timeouts change, or the
  activities do, as long as they take input only for what they were activated for. -/
  | silent (s : System) (proxyActivity : Option Nat) (preparingRequestId : Nat)
      (openTimeout : Bool) (activities : List Activity) (intents : List Intent)
      (posted : List Nat)
      (hgenuine : (∀ x ∈ s.activities, x.Genuine) → ∀ x ∈ activities, x.Genuine) :
      Move s { s with
        manager := { s.manager with
          proxyActivity := proxyActivity
          preparingRequestId := preparingRequestId
          openTimeout := openTimeout }
        activities := activities
        intents := intents
        posted := posted }
  | closing (s : System) (reason : String) (hstate : s.manager.state ≠ .hidden) :
      Move s (s.enter .closing reason)
  | visible (s : System) (reason : String) (hstate : s.manager.state = .opening) :
      Move s (enter { s with shown := s.shown ++ [s.manager.requestId] } .visible reason)
  | hidden (s : System) (reason : String) : Move s (s.finishHidden reason false)
  | typed (s : System) (a : Nat) (x : Activity) (input : Input)
      (hx : s.activities[a]? = some x) (hfocus : x.focusable = true) :
      Move s ((s.record a x input).commit x.requestId x.sessionId input s.typed.length)

/-- Any number of moves. -/
abbrev Moves : System → System → Prop := Relation.ReflTransGen Move

theorem Moves.keeps {P : System → Prop} (hP : ∀ s s', Move s s' → P s → P s') {s s' : System}
    (hmoves : Moves s s') (hs : P s) : P s' := by
  induction hmoves with
  | refl => exact hs
  | tail _ hmove ih => exact hP _ _ hmove ih

variable {s : System} {f : Activity → Activity}

private theorem genuine_modify {l : List Activity} {a : Nat}
    (hf : ∀ x, x.Genuine → (f x).Genuine) (h : ∀ x ∈ l, x.Genuine) :
    ∀ x ∈ l.modify a f, x.Genuine := by
  intro x hx
  obtain ⟨b, hb⟩ := List.mem_iff_getElem?.mp hx
  rw [List.getElem?_modify] at hb
  obtain ⟨y, hy, hyx⟩ := Option.map_eq_some_iff.mp hb
  have hygenuine := h y (List.mem_of_getElem? hy)
  split at hyx
  · exact hyx ▸ hf y hygenuine
  · exact hyx ▸ hygenuine

theorem modify_move (a : Nat) (hf : ∀ x, x.Genuine → (f x).Genuine) : Move s (s.modify a f) :=
  .silent s s.manager.proxyActivity s.manager.preparingRequestId s.manager.openTimeout _
    s.intents s.posted (genuine_modify hf)

theorem modify_moves (a : Nat) (hf : ∀ x, x.Genuine → (f x).Genuine) : Moves s (s.modify a f) :=
  .single (modify_move a hf)

theorem manager_moves (s : System) (proxyActivity : Option Nat) (preparingRequestId : Nat)
    (openTimeout : Bool) : Moves s { s with manager := { s.manager with
      proxyActivity := proxyActivity
      preparingRequestId := preparingRequestId
      openTimeout := openTimeout } } :=
  .single (.silent s proxyActivity preparingRequestId openTimeout s.activities s.intents
    s.posted id)

theorem startClosing_moves (hstate : s.manager.state ≠ .hidden) (reason : String) :
    Moves s (s.startClosing reason) :=
  .head (.closing s reason hstate) (manager_moves (s.enter .closing reason) _ _ _)

theorem close_moves (reason : String) (expected : Option Nat) :
    Moves s (s.close reason expected) := by
  rcases close_cases s reason expected with ⟨-, heq⟩ | ⟨hstate, ⟨a, -, heq⟩ | ⟨-, heq⟩⟩
  · rw [heq]
  · rw [heq]
    exact (startClosing_moves hstate reason).tail
      (modify_move a fun x _ => x.hideIme_genuine reason)
  · rw [heq]
    exact (startClosing_moves hstate reason).tail (.hidden _ reason)

theorem release_moves (reason : String) : Moves s (s.release reason) := by
  have hstart : Moves s s.startRelease := manager_moves s _ _ _
  rcases release_cases s reason with ⟨a, -, heq⟩ | ⟨-, heq⟩
  · rw [heq]
    exact hstart.tail (modify_move a fun _ hx => hx.releaseAndFinish reason)
  · rw [heq]
    exact hstart.tail (.hidden _ reason)

theorem launchIfCurrent_moves (i : Intent) (launched : Bool) :
    Moves s (s.launchIfCurrent i launched) := by
  rcases launchIfCurrent_cases s i launched with heq | ⟨-, heq⟩ | heq
  · rw [heq]
  · rw [heq]
    exact .single (.silent s s.manager.proxyActivity s.manager.preparingRequestId
      s.manager.openTimeout s.activities _ s.posted id)
  · rw [heq]
    exact .single (.hidden s _)

theorem openProxy_moves {e : Nat} {sessionId : String} {d : Displays} {launched : Bool}
    (hstate : s.manager.state = .hidden) :
    Moves (s.announce e sessionId d) (s.openProxy e sessionId d launched) := by
  rcases openProxy_cases s e sessionId d launched with
    ⟨hbusy, -⟩ | ⟨-, ⟨a, requestId, -, heq⟩ | ⟨i, heq⟩ | heq⟩
  · exact absurd hstate hbusy
  · rw [heq]
    exact modify_moves a fun x _ => x.activate_genuine requestId sessionId
  · rw [heq]
    exact launchIfCurrent_moves i launched
  · rw [heq]

theorem onActivityReady_moves (a requestId displayId : Nat) :
    Moves s (s.onActivityReady a requestId displayId).1 := by
  unfold onActivityReady
  dsimp only
  split
  case isTrue => exact .refl
  case isFalse =>
    split
    case isTrue =>
      exact .single (.silent s _ _ s.manager.openTimeout s.activities s.intents _ id)
    case isFalse =>
      exact .single (.silent s _ _ s.manager.openTimeout s.activities s.intents s.posted id)

theorem onImeVisibilityChanged_moves (requestId : Nat) (visible : Bool) :
    Moves s (s.onImeVisibilityChanged requestId visible) := by
  unfold onImeVisibilityChanged
  split
  case isTrue => exact .refl
  case isFalse =>
    split
    case isTrue hopening =>
      rw [Bool.and_eq_true, decide_eq_true_eq] at hopening
      exact (manager_moves s s.manager.proxyActivity s.manager.preparingRequestId false).tail
        (.visible _ _ hopening.2)
    case isFalse =>
      split
      case isTrue => exact close_moves ..
      case isFalse => exact .refl

theorem onImeHidden_moves (requestId : Nat) (reason : String) :
    Moves s (s.onImeHidden requestId reason) := by
  rcases onImeHidden_cases s requestId reason with ⟨-, heq⟩ | ⟨-, heq | ⟨a, heq⟩⟩
  · rw [heq]
  · rw [heq]
    exact .single (.hidden s reason)
  · rw [heq]
    exact (Relation.ReflTransGen.single (.hidden s reason)).tail
      (modify_move a fun _ hx => hx.releaseAndFinish reason)

theorem onActivityDestroyed_moves (a : Nat) (reason : String) :
    Moves s (s.onActivityDestroyed a reason) := by
  have hforget : Moves s s.forget := manager_moves s none 0 s.manager.openTimeout
  rcases onActivityDestroyed_cases s a reason with ⟨-, heq⟩ | ⟨-, -, heq⟩ | ⟨-, -, heq⟩
  · rw [heq]
  · rw [heq]
    exact hforget
  · rw [heq]
    exact hforget.tail (.hidden _ reason)

theorem completeHide_moves (a : Nat) : Moves s (s.completeHide a) := by
  cases hx : s.activities[a]? with
  | none => rw [completeHide_none s hx]
  | some x =>
    rcases completeHide_cases s hx with ⟨-, heq⟩ | ⟨-, -, heq⟩ | ⟨-, -, heq⟩
    · rw [heq]
      exact modify_moves a fun _ hx => hx
    · rw [heq]
      exact modify_moves a fun _ hx => hx
    · rw [heq]
      have hhid : Moves s (s.modify a Activity.hid) := modify_moves a fun _ hx => hx
      exact hhid.trans (onImeHidden_moves ..)

theorem reportImeInsets_moves (a : Nat) (visible : Bool) :
    Moves s (s.reportImeInsets a visible) := by
  unfold reportImeInsets
  split
  case h_1 x _ =>
    split
    case isTrue => exact .refl
    case isFalse =>
      have hlogged : Moves s
          (s.modify a fun x => { x with lastLoggedImeVisible := some visible }) :=
        modify_moves a fun _ hx => hx
      have hreported := hlogged.trans (onImeVisibilityChanged_moves x.requestId visible)
      dsimp only
      split
      case h_1 =>
        split
        case isTrue => exact hreported.trans (completeHide_moves a)
        case isFalse => exact hreported
      case h_2 => exact hreported
  case h_2 => exact .refl

theorem onBackPressed_moves (a : Nat) : Moves s (s.onBackPressed a) := by
  unfold onBackPressed
  split
  case h_1 =>
    split
    case isTrue => exact .refl
    case isFalse => exact close_moves ..
  case h_2 => exact .refl

theorem onDestroy_moves (a : Nat) : Moves s (s.onDestroy a) := by
  rcases onDestroy_cases s a with heq | ⟨x, -, -, heq⟩
  · rw [heq]
  · rw [heq]
    have hgone : Moves s (s.modify a Activity.gone) := modify_moves a fun _ hx => hx
    exact hgone.trans (onActivityDestroyed_moves ..)

theorem create_moves (i : Intent) (displayId : Nat) : Moves s (s.create i displayId) := by
  unfold create
  split
  case isTrue => exact .refl
  case isFalse =>
    have hnew : Moves s { s with
        activities := s.activities ++ [Activity.create i.requestId i.sessionId displayId] } := by
      apply Relation.ReflTransGen.single
      refine .silent s s.manager.proxyActivity s.manager.preparingRequestId
        s.manager.openTimeout _ s.intents s.posted fun h x hx => ?_
      rcases List.mem_append.mp hx with hold | hcreated
      · exact h x hold
      · rw [List.mem_singleton.mp hcreated]
        exact nofun
    have hready := hnew.trans (onActivityReady_moves s.activities.length i.requestId displayId)
    dsimp only
    split
    case h_1 t heq =>
      rw [heq] at hready
      exact hready
    case h_2 t heq =>
      rw [heq] at hready
      exact hready.tail (modify_move _ fun _ hx => hx)

theorem onTextChanged_moves (a start before : Nat) (inserted : List Char) (composing : Bool) :
    Moves s (s.onTextChanged a start before inserted composing) := by
  rcases onTextChanged_cases s a start before inserted composing with
    heq | ⟨_, heq⟩ | ⟨x, text, hx, hfocus, heq⟩
  · rw [heq]
  · rw [heq]
    exact modify_moves a fun _ hx => hx
  · rw [heq]
    exact (Relation.ReflTransGen.single (.typed s a x (.text text) hx hfocus)).tail
      (modify_move a fun _ hx => hx)

theorem onKey_moves (a : Nat) (key : String) : Moves s (s.onKey a key) := by
  rcases onKey_cases s a key with heq | ⟨x, hx, hfocus, heq⟩
  · rw [heq]
  · rw [heq]
    exact .single (.typed s a x (.key key) hx hfocus)

def ofEngine : Event → Bool
  | .openKeyboard .. | .openKeyboardUnlocked _ | .call .. | .reset _ | .setSession ..
  | .deliver _ | .receive .. => true
  | _ => false

theorem step_moves {ev : Event} (hnative : ofEngine ev = false) : Moves s (s.step ev) := by
  unfold step
  cases ev with
  | openTimeout =>
    dsimp only
    split
    case isTrue =>
      have htimeout : Moves s { s with manager := { s.manager with openTimeout := false } } :=
        manager_moves s _ _ _
      split
      case isTrue => exact htimeout.trans (close_moves ..)
      case isFalse => exact htimeout
    case isFalse => exact .refl
  | activate a =>
    dsimp only
    split
    case isTrue =>
      have hposted : Moves s { s with posted := s.posted.erase a } :=
        .single (.silent s s.manager.proxyActivity s.manager.preparingRequestId
          s.manager.openTimeout s.activities s.intents _ id)
      exact hposted.tail (modify_move a fun x _ => x.activate_genuine _ _)
    case isFalse => exact .refl
  | create i displayId =>
    dsimp only
    split
    case isTrue => exact create_moves ..
    case isFalse => exact .refl
  | reportImeInsets a visible => exact reportImeInsets_moves ..
  | onBackPressed a => exact onBackPressed_moves ..
  | hideTimeout a =>
    dsimp only
    split
    case h_1 =>
      split
      case isTrue => exact completeHide_moves ..
      case isFalse => exact .refl
    case h_2 => exact .refl
  | onDestroy a => exact onDestroy_moves ..
  | onTextChanged a start before inserted composing => exact onTextChanged_moves ..
  | onKey a key => exact onKey_moves ..
  | onDisplayRemoved displayId =>
    dsimp only
    split
    case isTrue => exact release_moves ..
    case isFalse => exact .refl
  | onDisplayChanged displayId on =>
    dsimp only
    split
    case isTrue => exact release_moves ..
    case isFalse => exact .refl
  | release reason => exact release_moves ..
  | _ => cases hnative

end System
end RustDesk.KeyboardProxy
