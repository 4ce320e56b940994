import Mathlib.Algebra.GroupWithZero.Nat
import RustDesk.KeyboardProxy.Effects
import RustDesk.Lib.Leads
import RustDesk.Lib.Run

/-!
# The keyboard proxy and what it waits for

While the proxy opens or closes, something has to be pending that ends it.  An opening proxy
has its open timeout, or an activity that finishes or hides the keyboard to finish then.  A
closing one has an activity that finishes, or one that waits for the keyboard to go and has
its hide timeout.

The activation of an activity is posted and runs later.  If the proxy was closed or released
in between, it takes back the request to close and the hide timeout with it, and nothing is
left that would end the closing.  **As long as no activation does that, and no second activity
registers for a request that is being released, the proxy is never stuck**
(`never_stuck_of_proper`).
-/

namespace RustDesk.KeyboardProxy

open List

namespace Activity

def Hiding (x : Activity) : Prop :=
  x.finishing = true ∨ (x.closeRequested = true ∧ x.hideTimeout = true)

def Leaving (x : Activity) : Prop :=
  x.finishing = true ∨ (x.closeRequested = true ∧ x.hideTimeout = true ∧ x.releaseRequested = true)

structure Continues (x y : Activity) : Prop where
  requestId : y.requestId = x.requestId
  destroyed : y.destroyed = x.destroyed
  hides : x.Hiding → y.Hiding
  leaves : x.Leaving → y.Leaving

theorem Leaving.toHiding {x : Activity} (h : x.Leaving) : x.Hiding := by
  rcases h with hfinishing | ⟨hclose, htimeout, -⟩
  · exact .inl hfinishing
  · exact .inr ⟨hclose, htimeout⟩

theorem hideIme_hiding (x : Activity) (reason : String) : (x.hideIme reason).Hiding :=
  .inr ⟨rfl, rfl⟩

theorem releaseAndFinish_leaving (x : Activity) (reason : String) :
    (x.releaseAndFinish reason).Leaving := by
  unfold releaseAndFinish
  dsimp only
  split
  · exact .inr ⟨rfl, rfl, rfl⟩
  · exact .inl rfl

@[simp] theorem releaseAndFinish_requestId (x : Activity) (reason : String) :
    (x.releaseAndFinish reason).requestId = x.requestId := by
  unfold releaseAndFinish
  dsimp only
  split <;> rfl

@[simp] theorem releaseAndFinish_destroyed (x : Activity) (reason : String) :
    (x.releaseAndFinish reason).destroyed = x.destroyed := by
  unfold releaseAndFinish
  dsimp only
  split <;> rfl

end Activity

namespace System

def registered (s : System) : Option Activity :=
  s.manager.proxyActivity.bind (s.activities[·]?)

/-- Whatever the manager waits for, something is under way that ends it. -/
structure Live (s : System) : Prop where
  hidden : s.manager.state = .hidden → s.manager.proxyActivity = none
  opening : s.manager.state = .opening → s.manager.openTimeout = true ∨
    ∃ x ∈ s.registered, x.finishing = true ∨ x.closeRequested = true
  closing : s.manager.state = .closing →
    ∃ x ∈ s.registered, x.finishing = true ∨ (x.closeRequested = true ∧ x.hideTimeout = true)

/-- The event can happen now. -/
def Pending (s : System) : Event → Prop
  | .openTimeout => s.manager.openTimeout = true
  | .activate a => a ∈ s.posted
  | .hideTimeout a => ∃ x ∈ s.activities[a]?, x.hideTimeout = true
  | .onDestroy a => ∃ x ∈ s.activities[a]?, x.finishing = true ∧ x.destroyed = false
  | _ => False

/-- The manager waits for nothing. -/
def Settled (s : System) : Prop := s.manager.state = .hidden ∨ s.manager.state = .visible

/-- The steps that take back nothing: a posted activation does not reach the registered
activity while that is asked to close, unless the activity finishes or the keyboard is
visible, and no activity registers for a request without its open timeout. -/
def Proper (s : System) : Event → Prop
  | .activate a => a ∈ s.posted → s.manager.proxyActivity = some a →
      s.manager.state = .visible ∨
        ∀ x ∈ s.activities[a]?, x.closeRequested = false ∨ x.finishing = true
  | .create i displayId => i ∈ s.intents → displayId = i.targetDisplayId →
      displayId = s.manager.targetDisplayId → i.requestId = s.manager.requestId →
      s.manager.state = .opening → s.manager.openTimeout = true
  | _ => True

instance decidableProper (s : System) : ∀ ev, Decidable (s.Proper ev)
  | .activate _ => inferInstanceAs (Decidable (_ → _ → _ ∨ _))
  | .create .. => inferInstanceAs (Decidable (_ → _ → _ → _ → _ → _))
  | .openKeyboard .. | .openKeyboardUnlocked _ | .call .. | .reset _ | .setSession ..
  | .deliver _ | .receive .. | .openTimeout | .reportImeInsets .. | .onBackPressed _
  | .hideTimeout _ | .onDestroy _ | .onTextChanged .. | .onKey .. | .onDisplayRemoved _
  | .onDisplayChanged .. | .release _ => isTrue trivial

/-- **Never stuck**: the proxy waits for something that is pending, and from here the events
that come on their own lead it to hidden or visible, in any order. -/
def NeverStuck (s : System) : Prop :=
  s.Live ∧ Run.Leads step (fun s ev => s.Pending ev ∧ s.Proper ev) Settled s

structure Base (s : System) : Prop where
  preparing : s.manager.preparingRequestId = 0
  intents : ∀ i ∈ s.intents, i.requestId ≠ 0
  hidden : s.manager.state = .hidden → s.manager.proxyActivity = none
  present : ∀ a, s.manager.proxyActivity = some a → ∃ x, s.activities[a]? = some x ∧
    x.destroyed = false ∧ x.requestId = s.manager.requestId

/-- The invariant.  A release hides the keyboard of an opening proxy for good, so that the
activity is destroyed next. -/
structure Sound (s : System) : Prop extends Base s where
  opening : s.manager.state = .opening → s.manager.openTimeout = true ∨
    ∃ x ∈ s.registered, x.Leaving
  closing : s.manager.state = .closing → ∃ x ∈ s.registered, x.Hiding

variable {s : System}

theorem Sound.live (h : s.Sound) : s.Live where
  hidden := h.hidden
  opening hopening := by
    rcases h.opening hopening with htimeout | ⟨x, hx, hfinishing | ⟨hclose, -, -⟩⟩
    · exact .inl htimeout
    · exact .inr ⟨x, hx, .inl hfinishing⟩
    · exact .inr ⟨x, hx, .inr hclose⟩
  closing := h.closing

theorem Sound.frame {s s' : System} (h : s.Sound) (hmanager : s'.manager = s.manager)
    (hactivities : s'.activities = s.activities) (hintents : s'.intents = s.intents) :
    s'.Sound := by
  obtain ⟨⟨hpreparing, hids, hhidden, hpresent⟩, hopening, hclosing⟩ := h
  unfold registered at hopening hclosing
  rw [← hmanager] at hpreparing hhidden hpresent hopening hclosing
  rw [← hactivities] at hpresent hopening hclosing
  rw [← hintents] at hids
  exact ⟨⟨hpreparing, hids, hhidden, hpresent⟩, hopening, hclosing⟩

variable {a : Nat}

theorem registered_eq (ha : s.manager.proxyActivity = some a) :
    s.registered = s.activities[a]? := by
  rw [registered, ha]
  rfl

theorem registered_modify (s : System) (a : Nat) (f : Activity → Activity) :
    (s.modify a f).registered =
      if s.manager.proxyActivity = some a then s.registered.map f else s.registered := by
  unfold registered modify
  cases hproxy : s.manager.proxyActivity with
  | none => rfl
  | some b =>
    change (s.activities.modify a f)[b]? = _
    rw [List.getElem?_modify]
    by_cases hab : a = b
    · subst hab
      simp
    · have hba : some b ≠ some a := fun heq => hab (Option.some.inj heq).symm
      simp [hab, hba]

variable {f : Activity → Activity}

theorem Base.modify (h : s.Base)
    (hf : s.manager.proxyActivity = some a → ∀ x ∈ s.activities[a]?, x.destroyed = false →
      x.requestId = s.manager.requestId →
      (f x).destroyed = false ∧ (f x).requestId = s.manager.requestId) :
    (s.modify a f).Base := by
  refine ⟨h.preparing, h.intents, h.hidden, fun b hb => ?_⟩
  obtain ⟨x, hx, hdestroyed, hrequest⟩ := h.present b hb
  change ∃ y, (s.activities.modify a f)[b]? = some y ∧ _
  rw [List.getElem?_modify, hx]
  by_cases hab : a = b
  · subst hab
    exact ⟨f x, by simp, hf hb x hx hdestroyed hrequest⟩
  · exact ⟨x, by simp [hab], hdestroyed, hrequest⟩

theorem registered_modify_of {P : Activity → Prop}
    (hf : s.manager.proxyActivity = some a → ∀ x ∈ s.activities[a]?, P x → P (f x))
    (hsome : ∃ x ∈ s.registered, P x) : ∃ x ∈ (s.modify a f).registered, P x := by
  obtain ⟨x, hx, hPx⟩ := hsome
  rw [registered_modify]
  split
  case isTrue ha =>
    have hxa : s.activities[a]? = some x := (registered_eq ha).symm.trans hx
    exact ⟨f x, by rw [hx]; rfl, hf ha x hxa hPx⟩
  case isFalse => exact ⟨x, hx, hPx⟩

theorem Sound.modify (h : s.Sound)
    (hf : s.manager.proxyActivity = some a → ∀ x ∈ s.activities[a]?, x.Continues (f x)) :
    (s.modify a f).Sound := by
  refine ⟨h.toBase.modify fun ha x hx hdestroyed hrequest => ?_, fun hopening => ?_,
    fun hclosing => ?_⟩
  · exact ⟨(hf ha x hx).destroyed.trans hdestroyed, (hf ha x hx).requestId.trans hrequest⟩
  · rcases h.opening hopening with htimeout | hleaving
    · exact .inl htimeout
    · exact .inr (registered_modify_of (fun ha x hx => (hf ha x hx).leaves) hleaving)
  · exact registered_modify_of (fun ha x hx => (hf ha x hx).hides) (h.closing hclosing)

theorem Base.finishHidden (h : s.Base) (reason : String) : (s.finishHidden reason false).Sound := by
  refine ⟨⟨?_, ?_, ?_, ?_⟩, ?_, ?_⟩
  · simpa using h.preparing
  · simpa using h.intents
  · simp
  · simp
  · simp
  · simp

theorem Base.startClosing (h : s.Base) (reason : String) : (s.startClosing reason).Base := by
  refine ⟨?_, ?_, ?_, ?_⟩
  · simpa using h.preparing
  · simpa using h.intents
  · simp
  · simpa using h.present

theorem Base.close (h : s.Base) (reason : String) (expected : Option Nat) :
    ((expected.any (· ≠ s.manager.requestId) = true ∨ s.manager.state = .hidden) ∧
      s.close reason expected = s) ∨ (s.close reason expected).Sound := by
  rcases close_cases s reason expected with hsame | ⟨-, ⟨a, ha, heq⟩ | ⟨-, heq⟩⟩
  · exact .inl hsame
  · right
    rw [heq]
    have hbase := h.startClosing reason
    have ha' : (s.startClosing reason).manager.proxyActivity = some a := by simpa using ha
    refine ⟨hbase.modify fun _ x _ hdestroyed hrequest => ⟨hdestroyed, hrequest⟩, ?_, ?_⟩
    · intro hopening
      have hclosing : (s.startClosing reason).manager.state = .opening := hopening
      simp at hclosing
    · intro _
      obtain ⟨x, hx, -⟩ := hbase.present a ha'
      refine ⟨x.hideIme reason, ?_, Activity.hideIme_hiding x reason⟩
      rw [registered_modify, if_pos ha', registered_eq ha', hx]
      rfl
  · right
    rw [heq]
    exact (h.startClosing reason).finishHidden reason

theorem Sound.close (h : s.Sound) (reason : String) (expected : Option Nat) :
    (s.close reason expected).Sound := by
  rcases h.toBase.close reason expected with ⟨-, heq⟩ | hsound
  · rw [heq]
    exact h
  · exact hsound

theorem Sound.openTimeout (h : s.Sound) : (s.step .openTimeout).Sound := by
  unfold System.step
  dsimp only
  split
  case isTrue =>
    have hbase : Base { s with manager := { s.manager with openTimeout := false } } :=
      ⟨h.preparing, h.intents, h.hidden, h.present⟩
    split
    case isTrue hopening =>
      rcases hbase.close "open_timeout" none with ⟨hno | hhidden, -⟩ | hsound
      · cases hno
      · exact absurd (hopening.symm.trans hhidden) nofun
      · exact hsound
    case isFalse hstate => exact ⟨hbase, fun hopening => absurd hopening hstate, h.closing⟩
  case isFalse => exact h

theorem Sound.release (h : s.Sound) (reason : String) : (s.release reason).Sound := by
  have hbase : s.startRelease.Base := ⟨rfl, h.intents, h.hidden, h.present⟩
  rcases release_cases s reason with ⟨a, ha, heq⟩ | ⟨-, heq⟩
  · obtain ⟨x, hx, -⟩ := h.present a ha
    have hleaving : ∃ y ∈ (s.startRelease.modify a (·.releaseAndFinish reason)).registered,
        y.Leaving := by
      refine ⟨x.releaseAndFinish reason, ?_, x.releaseAndFinish_leaving reason⟩
      have ha' : s.startRelease.manager.proxyActivity = some a := ha
      have hregistered : s.startRelease.registered = some x := (registered_eq ha').trans hx
      rw [registered_modify, if_pos ha', hregistered]
      rfl
    rw [heq]
    refine ⟨hbase.modify fun _ y _ hdestroyed hrequest => ?_, fun _ => .inr hleaving, fun _ => ?_⟩
    · simp only [Activity.releaseAndFinish_destroyed, Activity.releaseAndFinish_requestId]
      exact ⟨hdestroyed, hrequest⟩
    · obtain ⟨y, hy, hyleaving⟩ := hleaving
      exact ⟨y, hy, hyleaving.toHiding⟩
  · rw [heq]
    exact hbase.finishHidden reason

variable {x : Activity}

theorem Sound.onActivityReady (h : s.Sound)
    (hx : s.activities[a]? = some x) (hdestroyed : x.destroyed = false)
    (hid : x.requestId ≠ 0) (displayId : Nat)
    (htimeout : displayId = s.manager.targetDisplayId → x.requestId = s.manager.requestId →
      s.manager.state = .opening → s.manager.openTimeout = true) :
    (s.onActivityReady a x.requestId displayId).1.Sound := by
  unfold System.onActivityReady
  dsimp only
  split
  case isTrue => exact h
  case isFalse hgo =>
    rw [not_or, not_and_or, not_not, not_not, not_not] at hgo
    obtain ⟨hdisplay, hprepared | ⟨hrequest, hopening⟩⟩ := hgo
    · exact absurd (hprepared.trans h.preparing) hid
    · have hnew : Sound { s with manager := { s.manager with
          proxyActivity := some a
          preparingRequestId := if x.requestId = s.manager.preparingRequestId then 0
            else s.manager.preparingRequestId } } := by
        refine ⟨⟨?_, h.intents, ?_, ?_⟩, ?_, ?_⟩
        · change (if _ then 0 else s.manager.preparingRequestId) = 0
          rw [h.preparing, ite_self]
        · exact fun hhidden => absurd (hopening.symm.trans hhidden) nofun
        · intro b hb
          obtain rfl : a = b := Option.some.inj hb
          exact ⟨x, hx, hdestroyed, hrequest⟩
        · exact fun _ => .inl (htimeout hdisplay hrequest hopening)
        · exact fun hclosing => absurd (hopening.symm.trans hclosing) nofun
      rw [if_pos hopening]
      exact hnew.frame rfl rfl rfl

theorem Sound.onImeVisibilityChanged (h : s.Sound) (requestId : Nat)
    (visible : Bool) : (s.onImeVisibilityChanged requestId visible).Sound := by
  unfold System.onImeVisibilityChanged
  dsimp only
  split
  case isTrue => exact h
  case isFalse =>
    split
    case isTrue =>
      refine ⟨⟨?_, ?_, ?_, ?_⟩, ?_, ?_⟩
      · simpa using h.preparing
      · simpa using h.intents
      · simp
      · simpa using h.present
      · simp
      · simp
    case isFalse =>
      split
      case isTrue => exact h.close "user_hidden" (some requestId)
      case isFalse => exact h

theorem Base.onImeHidden (h : s.Base) (requestId : Nat) (reason : String) :
    ((requestId ≠ s.manager.requestId ∨ s.manager.state ≠ .closing) ∧
      s.onImeHidden requestId reason = s) ∨
    ((s.onImeHidden requestId reason).Sound ∧
      (s.onImeHidden requestId reason).manager.state = .hidden) := by
  have hhidden := h.finishHidden reason
  rcases onImeHidden_cases s requestId reason with hsame | ⟨-, heq | ⟨a, heq⟩⟩
  · exact .inl hsame
  · rw [heq]
    exact .inr ⟨hhidden, by simp⟩
  · rw [heq]
    refine .inr ⟨hhidden.modify fun ha => ?_, ?_⟩
    · simp at ha
    · change (s.finishHidden reason false).manager.state = .hidden
      simp

/-- **The hide timeout runs, or the keyboard goes.**  A closing proxy with its activity hiding
becomes hidden; an activity that is released finishes. -/
theorem Sound.completeHide (h : s.Sound) (a : Nat) : (s.completeHide a).Sound := by
  cases hx : s.activities[a]? with
  | none =>
    rw [completeHide_none s hx]
    exact h
  | some x =>
    rcases completeHide_cases s hx with ⟨hclose, heq⟩ | ⟨-, -, heq⟩ | ⟨hclose, hrelease, heq⟩
    · rw [heq]
      refine h.modify fun _ y hy => ?_
      obtain rfl : x = y := Option.some.inj (hx.symm.trans hy)
      refine ⟨rfl, rfl, fun hhiding => ?_, fun hleaving => ?_⟩
      · rcases hhiding with hfinishing | ⟨hclosed, -⟩
        · exact .inl hfinishing
        · exact absurd (hclosed.symm.trans hclose) nofun
      · rcases hleaving with hfinishing | ⟨hclosed, -⟩
        · exact .inl hfinishing
        · exact absurd (hclosed.symm.trans hclose) nofun
    · rw [heq]
      exact h.modify fun _ y _ => ⟨rfl, rfl, fun _ => .inl rfl, fun _ => .inl rfl⟩
    · rw [heq]
      have hbase : (s.modify a Activity.hid).Base :=
        h.toBase.modify fun _ _ _ hdestroyed hrequest => ⟨hdestroyed, hrequest⟩
      rcases hbase.onImeHidden x.requestId x.finishReason with ⟨hother, hsame⟩ | ⟨hsound, -⟩
      · rw [hsame]
        refine ⟨hbase, fun hopening => ?_, fun hclosing => ?_⟩
        · rcases h.opening hopening with htimeout | hleaving
          · exact .inl htimeout
          · refine .inr (registered_modify_of (fun _ y hy hyleaving => ?_) hleaving)
            obtain rfl : x = y := Option.some.inj (hx.symm.trans hy)
            rcases hyleaving with hfinishing | ⟨-, -, hreleased⟩
            · exact .inl hfinishing
            · exact absurd (hreleased.symm.trans hrelease) nofun
        · -- the activity that reported is another one
          rcases hother with hrequest | hstate
          · refine registered_modify_of (fun ha y hy hyhiding => ?_) (h.closing hclosing)
            obtain rfl : x = y := Option.some.inj (hx.symm.trans hy)
            obtain ⟨z, hz, -, hzrequest⟩ := h.present a ha
            obtain rfl : x = z := Option.some.inj (hx.symm.trans hz)
            exact absurd hzrequest hrequest
          · exact absurd hclosing hstate
      · exact hsound

theorem Sound.reportImeInsets (h : s.Sound) (a : Nat) (visible : Bool) :
    (s.reportImeInsets a visible).Sound := by
  unfold System.reportImeInsets
  split
  case h_1 x _ =>
    split
    case isTrue => exact h
    case isFalse =>
      have hlogged : (s.modify a fun x => { x with lastLoggedImeVisible := some visible }).Sound :=
        h.modify fun _ _ _ => ⟨rfl, rfl, id, id⟩
      have hreported := hlogged.onImeVisibilityChanged x.requestId visible
      dsimp only
      split
      case h_1 =>
        split
        case isTrue => exact hreported.completeHide a
        case isFalse => exact hreported
      case h_2 => exact hreported
  case h_2 => exact h

theorem Sound.onBackPressed (h : s.Sound) (a : Nat) : (s.onBackPressed a).Sound := by
  unfold System.onBackPressed
  split
  case h_1 =>
    split
    case isTrue => exact h
    case isFalse => exact h.close ..
  case h_2 => exact h

theorem Sound.onDestroy (h : s.Sound) (a : Nat) :
    (s.onDestroy a).Sound ∧ (s.onDestroy a = s ∨ (s.onDestroy a).manager.state = .hidden ∨
      s.onDestroy a = s.modify a Activity.gone) := by
  rcases onDestroy_cases s a with heq | ⟨x, -, -, heq⟩
  · rw [heq]
    exact ⟨h, .inl rfl⟩
  · rw [heq]
    rcases onActivityDestroyed_cases (s.modify a Activity.gone) a x.finishReason with
      ⟨ha, hsame⟩ | ⟨ha, hhidden, -⟩ | ⟨-, -, hforgot⟩
    · rw [hsame]
      exact ⟨h.modify fun hregistered => absurd hregistered ha, .inr (.inr rfl)⟩
    · exact absurd (ha.symm.trans (h.hidden hhidden)) nofun
    · have hbase : (s.modify a Activity.gone).forget.Base :=
        ⟨rfl, h.intents, fun _ => rfl, nofun⟩
      rw [hforgot]
      exact ⟨hbase.finishHidden x.finishReason, .inr (.inl (by simp))⟩

theorem Sound.add (h : s.Sound) (x : Activity) :
    Sound { s with activities := s.activities ++ [x] } := by
  have hkeep : ∀ y ∈ s.registered,
      y ∈ System.registered { s with activities := s.activities ++ [x] } := by
    intro y hy
    obtain ⟨b, hb, hyb⟩ := Option.bind_eq_some_iff.mp hy
    refine Option.bind_eq_some_iff.mpr ⟨b, hb, ?_⟩
    exact List.getElem?_append_left (List.getElem?_eq_some_iff.mp hyb).1 ▸ hyb
  refine ⟨⟨h.preparing, h.intents, h.hidden, fun b hb => ?_⟩, fun hopening => ?_,
    fun hclosing => ?_⟩
  · obtain ⟨y, hy, hrest⟩ := h.present b hb
    refine ⟨y, ?_, hrest⟩
    exact List.getElem?_append_left (List.getElem?_eq_some_iff.mp hy).1 ▸ hy
  · rcases h.opening hopening with htimeout | ⟨y, hy, hleaving⟩
    · exact .inl htimeout
    · exact .inr ⟨y, hkeep y hy, hleaving⟩
  · obtain ⟨y, hy, hhiding⟩ := h.closing hclosing
    exact ⟨y, hkeep y hy, hhiding⟩

theorem Sound.create (h : s.Sound) {i : Intent} (hi : i ∈ s.intents)
    {displayId : Nat} (hproper : s.Proper (.create i displayId)) :
    (s.create i displayId).Sound := by
  unfold System.create
  split
  case isTrue => exact h
  case isFalse hdisplay =>
    have hx : (s.activities ++ [Activity.create i.requestId i.sessionId displayId])[
        s.activities.length]? = some (Activity.create i.requestId i.sessionId displayId) := by
      rw [List.getElem?_append_right (Nat.le_refl _), Nat.sub_self]
      rfl
    have hready := (h.add (Activity.create i.requestId i.sessionId displayId)).onActivityReady
      hx rfl (h.intents i hi) displayId (hproper hi (not_not.mp hdisplay))
    dsimp only [Activity.create] at hready ⊢
    split
    case h_1 t heq =>
      rw [heq] at hready
      exact hready
    case h_2 t heq =>
      rw [heq] at hready
      exact hready.modify fun _ _ _ => ⟨rfl, rfl, fun _ => .inl rfl, fun _ => .inl rfl⟩

theorem Sound.activate (h : s.Sound) (a : Nat) (hproper : s.Proper (.activate a)) :
    (s.step (.activate a)).Sound := by
  unfold System.step
  dsimp only
  split
  case isFalse => exact h
  case isTrue hposted =>
    have hbefore : Base { s with posted := s.posted.erase a } :=
      ⟨h.preparing, h.intents, h.hidden, h.present⟩
    have hbase : (System.modify { s with posted := s.posted.erase a } a
        (·.activate s.manager.requestId s.manager.sessionId)).Base :=
      hbefore.modify fun _ _ _ hdestroyed _ => ⟨hdestroyed, rfl⟩
    have hfinishes : s.manager.state ≠ .visible → s.manager.proxyActivity = some a →
        ∀ x ∈ s.activities[a]?, x.Hiding → x.finishing = true := by
      intro hstate ha x hx hhiding
      rcases hproper hposted ha with hvisible | hcalm
      · exact absurd hvisible hstate
      · rcases hhiding with hfinishing | ⟨hclose, -⟩
        · exact hfinishing
        · exact (hcalm x hx).resolve_left (by simp [hclose])
    refine ⟨hbase, fun hopening => ?_, fun hclosing => ?_⟩
    · have hstate : s.manager.state ≠ .visible := fun hvisible =>
        absurd (hopening.symm.trans hvisible) nofun
      rcases h.opening hopening with htimeout | hleaving
      · exact .inl htimeout
      · refine .inr (registered_modify_of (fun ha x hx hxleaving => ?_) hleaving)
        exact .inl (hfinishes hstate ha x hx hxleaving.toHiding)
    · have hstate : s.manager.state ≠ .visible := fun hvisible =>
        absurd (hclosing.symm.trans hvisible) nofun
      refine registered_modify_of (fun ha x hx hxhiding => ?_) (h.closing hclosing)
      exact .inl (hfinishes hstate ha x hx hxhiding)

theorem Sound.launchIfCurrent (h : s.Sound) {i : Intent}
    (hid : s.manager.requestId ≠ 0) (launched : Bool) : (s.launchIfCurrent i launched).Sound := by
  rcases launchIfCurrent_cases s i launched with heq | ⟨hcurrent, heq⟩ | heq
  · rw [heq]
    exact h
  · rw [heq]
    refine ⟨⟨h.preparing, fun j hj => ?_, h.hidden, h.present⟩, h.opening, h.closing⟩
    rcases mem_append.mp hj with hold | hnew
    · exact h.intents j hold
    · rw [mem_singleton.mp hnew, ← hcurrent]
      exact hid
  · rw [heq]
    exact h.toBase.finishHidden _

theorem Sound.openProxy (h : s.Sound) (e : Nat) (sessionId : String) (d : Displays)
    (launched : Bool) : (s.openProxy e sessionId d launched).Sound := by
  have hopened : s.manager.state = .hidden → (s.announce e sessionId d).Sound := by
    intro hhidden
    have hproxy := h.hidden hhidden
    refine ⟨⟨?_, ?_, ?_, ?_⟩, ?_, ?_⟩
    · simpa using h.preparing
    · simpa using h.intents
    · simp
    · simp [hproxy]
    · simp
    · simp
  rcases openProxy_cases s e sessionId d launched with
    ⟨-, heq⟩ | ⟨hhidden, ⟨a, -, ha, -⟩ | ⟨i, heq⟩ | heq⟩
  · rw [heq]
    have hprepared : (s.prepare e).Sound :=
      ⟨⟨h.preparing, h.intents, h.hidden, h.present⟩, h.opening, h.closing⟩
    exact hprepared.frame (by simp) (by simp) (by simp)
  · exact absurd (ha.symm.trans (h.hidden hhidden)) nofun
  · rw [heq]
    exact (hopened hhidden).launchIfCurrent (by simp) launched
  · rw [heq]
    exact hopened hhidden

theorem Sound.setEngine (h : s.Sound) (e : Nat) (x : Engine) : (s.setEngine e x).Sound :=
  h.frame rfl rfl rfl

theorem Sound.openKeyboardUnlocked (h : s.Sound) (e : Nat) : (s.openKeyboardUnlocked e).Sound := by
  rcases openKeyboardUnlocked_cases s e with heq | ⟨-, heq⟩
  · rw [heq]
    exact h
  · rw [heq]
    exact h.setEngine ..

theorem Sound.openKeyboard (h : s.Sound) (e : Nat) (closeIntent : Option Bool)
    (prompt : Bool) : (s.openKeyboard e closeIntent prompt).Sound := by
  rcases openKeyboard_cases s e closeIntent prompt with heq | ⟨-, heq⟩ | heq
  · rw [heq]
    exact h
  · rw [heq]
    exact h.setEngine ..
  · rw [heq]
    exact h.openKeyboardUnlocked e

theorem Sound.deliver (h : s.Sound) (e : Nat) : (s.deliver e).Sound := by
  rcases deliver_cases s e with heq | ⟨m, rest, -, heq⟩
  · rw [heq]
    exact h
  · rw [heq]
    have hrest := h.setEngine e { s.engines e with inbox := rest }
    rcases handle_cases (s.setEngine e { s.engines e with inbox := rest }) e m with
      ⟨v, -, hstate⟩ | ⟨_, _, _, _, -, hsame | ⟨-, hpassed⟩⟩
    · rw [hstate]
      exact hrest.setEngine ..
    · rw [hsame]
      exact hrest
    · rw [hpassed]
      exact hrest.frame rfl rfl rfl

theorem Sound.receive (h : s.Sound) (e : Nat) (d : Displays) (launched : Bool) :
    (s.receive e d launched).Sound := by
  unfold System.receive
  split
  case h_1 c rest _ =>
    have hrest := h.setEngine e { s.engines e with calls := rest }
    cases c with
    | openProxy sessionId => exact hrest.openProxy e sessionId d launched
    | prepare =>
      exact ⟨⟨hrest.preparing, hrest.intents, hrest.hidden, hrest.present⟩, hrest.opening,
        hrest.closing⟩
    | close expected => exact hrest.close "close_requested" expected
    | release => exact hrest.release "release_requested"
  case h_2 => exact h

theorem Sound.commit (h : s.Sound) (requestId : Nat) (sessionId : String)
    (input : Input) (ticket : Nat) : (s.commit requestId sessionId input ticket).Sound := by
  rcases commit_cases s requestId sessionId input ticket with heq | ⟨-, -, -, e, heq⟩
  · rw [heq]
    exact h
  · rw [heq]
    exact h.setEngine ..

theorem Sound.onTextChanged (h : s.Sound) (a start before : Nat)
    (inserted : List Char) (composing : Bool) :
    (s.onTextChanged a start before inserted composing).Sound := by
  rcases onTextChanged_cases s a start before inserted composing with
    heq | ⟨_, heq⟩ | ⟨x, text, -, -, heq⟩
  · rw [heq]
    exact h
  · rw [heq]
    exact h.modify fun _ _ _ => ⟨rfl, rfl, id, id⟩
  · rw [heq]
    have hrecord : (s.record a x (.text text)).Sound := h.frame rfl rfl rfl
    exact (hrecord.commit ..).modify fun _ _ _ => ⟨rfl, rfl, id, id⟩

theorem Sound.onKey (h : s.Sound) (a : Nat) (key : String) : (s.onKey a key).Sound := by
  rcases onKey_cases s a key with heq | ⟨x, -, -, heq⟩
  · rw [heq]
    exact h
  · rw [heq]
    have hrecord : (s.record a x (.key key)).Sound := h.frame rfl rfl rfl
    exact hrecord.commit ..

theorem Sound.hideTimeout (h : s.Sound) (a : Nat) : (s.step (.hideTimeout a)).Sound := by
  unfold System.step
  dsimp only
  split
  case h_1 =>
    split
    case isTrue => exact h.completeHide a
    case isFalse => exact h
  case h_2 => exact h

theorem Sound.step (h : s.Sound) {ev : Event} (hproper : s.Proper ev) : (s.step ev).Sound := by
  cases ev with
  | openKeyboard e closeIntent prompt => exact h.openKeyboard e closeIntent prompt
  | openKeyboardUnlocked e => exact h.openKeyboardUnlocked e
  | call e c => exact h.setEngine ..
  | reset e => exact h.setEngine ..
  | setSession e sessionId => exact h.setEngine ..
  | deliver e => exact h.deliver e
  | receive e d launched => exact h.receive e d launched
  | openTimeout => exact h.openTimeout
  | activate a => exact h.activate a hproper
  | create i displayId =>
    unfold System.step
    dsimp only
    split
    case isTrue hi => exact h.create hi hproper
    case isFalse => exact h
  | reportImeInsets a visible => exact h.reportImeInsets a visible
  | onBackPressed a => exact h.onBackPressed a
  | hideTimeout a => exact h.hideTimeout a
  | onDestroy a => exact (h.onDestroy a).1
  | onTextChanged a start before inserted composing => exact h.onTextChanged ..
  | onKey a key => exact h.onKey a key
  | onDisplayRemoved displayId =>
    unfold System.step
    dsimp only
    split
    case isTrue => exact h.release _
    case isFalse => exact h
  | onDisplayChanged displayId on =>
    unfold System.step
    dsimp only
    split
    case isTrue => exact h.release _
    case isFalse => exact h
  | release reason => exact h.release reason

theorem init_sound (sessions : Nat → String) : (init sessions).Sound where
  preparing := rfl
  intents := nofun
  hidden := fun _ => rfl
  present := nofun
  opening := nofun
  closing := nofun

private theorem sum_modify (w : Activity → Nat) (f : Activity → Activity) {l : List Activity}
    (hx : l[a]? = some x) : ((l.modify a f).map w).sum + w x = (l.map w).sum + w (f x) := by
  induction l generalizing a with
  | nil => cases hx
  | cons y l ih =>
    cases a with
    | zero =>
      obtain rfl : y = x := Option.some.inj hx
      simp only [modify_zero_cons, map_cons, sum_cons]
      omega
    | succ a =>
      have hrest := ih (a := a) hx
      simp only [modify_succ_cons, map_cons, sum_cons]
      omega

/-- A hide timeout counts two, as an activity may finish when it has run; a finishing activity
counts one. -/
def weight (x : Activity) : Nat :=
  2 * x.hideTimeout.toNat + (x.finishing && !x.destroyed).toNat

def work (s : System) : Nat :=
  3 * s.manager.openTimeout.toNat + s.posted.length + (s.activities.map weight).sum

theorem work_modify_le {a k : Nat}
    (hf : ∀ x, weight (f x) ≤ weight x + k) : (s.modify a f).work ≤ s.work + k := by
  have hsum : ((s.activities.modify a f).map weight).sum ≤ (s.activities.map weight).sum + k := by
    cases hx : s.activities[a]? with
    | none =>
      rw [modify_eq_self (List.getElem?_eq_none_iff.mp hx)]
      omega
    | some x =>
      have heq := sum_modify weight f hx
      have hle := hf x
      omega
  simp only [work, System.modify]
  omega

theorem work_modify_lt (hx : s.activities[a]? = some x) (hf : weight (f x) < weight x) :
    (s.modify a f).work < s.work := by
  have heq := sum_modify weight f hx
  simp only [work, System.modify]
  omega

theorem Sound.pending_of_hiding (h : s.Sound)
    (hhiding : ∃ x ∈ s.registered, x.Hiding) : ∃ ev, s.Pending ev ∧ s.Proper ev := by
  obtain ⟨x, hx, hxhiding⟩ := hhiding
  obtain ⟨a, ha, hxa⟩ := Option.bind_eq_some_iff.mp hx
  obtain ⟨y, hy, hdestroyed, -⟩ := h.present a ha
  obtain rfl : x = y := Option.some.inj (hxa.symm.trans hy)
  rcases hxhiding with hfinishing | ⟨-, htimeout⟩
  · exact ⟨.onDestroy a, ⟨x, hxa, hfinishing, hdestroyed⟩, trivial⟩
  · exact ⟨.hideTimeout a, ⟨x, hxa, htimeout⟩, trivial⟩

theorem Sound.pending (h : s.Sound) (hunsettled : ¬s.Settled) :
    ∃ ev, s.Pending ev ∧ s.Proper ev := by
  cases hstate : s.manager.state with
  | hidden => exact absurd (.inl hstate) hunsettled
  | visible => exact absurd (.inr hstate) hunsettled
  | opening =>
    rcases h.opening hstate with htimeout | ⟨x, hx, hleaving⟩
    · exact ⟨.openTimeout, htimeout, trivial⟩
    · exact h.pending_of_hiding ⟨x, hx, hleaving.toHiding⟩
  | closing => exact h.pending_of_hiding (h.closing hstate)

theorem openTimeout_settles (htimeout : s.manager.openTimeout = true) :
    (s.step .openTimeout).Settled ∨ (s.step .openTimeout).work < s.work := by
  have hless : work { s with manager := { s.manager with openTimeout := false } } + 3 = s.work := by
    simp only [work, htimeout, Bool.toNat_false, Bool.toNat_true]
    omega
  unfold step
  simp only [htimeout, if_true]
  generalize { s with manager := { s.manager with openTimeout := false } } = t at hless ⊢
  split
  case isFalse => exact .inr (by omega)
  case isTrue hopening =>
    rcases close_cases t "open_timeout" none with
      ⟨-, heq⟩ | ⟨-, ⟨a, -, heq⟩ | ⟨-, heq⟩⟩
    · rw [heq]
      exact .inr (by omega)
    · have hstart : (t.startClosing "open_timeout").work ≤ t.work := by
        simp [work]
      have hhide : ((t.startClosing "open_timeout").modify a (·.hideIme "open_timeout")).work ≤
          (t.startClosing "open_timeout").work + 2 := by
        refine work_modify_le fun x => ?_
        simp only [weight, Activity.hideIme, Bool.toNat_true]
        omega
      rw [heq]
      exact .inr (by omega)
    · rw [heq]
      exact .inl (.inl (by simp))

theorem hideTimeout_settles (hx : s.activities[a]? = some x) (htimeout : x.hideTimeout = true) :
    (s.step (.hideTimeout a)).Settled ∨ (s.step (.hideTimeout a)).work < s.work := by
  have heq : s.step (.hideTimeout a) = s.completeHide a := by
    unfold step
    simp only [hx, htimeout, if_true]
  have hhid : (s.modify a Activity.hid).work < s.work := by
    refine work_modify_lt hx ?_
    simp [weight, Activity.hid, htimeout]
  rw [heq]
  rcases completeHide_cases s hx with ⟨-, hcase⟩ | ⟨-, -, hcase⟩ | ⟨-, -, hcase⟩
  · rw [hcase]
    refine .inr (work_modify_lt hx ?_)
    simp [weight, htimeout]
  · rw [hcase]
    refine .inr (work_modify_lt hx ?_)
    cases hdestroyed : x.destroyed <;>
      simp [weight, Activity.hid, Activity.finish, htimeout, hdestroyed]
    omega
  · rw [hcase]
    rcases onImeHidden_cases (s.modify a Activity.hid) x.requestId x.finishReason with
      ⟨-, hsame⟩ | ⟨-, hdone | ⟨b, hdone⟩⟩
    · rw [hsame]
      exact .inr hhid
    · rw [hdone]
      exact .inl (.inl (by simp))
    · rw [hdone]
      left
      left
      change ((s.modify a Activity.hid).finishHidden x.finishReason false).manager.state = .hidden
      simp

theorem onDestroy_settles (hx : s.activities[a]? = some x) (hfinishing : x.finishing = true)
    (hlive : x.destroyed = false) :
    (s.step (.onDestroy a)).Settled ∨ (s.step (.onDestroy a)).work < s.work := by
  have heq : s.step (.onDestroy a) = s.onDestroy a := rfl
  have hgone : (s.modify a Activity.gone).work < s.work := by
    refine work_modify_lt hx ?_
    simp [weight, Activity.gone, hfinishing, hlive]
  rw [heq, s.onDestroy_of_live hx hlive]
  rcases onActivityDestroyed_cases (s.modify a Activity.gone) a x.finishReason with
    ⟨-, hsame⟩ | ⟨-, hhidden, hforgot⟩ | ⟨-, -, hdone⟩
  · rw [hsame]
    exact .inr hgone
  · rw [hforgot]
    exact .inl (.inl hhidden)
  · rw [hdone]
    exact .inl (.inl (by simp))

theorem activate_lowers (ha : a ∈ s.posted) : (s.step (.activate a)).work < s.work := by
  have hless : work { s with posted := s.posted.erase a } + 1 = s.work := by
    have hlength := length_erase_of_mem ha
    have hpos := length_pos_of_mem ha
    simp only [work, hlength]
    omega
  have hactivate : (System.modify { s with posted := s.posted.erase a } a
      (·.activate s.manager.requestId s.manager.sessionId)).work ≤
        work { s with posted := s.posted.erase a } + 0 := by
    refine work_modify_le fun x => ?_
    simp only [weight, Activity.activate, Bool.toNat_false]
    omega
  have heq : s.step (.activate a) = System.modify { s with posted := s.posted.erase a } a
      (·.activate s.manager.requestId s.manager.sessionId) := if_pos ha
  rw [heq]
  omega

theorem pending_lowers {ev : Event} (hpending : s.Pending ev) :
    (s.step ev).Settled ∨ (s.step ev).work < s.work := by
  cases ev with
  | openTimeout => exact openTimeout_settles hpending
  | activate a => exact .inr (activate_lowers hpending)
  | hideTimeout a =>
    obtain ⟨x, hx, htimeout⟩ := hpending
    exact hideTimeout_settles hx htimeout
  | onDestroy a =>
    obtain ⟨x, hx, hfinishing, hlive⟩ := hpending
    exact onDestroy_settles hx hfinishing hlive
  | _ => exact hpending.elim

theorem Sound.neverStuck (h : s.Sound) : s.NeverStuck := by
  refine ⟨h.live, ?_⟩
  apply Run.leads_of_rank work (P := Sound)
  · exact fun t ht hunsettled => ht.pending hunsettled
  · exact fun t ev ht hev => ht.step hev.2
  · exact fun t ev _ _ hev => pending_lowers hev.1
  · exact h

/-- **The proxy is never stuck**: in every state of a run whose activations take back no
request to close, and in which no second activity registers for a request being released,
what the proxy waits for is pending and leads to hidden or visible. -/
theorem never_stuck_of_proper (sessions : Nat → String) (events : List Event)
    (hproper : Run.Along step Proper (init sessions) events) :
    Run.Always step NeverStuck (init sessions) events := by
  have hsound : Run.Always step Sound (init sessions) events :=
    Run.always_of_along (fun _ _ h hev => h.step hev) (init_sound sessions) hproper
  exact fun pre hpre => (hsound pre hpre).neverStuck

/-- The proxy opens, is closed before the activity is active, and is hidden by its timeout. -/
theorem never_stuck_after_close : Run.Always step NeverStuck (init fun _ => "session")
    [.openKeyboard 0 none false, .receive 0 ⟨0, [(1, true)]⟩ true, .create ⟨1, "session", 1⟩ 1,
      .activate 0, .onBackPressed 0, .hideTimeout 0, .onDestroy 0] :=
  never_stuck_of_proper _ _ (by decide +kernel)

/-- **An activation takes back the close**: the activity is created, the user goes back before
its activation has run, and then it runs.  The proxy closes, and nothing is pending. -/
theorem stuck_after_late_activation :
    let s := Run.exec step (init fun _ => "session")
      [.openKeyboard 0 none false, .receive 0 ⟨0, [(1, true)]⟩ true,
        .create ⟨1, "session", 1⟩ 1, .onBackPressed 0, .activate 0]
    s.manager.state = .closing ∧ (∀ ev, ¬s.Pending ev) ∧ ¬s.NeverStuck := by
  intro s
  have hactivities : s.activities = [{ Activity.create 1 "session" 1 with
      active := true, focusable := true, activation := some (1, "session") }] := by
    decide +kernel
  have hclosing : s.manager.state = .closing := by decide +kernel
  refine ⟨hclosing, fun ev hpending => ?_, fun hstuck => ?_⟩
  · cases ev with
    | openTimeout =>
      have hno : s.manager.openTimeout = false := by decide +kernel
      exact absurd (hpending.symm.trans hno) nofun
    | activate a =>
      have hno : s.posted = [] := by decide +kernel
      exact absurd (hno ▸ hpending : a ∈ []) nofun
    | hideTimeout a =>
      obtain ⟨x, hx, htimeout⟩ := hpending
      rw [hactivities] at hx
      obtain rfl := mem_singleton.mp (mem_of_getElem? hx)
      cases htimeout
    | onDestroy a =>
      obtain ⟨x, hx, hfinishing, -⟩ := hpending
      rw [hactivities] at hx
      obtain rfl := mem_singleton.mp (mem_of_getElem? hx)
      cases hfinishing
    | _ => exact hpending
  · obtain ⟨x, hx, hhiding⟩ := hstuck.1.closing hclosing
    obtain ⟨a, -, hxa⟩ := Option.bind_eq_some_iff.mp hx
    rw [hactivities] at hxa
    obtain rfl := mem_singleton.mp (mem_of_getElem? hxa)
    rcases hhiding with hfinishing | ⟨hclose, -⟩
    · cases hfinishing
    · cases hclose

end System
end RustDesk.KeyboardProxy
