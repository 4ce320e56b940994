import RustDesk.Server.Keyboard
import RustDesk.Lib.Run

/-!
# The state of a key, over uinput (Linux)

The service owns the virtual keyboard; another process asks it for the state of a key over a
stream, and gives up after a second.  Nothing on the stream says which question an answer
belongs to, and the stream is kept when a question is given up, so an answer that comes late is
taken for the answer to the next question.

`UInputKeyboard` is a keyboard of the client with its stream and the handler at the other end.
What the handler puts out on the virtual keyboard has no part here; what it reads from it is
an input.  The calls are numbered, which the code does not do.

* `reported_state_current`: **every state that is reported was read for that very question**, in
  every run where no answer is on its way when a question is asked.
-/

open Run

namespace RustDesk

open List

namespace UInputKeyboard

inductive DataKeyboard where
  | sequence (text : String)
  | keyDown (key : EnigoKey)
  | keyUp (key : EnigoKey)
  | keyClick (key : EnigoKey)
  | getKeyState (key : EnigoKey)

/-- `ipc::Data`, as far as it matters here. -/
inductive Data where
  | keyboard (data : DataKeyboard)
  | keyboardResponse (state : Bool)
  | other

inductive EvdevKey where
  | leftShift
  | rightShift
  | leftCtrl
  | rightCtrl
  | leftAlt
  | rightAlt
  | leftMeta
  | rightMeta
  deriving DecidableEq

inductive LedType where
  | capsLock
  | numLock
  deriving DecidableEq

/-- What `VirtualDevice::get_led_state` and `get_key_state` return, if they succeed. -/
structure VirtualDevice where
  leds : Option (List LedType)
  keys : Option (List EvdevKey)

namespace VirtualDevice

def ledContains (d : VirtualDevice) (led : LedType) : Bool :=
  match d.leds with
  | some leds => leds.contains led
  | none => false

def keysContain (d : VirtualDevice) (left right : EvdevKey) : Bool :=
  match d.keys with
  | some keys => keys.contains left || keys.contains right
  | none => false

/-- `handle_keyboard`: the state of a key. -/
def keyState (d : VirtualDevice) : EnigoKey → Bool
  | .capsLock => d.ledContains .capsLock
  | .numLock => d.ledContains .numLock
  | .shift => d.keysContain .leftShift .rightShift
  | .control => d.keysContain .leftCtrl .rightCtrl
  | .alt => d.keysContain .leftAlt .rightAlt
  | .metaKey => d.keysContain .leftMeta .rightMeta
  | _ => false

end VirtualDevice

/-- `send_get_key_state`, once something has come, the time is up or the stream has ended. -/
def sendGetKeyState : Except String (Option Data) → Except String Bool
  | .ok (some (.keyboardResponse state)) => .ok state
  | .ok (some _) => .error "FATAL error, wait keyboard result other response"
  | .ok none => .error "FATAL error, wait keyboard result, receive None"
  | .error e => .error ("FATAL error, wait keyboard result timeout " ++ e)

def getKeyState (next : Except String (Option Data)) : Bool :=
  match sendGetKeyState next with
  | .ok state => state
  | .error _ => false

structure Report where
  call : Nat
  key : EnigoKey
  state : Bool
  source : Option Nat
  deriving DecidableEq

end UInputKeyboard

open UInputKeyboard

/-- The requests and replies that are on their way, each with the number of its call, the
question that waits, what the handler has read for each question, and what the questions have
returned. -/
structure UInputKeyboard where
  broken : Bool
  requests : List (Nat × DataKeyboard)
  replies : List (Nat × Data)
  waiting : Option (Nat × EnigoKey)
  calls : Nat
  produced : List (Nat × EnigoKey × Bool)
  reports : List Report

namespace UInputKeyboard

def start : UInputKeyboard where
  broken := false
  requests := []
  replies := []
  waiting := none
  calls := 0
  produced := []
  reports := []

def report (s : UInputKeyboard) (call : Nat) (key : EnigoKey)
    (next : Except String (Option Data)) (source : Option Nat) : UInputKeyboard :=
  { s with
    waiting := none
    reports := s.reports ++ [⟨call, key, getKeyState next, source⟩] }

/-- `UInputKeyboard::send`, and for a question the beginning of the wait. -/
def send (s : UInputKeyboard) (data : DataKeyboard) : UInputKeyboard :=
  let call := s.calls
  let s := { s with calls := call + 1 }
  match data with
  | .getKeyState key =>
    if s.broken then s.report call key (.error "Broken pipe") none
    else { s with
      requests := s.requests ++ [(call, data)]
      waiting := some (call, key) }
  | _ => if s.broken then s else { s with requests := s.requests ++ [(call, data)] }

/-- `spawn_keyboard_handler`: the next request. -/
def handle (s : UInputKeyboard) (device : VirtualDevice) : UInputKeyboard :=
  match s.requests with
  | (call, .getKeyState key) :: rest =>
    let state := device.keyState key
    { s with
      requests := rest
      replies := s.replies ++ [(call, .keyboardResponse state)]
      produced := s.produced ++ [(call, key, state)] }
  | _ :: rest => { s with requests := rest }
  | [] => s

def receive (s : UInputKeyboard) : UInputKeyboard :=
  match s.waiting, s.replies with
  | some (call, key), (source, data) :: rest =>
    { s with replies := rest }.report call key (.ok (some data)) (some source)
  | some (call, key), [] =>
    if s.broken then s.report call key (.error "reset by the peer") none else s
  | none, _ => s

def giveUp (s : UInputKeyboard) : UInputKeyboard :=
  match s.waiting with
  | some (call, key) => s.report call key (.error "deadline has elapsed") none
  | none => s

/-- What happens: a call, if none waits; the handler takes a request; an answer comes, or the
time is up; the stream ends. -/
inductive Input where
  | call (data : DataKeyboard)
  | handle (device : VirtualDevice)
  | receive
  | timeout
  | close

def step (s : UInputKeyboard) : Input → UInputKeyboard
  | .call data => if s.waiting.isSome then s else s.send data
  | .handle device => if s.broken then s else s.handle device
  | .receive => s.receive
  | .timeout => s.giveUp
  | .close => { s with broken := true }

/-- **Every answer belongs to its question**: what a question returns is `false`, or the state
that the handler has read for it. -/
def Current (s : UInputKeyboard) : Prop :=
  ∀ r ∈ s.reports, r.state = false ∨ r.source = some r.call ∧ (r.call, r.key, r.state) ∈ s.produced

/-- No answer is on its way, and none is asked for. -/
def Settled (s : UInputKeyboard) : Prop :=
  s.replies = [] ∧ ∀ call key, (call, DataKeyboard.getKeyState key) ∉ s.requests

def Meets (s : UInputKeyboard) : Input → Prop
  | .call (.getKeyState _) => s.waiting = none → s.Settled
  | _ => True

def Awaits (s : UInputKeyboard) (call : Nat) (key : EnigoKey) : Prop :=
  (∀ c k, (c, DataKeyboard.getKeyState k) ∈ s.requests → c = call ∧ k = key) ∧
    ∀ c d, (c, d) ∈ s.replies →
      c = call ∧ ∃ state, d = .keyboardResponse state ∧ (call, key, state) ∈ s.produced

/-- **The invariant.** -/
structure Inv (s : UInputKeyboard) : Prop where
  current : s.Current
  awaits : ∀ call key, s.waiting = some (call, key) → s.Awaits call key

variable {s : UInputKeyboard} {call : Nat} {key : EnigoKey}

theorem inv_start : Inv start where
  current _ hr := absurd hr not_mem_nil
  awaits _ _ h := by cases h

theorem Inv.report (h : s.Inv) {next : Except String (Option Data)} {source : Option Nat}
    (hnext : getKeyState next = false ∨
      source = some call ∧ (call, key, getKeyState next) ∈ s.produced) :
    Inv (s.report call key next source) where
  current r hr := by
    rcases mem_append.mp hr with hr | hr
    · exact h.current r hr
    · rw [mem_singleton.mp hr]
      exact hnext
  awaits _ _ hwaiting := by cases hwaiting

theorem Inv.send (h : s.Inv) {data : DataKeyboard} (hwaiting : s.waiting = none)
    (hmeets : Meets s (.call data)) : Inv (s.send data) := by
  have hcalls : Inv { s with calls := s.calls + 1 } := ⟨h.current, h.awaits⟩
  have hother (d : DataKeyboard) :
      Inv { s with calls := s.calls + 1, requests := s.requests ++ [(s.calls, d)] } :=
    ⟨h.current, fun call key hcall => absurd (hwaiting.symm.trans hcall) (by simp)⟩
  cases data with
  | getKeyState key =>
    unfold UInputKeyboard.send
    dsimp only
    split_ifs with hbroken
    · exact hcalls.report (.inl rfl)
    · obtain ⟨hreplies, hrequests⟩ := hmeets hwaiting
      refine ⟨h.current, fun call key' hcall => ?_⟩
      cases hcall
      refine ⟨fun c k hmem => ?_, fun c d hmem => ?_⟩
      · rcases mem_append.mp hmem with hold | hnew
        · exact absurd hold (hrequests c k)
        · cases mem_singleton.mp hnew
          exact ⟨rfl, rfl⟩
      · change (c, d) ∈ s.replies at hmem
        rw [hreplies] at hmem
        cases hmem
  | _ =>
    unfold UInputKeyboard.send
    dsimp only
    split_ifs
    · exact hcalls
    · exact hother _

theorem Inv.handle (h : s.Inv) (device : VirtualDevice) : Inv (s.handle device) := by
  unfold UInputKeyboard.handle
  split
  · next call key rest hrequests =>
    have hmore {p : Nat × EnigoKey × Bool} (hp : p ∈ s.produced) :
        p ∈ s.produced ++ [(call, key, device.keyState key)] := mem_append_left _ hp
    refine ⟨fun r hr => (h.current r hr).imp id (And.imp id hmore), fun c k hwaiting => ?_⟩
    obtain ⟨hasked, hanswered⟩ := h.awaits c k hwaiting
    obtain ⟨rfl, rfl⟩ := hasked call key (hrequests ▸ mem_cons_self)
    refine ⟨fun c' k' hmem => hasked c' k' (hrequests ▸ mem_cons_of_mem _ hmem),
      fun c' d hmem => ?_⟩
    rcases mem_append.mp hmem with hold | hnew
    · obtain ⟨hc, state, hd, hp⟩ := hanswered c' d hold
      exact ⟨hc, state, hd, hmore hp⟩
    · cases mem_singleton.mp hnew
      exact ⟨rfl, _, rfl, mem_append_right _ (mem_singleton_self _)⟩
  · next rest _ hrequests =>
    refine ⟨h.current, fun c k hwaiting => ?_⟩
    obtain ⟨hasked, hanswered⟩ := h.awaits c k hwaiting
    exact ⟨fun c' k' hmem => hasked c' k' (hrequests ▸ mem_cons_of_mem _ hmem), hanswered⟩
  · exact h

theorem Inv.receive (h : s.Inv) : Inv s.receive := by
  unfold UInputKeyboard.receive
  split
  · next call key source data rest hwaiting hreplies =>
    obtain ⟨-, hanswered⟩ := h.awaits call key hwaiting
    obtain ⟨rfl, state, rfl, hproduced⟩ := hanswered source data (hreplies ▸ mem_cons_self)
    have hrest : Inv { s with replies := rest } :=
      ⟨h.current, fun c k hcall => ⟨(h.awaits c k hcall).1, fun c' d hmem =>
        (h.awaits c k hcall).2 c' d (hreplies ▸ mem_cons_of_mem _ hmem)⟩⟩
    exact hrest.report (.inr ⟨rfl, hproduced⟩)
  · split_ifs
    · exact h.report (.inl rfl)
    · exact h
  · exact h

theorem Inv.giveUp (h : s.Inv) : Inv s.giveUp := by
  unfold UInputKeyboard.giveUp
  split
  · exact h.report (.inl rfl)
  · exact h

theorem Inv.step (h : s.Inv) {i : Input} (hmeets : Meets s i) : Inv (s.step i) := by
  cases i with
  | call data =>
    unfold UInputKeyboard.step
    dsimp only
    split_ifs with hwaiting
    · exact h
    · exact h.send (by simpa using hwaiting) hmeets
  | handle device =>
    unfold UInputKeyboard.step
    dsimp only
    split_ifs
    · exact h
    · exact h.handle device
  | receive => exact h.receive
  | timeout => exact h.giveUp
  | close => exact ⟨h.current, h.awaits⟩

/-- **A key-state answer belongs to its question**, in every run where no answer is on its way
when a question is asked. -/
theorem reported_state_current {is : List Input} (h : Along step Meets start is) :
    Always step Current start is := by
  have hinv : Always step Inv start is :=
    always_of_along (fun _ _ hinv hmeets => hinv.step hmeets) inv_start h
  exact fun pre hpre => (hinv pre hpre).current

def lateAnswer : List Input :=
  [.call (.getKeyState .shift), .timeout, .call (.getKeyState .control),
    .handle ⟨none, some [.leftShift]⟩, .handle ⟨none, some [.leftShift]⟩, .receive]

/-- Control is reported as held, which is the answer for Shift. -/
theorem late_answer_reported :
    (exec step start lateAnswer).reports = [⟨0, .shift, false, none⟩, ⟨1, .control, true, some 0⟩] ∧
    (exec step start lateAnswer).produced = [(0, .shift, true), (1, .control, false)] ∧
    ¬Always step Current start lateAnswer := by
  refine ⟨by decide, by decide, fun h => ?_⟩
  rcases h.last ⟨1, .control, true, some 0⟩ (by decide) with hfalse | ⟨hsource, -⟩
  · cases hfalse
  · cases hsource

/-- A question that waits for its answer, and one that follows it. -/
theorem prompt_answers_current :
    Always step Current start
      [.call (.keyDown .shift), .call (.getKeyState .shift), .handle ⟨none, none⟩,
        .handle ⟨none, some [.leftShift]⟩, .receive, .call (.getKeyState .control)] := by
  refine reported_state_current ⟨trivial, fun _ => ⟨rfl, fun call key hmem => ?_⟩, trivial, trivial,
    trivial, fun _ => ⟨rfl, fun call key hmem => ?_⟩, trivial⟩
  · cases mem_singleton.mp hmem
  · cases hmem

end UInputKeyboard
end RustDesk
