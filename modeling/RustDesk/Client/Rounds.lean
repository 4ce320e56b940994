import Mathlib.Algebra.Group.Int.Defs
import Mathlib.Algebra.Group.Nat.Defs
import RustDesk.Lib.Run

/-!
# The connection rounds of a session

Every connection of a session is served by a loop of its own thread.  A loop installs its
sender in the session, connects, serves the messages of the user interface and ends; the
shared `ConnectionRoundState` tells `reconnect` what the latest loop is doing.  `reconnect`
begins no round while that loop connects, and closes it when it is connected.

It looks at the state only if the session has a thread handle, and the first loop, which
`session_start_` starts, has none.  **As long as a round without a look at the state begins
only when the loops before it are over, the state describes the latest loop and no two loops
serve the session** (`one_live_connection`).  A reconnect while the first loop is connected
leaves two of them (`two_loops_after_reconnect`).

Sessions for port forwarding are left out, their loops have no rounds.
-/

namespace RustDesk.Rounds

open List Function

inductive ConnectionState where
  | connecting
  | connected
  | disconnected

/-- `u32::MAX`. -/
def u32Max : Nat := 2 ^ 32 - 1

structure ConnectionRoundState where
  round : Nat
  state : ConnectionState

namespace ConnectionRoundState

def default : ConnectionRoundState := ⟨0, .connecting⟩

def newRound (c : ConnectionRoundState) : ConnectionRoundState :=
  ⟨(c.round + 1) % 2 ^ 32, .connecting⟩

def setConnected (c : ConnectionRoundState) : ConnectionRoundState :=
  { c with state := .connected }

def isRoundGt (c : ConnectionRoundState) (round : Nat) : Bool :=
  if round = u32Max && c.round = 0 then true else round < c.round

/-- `set_disconnected`, and whether it did. -/
def setDisconnected (c : ConnectionRoundState) (round : Nat) : ConnectionRoundState × Bool :=
  if c.isRoundGt round then (c, false) else ({ c with state := .disconnected }, true)

end ConnectionRoundState

/-- Where a loop is: its round begun, its thread spawned, its sender installed, the connection
made and the state set, the connection not made, the loop left, the state set again. -/
inductive Phase where
  | begun
  | spawned
  | connecting
  | connected
  | failed
  | left
  | ended
  deriving DecidableEq

/-- A message of the user interface: `Data::Close` or another, with its number. -/
structure Data where
  ticket : Nat
  close : Bool
  deriving DecidableEq

/-- An `io_loop` with its round, the queue its receiver reads and what it has handled. -/
structure Loop where
  round : Nat
  phase : Phase
  queue : List Data
  handled : List Data
  deriving DecidableEq

def Phase.describedBy : Phase → ConnectionState
  | .begun | .spawned | .connecting | .failed => .connecting
  | .connected | .left => .connected
  | .ended => .disconnected

def Phase.installed : Phase → Bool
  | .begun | .spawned => false
  | _ => true

namespace Loop

/-- It has ended, or is about to because it has a `Data::Close`. -/
def Over (x : Loop) : Prop :=
  x.phase = .failed ∨ x.phase = .left ∨ x.phase = .ended ∨
    (x.phase = .connected ∧ x.queue.any (·.close) = true)

instance decidableOver (x : Loop) : Decidable x.Over :=
  inferInstanceAs (Decidable (_ ∨ _ ∨ _ ∨ _ ∧ _))

end Loop

/-- A session.  `sender` is the loop whose channel it has, `thread` whether it has a thread
handle, and `starts` are the threads `session_start_` has spawned that have begun no round yet.
The loops are numbered as their rounds began; for each message sent so far `sentTo` is the
latest loop then, if that had installed its sender. -/
structure Session where
  connectionRoundState : ConnectionRoundState
  sender : Option Nat
  thread : Bool
  starts : Nat
  loops : Nat → Loop
  rounds : Nat
  sentTo : List (Option Nat)

namespace Session

def init : Session where
  connectionRoundState := .default
  sender := none
  thread := false
  starts := 0
  loops := fun _ => ⟨0, .begun, [], []⟩
  rounds := 0
  sentTo := []

def modify (s : Session) (i : Nat) (f : Loop → Loop) : Session :=
  { s with loops := update s.loops i (f (s.loops i)) }

def serving (s : Session) : Option Nat :=
  if s.rounds ≠ 0 && (s.loops (s.rounds - 1)).phase.installed then some (s.rounds - 1) else none

def send (s : Session) (close : Bool) : Session :=
  let data : Data := ⟨s.sentTo.length, close⟩
  let s := { s with sentTo := s.sentTo ++ [s.serving] }
  match s.sender with
  | some i => s.modify i fun x => { x with queue := x.queue ++ [data] }
  | none => s

/-- `new_round`, for a loop in this phase. -/
def newRound (s : Session) (phase : Phase) : Session :=
  let state := s.connectionRoundState.newRound
  { s with
    connectionRoundState := state
    loops := update s.loops s.rounds ⟨state.round, phase, [], []⟩
    rounds := s.rounds + 1 }

/-- `reconnect` up to the end of its first lock. -/
def reconnect (s : Session) : Session :=
  if s.thread then
    match s.connectionRoundState.state with
    | .connecting => s
    | .connected => (s.send true).newRound .begun
    | .disconnected => s.newRound .begun
  else s.newRound .begun

end Session

/-- What happens: `session_start_` starts a connection, its thread begins a round, `reconnect`
begins one and then spawns its thread, `close` or another message is sent; and in a loop the
sender is installed, the connection made or not, a message taken, the loop left for another
reason, and `handle_disconnected` runs. -/
inductive Event where
  | sessionStart
  | start
  | reconnect
  | spawn (i : Nat)
  | send (close : Bool)
  | install (i : Nat)
  | connect (i : Nat) (ok : Bool)
  | take (i : Nat)
  | leave (i : Nat)
  | handleDisconnected (i : Nat)

namespace Session

def step (s : Session) : Event → Session
  | .sessionStart => { s with starts := s.starts + 1 }
  | .start =>
    if s.starts = 0 then s else { s with starts := s.starts - 1 }.newRound .spawned
  | .reconnect => s.reconnect
  | .send close => s.send close
  | .spawn i =>
    if i < s.rounds ∧ (s.loops i).phase = .begun then
      { s with thread := true }.modify i fun x => { x with phase := .spawned }
    else s
  | .install i =>
    if i < s.rounds ∧ (s.loops i).phase = .spawned then
      { s with sender := some i }.modify i fun x => { x with phase := .connecting }
    else s
  | .connect i ok =>
    if i < s.rounds ∧ (s.loops i).phase = .connecting then
      if ok then
        { s with connectionRoundState := s.connectionRoundState.setConnected }.modify i
          fun x => { x with phase := .connected }
      else s.modify i fun x => { x with phase := .failed }
    else s
  | .take i =>
    if i < s.rounds ∧ (s.loops i).phase = .connected then
      match (s.loops i).queue with
      | data :: rest =>
        s.modify i fun x => { x with
          phase := if data.close then .left else .connected
          queue := rest
          handled := x.handled ++ [data] }
      | [] => s
    else s
  | .leave i =>
    if i < s.rounds ∧ (s.loops i).phase = .connected then
      s.modify i fun x => { x with phase := .left }
    else s
  | .handleDisconnected i =>
    if i < s.rounds ∧ ((s.loops i).phase = .failed ∨ (s.loops i).phase = .left) then
      { s with connectionRoundState :=
          (s.connectionRoundState.setDisconnected (s.loops i).round).1 }.modify i
        fun x => { x with phase := .ended }
    else s

/-- **One live connection**: the state describes the latest loop, a message sent once that had
its sender installed is handled by no other, and each earlier loop that is connected has a
`Data::Close` in its queue. -/
structure OneLive (s : Session) : Prop where
  describes : s.rounds ≠ 0 →
    s.connectionRoundState.round = (s.loops (s.rounds - 1)).round ∧
    s.connectionRoundState.state = (s.loops (s.rounds - 1)).phase.describedBy
  handled : ∀ i, ∀ d ∈ (s.loops i).handled, ∀ l, s.sentTo[d.ticket]? = some (some l) → i = l
  earlier : ∀ i, i + 1 < s.rounds → (s.loops i).phase = .connected →
    ∃ d ∈ (s.loops i).queue, d.close = true

def AllOver (s : Session) : Prop := ∀ i < s.rounds, (s.loops i).Over

instance decidableAllOver (s : Session) : Decidable s.AllOver :=
  inferInstanceAs (Decidable (∀ i < s.rounds, (s.loops i).Over))

/-- The steps that leave no loop behind: a round begun by `session_start_`, or by `reconnect`
in a session without a thread handle, begins when the loops before it are over. -/
def Tidy (s : Session) : Event → Prop
  | .start => s.starts = 0 ∨ s.AllOver
  | .reconnect => s.thread = true ∨ s.AllOver
  | _ => True

instance decidableTidy (s : Session) : ∀ ev, Decidable (s.Tidy ev)
  | .start => inferInstanceAs (Decidable (_ ∨ _))
  | .reconnect => inferInstanceAs (Decidable (_ ∨ _))
  | .sessionStart | .spawn _ | .send _ | .install _ | .connect .. | .take _ | .leave _
  | .handleDisconnected _ => isTrue trivial

def Placed (s : Session) (i : Nat) (d : Data) : Prop :=
  d.ticket < s.sentTo.length ∧ ∀ l, s.sentTo[d.ticket]? = some (some l) → i = l

/-- **The invariant**: every loop but the latest is over, the state is that of the latest, and
once that has installed its sender the session has it. -/
structure Sound (s : Session) : Prop where
  numbered : ∀ i < s.rounds, (s.loops i).round = i + 1
  round : s.connectionRoundState.round = s.rounds
  fresh : s.rounds = 0 → s.connectionRoundState.state = .connecting
  state : s.rounds ≠ 0 → s.connectionRoundState.state = (s.loops (s.rounds - 1)).phase.describedBy
  past : ∀ i, i + 1 < s.rounds → (s.loops i).Over
  sender : s.rounds ≠ 0 → (s.loops (s.rounds - 1)).phase.installed = true →
    s.sender = some (s.rounds - 1)
  queued : ∀ i, ∀ d ∈ (s.loops i).queue, s.Placed i d
  handled : ∀ i, ∀ d ∈ (s.loops i).handled, s.Placed i d

variable {s : Session}

theorem Sound.oneLive (h : s.Sound) : s.OneLive := by
  refine ⟨fun hrounds => ⟨?_, h.state hrounds⟩, fun i d hd => (h.handled i d hd).2,
    fun i hi hconnected => ?_⟩
  · rw [h.round, h.numbered (s.rounds - 1) (by omega)]
    omega
  · rcases h.past i hi with hfailed | hleft | hended | ⟨-, hclose⟩
    · exact absurd (hconnected.symm.trans hfailed) nofun
    · exact absurd (hconnected.symm.trans hleft) nofun
    · exact absurd (hconnected.symm.trans hended) nofun
    · exact any_eq_true.mp hclose

@[simp] theorem modify_self (s : Session) (i : Nat) (f : Loop → Loop) :
    (s.modify i f).loops i = f (s.loops i) :=
  update_self ..

theorem modify_of_ne (s : Session) {i j : Nat} (hne : j ≠ i) (f : Loop → Loop) :
    (s.modify i f).loops j = s.loops j :=
  update_of_ne hne ..

variable {f : Loop → Loop}

theorem forall_modify {s : Session} {i : Nat} {P : Nat → Loop → Prop}
    (hi : P i (f (s.loops i))) (hothers : ∀ j, j ≠ i → P j (s.loops j)) :
    ∀ j, P j ((s.modify i f).loops j) := by
  intro j
  by_cases hj : j = i
  · subst hj
    rw [modify_self]
    exact hi
  · rw [modify_of_ne s hj]
    exact hothers j hj

variable {i : Nat}

theorem Sound.latest (h : s.Sound) (hi : i < s.rounds)
    (hlive : ¬(s.loops i).Over) : i = s.rounds - 1 := by
  by_contra hne
  exact hlive (h.past i (by omega))

/-- **A loop goes on.**  What it is described by is described still, unless it is an earlier
one, and it stays over if it was. -/
theorem Sound.modify (h : s.Sound) (hi : i < s.rounds)
    {sender : Option Nat} {thread : Bool} {state : ConnectionRoundState}
    (hround : (f (s.loops i)).round = (s.loops i).round)
    (hqueue : (f (s.loops i)).queue ⊆ (s.loops i).queue)
    (hhandled : ∀ d ∈ (f (s.loops i)).handled, d ∈ (s.loops i).handled ∨ d ∈ (s.loops i).queue)
    (hover : (s.loops i).Over → (f (s.loops i)).Over)
    (hnumber : state.round = s.connectionRoundState.round)
    (hearlier : i ≠ s.rounds - 1 → state.state = s.connectionRoundState.state ∧ sender = s.sender)
    (hlatest : i = s.rounds - 1 → state.state = (f (s.loops i)).phase.describedBy ∧
      ((f (s.loops i)).phase.installed = true → sender = some i)) :
    Sound (modify { s with
      connectionRoundState := state, sender := sender, thread := thread } i f) := by
  refine ⟨?_, ?_, ?_, ?_, ?_, ?_, ?_, ?_⟩
  · apply forall_modify (P := fun j x => j < s.rounds → x.round = j + 1)
    · intro _
      exact hround.trans (h.numbered i hi)
    · exact fun j _ hj => h.numbered j hj
  · exact hnumber.trans h.round
  · exact fun hzero => absurd (hzero ▸ hi) (Nat.not_lt_zero i)
  · intro hrounds
    change state.state = (update s.loops i (f (s.loops i)) (s.rounds - 1)).phase.describedBy
    by_cases hlast : i = s.rounds - 1
    · rw [← hlast, update_self]
      exact (hlatest hlast).1
    · rw [update_of_ne (Ne.symm hlast), (hearlier hlast).1]
      exact h.state hrounds
  · apply forall_modify (P := fun j x => j + 1 < s.rounds → x.Over)
    · exact fun hj => hover (h.past i hj)
    · exact fun j _ hj => h.past j hj
  · intro hrounds
    change (update s.loops i (f (s.loops i)) (s.rounds - 1)).phase.installed = true →
      sender = some (s.rounds - 1)
    by_cases hlast : i = s.rounds - 1
    · rw [← hlast, update_self]
      exact (hlatest hlast).2
    · rw [update_of_ne (Ne.symm hlast), (hearlier hlast).2]
      exact h.sender hrounds
  · apply forall_modify (P := fun j x => ∀ d ∈ x.queue, s.Placed j d)
    · exact fun d hd => h.queued i d (hqueue hd)
    · exact fun j _ => h.queued j
  · apply forall_modify (P := fun j x => ∀ d ∈ x.handled, s.Placed j d)
    · intro d hd
      rcases hhandled d hd with hold | hnew
      · exact h.handled i d hold
      · exact h.queued i d hnew
    · exact fun j _ => h.handled j

theorem serving_eq_some {l : Nat} (h : s.serving = some l) :
    s.rounds ≠ 0 ∧ (s.loops (s.rounds - 1)).phase.installed = true ∧ l = s.rounds - 1 := by
  unfold serving at h
  split at h
  case isTrue hlatest =>
    rw [Bool.and_eq_true, decide_eq_true_eq] at hlatest
    exact ⟨hlatest.1, hlatest.2, (Option.some.inj h).symm⟩
  case isFalse => cases h

theorem Placed.sent {s s' : Session} {d : Data} (h : s.Placed i d)
    {owner : Option Nat} (hsent : s'.sentTo = s.sentTo ++ [owner]) : s'.Placed i d := by
  refine ⟨?_, fun l hl => h.2 l ?_⟩
  · rw [hsent, length_append]
    exact Nat.lt_add_right _ h.1
  · rwa [hsent, List.getElem?_append_left h.1] at hl

theorem send_loops (s : Session) (close : Bool) (j : Nat) :
    (s.send close).loops j = { s.loops j with
      queue := (s.loops j).queue ++
        if s.sender = some j then [⟨s.sentTo.length, close⟩] else [] } := by
  unfold send
  cases hsender : s.sender with
  | none => simp
  | some i =>
    by_cases hj : j = i
    · subst hj
      simp [modify]
    · have hne : ¬i = j := fun heq => hj heq.symm
      simp [modify, hj, hne]

theorem send_rest (s : Session) (close : Bool) :
    (s.send close).connectionRoundState = s.connectionRoundState ∧
    (s.send close).sender = s.sender ∧ (s.send close).rounds = s.rounds ∧
    (s.send close).thread = s.thread ∧ (s.send close).sentTo = s.sentTo ++ [s.serving] := by
  unfold send
  cases s.sender <;> exact ⟨rfl, rfl, rfl, rfl, rfl⟩

theorem Over.queued {x : Loop} (h : x.Over) (more : List Data) :
    Loop.Over { x with queue := x.queue ++ more } := by
  rcases h with hfailed | hleft | hended | ⟨hconnected, hclose⟩
  · exact .inl hfailed
  · exact .inr (.inl hleft)
  · exact .inr (.inr (.inl hended))
  · refine .inr (.inr (.inr ⟨hconnected, ?_⟩))
    rw [any_append, hclose]
    rfl

theorem Sound.send (h : s.Sound) (close : Bool) : (s.send close).Sound := by
  obtain ⟨hstate, hsender, hrounds, -, hsent⟩ := send_rest s close
  have hphase : ∀ j, ((s.send close).loops j).phase = (s.loops j).phase := fun j => by
    rw [send_loops]
  refine ⟨fun i hi => ?_, ?_, ?_, ?_, fun i hi => ?_, ?_, fun i d hd => ?_, fun i d hd => ?_⟩
  · rw [send_loops]
    exact h.numbered i (hrounds ▸ hi)
  · rw [hstate, hrounds]
    exact h.round
  · rw [hstate, hrounds]
    exact h.fresh
  · rw [hstate, hrounds, hphase]
    exact h.state
  · rw [send_loops]
    exact Over.queued (h.past i (hrounds ▸ hi)) _
  · rw [hrounds, hphase, hsender]
    exact h.sender
  · rw [send_loops] at hd
    rcases mem_append.mp hd with hold | hnew
    · exact (h.queued i d hold).sent hsent
    · split at hnew
      case isFalse => cases hnew
      case isTrue hto =>
        rw [mem_singleton.mp hnew]
        refine ⟨?_, fun l hl => ?_⟩
        · rw [hsent, length_append]
          exact Nat.lt_succ_self _
        · rw [hsent, List.getElem?_append_right (Nat.le_refl _), Nat.sub_self] at hl
          have hserving : s.serving = some l := by simpa using hl
          obtain ⟨hsome, hinstalled, rfl⟩ := serving_eq_some hserving
          exact Option.some.inj (hto.symm.trans (h.sender hsome hinstalled))
  · rw [send_loops] at hd
    exact (h.handled i d hd).sent hsent

theorem Sound.newRound (h : s.Sound) (hover : s.AllOver)
    (hlt : s.rounds + 1 < 2 ^ 32) {phase : Phase} (hphase : phase.installed = false) :
    (s.newRound phase).Sound := by
  have hround : (s.connectionRoundState.round + 1) % 2 ^ 32 = s.rounds + 1 := by
    rw [h.round]
    exact Nat.mod_eq_of_lt hlt
  have hold : ∀ j, j ≠ s.rounds → (s.newRound phase).loops j = s.loops j := fun j hj =>
    update_of_ne hj ..
  have hnew : (s.newRound phase).loops s.rounds =
      ⟨(s.connectionRoundState.round + 1) % 2 ^ 32, phase, [], []⟩ :=
    update_self ..
  have hdescribed : phase.describedBy = .connecting := by
    cases phase <;> first | rfl | cases hphase
  refine ⟨fun i hi => ?_, hround, nofun, fun _ => ?_, fun i hi => ?_, fun _ hinstalled => ?_,
    fun i d hd => ?_, fun i d hd => ?_⟩
  · by_cases hlast : i = s.rounds
    · rw [hlast, hnew]
      exact hround
    · rw [hold i hlast]
      exact h.numbered i (by change i < s.rounds + 1 at hi; omega)
  · change ConnectionState.connecting = ((s.newRound phase).loops s.rounds).phase.describedBy
    rw [hnew]
    exact hdescribed.symm
  · have hi' : i < s.rounds := by
      change i + 1 < s.rounds + 1 at hi
      omega
    rw [hold i (by omega)]
    exact hover i hi'
  · change ((s.newRound phase).loops s.rounds).phase.installed = true at hinstalled
    rw [hnew] at hinstalled
    exact absurd (hinstalled.symm.trans hphase) nofun
  · by_cases hlast : i = s.rounds
    · rw [hlast, hnew] at hd
      cases hd
    · rw [hold i hlast] at hd
      exact h.queued i d hd
  · by_cases hlast : i = s.rounds
    · rw [hlast, hnew] at hd
      cases hd
    · rw [hold i hlast] at hd
      exact h.handled i d hd

theorem Sound.allOver (h : s.Sound)
    (hlatest : s.rounds ≠ 0 → (s.loops (s.rounds - 1)).Over) : s.AllOver := by
  intro i hi
  by_cases hlast : i = s.rounds - 1
  · rw [hlast]
    exact hlatest (by omega)
  · exact h.past i (by omega)

theorem Sound.reconnect (h : s.Sound) (htidy : s.Tidy .reconnect)
    (hlt : s.rounds + 1 < 2 ^ 32) : s.reconnect.Sound := by
  unfold Session.reconnect
  split
  case isFalse hthread =>
    exact h.newRound (htidy.resolve_left hthread) hlt rfl
  case isTrue =>
    cases hstate : s.connectionRoundState.state with
    | connecting => exact h
    | disconnected =>
      refine h.newRound (h.allOver fun hrounds => ?_) hlt rfl
      have hphase := h.state hrounds
      rw [hstate] at hphase
      refine .inr (.inr (.inl ?_))
      cases hlatest : (s.loops (s.rounds - 1)).phase <;> rw [hlatest] at hphase <;>
        first | rfl | cases hphase
    | connected =>
      obtain ⟨-, -, hrounds', -, -⟩ := send_rest s true
      have hsent := h.send true
      refine hsent.newRound (hsent.allOver fun hrounds => ?_) (by rw [hrounds']; exact hlt) rfl
      rw [hrounds'] at hrounds ⊢
      have hphase := h.state hrounds
      rw [hstate] at hphase
      rw [send_loops]
      cases hlatest : (s.loops (s.rounds - 1)).phase with
      | connected =>
        have hinstalled : (s.loops (s.rounds - 1)).phase.installed = true := by
          rw [hlatest]
          rfl
        refine .inr (.inr (.inr ⟨hlatest, ?_⟩))
        simp [h.sender hrounds hinstalled]
      | left => exact .inr (.inl hlatest)
      | _ => rw [hlatest] at hphase; cases hphase

theorem reconnect_rounds (s : Session) : s.reconnect = s ∨ s.reconnect.rounds = s.rounds + 1 := by
  unfold Session.reconnect
  split
  case isFalse => exact .inr rfl
  case isTrue =>
    split
    case h_1 => exact .inl rfl
    case h_2 => exact .inr (congrArg (· + 1) (send_rest s true).2.2.1)
    case h_3 => exact .inr rfl

theorem Sound.described (h : s.Sound) (hi : i < s.rounds) (hlive : ¬(s.loops i).Over) :
    s.connectionRoundState.state = (s.loops i).phase.describedBy ∧
      ((s.loops i).phase.installed = true → s.sender = some i) := by
  have hstate := h.state (by omega)
  have hsender := h.sender (by omega)
  rw [← h.latest hi hlive] at hstate hsender
  exact ⟨hstate, hsender⟩

theorem Sound.setPhase {phase : Phase} {sender : Option Nat} {thread : Bool}
    {state : ConnectionRoundState} (h : s.Sound) (hi : i < s.rounds)
    (hlive : ¬(s.loops i).Over) (hnumber : state.round = s.connectionRoundState.round)
    (hstate : state.state = phase.describedBy)
    (hsender : phase.installed = true → sender = some i) :
    Sound (Session.modify { s with
      connectionRoundState := state, sender := sender, thread := thread } i
        fun x => { x with phase }) :=
  h.modify hi rfl (List.Subset.refl _) (fun _ => .inl) (fun hover => absurd hover hlive) hnumber
    (fun hne => absurd (h.latest hi hlive) hne) (fun _ => ⟨hstate, hsender⟩)

theorem Sound.spawn (h : s.Sound) (i : Nat) : (s.step (.spawn i)).Sound := by
  unfold Session.step
  dsimp only
  split
  case isFalse => exact h
  case isTrue hgo =>
    have hlive : ¬(s.loops i).Over := by simp [Loop.Over, hgo.2]
    have hstate := (h.described hgo.1 hlive).1
    rw [hgo.2] at hstate
    exact h.setPhase hgo.1 hlive rfl hstate nofun

theorem Sound.install (h : s.Sound) (i : Nat) : (s.step (.install i)).Sound := by
  unfold Session.step
  dsimp only
  split
  case isFalse => exact h
  case isTrue hgo =>
    have hlive : ¬(s.loops i).Over := by simp [Loop.Over, hgo.2]
    have hstate := (h.described hgo.1 hlive).1
    rw [hgo.2] at hstate
    exact h.setPhase hgo.1 hlive rfl hstate fun _ => rfl

theorem Sound.connect (h : s.Sound) (i : Nat) (ok : Bool) : (s.step (.connect i ok)).Sound := by
  unfold Session.step
  dsimp only
  split
  case isFalse => exact h
  case isTrue hgo =>
    have hlive : ¬(s.loops i).Over := by simp [Loop.Over, hgo.2]
    obtain ⟨hstate, hsender⟩ := h.described hgo.1 hlive
    rw [hgo.2] at hstate hsender
    split
    case isTrue => exact h.setPhase hgo.1 hlive rfl rfl fun _ => hsender rfl
    case isFalse => exact h.setPhase hgo.1 hlive rfl hstate fun _ => hsender rfl

theorem Sound.of_connected (h : s.Sound) (hi : i < s.rounds)
    (hconnected : (s.loops i).phase = .connected)
    (hround : (f (s.loops i)).round = (s.loops i).round)
    (hphase : (f (s.loops i)).phase = .connected ∨ (f (s.loops i)).phase = .left)
    (hqueue : (f (s.loops i)).queue ⊆ (s.loops i).queue)
    (hhandled : ∀ d ∈ (f (s.loops i)).handled, d ∈ (s.loops i).handled ∨ d ∈ (s.loops i).queue)
    (hover : (s.loops i).Over → (f (s.loops i)).Over) : (s.modify i f).Sound := by
  have hdescribed : (f (s.loops i)).phase.describedBy = .connected := by
    rcases hphase with heq | heq <;> rw [heq] <;> rfl
  refine h.modify hi hround hqueue hhandled hover rfl (fun _ => ⟨rfl, rfl⟩) fun hlast => ?_
  have hstate := h.state (by omega)
  have hsender := h.sender (by omega)
  rw [← hlast, hconnected] at hstate hsender
  exact ⟨hstate.trans hdescribed.symm, fun _ => hsender rfl⟩

/-- **A message is taken**: a `Data::Close` ends the loop, and another leaves it waiting. -/
theorem Sound.take (h : s.Sound) (i : Nat) : (s.step (.take i)).Sound := by
  unfold Session.step
  dsimp only
  split
  case isFalse => exact h
  case isTrue hgo =>
    split
    case h_2 => exact h
    case h_1 data rest hqueue =>
      have hmem : data ∈ (s.loops i).queue := by
        rw [hqueue]
        exact mem_cons_self
      refine h.of_connected hgo.1 hgo.2 rfl ?_ ?_ ?_ ?_
      · cases data.close with
        | true => exact .inr rfl
        | false => exact .inl rfl
      · rw [hqueue]
        exact subset_cons_self data rest
      · intro d hd
        rcases mem_append.mp hd with hold | hnew
        · exact .inl hold
        · rw [mem_singleton.mp hnew]
          exact .inr hmem
      · intro hover
        cases hclose : data.close with
        | true => exact .inr (.inl (by simp))
        | false =>
          rcases hover with hfailed | hleft | hended | ⟨-, hwaiting⟩
          · exact absurd (hgo.2.symm.trans hfailed) nofun
          · exact absurd (hgo.2.symm.trans hleft) nofun
          · exact absurd (hgo.2.symm.trans hended) nofun
          · rw [hqueue, any_cons, hclose, Bool.false_or] at hwaiting
            exact .inr (.inr (.inr ⟨by simp, hwaiting⟩))

theorem Sound.leave (h : s.Sound) (i : Nat) : (s.step (.leave i)).Sound := by
  unfold Session.step
  dsimp only
  split
  case isFalse => exact h
  case isTrue hgo =>
    exact h.of_connected hgo.1 hgo.2 rfl (.inr rfl) (List.Subset.refl _) (fun _ => .inl)
      (fun _ => .inr (.inl rfl))

theorem Sound.handleDisconnected (h : s.Sound) (hlt : s.rounds < 2 ^ 32) (i : Nat) :
    (s.step (.handleDisconnected i)).Sound := by
  unfold Session.step
  dsimp only
  split
  case isFalse => exact h
  case isTrue hgo =>
    have hround := h.numbered i hgo.1
    have hgt : s.connectionRoundState.isRoundGt (s.loops i).round = decide (i ≠ s.rounds - 1) := by
      unfold ConnectionRoundState.isRoundGt
      rw [h.round, hround]
      have hnonzero : s.rounds ≠ 0 := by omega
      rw [if_neg (by simp [hnonzero])]
      exact decide_eq_decide.mpr (by omega)
    refine h.modify hgo.1 rfl (List.Subset.refl _)
      (fun _ => .inl) (fun _ => .inr (.inr (.inl rfl))) ?_ (fun hne => ⟨?_, rfl⟩) fun hlast => ?_
    · unfold ConnectionRoundState.setDisconnected
      split <;> rfl
    · rw [ConnectionRoundState.setDisconnected, hgt, if_pos (by simpa using hne)]
    · rw [ConnectionRoundState.setDisconnected, hgt, if_neg (by simpa using hlast)]
      refine ⟨rfl, fun _ => ?_⟩
      rw [hlast]
      refine h.sender (by omega) ?_
      rw [← hlast]
      rcases hgo.2 with hfailed | hleft
      · rw [hfailed]
        rfl
      · rw [hleft]
        rfl

theorem rounds_le_step (s : Session) (ev : Event) : s.rounds ≤ (s.step ev).rounds := by
  cases ev with
  | sessionStart => exact Nat.le_refl _
  | start =>
    unfold Session.step
    dsimp only
    split
    · exact Nat.le_refl _
    · exact Nat.le_succ _
  | reconnect =>
    change s.rounds ≤ s.reconnect.rounds
    rcases reconnect_rounds s with heq | heq
    · exact Nat.le_of_eq (congrArg rounds heq).symm
    · rw [heq]
      exact Nat.le_succ _
  | send close => exact Nat.le_of_eq (send_rest s close).2.2.1.symm
  | spawn i | install i | leave i | handleDisconnected i =>
    unfold Session.step
    dsimp only
    split <;> exact Nat.le_refl _
  | connect i ok =>
    unfold Session.step
    dsimp only
    split
    · split <;> exact Nat.le_refl _
    · exact Nat.le_refl _
  | take i =>
    unfold Session.step
    dsimp only
    split
    · split <;> exact Nat.le_refl _
    · exact Nat.le_refl _

/-- **Every tidy step keeps the invariant**, as long as the rounds are fewer than `2 ^ 32`. -/
theorem Sound.step (h : s.Sound) {ev : Event} (htidy : s.Tidy ev)
    (hlt : (s.step ev).rounds < 2 ^ 32) : (s.step ev).Sound := by
  have hbefore : s.rounds < 2 ^ 32 := Nat.lt_of_le_of_lt (rounds_le_step s ev) hlt
  cases ev with
  | sessionStart =>
    exact ⟨h.numbered, h.round, h.fresh, h.state, h.past, h.sender, h.queued, h.handled⟩
  | start =>
    unfold Session.step at hlt ⊢
    dsimp only at hlt ⊢
    split
    case isTrue => exact h
    case isFalse hsome =>
      rw [if_neg hsome] at hlt
      have hstarted : Sound { s with starts := s.starts - 1 } :=
        ⟨h.numbered, h.round, h.fresh, h.state, h.past, h.sender, h.queued, h.handled⟩
      exact hstarted.newRound (htidy.resolve_left hsome) hlt rfl
  | reconnect =>
    rcases reconnect_rounds s with heq | heq
    · change s.reconnect.Sound
      rw [heq]
      exact h
    · exact h.reconnect htidy (heq ▸ hlt)
  | spawn i => exact h.spawn i
  | send close => exact h.send close
  | install i => exact h.install i
  | connect i ok => exact h.connect i ok
  | take i => exact h.take i
  | leave i => exact h.leave i
  | handleDisconnected i => exact h.handleDisconnected hbefore i

theorem init_sound : init.Sound where
  numbered := nofun
  round := rfl
  fresh := fun _ => rfl
  state := fun hrounds => absurd rfl hrounds
  past := nofun
  sender := fun hrounds => absurd rfl hrounds
  queued := fun _ _ hd => absurd hd not_mem_nil
  handled := fun _ _ hd => absurd hd not_mem_nil

/-- **One live connection per session**: in every state of a run of fewer than `2 ^ 32` rounds
in which `session_start_`, and `reconnect` without a thread handle, begin a round only when the
loops before it are over. -/
theorem one_live_connection (events : List Event) (htidy : Run.Along step Tidy init events) :
    Run.Always step (fun s => s.rounds < 2 ^ 32 → s.OneLive) init events := by
  have hsound : Run.Always step (fun s => s.rounds < 2 ^ 32 → s.Sound) init events := by
    refine Run.always_of_along (fun s ev h hev hlt => ?_) (fun _ => init_sound) htidy
    have hbefore : s.rounds < 2 ^ 32 := Nat.lt_of_le_of_lt (rounds_le_step s ev) hlt
    exact (h hbefore).step hev hlt
  exact fun pre hpre hlt => (hsound pre hpre hlt).oneLive

/-- The first connection fails, the second is closed by a reconnect, the third goes on. -/
theorem one_live_three_rounds :
    Run.Always step (fun s => s.rounds < 2 ^ 32 → s.OneLive) init
      [.sessionStart, .start, .install 0, .connect 0 false, .handleDisconnected 0, .reconnect,
        .spawn 1, .install 1, .reconnect, .connect 1 true, .send false, .reconnect, .spawn 2,
        .install 2, .take 1, .take 1, .connect 2 true, .handleDisconnected 1, .send true] :=
  one_live_connection _ (by decide +kernel)

/-- **A reconnect while the first loop is connected** finds no thread handle and closes
nothing: two loops are connected, and no message of either tells it to end. -/
theorem two_loops_after_reconnect :
    let s := Run.exec step init [.sessionStart, .start, .install 0, .connect 0 true, .reconnect,
      .spawn 1, .install 1, .connect 1 true]
    s.rounds = 2 ∧ s.loops 0 = ⟨1, .connected, [], []⟩ ∧ s.loops 1 = ⟨2, .connected, [], []⟩ ∧
      ¬s.OneLive := by
  intro s
  have hrounds : s.rounds = 2 := by decide +kernel
  have hfirst : s.loops 0 = ⟨1, .connected, [], []⟩ := by decide +kernel
  refine ⟨hrounds, hfirst, by decide +kernel, fun hlive => ?_⟩
  obtain ⟨d, hd, -⟩ := hlive.earlier 0 (by rw [hrounds]; decide) (by rw [hfirst])
  rw [hfirst] at hd
  cases hd

end Session
end RustDesk.Rounds
