import RustDesk.Lib.Run

/-!
# The keystrokes of a terminal (Flutter client)

What is typed before a terminal is open is buffered.  When the terminal is opened the buffer is
emptied and its items are sent one after the other, each when the send before it is done.
What is typed meanwhile is sent at once.

`TerminalModel` has what is typed and what has been handed to `sessionSendTerminalInput`,
which the code does not keep.  Any number of emptied buffers may be on their way, since a
terminal can be closed and opened again.

* `in_order_iff_along`: **the items are handed over in the order typed** exactly in the runs
  where none overtakes a different one that is on its way.
-/

open Run

namespace RustDesk

open List

/-- The items that are buffered, for each emptied buffer the items that are still to be sent,
the items that are handed over, and all that were typed. -/
structure TerminalModel where
  terminalOpened : Bool
  inputBuffer : List String
  draining : List (List String)
  handed : List String
  typed : List String

namespace TerminalModel

def start : TerminalModel where
  terminalOpened := false
  inputBuffer := []
  draining := []
  handed := []
  typed := []

def normalize (isMobileOrWebMobile : Bool) (data : String) : String :=
  if isMobileOrWebMobile ∧ data = "\n" then "\r" else data

def handleInput (s : TerminalModel) (isMobileOrWebMobile : Bool) (data : String) : TerminalModel :=
  let data := normalize isMobileOrWebMobile data
  let s := { s with typed := s.typed ++ [data] }
  if s.terminalOpened then { s with handed := s.handed ++ [data] }
  else { s with inputBuffer := s.inputBuffer ++ [data] }

/-- `_processBufferedInputAsync`, as far as the first send. -/
def processBufferedInput (s : TerminalModel) : TerminalModel :=
  match s.inputBuffer with
  | data :: rest => { s with
      inputBuffer := []
      handed := s.handed ++ [data]
      draining := s.draining ++ [rest] }
  | [] => s

def handleTerminalOpened (s : TerminalModel) (success : Bool) : TerminalModel :=
  if success then { s with terminalOpened := true }.processBufferedInput else s

/-- `_processBufferedInputAsync`: a send of an emptied buffer is done, or has failed. -/
def sent (s : TerminalModel) (i : Nat) : TerminalModel :=
  match s.draining[i]? with
  | some (data :: rest) => { s with
      handed := s.handed ++ [data]
      draining := s.draining.set i rest }
  | some [] => { s with draining := s.draining.eraseIdx i }
  | none => s

/-- What happens: something is typed; the terminal is opened, or not; it is closed; a send of
an emptied buffer is done. -/
inductive Input where
  | type (data : String)
  | opened (success : Bool)
  | closed
  | sent (i : Nat)

def step (isMobileOrWebMobile : Bool) (s : TerminalModel) : Input → TerminalModel
  | .type data => s.handleInput isMobileOrWebMobile data
  | .opened success => s.handleTerminalOpened success
  | .closed => { s with terminalOpened := false }
  | .sent i => s.sent i

def onTheWay (s : TerminalModel) : List String := s.draining.flatten

/-- **Everything typed has been handed over in order**, up to what is on its way or
buffered. -/
def InOrder (s : TerminalModel) : Prop := s.handed ++ s.onTheWay ++ s.inputBuffer = s.typed

instance (s : TerminalModel) : Decidable s.InOrder :=
  inferInstanceAs (Decidable (_ = _))

/-- What is still on its way is the same text. -/
def Overtakes (data : String) (way : List String) : Prop := ∀ other ∈ way, other = data

/-- The condition: what is typed into an open terminal, and the first item of a buffer,
overtakes nothing else that is on its way, and the next item of an emptied buffer nothing of
the buffers before. -/
def Meets (isMobileOrWebMobile : Bool) (s : TerminalModel) : Input → Prop
  | .type data => s.terminalOpened = true →
      Overtakes (normalize isMobileOrWebMobile data) s.onTheWay
  | .opened success => success = true → ∀ data ∈ s.inputBuffer.head?, Overtakes data s.onTheWay
  | .closed => True
  | .sent i => ∀ data rest, s.draining[i]? = some (data :: rest) →
      Overtakes data (s.draining.take i).flatten

def Inv (s : TerminalModel) : Prop := s.terminalOpened = true → s.inputBuffer = []

variable {m : Bool} {s : TerminalModel}

theorem overtakes_iff {data : String} {way : List String} :
    data :: way = way ++ [data] ↔ Overtakes data way := by
  induction way with
  | nil => simp [Overtakes]
  | cons first way ih =>
    rw [cons_append, List.cons.injEq]
    constructor
    · rintro ⟨rfl, htail⟩
      exact forall_mem_cons.mpr ⟨rfl, ih.mp htail⟩
    · intro h
      obtain ⟨rfl, hway⟩ := forall_mem_cons.mp h
      exact ⟨rfl, ih.mpr hway⟩

theorem handed_iff {data : String} {way handed after typed : List String}
    (h : handed ++ (way ++ data :: after) = typed) :
    handed ++ (data :: way ++ after) = typed ↔ Overtakes data way := by
  subst h
  rw [← overtakes_iff, append_right_inj, append_cons way, append_left_inj]

theorem onTheWay_split {i : Nat} {l : List String} (h : s.draining[i]? = some l) :
    s.onTheWay = (s.draining.take i).flatten ++ l ++ (s.draining.drop (i + 1)).flatten := by
  obtain ⟨_, hget⟩ := List.getElem?_eq_some_iff.mp h
  have hsplit : s.draining = s.draining.take i ++ l :: s.draining.drop (i + 1) := by
    rw [← hget, getElem_cons_drop, take_append_drop]
  rw [onTheWay, append_assoc, ← flatten_cons, ← flatten_append, ← hsplit]

theorem inOrder_handleInput (hi : Inv s) (ho : InOrder s) (data : String) :
    (s.handleInput m data).InOrder ↔ s.Meets m (.type data) := by
  have ho' : s.handed ++ s.onTheWay ++ s.inputBuffer = s.typed := ho
  unfold handleInput
  cases hopened : s.terminalOpened with
  | false =>
    refine iff_of_true ?_ (fun h => absurd (hopened ▸ h) Bool.false_ne_true)
    simp only [InOrder, onTheWay, Bool.false_eq_true, if_false]
    rw [← ho', onTheWay, append_assoc _ s.inputBuffer]
  | true =>
    have hempty : s.inputBuffer = [] := hi hopened
    have hbehind : s.handed ++ (s.onTheWay ++ [normalize m data]) =
        s.typed ++ [normalize m data] := by
      rw [← ho', hempty, append_nil, append_assoc]
    have hhanded : s.handed ++ (normalize m data :: s.onTheWay ++ []) =
        s.typed ++ [normalize m data] ↔ Overtakes (normalize m data) s.onTheWay :=
      handed_iff hbehind
    simpa [InOrder, onTheWay, Meets, hempty, hopened] using hhanded

theorem inOrder_processBufferedInput (ho : InOrder s) :
    s.processBufferedInput.InOrder ↔ ∀ data ∈ s.inputBuffer.head?, Overtakes data s.onTheWay := by
  have ho' : s.handed ++ s.onTheWay ++ s.inputBuffer = s.typed := ho
  unfold processBufferedInput
  cases hbuffer : s.inputBuffer with
  | nil => simpa using ho
  | cons data rest =>
    have hbehind : s.handed ++ (s.onTheWay ++ data :: rest) = s.typed := by
      rw [← ho', hbuffer, append_assoc]
    simpa [InOrder, onTheWay] using handed_iff hbehind

theorem inOrder_sent (ho : InOrder s) (i : Nat) : (s.sent i).InOrder ↔ s.Meets m (.sent i) := by
  have ho' : s.handed ++ s.onTheWay ++ s.inputBuffer = s.typed := ho
  unfold sent
  split
  case h_1 data rest heq =>
    have hset : s.draining.set i rest = s.draining.take i ++ rest :: s.draining.drop (i + 1) := by
      rw [set_eq_take_append_cons_drop, if_pos (List.getElem?_eq_some_iff.mp heq).1]
    have hbehind : s.handed ++ ((s.draining.take i).flatten ++
        data :: (rest ++ (s.draining.drop (i + 1)).flatten ++ s.inputBuffer)) = s.typed := by
      rw [← ho', onTheWay_split heq]
      simp
    have hiff := handed_iff hbehind
    simpa [InOrder, onTheWay, Meets, heq, hset] using hiff
  case h_2 heq =>
    refine iff_of_true ?_ (by simp [Meets, heq])
    have hsame : (s.draining.eraseIdx i).flatten = s.onTheWay := by
      rw [onTheWay_split heq, eraseIdx_eq_take_drop_succ, flatten_append, append_nil]
    simp only [InOrder, onTheWay, hsame]
    exact ho'
  case h_3 heq => exact iff_of_true ho (by simp [Meets, heq])

theorem inOrder_step (hi : Inv s) (ho : InOrder s) (i : Input) :
    (step m s i).InOrder ↔ s.Meets m i := by
  cases i with
  | type data => exact inOrder_handleInput hi ho data
  | opened success =>
    cases success with
    | false => exact iff_of_true ho (fun h => absurd h Bool.false_ne_true)
    | true =>
      have hiff := inOrder_processBufferedInput (s := { s with terminalOpened := true }) ho
      exact hiff.trans ⟨fun h _ => h, fun h => h rfl⟩
  | closed => exact iff_of_true ho trivial
  | sent i => exact inOrder_sent ho i

theorem inv_step (hi : Inv s) (i : Input) : Inv (step m s i) := by
  cases i with
  | type data =>
    simp only [step, handleInput]
    split
    case isTrue hopened => exact hi
    case isFalse hclosed => exact fun h => absurd h hclosed
  | opened success =>
    cases success with
    | false => exact hi
    | true =>
      simp only [step, handleTerminalOpened, if_true, processBufferedInput]
      split
      case h_1 heq => exact fun _ => rfl
      case h_2 heq => exact fun _ => heq
  | closed => exact fun h => absurd h Bool.false_ne_true
  | sent i =>
    simp only [step, sent]
    split
    case h_1 | h_2 | h_3 => exact hi

/-- **What is typed is handed over in order, nothing lost and nothing twice, exactly in the
runs where no item overtakes another one that is on its way.** -/
theorem in_order_iff_along (m : Bool) (is : List Input) :
    Always (step m) InOrder start is ↔ Along (step m) (Meets m) start is :=
  always_iff_along (J := fun _ => Inv) (W := fun _ _ => True) (fun _ _ i _ hi => inv_step hi i)
    (fun _ _ i _ _ hi ho => inOrder_step hi ho i) (n := 0) (Nat.le_of_eq (Nat.zero_add _))
    (fun _ => rfl) rfl (along_of_forall (fun _ _ => trivial) _ _)

/-- Two keys are typed before the terminal is open and one while the second is on its way. -/
theorem typed_while_drained :
    ¬(exec (step false) start
      [.type "a", .type "b", .opened true, .type "c", .sent 0]).InOrder := by
  decide

end TerminalModel
end RustDesk
