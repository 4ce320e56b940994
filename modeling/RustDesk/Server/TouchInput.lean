import RustDesk.Lib.MachineInt
import RustDesk.Lib.Run

/-!
# Touches on an Android host

The left button of the mouse, and a pan, are dispatched as the parts of one stroke: each part but
the last says that the stroke will continue.  A press schedules a task on a timer, which continues
the stroke if the flag for a long press is still set.

`TouchInput` has the fields of the service, the statements of the handler that are still to be
run, and the tasks: a task that finds the flag set takes it, and its `continueGesture` is a step of
its own.

* `released_own_along`: **no touch stays pressed, and a long press is one of the press that
  scheduled it**, if no task finds the flag of another press, no press begins or ends between the
  steps of a task, no pan is updated outside of a pan, the platform takes the gesture that ends a
  touch, and the mouse gets away from a press only by a move that takes the flag.
-/

open Run

namespace RustDesk

open List

structure StrokeDescription where
  path : List (Int × Int)
  duration : Nat
  willContinue : Bool

structure GesturePlatform where
  takesStroke : StrokeDescription → Bool
  continuesStroke : StrokeDescription → StrokeDescription → Bool
  takesGesture : StrokeDescription → Bool

namespace TouchInput

structure Press where
  number : Nat
  time : Nat
  x : Int
  y : Int
  moved : Nat
  deriving DecidableEq

inductive Measure where
  | fromPress
  | fromLast

structure Task where
  press : Nat
  due : Nat
  deriving DecidableEq

/-- A task that has found the flag set: the press that scheduled it, the press at that time, and
when it was. -/
structure Running where
  task : Nat
  press : Option Press
  checkedAt : Nat
  deriving DecidableEq

structure Continuation where
  check : Running
  current : Option Nat
  deriving DecidableEq

inductive Op where
  | update (x y : Int)
  | judge (delta : Int)
  | wait
  | schedule
  | setDown (down : Bool)
  | startGesture
  | continueIfDown
  | stopWaiting
  | endGesture
  | continueGesture
  | panStart
  | panEnd
  deriving DecidableEq

end TouchInput

open TouchInput in
/-- `InputService`, its handler and tasks, the clock, the last gesture that was dispatched, whether
a pan is in progress, the press whose touch has not ended, the number of presses so far, and the
continuations that tasks have dispatched. -/
structure TouchInput where
  leftIsDown : Bool
  touchPath : List (Int × Int)
  stroke : Option StrokeDescription
  lastTouchGestureStartTime : Nat
  mouseX : Int
  mouseY : Int
  isWaitingLongPress : Bool
  handler : List Op
  tasks : List Task
  running : Option Running
  now : Nat
  dispatched : Option StrokeDescription
  panning : Bool
  press : Option Press
  presses : Nat
  continuations : List Continuation

namespace TouchInput

def LEFT_DOWN : Int := 9
def LEFT_MOVE : Int := 8
def LEFT_UP : Int := 10
def TOUCH_PAN_START : Int := 4
def TOUCH_PAN_UPDATE : Int := 5
def TOUCH_PAN_END : Int := 6

def start : TouchInput where
  leftIsDown := false
  touchPath := []
  stroke := none
  lastTouchGestureStartTime := 0
  mouseX := 0
  mouseY := 0
  isWaitingLongPress := false
  handler := []
  tasks := []
  running := none
  now := 0
  dispatched := none
  panning := false
  press := none
  presses := 0
  continuations := []

def lineTo (path : List (Int × Int)) (x y : Int) : List (Int × Int) :=
  (if path = [] then [(0, 0)] else path) ++ [(x, y)]

def startGesture (s : TouchInput) (x y : Int) : TouchInput :=
  { s with touchPath := [(x, y)], lastTouchGestureStartTime := s.now }

def description (s : TouchInput) (x y : Int) (willContinue : Bool) : StrokeDescription where
  path := lineTo s.touchPath x y
  duration := max 1 (s.now - s.lastTouchGestureStartTime)
  willContinue := willContinue

/-- The stroke of `doDispatchGesture`, unless the platform throws. -/
def nextStroke (platform : GesturePlatform) (s : TouchInput) (x y : Int) (willContinue : Bool) :
    Option StrokeDescription :=
  if s.stroke.elim (platform.takesStroke (s.description x y willContinue))
      (platform.continuesStroke · (s.description x y willContinue)) then
    some (s.description x y willContinue)
  else none

/-- The gesture of `doDispatchGesture`, unless the platform throws. -/
def sent (platform : GesturePlatform) (s : TouchInput) (x y : Int) (willContinue : Bool) :
    Option StrokeDescription :=
  (s.nextStroke platform x y willContinue).filter platform.takesGesture

def doDispatchGesture (platform : GesturePlatform) (s : TouchInput) (x y : Int)
    (willContinue : Bool) : TouchInput :=
  { s with
    touchPath := lineTo s.touchPath x y
    stroke := (s.nextStroke platform x y willContinue).or s.stroke
    dispatched := (s.sent platform x y willContinue).or s.dispatched }

def continueGesture (platform : GesturePlatform) (s : TouchInput) (x y : Int) : TouchInput :=
  (s.doDispatchGesture platform x y true).startGesture x y

def endGesture (platform : GesturePlatform) (s : TouchInput) (x y : Int) : TouchInput :=
  { s.doDispatchGesture platform x y false with touchPath := [], stroke := none }

/-- An `Int` of 32 bits. -/
def int (i : Int) : Int := MachineInt.asI32 (MachineInt.asU32 i)

/-- A coordinate on the screen; the scale is that of `SCREEN_INFO` at the time. -/
def scaled (v scale : Int) : Int := int (max 0 v * scale)

def abs (i : Int) : Int := int i.natAbs

def delta (oldX oldY x y : Int) : Int := int (abs (int (oldX - x)) + abs (int (oldY - y)))

/-- The statements of `onMouseInput`, as far as they are about the stroke.  The other buttons and
the wheel dispatch gestures of their own. -/
def onMouseInput (s : TouchInput) (mask x y scale : Int) : List Op :=
  (if mask = 0 ∨ mask = LEFT_MOVE then
    [.update (scaled x scale) (scaled y scale),
      .judge (delta s.mouseX s.mouseY (scaled x scale) (scaled y scale))]
  else []) ++
  if mask = LEFT_DOWN then [.wait, .schedule, .setDown true, .startGesture]
  else if mask = LEFT_UP ∧ s.leftIsDown = true then
    [.continueIfDown, .setDown false, .stopWaiting, .endGesture]
  else [.continueIfDown]

/-- The statements of `onTouchInput`. -/
def onTouchInput (s : TouchInput) (mask x y scale : Int) : List Op :=
  if mask = TOUCH_PAN_UPDATE then
    [.update (max 0 (int (s.mouseX - int (x * scale)))) (max 0 (int (s.mouseY - int (y * scale)))),
      .continueGesture]
  else if mask = TOUCH_PAN_START then [.update (scaled x scale) (scaled y scale), .panStart]
  else if mask = TOUCH_PAN_END then [.panEnd, .update (scaled x scale) (scaled y scale)]
  else []

variable (platform : GesturePlatform) (measure : Measure) (longPressDuration : Nat)

def Measure.far (measure : Measure) (p : Press) (oldX oldY x y : Int) : Nat :=
  match measure with
  | .fromPress => (x - p.x).natAbs + (y - p.y).natAbs
  | .fromLast => (x - oldX).natAbs + (y - oldY).natAbs

def perform (s : TouchInput) : Op → TouchInput
  | .update x y =>
    { s with
      mouseX := x
      mouseY := y
      press := s.press.map fun p =>
        { p with moved := max p.moved (Measure.far measure p s.mouseX s.mouseY x y) } }
  | .judge d => { s with isWaitingLongPress := s.isWaitingLongPress && !decide (8 < d) }
  | .wait =>
    { s with
      isWaitingLongPress := true
      press := some ⟨s.presses + 1, s.now, s.mouseX, s.mouseY, 0⟩
      presses := s.presses + 1 }
  | .schedule => { s with tasks := ⟨s.presses, s.now + longPressDuration⟩ :: s.tasks }
  | .setDown down => { s with leftIsDown := down }
  | .startGesture => s.startGesture s.mouseX s.mouseY
  | .continueIfDown =>
    if s.leftIsDown then s.continueGesture platform s.mouseX s.mouseY else s
  | .stopWaiting => { s with isWaitingLongPress := false }
  | .endGesture => { s.endGesture platform s.mouseX s.mouseY with press := none }
  | .continueGesture => s.continueGesture platform s.mouseX s.mouseY
  | .panStart => { s.startGesture s.mouseX s.mouseY with panning := true }
  | .panEnd => { s.endGesture platform s.mouseX s.mouseY with panning := false }

def next (s : TouchInput) : TouchInput :=
  match s.handler with
  | [] => s
  | op :: rest => perform platform measure longPressDuration { s with handler := rest } op

def check (s : TouchInput) (t : Task) : TouchInput :=
  if s.running = none ∧ t ∈ s.tasks ∧ t.due ≤ s.now then
    if s.isWaitingLongPress then
      { s with
        tasks := s.tasks.erase t
        isWaitingLongPress := false
        running := some ⟨t.press, s.press, s.now⟩ }
    else { s with tasks := s.tasks.erase t }
  else s

def resume (s : TouchInput) : TouchInput :=
  match s.running with
  | none => s
  | some r =>
    { s.continueGesture platform s.mouseX s.mouseY with
      running := none
      continuations := ⟨r, s.press.map (·.number)⟩ :: s.continuations }

inductive Input where
  | mouse (mask x y scale : Int)
  | touch (mask x y scale : Int)
  | next
  | check (t : Task)
  | resume
  | tick (ms : Nat)

def step (s : TouchInput) : Input → TouchInput
  | .mouse mask x y scale =>
    if s.handler = [] then { s with handler := s.onMouseInput mask x y scale } else s
  | .touch mask x y scale =>
    if s.handler = [] then { s with handler := s.onTouchInput mask x y scale } else s
  | .next => s.next platform measure longPressDuration
  | .check t => s.check t
  | .resume => s.resume platform
  | .tick ms => { s with now := s.now + ms }

/-- **No touch stays pressed.**  When the left button is up, no pan is in progress, and neither a
handler nor a task is in the middle of its steps, the last gesture was one that ends its stroke. -/
def Released (s : TouchInput) : Prop :=
  s.leftIsDown = false → s.panning = false → s.handler = [] → s.running = none →
    s.stroke = none ∧ ∀ g, s.dispatched = some g → g.willContinue = false

/-- A task has found the flag of the press that scheduled it, which had been held for the duration
and had not moved more than 8 pixels, and it is still that press. -/
def Running.Own (r : Running) (current : Option Nat) : Prop :=
  current = some r.task ∧ ∃ p, r.press = some p ∧ p.number = r.task ∧
    p.time + longPressDuration ≤ r.checkedAt ∧ p.moved ≤ 8

/-- **A long press is one of the press that scheduled it.** -/
def OwnPresses (s : TouchInput) : Prop :=
  ∀ c ∈ s.continuations, c.check.Own longPressDuration c.current

def judgesFar : List Op → Bool
  | .judge d :: _ => 8 < d
  | _ => false

def Ends (s : TouchInput) : Prop :=
  (s.sent platform s.mouseX s.mouseY false).isSome = true ∨
    s.dispatched.any (·.willContinue) = false

instance (s : TouchInput) : Decidable (s.Ends platform) :=
  inferInstanceAs (Decidable (_ ∨ _))

/-- The condition on a statement.  While the flag is set the mouse stays within 8 pixels, or the
flag is taken next; no press begins or ends between the steps of a task; a pan is updated while it
is in progress or the left button is down; and a touch is ended by a gesture that the platform
takes. -/
def MeetsOp (s : TouchInput) (rest : List Op) : Op → Prop
  | .update x y => s.isWaitingLongPress = true →
      s.press.all (fun p => Measure.far measure p s.mouseX s.mouseY x y ≤ 8) = true ∨
        judgesFar rest = true
  | .wait => s.running = none
  | .continueGesture => s.leftIsDown = true ∨ s.panning = true
  | .endGesture => s.running = none ∧ (s.panning = true ∨ s.Ends platform)
  | .panEnd => s.leftIsDown = true ∨ s.Ends platform
  | _ => True

/-- The condition.  And a task that finds the flag set finds it for its own press, and not between a
move of more than 8 pixels and the statement that takes the flag. -/
def Meets (s : TouchInput) : Input → Prop
  | .next =>
    match s.handler with
    | [] => True
    | op :: rest => s.MeetsOp platform measure rest op
  | .check t => s.running = none ∧ t ∈ s.tasks ∧ t.due ≤ s.now → s.isWaitingLongPress = true →
      s.press.any (·.number = t.press) = true ∧ judgesFar s.handler = false
  | _ => True

instance (s : TouchInput) (rest : List Op) :
    ∀ op, Decidable (s.MeetsOp platform measure rest op)
  | .update _ _ => inferInstanceAs (Decidable (_ → _))
  | .wait => inferInstanceAs (Decidable (_ = _))
  | .continueGesture => inferInstanceAs (Decidable (_ ∨ _))
  | .endGesture => inferInstanceAs (Decidable (_ ∧ _))
  | .panEnd => inferInstanceAs (Decidable (_ ∨ _))
  | .judge _ | .schedule | .setDown _ | .startGesture | .continueIfDown | .stopWaiting
  | .panStart => isTrue trivial

instance (s : TouchInput) : ∀ i, Decidable (s.Meets platform measure i)
  | .next =>
    match h : s.handler with
    | [] => isTrue (by rw [Meets, h]; trivial)
    | op :: rest => decidable_of_iff (s.MeetsOp platform measure rest op) (by rw [Meets, h])
  | .check _ => inferInstanceAs (Decidable (_ → _))
  | .mouse .. | .touch .. | .resume | .tick _ => isTrue trivial

variable {platform measure longPressDuration} {s : TouchInput} {op : Op} {rest : List Op}

def Shape (handler : List Op) : Prop :=
  handler <:+ [.wait, .schedule, .setDown true, .startGesture] ∨
    handler <:+ [.continueIfDown, .setDown false, .stopWaiting, .endGesture] ∨
      ∀ op ∈ handler, op ≠ .wait ∧ op ≠ .setDown false ∧ op ≠ .endGesture

theorem Shape.tail (h : Shape (op :: rest)) : Shape rest := by
  rcases h with h | h | h
  · exact .inl ((suffix_cons op rest).trans h)
  · exact .inr (.inl ((suffix_cons op rest).trans h))
  · exact .inr (.inr fun op' hop => h op' (mem_cons_of_mem _ hop))

theorem shape_nil : Shape [] := .inr (.inr fun _ hop => absurd hop not_mem_nil)

theorem Shape.of_wait (h : Shape (.wait :: rest)) :
    rest = [.schedule, .setDown true, .startGesture] := by
  rcases h with h | h | h
  · simpa [suffix_cons_iff] using h
  · simp [suffix_cons_iff] at h
  · exact absurd rfl (h .wait mem_cons_self).1

theorem Shape.of_setDown (h : Shape (.setDown false :: rest)) :
    rest = [.stopWaiting, .endGesture] := by
  rcases h with h | h | h
  · simp [suffix_cons_iff] at h
  · simpa [suffix_cons_iff] using h
  · exact absurd rfl (h _ mem_cons_self).2.1

theorem Shape.of_endGesture (h : Shape (.endGesture :: rest)) : rest = [] := by
  rcases h with h | h | h
  · simp [suffix_cons_iff] at h
  · simpa [suffix_cons_iff] using h
  · exact absurd rfl (h _ mem_cons_self).2.2

theorem Shape.before_endGesture (h : Shape [op, .endGesture]) : op = .stopWaiting := by
  rcases h with h | h | h
  · simp [suffix_cons_iff] at h
  · simpa [suffix_cons_iff] using h
  · exact absurd rfl (h .endGesture (by simp)).2.2

theorem shape_onMouseInput (s : TouchInput) (mask x y scale : Int) :
    Shape (s.onMouseInput mask x y scale) := by
  unfold onMouseInput
  by_cases hmove : mask = 0 ∨ mask = LEFT_MOVE
  · have hdown : mask ≠ LEFT_DOWN := by
      rcases hmove with rfl | rfl <;> decide
    have hup : ¬(mask = LEFT_UP ∧ s.leftIsDown = true) := by
      rintro ⟨rfl, -⟩
      rcases hmove with h | h <;> cases h
    rw [if_pos hmove, if_neg hdown, if_neg hup]
    exact .inr (.inr (by simp))
  · rw [if_neg hmove, nil_append]
    split
    · exact .inl (suffix_refl _)
    · split
      · exact .inr (.inl (suffix_refl _))
      · exact .inr (.inr (by simp))

theorem shape_onTouchInput (s : TouchInput) (mask x y scale : Int) :
    Shape (s.onTouchInput mask x y scale) := by
  unfold onTouchInput
  refine .inr (.inr ?_)
  split
  · simp
  · split
    · simp
    · split
      · simp
      · simp

def Open (s : TouchInput) : Prop :=
  s.stroke ≠ none ∨ s.dispatched.any (·.willContinue) = true

theorem not_open_endGesture (h : s.Ends platform) :
    ¬(s.endGesture platform s.mouseX s.mouseY).Open := by
  rintro (hstroke | hlast)
  · exact hstroke rfl
  · simp only [endGesture, doDispatchGesture] at hlast
    cases hsent : s.sent platform s.mouseX s.mouseY false with
    | none =>
      rw [hsent, Option.none_or] at hlast
      rcases h with h | h
      · rw [hsent] at h
        cases h
      · exact Bool.noConfusion (h.symm.trans hlast)
    | some g =>
      have hends : g.willContinue = false := by
        obtain ⟨hnext, -⟩ := Option.filter_eq_some_iff.mp hsent
        unfold nextStroke at hnext
        split at hnext
        · rw [← Option.some_inj.mp hnext]
          rfl
        · exact absurd hnext.symm (Option.some_ne_none _)
      rw [hsent] at hlast
      exact Bool.noConfusion (hends.symm.trans hlast)

def Covered (s : TouchInput) : Prop :=
  s.leftIsDown = true ∨ .endGesture ∈ s.handler ∨ .setDown true ∈ s.handler

/-- What holds at every step: a press whose touch has not ended, and an open stroke, are still to be
ended; the flag is that of a press that has not moved far; and the tasks are due when their presses
have lasted. -/
structure Inv (longPressDuration : Nat) (s : TouchInput) : Prop where
  shape : Shape s.handler
  untaken : s.handler = [.endGesture] → s.isWaitingLongPress = false
  pressed : s.press.isSome = true → s.Covered
  opened : s.Open → s.panning = true ∨ s.Covered
  flag : s.isWaitingLongPress = true →
    ∃ p, s.press = some p ∧ (p.moved ≤ 8 ∨ judgesFar s.handler = true)
  number : ∀ p, s.press = some p → p.number ≤ s.presses ∧ p.time ≤ s.now
  tasks : ∀ t ∈ s.tasks, t.press ≤ s.presses ∧
    ∀ p, s.press = some p → p.number = t.press → p.time + longPressDuration ≤ t.due
  running : ∀ r, s.running = some r → r.Own longPressDuration (s.press.map (·.number))
  own : s.OwnPresses longPressDuration

theorem inv_start : Inv longPressDuration start where
  shape := shape_nil
  untaken := fun h => absurd h (by decide)
  pressed := fun h => absurd h (by decide)
  opened := fun h => absurd h (by simp [Open, start])
  flag := fun h => absurd h (by decide)
  number := fun p h => absurd h (by simp [start])
  tasks := fun t h => absurd h not_mem_nil
  running := fun r h => absurd h (by simp [start])
  own := fun c h => absurd h not_mem_nil

theorem Inv.released (h : Inv longPressDuration s) : s.Released := by
  intro hdown hpanning hhandler _
  have hnot : ¬s.Open := by
    intro hopen
    rcases h.opened hopen with hpan | hcovered
    · exact Bool.noConfusion (hpanning.symm.trans hpan)
    · simp [Covered, hdown, hhandler] at hcovered
  refine ⟨not_not.mp fun hstroke => hnot (.inl hstroke), fun g hg => ?_⟩
  by_contra hcontinues
  refine hnot (.inr ?_)
  rw [hg]
  exact (Bool.not_eq_false _).mp hcontinues

theorem Covered.pop (h : Covered s) (hhandler : s.handler = op :: rest) (hend : op ≠ .endGesture)
    (hdown : op ≠ .setDown true) : Covered { s with handler := rest } := by
  unfold Covered at h ⊢
  rw [hhandler] at h
  simpa [hend.symm, hdown.symm] using h

theorem Inv.popFlag (h : Inv longPressDuration s) (hhandler : s.handler = op :: rest)
    (hend : op ≠ .endGesture) (hdown : op ≠ .setDown true) {waiting : Bool}
    (hwaiting : waiting = true → s.isWaitingLongPress = true ∧ op ≠ .stopWaiting ∧
      judgesFar (op :: rest) = false) :
    Inv longPressDuration { s with handler := rest, isWaitingLongPress := waiting } where
  shape := (hhandler ▸ h.shape).tail
  untaken := by
    rintro rfl
    by_contra hset
    have hstop := (hwaiting ((Bool.not_eq_false _).mp hset)).2.1
    exact hstop (hhandler ▸ h.shape).before_endGesture
  pressed := fun hpress => (h.pressed hpress).pop hhandler hend hdown
  opened := fun hopen => (h.opened hopen).imp_right fun hc => hc.pop hhandler hend hdown
  flag := fun hset => by
    obtain ⟨hbefore, -, hjudge⟩ := hwaiting hset
    obtain ⟨p, hp, hnear | hfar⟩ := h.flag hbefore
    · exact ⟨p, hp, .inl hnear⟩
    · rw [hhandler, hjudge] at hfar
      cases hfar
  number := h.number
  tasks := h.tasks
  running := h.running
  own := h.own

theorem Inv.pop (h : Inv longPressDuration s) (hhandler : s.handler = op :: rest)
    (hend : op ≠ .endGesture) (hdown : op ≠ .setDown true) (hstop : op ≠ .stopWaiting)
    (hjudge : judgesFar (op :: rest) = false) : Inv longPressDuration { s with handler := rest } :=
  h.popFlag hhandler hend hdown fun hset => ⟨hset, hstop, hjudge⟩

theorem Inv.continueGesture (h : Inv longPressDuration s)
    (hcovered : s.panning = true ∨ s.Covered) :
    Inv longPressDuration (s.continueGesture platform s.mouseX s.mouseY) :=
  { h with opened := fun _ => hcovered }

theorem Inv.update (h : Inv longPressDuration s) {x y : Int}
    (hnear : s.MeetsOp platform measure s.handler (.update x y)) :
    Inv longPressDuration (s.perform platform measure longPressDuration (.update x y)) := by
  -- The press keeps its number and its time.
  have hpress : ∀ p', (s.press.map fun p =>
      { p with moved := max p.moved (measure.far p s.mouseX s.mouseY x y) }) = some p' →
      ∃ p, s.press = some p ∧ p'.number = p.number ∧ p'.time = p.time := by
    intro p' hp'
    obtain ⟨p, hp, rfl⟩ := Option.map_eq_some_iff.mp hp'
    exact ⟨p, hp, rfl, rfl⟩
  refine { h with pressed := ?_, flag := ?_, number := ?_, tasks := ?_, running := ?_ }
  · intro hsome
    refine h.pressed ?_
    rwa [← Option.isSome_map]
  · intro hwaiting
    obtain ⟨p, hp, hmoved⟩ := h.flag hwaiting
    refine ⟨_, by rw [perform, hp]; rfl, ?_⟩
    rcases hmoved with hmoved | hfar
    · rcases hnear hwaiting with hnear | hfar
      · refine .inl (Nat.max_le.mpr ⟨hmoved, ?_⟩)
        rw [hp] at hnear
        exact of_decide_eq_true hnear
      · exact .inr hfar
    · exact .inr hfar
  · intro p' hp'
    obtain ⟨p, hp, hnumber, htime⟩ := hpress p' hp'
    rw [hnumber, htime]
    exact h.number p hp
  · intro t ht
    refine ⟨(h.tasks t ht).1, fun p' hp' => ?_⟩
    obtain ⟨p, hp, hnumber, htime⟩ := hpress p' hp'
    rw [hnumber, htime]
    exact (h.tasks t ht).2 p hp
  · intro r hr
    have hown := h.running r hr
    rwa [perform, Option.map_map]

theorem Inv.wait (h : Inv longPressDuration s) (hrunning : s.running = none)
    (hdown : .setDown true ∈ s.handler) (hlong : s.handler ≠ [.endGesture]) :
    Inv longPressDuration (s.perform platform measure longPressDuration .wait) := by
  have hcovered : s.Covered := .inr (.inr hdown)
  refine { h with
    untaken := fun heq => absurd heq hlong
    pressed := fun _ => hcovered
    opened := fun _ => .inr hcovered
    flag := fun _ => ⟨_, rfl, .inl (Nat.zero_le 8)⟩
    number := ?_
    tasks := ?_
    running := fun r hr => absurd (hrunning.symm.trans hr).symm (Option.some_ne_none r) }
  · intro p hp
    obtain rfl := Option.some_inj.mp hp
    exact ⟨Nat.le_refl _, Nat.le_refl _⟩
  · intro t ht
    have hbound := (h.tasks t ht).1
    refine ⟨Nat.le_succ_of_le hbound, fun p hp hnumber => ?_⟩
    -- The new press has a number that no task has.
    obtain rfl := Option.some_inj.mp hp
    change s.presses + 1 = t.press at hnumber
    omega

theorem Inv.schedule (h : Inv longPressDuration s) :
    Inv longPressDuration (s.perform platform measure longPressDuration .schedule) := by
  refine { h with tasks := fun t ht => ?_ }
  rcases mem_cons.mp ht with rfl | ht
  · refine ⟨Nat.le_refl _, fun p hp _ => ?_⟩
    have htime := (h.number p hp).2
    exact Nat.add_le_add_right htime _
  · exact h.tasks t ht

theorem Inv.setDown (h : Inv longPressDuration s) {down : Bool}
    (hhandler : s.handler = .setDown down :: rest) :
    Inv longPressDuration
      (perform platform measure longPressDuration { s with handler := rest } (.setDown down)) := by
  have hcovered : Covered { s with handler := rest, leftIsDown := down } := by
    cases down with
    | true => exact .inl rfl
    | false =>
      obtain rfl := (hhandler ▸ h.shape).of_setDown
      exact .inr (.inl (by simp))
  exact
    { shape := (hhandler ▸ h.shape).tail
      untaken := fun heq => by
        obtain rfl : rest = [.endGesture] := heq
        exact absurd (hhandler ▸ h.shape).before_endGesture (by simp)
      pressed := fun _ => hcovered
      opened := fun _ => .inr hcovered
      flag := fun hset => by
        obtain ⟨p, hp, hmoved⟩ := h.flag hset
        rw [hhandler] at hmoved
        exact ⟨p, hp, .inl (hmoved.resolve_right Bool.false_ne_true)⟩
      number := h.number
      tasks := h.tasks
      running := h.running
      own := h.own }

theorem Inv.endGesture (h : Inv longPressDuration s) (hhandler : s.handler = .endGesture :: rest)
    (hmeets : s.MeetsOp platform measure rest .endGesture) :
    Inv longPressDuration
      (perform platform measure longPressDuration { s with handler := rest } .endGesture) := by
  obtain ⟨hrunning, hends⟩ := hmeets
  obtain rfl := (hhandler ▸ h.shape).of_endGesture
  have hflag := h.untaken hhandler
  refine
    { shape := shape_nil
      untaken := fun _ => hflag
      pressed := fun hsome => Bool.noConfusion hsome
      opened := fun hopen => hends.imp_right fun hends => absurd hopen ?_
      flag := fun hwaiting => Bool.noConfusion (hflag.symm.trans hwaiting)
      number := fun p hp => absurd hp.symm (Option.some_ne_none p)
      tasks := fun t ht =>
        ⟨(h.tasks t ht).1, fun p hp => absurd hp.symm (Option.some_ne_none p)⟩
      running := fun r hr => absurd (hrunning.symm.trans hr).symm (Option.some_ne_none r)
      own := h.own }
  exact not_open_endGesture (s := { s with handler := [] }) hends

theorem Inv.panEnd (h : Inv longPressDuration s) (hends : s.leftIsDown = true ∨ s.Ends platform) :
    Inv longPressDuration (s.perform platform measure longPressDuration .panEnd) := by
  refine { h with opened := fun hopen => .inr ?_ }
  rcases hends with hdown | hends
  · exact .inl hdown
  · exact absurd hopen (not_open_endGesture hends)

theorem Inv.next (h : Inv longPressDuration s) (hmeets : s.Meets platform measure .next) :
    Inv longPressDuration (s.next platform measure longPressDuration) := by
  rw [TouchInput.next]
  rw [Meets] at hmeets
  cases hhandler : s.handler with
  | nil => exact h
  | cons op rest =>
    rw [hhandler] at hmeets
    have hpop := h.pop hhandler
    simp only at hmeets ⊢
    cases op with
    | update x y => exact (hpop (by simp) (by simp) (by simp) rfl).update hmeets
    | judge d =>
      refine h.popFlag hhandler (by simp) (by simp) fun hset => ?_
      obtain ⟨hbefore, hnear⟩ := Bool.and_eq_true_iff.mp hset
      exact ⟨hbefore, by simp, (Bool.not_eq_true' _).mp hnear⟩
    | wait =>
      have hrest := (hhandler ▸ h.shape).of_wait
      refine (hpop (by simp) (by simp) (by simp) rfl).wait hmeets ?_ ?_
      · simp [hrest]
      · simp [hrest]
    | schedule => exact (hpop (by simp) (by simp) (by simp) rfl).schedule
    | setDown down => exact h.setDown hhandler
    | startGesture => exact { hpop (by simp) (by simp) (by simp) rfl with }
    | continueIfDown =>
      have hrest := hpop (by simp) (by simp) (by simp) rfl
      rw [perform]
      split
      next hdown => exact hrest.continueGesture (.inr (.inl hdown))
      · exact hrest
    | stopWaiting =>
      exact h.popFlag hhandler (by simp) (by simp) fun hset => Bool.noConfusion hset
    | endGesture => exact h.endGesture hhandler hmeets
    | continueGesture =>
      have hrest := hpop (by simp) (by simp) (by simp) rfl
      exact hrest.continueGesture (hmeets.symm.imp_right .inl)
    | panStart =>
      exact { hpop (by simp) (by simp) (by simp) rfl with opened := fun _ => .inl rfl }
    | panEnd => exact (hpop (by simp) (by simp) (by simp) rfl).panEnd hmeets

theorem Inv.check (h : Inv longPressDuration s) {t : Task}
    (hmeets : s.Meets platform measure (.check t)) : Inv longPressDuration (s.check t) := by
  have htasks : ∀ t' ∈ s.tasks.erase t, t' ∈ s.tasks := fun t' ht' => mem_of_mem_erase ht'
  unfold TouchInput.check
  split
  next hdue =>
    split
    next hset =>
      obtain ⟨hnumber, hjudge⟩ := hmeets hdue hset
      obtain ⟨p, hp, hmoved⟩ := h.flag hset
      have hnear : p.moved ≤ 8 := by
        rw [hjudge] at hmoved
        exact hmoved.resolve_right Bool.false_ne_true
      rw [hp] at hnumber
      have hown : p.number = t.press := of_decide_eq_true hnumber
      have hlasted := (h.tasks t hdue.2.1).2 p hp hown
      refine { h with
        untaken := fun _ => rfl
        flag := fun hset => Bool.noConfusion hset
        tasks := fun t' ht' => h.tasks t' (htasks t' ht')
        running := fun r hr => ?_ }
      obtain rfl := Option.some_inj.mp hr
      refine ⟨?_, p, hp, hown, Nat.le_trans hlasted hdue.2.2, hnear⟩
      simp only [hp, Option.map_some, hown]
    · exact { h with tasks := fun t' ht' => h.tasks t' (htasks t' ht') }
  · exact h

theorem Inv.resume (h : Inv longPressDuration s) : Inv longPressDuration (s.resume platform) := by
  unfold TouchInput.resume
  split
  · exact h
  next r hr =>
    have hown := h.running r hr
    have hsome : s.press.isSome = true := by
      rw [← Option.isSome_map, hown.1]
      rfl
    refine { h.continueGesture (.inr (h.pressed hsome)) with
      running := fun r hr => absurd hr.symm (Option.some_ne_none r)
      own := fun c hc => ?_ }
    rcases mem_cons.mp hc with rfl | hc
    · exact hown
    · exact h.own c hc

theorem Inv.event (h : Inv longPressDuration s) (hidle : s.handler = []) {ops : List Op}
    (hshape : Shape ops) (hlong : ops ≠ [.endGesture]) :
    Inv longPressDuration { s with handler := ops } := by
  have hcovered : s.Covered → Covered { s with handler := ops } := by
    rintro (hdown | hmem)
    · exact .inl hdown
    · simp [hidle] at hmem
  refine { h with
    shape := hshape
    untaken := fun heq => absurd heq hlong
    pressed := fun hsome => hcovered (h.pressed hsome)
    opened := fun hopen => (h.opened hopen).imp_right hcovered
    flag := fun hset => ?_ }
  obtain ⟨p, hp, hmoved⟩ := h.flag hset
  rw [hidle] at hmoved
  exact ⟨p, hp, .inl (hmoved.resolve_right Bool.false_ne_true)⟩

theorem onMouseInput_ne (s : TouchInput) (mask x y scale : Int) :
    s.onMouseInput mask x y scale ≠ [.endGesture] := by
  unfold onMouseInput
  split_ifs <;> simp

theorem onTouchInput_ne (s : TouchInput) (mask x y scale : Int) :
    s.onTouchInput mask x y scale ≠ [.endGesture] := by
  unfold onTouchInput
  split_ifs <;> simp

theorem inv_step (i : Input) (h : Inv longPressDuration s) (hmeets : s.Meets platform measure i) :
    Inv longPressDuration (step platform measure longPressDuration s i) := by
  cases i with
  | mouse mask x y scale =>
    simp only [step]
    split
    next hidle =>
      exact h.event hidle (shape_onMouseInput s mask x y scale) (onMouseInput_ne s mask x y scale)
    · exact h
  | touch mask x y scale =>
    simp only [step]
    split
    next hidle =>
      exact h.event hidle (shape_onTouchInput s mask x y scale) (onTouchInput_ne s mask x y scale)
    · exact h
  | next => exact h.next hmeets
  | check t => exact h.check hmeets
  | resume => exact h.resume
  | tick ms =>
    refine { h with number := fun p hp => ?_ }
    obtain ⟨hnumber, htime⟩ := h.number p hp
    exact ⟨hnumber, Nat.le_add_right_of_le htime⟩

/-- **No touch stays pressed, and a long press is one of the press that scheduled it**, in every run
that meets the condition, whichever way the 8 pixels are measured. -/
theorem released_own_along (platform : GesturePlatform) (measure : Measure)
    (longPressDuration : Nat) (is : List Input)
    (h : Along (step platform measure longPressDuration) (Meets platform measure) start is) :
    Always (step platform measure longPressDuration)
      (fun s => s.Released ∧ s.OwnPresses longPressDuration) start is := by
  have hinv : Always (step platform measure longPressDuration) (Inv longPressDuration) start is :=
    always_of_along (fun s i hs hC => inv_step i hs hC) inv_start h
  exact fun pre hpre => ⟨(hinv pre hpre).released, (hinv pre hpre).own⟩

def standardPlatform : GesturePlatform where
  takesStroke g := g.path.all fun x => 0 ≤ x.1 ∧ 0 ≤ x.2
  continuesStroke before g := before.willContinue && g.path.all fun x => 0 ≤ x.1 ∧ 0 ≤ x.2
  takesGesture g := g.duration ≤ 60000

def pressLeft : List Input := [.mouse LEFT_DOWN 0 0 1, .next, .next, .next, .next]

def releaseLeft : List Input := [.mouse LEFT_UP 0 0 1, .next, .next, .next, .next]

/-- A press is held, its task continues it, and it is released. -/
theorem longPress_released_own :
    Always (step standardPlatform .fromPress 500)
      (fun s => s.Released ∧ s.OwnPresses 500) start
      (pressLeft ++ [.tick 500, .check ⟨1, 500⟩, .resume] ++ releaseLeft) :=
  released_own_along standardPlatform .fromPress 500 _ (by decide)

/-- The button is released between the steps of the task: the stroke is opened again.  And of two
quick clicks the task of the first one makes the second a long press. -/
theorem not_released_own :
    ¬Always (step standardPlatform .fromPress 500) Released start
        (pressLeft ++ [.tick 500, .check ⟨1, 500⟩] ++ releaseLeft ++ [.resume]) ∧
      ¬Always (step standardPlatform .fromPress 500) (OwnPresses 500) start
        (pressLeft ++ releaseLeft ++ [.tick 300] ++ pressLeft ++
          [.tick 200, .check ⟨1, 500⟩, .resume]) := by
  constructor
  · intro h
    have hreleased := h.last (by decide) (by decide) (by decide) (by decide)
    exact absurd hreleased.1 (by decide)
  · intro h
    have hown := h.last ⟨⟨1, some ⟨2, 300, 0, 0, 0⟩, 500⟩, some 2⟩ (by decide)
    exact absurd hown.1 (by decide)

end TouchInput
end RustDesk
