import Mathlib.Algebra.Group.Int.Defs
import Mathlib.Algebra.Group.Nat.Defs
import RustDesk.Basic
import RustDesk.Lib.Run

/-!
# Frames through shared memory (Windows)

The portable service captures the screen as SYSTEM and hands the frames to the user's
process: `run_capture` writes a frame into the one slot there is and increases its counter;
`CapturerPortable::frame` sees that the counters differ, copies the one to the other, and
hands out the slot itself, to be used until the next call.

Both run at the same time.  A step is one access to what they share: a check of the counters
(each of them is written by one side only), a write of the frame's information or of its
pixels, the two halves of `increase_counter`.  What the capturer, the displays and the
parameters say is up to the event.

The reader gives the slot back before it uses it.  So nothing keeps the writer from the slot
while it is in use, except that it does not begin a frame in that time.
-/

namespace RustDesk

structure FrameInfo where
  length : Nat
  width : Nat
  height : Nat
  deriving DecidableEq

structure FrameCounter where
  write : Int
  read : Int

namespace FrameCounter

/-- The value after another one, as an `i32`. -/
def next (iw : Int) : Int := if iw = 2 ^ 31 - 1 then 0 else iw + 1

/-- The first half of `increase_counter`: both values, and both are read from the write
counter. -/
def load (c : FrameCounter) : Int × Int := (c.write, c.write)

def store (c : FrameCounter) (loaded : Int × Int) : FrameCounter :=
  let iwPlus1 := next loaded.1
  if loaded.2 = iwPlus1 then ⟨iwPlus1, loaded.1⟩ else { c with write := iwPlus1 }

def increaseCounter (c : FrameCounter) : FrameCounter := c.store c.load

def counterEqual (c : FrameCounter) : Bool := c.write == c.read

theorem next_ne (iw : Int) : next iw ≠ iw := by
  unfold next
  split_ifs with h
  · rw [h]
    decide
  · omega

theorem store_load (c c' : FrameCounter) : c'.store c.load = { c' with write := next c.write } :=
  if_neg (next_ne c.write).symm

theorem increaseCounter_differ (c : FrameCounter) :
    c.increaseCounter.write ≠ c.increaseCounter.read ↔ c.read ≠ next c.write := by
  rw [increaseCounter, store_load]
  exact ne_comm

end FrameCounter

inductive WriterState where
  | top
  | guard
  | capture
  | writeInfo (info : FrameInfo) (data : Bytes)
  | writePixels (data : Bytes)
  | load
  | store (loaded : Int × Int)
  | exited
  deriving DecidableEq

inductive ReaderState where
  | idle
  /-- `counter_ready` has found the counters different. -/
  | ready
  /-- `counter_ready` has returned true; what it returned is used until the next call. -/
  | accepted
  deriving DecidableEq

inductive CaptureResult where
  | pixelBuffer (info : FrameInfo) (data : Bytes)
  | texture
  | desktopChanged
  | wouldBlock
  /-- Another error, and whether the capturer is given up. -/
  | failed (giveUp : Bool)

inductive FrameEvent where
  /-- The top of the writer's loop: whether the parameters ask for another capturer, and
  whether a missing one can be made. -/
  | top (recreate created : Bool)
  | writer
  /-- `f.frame(spf)`, in shared memory that has room for this many bytes. -/
  | captured (result : CaptureResult) (capacity : Nat)
  /-- `CapturerPortable::frame` is called, and looks at the counters. -/
  | frame
  | accept
  /-- `CapturerPortable::new` clears the memory. -/
  | new

structure PortableFrames where
  counter : FrameCounter
  info : FrameInfo
  pixels : Bytes
  wouldBlock : Bool
  writer : WriterState
  capturer : Bool
  firstFrameCaptured : Bool
  reader : ReaderState

namespace PortableFrames

def writerStep (s : PortableFrames) : PortableFrames :=
  match s.writer with
  | .guard =>
    if s.firstFrameCaptured && !s.counter.counterEqual then { s with writer := .top }
    else { s with writer := .capture }
  | .writeInfo info data => { s with info := info, writer := .writePixels data }
  | .writePixels data => { s with pixels := data, wouldBlock := true, writer := .load }
  | .load => { s with writer := .store s.counter.load }
  | .store loaded =>
    { s with counter := s.counter.store loaded, firstFrameCaptured := true, writer := .top }
  | _ => s

def captured (s : PortableFrames) (capacity : Nat) : CaptureResult → PortableFrames
  | .pixelBuffer info data =>
    if data.length > capacity then { s with writer := .exited }
    else { s with writer := .writeInfo { info with length := data.length } data }
  | .texture => { s with writer := .top }
  | .desktopChanged => { s with capturer := false, writer := .top }
  | .wouldBlock => { s with wouldBlock := true, writer := .top }
  | .failed giveUp =>
    if giveUp then { s with capturer := false, wouldBlock := false, writer := .top }
    else { s with writer := .top }

def step (s : PortableFrames) : FrameEvent → PortableFrames
  | .top recreate created =>
    if s.writer = .top then
      if s.capturer then
        if recreate then { s with capturer := false } else { s with writer := .guard }
      else if created then
        { s with capturer := true, firstFrameCaptured := false, writer := .guard }
      else s
    else s
  | .writer => s.writerStep
  | .captured result capacity => if s.writer = .capture then s.captured capacity result else s
  | .frame =>
    if s.reader = .ready then s
    else { s with reader := if s.counter.counterEqual then .idle else .ready }
  | .accept =>
    if s.reader = .ready then
      { s with counter := { s.counter with read := s.counter.write }, reader := .accepted }
    else s
  | .new =>
    if s.reader = .ready then s
    else
      { s with
        counter := ⟨0, 0⟩, info := ⟨0, 0, 0⟩, pixels := s.pixels.map fun _ => 0
        wouldBlock := true, reader := .idle }

def Overwrites (s : PortableFrames) (e : FrameEvent) : Prop :=
  e = .writer ∧ ((∃ info data, s.writer = .writeInfo info data) ∨
    ∃ data, s.writer = .writePixels data)

def Increases (s : PortableFrames) (e : FrameEvent) : Prop :=
  e = .writer ∧ ∃ loaded, s.writer = .store loaded

/-- The writer begins a frame: it is the first, or the counters are equal. -/
def Begins (s : PortableFrames) (e : FrameEvent) : Prop :=
  e = .writer ∧ s.writer = .guard ∧ (s.firstFrameCaptured = true → s.counter.counterEqual = true)

/-- **A step that hands over well**: the writer does not write into a slot that was accepted,
and a counter that was increased is noticed. -/
def HandsOver (s : PortableFrames) (e : FrameEvent) : Prop :=
  (Overwrites s e → s.reader ≠ .accepted) ∧
    (Increases s e → (step s e).counter.write ≠ (step s e).counter.read)

/-- **A patient step**: no frame is begun while the slot is in use, nor, by a new capturer,
while a frame has not been seen; and the memory is not cleared while the counter is being
increased. -/
def Patient (s : PortableFrames) (e : FrameEvent) : Prop :=
  (Begins s e → s.reader ≠ .accepted ∧
    (s.firstFrameCaptured = false → s.counter.write = s.counter.read)) ∧
    (e = .new → ∀ loaded, s.writer ≠ .store loaded)

def InFrame : WriterState → Prop
  | .top | .guard | .exited => False
  | _ => True

/-- **While a frame is made, the counters are equal**, and the reader has accepted nothing. -/
structure Apart (s : PortableFrames) : Prop where
  ready : s.reader = .ready → s.counter.write ≠ s.counter.read
  equal : InFrame s.writer → s.counter.write = s.counter.read ∧ s.reader ≠ .accepted
  loaded : ∀ loaded, s.writer = .store loaded → loaded = s.counter.load

variable {s : PortableFrames}

theorem Apart.handsOver (h : s.Apart) (e : FrameEvent) : HandsOver s e := by
  constructor
  · rintro ⟨-, ⟨info, data, hwriter⟩ | ⟨data, hwriter⟩⟩
    · exact (h.equal (by rw [hwriter]; trivial)).2
    · exact (h.equal (by rw [hwriter]; trivial)).2
  · rintro ⟨rfl, loaded, hwriter⟩
    have heq := (h.equal (by rw [hwriter]; trivial)).1
    have hstore : (step s .writer).counter = s.counter.store loaded := by
      simp [step, writerStep, hwriter]
    rw [hstore, h.loaded loaded hwriter, FrameCounter.store_load]
    dsimp only
    rw [← heq]
    exact FrameCounter.next_ne _

theorem Apart.quiet {s s' : PortableFrames} (h : s.Apart) (hcounter : s'.counter = s.counter)
    (hreader : s'.reader = s.reader) (hframe : InFrame s'.writer → InFrame s.writer)
    (hstore : ∀ loaded, s'.writer = .store loaded → loaded = s.counter.load) : s'.Apart := by
  refine ⟨?_, ?_, ?_⟩
  · rw [hreader, hcounter]
    exact h.ready
  · rw [hreader, hcounter]
    exact fun hin => h.equal (hframe hin)
  · rw [hcounter]
    exact hstore

theorem Apart.writerStep (h : s.Apart) (hp : Patient s .writer) : s.writerStep.Apart := by
  unfold PortableFrames.writerStep
  split
  · rename_i hwriter
    split_ifs with hskip
    · exact h.quiet rfl rfl (fun hin => hin.elim) nofun
    · have hequal : s.firstFrameCaptured = true → s.counter.counterEqual = true := by
        intro hfirst
        simpa [hfirst] using hskip
      obtain ⟨hreader, hfresh⟩ := hp.1 ⟨rfl, hwriter, hequal⟩
      have hsame : s.counter.write = s.counter.read := by
        cases hfirst : s.firstFrameCaptured with
        | true => simpa [FrameCounter.counterEqual] using hequal hfirst
        | false => exact hfresh hfirst
      exact ⟨h.ready, fun _ => ⟨hsame, hreader⟩, nofun⟩
  · rename_i info data hwriter
    exact h.quiet rfl rfl (fun _ => by rw [hwriter]; trivial) nofun
  · rename_i data hwriter
    exact h.quiet rfl rfl (fun _ => by rw [hwriter]; trivial) nofun
  · rename_i hwriter
    refine h.quiet rfl rfl (fun _ => by rw [hwriter]; trivial) fun loaded heq => ?_
    exact (WriterState.store.inj heq).symm
  · rename_i loaded hwriter
    obtain ⟨heq, haccepted⟩ := h.equal (by rw [hwriter]; trivial)
    refine ⟨fun hready => absurd heq (h.ready hready), fun hin => hin.elim, nofun⟩
  · exact h

theorem Apart.captured (h : s.Apart) (hwriter : s.writer = .capture)
    (capacity : Nat) (result : CaptureResult) : (s.captured capacity result).Apart := by
  have hin : InFrame s.writer := by rw [hwriter]; trivial
  cases result with
  | pixelBuffer info data =>
    simp only [PortableFrames.captured]
    split_ifs
    · exact h.quiet rfl rfl (fun _ => hin) nofun
    · exact h.quiet rfl rfl (fun _ => hin) nofun
  | failed giveUp =>
    simp only [PortableFrames.captured]
    split_ifs
    · exact h.quiet rfl rfl (fun _ => hin) nofun
    · exact h.quiet rfl rfl (fun _ => hin) nofun
  | _ => exact h.quiet rfl rfl (fun _ => hin) nofun

theorem Apart.step (h : s.Apart) {e : FrameEvent} (hp : Patient s e) :
    (PortableFrames.step s e).Apart := by
  cases e with
  | top recreate created =>
    simp only [PortableFrames.step]
    split_ifs
    · exact h.quiet rfl rfl id h.loaded
    · exact h.quiet rfl rfl (fun hin => hin.elim) nofun
    · exact h.quiet rfl rfl (fun hin => hin.elim) nofun
    · exact h
    · exact h
  | writer => exact h.writerStep hp
  | captured result capacity =>
    simp only [PortableFrames.step]
    split_ifs with hwriter
    · exact h.captured hwriter capacity result
    · exact h
  | frame =>
    simp only [PortableFrames.step]
    split_ifs with hready hequal
    · exact h
    · exact ⟨nofun, fun hin => ⟨(h.equal hin).1, nofun⟩, h.loaded⟩
    · have hdiffer : s.counter.write ≠ s.counter.read := by
        simpa [FrameCounter.counterEqual] using hequal
      exact ⟨fun _ => hdiffer, fun hin => ⟨(h.equal hin).1, nofun⟩, h.loaded⟩
  | accept =>
    simp only [PortableFrames.step]
    split_ifs with hready
    · have hdiffer := h.ready hready
      refine ⟨nofun, fun hin => absurd (h.equal hin).1 hdiffer, fun loaded heq => ?_⟩
      exact absurd (h.equal (by rw [heq]; trivial)).1 hdiffer
    · exact h
  | new =>
    simp only [PortableFrames.step]
    split_ifs
    · exact h
    · exact ⟨nofun, fun _ => ⟨rfl, nofun⟩, fun loaded heq => absurd heq (hp.2 rfl loaded)⟩

def start (counter : FrameCounter) (info : FrameInfo) (pixels : Bytes) : PortableFrames where
  counter := counter
  info := info
  pixels := pixels
  wouldBlock := true
  writer := .top
  capturer := false
  firstFrameCaptured := false
  reader := .idle

theorem apart_start (counter : FrameCounter) (info : FrameInfo) (pixels : Bytes) :
    (start counter info pixels).Apart :=
  ⟨nofun, fun hin => hin.elim, nofun⟩

open Run in
/-- **Frames are handed over well** in every run of patient steps, from any counters; and an
increase alone, from any counters, is noticed exactly if the read counter is not one ahead. -/
theorem frames_handed_over (c counter : FrameCounter) (info : FrameInfo) (pixels : Bytes)
    (events : List FrameEvent) :
    (c.increaseCounter.write ≠ c.increaseCounter.read ↔ c.read ≠ FrameCounter.next c.write) ∧
      (Along step Patient (start counter info pixels) events →
        Along step HandsOver (start counter info pixels) events) := by
  refine ⟨FrameCounter.increaseCounter_differ c, fun h => ?_⟩
  exact Along.of_invariant (fun s e hs hp => hs.step hp) (fun s e hs _ => hs.handsOver e)
    (apart_start counter info pixels) h

def onePixel : FrameEvent := .captured (.pixelBuffer ⟨0, 1, 1⟩ [1, 2, 3, 4]) 64

def oneFrame : List FrameEvent :=
  [.top false true, .writer, onePixel, .writer, .writer, .writer, .writer, .frame, .accept]

open Run in
/-- The reader calls again before the next frame is begun. -/
theorem patient_writer_hands_over :
    let events := oneFrame ++ [.frame, .top false false, .writer, onePixel, .writer, .writer]
    Along step HandsOver (start ⟨7, 7⟩ ⟨0, 0, 0⟩ []) events := by
  intro events
  refine (frames_handed_over ⟨7, 7⟩ ⟨7, 7⟩ ⟨0, 0, 0⟩ [] events).2 ?_
  simp [events, oneFrame, onePixel, Along, Patient, Begins, step, start, writerStep, captured,
    FrameCounter.counterEqual, FrameCounter.store, FrameCounter.load, FrameCounter.next]

open Run in
/-- **The slot is overwritten while it is in use**: the reader has accepted a frame, and with
that the check of the counters passes.  And an increase is lost if the read counter is one
ahead. -/
theorem accepted_frame_overwritten :
    ¬Along step HandsOver (start ⟨0, 0⟩ ⟨0, 0, 0⟩ [])
        (oneFrame ++ [.top false false, .writer, onePixel, .writer]) ∧
      (FrameCounter.increaseCounter ⟨4, 5⟩).write = (FrameCounter.increaseCounter ⟨4, 5⟩).read := by
  refine ⟨fun h => ?_, by decide⟩
  simp [oneFrame, onePixel, Along, HandsOver, Overwrites, Increases, step, start, writerStep,
    captured, FrameCounter.counterEqual, FrameCounter.store, FrameCounter.load,
    FrameCounter.next] at h

end PortableFrames
end RustDesk
