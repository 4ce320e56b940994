import RustDesk.Lib.RingBuffer
import RustDesk.Lib.Run

/-!
# The audio buffer

Decoded samples are appended to a ring buffer, and the callback of the output device reads them
from its front.  Samples leave the front for three other reasons: an append that does not fit, an
append larger than the buffer, and, every twelve seconds, a shrink by the fill level that was
seen most.

Everything happens under the lock of the ring buffer; the callback may read between the two
halves of `append_pcm`.
-/

namespace RustDesk.AudioBuffer

def audioBufferMs : Nat := 3000

/-- `AudioBuffer`: the samples, the samples of one second, and how often each fill level was seen,
in tenths of a second. -/
structure Buffer (ρ : Type*) where
  ring : ρ
  perSecond : Nat
  counts : List Nat

structure Marks where
  counts : List Nat
  zero : Nat
  max : Nat

def Marks.turn (m : Marks) (i : Nat) : Marks :=
  let zeros := if m.counts.getD i 0 = 0 ∧ m.zero = i then m.zero + 1 else m.zero
  if m.counts.getD i 0 > m.counts.getD m.max 0 then ⟨m.counts.set m.max 0, zeros, i⟩
  else ⟨m.counts.set i 0, zeros, m.max⟩

def marks (counts : List Nat) : Marks := (List.range 30).foldl Marks.turn ⟨counts, 0, 0⟩

def shrinkLevel (counts : List Nat) : Option Nat :=
  let m := marks counts
  let zeros := m.zero * 2 / 3
  if m.max < 6 then none else some (if m.max > zeros * 4 then zeros * 4 else m.max)

def countsAfter (counts : List Nat) : List Nat :=
  let m := marks counts
  m.counts.set m.max 0

def skipped (cap level : Nat) : Nat := (cap * level / (30 * 4) + 1) / 2 * 2

section

variable {ρ α : Type*} (R : RingBuffer ρ α)

def Buffer.default : Buffer ρ :=
  ⟨R.new (48000 * 2 * audioBufferMs / 1000), 48000 * 2, List.replicate 30 0⟩

def Buffer.resize (sampleRate channels : Nat) (b : Buffer ρ) : Buffer ρ :=
  let capacity := sampleRate * channels * audioBufferMs / 1000
  if capacity ≠ R.capacity b.ring then
    { b with ring := R.new capacity, perSecond := sampleRate * channels }
  else b

/-- `append_pcm2`, with the fill it returns. -/
def Buffer.appendPcm2 (buffer : List α) (b : Buffer ρ) : Buffer ρ × Nat :=
  let cap := R.capacity b.ring
  if buffer.length > cap then
    ({ b with ring := R.pushSliceOverwrite buffer b.ring }, cap)
  else
    let having := R.occupiedLen b.ring + buffer.length
    let ring := if having > cap then R.skip (having - cap) b.ring else b.ring
    let ring := R.pushSliceOverwrite buffer ring
    ({ b with ring := ring }, R.occupiedLen ring)

def Buffer.count (having : Nat) (b : Buffer ρ) : Buffer ρ :=
  let i := if having * 10 / b.perSecond > 29 then 29 else having * 10 / b.perSecond
  { b with counts := b.counts.set i (b.counts.getD i 0 + 1) }

/-- Whether `try_shrink` goes on, by the clock and the time at which it last did. -/
def due (tms dt : Int) : Prop := tms ≠ 0 ∧ tms + 12000 ≤ dt

instance (tms dt : Int) : Decidable (due tms dt) := inferInstanceAs (Decidable (_ ∧ _))

def Buffer.skipCount (b : Buffer ρ) : Nat :=
  match shrinkLevel b.counts with
  | none => 0
  | some level =>
    let skip := skipped (R.capacity b.ring) level
    if R.occupiedLen b.ring > skip * 3 ∧ skip > 0 then skip else 0

/-- `try_shrink`, with the static `tms` before and after. -/
def Buffer.tryShrink (having : Nat) (dt : Int) (tms : Int) (b : Buffer ρ) : Buffer ρ × Int :=
  let b := b.count having
  if tms = 0 then (b, dt)
  else if dt < tms + 12000 then (b, tms)
  else
    let skip := b.skipCount R
    let ring := if skip > 0 then R.skip skip b.ring else b.ring
    ({ b with ring := ring, counts := countsAfter b.counts }, dt)

end
end RustDesk.AudioBuffer
