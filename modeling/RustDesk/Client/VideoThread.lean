import RustDesk.Basic
import RustDesk.Lib.Run
import RustDesk.Lib.Weave

/-!
# The video thread of a display

The client has a thread for each display that decodes its frames.  The task that reads the
connection sends it key frames through a channel.  Other frames go into a ring of 120 frames,
with a marker in the channel for each.  When the ring is full its oldest frame makes room for
the new one, no marker is sent, and the peer is asked for a key frame.

Between its steps the thread is in `recv`, before the flag `discard_queue`, before the ring or
before the decoder; the task may be between the push of a frame and the send of its marker.
The two interleave freely, and the flag is set by others at any time.

There are always as many markers as frames in the ring (`MarkersMatch`).  The frames are
decoded in the order in which they were received as long as the ring does not overflow while
a key frame waits behind a marker (`frames_in_order`): the overflow moves a frame that came
after the key frame to a marker before it.
-/

namespace RustDesk.Decoding

open List

structure EncodedVideoFrame where
  data : Bytes
  key : Bool
  deriving DecidableEq

/-- The union of a `VideoFrame`. -/
inductive VideoUnion where
  | vp8s (frames : List EncodedVideoFrame)
  | vp9s (frames : List EncodedVideoFrame)
  | av1s (frames : List EncodedVideoFrame)
  | h264s (frames : List EncodedVideoFrame)
  | h265s (frames : List EncodedVideoFrame)
  | rgb
  | yuv
  deriving DecidableEq

structure VideoFrame where
  union : Option VideoUnion
  display : Nat
  deriving DecidableEq

def containsKeyFrame (vf : VideoFrame) : Bool :=
  match vf.union with
  | some (.vp8s frames) | some (.vp9s frames) | some (.av1s frames) | some (.h264s frames)
  | some (.h265s frames) => frames.any (·.key)
  | some .rgb | some .yuv | none => false

/-- The `MediaData` that video threads are sent. -/
inductive MediaData where
  | videoQueue
  | videoFrame (vf : VideoFrame)
  | reset
  | recordScreen (start : Bool)
  deriving DecidableEq

def videoQueueSize : Nat := 120

/-- Where the thread is: in `recv`; with a key frame before it clears the flag; with a marker
before the ring; with a frame of the ring before the flag; before the decoder. -/
inductive Turn where
  | recv
  | keyFrame (vf : VideoFrame)
  | marker
  | popped (vf : VideoFrame)
  | decode (vf : VideoFrame)

/-- A video thread with what it shares with the receiving task.  `pushing` is set while the
task has yet to send the marker of a frame; `received` and `handled` record the frames that
came in and those given to `handle_frame`. -/
structure VideoThread where
  videoChannel : List MediaData
  videoQueue : List VideoFrame
  discardQueue : Bool
  pushing : Bool
  turn : Turn
  received : List VideoFrame
  handled : List VideoFrame

/-- What happens: a frame comes in, the task sends the marker it owes, it sends a reset or the
state of the recording, someone sets the flag, or the thread takes its next step. -/
inductive VideoStep where
  | receive (vf : VideoFrame)
  | sendMarker
  | reset
  | recordScreen (start : Bool)
  | discard
  | thread

namespace VideoThread

/-- `new_video_thread`. -/
def new : VideoThread := ⟨[], [], false, false, .recv, [], []⟩

def send (t : VideoThread) (m : MediaData) : VideoThread :=
  { t with videoChannel := t.videoChannel ++ [m] }

def forcePush (t : VideoThread) (vf : VideoFrame) : VideoThread × Option VideoFrame :=
  match t.videoQueue with
  | oldest :: rest =>
    if t.videoQueue.length < videoQueueSize then
      ({ t with videoQueue := t.videoQueue ++ [vf] }, none)
    else ({ t with videoQueue := rest ++ [vf] }, some oldest)
  | [] => ({ t with videoQueue := [vf] }, none)

def record (t : VideoThread) (vf : VideoFrame) : VideoThread :=
  { t with received := t.received ++ [vf] }

/-- `handle_msg_from_peer` for a frame, up to the send of the marker. -/
def handleVideoFrame (t : VideoThread) (vf : VideoFrame) : VideoThread :=
  if containsKeyFrame vf then (t.record vf).send (.videoFrame vf)
  else
    match (t.record vf).forcePush vf with
    -- the peer is asked for a key frame and no marker is sent
    | (t', some _) => t'
    | (t', none) => { t' with pushing := true }

/-- The next step of `start_video_thread`. -/
def thread (t : VideoThread) : VideoThread :=
  match t.turn with
  | .recv =>
    match t.videoChannel with
    | [] => t
    | .videoFrame vf :: rest => { t with videoChannel := rest, turn := .keyFrame vf }
    | .videoQueue :: rest => { t with videoChannel := rest, turn := .marker }
    | .reset :: rest | .recordScreen _ :: rest => { t with videoChannel := rest }
  | .keyFrame vf => { t with discardQueue := false, turn := .decode vf }
  | .marker =>
    match t.videoQueue with
    | vf :: rest => { t with videoQueue := rest, turn := .popped vf }
    | [] => { t with turn := .recv }
  | .popped vf => { t with turn := if t.discardQueue then .recv else .decode vf }
  | .decode vf => { t with handled := t.handled ++ [vf], turn := .recv }

def step (t : VideoThread) : VideoStep → VideoThread
  | .receive vf => if t.pushing then t else t.handleVideoFrame vf
  | .sendMarker => if t.pushing then { t.send .videoQueue with pushing := false } else t
  | .reset => if t.pushing then t else t.send .reset
  | .recordScreen start => if t.pushing then t else t.send (.recordScreen start)
  | .discard => { t with discardQueue := true }
  | .thread => t.thread

def AtRest (t : VideoThread) : Prop := t.pushing = false ∧ t.turn ≠ .marker

def MarkersMatch (t : VideoThread) : Prop :=
  t.videoChannel.count .videoQueue = t.videoQueue.length

/-- Frames are handled in the order they came in, and at rest each queued one has its marker. -/
structure InOrder (t : VideoThread) : Prop where
  handled : t.handled.Sublist t.received
  markers : t.AtRest → t.MarkersMatch

def slot : MediaData → Option (Option VideoFrame)
  | .videoFrame vf => some (some vf)
  | .videoQueue => some none
  | .reset | .recordScreen _ => none

def taken (t : VideoThread) : List (Option VideoFrame) :=
  match t.turn with
  | .marker => [none]
  | _ => []

def coming (t : VideoThread) : List (Option VideoFrame) :=
  t.taken ++ t.videoChannel.filterMap slot

def OverflowsPastKeyFrame (t : VideoThread) : VideoStep → Prop
  | .receive vf => t.pushing = false ∧ containsKeyFrame vf = false ∧
      videoQueueSize ≤ t.videoQueue.length ∧ ¬Weave.ItemsFirst t.coming
  | _ => False

instance (t : VideoThread) (i : VideoStep) : Decidable (t.OverflowsPastKeyFrame i) :=
  match i with
  | .receive _ => inferInstanceAs (Decidable (_ ∧ _))
  | .sendMarker | .reset | .recordScreen _ | .discard | .thread => isFalse nofun

def owed (t : VideoThread) : List (Option VideoFrame) := if t.pushing then [none] else []

def held (t : VideoThread) : List VideoFrame :=
  match t.turn with
  | .keyFrame vf | .popped vf | .decode vf => [vf]
  | .recv | .marker => []

def pending (t : VideoThread) : List VideoFrame :=
  t.held ++ Weave.weave (t.coming ++ t.owed) t.videoQueue

def Matched (t : VideoThread) : Prop :=
  Weave.markers (t.coming ++ t.owed) = t.videoQueue.length

def Ordered (t : VideoThread) : Prop := (t.handled ++ t.pending).Sublist t.received

theorem markers_channel (ms : List MediaData) :
    Weave.markers (ms.filterMap slot) = ms.count .videoQueue := by
  induction ms with
  | nil => rfl
  | cons m ms ih => cases m <;> simp [filterMap_cons, slot, ih]

variable {t : VideoThread}

theorem owed_of_idle (hidle : t.pushing = false) : t.owed = [] := by
  rw [owed, hidle]
  rfl

theorem Matched.of_idle (h : t.Matched) (hidle : t.pushing = false) :
    Weave.markers t.coming = t.videoQueue.length := by
  rw [Matched, owed_of_idle hidle, append_nil] at h
  exact h

theorem Matched.markersMatch (h : t.Matched) (hrest : t.AtRest) : t.MarkersMatch := by
  have htaken : t.taken = [] := by
    unfold taken
    split
    · rename_i heq
      exact absurd heq hrest.2
    · rfl
  have hmarkers := h.of_idle hrest.1
  rw [coming, htaken, nil_append, markers_channel] at hmarkers
  exact hmarkers

theorem Ordered.handled (h : t.Ordered) : t.handled.Sublist t.received :=
  (sublist_append_left t.handled t.pending).trans h

theorem Ordered.received {t t' : VideoThread} (h : t.Ordered) {vf : VideoFrame}
    (hhandled : t'.handled = t.handled) (hreceived : t'.received = t.received ++ [vf])
    (hpending : t'.pending.Sublist (t.pending ++ [vf])) : t'.Ordered := by
  have hlast : (t.handled ++ t'.pending).Sublist (t.handled ++ t.pending ++ [vf]) := by
    rw [append_assoc]
    exact hpending.append_left t.handled
  rw [Ordered, hhandled, hreceived]
  exact hlast.trans (List.Sublist.append_right h [vf])

theorem Ordered.moved {t t' : VideoThread} (h : t.Ordered) (hreceived : t'.received = t.received)
    (hframes : (t'.handled ++ t'.pending).Sublist (t.handled ++ t.pending)) : t'.Ordered := by
  rw [Ordered, hreceived]
  exact hframes.trans h

theorem coming_send (t : VideoThread) (m : MediaData) :
    (t.send m).coming = t.coming ++ [m].filterMap slot := by
  simp [coming, send, taken]

theorem Matched.receive_key (h : t.Matched) (hidle : t.pushing = false) (vf : VideoFrame) :
    ((t.record vf).send (.videoFrame vf)).Matched := by
  have howed : ((t.record vf).send (.videoFrame vf)).owed = [] := owed_of_idle hidle
  rw [Matched, coming_send, howed, append_nil, Weave.markers_append]
  exact h.of_idle hidle

theorem Ordered.receive_key (h : t.Ordered) (hidle : t.pushing = false) (vf : VideoFrame) :
    ((t.record vf).send (.videoFrame vf)).Ordered := by
  have howed : ((t.record vf).send (.videoFrame vf)).owed = [] := owed_of_idle hidle
  refine h.received rfl rfl ?_
  rw [pending, coming_send, howed, pending, owed_of_idle hidle, append_nil,
    append_nil, append_assoc, ← Weave.weave_item]
  exact List.Sublist.refl _

theorem Matched.receive_push (h : t.Matched) (hidle : t.pushing = false) (vf : VideoFrame) :
    Matched { t with
      received := t.received ++ [vf], videoQueue := t.videoQueue ++ [vf], pushing := true } := by
  change Weave.markers (t.coming ++ [none]) = (t.videoQueue ++ [vf]).length
  rw [Weave.markers_append, h.of_idle hidle, length_append]
  rfl

theorem Ordered.receive_push (h : t.Ordered) (hmatched : t.Matched)
    (hidle : t.pushing = false) (vf : VideoFrame) :
    Ordered { t with
      received := t.received ++ [vf], videoQueue := t.videoQueue ++ [vf], pushing := true } := by
  refine h.received rfl rfl ?_
  change (t.held ++ Weave.weave (t.coming ++ [none]) (t.videoQueue ++ [vf])).Sublist _
  rw [Weave.weave_marker (hmatched.of_idle hidle), pending, owed_of_idle hidle, append_nil,
    append_assoc]

theorem Matched.receive_shift (h : t.Matched) (vf : VideoFrame)
    {oldest : VideoFrame} {rest : List VideoFrame} (hqueue : t.videoQueue = oldest :: rest) :
    Matched { t with received := t.received ++ [vf], videoQueue := rest ++ [vf] } := by
  change Weave.markers (t.coming ++ t.owed) = (rest ++ [vf]).length
  rw [h, hqueue, length_append]
  rfl

theorem Ordered.receive_shift (h : t.Ordered) (hmatched : t.Matched)
    (hidle : t.pushing = false) (vf : VideoFrame) {oldest : VideoFrame}
    {rest : List VideoFrame} (hqueue : t.videoQueue = oldest :: rest)
    (hfirst : Weave.ItemsFirst t.coming) :
    Ordered { t with received := t.received ++ [vf], videoQueue := rest ++ [vf] } := by
  have hmarkers := hmatched.of_idle hidle
  rw [hqueue] at hmarkers
  refine h.received rfl rfl ?_
  change (t.held ++ Weave.weave (t.coming ++ t.owed) (rest ++ [vf])).Sublist _
  rw [pending, owed_of_idle hidle, append_nil, hqueue, append_assoc]
  exact (Weave.weave_shift hfirst hmarkers vf).append_left t.held

theorem forcePush_cases (t : VideoThread) (vf : VideoFrame) :
    (t.forcePush vf = ({ t with videoQueue := t.videoQueue ++ [vf] }, none)) ∨
    ∃ oldest rest, t.videoQueue = oldest :: rest ∧ videoQueueSize ≤ t.videoQueue.length ∧
      t.forcePush vf = ({ t with videoQueue := rest ++ [vf] }, some oldest) := by
  unfold forcePush
  cases hqueue : t.videoQueue with
  | nil => exact .inl rfl
  | cons oldest rest =>
    by_cases hroom : (oldest :: rest).length < videoQueueSize
    · exact .inl (if_pos hroom)
    · exact .inr ⟨oldest, rest, rfl, Nat.le_of_not_lt hroom, if_neg hroom⟩

/-- **What a frame does to the thread**: it goes into the channel, on the ring, or takes the
place of the oldest frame there. -/
theorem handleVideoFrame_cases (t : VideoThread) (vf : VideoFrame) :
    (t.handleVideoFrame vf = (t.record vf).send (.videoFrame vf)) ∨
    (t.handleVideoFrame vf = { t with
      received := t.received ++ [vf], videoQueue := t.videoQueue ++ [vf], pushing := true }) ∨
    (containsKeyFrame vf = false ∧ videoQueueSize ≤ t.videoQueue.length ∧
      ∃ oldest rest, t.videoQueue = oldest :: rest ∧ t.handleVideoFrame vf =
        { t with received := t.received ++ [vf], videoQueue := rest ++ [vf] }) := by
  unfold handleVideoFrame
  cases hkey : containsKeyFrame vf with
  | true => exact .inl rfl
  | false =>
    rw [if_neg nofun]
    rcases forcePush_cases (t.record vf) vf with heq | ⟨oldest, rest, hqueue, hfull, heq⟩
    · rw [heq]
      exact .inr (.inl rfl)
    · rw [heq]
      exact .inr (.inr ⟨rfl, hfull, oldest, rest, hqueue, rfl⟩)

theorem coming_sendMarker (hpushing : t.pushing = true) :
    coming { t.send .videoQueue with pushing := false } ++
      owed { t.send .videoQueue with pushing := false } = t.coming ++ t.owed := by
  simp [coming, owed, send, slot, taken, hpushing]

theorem Matched.thread (h : t.Matched) : t.thread.Matched := by
  unfold Matched at h ⊢
  unfold VideoThread.thread
  cases hturn : t.turn with
  | recv =>
    dsimp only
    cases hchannel : t.videoChannel with
    | nil => exact h
    | cons m rest =>
      cases m <;> simpa [coming, owed, taken, hturn, hchannel, slot, filterMap_cons] using h
  | keyFrame vf => simpa [coming, owed, taken, hturn] using h
  | marker =>
    dsimp only
    cases hqueue : t.videoQueue with
    | nil => simp [coming, taken, hturn, hqueue] at h
    | cons vf rest => simpa [coming, owed, taken, hturn, hqueue] using h
  | popped vf =>
    dsimp only
    split <;> simpa [coming, owed, taken, hturn] using h
  | decode vf => simpa [coming, owed, taken, hturn] using h

theorem Ordered.thread (h : t.Ordered) (hmatched : t.Matched) : t.thread.Ordered := by
  unfold Matched at hmatched
  unfold VideoThread.thread
  cases hturn : t.turn with
  | recv =>
    dsimp only
    cases hchannel : t.videoChannel with
    | nil => exact h
    | cons m rest =>
      cases m <;>
      · refine h.moved rfl ?_
        simp [pending, coming, owed, held, taken, hturn, hchannel, slot, filterMap_cons]
  | keyFrame vf =>
    refine h.moved rfl ?_
    simp [pending, coming, owed, held, taken, hturn]
  | marker =>
    dsimp only
    cases hqueue : t.videoQueue with
    | nil => simp [coming, taken, hturn, hqueue] at hmatched
    | cons vf rest =>
      refine h.moved rfl ?_
      simp [pending, coming, owed, held, taken, hturn, hqueue]
  | popped vf =>
    refine h.moved ?_ ?_
    · rfl
    · dsimp only
      split <;> simp [pending, coming, owed, held, taken, hturn]
  | decode vf =>
    refine h.moved rfl ?_
    simp [pending, coming, owed, held, taken, hturn]

theorem Matched.step (h : t.Matched) (i : VideoStep) : (t.step i).Matched := by
  unfold VideoThread.step
  have hother : ∀ m, slot m = none → (t.send m).Matched := by
    intro m hm
    have hcoming : (t.send m).coming = t.coming := by simp [coming_send, hm]
    rw [Matched, hcoming]
    exact h
  cases i with
  | receive vf =>
    dsimp only
    cases hidle : t.pushing with
    | true => exact h
    | false =>
      rcases handleVideoFrame_cases t vf with heq | heq | ⟨-, -, oldest, rest, hqueue, heq⟩
      · exact heq ▸ h.receive_key hidle vf
      · exact heq ▸ h.receive_push hidle vf
      · exact heq ▸ h.receive_shift vf hqueue
  | sendMarker =>
    dsimp only
    split
    · rename_i hpushing
      rw [Matched, coming_sendMarker hpushing]
      exact h
    · exact h
  | reset =>
    dsimp only
    split
    · exact h
    · exact hother _ rfl
  | recordScreen start =>
    dsimp only
    split
    · exact h
    · exact hother _ rfl
  | discard => exact id h
  | thread => exact h.thread

theorem Ordered.step {i : VideoStep} (h : t.Ordered) (hmatched : t.Matched)
    (hgood : ¬t.OverflowsPastKeyFrame i) : (t.step i).Ordered := by
  unfold VideoThread.step
  have hother : ∀ m, slot m = none → (t.send m).Ordered := by
    intro m hm
    have hcoming : (t.send m).coming = t.coming := by simp [coming_send, hm]
    refine h.moved rfl ?_
    rw [pending, hcoming]
    exact List.Sublist.refl _
  cases i with
  | receive vf =>
    dsimp only
    cases hidle : t.pushing with
    | true => exact h
    | false =>
      rcases handleVideoFrame_cases t vf with
        heq | heq | ⟨hkey, hfull, oldest, rest, hqueue, heq⟩
      · exact heq ▸ h.receive_key hidle vf
      · exact heq ▸ h.receive_push hmatched hidle vf
      · by_cases hfirst : Weave.ItemsFirst t.coming
        · exact heq ▸ h.receive_shift hmatched hidle vf hqueue hfirst
        · exact absurd ⟨hidle, hkey, hfull, hfirst⟩ hgood
  | sendMarker =>
    dsimp only
    split
    · rename_i hpushing
      refine h.moved rfl ?_
      rw [pending, coming_sendMarker hpushing]
      exact List.Sublist.refl _
    · exact h
  | reset =>
    dsimp only
    split
    · exact h
    · exact hother _ rfl
  | recordScreen start =>
    dsimp only
    split
    · exact h
    · exact hother _ rfl
  | discard => exact h.moved rfl (List.Sublist.refl _)
  | thread => exact h.thread hmatched

theorem new_matched : new.Matched := rfl

theorem new_ordered : new.Ordered := List.Sublist.refl []

end VideoThread

theorem markers_match (steps : List VideoStep) :
    Run.Always VideoThread.step (fun t => t.AtRest → t.MarkersMatch) .new steps :=
  fun pre hpre => (Run.always_of_step (P := VideoThread.Matched)
    (fun _ i h => h.step i) VideoThread.new_matched steps pre hpre).markersMatch

/-- **In a run in which the ring never overflows while a key frame waits behind a marker, the
frames are decoded in the order received, and every marker has its frame.** -/
theorem frames_in_order (steps : List VideoStep)
    (h : Run.Along VideoThread.step (fun t i => ¬t.OverflowsPastKeyFrame i) .new steps) :
    Run.Always VideoThread.step VideoThread.InOrder .new steps := by
  have hordered : Run.Always VideoThread.step (fun t => t.Matched ∧ t.Ordered) .new steps :=
    Run.always_of_along
      (fun _ i hinv hgood => ⟨hinv.1.step i, hinv.2.step hinv.1 hgood⟩)
      ⟨VideoThread.new_matched, VideoThread.new_ordered⟩ h
  intro pre hpre
  exact ⟨(hordered pre hpre).2.handled, markers_match steps pre hpre⟩

def numbered (key : Bool) (n : Nat) : VideoFrame := ⟨some (.vp9s [⟨[UInt8.ofNat n], key⟩]), 0⟩

def deltas (first count : Nat) : List VideoStep :=
  (List.range' first count).flatMap fun n => [.receive (numbered false n), .sendMarker]

/-- A full ring overflows and the markers move on, past no key frame. -/
theorem in_order_after_overflow :
    Run.Always VideoThread.step VideoThread.InOrder .new
      (.receive (numbered true 0) :: deltas 1 121 ++ List.replicate 11 .thread) :=
  frames_in_order _ (by decide +kernel)

/-- A frame, a key frame, and frames until the ring overflows; then the thread takes the
first marker and the key frame. -/
def overtaken : List VideoStep :=
  deltas 0 1 ++ .receive (numbered true 1) :: deltas 2 120 ++ List.replicate 7 .thread

/-- The frame after the key frame is decoded before it. -/
theorem key_frame_overtaken :
    ¬∀ steps, Run.Always VideoThread.step VideoThread.InOrder .new steps := by
  intro h
  have hhandled := (h overtaken).last.handled
  revert hhandled
  decide +kernel

end RustDesk.Decoding
