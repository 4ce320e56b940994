import RustDesk.Server.Connection

/-!
# The video service and its slow viewers

Each display of each video source has a loop of its own.  A loop sends a frame to the
subscribed connections and waits until they have fetched it, or for three seconds.  A
connection reports a frame through a channel that belongs to the display index: the report
holds the connection's id and nothing about the frame or its source.  The loop collects the
ids it takes from the channel and stops waiting once it has as many of them as the frame has
recipients.

`frame_not_overtaken` says that a wait ends early only after every recipient has fetched the
frame, as long as the reports a loop takes come from recipients that have.
-/

namespace RustDesk

structure VideoService where
  source : VideoSource
  idx : Nat
  deriving DecidableEq

/-- A frame, with the service that sent it and its number among all frames.  The message
itself only has the display index. -/
structure VideoFrame where
  service : VideoService
  number : Nat
  deriving DecidableEq

/-- The video side of a connection: the frames in its channel, and the frames it has passed
on to a client that answers each with `VideoReceived` and has not answered yet. -/
structure Viewer where
  videoAckRequired : Bool
  rxVideo : List VideoFrame
  unanswered : List VideoFrame

structure VideoFrameController where
  displayIdx : Nat
  sendConnIds : Finset Int

/-- Where the loop of `run` is: before the next frame, or waiting for a frame to be fetched
with the ids it has collected. -/
inductive VideoPhase where
  | capture
  | wait (frame : VideoFrame) (fetchedConnIds : Finset Int)

structure VideoLoop where
  frameController : VideoFrameController
  phase : VideoPhase

/-- The services, the statics they share and the connections.  `sentTo` and `fetchedBy`
record who was sent a frame and who has fetched it. -/
structure VideoState where
  services : List VideoService
  frameFetchedNotifiers : Nat → Option (List Int)
  displayConnIds : Nat → Option (Finset Int)
  loops : VideoService → Option VideoLoop
  viewers : Int → Option Viewer
  frames : Nat
  sentTo : VideoFrame → Finset Int
  fetchedBy : VideoFrame → Finset Int

/-- What happens: a service is created, its loop starts, sends a frame to some connections,
looks at the channel when so many milliseconds of the wait are over, or is left; a connection
comes, takes a frame from its channel, gets a `VideoReceived` or ends. -/
inductive VideoEvent where
  | new (v : VideoService)
  | start (v : VideoService)
  | frame (v : VideoService) (connIds : Finset Int)
  | wait (v : VideoService) (elapsed : Nat)
  | leave (v : VideoService)
  | connect (id : Int) (videoAckRequired : Bool)
  | recvVideo (id : Int)
  | videoReceived (id : Int)
  | close (id : Int)

namespace VideoFrameController

def new (displayIdx : Nat) : VideoFrameController := ⟨displayIdx, ∅⟩

def reset (c : VideoFrameController) : VideoFrameController := { c with sendConnIds := ∅ }

/-- `set_send`, on the controller. -/
def setSend (c : VideoFrameController) (connIds : Finset Int) : VideoFrameController :=
  if connIds.Nonempty then { c with sendConnIds := connIds } else c

/-- The ids collected after the call, and what it leaves in the channel. The call holds the
receiver until it has seen the channel empty. -/
def tryWaitNext (c : VideoFrameController) (notifier : Option (List Int))
    (fetchedConnIds : Finset Int) : Finset Int × Option (List Int) :=
  if c.sendConnIds = ∅ then (fetchedConnIds, notifier)
  else match notifier with
    | none => (fetchedConnIds, none)
    | some ids => (ids.foldl (fun fetched id => insert id fetched) fetchedConnIds, some [])

end VideoFrameController

namespace VideoState

def init : VideoState where
  services := []
  frameFetchedNotifiers := fun _ => none
  displayConnIds := fun _ => none
  loops := fun _ => none
  viewers := fun _ => none
  frames := 0
  sentTo := fun _ => ∅
  fetchedBy := fun _ => ∅

/-- `timeout_millis` of the wait in `run`. -/
def timeoutMillis : Nat := 3000

def notifyVideoFrameFetched (s : VideoState) (displayIdx : Nat) (connId : Int) : VideoState :=
  match s.frameFetchedNotifiers displayIdx with
  | none => s
  | some ids =>
    { s with
      frameFetchedNotifiers :=
        Function.update s.frameFetchedNotifiers displayIdx (some (ids ++ [connId])) }

def notifyVideoFrameFetchedByConnId (s : VideoState) (connId : Int) : VideoState :=
  { s with
    frameFetchedNotifiers := fun displayIdx =>
      if connId ∈ (s.displayConnIds displayIdx).getD ∅ then
        (s.frameFetchedNotifiers displayIdx).map (· ++ [connId])
      else s.frameFetchedNotifiers displayIdx }

def new (s : VideoState) (v : VideoService) : VideoState :=
  { s with
    services := v :: s.services
    frameFetchedNotifiers :=
      Function.update s.frameFetchedNotifiers v.idx
        (some ((s.frameFetchedNotifiers v.idx).getD [])) }

def setLoop (s : VideoState) (v : VideoService) (l : Option VideoLoop) : VideoState :=
  { s with loops := Function.update s.loops v l }

/-- `DISPLAY_CONN_IDS.remove`. -/
def removeDisplay (s : VideoState) (displayIdx : Nat) : VideoState :=
  { s with displayConnIds := Function.update s.displayConnIds displayIdx none }

def start (s : VideoState) (v : VideoService) : VideoState :=
  if v ∈ s.services ∧ s.loops v = none then
    s.setLoop v (some ⟨.new v.idx, .capture⟩)
  else s

def sendVideoFrame (s : VideoState) (v : VideoService) (connIds : Finset Int) : VideoState :=
  let frame : VideoFrame := ⟨v, s.frames⟩
  { s with
    viewers := fun id =>
      if id ∈ connIds then
        (s.viewers id).map fun w => { w with rxVideo := w.rxVideo ++ [frame] }
      else s.viewers id
    frames := s.frames + 1
    sentTo := Function.update s.sentTo frame connIds }

/-- One iteration of `run` up to the wait.  No connection is sent a frame where nothing new
was captured or could be encoded. -/
def frame (s : VideoState) (v : VideoService) (connIds : Finset Int) : VideoState :=
  match s.loops v with
  | some ⟨c, .capture⟩ =>
    let c' := c.reset.setSend connIds
    let sent := (s.sendVideoFrame v connIds).setLoop v (some ⟨c', .wait ⟨v, s.frames⟩ ∅⟩)
    if connIds.Nonempty then
      { sent with
        displayConnIds := Function.update s.displayConnIds c.displayIdx (some c'.sendConnIds) }
    else sent
  | _ => s

def endWait (s : VideoState) (v : VideoService) (c : VideoFrameController) : VideoState :=
  (s.setLoop v (some ⟨c, .capture⟩)).removeDisplay v.idx

def wait (s : VideoState) (v : VideoService) (elapsed : Nat) : VideoState :=
  match s.loops v with
  | some ⟨c, .wait frame fetchedConnIds⟩ =>
    if elapsed < timeoutMillis then
      let r := c.tryWaitNext (s.frameFetchedNotifiers c.displayIdx) fetchedConnIds
      let s' := { s with
        frameFetchedNotifiers := Function.update s.frameFetchedNotifiers c.displayIdx r.2 }
      -- break if all connections have received current frame
      if c.sendConnIds.card ≤ r.1.card then s'.endWait v c
      else s'.setLoop v (some ⟨c, .wait frame r.1⟩)
    else s.endWait v c
  | _ => s

/-- `run` returns.  During the wait only the loop of a monitor does, when the privacy mode
has changed. -/
def leave (s : VideoState) (v : VideoService) : VideoState :=
  match s.loops v with
  | none => s
  | some ⟨_, .capture⟩ => (s.setLoop v none).removeDisplay v.idx
  | some ⟨_, .wait _ _⟩ =>
    match v.source with
    | .monitor => (s.setLoop v none).removeDisplay v.idx
    | .camera => s

def setViewer (s : VideoState) (id : Int) (w : Option Viewer) : VideoState :=
  { s with viewers := Function.update s.viewers id w }

def recordFetch (s : VideoState) (id : Int) (frame : VideoFrame) : VideoState :=
  { s with fetchedBy := Function.update s.fetchedBy frame (insert id (s.fetchedBy frame)) }

/-- `rx_video.recv()` of a connection.  Where the client answers the frames, it has fetched
a frame when it answers it. -/
def recvVideo (s : VideoState) (id : Int) : VideoState :=
  match s.viewers id with
  | some ⟨false, frame :: rest, unanswered⟩ =>
    ((s.setViewer id (some ⟨false, rest, unanswered⟩)).recordFetch id frame)
      |>.notifyVideoFrameFetched frame.service.idx id
  | some ⟨true, frame :: rest, unanswered⟩ =>
    s.setViewer id (some ⟨true, rest, unanswered ++ [frame]⟩)
  | _ => s

/-- `misc::Union::VideoReceived` of a connection.  It names no frame; the client sends one
for each frame in turn. -/
def videoReceived (s : VideoState) (id : Int) : VideoState :=
  match s.viewers id with
  | none => s
  | some ⟨ack, rx, frame :: rest⟩ =>
    ((s.setViewer id (some ⟨ack, rx, rest⟩)).recordFetch id frame)
      |>.notifyVideoFrameFetchedByConnId id
  | some ⟨_, _, []⟩ => s.notifyVideoFrameFetchedByConnId id

def close (s : VideoState) (id : Int) : VideoState :=
  match s.viewers id with
  | none => s
  | some _ => (s.notifyVideoFrameFetchedByConnId id).setViewer id none

def step (s : VideoState) : VideoEvent → VideoState
  | .new v => s.new v
  | .start v => s.start v
  | .frame v connIds => s.frame v connIds
  | .wait v elapsed => s.wait v elapsed
  | .leave v => s.leave v
  | .connect id ack =>
    if s.viewers id = none then s.setViewer id (some ⟨ack, [], []⟩) else s
  | .recvVideo id => s.recvVideo id
  | .videoReceived id => s.videoReceived id
  | .close id => s.close id

def awaited (s : VideoState) (v : VideoService) : Option VideoFrame :=
  match s.loops v with
  | some ⟨_, .wait frame _⟩ => some frame
  | _ => none

def EndsEarly (s : VideoState) (frame : VideoFrame) : VideoEvent → Prop
  | .wait v elapsed =>
    s.awaited v = some frame ∧ elapsed < timeoutMillis ∧ (s.wait v elapsed).awaited v = none
  | _ => False

/-- Waiting for a frame ends early only when all it was sent to have fetched it. -/
def NotOvertaken (s : VideoState) (e : VideoEvent) : Prop :=
  ∀ frame, s.EndsEarly frame e → s.sentTo frame ⊆ s.fetchedBy frame

/-- The reports in the channel that a waiting loop looks at come from connections that its
frame was sent to and that have fetched it. -/
def OwnReports (s : VideoState) : VideoEvent → Prop
  | .wait v elapsed =>
    elapsed < timeoutMillis → ∀ frame ∈ s.awaited v,
      ∀ id ∈ (s.frameFetchedNotifiers v.idx).getD [], id ∈ s.sentTo frame ∩ s.fetchedBy frame
  | _ => True

instance : ∀ (s : VideoState) (e : VideoEvent), Decidable (s.OwnReports e)
  | s, .wait v elapsed => inferInstanceAs (Decidable (elapsed < timeoutMillis →
      ∀ frame ∈ s.awaited v, ∀ id ∈ (s.frameFetchedNotifiers v.idx).getD [],
        id ∈ s.sentTo frame ∩ s.fetchedBy frame))
  | _, .new _ | _, .start _ | _, .frame _ _ | _, .leave _ | _, .connect _ _
  | _, .recvVideo _ | _, .videoReceived _ | _, .close _ => isTrue trivial

structure Extends (s s' : VideoState) : Prop where
  frames : s.frames ≤ s'.frames
  sent : ∀ frame : VideoFrame, frame.number < s.frames → s'.sentTo frame = s.sentTo frame
  fetched : ∀ frame, s.fetchedBy frame ⊆ s'.fetchedBy frame

theorem Extends.refl (s : VideoState) : Extends s s :=
  ⟨Nat.le_refl _, fun _ _ => rfl, fun _ => Finset.Subset.refl _⟩

theorem Extends.of_eq {s s' : VideoState} (hframes : s'.frames = s.frames)
    (hsent : s'.sentTo = s.sentTo) (hfetched : s'.fetchedBy = s.fetchedBy) : Extends s s' :=
  ⟨by omega, fun _ _ => by rw [hsent], fun _ => by rw [hfetched]⟩

/-- What a waiting loop relies on: its controller has the recipients of the frame, and the
ids it has collected are recipients that have fetched it. -/
structure Collects (s : VideoState) (c : VideoFrameController) (frame : VideoFrame)
    (ids : Finset Int) : Prop where
  number : frame.number < s.frames
  recipients : s.sentTo frame = c.sendConnIds
  own : ids ⊆ s.sentTo frame ∩ s.fetchedBy frame

variable {c : VideoFrameController} {ids : Finset Int}

theorem Collects.extend {s s' : VideoState} {frame : VideoFrame} (h : Collects s c frame ids)
    (hs : Extends s s') : Collects s' c frame ids := by
  have hsent := hs.sent frame h.number
  refine ⟨lt_of_lt_of_le h.number hs.frames, by rw [hsent, h.recipients], ?_⟩
  rw [hsent]
  exact h.own.trans (Finset.inter_subset_inter_left (hs.fetched frame))

def LoopOk (s : VideoState) (v : VideoService) (l : VideoLoop) : Prop :=
  l.frameController.displayIdx = v.idx ∧
    ∀ frame ids, l.phase = .wait frame ids → Collects s l.frameController frame ids

def Inv (s : VideoState) : Prop := ∀ v l, s.loops v = some l → LoopOk s v l

variable {v : VideoService}

theorem LoopOk.extend {s s' : VideoState} {l : VideoLoop}
    (h : LoopOk s v l) (hs : Extends s s') : LoopOk s' v l :=
  ⟨h.1, fun frame ids hphase => (h.2 frame ids hphase).extend hs⟩

variable {s : VideoState}

theorem LoopOk.capture (h : c.displayIdx = v.idx) : LoopOk s v ⟨c, .capture⟩ :=
  ⟨h, fun _ _ hphase => nomatch hphase⟩

theorem Inv.extend {s s' : VideoState} (h : Inv s) (hs : Extends s s')
    (hloops : s'.loops = s.loops) : Inv s' := by
  intro v l hl
  rw [hloops] at hl
  exact (h v l hl).extend hs

theorem Inv.update {s s' : VideoState} {l : Option VideoLoop} (h : Inv s)
    (hs : Extends s s') (hloops : s'.loops = Function.update s.loops v l)
    (hl : ∀ l', l = some l' → LoopOk s' v l') : Inv s' := by
  intro u k hk
  rw [hloops] at hk
  by_cases huv : u = v
  · subst huv
    rw [Function.update_self] at hk
    exact hl k hk
  · rw [Function.update_of_ne huv] at hk
    exact (h u k hk).extend hs

theorem notifyVideoFrameFetched_extends (s : VideoState) (displayIdx : Nat) (id : Int) :
    Extends s (s.notifyVideoFrameFetched displayIdx id) ∧
      (s.notifyVideoFrameFetched displayIdx id).loops = s.loops := by
  unfold notifyVideoFrameFetched
  split
  · exact ⟨.refl s, rfl⟩
  · exact ⟨.of_eq rfl rfl rfl, rfl⟩

theorem notifyVideoFrameFetchedByConnId_extends (s : VideoState) (id : Int) :
    Extends s (s.notifyVideoFrameFetchedByConnId id) :=
  .of_eq rfl rfl rfl

theorem recordFetch_extends (s : VideoState) (id : Int) (frame : VideoFrame) :
    Extends s (s.recordFetch id frame) := by
  refine ⟨Nat.le_refl _, fun _ _ => rfl, fun other => ?_⟩
  by_cases hother : other = frame
  · subst hother
    simp [recordFetch]
  · simp [recordFetch, hother]

theorem Extends.trans {s t u : VideoState} (hst : Extends s t) (htu : Extends t u) :
    Extends s u where
  frames := hst.frames.trans htu.frames
  sent frame hframe := by
    rw [htu.sent frame (lt_of_lt_of_le hframe hst.frames), hst.sent frame hframe]
  fetched frame := (hst.fetched frame).trans (htu.fetched frame)

theorem setViewer_extends (s : VideoState) (id : Int) (w : Option Viewer) :
    Extends s (s.setViewer id w) :=
  .of_eq rfl rfl rfl

theorem recvVideo_extends (s : VideoState) (id : Int) :
    Extends s (s.recvVideo id) ∧ (s.recvVideo id).loops = s.loops := by
  unfold recvVideo
  split
  · rename_i frame rest unanswered _
    have hfetch := recordFetch_extends (s.setViewer id (some ⟨false, rest, unanswered⟩)) id frame
    have hnotify := notifyVideoFrameFetched_extends
      ((s.setViewer id (some ⟨false, rest, unanswered⟩)).recordFetch id frame)
      frame.service.idx id
    refine ⟨?_, hnotify.2⟩
    exact ((setViewer_extends s id _).trans hfetch).trans hnotify.1
  · exact ⟨.of_eq rfl rfl rfl, rfl⟩
  · exact ⟨.refl s, rfl⟩

theorem videoReceived_extends (s : VideoState) (id : Int) :
    Extends s (s.videoReceived id) ∧ (s.videoReceived id).loops = s.loops := by
  unfold videoReceived
  split
  · exact ⟨.refl s, rfl⟩
  · rename_i ack rx frame rest _
    have hfetch := recordFetch_extends (s.setViewer id (some ⟨ack, rx, rest⟩)) id frame
    refine ⟨((setViewer_extends s id _).trans hfetch).trans ?_, rfl⟩
    exact notifyVideoFrameFetchedByConnId_extends _ id
  · exact ⟨.of_eq rfl rfl rfl, rfl⟩

theorem close_extends (s : VideoState) (id : Int) :
    Extends s (s.close id) ∧ (s.close id).loops = s.loops := by
  unfold close
  split
  · exact ⟨.refl s, rfl⟩
  · exact ⟨.of_eq rfl rfl rfl, rfl⟩

theorem sendVideoFrame_extends (s : VideoState) (v : VideoService) (connIds : Finset Int) :
    Extends s (s.sendVideoFrame v connIds) := by
  refine ⟨Nat.le_succ _, fun frame hframe => ?_, fun _ => Finset.Subset.refl _⟩
  have hne : frame ≠ ⟨v, s.frames⟩ := by
    rintro rfl
    exact absurd hframe (Nat.lt_irrefl _)
  exact Function.update_of_ne hne _ _

theorem setSend_sendConnIds (c : VideoFrameController) (connIds : Finset Int) :
    (c.reset.setSend connIds).sendConnIds = connIds := by
  unfold VideoFrameController.setSend
  split
  · rfl
  · rename_i hempty
    exact (Finset.not_nonempty_iff_eq_empty.mp hempty).symm

theorem setSend_displayIdx (c : VideoFrameController) (connIds : Finset Int) :
    (c.reset.setSend connIds).displayIdx = c.displayIdx := by
  unfold VideoFrameController.setSend
  split <;> rfl

theorem Inv.frame (h : Inv s) (v : VideoService) (connIds : Finset Int) :
    Inv (s.frame v connIds) := by
  unfold VideoState.frame
  split
  · rename_i c hloop
    have hidx : c.displayIdx = v.idx := (h v _ hloop).1
    have hsend := sendVideoFrame_extends s v connIds
    have hcollects : ∀ t : VideoState, t.frames = s.frames + 1 →
        t.sentTo = Function.update s.sentTo ⟨v, s.frames⟩ connIds →
        ∀ l', some ⟨c.reset.setSend connIds, .wait ⟨v, s.frames⟩ ∅⟩ = some l' → LoopOk t v l' := by
      intro t hframes hsent l' hl'
      cases hl'
      refine ⟨(setSend_displayIdx c connIds).trans hidx, fun frame ids hphase => ?_⟩
      cases hphase
      refine ⟨by rw [hframes]; exact Nat.lt_succ_self _, ?_, Finset.empty_subset _⟩
      rw [hsent, Function.update_self, setSend_sendConnIds]
    dsimp only
    split
    · exact h.update (hsend.trans (.of_eq rfl rfl rfl)) rfl (hcollects _ rfl rfl)
    · exact h.update (hsend.trans (.of_eq rfl rfl rfl)) rfl (hcollects _ rfl rfl)
  · exact h

theorem mem_tryWaitNext {notifier : Option (List Int)} {id : Int}
    (h : id ∈ (c.tryWaitNext notifier ids).1) : id ∈ ids ∨ id ∈ notifier.getD [] := by
  have hfold : ∀ (queue : List Int) (acc : Finset Int),
      id ∈ queue.foldl (fun fetched i => insert i fetched) acc → id ∈ acc ∨ id ∈ queue := by
    intro queue
    induction queue with
    | nil => exact fun acc hid => .inl hid
    | cons i queue ih =>
      intro acc hid
      rcases ih _ hid with hacc | hqueue
      · rcases Finset.mem_insert.mp hacc with rfl | hacc
        · exact .inr List.mem_cons_self
        · exact .inl hacc
      · exact .inr (List.mem_cons_of_mem _ hqueue)
  unfold VideoFrameController.tryWaitNext at h
  split at h
  · exact .inl h
  · cases notifier with
    | none => exact .inl h
    | some queue => exact hfold queue ids h

theorem Collects.tryWaitNext {frame : VideoFrame} (h : Collects s c frame ids)
    (hown : ∀ id ∈ (s.frameFetchedNotifiers c.displayIdx).getD [],
      id ∈ s.sentTo frame ∩ s.fetchedBy frame) :
    Collects s c frame (c.tryWaitNext (s.frameFetchedNotifiers c.displayIdx) ids).1 := by
  refine ⟨h.number, h.recipients, fun id hid => ?_⟩
  rcases mem_tryWaitNext hid with hold | hnew
  · exact h.own hold
  · exact hown id hnew

theorem Collects.complete {frame : VideoFrame} (h : Collects s c frame ids)
    (hcard : c.sendConnIds.card ≤ ids.card) : s.sentTo frame ⊆ s.fetchedBy frame := by
  have hsub : ids ⊆ s.sentTo frame := h.own.trans Finset.inter_subset_left
  have heq : ids = s.sentTo frame :=
    Finset.eq_of_subset_of_card_le hsub (by rw [h.recipients]; exact hcard)
  calc s.sentTo frame = ids := heq.symm
    _ ⊆ s.sentTo frame ∩ s.fetchedBy frame := h.own
    _ ⊆ s.fetchedBy frame := Finset.inter_subset_right

variable {elapsed : Nat}

theorem OwnReports.awaited {frame : VideoFrame}
    (h : s.OwnReports (.wait v elapsed)) (helapsed : elapsed < timeoutMillis)
    (hloop : s.loops v = some ⟨c, .wait frame ids⟩) (hidx : c.displayIdx = v.idx) :
    ∀ id ∈ (s.frameFetchedNotifiers c.displayIdx).getD [],
      id ∈ s.sentTo frame ∩ s.fetchedBy frame := by
  rw [hidx]
  exact h helapsed frame (by simp [VideoState.awaited, hloop])

theorem Inv.wait (h : Inv s) (hown : s.OwnReports (.wait v elapsed)) : Inv (s.wait v elapsed) := by
  unfold VideoState.wait
  split
  · rename_i c frame ids hloop
    obtain ⟨hidx, hwait⟩ := h v _ hloop
    have hended : ∀ (t : VideoState) (l' : VideoLoop), some ⟨c, .capture⟩ = some l' →
        LoopOk t v l' := by
      intro t l' hl'
      cases hl'
      exact .capture hidx
    split
    · rename_i helapsed
      have hnext := (hwait frame ids rfl).tryWaitNext (hown.awaited helapsed hloop hidx)
      dsimp only
      split
      · exact h.update (.of_eq rfl rfl rfl) rfl (hended _)
      · refine h.update (.of_eq rfl rfl rfl) rfl fun l' hl' => ?_
        cases hl'
        refine ⟨hidx, fun frame' ids' hphase => ?_⟩
        cases hphase
        exact hnext.extend (.of_eq rfl rfl rfl)
    · exact h.update (.of_eq rfl rfl rfl) rfl (hended _)
  · exact h

theorem Inv.leave (h : Inv s) (v : VideoService) : Inv (s.leave v) := by
  have hleft : Inv ((s.setLoop v none).removeDisplay v.idx) :=
    h.update (.of_eq rfl rfl rfl) rfl nofun
  unfold VideoState.leave
  split
  · exact h
  · exact hleft
  · split
    · exact hleft
    · exact h

theorem Inv.step {e : VideoEvent} (h : Inv s) (hown : s.OwnReports e) : Inv (s.step e) := by
  cases e with
  | new v => exact h.extend (.of_eq rfl rfl rfl) rfl
  | start v =>
    unfold VideoState.step start
    dsimp only
    split
    · refine h.update (.of_eq rfl rfl rfl) rfl fun l' hl' => ?_
      cases hl'
      exact .capture rfl
    · exact h
  | frame v connIds => exact h.frame v connIds
  | wait v elapsed => exact h.wait hown
  | leave v => exact h.leave v
  | connect id ack =>
    unfold VideoState.step
    dsimp only
    split
    · exact h.extend (.of_eq rfl rfl rfl) rfl
    · exact h
  | recvVideo id => exact h.extend (recvVideo_extends s id).1 (recvVideo_extends s id).2
  | videoReceived id =>
    exact h.extend (videoReceived_extends s id).1 (videoReceived_extends s id).2
  | close id => exact h.extend (close_extends s id).1 (close_extends s id).2

theorem EndsEarly.collected {frame : VideoFrame} (h : s.EndsEarly frame (.wait v elapsed)) :
    ∃ c ids, s.loops v = some ⟨c, .wait frame ids⟩ ∧
      c.sendConnIds.card ≤ (c.tryWaitNext (s.frameFetchedNotifiers c.displayIdx) ids).1.card := by
  obtain ⟨hawaited, helapsed, hended⟩ := h
  unfold VideoState.awaited at hawaited
  split at hawaited
  · rename_i c frame' ids hloop
    obtain rfl := Option.some.inj hawaited
    refine ⟨c, ids, hloop, ?_⟩
    by_contra hmore
    have hstill : (s.wait v elapsed).awaited v = some frame' := by
      unfold VideoState.wait VideoState.awaited
      simp only [hloop, if_pos helapsed, if_neg hmore, setLoop, Function.update_self]
    rw [hstill] at hended
    cases hended
  · cases hawaited

theorem Inv.notOvertaken {e : VideoEvent} (h : Inv s)
    (hown : s.OwnReports e) : s.NotOvertaken e := by
  intro frame hends
  cases e with
  | wait v elapsed =>
    obtain ⟨c, ids, hloop, hcard⟩ := hends.collected
    obtain ⟨hidx, hwait⟩ := h v _ hloop
    have hnext := (hwait frame ids rfl).tryWaitNext (hown.awaited hends.2.1 hloop hidx)
    exact hnext.complete hcard
  | new _ | start _ | frame _ _ | leave _ | connect _ _ | recvVideo _ | videoReceived _
  | close _ => exact hends.elim

/-- **No frame is overtaken.**  In every run of the video loops in which the reports that a
waiting loop takes come from connections that its frame was sent to and that have fetched
it, a wait ends before its timeout only when everyone the frame was sent to has fetched
that very frame. -/
theorem frame_not_overtaken (events : List VideoEvent)
    (hown : Run.Along step OwnReports init events) : Run.Along step NotOvertaken init events := by
  have hinit : Inv init := by
    intro v l hl
    cases hl
  exact Run.Along.of_invariant (fun _ _ h hc => Inv.step h hc)
    (fun _ _ h hc => Inv.notOvertaken h hc) hinit hown

/-- Two viewers of a display, one of them slower: the second frame is sent once both have
fetched the first. -/
def twoViewers : List VideoEvent :=
  [.new ⟨.monitor, 0⟩, .start ⟨.monitor, 0⟩, .connect 1 false, .connect 2 true,
    .frame ⟨.monitor, 0⟩ {1, 2}, .recvVideo 1, .wait ⟨.monitor, 0⟩ 10, .recvVideo 2,
    .wait ⟨.monitor, 0⟩ 310, .videoReceived 2, .wait ⟨.monitor, 0⟩ 320,
    .frame ⟨.monitor, 0⟩ {1, 2}]

theorem two_viewers_not_overtaken :
    (Run.exec step init twoViewers).awaited ⟨.monitor, 0⟩ = some ⟨⟨.monitor, 0⟩, 1⟩ ∧
      Run.Along step NotOvertaken init twoViewers :=
  ⟨by decide +kernel, frame_not_overtaken twoViewers (by decide +kernel)⟩

def lateReport : List VideoEvent :=
  [.new ⟨.monitor, 0⟩, .start ⟨.monitor, 0⟩, .connect 1 false, .frame ⟨.monitor, 0⟩ {1},
    .wait ⟨.monitor, 0⟩ 3000, .frame ⟨.monitor, 0⟩ {1}, .recvVideo 1]

def cameraReport : List VideoEvent :=
  [.new ⟨.monitor, 0⟩, .start ⟨.monitor, 0⟩, .new ⟨.camera, 0⟩, .start ⟨.camera, 0⟩,
    .connect 1 false, .connect 2 false, .frame ⟨.monitor, 0⟩ {1}, .frame ⟨.camera, 0⟩ {2},
    .recvVideo 2]

/-- A report of an earlier frame ends the wait, and so does one of a camera's frame. -/
theorem stray_report_ends_wait :
    ¬Run.Along step NotOvertaken init (lateReport ++ [.wait ⟨.monitor, 0⟩ 1]) ∧
      ¬Run.Along step NotOvertaken init (cameraReport ++ [.wait ⟨.monitor, 0⟩ 1]) := by
  constructor
  · intro h
    have hlast : (Run.exec step init lateReport).NotOvertaken (.wait ⟨.monitor, 0⟩ 1) :=
      h.2.2.2.2.2.2.2.1
    have hfetched := hlast ⟨⟨.monitor, 0⟩, 1⟩ ⟨by decide +kernel, by decide, by decide +kernel⟩
    revert hfetched
    decide +kernel
  · intro h
    have hlast : (Run.exec step init cameraReport).NotOvertaken (.wait ⟨.monitor, 0⟩ 1) :=
      h.2.2.2.2.2.2.2.2.2.1
    have hfetched := hlast ⟨⟨.monitor, 0⟩, 0⟩ ⟨by decide +kernel, by decide, by decide +kernel⟩
    revert hfetched
    decide +kernel

end VideoState

end RustDesk
