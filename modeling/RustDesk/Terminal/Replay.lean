import RustDesk.Lib.Run
import RustDesk.Terminal.OutputBuffer

/-!
# Reconnecting to a terminal

Output of a terminal goes through three places: the channel that the reader thread fills,
the output buffer, and the replay that a reconnecting client is owed.  `read_outputs`
empties the channel into the buffer and, while the session is active, to the client, after
the replay.  `handle_open` of an existing terminal empties the channel into the buffer and
takes the replay from there.  `reset_status` closes the session; what comes while it is
closed is only buffered.

`replay_complete`: what a client has been sent since the latest open is the end of the
output before it, followed by all output after it up to the last `read_outputs` that found
the session open.
-/

namespace RustDesk.Terminal

open List

def channelBufferSize : Nat := 500

def compressThreshold : Nat := 512

def defaultReconnectBufferBytes : Nat := 8 * 1024

def maxSigwinchPhaseAttempts : Nat := 3

inductive SigwinchPhase where
  | idle
  | tempResize (retries : Nat)
  | restore (retries : Nat)
  deriving DecidableEq

inductive SigwinchAction where
  | tempResize
  | restore

inductive SessionState where
  | closed
  | active (pendingBuffer : Option Bytes) (sigwinch : SigwinchPhase)
  deriving DecidableEq

/-- The part of `TerminalSession` that output goes through. -/
structure TerminalSession where
  outputRx : List Bytes
  outputBuffer : OutputBuffer
  state : SessionState

structure TerminalData where
  terminalId : Int
  data : Bytes
  compressed : Bool
  deriving DecidableEq

/-- `TerminalOpened`, as far as a session decides it. -/
structure TerminalOpened where
  terminalId : Int
  success : Bool
  message : String
  replayTerminalOutput : Bool

def SigwinchPhase.attempt : SigwinchPhase → SigwinchPhase × Option SigwinchAction
  | .tempResize 0 => (.idle, none)
  | .tempResize (retries + 1) => (.tempResize retries, some .tempResize)
  | .restore 0 => (.idle, none)
  | .restore (retries + 1) => (.restore retries, some .restore)
  | .idle => (.idle, none)

/-- The phase after `read_outputs`; `resizeOk` is the result of `do_sigwinch_resize`. -/
def SigwinchPhase.next (resizeOk : Bool) (phase : SigwinchPhase) : SigwinchPhase :=
  match phase.attempt with
  | (phase, none) => phase
  | (phase, some .tempResize) => if resizeOk then .restore maxSigwinchPhaseAttempts else phase
  | (phase, some .restore) => if resizeOk then .idle else phase

def createTerminalDataResponse (compress : Bytes → Bytes) (terminalId : Int) (data : Bytes) :
    TerminalData :=
  if data.length > compressThreshold then
    if (compress data).length < data.length then ⟨terminalId, compress data, true⟩
    else ⟨terminalId, data, false⟩
  else ⟨terminalId, data, false⟩

namespace TerminalSession

/-- A session as `handle_open` creates it. -/
def new : TerminalSession := ⟨[], .new, .active none .idle⟩

/-- `try_send` into the output channel; whether the chunk was accepted. -/
def trySend (session : TerminalSession) (chunk : Bytes) : Bool × TerminalSession :=
  if session.outputRx.length < channelBufferSize then
    (true, { session with outputRx := session.outputRx ++ [chunk] })
  else (false, session)

/-- The body of the loop of `reset_status`. -/
def resetStatus (session : TerminalSession) : TerminalSession := { session with state := .closed }

/-- `handle_open` of a terminal that exists. -/
def handleOpen (terminalId : Int) (session : TerminalSession) : TerminalOpened × TerminalSession :=
  let buffer := session.outputBuffer.getRecent defaultReconnectBufferBytes
  let reconnectBacklog := session.outputRx.take channelBufferSize
  let outputBuffer := reconnectBacklog.foldl OutputBuffer.append session.outputBuffer
  let buffer :=
    if reconnectBacklog ≠ [] then outputBuffer.getRecent defaultReconnectBufferBytes else buffer
  let hasPending : Bool := buffer ≠ []
  (⟨terminalId, true,
      if hasPending then "Reconnected to existing terminal with pending output"
      else "Reconnected to existing terminal", hasPending⟩,
    { outputRx := session.outputRx.drop channelBufferSize
      outputBuffer := outputBuffer
      state := .active (if hasPending then some buffer else none)
        (.tempResize maxSigwinchPhaseAttempts) })

/-- The body of the loop of `read_outputs` for a terminal that has not ended, and whose
lock is free. -/
def readOutputs (compress : Bytes → Bytes) (terminalId : Int) (resizeOk : Bool)
    (session : TerminalSession) : List TerminalData × TerminalSession :=
  let receivedData := session.outputRx
  let outputBuffer := receivedData.foldl OutputBuffer.append session.outputBuffer
  match session.state with
  | .closed => ([], { session with outputRx := [], outputBuffer := outputBuffer })
  | .active pendingBuffer sigwinch =>
    let replay :=
      match pendingBuffer with
      | some buffer =>
        if buffer = [] then [] else [createTerminalDataResponse compress terminalId buffer]
      | none => []
    (replay ++ receivedData.map (createTerminalDataResponse compress terminalId),
      { outputRx := []
        outputBuffer := outputBuffer
        state := .active none (sigwinch.next resizeOk) })

end TerminalSession

inductive TerminalInput where
  | accept (chunk : Bytes)
  | readOutputs (resizeOk : Bool)
  | resetStatus
  | handleOpen

structure TerminalRun where
  session : TerminalSession
  beforeOpen : Bytes
  afterOpen : Bytes
  /-- The part of `afterOpen` accepted up to the last `read_outputs`. -/
  read : Bytes
  /-- The part of it accepted up to the last `read_outputs` before any `reset_status`. -/
  readOpen : Bytes
  /-- There was a `reset_status` after the latest open. -/
  reset : Bool
  sent : List TerminalData

namespace TerminalRun

variable (compress decompress : Bytes → Bytes) (terminalId : Int)

def start : TerminalRun := ⟨.new, [], [], [], [], false, []⟩

def step (s : TerminalRun) : TerminalInput → TerminalRun
  | .accept chunk =>
    match s.session.trySend chunk with
    | (true, session) => { s with session := session, afterOpen := s.afterOpen ++ chunk }
    | (false, session) => { s with session := session }
  | .readOutputs resizeOk =>
    let (responses, session) := s.session.readOutputs compress terminalId resizeOk
    { s with
      session := session
      read := s.afterOpen
      readOpen := if s.reset then s.readOpen else s.afterOpen
      sent := s.sent ++ responses }
  | .resetStatus => { s with session := s.session.resetStatus, reset := true }
  | .handleOpen =>
    { session := (s.session.handleOpen terminalId).2
      beforeOpen := s.beforeOpen ++ s.afterOpen
      afterOpen := []
      read := []
      readOpen := []
      reset := false
      sent := [] }

def received (data : List TerminalData) : Bytes :=
  data.flatMap fun d => if d.compressed then decompress d.data else d.data

/-- The client has the end of the output before the open, then the bytes `live`, and
nothing else. -/
def Replayed (s : TerminalRun) (live : Bytes) : Prop :=
  ∃ replay, replay <:+ s.beforeOpen ∧ replay.length ≤ defaultReconnectBufferBytes ∧
    received decompress s.sent = replay ++ live

/-- **No gap, no duplicate**, whatever happened since the latest open. -/
def NoGap (s : TerminalRun) : Prop := Replayed decompress s s.read

/-- **No gap, no duplicate** up to the `reset_status` that followed the latest open, if
any. -/
def NoGapWhileOpen (s : TerminalRun) : Prop :=
  Replayed decompress s s.readOpen ∧ (s.reset = false → s.readOpen = s.read)

/-- Where the output is: all of it that left the channel went into the buffer, and while
the session is open a replay not sent yet is all the client is owed. -/
structure Wf (s : TerminalRun) : Prop where
  room : s.session.outputRx.length ≤ channelBufferSize
  buffered : ∃ drained, s.beforeOpen ++ s.afterOpen = drained ++ s.session.outputRx.flatten ∧
    s.session.outputBuffer.content <:+ drained
  state : s.session.state = .closed ↔ s.reset = true
  streamed : s.reset = false → s.afterOpen = s.readOpen ++ s.session.outputRx.flatten
  pending : ∀ buffer sigwinch, s.session.state = .active (some buffer) sigwinch →
    s.sent = [] ∧ s.readOpen = [] ∧ buffer <:+ s.beforeOpen ∧
      buffer.length ≤ defaultReconnectBufferBytes
  noGap : NoGapWhileOpen decompress s

theorem wf_start : Wf decompress start where
  room := Nat.zero_le _
  buffered := ⟨[], rfl, suffix_refl []⟩
  state := by decide
  streamed _ := rfl
  pending _ _ h := by cases h
  noGap := ⟨⟨[], suffix_refl [], Nat.zero_le _, rfl⟩, fun _ => rfl⟩

variable {compress decompress}

theorem received_response (hzip : ∀ data, decompress (compress data) = data) (data : Bytes) :
    received decompress [createTerminalDataResponse compress terminalId data] = data := by
  unfold received createTerminalDataResponse
  split
  · split <;> simp [hzip]
  · simp

theorem received_append (xs ys : List TerminalData) :
    received decompress (xs ++ ys) = received decompress xs ++ received decompress ys := by
  simp [received]

theorem received_chunks (hzip : ∀ data, decompress (compress data) = data)
    (chunks : List Bytes) :
    received decompress (chunks.map (createTerminalDataResponse compress terminalId))
      = chunks.flatten := by
  induction chunks with
  | nil => rfl
  | cons chunk chunks ih =>
    rw [map_cons, ← singleton_append, received_append, received_response _ hzip, ih]
    simp

theorem drained_suffix {drained : Bytes} {buffer : OutputBuffer} (chunks : List Bytes)
    (h : buffer.content <:+ drained) :
    (chunks.foldl OutputBuffer.append buffer).content <:+ drained ++ chunks.flatten := by
  obtain ⟨front, rfl⟩ := h
  refine (OutputBuffer.appends_suffix buffer chunks).trans ⟨front, ?_⟩
  simp

variable {s : TerminalRun}

theorem wf_accept (h : Wf decompress s) (chunk : Bytes) :
    Wf decompress (s.step compress terminalId (.accept chunk)) := by
  by_cases hroom : s.session.outputRx.length < channelBufferSize
  · simp only [step, TerminalSession.trySend, if_pos hroom]
    obtain ⟨drained, hdrained, hsuffix⟩ := h.buffered
    refine ⟨?_, ⟨drained, ?_, hsuffix⟩, h.state, fun hopen => ?_, h.pending, h.noGap⟩
    · simpa [Nat.succ_le_iff] using hroom
    · rw [← append_assoc, hdrained]
      simp
    · rw [h.streamed hopen]
      simp
  · simp only [step, TerminalSession.trySend, if_neg hroom]
    exact h

theorem wf_resetStatus (h : Wf decompress s) :
    Wf decompress (s.step compress terminalId .resetStatus) where
  room := h.room
  buffered := h.buffered
  state := ⟨fun _ => rfl, fun _ => rfl⟩
  streamed hopen := by cases hopen
  pending _ _ hactive := by cases hactive
  noGap := ⟨h.noGap.1, fun hopen => by cases hopen⟩

theorem wf_readOutputs_closed (h : Wf decompress s) (resizeOk : Bool)
    (hclosed : s.session.state = .closed) :
    Wf decompress (s.step compress terminalId (.readOutputs resizeOk)) := by
  have hreset : s.reset = true := h.state.mp hclosed
  obtain ⟨drained, hdrained, hsuffix⟩ := h.buffered
  simp only [step, TerminalSession.readOutputs, hclosed, hreset, if_true, append_nil]
  refine ⟨Nat.zero_le _, ⟨s.beforeOpen ++ s.afterOpen, by simp, ?_⟩, ?_, ?_, ?_, ?_⟩
  · rw [hdrained]
    exact drained_suffix _ hsuffix
  · simp
  · intro hopen
    cases hopen
  · intro buffer sigwinch hactive
    cases hactive
  · exact ⟨h.noGap.1, fun hopen => by cases hopen⟩

theorem wf_readOutputs_active (hzip : ∀ data, decompress (compress data) = data)
    (h : Wf decompress s) (resizeOk : Bool) {pendingBuffer : Option Bytes}
    {sigwinch : SigwinchPhase} (hactive : s.session.state = .active pendingBuffer sigwinch) :
    Wf decompress (s.step compress terminalId (.readOutputs resizeOk)) := by
  have hreset : s.reset = false := by
    rw [Bool.eq_false_iff]
    intro hcontra
    rw [h.state.mpr hcontra] at hactive
    cases hactive
  have hlive := h.streamed hreset
  obtain ⟨drained, hdrained, hsuffix⟩ := h.buffered
  have hsent : Replayed decompress (s.step compress terminalId (.readOutputs resizeOk))
      s.afterOpen := by
    simp only [step, TerminalSession.readOutputs, hactive, Replayed, received_append,
      received_chunks terminalId hzip]
    cases pendingBuffer with
    | none =>
      obtain ⟨replay, hreplay, hlength, hreceived⟩ := h.noGap.1
      refine ⟨replay, hreplay, hlength, ?_⟩
      rw [hreceived, hlive]
      simp [received]
    | some buffer =>
      obtain ⟨hnone, hread, hreplay, hlength⟩ := h.pending buffer sigwinch hactive
      refine ⟨buffer, hreplay, hlength, ?_⟩
      rw [hlive, hread, hnone]
      by_cases hempty : buffer = []
      · simp [hempty, received]
      · simp only [hempty, if_false, received_response terminalId hzip]
        simp [received]
  refine ⟨?_, ⟨s.beforeOpen ++ s.afterOpen, ?_, ?_⟩, ?_, ?_, ?_, ⟨?_, ?_⟩⟩
  · simp [step, TerminalSession.readOutputs, hactive]
  · simp [step, TerminalSession.readOutputs, hactive]
  · simp only [step, TerminalSession.readOutputs, hactive, hdrained]
    exact drained_suffix _ hsuffix
  · simp [step, TerminalSession.readOutputs, hactive, hreset]
  · intro _
    simp [step, TerminalSession.readOutputs, hactive, hreset]
  · intro buffer phase hcontra
    simp [step, TerminalSession.readOutputs, hactive] at hcontra
  · have hreadOpen : (s.step compress terminalId (.readOutputs resizeOk)).readOpen
        = s.afterOpen := by
      simp [step, hreset]
    rw [hreadOpen]
    exact hsent
  · intro _
    simp [step, hreset]

theorem wf_handleOpen (h : Wf decompress s) :
    Wf decompress (s.step compress terminalId .handleOpen) := by
  obtain ⟨drained, hdrained, hsuffix⟩ := h.buffered
  -- the channel holds no more than one drain takes
  have htake : s.session.outputRx.take channelBufferSize = s.session.outputRx :=
    take_of_length_le h.room
  have hdrop : s.session.outputRx.drop channelBufferSize = [] := drop_eq_nil_of_le h.room
  have hcontent := drained_suffix s.session.outputRx hsuffix
  rw [← hdrained] at hcontent
  have hbuffer : (if s.session.outputRx ≠ [] then
        (s.session.outputRx.foldl OutputBuffer.append s.session.outputBuffer).getRecent
          defaultReconnectBufferBytes
      else s.session.outputBuffer.getRecent defaultReconnectBufferBytes) =
      (s.session.outputRx.foldl OutputBuffer.append s.session.outputBuffer).getRecent
        defaultReconnectBufferBytes := by
    by_cases hempty : s.session.outputRx = []
    · simp [hempty]
    · simp [hempty]
  simp only [step, TerminalSession.handleOpen, htake, hdrop, hbuffer]
  generalize s.session.outputRx.foldl OutputBuffer.append s.session.outputBuffer = outputBuffer
    at hcontent
  refine ⟨Nat.zero_le _, ⟨s.beforeOpen ++ s.afterOpen, by simp, hcontent⟩, by simp, ?_, ?_, ?_⟩
  · intro _
    rfl
  · intro buffer sigwinch hactive
    refine ⟨rfl, rfl, ?_⟩
    obtain rfl : outputBuffer.getRecent defaultReconnectBufferBytes = buffer := by
      split at hactive
      · cases hactive
        rfl
      · cases hactive
    exact ⟨(outputBuffer.getRecent_suffix _).trans hcontent, outputBuffer.getRecent_length _⟩
  · exact ⟨⟨[], nil_suffix, Nat.zero_le _, rfl⟩, fun _ => rfl⟩

theorem wf_step (hzip : ∀ data, decompress (compress data) = data)
    (h : Wf decompress s) (inp : TerminalInput) :
    Wf decompress (s.step compress terminalId inp) := by
  cases inp with
  | accept chunk => exact wf_accept terminalId h chunk
  | readOutputs resizeOk =>
    cases hstate : s.session.state with
    | closed => exact wf_readOutputs_closed terminalId h resizeOk hstate
    | active pendingBuffer sigwinch =>
      exact wf_readOutputs_active terminalId hzip h resizeOk hstate
  | resetStatus => exact wf_resetStatus terminalId h
  | handleOpen => exact wf_handleOpen terminalId h

/-- **The replay is complete.**  In every state of every run, what the client was sent
since the latest open is a suffix of the output accepted before it, of at most
`defaultReconnectBufferBytes` bytes, followed by all output accepted after it up to the
last `read_outputs` before any `reset_status`; without a `reset_status`, up to the last
`read_outputs`. -/
theorem replay_complete (hzip : ∀ data, decompress (compress data) = data)
    (inputs : List TerminalInput) :
    Run.Always (step compress terminalId) (NoGapWhileOpen decompress) start inputs := by
  have hstep : ∀ s inp, Wf decompress s → Wf decompress (s.step compress terminalId inp) :=
    fun _ inp h => wf_step terminalId hzip h inp
  have hrun : Run.Always (step compress terminalId) (Wf decompress) start inputs :=
    Run.always_of_step hstep (wf_start decompress) inputs
  exact fun pre hpre => (hrun pre hpre).noGap

/-- Output before and after a reconnection. -/
theorem replay_after_reconnect :
    (Run.exec (step id 1) start [.accept [97, 10], .readOutputs true, .accept [98], .resetStatus,
      .handleOpen, .accept [99], .readOutputs true, .accept [100]]).sent
      = [⟨1, [97, 10, 98], false⟩, ⟨1, [99], false⟩] ∧
    Run.Always (step id 1) (NoGapWhileOpen id) start [.accept [97, 10], .readOutputs true,
      .accept [98], .resetStatus, .handleOpen, .accept [99], .readOutputs true, .accept [100]] :=
  ⟨by decide, replay_complete 1 (fun _ => rfl) _⟩

/-- Output that comes after a `reset_status` is not sent by `read_outputs`. -/
theorem reset_stops_output :
    ¬Run.Always (step id 1) (NoGap id) start
      [.handleOpen, .resetStatus, .accept [97], .readOutputs true] := by
  intro h
  obtain ⟨replay, hreplay, -, hreceived⟩ := h.last
  have hsent : received id (Run.exec (step id 1) start
      [.handleOpen, .resetStatus, .accept [97], .readOutputs true]).sent = [] := by decide
  have hread : (Run.exec (step id 1) start
      [.handleOpen, .resetStatus, .accept [97], .readOutputs true]).read = [97] := by decide
  rw [hsent, hread] at hreceived
  simp at hreceived

end TerminalRun
end RustDesk.Terminal
