import RustDesk.Basic
import RustDesk.Lib.LittleEndian

/-!
# The pipe of the terminal helper

On Windows the terminal runs in a helper process.  What is typed and each change of size are
sent to it through a pipe, as messages of a type, a length and a payload.  The helper reads
them in a loop, with one buffer for all payloads, and writes to the PTY.

A read may take as much of the pipe as it likes, and it may be interrupted.  A buffer is filled
all the same (`readExactOrEof_spec`), and a message is told from what is left of an earlier one
behind it (`handleMessage_spec`).  So what the PTY gets is, byte for byte and change for change,
what was sent (`pty_gets_messages`).
-/

namespace RustDesk.Terminal.Helper

open LittleEndian List

def msgTypeData : UInt8 := 0x01

def msgTypeResize : UInt8 := 0x02

def msgHeaderSize : Nat := 5

def maxPayloadSize : Nat := 16 * 1024 * 1024

/-- Four bytes hold the length as a `u32`. -/
def encodeHelperMessage (msgType : UInt8) (payload : Bytes) : Bytes :=
  [msgType] ++ leBytes payload.length 4 ++ payload

def encodeResizeMessage (rows cols : UInt16) : Bytes :=
  encodeHelperMessage msgTypeResize (leBytes rows.toNat 2 ++ leBytes cols.toNat 2)

inductive ReadAnswer where
  | upTo (n : Nat)
  | interrupted
  | failed
  deriving DecidableEq

/-- The bytes written to the pipe and not read yet, up to its end, and the answers to the reads
to come.  After these each read takes all that it asks for. -/
structure Pipe where
  unread : Bytes
  answers : List ReadAnswer

inductive ReadError where
  | interrupted
  | other

/-- `read` into a buffer of so many bytes. -/
def Pipe.read (p : Pipe) (size : Nat) : Except ReadError Bytes × Pipe :=
  match p.answers with
  | [] => (.ok (p.unread.take size), ⟨p.unread.drop size, []⟩)
  | .upTo n :: answers =>
    (.ok (p.unread.take (min size (max 1 n))), ⟨p.unread.drop (min size (max 1 n)), answers⟩)
  | .interrupted :: answers => (.error .interrupted, ⟨p.unread, answers⟩)
  | .failed :: answers => (.error .other, ⟨p.unread, answers⟩)

/-- `Ok(true)`, `Ok(false)` and `Err(..)`. -/
inductive Filled where
  | full
  | eof
  | failed

variable {p p' : Pipe} {size : Nat} {bs : Bytes}

theorem Pipe.read_ok (hsize : 0 < size) (h : p.read size = (.ok bs, p')) :
    p.unread = bs ++ p'.unread ∧ bs.length ≤ size ∧ (bs = [] → p.unread = []) ∧
      p'.answers <:+ p.answers := by
  have htaken : ∀ k, 0 < k → k ≤ size → p.unread = p.unread.take k ++ p.unread.drop k ∧
      (p.unread.take k).length ≤ size ∧ (p.unread.take k = [] → p.unread = []) := by
    intro k hk hle
    refine ⟨(take_append_drop k _).symm, ?_, fun hnil => ?_⟩
    · exact Nat.le_trans (length_take_le k _) hle
    · exact (take_eq_nil_iff.mp hnil).resolve_left (by omega)
  obtain ⟨unread, answers⟩ := p
  rcases answers with _ | ⟨n | _ | _, answers⟩ <;> cases h
  · have hall := htaken size hsize (Nat.le_refl _)
    exact ⟨hall.1, hall.2.1, hall.2.2, suffix_refl _⟩
  · have hsome := htaken (min size (max 1 n)) (by omega) (Nat.min_le_left _ _)
    exact ⟨hsome.1, hsome.2.1, hsome.2.2, suffix_cons _ _⟩

theorem Pipe.read_interrupted (h : p.read size = (.error .interrupted, p')) :
    p'.unread = p.unread ∧ p.answers = .interrupted :: p'.answers := by
  obtain ⟨unread, answers⟩ := p
  rcases answers with _ | ⟨n | _ | _, answers⟩ <;> cases h
  exact ⟨rfl, rfl⟩

theorem Pipe.read_other (h : p.read size = (.error .other, p')) : .failed ∈ p.answers := by
  obtain ⟨unread, answers⟩ := p
  rcases answers with _ | ⟨n | _ | _, answers⟩ <;> cases h
  exact mem_cons_self

/-- `read_exact_or_eof`.  The buffer is what has been filled, up to `pos`, and the rest. -/
def readExactOrEof (p : Pipe) (filled rest : Bytes) : Filled × Bytes × Pipe :=
  if _hrest : rest = [] then (.full, filled, p)
  else
    match _h : p.read rest.length with
    | (.ok [], next) => (.eof, filled ++ rest, next)
    | (.ok (b :: bs), next) =>
      readExactOrEof next (filled ++ b :: bs) (rest.drop (b :: bs).length)
    | (.error .interrupted, next) => readExactOrEof next filled rest
    | (.error .other, next) => (.failed, filled ++ rest, next)
termination_by rest.length + p.answers.length
decreasing_by
  · have hpos := length_pos_iff.mpr _hrest
    have hle := (Pipe.read_ok hpos _h).2.2.2.length_le
    rw [length_drop, length_cons]
    omega
  · rw [(Pipe.read_interrupted _h).2, length_cons]
    omega

/-- **What a buffer is filled with** is the front of the pipe, whatever the reads answer. -/
theorem readExactOrEof_spec (p : Pipe) (filled rest : Bytes) :
    (∃ p', readExactOrEof p filled rest =
        (.full, filled ++ p.unread.take rest.length, p') ∧ rest.length ≤ p.unread.length ∧
        p'.unread = p.unread.drop rest.length ∧ p'.answers <:+ p.answers) ∨
      (p.unread.length < rest.length ∧ ∃ buf p', readExactOrEof p filled rest = (.eof, buf, p')) ∨
      (.failed ∈ p.answers ∧ ∃ buf p', readExactOrEof p filled rest = (.failed, buf, p')) := by
  fun_induction readExactOrEof p filled rest with
  | case1 p filled => exact .inl ⟨p, by simp, by simp, by simp, suffix_refl _⟩
  | case2 p filled rest hrest next h =>
    have hpos := length_pos_iff.mpr hrest
    have hend := (Pipe.read_ok hpos h).2.2.1 rfl
    exact .inr (.inl ⟨by rwa [hend], _, _, rfl⟩)
  | case3 p filled rest hrest b bs next h ih =>
    have hpos := length_pos_iff.mpr hrest
    obtain ⟨hunread, hle, -, hanswers⟩ := Pipe.read_ok hpos h
    rw [length_drop] at ih
    rcases ih with ⟨p', heq, hlen, hdrop, hsuffix⟩ | ⟨hlen, heof⟩ | ⟨hmem, hfailed⟩
    · refine .inl ⟨p', ?_, ?_, ?_, hsuffix.trans hanswers⟩
      · rw [heq, hunread, take_append, take_of_length_le hle, append_assoc]
      · rw [hunread, length_append]
        omega
      · rw [hdrop, hunread, drop_append, drop_eq_nil_of_le hle, nil_append]
    · refine .inr (.inl ⟨?_, heof⟩)
      rw [hunread, length_append]
      omega
    · exact .inr (.inr ⟨hanswers.mem hmem, hfailed⟩)
  | case4 p filled rest hrest next h ih =>
    obtain ⟨hunread, hanswers⟩ := Pipe.read_interrupted h
    rw [hunread] at ih
    rw [hanswers]
    rcases ih with ⟨p', heq, hlen, hdrop, hsuffix⟩ | heof | ⟨hmem, hfailed⟩
    · exact .inl ⟨p', heq, hlen, hdrop, hsuffix.trans (suffix_cons _ _)⟩
    · exact .inr (.inl heof)
    · exact .inr (.inr ⟨mem_cons_of_mem _ hmem, hfailed⟩)
  | case5 p filled rest hrest next h => exact .inr (.inr ⟨Pipe.read_other h, _, _, rfl⟩)

inductive PtyEvent where
  | byte (b : UInt8)
  | resize (rows cols : UInt16)
  deriving DecidableEq

inductive PtyAnswer where
  | ok
  | writeFailed (written : Nat)
  | flushFailed
  deriving DecidableEq

structure Round where
  exiting : Bool
  pty : PtyAnswer
  deriving DecidableEq

inductive Stop where
  | exiting
  | eof
  | headerReadError
  | payloadTooLarge
  | eofInPayload
  | payloadReadError
  | ptyWriteError
  | ptyFlushError
  | unknownMessageType
  deriving DecidableEq

structure InputThread where
  inputPipe : Pipe
  headerBuf : Bytes
  payloadBuf : Bytes

def InputThread.new (pipe : Pipe) : InputThread :=
  ⟨pipe, List.replicate msgHeaderSize 0, List.replicate 4096 0⟩

/-- `match msg_type`: what the PTY gets, and why the loop ends if it does. -/
def handleMessage (round : Round) (msgType : UInt8) (payloadLen : Nat) (payloadBuf : Bytes) :
    List PtyEvent × Option Stop :=
  if msgType = msgTypeData then
    match round.pty with
    | .ok => ((payloadBuf.take payloadLen).map .byte, none)
    | .writeFailed written =>
      (((payloadBuf.take payloadLen).take written).map .byte, some .ptyWriteError)
    | .flushFailed => ((payloadBuf.take payloadLen).map .byte, some .ptyFlushError)
  else if msgType = msgTypeResize then
    if 4 ≤ payloadLen then
      ([.resize (.ofNat (leNumber (payloadBuf.take 2)))
        (.ofNat (leNumber ((payloadBuf.drop 2).take 2)))], none)
    else ([], none)
  else ([], some .unknownMessageType)

def InputThread.goOn (s : InputThread) :
    List PtyEvent × Option Stop → List PtyEvent × Except Stop InputThread
  | (events, some stop) => (events, .error stop)
  | (events, none) => (events, .ok s)

def payloadLen (headerBuf : Bytes) : Nat := leNumber ((headerBuf.drop 1).take 4)

def readPayload (pipe : Pipe) (payloadBuf : Bytes) (payloadLen : Nat) : Filled × Bytes × Pipe :=
  let payloadBuf := payloadBuf ++ List.replicate (payloadLen - payloadBuf.length) 0
  if 0 < payloadLen then
    let read := readExactOrEof pipe [] (payloadBuf.take payloadLen)
    (read.1, read.2.1 ++ payloadBuf.drop payloadLen, read.2.2)
  else (.full, payloadBuf, pipe)

def inputStep (round : Round) (s : InputThread) : List PtyEvent × Except Stop InputThread :=
  if round.exiting then ([], .error .exiting)
  else
    match readExactOrEof s.inputPipe [] s.headerBuf with
    | (.eof, _, _) => ([], .error .eof)
    | (.failed, _, _) => ([], .error .headerReadError)
    | (.full, headerBuf, pipe) =>
      if maxPayloadSize < payloadLen headerBuf then ([], .error .payloadTooLarge)
      else
        match readPayload pipe s.payloadBuf (payloadLen headerBuf) with
        | (.eof, _, _) => ([], .error .eofInPayload)
        | (.failed, _, _) => ([], .error .payloadReadError)
        | (.full, payloadBuf, pipe) =>
          InputThread.goOn ⟨pipe, headerBuf, payloadBuf⟩
            (handleMessage round (headerBuf.headD 0) (payloadLen headerBuf) payloadBuf)

def inputLoop : List Round → InputThread → List PtyEvent × Option Stop
  | [], _ => ([], none)
  | round :: rounds, s =>
    match inputStep round s with
    | (events, .error stop) => (events, some stop)
    | (events, .ok s) => ((events ++ (inputLoop rounds s).1), (inputLoop rounds s).2)

inductive Message where
  | data (payload : Bytes)
  | resize (rows cols : UInt16)

namespace Message

def encode : Message → Bytes
  | .data payload => encodeHelperMessage msgTypeData payload
  | .resize rows cols => encodeResizeMessage rows cols

def events : Message → List PtyEvent
  | .data payload => payload.map .byte
  | .resize rows cols => [.resize rows cols]

def Fits : Message → Prop
  | .data payload => payload.length ≤ maxPayloadSize
  | .resize _ _ => True

def msgType : Message → UInt8
  | .data _ => msgTypeData
  | .resize _ _ => msgTypeResize

def payload : Message → Bytes
  | .data payload => payload
  | .resize rows cols => leBytes rows.toNat 2 ++ leBytes cols.toNat 2

theorem encode_eq (m : Message) : m.encode = encodeHelperMessage m.msgType m.payload := by
  cases m <;> rfl

theorem Fits.length_le {m : Message} (h : m.Fits) : m.payload.length ≤ maxPayloadSize := by
  cases m with
  | data payload => exact h
  | resize rows cols =>
    rw [payload, length_append, length_leBytes, length_leBytes]
    decide

end Message

def Round.failure (round : Round) : Option Stop :=
  if round.exiting then some .exiting
  else
    match round.pty with
    | .ok => none
    | .writeFailed _ => some .ptyWriteError
    | .flushFailed => some .ptyFlushError

def Stop.CausedBy (answers : List ReadAnswer) (rounds : List Round) (stop : Stop) : Prop :=
  (.failed ∈ answers ∧ (stop = .headerReadError ∨ stop = .payloadReadError)) ∨
    ∃ round ∈ rounds, round.failure = some stop

theorem Stop.CausedBy.mono {stop : Stop} {answers answers' : List ReadAnswer}
    {rounds rounds' : List Round} (h : stop.CausedBy answers rounds) (ha : answers ⊆ answers')
    (hr : rounds ⊆ rounds') : stop.CausedBy answers' rounds' := by
  rcases h with ⟨hfailed, hstop⟩ | ⟨round, hmem, hstop⟩
  · exact .inl ⟨ha hfailed, hstop⟩
  · exact .inr ⟨round, hr hmem, hstop⟩

theorem Stop.CausedBy.of_failure {stop : Stop} {answers : List ReadAnswer} {round : Round}
    (h : round.failure = some stop) : stop.CausedBy answers [round] :=
  .inr ⟨round, mem_singleton_self _, h⟩

theorem ofNat_leNumber (n : UInt16) : UInt16.ofNat (leNumber (leBytes n.toNat 2)) = n := by
  have hlt : n.toNat < 256 ^ 2 := n.toNat_lt
  rw [leNumber_leBytes, Nat.mod_eq_of_lt hlt, UInt16.ofNat_toNat]

variable {s : InputThread} {rest : Bytes}

theorem handleMessage_spec {round : Round} (hexit : ¬round.exiting = true) (m : Message)
    (stale : Bytes) :
    handleMessage round m.msgType m.payload.length (m.payload ++ stale) = (m.events, none) ∨
    ∃ events stop, handleMessage round m.msgType m.payload.length (m.payload ++ stale) =
      (events, some stop) ∧ events <+: m.events ∧ round.failure = some stop := by
  cases m with
  | data payload =>
    rw [Round.failure, if_neg hexit]
    simp only [handleMessage, Message.msgType, Message.payload, if_pos, take_left']
    cases hpty : round.pty with
    | ok => exact .inl rfl
    | writeFailed written =>
      exact .inr ⟨_, _, rfl, ( take_prefix written payload).map _, rfl⟩
    | flushFailed => exact .inr ⟨_, _, rfl, prefix_refl _, rfl⟩
  | resize rows cols =>
    left
    have hrows : (leBytes rows.toNat 2 ++ leBytes cols.toNat 2 ++ stale).take 2 =
        leBytes rows.toNat 2 := by
      rw [append_assoc, take_left' (length_leBytes _ _)]
    have hcols : ((leBytes rows.toNat 2 ++ leBytes cols.toNat 2 ++ stale).drop 2).take 2 =
        leBytes cols.toNat 2 := by
      rw [append_assoc, drop_left' (length_leBytes _ _), take_left' (length_leBytes _ _)]
    have hlength : (leBytes rows.toNat 2 ++ leBytes cols.toNat 2).length = 4 := by simp
    simp only [handleMessage, Message.msgType, Message.payload, hlength, hrows, hcols,
      ofNat_leNumber]
    rfl

theorem inputStep_end (round : Round) (hbuf : s.headerBuf.length = msgHeaderSize)
    (h : s.inputPipe.unread = []) :
    ∃ stop, inputStep round s = ([], .error stop) ∧
      (stop = .eof ∨ stop.CausedBy s.inputPipe.answers [round]) := by
  by_cases hexit : round.exiting = true
  · exact ⟨.exiting, by rw [inputStep, if_pos hexit], .inr (.of_failure (if_pos hexit))⟩
  have hread := readExactOrEof_spec s.inputPipe [] s.headerBuf
  rw [inputStep, if_neg hexit]
  rcases hread with ⟨p', -, hlen, -⟩ | ⟨-, buf, p', heq⟩ | ⟨hfailed, buf, p', heq⟩
  · rw [h, hbuf] at hlen
    cases hlen
  · rw [heq]
    exact ⟨.eof, rfl, .inl rfl⟩
  · rw [heq]
    exact ⟨.headerReadError, rfl, .inr (.inl ⟨hfailed, .inl rfl⟩)⟩

theorem header_spec {m : Message} (hfits : m.Fits) (rest : Bytes) :
    (m.encode ++ rest).take msgHeaderSize = m.msgType :: leBytes m.payload.length 4 ∧
      (m.encode ++ rest).drop msgHeaderSize = m.payload ++ rest ∧
      msgHeaderSize ≤ (m.encode ++ rest).length ∧
      payloadLen (m.msgType :: leBytes m.payload.length 4) = m.payload.length := by
  have hsplit : m.encode ++ rest =
      (m.msgType :: leBytes m.payload.length 4) ++ (m.payload ++ rest) := by
    simp [m.encode_eq, encodeHelperMessage]
  have hsize : (m.msgType :: leBytes m.payload.length 4).length = msgHeaderSize := by
    simp [msgHeaderSize]
  rw [hsplit]
  refine ⟨take_left' hsize, drop_left' hsize, ?_, ?_⟩
  · rw [length_append, hsize]
    exact Nat.le_add_right _ _
  · have hlt : m.payload.length < 256 ^ 4 := Nat.lt_of_le_of_lt hfits.length_le (by decide)
    have hfour : (leBytes m.payload.length 4).take 4 = leBytes m.payload.length 4 :=
      take_of_length_le (Nat.le_of_eq (length_leBytes _ _))
    rw [payloadLen, drop_succ_cons, drop_zero, hfour, leNumber_leBytes, Nat.mod_eq_of_lt hlt]

theorem readPayload_spec (pipe : Pipe) (buf : Bytes) {payload : Bytes}
    (h : pipe.unread = payload ++ rest) :
    (∃ stale p', readPayload pipe buf payload.length = (.full, payload ++ stale, p') ∧
      p'.unread = rest ∧ p'.answers <:+ pipe.answers) ∨
    (.failed ∈ pipe.answers ∧
      ∃ buf' p', readPayload pipe buf payload.length = (.failed, buf', p')) := by
  unfold readPayload
  dsimp only
  generalize hlong : buf ++ List.replicate (payload.length - buf.length) 0 = long
  split
  · have hsize : (long.take payload.length).length = payload.length := by
      rw [← hlong, length_take, length_append, length_replicate]
      omega
    have hread := readExactOrEof_spec pipe [] (long.take payload.length)
    rw [hsize, h, take_left, drop_left, nil_append] at hread
    rcases hread with ⟨p', heq, -, hunread, hanswers⟩ | ⟨hlen, -⟩ | ⟨hfailed, buf', p', heq⟩
    · exact .inl ⟨long.drop payload.length, p', by rw [heq], hunread, hanswers⟩
    · rw [length_append] at hlen
      omega
    · exact .inr ⟨hfailed, _, _, by rw [heq]⟩
  · obtain rfl : payload = [] := length_eq_zero_iff.mp (by omega)
    exact .inl ⟨long, pipe, rfl, h, suffix_refl _⟩

theorem inputStep_message (round : Round) (hbuf : s.headerBuf.length = msgHeaderSize)
    {m : Message} (hfits : m.Fits) (h : s.inputPipe.unread = m.encode ++ rest) :
    (∃ s', inputStep round s = (m.events, .ok s') ∧ s'.headerBuf.length = msgHeaderSize ∧
      s'.inputPipe.unread = rest ∧ s'.inputPipe.answers <:+ s.inputPipe.answers) ∨
    ∃ events stop, inputStep round s = (events, .error stop) ∧ events <+: m.events ∧
      stop.CausedBy s.inputPipe.answers [round] := by
  by_cases hexit : round.exiting = true
  · exact .inr ⟨[], .exiting, by rw [inputStep, if_pos hexit], nil_prefix,
      .of_failure (if_pos hexit)⟩
  obtain ⟨htake, hdrop, hsize, hlength⟩ := header_spec hfits rest
  have hread := readExactOrEof_spec s.inputPipe [] s.headerBuf
  rw [hbuf, h, htake, hdrop, nil_append] at hread
  rw [inputStep, if_neg hexit]
  rcases hread with ⟨pipe, heq, -, hunread, hanswers⟩ | ⟨hlen, -⟩ | ⟨hfailed, buf, p', heq⟩
  · have hheader : (m.msgType :: leBytes m.payload.length 4).length = msgHeaderSize := by
      simp [msgHeaderSize]
    rw [heq]
    dsimp only
    rw [hlength, if_neg (Nat.not_lt.mpr hfits.length_le)]
    rcases readPayload_spec pipe s.payloadBuf hunread with ⟨stale, p', hpayload, hrest, hafter⟩ |
      ⟨hfailed, buf, p', hpayload⟩
    · rw [hpayload]
      dsimp only [headD_cons]
      rcases handleMessage_spec hexit m stale with hgo | ⟨events, stop, hstop, hfront, hcause⟩
      · rw [hgo]
        exact .inl ⟨_, rfl, hheader, hrest, hafter.trans hanswers⟩
      · rw [hstop]
        exact .inr ⟨events, stop, rfl, hfront, .of_failure hcause⟩
    · rw [hpayload]
      exact .inr ⟨[], .payloadReadError, rfl, nil_prefix, .inl ⟨hanswers.mem hfailed, .inr rfl⟩⟩
  · omega
  · rw [heq]
    exact .inr ⟨[], .headerReadError, rfl, nil_prefix, .inl ⟨hfailed, .inl rfl⟩⟩

theorem inputLoop_run {messages : List Message} (hfits : ∀ m ∈ messages, m.Fits)
    (hbuf : s.headerBuf.length = msgHeaderSize) (rounds : List Round)
    (h : s.inputPipe.unread = messages.flatMap Message.encode) :
    (inputLoop rounds s).1 <+: messages.flatMap Message.events ∧
    (((inputLoop rounds s).2 = none ∧ rounds.length ≤ messages.length) ∨
      ((inputLoop rounds s).2 = some .eof ∧
        (inputLoop rounds s).1 = messages.flatMap Message.events) ∨
      ∃ stop, (inputLoop rounds s).2 = some stop ∧ stop.CausedBy s.inputPipe.answers rounds) := by
  induction rounds generalizing s messages with
  | nil => exact ⟨ nil_prefix, .inl ⟨rfl, Nat.zero_le _⟩⟩
  | cons round rounds ih =>
    have hround : [round] ⊆ round :: rounds := by simp
    have hrounds : rounds ⊆ round :: rounds := subset_cons_self _ _
    rw [inputLoop]
    cases messages with
    | nil =>
      obtain ⟨stop, hstep, hstop⟩ := inputStep_end round hbuf h
      rw [hstep]
      refine ⟨ nil_prefix, .inr ?_⟩
      rcases hstop with rfl | hcause
      · exact .inl ⟨rfl, rfl⟩
      · exact .inr ⟨stop, rfl, hcause.mono (List.Subset.refl _) hround⟩
    | cons m messages =>
      have hm := hfits m mem_cons_self
      rw [flatMap_cons]
      rcases inputStep_message round hbuf hm h with
        ⟨s', hstep, hbuf', hrest, hanswers⟩ | ⟨events, stop, hstep, hfront, hcause⟩
      · have hnext := ih (fun m' hm' => hfits m' (mem_cons_of_mem _ hm')) hbuf' hrest
        rw [hstep]
        dsimp only
        refine ⟨(prefix_append_right_inj _).mpr hnext.1, ?_⟩
        rcases hnext.2 with ⟨hnone, hle⟩ | ⟨heof, hall⟩ | ⟨stop, hstop, hcause⟩
        · exact .inl ⟨hnone, Nat.succ_le_succ hle⟩
        · exact .inr (.inl ⟨heof, by rw [hall]⟩)
        · exact .inr (.inr ⟨stop, hstop, hcause.mono hanswers.subset hrounds⟩)
      · rw [hstep]
        exact ⟨hfront.trans (prefix_append _ _),
          .inr (.inr ⟨stop, rfl, hcause.mono (List.Subset.refl _) hround⟩)⟩

def helperRun (messages : List Message) (answers : List ReadAnswer) (rounds : List Round) :
    List PtyEvent × Option Stop :=
  inputLoop rounds (.new ⟨messages.flatMap Message.encode, answers⟩)

/-- **The PTY gets what was sent**, whatever the cuts between the reads, and the loop ends at the
end of the pipe.  If something outside of the messages fails it has got the front of that. -/
theorem pty_gets_messages {messages : List Message} (hfits : ∀ m ∈ messages, m.Fits)
    (answers : List ReadAnswer) (rounds : List Round) :
    (helperRun messages answers rounds).1 <+: messages.flatMap Message.events ∧
    (((helperRun messages answers rounds).2 = none ∧ rounds.length ≤ messages.length) ∨
      ((helperRun messages answers rounds).2 = some .eof ∧
        (helperRun messages answers rounds).1 = messages.flatMap Message.events) ∨
      ∃ stop, (helperRun messages answers rounds).2 = some stop ∧ stop.CausedBy answers rounds) ∧
    (.failed ∉ answers → (∀ round ∈ rounds, round = ⟨false, .ok⟩) →
      messages.length < rounds.length →
      helperRun messages answers rounds = (messages.flatMap Message.events, some .eof)) := by
  obtain ⟨hfront, hends⟩ := inputLoop_run hfits
    (s := .new ⟨messages.flatMap Message.encode, answers⟩) length_replicate rounds rfl
  refine ⟨hfront, hends, fun hanswers hrounds hlong => ?_⟩
  rcases hends with ⟨-, hle⟩ | ⟨heof, hall⟩ | ⟨stop, -, hcause⟩
  · omega
  · exact Prod.ext hall heof
  · rcases hcause with ⟨hfailed, -⟩ | ⟨round, hmem, hfailure⟩
    · exact absurd hfailed hanswers
    · rw [hrounds round hmem] at hfailure
      cases hfailure

/-- Typing, nothing, and a new size, through a pipe that is read three bytes at a time. -/
theorem pty_gets_hi : helperRun [.data [104, 105], .data [], .resize 24 80]
    [.upTo 3, .interrupted, .upTo 3, .upTo 3] (List.replicate 4 ⟨false, .ok⟩) =
      ([.byte 104, .byte 105, .resize 24 80], some .eof) :=
  (pty_gets_messages (by simp [Message.Fits, maxPayloadSize]) _ _).2.2 (by decide) (by decide)
    (by decide)

end RustDesk.Terminal.Helper
