import RustDesk.Clipboard.ReadFromCm

/-!
# The clipboard that is read is the current one

An answer bears no number.  A call takes the next message of the stream for its answer, so
it gets its own if nothing else is on the way when it sends its request.  After a call that
has waited in vain, something may be.

`current_along`: in a run in which no request is sent on a stream with an answer outstanding
and every raw frame that a call waits for comes in time, a call returns an error or the
clipboards that were produced for it, with their contents.
-/

open CheckedArith Run

namespace RustDesk

open List

namespace CmRelay

def whole (c : Clipboard) : ClipboardNonFile := { mainData c with content := c.content }

/-- **A call returns an error or what was produced for it**, all of it. -/
def Current (s : CmRelay) : Prop :=
  ∀ n r, (n, r) ∈ s.results → (∃ e, r = .ok (.error e)) ∨
    ∃ clipboards, (n, clipboards) ∈ s.produced ∧ r = .ok (.ok (clipboards.map whole))

/-- Nothing is asked for, and nothing but a start is on its way. -/
def Stream.Quiet (st : Stream) : Prop :=
  st.requests = [] ∧ st.raw = none ∧ ∀ f ∈ st.frames, f = .data .monitorReady

instance (st : Stream) : Decidable st.Quiet := inferInstanceAs (Decidable (_ ∧ _))

variable (json : Json)

def isAnswer : Option Data → Bool
  | some (.clipboardNonFile (some (err, _))) => err = ""
  | _ => false

/-- An answer can be told from others: an error has a text, and a raw frame whose message
cannot be encoded is not taken for a message. -/
def Answerable : Except String (List Clipboard) → Prop
  | .ok clipboards => (Frame.data (answer (.ok clipboards))).fits json = true ∨
      isAnswer (json.fromSlice (rawContents clipboards)) = false
  | .error e => e ≠ ""

/-- The condition on a step: a request is sent on a stream that is quiet, and a raw frame
that is waited for comes in time. -/
def Meets (s : CmRelay) : Input → Prop
  | .call sent .. => s.waiting = none → sent → ∀ st ∈ s.stream, st.Quiet
  | .rawTimeout => ∀ x ∈ s.waiting, x.2 = none
  | .serve clipboards => Answerable json clipboards
  | _ => True

theorem whole_of_small {c : Clipboard} (h : isLarge c = false) : mainData c = whole c := by
  unfold whole mainData
  simp [h]

theorem fill_rawContents (clipboards : List Clipboard) :
    fill (rawContents clipboards) (clipboards.map mainData) = .ok (clipboards.map whole) := by
  induction clipboards with
  | nil => rfl
  | cons c clipboards ih =>
    rw [map_cons, map_cons]
    unfold rawContents at ih ⊢
    rw [flatMap_cons]
    cases hlarge : isLarge c with
    | false =>
      have hraw : (mainData c).nextRaw = false := hlarge
      rw [fill, hraw, if_neg Bool.false_ne_true, if_neg Bool.false_ne_true, nil_append,
        ih, ok_bind, whole_of_small hlarge]
      rfl
    | true =>
      have hraw : (mainData c).nextRaw = true := hlarge
      have hlen : (mainData c).contentLen = c.content.length := rfl
      rw [fill, if_pos hraw, if_pos rfl, hlen, if_pos (by simp), drop_left, take_left, ih, ok_bind]
      rfl

variable {clipboards : List Clipboard}

theorem map_mainData_of_small (h : (clipboards.map mainData).any (·.nextRaw) = false) :
    clipboards.map mainData = clipboards.map whole := by
  refine map_congr_left fun c hc => whole_of_small ?_
  rw [any_map, any_eq_false] at h
  have hsmall : ¬isLarge c = true := h c hc
  exact Bool.eq_false_of_not_eq_true hsmall

theorem rawContents_ne_nil
    (h : (clipboards.map mainData).any (·.nextRaw) = true) : rawContents clipboards ≠ [] := by
  rw [any_map, any_eq_true] at h
  obtain ⟨c, hc, hlarge⟩ := h
  have hlarge' : isLarge c = true := hlarge
  intro hnil
  have hcontent := flatMap_eq_nil_iff.mp hnil c hc
  rw [if_pos hlarge'] at hcontent
  have hlen : c.content.length > 1024 * 3 := of_decide_eq_true hlarge'
  rw [hcontent] at hlen
  cases hlen

def encoded (f : Frame) : List Frame := if f.fits json then [f] else []

def answerFrames : Except String (List Clipboard) → List Frame
  | .ok clipboards => encoded json (.data (answer (.ok clipboards))) ++
      if rawContents clipboards = [] then [] else encoded json (.raw (rawContents clipboards))
  | .error e => encoded json (.data (answer (.error e)))

def Stream.coming (st : Stream) : List Frame :=
  st.frames ++ if st.broken then [] else
    match st.raw with
    | some raw => encoded json (.raw raw)
    | none => []

inductive Outstanding (produced : List (Nat × List Clipboard)) (n : Nat) : List Frame → Prop where
  | answered {clipboards : List Clipboard} (hproduced : (n, clipboards) ∈ produced)
      (h : Answerable json (.ok clipboards)) :
      Outstanding produced n (answerFrames json (.ok clipboards))
  | failed {e : String} (h : Answerable json (.error e)) :
      Outstanding produced n (answerFrames json (.error e))
  | nothing : Outstanding produced n []

inductive AwaitsHeader (produced : List (Nat × List Clipboard)) (n : Nat) : Stream → Prop where
  | unserved {st : Stream} (hrequests : st.requests = [n]) (hraw : st.raw = none)
      (hframes : ∀ f ∈ st.frames, f = .data .monitorReady) : AwaitsHeader produced n st
  | served {st : Stream} {k : Nat} {fs : List Frame} (hrequests : st.requests = [])
      (hfs : Outstanding json produced n fs)
      (hcoming : st.coming json <+: List.replicate k (.data .monitorReady) ++ fs) :
      AwaitsHeader produced n st

structure AwaitsRaw (produced : List (Nat × List Clipboard)) (n : Nat)
    (contents : List ClipboardNonFile) (clipboards : List Clipboard) (st : Stream) : Prop where
  requests : st.requests = []
  produced : (n, clipboards) ∈ produced
  contents : contents = clipboards.map mainData
  coming : st.coming json <+: encoded json (.raw (rawContents clipboards))

def StreamOk (s : CmRelay) : Prop :=
  match s.waiting with
  | none => True
  | some (n, none) => ∃ st, s.stream = some st ∧ AwaitsHeader json s.produced n st
  | some (n, some contents) => ∃ st clipboards, s.stream = some st ∧
      AwaitsRaw json s.produced n contents clipboards st

/-- **The invariant.** -/
structure Inv (s : CmRelay) : Prop where
  current : Current s
  stream : StreamOk json s

variable {json : Json} {s : CmRelay} {n : Nat}

theorem Inv.start : Inv json start where
  current _ _ h := by cases h
  stream := trivial

variable {st : Stream}

theorem StreamOk.header (hwait : s.waiting = some (n, none))
    (hst : s.stream = some st) (h : AwaitsHeader json s.produced n st) : StreamOk json s := by
  unfold StreamOk
  rw [hwait]
  exact ⟨st, hst, h⟩

theorem Inv.finish (h : Current s) {r : Except Trap (Except String (List ClipboardNonFile))}
    (hr : (∃ e, r = .ok (.error e)) ∨
      ∃ clipboards, (n, clipboards) ∈ s.produced ∧ r = .ok (.ok (clipboards.map whole))) :
    Inv json (s.finish n r) where
  current m r' hmem := by
    rcases mem_append.mp hmem with hold | hnew
    · exact h m r' hold
    · obtain ⟨rfl, rfl⟩ := Prod.mk.inj (mem_singleton.mp hnew)
      exact hr
  stream := trivial

theorem Inv.fails (h : Current s) (e : String) : Inv json (s.fails n e) :=
  Inv.finish h (.inl ⟨e, rfl⟩)

theorem send_eq (json : Json) (st : Stream) (f : Frame) :
    st.send json f = st ∨ st.send json f = { st with frames := st.frames ++ [f] } := by
  unfold Stream.send
  split_ifs
  · exact .inl rfl
  · exact .inr rfl

theorem Inv.connect (h : Current s) (connected : Except String Bool)
    (sentAnew : Except String Unit) : Inv json (s.connect json n connected sentAnew) := by
  unfold CmRelay.connect
  split
  · exact Inv.fails h _
  · exact Inv.fails h _
  · next ready =>
    refine ⟨h, _, rfl, ?_⟩
    dsimp only
    cases ready with
    | false => exact .unserved rfl rfl (by simp)
    | true =>
      rw [if_pos rfl]
      rcases send_eq json ⟨[n], none, [], false⟩ (.data .monitorReady) with heq | heq
      · rw [heq]
        exact .unserved rfl rfl (by simp)
      · rw [heq]
        exact .unserved rfl rfl (by simp)

theorem Inv.call (h : Current s) {sent : Bool} {connected : Except String Bool}
    {sentAnew : Except String Unit} (hquiet : sent → ∀ st ∈ s.stream, st.Quiet) :
    Inv json (s.call json sent connected sentAnew) := by
  unfold CmRelay.call
  dsimp only
  split
  · next st hst =>
    split_ifs with hsent
    · obtain ⟨hrequests, hraw, hframes⟩ := hquiet hsent st hst
      refine ⟨h, _, rfl, .unserved ?_ hraw hframes⟩
      change st.requests ++ [s.calls] = [s.calls]
      rw [hrequests, nil_append]
    · exact Inv.connect (s := { s with calls := s.calls + 1 }) h connected sentAnew
  · exact Inv.connect (s := { s with calls := s.calls + 1 }) h connected sentAnew

theorem take_eq {g : Frame → CmRelay → CmRelay} (hst : s.stream = some st) :
    (st.frames = [] ∧ s.take g = s) ∨ ∃ f fs, st.frames = f :: fs ∧
      s.take g = g f { s with stream := some { st with frames := fs } } := by
  unfold take
  rw [hst]
  dsimp only
  split
  · next f fs hframes => exact .inr ⟨f, fs, hframes, rfl⟩
  · next hframes => exact .inl ⟨hframes, rfl⟩

variable {fs : List Frame}

theorem coming_cons {f : Frame} (h : st.frames = f :: fs) :
    st.coming json = f :: { st with frames := fs }.coming json := by
  unfold Stream.coming
  rw [h]
  rfl

theorem readHeader_of_not_answer {d : Option Data} (h : isAnswer d = false) :
    d = some .monitorReady ∨ ∃ e, s.readHeader n d = s.fails n e := by
  cases d with
  | none => exact .inr ⟨_, rfl⟩
  | some d =>
    cases d with
    | clipboardNonFile x =>
      cases x with
      | none => exact .inr ⟨_, rfl⟩
      | some x =>
        have herr : x.1 ≠ "" := of_decide_eq_false h
        exact .inr ⟨x.1, if_pos herr⟩
    | monitorReady => exact .inl rfl
    | other => exact .inr ⟨_, rfl⟩

theorem mem_encoded {f f' : Frame} (h : encoded json f = f' :: fs) : f' = f ∧ fs = [] := by
  unfold encoded at h
  split_ifs at h
  cases h
  exact ⟨rfl, rfl⟩

theorem Inv.readAnswer (h : Current s) (hst : s.stream = some st)
    (hrequests : st.requests = []) (hwait : s.waiting = some (n, none)) {f : Frame}
    (hfs : Outstanding json s.produced n (f :: fs))
    (hcoming : st.coming json <+: fs) : Inv json (s.readHeader n (f.next json)) := by
  have hnothing : fs = [] → Inv json s := by
    rintro rfl
    exact ⟨h, StreamOk.header hwait hst (.served (k := 0) hrequests .nothing hcoming)⟩
  generalize hall : f :: fs = gs at hfs
  cases hfs with
  | @answered clipboards hproduced hanswerable =>
    by_cases hfits : (Frame.data (answer (.ok clipboards))).fits json
    · rw [answerFrames, encoded, if_pos hfits, singleton_append] at hall
      cases hall
      change Inv json (if (clipboards.map mainData).any (·.nextRaw) then _ else _)
      split_ifs with hany
      · rw [if_neg (rawContents_ne_nil hany)] at hcoming
        exact ⟨h, st, clipboards, hst, hrequests, hproduced, rfl, hcoming⟩
      · rw [map_mainData_of_small (Bool.eq_false_of_not_eq_true hany)]
        exact Inv.finish h (.inr ⟨clipboards, hproduced, rfl⟩)
    · rw [answerFrames, encoded, if_neg hfits, nil_append] at hall
      split_ifs at hall
      obtain ⟨rfl, hnil⟩ := mem_encoded hall.symm
      -- the raw frame comes without its message
      rcases readHeader_of_not_answer (s := s) (n := n) (hanswerable.resolve_left hfits) with
        hready | ⟨e, he⟩
      · change Inv json (s.readHeader n (json.fromSlice (rawContents clipboards)))
        rw [hready]
        exact hnothing hnil
      · change Inv json (s.readHeader n (json.fromSlice (rawContents clipboards)))
        rw [he]
        exact Inv.fails h e
  | @failed e he =>
    obtain ⟨rfl, -⟩ := mem_encoded hall.symm
    have hread : s.readHeader n ((Frame.data (answer (.error e))).next json) = s.fails n e :=
      if_pos he
    rw [hread]
    exact Inv.fails h e
  | nothing => cases hall

theorem Inv.readHeader (h : Inv json s) (hwait : s.waiting = some (n, none)) :
    Inv json (s.take fun frame s => s.readHeader n (frame.next json)) := by
  have hstream := h.stream
  unfold StreamOk at hstream
  rw [hwait] at hstream
  obtain ⟨st, hst, hawaits⟩ := hstream
  rcases take_eq (g := fun frame s => s.readHeader n (frame.next json)) hst with
    ⟨-, heq⟩ | ⟨f, fs, hframes, heq⟩
  · rw [heq]
    exact h
  rw [heq]
  -- the call waits on for its message
  have hready : f = .data .monitorReady →
      AwaitsHeader json s.produced n { st with frames := fs } →
      Inv json (CmRelay.readHeader { s with stream := some { st with frames := fs } } n
        (f.next json)) := by
    rintro rfl hwaits
    exact ⟨h.current, StreamOk.header hwait rfl hwaits⟩
  cases hawaits with
  | unserved hrequests hraw hall =>
    rw [hframes] at hall
    obtain ⟨hf, hfs⟩ := forall_mem_cons.mp hall
    exact hready hf (.unserved hrequests hraw hfs)
  | @served k gs hrequests hgs hcoming =>
    rw [coming_cons hframes] at hcoming
    cases k with
    | succ k =>
      rw [replicate_succ, cons_append] at hcoming
      obtain ⟨hf, hcoming⟩ := cons_prefix_cons.mp hcoming
      exact hready hf (.served hrequests hgs hcoming)
    | zero =>
      rw [replicate_zero, nil_append] at hcoming
      cases gs with
      | nil => exact absurd (prefix_nil.mp hcoming) (by simp)
      | cons g gs =>
        obtain ⟨rfl, hrest⟩ := cons_prefix_cons.mp hcoming
        exact Inv.readAnswer (s := { s with stream := some { st with frames := fs } })
          h.current rfl hrequests hwait hgs hrest

theorem Inv.readRaw (h : Inv json s) {contents : List ClipboardNonFile}
    (hwait : s.waiting = some (n, some contents)) :
    Inv json (s.take fun frame s => s.finish n ((fill (frame.bytes json) contents).map .ok)) := by
  have hstream := h.stream
  unfold StreamOk at hstream
  rw [hwait] at hstream
  obtain ⟨st, clipboards, hst, hraw⟩ := hstream
  rcases take_eq
    (g := fun frame s => s.finish n ((fill (frame.bytes json) contents).map .ok)) hst with
    ⟨-, heq⟩ | ⟨f, fs, hframes, heq⟩
  · rw [heq]
    exact h
  · rw [heq]
    have hcoming := hraw.coming
    rw [coming_cons hframes] at hcoming
    obtain ⟨rest, hrest⟩ := hcoming
    obtain ⟨rfl, -⟩ := mem_encoded hrest.symm
    have hfill : (fill ((Frame.raw (rawContents clipboards)).bytes json) contents) =
        .ok (clipboards.map whole) := by
      rw [hraw.contents]
      exact fill_rawContents clipboards
    rw [hfill]
    exact Inv.finish (s := { s with stream := some { st with frames := fs } }) h.current
      (.inr ⟨clipboards, hraw.produced, rfl⟩)

theorem send_frames (st : Stream) (f : Frame) :
    st.send json f =
      { st with frames := st.frames ++ if st.broken then [] else encoded json f } := by
  obtain ⟨requests, raw, frames, broken⟩ := st
  unfold Stream.send encoded
  cases broken <;> cases f.fits json <;> simp

theorem coming_serve (json : Json) (st : Stream) (hraw : st.raw = none)
    (clipboards : Except String (List Clipboard)) :
    (st.serve json clipboards).requests = st.requests ∧
      (st.serve json clipboards).coming json <+: st.frames ++ answerFrames json clipboards := by
  obtain ⟨requests, raw, frames, broken⟩ := st
  cases hraw
  unfold Stream.serve
  rw [send_frames]
  cases clipboards with
  | error e =>
    refine ⟨rfl, ?_⟩
    cases broken with
    | true => simp [Stream.coming]
    | false => simp [Stream.coming, answerFrames]
  | ok clipboards =>
    by_cases hnil : rawContents clipboards = []
    · simp only [hnil, isEmpty_nil, if_true]
      refine ⟨trivial, ?_⟩
      cases broken with
      | true => simp [Stream.coming]
      | false => simp [Stream.coming, answerFrames, hnil]
    · have hfull : (rawContents clipboards).isEmpty = false := by simpa using hnil
      simp only [hfull, Bool.false_eq_true, if_false]
      refine ⟨trivial, ?_⟩
      cases broken with
      | true => simp [Stream.coming]
      | false => simp [Stream.coming, answerFrames, hnil]

theorem Current.mono (h : Current s) {s' : CmRelay} (hresults : s'.results = s.results)
    (hproduced : ∀ x ∈ s.produced, x ∈ s'.produced) : Current s' := by
  intro n r hr
  rcases h n r (hresults ▸ hr) with herror | ⟨clipboards, hin, heq⟩
  · exact .inl herror
  · exact .inr ⟨clipboards, hproduced _ hin, heq⟩

theorem Inv.serve (h : Inv json s) {clipboards : Except String (List Clipboard)}
    (hanswerable : Answerable json clipboards) : Inv json (s.serve json clipboards) := by
  unfold CmRelay.serve
  split
  · next m requests frames broken hst =>
    refine ⟨h.current.mono rfl ?_, ?_⟩
    · intro x hx
      dsimp only
      split
      · exact mem_append_left _ hx
      · exact hx
    · have hstream := h.stream
      unfold StreamOk at hstream ⊢
      dsimp only
      cases hwait : s.waiting with
      | none => trivial
      | some w =>
        rw [hwait] at hstream
        obtain ⟨n, contents⟩ := w
        cases contents with
        | none =>
          obtain ⟨st, hst', hawaits⟩ := hstream
          obtain rfl := Option.some.inj (hst'.symm.trans hst)
          cases hawaits with
          | served hrequests _ _ => cases hrequests
          | unserved hrequests _ hframes =>
            cases hrequests
            obtain ⟨hkeep, hcoming⟩ := coming_serve json ⟨[], none, frames, broken⟩ rfl clipboards
            rw [eq_replicate_of_mem hframes] at hcoming
            refine ⟨_, rfl, .served hkeep ?_ hcoming⟩
            cases clipboards with
            | ok clipboards =>
              exact .answered (mem_append_right _ (mem_singleton_self _)) hanswerable
            | error e => exact .failed hanswerable
        | some contents =>
          obtain ⟨st, clipboards', hst', hraw⟩ := hstream
          obtain rfl := Option.some.inj (hst'.symm.trans hst)
          cases hraw.requests
  · exact h

theorem Inv.modifyStream (h : Inv json s) {f : Stream → Stream}
    (hrequests : ∀ st, (f st).requests = st.requests)
    (hraw : ∀ st, st.raw = none → (f st).raw = none ∧ (f st).frames = st.frames)
    (hcoming : ∀ st, (f st).coming json <+: st.coming json) : Inv json (s.modifyStream f) := by
  refine ⟨h.current, ?_⟩
  have hstream := h.stream
  unfold StreamOk CmRelay.modifyStream at *
  dsimp only
  cases hwait : s.waiting with
  | none => trivial
  | some w =>
    rw [hwait] at hstream
    obtain ⟨n, contents⟩ := w
    cases contents with
    | none =>
      obtain ⟨st, hst, hawaits⟩ := hstream
      refine ⟨f st, by rw [hst]; rfl, ?_⟩
      cases hawaits with
      | unserved hone hnone hframes =>
        obtain ⟨hnone', hsame⟩ := hraw st hnone
        exact .unserved ((hrequests st).trans hone) hnone' (hsame ▸ hframes)
      | served hnone hfs hread =>
        exact .served ((hrequests st).trans hnone) hfs ((hcoming st).trans hread)
    | some contents =>
      obtain ⟨st, clipboards, hst, hawaits⟩ := hstream
      exact ⟨f st, clipboards, by rw [hst]; rfl, (hrequests st).trans hawaits.requests,
        hawaits.produced, hawaits.contents, (hcoming st).trans hawaits.coming⟩

theorem coming_sendRaw (st : Stream) : (st.sendRaw json).coming json = st.coming json := by
  unfold Stream.sendRaw
  split
  · next raw hraw =>
    rw [send_frames]
    unfold Stream.coming
    rw [hraw]
    cases st.broken <;> simp
  · rfl

theorem Inv.step (h : Inv json s) {i : Input} (hmeets : Meets json s i) :
    Inv json (s.step json i) := by
  unfold CmRelay.step
  split
  · next hwait => exact Inv.call h.current fun hsent => hmeets hwait hsent
  · exact Inv.fails h.current _
  · next hwait => exact h.readHeader hwait
  · next hwait => exact h.readRaw hwait
  · exact Inv.fails (s := { s with stream := none }) h.current _
  · next hwait => exact absurd (hmeets _ hwait) (by simp)
  · exact h.serve hmeets
  · refine h.modifyStream (fun st => ?_) (fun st hraw => ?_) fun st => ?_
    · unfold Stream.sendRaw
      split
      · rw [send_frames]
      · rfl
    · unfold Stream.sendRaw
      rw [hraw]
      exact ⟨hraw, rfl⟩
    · rw [coming_sendRaw]
  · refine h.modifyStream (fun _ => rfl) (fun _ hraw => ⟨hraw, rfl⟩) fun st => ?_
    change st.frames ++ [] <+: st.coming json
    rw [append_nil]
    exact prefix_append _ _
  · exact h

/-- **The clipboard that is read is whole and current** in every run in which a request is sent
only on a stream without an answer outstanding, every raw frame that is waited for comes in
time, and an answer can be told from others. -/
theorem current_along (json : Json) {is : List Input}
    (h : Along (step json) (Meets json) start is) : Always (step json) Current start is := by
  have hstep : ∀ s i, Inv json s → Meets json s i → Inv json (step json s i) :=
    fun _ _ hs hi => hs.step hi
  intro pre hpre
  exact (always_of_along hstep Inv.start h pre hpre).current

instance (clipboards : Except String (List Clipboard)) : Decidable (Answerable json clipboards) :=
  match clipboards with
  | .ok clipboards => inferInstanceAs (Decidable ((Frame.data (answer (.ok clipboards))).fits json ∨
      isAnswer (json.fromSlice (rawContents clipboards)) = false))
  | .error e => inferInstanceAs (Decidable (e ≠ ""))

instance (s : CmRelay) (i : Input) : Decidable (Meets json s i) :=
  match i with
  | .call sent _ _ => inferInstanceAs (Decidable (s.waiting = none → sent → _))
  | .rawTimeout => inferInstanceAs (Decidable (∀ x ∈ s.waiting, x.2 = none))
  | .serve clipboards => inferInstanceAs (Decidable (Answerable json clipboards))
  | .nextFails _ | .readHeader | .readRaw | .rawFails _ | .sendRaw | .breaks => isTrue trivial

def shortJson : Json where
  toVec _ := [0x7B, 0x7D]
  fromSlice _ := none

def textOf (content : Bytes) : Clipboard where
  compress := false
  content := content
  width := 0
  height := 0
  format := .ok .text
  specialName := ""

def longText : Clipboard := textOf (List.replicate 3073 7)

def twoCalls : List Input :=
  [.call true (.ok true) (.ok ()), .readHeader, .serve (.ok [textOf [1], longText]), .readHeader,
    .sendRaw, .readRaw, .call true (.ok true) (.ok ()), .serve (.ok [textOf [2]]), .readHeader]

theorem twoCalls_current :
    Along (step shortJson) (Meets shortJson) start twoCalls ∧
      Always (step shortJson) Current start twoCalls :=
  have hmeets : Along (step shortJson) (Meets shortJson) start twoCalls := by decide +kernel
  ⟨hmeets, current_along shortJson hmeets⟩

def lateAnswer : List Input :=
  [.call true (.ok false) (.ok ()), .nextFails "deadline has elapsed",
    .call true (.ok false) (.ok ()), .serve (.ok [textOf [1]]), .serve (.ok [textOf [2]]),
    .readHeader]

def lateRaw : List Input :=
  [.call true (.ok false) (.ok ()), .serve (.ok [longText]), .readHeader, .rawTimeout]

/-- The second call gets the answer to the first, and a call gets clipboards without contents. -/
theorem late_answers_returned :
    ¬Always (step shortJson) Current start lateAnswer ∧
      ¬Always (step shortJson) Current start lateRaw := by
  constructor
  · intro h
    have hresults : (exec (step shortJson) start lateAnswer).results =
        [(0, .ok (.error "deadline has elapsed")), (1, .ok (.ok [whole (textOf [1])]))] := by
      decide +kernel
    have hproduced : (exec (step shortJson) start lateAnswer).produced =
        [(0, [textOf [1]]), (1, [textOf [2]])] := rfl
    rcases h.last 1 _ (by rw [hresults]; exact mem_cons_of_mem _ mem_cons_self) with
      ⟨e, he⟩ | ⟨clipboards, hin, heq⟩
    · cases he
    · rw [hproduced] at hin
      simp only [mem_cons, Prod.mk.injEq, not_mem_nil, or_false] at hin
      obtain ⟨h0, -⟩ | ⟨-, rfl⟩ := hin
      · cases h0
      · cases heq
  · intro h
    have hresults : (exec (step shortJson) start lateRaw).results =
        [(0, .ok (.ok [mainData longText]))] := by
      decide +kernel
    have hlengths : (exec (step shortJson) start lateRaw).produced.map
        (fun x => x.2.map fun c => c.content.length) = [[3073]] := by
      decide +kernel
    rcases h.last 0 _ (by rw [hresults]; exact mem_cons_self) with
      ⟨e, he⟩ | ⟨clipboards, hin, heq⟩
    · cases he
    · have hlength := mem_map_of_mem (f := fun x => x.2.map fun c => c.content.length) hin
      rw [hlengths, mem_singleton] at hlength
      have hwhole := congrArg (List.map fun c => c.content.length)
        (Except.ok.inj (Except.ok.inj heq))
      rw [map_map] at hwhole
      exact absurd (hwhole.trans hlength) (by decide +kernel)

end CmRelay
end RustDesk
