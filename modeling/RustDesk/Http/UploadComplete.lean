import RustDesk.Http.RecordUpload

/-!
# The file that arrives

Behind the header the recorder only appends, so what the server has there is the front of the
file, however the writes fall between the steps of the thread (`Inv`).  The position of the
next part is never behind what the server has, because the thread reads on to the end of the
file after it has read its length.  The last part reaches the end of the complete file, and
the tail renews the header.

* `Grows`: what a writer may do to the file.
* `uploaded_equals_local`: **the server ends with the local file**, without a gap on the way.
-/

open OpenFiles

namespace RustDesk

open UnixPath List

namespace RecordUpload

def Grows (file file' : Bytes) : Prop :=
  file.length ≤ file'.length ∧ ∀ i, maxHeaderLen ≤ i → i < file.length → file'[i]? = file[i]?

theorem grows_append (file bytes : Bytes) : Grows file (file ++ bytes) :=
  ⟨by simp, fun _ _ hi => List.getElem?_append_left hi⟩

variable {off : Nat}

theorem grows_rewrite (file : Bytes) {bytes : Bytes}
    (h : off + bytes.length ≤ maxHeaderLen) : Grows file (overwrite 0 file off bytes) :=
  ⟨by rw [length_overwrite]; omega, fun _ hi _ => getElem?_overwrite_behind 0 file (by omega)⟩

def Agrees (bytes : Bytes) (off : Nat) (file : Bytes) : Prop :=
  off + bytes.length ≤ file.length ∧
    ∀ i, maxHeaderLen ≤ off + i → i < bytes.length → bytes[i]? = file[off + i]?

theorem Agrees.grow {bytes file file' : Bytes} (h : Agrees bytes off file)
    (hgrows : Grows file file') : Agrees bytes off file' := by
  refine ⟨Nat.le_trans h.1 hgrows.1, fun i hheader hi => ?_⟩
  have hlt := h.1
  exact (h.2 i hheader hi).trans (hgrows.2 _ hheader (by omega)).symm

theorem Agrees.read {buf file : Bytes} (h : Agrees buf off file) (n : Nat) :
    Agrees (buf ++ (file.drop (off + buf.length)).take n) off file := by
  have hlength := h.1
  constructor
  · rw [length_append, length_take, length_drop]
    omega
  · intro i hheader hi
    by_cases hbefore : i < buf.length
    · rw [List.getElem?_append_left hbefore]
      exact h.2 i hheader hbefore
    · rw [length_append, length_take] at hi
      rw [List.getElem?_append_right (by omega), List.getElem?_take, if_pos (by omega),
        List.getElem?_drop]
      congr 1
      omega

theorem Agrees.part {content body file : Bytes} (hoff : off ≤ content.length)
    (h : Agrees content 0 file) (hbody : Agrees body off file) :
    Agrees (overwrite 0 content off body) 0 file := by
  have hcontent := h.1
  have hend := hbody.1
  refine ⟨by rw [length_overwrite]; omega, fun i hheader hi => ?_⟩
  rw [length_overwrite] at hi
  rw [getElem?_overwrite 0 hoff]
  split_ifs with hin
  · have hat : off + (i - off) = 0 + i := by omega
    rw [hbody.2 (i - off) (by omega) (by omega), hat]
  · exact h.2 i hheader (by omega)

theorem Agrees.tail {content file : Bytes} (h : Agrees content 0 file)
    (hlength : content.length = file.length) :
    overwrite 0 content 0 (file.take maxHeaderLen) = file := by
  refine ext_getElem? fun i => ?_
  rw [getElem?_overwrite 0 (Nat.zero_le _), length_take]
  split_ifs with hin
  · rw [Nat.sub_zero, List.getElem?_take, if_pos (by omega)]
  · by_cases hi : i < content.length
    · rw [h.2 i (by omega) hi, Nat.zero_add]
    · rw [List.getElem?_eq_none (by omega), List.getElem?_eq_none (by omega)]

/-- The messages that are still to come: frames, and the last one when the recorder is done.
`flush` tells that the last one is being handled. -/
def Expects : Bool → List RecordState → Bool → Prop
  | true, queue, flush => flush = false ∧ ∀ m ∈ queue, m = .newFrame
  | false, queue, true => queue = []
  | false, queue, false =>
    ∃ frames : List RecordState, (∀ m ∈ frames, m = .newFrame) ∧ queue = frames ++ [.writeTail]

def Whole (s : RecordUpload) : Prop :=
  s.writing = false ∧ s.queue = [] ∧ s.served.length = s.file.length

def Phase (s : RecordUpload) : Doing → Prop
  | .receiving => Expects s.writing s.queue false ∨ s.Whole ∧ s.served = s.file
  | .sizing flush => Expects s.writing s.queue flush
  | .reading flush len buf => Expects s.writing s.queue flush ∧ len ≤ s.file.length ∧
      Agrees buf s.uploader.uploadSize s.file
  | .readingTail => s.Whole
  | .posting (.part _ offset _ body) flush len => Expects s.writing s.queue flush ∧
      offset = s.uploader.uploadSize ∧ len ≤ offset + body.length ∧ Agrees body offset s.file ∧
      (flush → s.file.length ≤ offset + body.length)
  | .posting (.tail _ _ body) _ _ => s.Whole ∧ body = s.file.take maxHeaderLen
  | .posting (.new _) _ _ => False
  | .posting (.remove _) _ _ => False

structure Uploaded (s : RecordUpload) : Prop where
  running : s.uploader.running = true
  position : s.uploader.uploadSize ≤ s.served.length
  agrees : Agrees s.served 0 s.file
  noGap : Run.Along apply NoGap [] s.posts

/-- **The invariant.** -/
structure Inv (s : RecordUpload) : Prop extends s.Uploaded where
  phase : s.Phase s.doing

def Fresh (filepath : Text) (s : RecordUpload) : Prop :=
  s.posts = [] ∧
    ((s.doing = .receiving ∧ ∃ rest, s.queue = .newFile filepath :: rest ∧
      Expects s.writing rest false) ∨
    ∃ name, s.doing = .posting (.new name) false 0 ∧ s.uploader.running = true ∧
      s.uploader.uploadSize = 0 ∧ Expects s.writing s.queue false)

variable {s : RecordUpload} {flush : Bool} {filepath name : Text} {queue : List RecordState}

theorem Expects.newFrame (h : Expects true queue flush) :
    Expects true (queue ++ [.newFrame]) flush := by
  refine ⟨h.1, fun m hm => ?_⟩
  rcases mem_append.mp hm with hm | hm
  · exact h.2 m hm
  · exact mem_singleton.mp hm

theorem Expects.finish (h : Expects true queue flush) :
    Expects false (queue ++ [.writeTail]) flush := by
  obtain ⟨rfl, hframes⟩ := h
  exact ⟨queue, hframes, rfl⟩

variable {writing : Bool} {m : RecordState}

theorem Expects.receive (h : Expects writing (m :: queue) false) :
    m = .newFrame ∧ Expects writing queue false ∨ m = .writeTail ∧ Expects writing queue true := by
  cases writing with
  | true =>
    exact .inl ⟨h.2 m mem_cons_self, rfl, fun m hm => h.2 m (mem_cons_of_mem _ hm)⟩
  | false =>
    obtain ⟨frames, hframes, heq⟩ := h
    cases frames with
    | nil =>
      cases heq
      exact .inr ⟨rfl, rfl⟩
    | cons frame frames =>
      cases heq
      exact .inl ⟨hframes m mem_cons_self, frames,
        fun m hm => hframes m (mem_cons_of_mem _ hm), rfl⟩

theorem not_whole (hwriting : s.writing = true) : ¬s.Whole := fun h => by
  rw [h.1] at hwriting
  cases hwriting

theorem Phase.grow {doing : Doing} (h : s.Phase doing) (hwriting : s.writing = true)
    {file : Bytes} (hgrows : Grows s.file file) : Phase { s with file } doing := by
  cases doing with
  | receiving => exact .inl (h.resolve_right fun hdone => not_whole hwriting hdone.1)
  | sizing flush => exact h
  | reading flush len buf => exact ⟨h.1, Nat.le_trans h.2.1 hgrows.1, h.2.2.grow hgrows⟩
  | readingTail => exact absurd h (not_whole hwriting)
  | posting p flush len =>
    cases p with
    | part file offset length body =>
      obtain ⟨hexpects, hoffset, hlen, hbody, -⟩ := h
      refine ⟨hexpects, hoffset, hlen, hbody.grow hgrows, fun hflush => ?_⟩
      rw [hwriting, hflush] at hexpects
      cases hexpects.1
    | tail file length body => exact absurd h.1 (not_whole hwriting)
    | new file => exact h
    | remove file => exact h

theorem Phase.tell {doing : Doing} (h : s.Phase doing) (hwriting : s.writing = true)
    {queue : List RecordState}
    (hexpects : ∀ flush, Expects s.writing s.queue flush → Expects writing queue flush) :
    Phase { s with queue, writing } doing := by
  cases doing with
  | receiving =>
    exact .inl (hexpects false (h.resolve_right fun hdone => not_whole hwriting hdone.1))
  | sizing flush => exact hexpects flush h
  | reading flush len buf => exact ⟨hexpects flush h.1, h.2⟩
  | readingTail => exact absurd h (not_whole hwriting)
  | posting p flush len =>
    cases p with
    | part file offset length body => exact ⟨hexpects flush h.1, h.2⟩
    | tail file length body => exact absurd h.1 (not_whole hwriting)
    | new file => exact h
    | remove file => exact h

theorem Inv.grow (h : s.Inv) (hwriting : s.writing = true) {file : Bytes}
    (hgrows : Grows s.file file) : Inv { s with file } where
  toUploaded := ⟨h.running, h.position, h.agrees.grow hgrows, h.noGap⟩
  phase := h.phase.grow hwriting hgrows

theorem Inv.tell (h : s.Inv) (hwriting : s.writing = true) {queue : List RecordState}
    (hexpects : ∀ flush, Expects s.writing s.queue flush → Expects writing queue flush) :
    Inv { s with queue, writing } where
  toUploaded := ⟨h.running, h.position, h.agrees, h.noGap⟩
  phase := h.phase.tell hwriting hexpects

theorem served_posted (s : RecordUpload) (p : Post) :
    Run.exec apply [] (s.posts ++ [p]) = apply s.served p :=
  foldl_append

theorem Uploaded.doing (h : s.Uploaded) {doing : Doing} {now : Nat} (hphase : s.Phase doing) :
    Inv { s with doing, now } where
  toUploaded := ⟨h.running, h.position, h.agrees, h.noGap⟩
  phase := by
    cases doing with
    | posting p flush len => cases p <;> exact hphase
    | _ => exact hphase

theorem Uploaded.afterFrame (h : s.Uploaded) (hexpects : Expects s.writing s.queue flush)
    (hflush : flush = true → s.served.length = s.file.length) :
    Inv { s with doing := afterFrame flush } := by
  refine h.doing ?_
  cases flush with
  | false => exact .inl hexpects
  | true =>
    cases hwriting : s.writing with
    | true =>
      rw [hwriting] at hexpects
      cases hexpects.1
    | false =>
      rw [hwriting] at hexpects
      exact ⟨hwriting, hexpects, hflush rfl⟩

theorem Uploaded.handleFrame (h : s.Uploaded) (hexpects : Expects s.writing s.queue flush) :
    Inv (s.handleFrame flush) := by
  unfold RecordUpload.handleFrame
  split_ifs with hsoon
  · refine h.afterFrame hexpects fun hflush => ?_
    rw [hflush] at hsoon
    cases hsoon.1
  · exact h.doing hexpects

theorem Inv.receive (h : s.Inv) (hdoing : s.doing = .receiving)
    {rest : List RecordState} (hqueue : s.queue = m :: rest) :
    Inv (RecordUpload.receive { s with queue := rest } m) := by
  have hexpects : Expects s.writing (m :: rest) false := by
    have hphase := h.phase
    rw [hdoing] at hphase
    rcases hphase with hphase | ⟨⟨-, hnone, -⟩, -⟩
    · exact hqueue ▸ hphase
    · rw [hnone] at hqueue
      cases hqueue
  have hrest : Uploaded { s with queue := rest } := ⟨h.running, h.position, h.agrees, h.noGap⟩
  rcases hexpects.receive with ⟨rfl, hmore⟩ | ⟨rfl, hlast⟩
  · change Inv (if s.uploader.running then _ else _)
    rw [if_pos h.running]
    exact hrest.handleFrame hmore
  · change Inv (if s.uploader.running then _ else _)
    rw [if_pos h.running]
    exact hrest.handleFrame hlast

theorem Inv.size (h : s.Inv) (hexpects : Expects s.writing s.queue flush) : Inv (s.size flush) := by
  have hlength := h.agrees.1
  have hposition := h.position
  rw [Nat.zero_add] at hlength
  unfold RecordUpload.size
  dsimp only
  split_ifs with hnothing hlittle
  · exact h.afterFrame hexpects fun _ =>
      Nat.le_antisymm hlength (Nat.le_trans hnothing hposition)
  · refine h.afterFrame hexpects fun hflush => ?_
    rw [hflush] at hlittle
    cases hlittle.1
  · refine h.doing ⟨hexpects, Nat.le_refl _, ?_, fun _ _ hi => absurd hi (Nat.not_lt_zero _)⟩
    exact Nat.le_trans hposition hlength

theorem Inv.read (h : s.Inv) {len : Nat} {buf : Bytes}
    (hphase : s.Phase (.reading flush len buf)) (n : Nat) : Inv (s.read flush len buf (n + 1)) := by
  obtain ⟨hexpects, hlen, hbuf⟩ := hphase
  unfold RecordUpload.read
  dsimp only
  split_ifs with hend
  · have hall : s.file.length ≤ s.uploader.uploadSize + buf.length := by
      rcases take_eq_nil_iff.mp hend with hzero | hnil
      · cases hzero
      · exact drop_eq_nil_iff.mp hnil
    exact h.doing ⟨hexpects, rfl, Nat.le_trans hlen hall, hbuf, fun _ => hall⟩
  · exact h.doing ⟨hexpects, hlen, hbuf.read (n + 1)⟩

theorem Inv.sent (h : s.Inv) {p : Post} {len : Nat} (hphase : s.Phase (.posting p flush len)) :
    Inv (s.answered p flush len (.ok ())) := by
  have hserved := served_posted s p
  have hnoGap (hp : NoGap s.served p) : Run.Along apply NoGap [] (s.posts ++ [p]) :=
    Run.along_append.mpr ⟨h.noGap, hp, trivial⟩
  unfold RecordUpload.answered
  cases p with
  | part file offset length body =>
    obtain ⟨hexpects, rfl, hlen, hbody, hwhole⟩ := hphase
    have hlength := h.agrees.1
    rw [Nat.zero_add] at hlength
    have hmore : (apply s.served (.part file s.uploader.uploadSize length body)).length =
        max (s.uploader.uploadSize + body.length) s.served.length := length_overwrite ..
    have huploaded : Uploaded { s with
        posts := s.posts ++ [.part file s.uploader.uploadSize length body]
        uploader.uploadSize := len, uploader.lastSend := s.now } := {
      running := h.running
      position := by
        change len ≤ (Run.exec apply [] _).length
        rw [hserved, hmore]
        omega
      agrees := by
        change Agrees (Run.exec apply [] _) 0 s.file
        rw [hserved]
        exact Agrees.part h.position h.agrees hbody
      noGap := hnoGap h.position }
    refine huploaded.afterFrame hexpects fun hflush => ?_
    have hend := hwhole hflush
    have hbodyEnd := hbody.1
    change (Run.exec apply [] _).length = s.file.length
    rw [hserved, hmore]
    omega
  | tail file length body =>
    obtain ⟨hwhole, rfl⟩ := hphase
    have hall : Run.exec apply [] (s.posts ++ [.tail file length (s.file.take maxHeaderLen)]) =
        s.file := hserved.trans (h.agrees.tail hwhole.2.2)
    have hlength := h.agrees.1
    have hposition := h.position
    refine ⟨⟨h.running, ?_, ?_, hnoGap trivial⟩,
      .inr ⟨⟨hwhole.1, hwhole.2.1, congrArg List.length hall⟩, hall⟩⟩
    · change s.uploader.uploadSize ≤ (Run.exec apply [] (s.posts ++ [_])).length
      rw [hall]
      omega
    · change Agrees (Run.exec apply [] (s.posts ++ [_])) 0 s.file
      rw [hall]
      exact ⟨Nat.le_of_eq (Nat.zero_add _), fun i _ _ => by rw [Nat.zero_add]⟩
  | new file => exact absurd hphase id
  | remove file => exact absurd hphase id

theorem fresh_start (filepath : Text) (file : Bytes) (uploader : RecordUploader) (now : Nat) :
    Fresh filepath (start filepath file uploader now) :=
  ⟨rfl, .inl ⟨rfl, [], rfl, rfl, fun _ hm => absurd hm not_mem_nil⟩⟩

theorem Fresh.tell (h : Fresh filepath s)
    (hexpects : ∀ queue, Expects s.writing queue false → Expects writing (queue ++ [m]) false) :
    Fresh filepath { s with queue := s.queue ++ [m], writing } := by
  obtain ⟨hposts, ⟨hdoing, rest, hqueue, hrest⟩ | ⟨file, hdoing, hrunning, hsize, hmore⟩⟩ := h
  · refine ⟨hposts, .inl ⟨hdoing, rest ++ [m], ?_, hexpects rest hrest⟩⟩
    change s.queue ++ [m] = _
    rw [hqueue, cons_append]
  · exact ⟨hposts, .inr ⟨file, hdoing, hrunning, hsize, hexpects _ hmore⟩⟩

theorem Fresh.work (h : Fresh filepath s) (hname : UnixPath.fileName filepath = some name)
    (n : Nat) : Fresh filepath (s.work n (.ok ())) ∨ Inv (s.work n (.ok ())) := by
  obtain ⟨hposts, ⟨hdoing, rest, hqueue, hexpects⟩ | ⟨file, hdoing, hrunning, hsize, hexpects⟩⟩ := h
  · left
    have hwork : s.work n (.ok ()) =
        RecordUpload.receive { s with queue := rest } (.newFile filepath) := by
      unfold RecordUpload.work
      rw [hdoing, hqueue]
    rw [hwork, RecordUpload.receive, handleNewFile, hname]
    exact ⟨hposts, .inr ⟨name, rfl, rfl, rfl, hexpects⟩⟩
  · right
    have hwork : s.work n (.ok ()) = { s with posts := [.new file], doing := .receiving } := by
      unfold RecordUpload.work
      rw [hdoing]
      change RecordUpload.answered s _ _ _ _ = _
      rw [RecordUpload.answered, hposts]
      rfl
    rw [hwork]
    refine ⟨⟨hrunning, ?_, ?_, trivial, trivial⟩, .inl hexpects⟩
    · exact Nat.le_of_eq hsize
    · exact ⟨Nat.zero_le _, fun i _ hi => absurd hi (Nat.not_lt_zero _)⟩

theorem Inv.work (h : s.Inv) (n : Nat) : Inv (s.work n (.ok ())) := by
  have hphase := h.phase
  unfold RecordUpload.work
  split
  · next hdoing =>
    split
    · next hqueue => exact h.receive hdoing hqueue
    · exact h
  · next hdoing =>
    rw [hdoing] at hphase
    exact h.size hphase
  · next hdoing =>
    rw [hdoing] at hphase
    exact h.read hphase n
  · next hdoing =>
    rw [hdoing] at hphase
    exact h.doing ⟨hphase, rfl⟩
  · next hdoing =>
    rw [hdoing] at hphase
    exact h.sent hphase

theorem step_inv (hname : UnixPath.fileName filepath = some name) {i : Input} (hmeets : Meets s i)
    (h : Fresh filepath s ∨ s.Inv) : Fresh filepath (s.step i) ∨ Inv (s.step i) := by
  cases i with
  | append bytes =>
    unfold step
    split_ifs with hwriting
    · exact h.imp id fun h => h.grow hwriting (grows_append _ _)
    · exact h
  | rewrite off bytes =>
    unfold step
    split_ifs with hwriting
    · exact h.imp id fun h => h.grow hwriting (grows_rewrite _ hmeets)
    · exact h
  | newFrame =>
    unfold step
    split_ifs with hwriting
    · have hmore (queue : List RecordState) (flush : Bool)
          (hexpects : Expects s.writing queue flush) :
          Expects s.writing (queue ++ [.newFrame]) flush := by
        rw [hwriting] at hexpects ⊢
        exact hexpects.newFrame
      exact h.imp (fun h => h.tell fun queue => hmore queue false) fun h =>
        h.tell hwriting (hmore s.queue)
    · exact h
  | finish =>
    unfold step
    split_ifs with hwriting
    · have hlast (queue : List RecordState) (flush : Bool)
          (hexpects : Expects s.writing queue flush) :
          Expects false (queue ++ [.writeTail]) flush := by
        rw [hwriting] at hexpects
        exact hexpects.finish
      exact h.imp (fun h => h.tell fun queue => hlast queue false) fun h =>
        h.tell hwriting (hlast s.queue)
    · exact h
  | tick ms => exact h.imp id fun h => h.doing h.phase
  | work n answer =>
    obtain rfl : answer = .ok () := hmeets
    rcases h with h | h
    · exact h.work hname n
    · exact .inr (h.work n)

variable {is : List Input}

theorem run_inv (hname : UnixPath.fileName filepath = some name)
    (h : Run.Along step Meets s is) (hs : Fresh filepath s ∨ s.Inv) :
    Fresh filepath (Run.exec step s is) ∨ Inv (Run.exec step s is) :=
  (Run.always_of_along (P := fun s => Fresh filepath s ∨ Inv s)
    (fun _ _ h hmeets => step_inv hname hmeets h) hs h).last

theorem served_of_done (h : Fresh filepath s ∨ s.Inv) (hwriting : s.writing = false)
    (hdone : s.Done) : s.served = s.file := by
  rcases h with ⟨-, ⟨-, rest, hqueue, -⟩ | ⟨file, hdoing, -⟩⟩ | h
  · rw [hdone.2] at hqueue
    cases hqueue
  · rw [hdone.1] at hdoing
    cases hdoing
  · have hphase := h.phase
    rw [hdone.1] at hphase
    rcases hphase with hexpects | ⟨-, hserved⟩
    · rw [hwriting, hdone.2] at hexpects
      obtain ⟨frames, -, heq⟩ := hexpects
      exact absurd heq.symm (by simp)
    · exact hserved

def todo (s : RecordUpload) : Nat :=
  s.queue.length * (s.file.length + 7) +
    match s.doing with
    | .receiving => 0
    | .sizing _ => s.file.length + 6
    | .reading _ _ buf => s.file.length - (s.uploader.uploadSize + buf.length) + 5
    | .posting (.part ..) _ _ => 4
    | .readingTail => 2
    | .posting _ _ _ => 1

theorem todo_receive (s : RecordUpload) (hdoing : s.doing = .receiving) (m : RecordState) :
    (s.receive m).todo < s.queue.length * (s.file.length + 7) + (s.file.length + 7) := by
  have hframe (flush : Bool) :
      (s.handleFrame flush).todo < s.queue.length * (s.file.length + 7) + (s.file.length + 7) := by
    unfold handleFrame afterFrame
    split_ifs <;> simp only [todo] <;> omega
  have hsame : s.todo < s.queue.length * (s.file.length + 7) + (s.file.length + 7) := by
    have htodo : s.todo = s.queue.length * (s.file.length + 7) := by
      rw [todo, hdoing]
      rfl
    omega
  cases m with
  | newFile filepath =>
    unfold receive handleNewFile
    dsimp only
    split <;> simp only [todo] <;> omega
  | newFrame =>
    unfold receive
    dsimp only
    split_ifs
    · exact hframe false
    · exact hsame
  | writeTail =>
    unfold receive
    dsimp only
    split_ifs
    · exact hframe true
    · exact hsame
  | removeFile =>
    unfold receive handleRemove
    dsimp only
    split_ifs
    · simp only [todo]
      omega
    · exact hsame

theorem todo_work (n : Nat) (hdone : ¬s.Done) : (s.work n (.ok ())).todo < s.todo := by
  unfold RecordUpload.work
  split
  · next hdoing =>
    split
    · next m rest hqueue =>
      have hcost := todo_receive { s with queue := rest } hdoing m
      have htodo : s.todo = rest.length * (s.file.length + 7) + (s.file.length + 7) := by
        rw [todo, hqueue, hdoing, length_cons, Nat.succ_mul]
        rfl
      rw [htodo]
      exact hcost
    · next hqueue => exact absurd ⟨hdoing, hqueue⟩ hdone
  · next flush hdoing =>
    have htodo : s.todo = s.queue.length * (s.file.length + 7) + (s.file.length + 6) := by
      rw [todo, hdoing]
    rw [htodo]
    unfold RecordUpload.size RecordUpload.afterFrame
    dsimp only
    split_ifs <;> simp only [todo, length_nil] <;> omega
  · next flush len buf hdoing =>
    have htodo : s.todo = s.queue.length * (s.file.length + 7) +
        (s.file.length - (s.uploader.uploadSize + buf.length) + 5) := by
      rw [todo, hdoing]
    rw [htodo]
    unfold RecordUpload.read
    dsimp only
    split_ifs with hend
    · simp only [todo]
      omega
    · have hread := length_pos_iff.mpr hend
      rw [length_take, length_drop] at hread
      simp only [todo, length_append, length_take, length_drop]
      omega
  · next hdoing =>
    have htodo : s.todo = s.queue.length * (s.file.length + 7) + 2 := by
      rw [todo, hdoing]
    rw [htodo, readTail]
    simp only [todo]
    omega
  · next p flush len hdoing =>
    unfold RecordUpload.answered
    cases p with
    | part file offset length body =>
      have htodo : s.todo = s.queue.length * (s.file.length + 7) + 4 := by
        rw [todo, hdoing]
      rw [htodo]
      unfold RecordUpload.sent RecordUpload.afterFrame
      dsimp only
      split_ifs <;> simp only [todo] <;> omega
    | _ =>
      have htodo : s.todo = s.queue.length * (s.file.length + 7) + 1 := by
        rw [todo, hdoing]
      rw [htodo]
      exact Nat.lt_succ_self _

theorem done_work (h : s.Done) (n : Nat) : s.work n (.ok ()) = s := by
  unfold RecordUpload.work
  rw [h.1, h.2]

theorem done_of_todo_le (his : ∀ i ∈ is, ∃ n, i = .work n (.ok ()))
    (h : s.todo ≤ is.length) : Done (Run.exec step s is) := by
  induction is generalizing s with
  | nil =>
    by_contra hdone
    have := todo_work 0 hdone
    exact absurd (Nat.lt_of_lt_of_le this h) (Nat.not_lt_zero _)
  | cons i is ih =>
    obtain ⟨n, rfl⟩ := his i mem_cons_self
    have his' := fun j hj => his j (mem_cons_of_mem _ hj)
    rw [length_cons] at h
    by_cases hdone : s.Done
    · have hstay : Run.exec step s (.work n (.ok ()) :: is) = s := by
        refine Run.exec_fixed fun i hi => ?_
        obtain ⟨k, rfl⟩ := his i hi
        exact done_work hdone k
      rwa [hstay]
    · have := todo_work n hdone
      exact ih his' (Nat.le_of_lt_succ (Nat.lt_of_lt_of_le this h))

theorem work_keeps (s : RecordUpload) (n : Nat) (answer : Except String Unit) :
    (s.work n answer).file = s.file ∧ (s.work n answer).writing = s.writing := by
  unfold RecordUpload.work
  split
  · split
    · next m rest _ =>
      cases m <;> unfold receive <;> dsimp only
      · unfold handleNewFile
        split <;> exact ⟨rfl, rfl⟩
      · unfold handleFrame
        split_ifs <;> exact ⟨rfl, rfl⟩
      · unfold handleFrame
        split_ifs <;> exact ⟨rfl, rfl⟩
      · split_ifs <;> exact ⟨rfl, rfl⟩
    · exact ⟨rfl, rfl⟩
  · unfold RecordUpload.size
    dsimp only
    split_ifs <;> exact ⟨rfl, rfl⟩
  · unfold RecordUpload.read
    dsimp only
    split_ifs <;> exact ⟨rfl, rfl⟩
  · exact ⟨rfl, rfl⟩
  · next p _ _ _ =>
    unfold RecordUpload.answered
    split
    · cases p <;> exact ⟨rfl, rfl⟩
    · exact ⟨rfl, rfl⟩

theorem works_keep {works : List Input} (h : ∀ i ∈ works, ∃ n, i = .work n (.ok ())) :
    Run.Along step Meets s works ∧ (Run.exec step s works).file = s.file ∧
      (Run.exec step s works).writing = s.writing := by
  induction works generalizing s with
  | nil => exact ⟨trivial, rfl, rfl⟩
  | cons i works ih =>
    obtain ⟨n, rfl⟩ := h i mem_cons_self
    obtain ⟨halong, hfile, hwriting⟩ := ih fun j hj => h j (mem_cons_of_mem _ hj)
    have hkeep := work_keeps s n (.ok ())
    exact ⟨⟨rfl, halong⟩, hfile.trans hkeep.1, hwriting.trans hkeep.2⟩

/-- **An uploaded recording equals the local file.** -/
theorem uploaded_equals_local (hname : UnixPath.fileName filepath = some name) (file : Bytes)
    (uploader : RecordUploader) (now : Nat)
    (h : Run.Along step Meets (start filepath file uploader now) is) :
    let s := Run.exec step (start filepath file uploader now) is
    Run.Along apply NoGap [] s.posts ∧
    (s.writing = false → s.Done → s.served = s.file) ∧
    (s.writing = false → ∀ works : List Input, (∀ i ∈ works, ∃ n, i = .work n (.ok ())) →
      s.todo ≤ works.length → (Run.exec step s works).served = s.file) := by
  intro s
  have hinv := run_inv hname h (.inl (fresh_start filepath file uploader now))
  refine ⟨?_, served_of_done hinv, fun hwriting works hworks htodo => ?_⟩
  · rcases hinv with ⟨hposts, -⟩ | hinv
    · rw [hposts]
      trivial
    · exact hinv.noGap
  · obtain ⟨halong, hfile, hstill⟩ := works_keep (s := s) hworks
    have hdone := done_of_todo_le hworks htodo
    rw [served_of_done (run_inv hname halong hinv) (hstill.trans hwriting) hdone]
    exact hfile

/-- A byte comes between the length of the first part and its content, and the header is written
again. -/
theorem recorded_upload :
    let s := Run.exec step
      (start "/r.webm".toList (List.replicate shouldSendSize 0) ⟨[], [], 7, false, 0⟩ 5)
      [.work 0 (.ok ()), .work 0 (.ok ()), .tick 1000, .newFrame, .work 0 (.ok ()),
        .work 0 (.ok ()), .append [2], .work shouldSendSize (.ok ()), .work 0 (.ok ()),
        .work 0 (.ok ()), .rewrite 0 [1], .finish]
    Run.Along apply NoGap [] s.posts ∧
    (s.writing = false → s.Done → s.served = s.file) ∧
    (s.writing = false → ∀ works : List Input, (∀ i ∈ works, ∃ n, i = .work n (.ok ())) →
      s.todo ≤ works.length → (Run.exec step s works).served = s.file) :=
  uploaded_equals_local
    (by decide : UnixPath.fileName "/r.webm".toList = some "r.webm".toList) _
    ⟨[], [], 7, false, 0⟩ 5
    ⟨rfl, rfl, trivial, trivial, rfl, rfl, trivial, rfl, rfl, rfl,
      (by decide : 0 + 1 ≤ maxHeaderLen), trivial, trivial⟩

end RecordUpload
end RustDesk
