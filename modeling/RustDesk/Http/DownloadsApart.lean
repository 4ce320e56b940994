import RustDesk.Http.Downloader
import RustDesk.Lib.Run

/-!
# Downloads stay apart

A thread finds the entry of its URL, whosever it is.  As long as no entry is put into the map
while an earlier thread is still on its way, that is the entry it was started for, or none:
only the thread that was started last is on its way, and the entry is its own.

`apart_along`: in a run of such steps an entry and its file hold what its own thread has
received, a thread changes no other entry, and what `get_download_data` returns is a whole
body.
-/

open OpenFiles Run

namespace RustDesk

open List

namespace Downloads

/-- The entry and its file hold what the thread has received, in order.  The file is the one
that the thread has created; its name leads to no other. -/
structure HoldsOwn (s : Downloads) (d : Downloader) (th : Thread) : Prop where
  data : d.data <+: th.received
  size : d.downloadedSize ≤ th.received.length
  received : th.received <+: th.body
  file : ∀ f, th.dest = some f → s.files.content f <+: th.received ∧
    ∀ p, d.path = some p → s.files.inode p = none ∨ s.files.inode p = some f

/-- **Downloads do not mix**: the entry holds what its thread has received, and the data that
is returned is the whole body of its download. -/
def Apart (s : Downloads) : Prop :=
  ∀ d, s.entry = some d → ∃ th, s.threads[d.txCancel]? = some th ∧ HoldsOwn s d th ∧
    ∀ r, s.getDownloadData = .ok r → r.data ≠ [] → r.data = th.body

/-- A thread changes only the entry of its own download. -/
def OwnOnly (s : Downloads) : Input → Prop
  | .thread t ti =>
    (step s (.thread t ti)).entry = s.entry ∨ ∃ d ∈ s.entry, d.txCancel = t
  | _ => True

/-- An entry goes in only when the threads of earlier ones are gone. -/
def InsertsAlone (s : Downloads) (c : Nat) : Prop :=
  ∀ x ∈ s.callers[c]?, x.phase = .checked → (∀ d ∈ s.entry, d.error.isSome) →
    ∀ th ∈ s.threads, th.phase = .gone

/-- A chunk to memory does not end just at an announced size that is too small. -/
def EndsElsewhere (s : Downloads) (t : Nat) (bytes : Bytes) : Prop :=
  ∀ th ∈ s.threads[t]?, ∀ d ∈ s.entry, ∀ n ∈ d.totalSize,
    th.path = none → 0 < n → n < th.body.length → th.received.length + bytes.length ≠ n

def Meets (s : Downloads) : Input → Prop
  | .caller c i => i = .insert → InsertsAlone s c
  | .thread t ti => match ti with
      | .chunk bytes => EndsElsewhere s t bytes
      | _ => True
  | _ => True

def Phase.early : Phase → Bool
  | .unspawned | .asking | .sized | .answered => true
  | _ => false

def Phase.writing : Phase → Bool
  | .receiving | .written _ => true
  | _ => false

def Phase.pending : Phase → Nat
  | .written n => n
  | _ => 0

structure Thread.Ok (th : Thread) : Prop where
  received : th.received <+: th.body
  early : th.phase.early → th.received = [] ∧ th.dest = none
  unnamed : th.path = none → th.dest = none
  opened : th.phase.writing → th.dest = none → th.path = none

structure Holds (files : Store String UInt8) (d : Downloader) (th : Thread) : Prop where
  path : d.path = th.path
  memory : th.path = none → d.data = th.received ∧ d.downloadedSize = th.received.length
  file : th.path ≠ none → d.data = []
  counted : d.downloadedSize + th.phase.pending ≤ th.received.length
  name : ∀ f, th.dest = some f → ∀ p, th.path = some p →
    files.inode p = none ∨ files.inode p = some f
  content : ∀ f, th.dest = some f → files.content f <+: th.received ∧
    (th.phase.writing → files.content f = th.received)
  whole : th.path = none → ∀ n, d.totalSize = some n → 0 < n → d.downloadedSize = n →
    th.received = th.body

/-- **The invariant.**  Only the last thread is on its way, and the entry is its own. -/
structure Inv (s : Downloads) : Prop where
  ok : ∀ (t : Nat) (th : Thread), s.threads[t]? = some th → th.Ok
  last : ∀ t th, s.threads[t]? = some th → th.phase ≠ .gone → t + 1 = s.threads.length
  own : ∀ d, s.entry = some d → d.txCancel + 1 = s.threads.length ∧
    ∀ th, s.threads[d.txCancel]? = some th → Holds s.files d th

variable {s : Downloads} {t : Nat} {th th' : Thread} {d : Downloader}

theorem Inv.initial (url : String) (files : Store String UInt8) : Inv (initial url files) where
  ok _ _ h := by cases h
  last _ _ h := by cases h
  own _ h := by cases h

theorem Inv.entry_of_last (h : Inv s) (hd : s.entry = some d) (hth : s.threads[t]? = some th)
    (hlast : t + 1 = s.threads.length) : d.txCancel = t ∧ Holds s.files d th := by
  obtain ⟨hown, hholds⟩ := h.own d hd
  have heq : d.txCancel = t := by omega
  exact ⟨heq, hholds th (heq ▸ hth)⟩

theorem Inv.thread_of_entry (h : Inv s) (hd : s.entry = some d) :
    ∃ th, s.threads[d.txCancel]? = some th ∧ d.txCancel + 1 = s.threads.length ∧
      Holds s.files d th := by
  obtain ⟨hlast, hholds⟩ := h.own d hd
  obtain ⟨th, hth⟩ : ∃ th, s.threads[d.txCancel]? = some th :=
    ⟨_, List.getElem?_eq_getElem (by omega)⟩
  exact ⟨th, hth, hlast, hholds th hth⟩

variable {files : Store String UInt8}

theorem Inv.update (h : Inv s) (hth : s.threads[t]? = some th) (hlast : t + 1 = s.threads.length)
    {entry : Option Downloader} (hok : th'.Ok)
    (hentry : ∀ d, entry = some d → d.txCancel = t ∧ Holds files d th') :
    Inv ({ s with entry, files }.setThread t th') := by
  have hset : ∀ t', (s.threads.set t th')[t']? = if t = t' then some th' else s.threads[t']? := by
    intro t'
    rw [List.getElem?_set]
    have hlt : t < s.threads.length := by omega
    simp [hlt]
  refine ⟨fun t' x hx => ?_, fun t' x hx hlive => ?_, fun d hd => ?_⟩
  · change (s.threads.set t th')[t']? = some x at hx
    rw [hset] at hx
    split_ifs at hx with heq
    · exact Option.some.inj hx ▸ hok
    · exact h.ok t' x hx
  · change (s.threads.set t th')[t']? = some x at hx
    change t' + 1 = (s.threads.set t th').length
    rw [hset] at hx
    rw [length_set]
    split_ifs at hx with heq
    · exact heq ▸ hlast
    · exact h.last t' x hx hlive
  · obtain ⟨rfl, hholds⟩ := hentry d hd
    refine ⟨?_, fun x hx => ?_⟩
    · change d.txCancel + 1 = (s.threads.set d.txCancel th').length
      rw [length_set]
      exact hlast
    · change (s.threads.set d.txCancel th')[d.txCancel]? = some x at hx
      rw [hset, if_pos rfl] at hx
      exact Option.some.inj hx ▸ hholds

theorem Inv.of_eq {s' : Downloads} (h : Inv s) (hthreads : s'.threads = s.threads)
    (hentry : s'.entry = s.entry ∨ s'.entry = none)
    (hfiles : s'.files = s.files ∨ ∃ p, s'.files = s.files.unlink p) : Inv s' := by
  refine ⟨fun t th hth => h.ok t th (hthreads ▸ hth), fun t th hth => ?_, fun d hd => ?_⟩
  · rw [hthreads]
    exact h.last t th (hthreads ▸ hth)
  · rcases hentry with hentry | hentry
    · rw [hentry] at hd
      obtain ⟨hlast, hholds⟩ := h.own d hd
      refine ⟨hthreads ▸ hlast, fun th hth => ?_⟩
      have hold := hholds th (hthreads ▸ hth)
      rcases hfiles with hfiles | ⟨p, hfiles⟩
      · exact hfiles ▸ hold
      · rw [hfiles]
        exact { hold with name := fun f hf q hq => Store.inode_unlink (hold.name f hf q hq) }
    · rw [hentry] at hd
      cases hd

theorem Inv.modify (h : Inv s) (hth : s.threads[t]? = some th) (hlast : t + 1 = s.threads.length)
    (hok : th'.Ok) (f : Downloader → Downloader) (hcancel : ∀ d, (f d).txCancel = d.txCancel)
    (hf : ∀ d, Holds s.files d th → Holds s.files (f d) th') :
    Inv ((s.modifyEntry f).setThread t th') := by
  refine h.update hth hlast hok fun d hd => ?_
  obtain ⟨d, hentry, rfl⟩ := Option.map_eq_some_iff.mp hd
  obtain ⟨heq, hold⟩ := h.entry_of_last hentry hth hlast
  exact ⟨(hcancel d).trans heq, hf d hold⟩

theorem Inv.setThread (h : Inv s) (hth : s.threads[t]? = some th)
    (hlast : t + 1 = s.threads.length) (hok : th'.Ok)
    (hf : ∀ d, Holds s.files d th → Holds s.files d th') : Inv (s.setThread t th') := by
  have hsame := h.modify hth hlast hok id (fun _ => rfl) hf
  rwa [modifyEntry, Option.map_id] at hsame

variable {p : Phase}

theorem Thread.Ok.phase (h : th.Ok) (hearly : p.early → th.phase.early)
    (hwriting : p.writing → th.phase.writing) : { th with phase := p }.Ok :=
  ⟨h.received, fun hp => h.early (hearly hp), h.unnamed, fun hp => h.opened (hwriting hp)⟩

theorem Holds.phase (h : Holds files d th)
    (hpending : p.pending ≤ th.phase.pending) (hwriting : p.writing → th.phase.writing) :
    Holds files d { th with phase := p } where
  path := h.path
  memory := h.memory
  file := h.file
  counted := Nat.le_trans (Nat.add_le_add_left hpending _) h.counted
  name := h.name
  content f hf := ⟨(h.content f hf).1, fun hp => (h.content f hf).2 (hwriting hp)⟩
  whole := h.whole

theorem Phase.pending_eq (h : p.writing = false) : p.pending = 0 := by
  cases p with
  | written n => cases h
  | _ => rfl

theorem Inv.halt (h : Inv s) (hth : s.threads[t]? = some th) (hlive : th.phase ≠ .gone)
    (hearly : p.early = false) (hwriting : p.writing = false) :
    Inv (s.setThread t { th with phase := p }) :=
  h.setThread hth (h.last t th hth hlive)
    ((h.ok t th hth).phase (by simp [hearly]) (by simp [hwriting])) fun _ hd =>
      hd.phase (by rw [Phase.pending_eq hwriting]; exact Nat.zero_le _) (by simp [hwriting])

theorem Holds.early (h : Holds files d th) (hok : th.Ok)
    (hearly : th.phase.early) : d.downloadedSize = 0 := by
  have hcounted := h.counted
  rw [(hok.early hearly).1, length_nil] at hcounted
  omega

theorem Inv.head (h : Inv s) (hth : s.threads[t]? = some th) (hphase : th.phase = .asking)
    (resp : HeadResponse) : Inv (s.head t th resp) := by
  have hlive : th.phase ≠ .gone := by simp [hphase]
  have hfail : ∀ err, Inv (s.setThread t { th with phase := .failed err }) := fun err =>
    h.halt hth hlive rfl rfl
  unfold Downloads.head
  split
  · next totalSize =>
    have hok := h.ok t th hth
    have hearly : th.phase.early := by rw [hphase]; rfl
    refine h.modify hth (h.last t th hth hlive)
      (hok.phase (fun _ => hearly) (by simp [Phase.writing])) _ (fun _ => rfl) fun d hd => ?_
    have hsized : Holds s.files d { th with phase := .sized } :=
      hd.phase (Nat.zero_le _) (by simp [Phase.writing])
    refine { hsized with whole := fun hpath n _ hpos hn => ?_ }
    have hzero : d.downloadedSize = n := hn
    rw [hd.early hok hearly] at hzero
    omega
  · exact hfail _
  · exact hfail _
  · exact hfail _

theorem Inv.get (h : Inv s) (hth : s.threads[t]? = some th) (hphase : th.phase = .sized)
    (body : Bytes) : Inv (s.setThread t { th with phase := .answered, body }) := by
  have hok := h.ok t th hth
  have hearly : th.phase.early := by rw [hphase]; rfl
  have hreceived := (hok.early hearly).1
  have hlast := h.last t th hth (by simp [hphase])
  refine h.setThread hth hlast ?_ fun d hd => ?_
  · exact {
      received := by
        change th.received <+: body
        rw [hreceived]
        exact nil_prefix
      early := fun _ => hok.early hearly
      unnamed := hok.unnamed
      opened := by simp [Phase.writing] }
  · have hanswered : Holds s.files d { th with phase := .answered } :=
      hd.phase (Nat.zero_le _) (by simp [Phase.writing])
    exact {
      path := hanswered.path
      memory := hanswered.memory
      file := hanswered.file
      counted := hanswered.counted
      name := hanswered.name
      content := hanswered.content
      whole := fun _ n _ hpos hn => by
        rw [hd.early hok hearly] at hn
        omega }

theorem Inv.create (h : Inv s) (hth : s.threads[t]? = some th) (hphase : th.phase = .answered) :
    Inv (s.create t th) := by
  have hok := h.ok t th hth
  have hearly : th.phase.early := by rw [hphase]; rfl
  obtain ⟨hreceived, hdest⟩ := hok.early hearly
  have hlast := h.last t th hth (by simp [hphase])
  unfold Downloads.create
  split
  · next p hp =>
    refine h.update hth hlast ?_ fun d hd => ?_
    · exact {
        received := hok.received
        early := by simp [Phase.early]
        unnamed := fun hnone => by
          change th.path = none at hnone
          rw [hp] at hnone
          cases hnone
        opened := fun _ hnone => by cases hnone }
    · obtain ⟨heq, hold⟩ := h.entry_of_last hd hth hlast
      refine ⟨heq, ?_⟩
      exact {
        path := hold.path
        memory := hold.memory
        file := hold.file
        counted := by
          have := hold.early hok hearly
          change d.downloadedSize + 0 ≤ th.received.length
          omega
        name := fun f hf q hq => by
          cases hf
          change th.path = some q at hq
          rw [hp] at hq
          cases hq
          exact .inr Store.inode_create
        content := fun f hf => by
          cases hf
          change (s.files.create p).2.content (s.files.create p).1 <+: th.received ∧ _
          rw [Store.content_create, hreceived]
          exact ⟨ nil_prefix, fun _ => rfl⟩
        whole := hold.whole }
  · next hp =>
    refine h.setThread hth hlast ?_ fun d hd => ?_
    · exact {
        received := hok.received
        early := by simp [Phase.early]
        unnamed := hok.unnamed
        opened := fun _ _ => hp }
    · exact {
        path := hd.path
        memory := hd.memory
        file := hd.file
        counted := by
          have := hd.early hok hearly
          change d.downloadedSize + 0 ≤ th.received.length
          omega
        name := hd.name
        content := fun f hf => by
          change th.dest = some f at hf
          rw [hdest] at hf
          cases hf
        whole := hd.whole }

theorem Inv.write (h : Inv s) (hth : s.threads[t]? = some th) (hphase : th.phase = .receiving)
    {f : Nat} (hdest : th.dest = some f) {bytes written : Bytes}
    (hbody : th.received ++ bytes <+: th.body) (hwritten : written <+: bytes)
    (hearly : p.early = false) (hpending : p.pending ≤ bytes.length)
    (hall : p.writing → written = bytes) :
    Inv ({ s with files := s.files.write 0 f th.received.length written }.setThread t
      { th with phase := p, received := th.received ++ bytes }) := by
  have hok := h.ok t th hth
  have hpath : th.path ≠ none := fun hnone => by
    have := hok.unnamed hnone
    rw [hdest] at this
    cases this
  have hlast := h.last t th hth (by simp [hphase])
  refine h.update hth hlast ?_ fun d hd => ?_
  · exact {
      received := hbody
      early := fun hp => by
        change p.early = true at hp
        rw [hearly] at hp
        cases hp
      unnamed := hok.unnamed
      opened := fun _ => hok.opened (by rw [hphase]; rfl) }
  · obtain ⟨heq, hold⟩ := h.entry_of_last hd hth hlast
    have hcontent := (hold.content f hdest).2 (by rw [hphase]; rfl)
    have hnew : (s.files.write 0 f th.received.length written).content f =
        th.received ++ written := by
      rw [Store.content_write (by rw [hcontent]), hcontent]
    refine ⟨heq, ?_⟩
    exact {
      path := hold.path
      memory := fun hnone => absurd hnone hpath
      file := hold.file
      counted := by
        have := hold.counted
        change d.downloadedSize + p.pending ≤ (th.received ++ bytes).length
        rw [length_append]
        omega
      name := hold.name
      content := fun g hg => by
        have hfg : f = g := Option.some.inj (hdest.symm.trans hg)
        rw [← hfg, hnew]
        refine ⟨(prefix_append_right_inj _).mpr hwritten, fun hp => ?_⟩
        rw [hall hp]
      whole := fun hnone => absurd hnone hpath }

theorem Inv.chunk (h : Inv s) (hth : s.threads[t]? = some th) (hphase : th.phase = .receiving)
    {bytes : Bytes} (hbody : th.received ++ bytes <+: th.body)
    (hmeets : Meets s (.thread t (.chunk bytes))) : Inv (s.chunk t th bytes) := by
  unfold Downloads.chunk
  split
  · next f hdest =>
    exact h.write hth hphase hdest hbody prefix_rfl rfl (Nat.le_refl _) fun _ => rfl
  · next hdest =>
    have hok := h.ok t th hth
    have hpath : th.path = none := hok.opened (by rw [hphase]; rfl) hdest
    have hlast := h.last t th hth (by simp [hphase])
    refine h.update hth hlast ?_ fun d hd => ?_
    · exact {
        received := hbody
        early := fun hp => by
          change th.phase.early = true at hp
          rw [hphase] at hp
          cases hp
        unnamed := hok.unnamed
        opened := hok.opened }
    · obtain ⟨d, hentry, rfl⟩ := Option.map_eq_some_iff.mp hd
      obtain ⟨heq, hold⟩ := h.entry_of_last hentry hth hlast
      obtain ⟨hdata, hsize⟩ := hold.memory hpath
      refine ⟨heq, ?_⟩
      exact {
        path := hold.path
        memory := fun _ => by
          change d.data ++ bytes = th.received ++ bytes ∧
            d.downloadedSize + bytes.length = (th.received ++ bytes).length
          rw [hdata, hsize, length_append]
          exact ⟨rfl, rfl⟩
        file := fun hnone => absurd hpath hnone
        counted := by
          change d.downloadedSize + bytes.length + th.phase.pending ≤ (th.received ++ bytes).length
          rw [hphase, hsize, length_append]
          exact Nat.le_refl _
        name := hold.name
        content := fun f hf => by
          change th.dest = some f at hf
          rw [hdest] at hf
          cases hf
        whole := fun _ n htotal hpos hn => by
          change d.downloadedSize + bytes.length = n at hn
          have hfit := hmeets th hth d hentry n htotal hpath hpos
          -- the chunk ends where the body was to end, so the body is no longer
          refine hbody.eq_of_length_le ?_
          rw [length_append]
          omega }

theorem Inv.writeFails (h : Inv s) (hth : s.threads[t]? = some th)
    (hphase : th.phase = .receiving) {bytes : Bytes} (hbody : th.received ++ bytes <+: th.body)
    (k : Nat) (err : String) : Inv (s.writeFails t th bytes k err) := by
  unfold Downloads.writeFails
  split
  · next f hdest =>
    exact h.write hth hphase hdest hbody ( take_prefix _ _) rfl (Nat.zero_le _)
      (by simp [Phase.writing])
  · exact h

theorem Inv.count (h : Inv s) (hth : s.threads[t]? = some th) {n : Nat}
    (hphase : th.phase = .written n) :
    Inv ((s.modifyEntry fun d => { d with downloadedSize := d.downloadedSize + n }).setThread t
      { th with phase := .receiving }) := by
  have hok := h.ok t th hth
  have hwriting : th.phase.writing := by rw [hphase]; rfl
  refine h.modify hth (h.last t th hth (by simp [hphase]))
    (hok.phase (by simp [Phase.early]) fun _ => hwriting) _ (fun _ => rfl) fun d hd => ?_
  have hcounted : d.downloadedSize + n ≤ th.received.length := by
    have := hd.counted
    rwa [hphase] at this
  have hreceiving : Holds s.files d { th with phase := .receiving } :=
    hd.phase (Nat.zero_le _) fun _ => hwriting
  -- what is in memory is counted at once
  have hnone : th.path = none → n = 0 := fun hpath => by
    have := (hd.memory hpath).2
    omega
  refine { hreceiving with
    memory := fun hpath => ?_
    file := hreceiving.file
    counted := hcounted
    whole := fun hpath m htotal hpos hm => ?_ }
  · change d.data = th.received ∧ d.downloadedSize + n = th.received.length
    rw [hnone hpath]
    exact hd.memory hpath
  · change d.downloadedSize + n = m at hm
    rw [hnone hpath] at hm
    exact hd.whole hpath m htotal hpos hm

theorem Inv.mark (h : Inv s) (hth : s.threads[t]? = some th) (hlive : th.phase ≠ .gone)
    (hearly : p.early = false) (hwriting : p.writing = false) (f : Downloader → Downloader)
    (hf : ∀ d, (f d).txCancel = d.txCancel ∧ (f d).path = d.path ∧ (f d).data = d.data ∧
      (f d).downloadedSize = d.downloadedSize ∧ (f d).totalSize = d.totalSize) :
    Inv ((s.modifyEntry f).setThread t { th with phase := p }) := by
  have hok := h.ok t th hth
  refine h.modify hth (h.last t th hth hlive)
    (hok.phase (by simp [hearly]) (by simp [hwriting])) f (fun d => (hf d).1) fun d hd => ?_
  obtain ⟨-, hpath, hdata, hsize, htotal⟩ := hf d
  have hmarked : Holds s.files d { th with phase := p } :=
    hd.phase (by rw [Phase.pending_eq hwriting]; exact Nat.zero_le _) (by simp [hwriting])
  exact {
    path := by rw [hpath]; exact hmarked.path
    memory := by rw [hdata, hsize]; exact hmarked.memory
    file := by rw [hdata]; exact hmarked.file
    counted := by rw [hsize]; exact hmarked.counted
    name := hmarked.name
    content := hmarked.content
    whole := by rw [htotal, hsize]; exact hmarked.whole }

theorem Inv.drop (h : Inv s) (hth : s.threads[t]? = some th) (hlive : th.phase ≠ .gone)
    (files : Store String UInt8) :
    Inv ({ s with entry := none, files }.setThread t { th with phase := .gone }) :=
  h.update hth (h.last t th hth hlive)
    ((h.ok t th hth).phase (by simp [Phase.early]) (by simp [Phase.writing])) nofun

theorem Inv.leave (h : Inv s) (hth : s.threads[t]? = some th) (hphase : th.phase = .leaving)
    (removed : Bool) : Inv (s.leave t th removed) := by
  have hlive : th.phase ≠ .gone := by simp [hphase]
  unfold Downloads.leave
  split
  · next d _ =>
    unfold removeFile
    split
    · split
      · exact h.drop hth hlive _
      · exact h.drop hth hlive s.files
    · exact h.drop hth hlive s.files
  · next hnone =>
    have hdrop := h.drop hth hlive s.files
    have hsame : { s with entry := none } = s := by rw [← hnone]
    rwa [hsame] at hdrop

theorem Inv.threadStep (h : Inv s) (hth : s.threads[t]? = some th) {ti : ThreadInput}
    (hmeets : Meets s (.thread t ti)) : Inv (s.threadStep t th ti) := by
  have hhalt : ∀ {p : Phase} {b : Prop} [Decidable b], th.phase ≠ .gone → p.early = false →
      p.writing = false → Inv (if b then s.setThread t { th with phase := p } else s) := by
    intro p b _ hlive hearly hwriting
    split_ifs
    · exact h.halt hth hlive hearly hwriting
    · exact h
  unfold Downloads.threadStep
  split
  · next hphase => exact h.head hth hphase _
  · next hphase => exact h.get hth hphase _
  · next hphase => exact h.create hth hphase
  · next hphase =>
    split_ifs with hbody
    · exact h.chunk hth hphase hbody hmeets
    · exact h
  · next hphase =>
    split_ifs with hbody
    · exact h.writeFails hth hphase hbody _ _
    · exact h
  · next hphase => exact h.count hth hphase
  · next hphase => exact hhalt (by simp [hphase]) rfl rfl
  · next hphase => exact hhalt (by simp [hphase]) rfl rfl
  · next hphase => exact hhalt (by simp [hphase]) rfl rfl
  · next hphase => exact hhalt (by simp [hphase]) rfl rfl
  · next all hphase =>
    have hafter :
        (afterDownload th all).early = false ∧ (afterDownload th all).writing = false := by
      unfold afterDownload
      split_ifs <;> exact ⟨rfl, rfl⟩
    exact h.mark hth (by simp [hphase]) hafter.1 hafter.2 _ fun _ => ⟨rfl, rfl, rfl, rfl, rfl⟩
  · next hphase => exact h.leave hth hphase _
  · next hphase =>
    exact h.mark hth (by simp [hphase]) rfl rfl _ fun _ => ⟨rfl, rfl, rfl, rfl, rfl⟩
  · next hphase => exact h.drop hth (by simp [hphase]) s.files
  · split_ifs with hfail
    · refine h.halt hth (fun hgone => ?_) rfl rfl
      simp [canFail, hgone] at hfail
    · exact h
  · exact h

theorem removeFile_eq (s : Downloads) (path : Option String) (removed : Bool) :
    (s.removeFile path removed).threads = s.threads ∧
      (s.removeFile path removed).entry = s.entry ∧
      ((s.removeFile path removed).files = s.files ∨
        ∃ p, (s.removeFile path removed).files = s.files.unlink p) := by
  unfold removeFile
  split
  · next p =>
    split
    · exact ⟨rfl, rfl, .inr ⟨p, rfl⟩⟩
    · exact ⟨rfl, rfl, .inl rfl⟩
  · exact ⟨rfl, rfl, .inl rfl⟩

theorem Inv.setCaller (h : Inv s) (c : Nat) (x : Caller) : Inv (s.setCaller c x) :=
  h.of_eq rfl (.inl rfl) (.inl rfl)

theorem Inv.removeFile (h : Inv s) (path : Option String) (removed : Bool) :
    Inv (s.removeFile path removed) := by
  obtain ⟨hthreads, hentry, hfiles⟩ := removeFile_eq s path removed
  exact h.of_eq hthreads (.inl hentry) hfiles

theorem Inv.call (h : Inv s) (path : Option String) (autoDel : Bool) :
    Inv (s.call path autoDel) := by
  unfold Downloads.call
  split
  · split
    · exact h.of_eq rfl (.inl rfl) (.inl rfl)
    · exact h.of_eq rfl (.inr rfl) (.inl rfl)
  · exact h.of_eq rfl (.inl rfl) (.inl rfl)

theorem Inv.check (h : Inv s) (c : Nat) (x : Caller) (dirs : Except String Unit) :
    Inv (s.check c x dirs) := by
  unfold Downloads.check
  split
  · exact h.setCaller c _
  · split
    · exact h.setCaller c _
    · split
      · exact h.setCaller c _
      · exact h.setCaller c _

theorem Inv.insertEntry (h : Inv s) (c : Nat) (x : Caller) (stale : Option String)
    (hgone : ∀ th ∈ s.threads, th.phase = .gone) : Inv (s.insertEntry c x stale) := by
  have hnew : ∀ t (th : Thread),
      (s.threads ++ [{ path := x.path, autoDel := x.autoDel }])[t]? = some th →
        s.threads[t]? = some th ∨
          t = s.threads.length ∧ th = { path := x.path, autoDel := x.autoDel } := by
    intro t th hth
    rw [List.getElem?_append] at hth
    split_ifs at hth with hlt
    · exact .inl hth
    · have hzero : t - s.threads.length = 0 := by
        have := (List.getElem?_eq_some_iff.mp hth).1
        rw [length_singleton] at this
        omega
      rw [hzero] at hth
      exact .inr ⟨by omega, (Option.some.inj hth).symm⟩
  have hlength : (s.insertEntry c x stale).threads.length = s.threads.length + 1 := length_append
  refine ⟨fun t th hth => ?_, fun t th hth hlive => ?_, fun d hd => ?_⟩
  · rcases hnew t th hth with hold | ⟨-, rfl⟩
    · exact h.ok t th hold
    · exact ⟨ nil_prefix, fun _ => ⟨rfl, rfl⟩, fun _ => rfl, by simp [Phase.writing]⟩
  · rcases hnew t th hth with hold | ⟨rfl, -⟩
    · exact absurd (hgone th (mem_of_getElem? hold)) hlive
    · exact hlength.symm
  · cases hd
    refine ⟨hlength.symm, fun th hth => ?_⟩
    rcases hnew _ th hth with hold | ⟨-, rfl⟩
    · exact absurd (List.getElem?_eq_some_iff.mp hold).1 (Nat.lt_irrefl _)
    · exact {
        path := rfl
        memory := fun _ => ⟨rfl, rfl⟩
        file := fun _ => rfl
        counted := Nat.le_refl _
        name := fun f hf => by cases hf
        content := fun f hf => by cases hf
        whole := fun _ n hn => by cases hn }

theorem Inv.spawn (h : Inv s) (c : Nat) (x : Caller) (t : Nat) : Inv (s.spawn c x t) := by
  unfold Downloads.spawn
  split
  · next th hth =>
    split_ifs with hphase
    · refine Inv.setCaller ?_ c _
      have hearly : th.phase.early := by rw [hphase]; rfl
      exact h.setThread hth (h.last t th hth (by simp [hphase]))
        ((h.ok t th hth).phase (fun _ => hearly) (by simp [Phase.writing])) fun _ hd =>
          hd.phase (Nat.zero_le _) (by simp [Phase.writing])
    · exact h
  · exact h

theorem Inv.callerStep (h : Inv s) {c : Nat} {x : Caller} (hx : s.callers[c]? = some x)
    {i : CallerInput} (hmeets : Meets s (.caller c i)) : Inv (s.callerStep c x i) := by
  unfold Downloads.callerStep
  split
  · exact (h.removeFile _ _).setCaller c _
  · exact h.check c x _
  · next hphase =>
    unfold secondPass
    split
    · next existing hentry =>
      split_ifs with herror
      · exact h.setCaller c _
      · refine h.insertEntry c x _ (hmeets rfl x hx hphase fun d hd => ?_)
        rw [hentry] at hd
        cases hd
        cases herr : existing.error with
        | none => simp [herr] at herror
        | some e => rfl
    · next hentry =>
      refine h.insertEntry c x _ (hmeets rfl x hx hphase fun d hd => ?_)
      rw [hentry] at hd
      cases hd
  · exact (h.removeFile _ _).setCaller c _
  · exact h.spawn c x _
  · exact h

theorem Inv.cancel (h : Inv s) : Inv s.cancel := by
  unfold Downloads.cancel
  split
  · next d hd =>
    obtain ⟨th, hth, hlast, -⟩ := h.thread_of_entry hd
    have hok := h.ok _ th hth
    have hset : Inv (s.setThread d.txCancel { th with cancelled := true }) := h.setThread hth hlast
      ⟨hok.received, hok.early, hok.unnamed, hok.opened⟩
      fun _ hd => ⟨hd.path, hd.memory, hd.file, hd.counted, hd.name, hd.content, hd.whole⟩
    have hmodify : s.threads.modify d.txCancel (fun th => { th with cancelled := true }) =
        s.threads.set d.txCancel { th with cancelled := true } := by
      rw [modify_eq_set_getElem?, hth]
      rfl
    rw [hmodify]
    exact hset
  · exact h

theorem Inv.step (h : Inv s) {i : Input} (hmeets : Meets s i) : Inv (s.step i) := by
  cases i with
  | call path autoDel => exact h.call path autoDel
  | caller c i =>
    unfold Downloads.step
    dsimp only
    split
    · next x hx => exact h.callerStep hx hmeets
    · exact h
  | thread t ti =>
    unfold Downloads.step
    dsimp only
    split
    · next th hth => exact h.threadStep hth hmeets
    · exact h
  | cancel => exact h.cancel
  | remove => exact h.of_eq rfl (.inr rfl) (.inl rfl)

theorem Inv.apart (h : Inv s) : Apart s := by
  intro d hd
  obtain ⟨th, hth, -, hold⟩ := h.thread_of_entry hd
  refine ⟨th, hth, ?_, fun r hr hdata => ?_⟩
  · exact {
      data := by
        by_cases hpath : th.path = none
        · exact (hold.memory hpath).1 ▸ prefix_rfl
        · rw [hold.file hpath]
          exact nil_prefix
      size := by
        have := hold.counted
        omega
      received := (h.ok _ th hth).received
      file := fun f hf => ⟨(hold.content f hf).1, fun p hp => hold.name f hf p (hold.path ▸ hp)⟩ }
  · unfold getDownloadData at hr
    rw [hd] at hr
    obtain rfl := (Except.ok.inj hr).symm
    dsimp only at hdata ⊢
    split_ifs at hdata ⊢ with hall
    · have hpath : th.path = none := by
        rw [← hold.path]
        exact Option.isNone_iff_eq_none.mp hall.2
      obtain ⟨hreceived, hsize⟩ := hold.memory hpath
      have hpos := length_pos_iff.mpr hdata
      rw [hreceived] at hpos ⊢
      cases htotal : d.totalSize with
      | none =>
        have hzero := hall.1
        rw [htotal, Option.getD_none] at hzero
        omega
      | some n =>
        have hn := hall.1
        rw [htotal, Option.getD_some] at hn
        exact hold.whole hpath n htotal (by omega) hn.symm
    · exact absurd rfl hdata

theorem threadStep_gone (hphase : th.phase = .gone) (ti : ThreadInput) :
    s.threadStep t th ti = s := by
  unfold threadStep
  rw [hphase]
  cases ti with
  | fail err => simp [canFail, hphase]
  | _ => rfl

theorem threadStep_none (hnone : s.entry = none) (ti : ThreadInput) :
    (s.threadStep t th ti).entry = none := by
  have hmap : ∀ f, (s.modifyEntry f).entry = none := fun f => by rw [modifyEntry, hnone]; rfl
  unfold threadStep
  split
  · unfold head
    split
    · exact hmap _
    · exact hnone
    · exact hnone
    · exact hnone
  · exact hnone
  · unfold create
    split
    · exact hnone
    · exact hnone
  · unfold chunk
    split_ifs
    · split
      · exact hnone
      · exact hmap _
    · exact hnone
  · unfold writeFails
    split_ifs
    · split
      · exact hnone
      · exact hnone
    · exact hnone
  · exact hmap _
  · split_ifs <;> exact hnone
  · split_ifs <;> exact hnone
  · split_ifs <;> exact hnone
  · split_ifs <;> exact hnone
  · exact hmap _
  · unfold leave
    rw [hnone]
    exact hnone
  · exact hmap _
  · rfl
  · split_ifs <;> exact hnone
  · exact hnone

theorem Inv.ownOnly (h : Inv s) (i : Input) : OwnOnly s i := by
  cases i with
  | thread t ti =>
    unfold OwnOnly Downloads.step
    dsimp only
    split
    · next th hth =>
      by_cases hphase : th.phase = .gone
      · rw [threadStep_gone hphase]
        exact .inl rfl
      · cases hentry : s.entry with
        | none => exact .inl (threadStep_none hentry ti)
        | some d =>
          have hlast := h.last t th hth hphase
          have hown := (h.own d hentry).1
          exact .inr ⟨d, rfl, by omega⟩
    · exact .inl rfl
  | _ => trivial

/-- **Downloads of one URL stay apart** in every run in which an entry is put into the map only
when the earlier threads are gone, and no chunk of too long a body ends where it was to end:
in every state the entry and its file hold what its thread has received and the data that is
returned is a whole body, and every step of a thread changes no other entry. -/
theorem apart_along (url : String) (files : Store String UInt8) {is : List Input}
    (h : Along step Meets (initial url files) is) :
    Always step Apart (initial url files) is ∧ Along step OwnOnly (initial url files) is := by
  have hinv := Inv.initial url files
  have hstep : ∀ s i, Inv s → Meets s i → Inv (step s i) := fun _ _ hs hi => hs.step hi
  constructor
  · intro pre hpre
    exact (always_of_along hstep hinv h pre hpre).apart
  · exact h.of_invariant hstep (fun s i hs _ => hs.ownOnly i) hinv

instance (s : Downloads) (i : Input) : Decidable (OwnOnly s i) :=
  match i with
  | .thread t ti => inferInstanceAs (Decidable ((step s (.thread t ti)).entry = s.entry ∨ _))
  | .call .. | .caller .. | .cancel | .remove => isTrue trivial

instance (s : Downloads) (i : Input) : Decidable (Meets s i) :=
  match i with
  | .caller c i => inferInstanceAs (Decidable (i = .insert →
      ∀ x ∈ s.callers[c]?, x.phase = .checked → (∀ d ∈ s.entry, d.error.isSome) →
        ∀ th ∈ s.threads, th.phase = .gone))
  | .thread t (.chunk bytes) => inferInstanceAs (Decidable (∀ th ∈ s.threads[t]?, ∀ d ∈ s.entry,
      ∀ n ∈ d.totalSize, th.path = none → 0 < n → n < th.body.length →
        th.received.length + bytes.length ≠ n))
  | .thread _ (.head _) | .thread _ (.get _) | .thread _ .create | .thread _ (.writeFails ..)
  | .thread _ .count | .thread _ .endOfStream | .thread _ .cancelSeen | .thread _ .finish
  | .thread _ (.leave _) | .thread _ (.fail _) | .thread _ .recordError
  | .thread _ .autoDelete => isTrue trivial
  | .call .. | .cancel | .remove => isTrue trivial

def noFiles : Store String UInt8 where
  inode _ := none
  content _ := []
  next := 0

/-- A call of `download_file` that starts a thread. -/
def starts (c : Nat) (path : Option String) : List Input :=
  [.call path false, .caller c (.removeStale true), .caller c (.check (.ok ())),
    .caller c .insert, .caller c (.removeStale true), .caller c .spawn]

def asks (t total : Nat) (body : Bytes) : List Input :=
  [.thread t (.head (.success (some total))), .thread t (.get body), .thread t .create]

def retried : List Input :=
  starts 0 none ++ asks 0 2 [1, 2] ++ [.thread 0 (.chunk [1]), .thread 0 (.fail "reset"),
    .thread 0 .recordError] ++ starts 1 none ++ asks 1 2 [1, 2] ++
    [.thread 1 (.chunk [1]), .thread 1 (.chunk [2]), .thread 1 .endOfStream, .thread 1 .finish]

theorem retried_apart :
    Along step Meets (initial "u" noFiles) retried ∧
      Always step Apart (initial "u" noFiles) retried ∧
      Along step OwnOnly (initial "u" noFiles) retried :=
  have hmeets : Along step Meets (initial "u" noFiles) retried := by decide +kernel
  ⟨hmeets, apart_along "u" noFiles hmeets⟩

def restarted : List Input :=
  starts 0 none ++ asks 0 2 [1, 2] ++ [.remove] ++ starts 1 none ++ asks 1 2 [1, 2] ++
    [.thread 0 (.chunk [1])]

/-- The first thread puts its chunk into the entry of the second, and when it sees that it is
cancelled it removes that entry. -/
theorem restarted_mixes :
    ¬Always step Apart (initial "u" noFiles) restarted ∧
      ¬Along step OwnOnly (initial "u" noFiles)
        (restarted ++ [.thread 0 .cancelSeen, .thread 0 .finish, .thread 0 (.leave true)]) ∧
      (exec step (initial "u" noFiles)
        (restarted ++ [.thread 0 .cancelSeen, .thread 0 .finish, .thread 0 (.leave true)])).entry =
          none := by
  refine ⟨fun h => ?_, by decide +kernel, by decide +kernel⟩
  have hentry : (exec step (initial "u" noFiles) restarted).entry = some
      { data := [1], path := none, totalSize := some 2, downloadedSize := 1, error := none,
        finished := false, txCancel := 1 } := by decide +kernel
  have hthread : (exec step (initial "u" noFiles) restarted).threads[1]? = some
      { path := none, autoDel := false, phase := .receiving, body := [1, 2] } := by decide +kernel
  obtain ⟨th, hth, hown, -⟩ := h.last _ hentry
  rw [hthread] at hth
  cases hth
  exact absurd hown.data (by decide)

end Downloads
end RustDesk
