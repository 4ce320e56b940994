import RustDesk.Client.UiSessions
import RustDesk.Lib.Run

/-!
# Every open window keeps its session

Closing the last window of an entry takes two sections: one removes the handler and sees that
none is left, the other removes the entry.  A window that is opened on the same peer in between
is removed with the entry.  Starting a window looks at the number of handlers to decide whether
to connect, and that number says nothing about whether a connection was started before.

**As long as no window is inserted between the two sections of a close for its peer, and each
window that decides is the only one of its entry exactly if no thread was started for that
entry, every open window keeps its session and every started one has a connection, one and
no more** (`windows_kept`).
-/

namespace RustDesk.UiSessions

open List

namespace Entry

variable (x : Entry) (id j : Nat)

def Started : Prop := (j, true) ∈ x.handlers

theorem has_iff : x.has j = true ↔ ∃ b, (j, b) ∈ x.handlers := by
  simp [has]

theorem has_insert : (x.insert id).has j = true ↔ x.has j = true ∨ j = id := by
  simp only [has_iff, insert, mem_append, mem_filter, mem_singleton]
  by_cases hj : j = id <;> simp [hj]

theorem has_remove : (x.remove id).has j = true ↔ x.has j = true ∧ j ≠ id := by
  simp only [has_iff, remove, mem_filter]
  by_cases hj : j = id <;> simp [hj]

theorem has_setEventStream : (x.setEventStream id).has j = true ↔ x.has j = true := by
  simp only [has, setEventStream, any_map]
  have hsame : ((fun h : Nat × Bool => decide (h.1 = j)) ∘
      fun h => if h.1 = id then (id, true) else h) = fun h => decide (h.1 = j) := by
    funext h
    by_cases hh : h.1 = id <;> simp [hh]
  rw [hsame]

variable {x id j}

theorem Started.has (h : x.Started j) : x.has j = true :=
  (x.has_iff j).mpr ⟨true, h⟩

theorem has_ne_nil (h : x.has j = true) : x.handlers ≠ [] := by
  intro hnil
  simp [Entry.has, hnil] at h

theorem Started.of_insert (h : (x.insert id).Started j) : x.Started j := by
  rcases mem_append.mp h with hold | hnew
  · exact (mem_filter.mp hold).1
  · cases mem_singleton.mp hnew

theorem Started.of_remove (h : (x.remove id).Started j) : x.Started j :=
  (mem_filter.mp h).1

theorem Started.of_setEventStream (h : (x.setEventStream id).Started j) : x.Started j ∨ j = id := by
  obtain ⟨⟨i, b⟩, hi, heq⟩ := mem_map.mp h
  dsimp only at heq
  split at heq
  · exact .inr (congrArg Prod.fst heq).symm
  · cases heq
    exact .inl hi

theorem eventStream_eq_some {b : Bool} (h : x.eventStream id = some b) : (id, b) ∈ x.handlers := by
  obtain ⟨⟨i, b'⟩, hfind, rfl⟩ := Option.map_eq_some_iff.mp h
  have hid := List.find?_some hfind
  simp only [decide_eq_true_eq] at hid
  exact hid ▸ mem_of_find?_eq_some hfind

end Entry

namespace Call

def connects : Call → Option Nat
  | .find id false | .decide id _ false => some id
  | _ => none

def removes : Call → Option PeerKey
  | .remove key => some key
  | _ => none

def decides : Call → Option (Nat × Nat)
  | .decide id e _ => some (id, e)
  | _ => none

variable {call : Call}

theorem of_inserts {id : Nat} (h : call.inserts = some id) :
    call ≠ .done ∧ call.removes = none ∧ call.connects = none := by
  cases call with
  | add id key | insert id key | existed id key => exact ⟨nofun, rfl, rfl⟩
  | start | visit | find | decide | close | remove | done => cases h

theorem of_removes {key : PeerKey} (h : call.removes = some key) : call = .remove key := by
  cases call with
  | remove k => rw [Option.some.inj h]
  | add | insert | existed | start | visit | find | decide | close | done => cases h

end Call

namespace Sessions

/-- No call is under way. -/
def Quiet (s : Sessions) : Prop := ∀ c, s.calls c = .done

/-- Each window inserted and not closed has exactly one entry, each entry has a window, and an
entry with a started window had exactly one connection thread started. -/
structure Kept (s : Sessions) : Prop where
  window : ∀ id ∈ s.inserted, id ∉ s.closed → ∃! p, p ∈ s.sessions ∧ (s.entries p.2).has id = true
  nonempty : ∀ p ∈ s.sessions, (s.entries p.2).handlers ≠ []
  connected : ∀ p ∈ s.sessions, (∃ id, (s.entries p.2).Started id) → (s.entries p.2).threads = 1

/-- **Every open window keeps its session**, whenever no call is in progress. -/
def WindowsKept (s : Sessions) : Prop := s.Quiet → s.Kept

/-- A new window gets a new id. -/
def Distinct (s : Sessions) : Event → Prop
  | .sessionAdd id _ | .sessionAddExisted id _ => id ∉ s.ids
  | _ => True

/-- The sections that lose nothing: a window is inserted while no close of its peer is between
its two sections, and a window without a connection decides while it is the only one of its
entry and no thread was started for that, or while it is not and one was. -/
def OrderlyCall (s : Sessions) : Call → Prop
  | .insert _ key | .existed _ key => ∀ c < s.begun, s.calls c ≠ .remove key
  | .decide id e false =>
    ((s.entries e).handlers.length = 1 → (s.entries e).threads = 0) ∧
    ((s.entries e).handlers.length ≠ 1 → (s.entries e).has id = true → (s.entries e).threads ≠ 0)
  | _ => True

def Orderly (s : Sessions) : Event → Prop
  | .run c => s.OrderlyCall (s.calls c)
  | _ => True

instance decidableOrderlyCall (s : Sessions) : ∀ call, Decidable (s.OrderlyCall call)
  | .insert _ key => inferInstanceAs (Decidable (∀ c < s.begun, s.calls c ≠ .remove key))
  | .existed _ key => inferInstanceAs (Decidable (∀ c < s.begun, s.calls c ≠ .remove key))
  | .decide _ _ false => inferInstanceAs (Decidable ((_ → _) ∧ (_ → _ → _)))
  | .decide _ _ true | .add .. | .start _ | .visit .. | .find .. | .close _ | .remove _
  | .done => isTrue trivial

instance decidableDistinct (s : Sessions) : ∀ ev, Decidable (s.Distinct ev)
  | .sessionAdd .. => inferInstanceAs (Decidable (¬_))
  | .sessionAddExisted .. => inferInstanceAs (Decidable (¬_))
  | .sessionStart _ | .sessionClose _ | .run _ => isTrue trivial

instance decidableOrderly (s : Sessions) : ∀ ev, Decidable (s.Orderly ev)
  | .run c => decidableOrderlyCall s (s.calls c)
  | .sessionAdd .. | .sessionAddExisted .. | .sessionStart _ | .sessionClose _ => isTrue trivial

structure Placed (s : Sessions) : Prop where
  keys : ∀ k e e', (k, e) ∈ s.sessions → (k, e') ∈ s.sessions → e = e'
  apart : ∀ k k' e, (k, e) ∈ s.sessions → (k', e) ∈ s.sessions → k = k'
  bound : ∀ k e, (k, e) ∈ s.sessions → e < s.count
  mapped : ∀ e id, (s.entries e).has id = true → ∃ k, (k, e) ∈ s.sessions
  single : ∀ e e' id, (s.entries e).has id = true → (s.entries e').has id = true → e = e'
  known : ∀ e id, (s.entries e).has id = true → id ∈ s.inserted
  used : ∀ id ∈ s.inserted, id ∈ s.ids
  kept : ∀ id ∈ s.inserted, id ∉ s.closed → ∃ e, (s.entries e).has id = true

structure Inserting (s : Sessions) : Prop where
  fresh : ∀ c id, (s.calls c).inserts = some id → id ∈ s.ids ∧ id ∉ s.inserted
  alone : ∀ c c' id, (s.calls c).inserts = some id → (s.calls c').inserts = some id → c = c'

structure Removing (s : Sessions) : Prop where
  emptied : ∀ p ∈ s.sessions, (s.entries p.2).handlers = [] → ∃ c, (s.calls c).removes = some p.1
  pending : ∀ c k, (s.calls c).removes = some k →
    ∃ e, (k, e) ∈ s.sessions ∧ (s.entries e).handlers = []
  once : ∀ c c' k, (s.calls c).removes = some k → (s.calls c').removes = some k → c = c'

structure Connecting (s : Sessions) : Prop where
  threads : ∀ e, (s.entries e).threads ≤ 1
  started : ∀ e id, (s.entries e).Started id →
    (s.entries e).threads = 1 ∨ ∃ c, (s.calls c).connects = some id
  deciding : ∀ c id e, (s.calls c).decides = some (id, e) →
    id ∈ s.inserted ∧ ∀ e', (s.entries e').has id = true → e' = e

/-- **The invariant.** -/
structure Sound (s : Sessions) : Prop extends
    Placed s, Inserting s, Removing s, Connecting s where
  idle : ∀ c, s.begun ≤ c → s.calls c = .done

variable {s : Sessions}

theorem Sound.windowsKept (h : s.Sound) : s.WindowsKept := by
  intro hquiet
  refine ⟨fun id hid hopen => ?_, fun p hp hnil => ?_, fun p _ ⟨id, hstarted⟩ => ?_⟩
  · obtain ⟨e, he⟩ := h.kept id hid hopen
    obtain ⟨k, hk⟩ := h.mapped e id he
    refine ⟨(k, e), ⟨hk, he⟩, fun p hp => ?_⟩
    obtain ⟨k', e'⟩ := p
    obtain rfl : e' = e := h.single e' e id hp.2 he
    rw [h.apart k' k e' hp.1 hk]
  · obtain ⟨c, hc⟩ := h.emptied p hp hnil
    rw [hquiet c] at hc
    cases hc
  · rcases h.started p.2 id hstarted with hthread | ⟨c, hc⟩
    · exact hthread
    · rw [hquiet c] at hc
      cases hc

def setCall (s : Sessions) (c : Nat) (next : Call) : Sessions :=
  { s with calls := Function.update s.calls c next }

@[simp] theorem setCall_self (s : Sessions) (c : Nat) (next : Call) :
    (s.setCall c next).calls c = next :=
  Function.update_self ..

theorem setCall_of_ne (s : Sessions) {c c' : Nat} (hne : c' ≠ c) (next : Call) :
    (s.setCall c next).calls c' = s.calls c' :=
  Function.update_of_ne hne ..

variable {next : Call}

theorem of_setCall {c c' : Nat} {P : Call → Prop}
    (h : P ((s.setCall c next).calls c')) : (c' = c ∧ P next) ∨ (c' ≠ c ∧ P (s.calls c')) := by
  by_cases hc : c' = c
  · subst hc
    rw [setCall_self] at h
    exact .inl ⟨rfl, h⟩
  · rw [setCall_of_ne s hc] at h
    exact .inr ⟨hc, h⟩

variable {c : Nat}

theorem Inserting.setCall (h : s.Inserting)
    (hinserts : ∀ id, next.inserts = some id → (s.calls c).inserts = some id) :
    (s.setCall c next).Inserting := by
  have hbefore : ∀ c' id, ((s.setCall c next).calls c').inserts = some id →
      (s.calls c').inserts = some id := by
    intro c' id hid
    rcases of_setCall (P := fun x => x.inserts = some id) hid with ⟨rfl, hnext⟩ | ⟨-, hold⟩
    · exact hinserts id hnext
    · exact hold
  exact ⟨fun c' id hid => h.fresh c' id (hbefore c' id hid),
    fun c₁ c₂ id h₁ h₂ => h.alone c₁ c₂ id (hbefore c₁ id h₁) (hbefore c₂ id h₂)⟩

theorem Removing.setCall (h : s.Removing)
    (hbefore : (s.calls c).removes = none) (hnext : next.removes = none) :
    (s.setCall c next).Removing := by
  have hsame : ∀ c', ((s.setCall c next).calls c').removes = (s.calls c').removes := by
    intro c'
    by_cases hc : c' = c
    · subst hc
      rw [setCall_self, hnext, hbefore]
    · rw [setCall_of_ne s hc]
  refine ⟨fun p hp hnil => ?_, fun c' k hk => ?_, fun c₁ c₂ k h₁ h₂ => ?_⟩
  · obtain ⟨c', hc'⟩ := h.emptied p hp hnil
    exact ⟨c', (hsame c').trans hc'⟩
  · exact h.pending c' k ((hsame c').symm.trans hk)
  · exact h.once c₁ c₂ k ((hsame c₁).symm.trans h₁) ((hsame c₂).symm.trans h₂)

/-- **A call goes on**: the window it was going to connect, it still is, or has a thread. -/
theorem Connecting.setCall (h : s.Connecting)
    (hconnects : ∀ id, (s.calls c).connects = some id → next.connects = some id ∨
      ∀ e, (s.entries e).Started id → (s.entries e).threads = 1)
    (hdecides : ∀ id e, next.decides = some (id, e) →
      id ∈ s.inserted ∧ ∀ e', (s.entries e').has id = true → e' = e) :
    (s.setCall c next).Connecting := by
  refine ⟨h.threads, fun e id hid => ?_, fun c' id e hd => ?_⟩
  · rcases h.started e id hid with hthread | ⟨c', hc'⟩
    · exact .inl hthread
    · by_cases hc : c' = c
      · subst hc
        rcases hconnects id hc' with hstill | hthreads
        · exact .inr ⟨c', by rw [setCall_self]; exact hstill⟩
        · exact .inl (hthreads e hid)
      · exact .inr ⟨c', by rw [setCall_of_ne s hc]; exact hc'⟩
  · rcases of_setCall (P := fun x => x.decides = some (id, e)) hd with ⟨-, hnext⟩ | ⟨-, hold⟩
    · exact hdecides id e hnext
    · exact h.deciding c' id e hold

theorem Sound.idle_setCall (h : s.Sound) (hc : s.calls c ≠ .done)
    (next : Call) : ∀ c', s.begun ≤ c' → (s.setCall c next).calls c' = .done := by
  intro c' hc'
  have hne : c' ≠ c := fun heq => hc (heq ▸ h.idle c' hc')
  rw [setCall_of_ne s hne]
  exact h.idle c' hc'

theorem Sound.setCall (h : s.Sound) (hc : s.calls c ≠ .done)
    (hinserts : ∀ id, next.inserts = some id → (s.calls c).inserts = some id)
    (hbefore : (s.calls c).removes = none) (hnext : next.removes = none)
    (hconnects : ∀ id, (s.calls c).connects = some id → next.connects = some id ∨
      ∀ e, (s.entries e).Started id → (s.entries e).threads = 1)
    (hdecides : ∀ id e, next.decides = some (id, e) →
      id ∈ s.inserted ∧ ∀ e', (s.entries e').has id = true → e' = e) :
    (s.setCall c next).Sound where
  toPlaced := ⟨h.keys, h.apart, h.bound, h.mapped, h.single, h.known, h.used, h.kept⟩
  toInserting := h.toInserting.setCall hinserts
  toRemoving := h.toRemoving.setCall hbefore hnext
  toConnecting := h.toConnecting.setCall hconnects hdecides
  idle := h.idle_setCall hc next

@[simp] theorem modify_self (s : Sessions) (e : Nat) (f : Entry → Entry) :
    (s.modify e f).entries e = f (s.entries e) :=
  Function.update_self ..

theorem modify_of_ne (s : Sessions) {e e' : Nat} (hne : e' ≠ e) (f : Entry → Entry) :
    (s.modify e f).entries e' = s.entries e' :=
  Function.update_of_ne hne ..

variable {f : Entry → Entry}

theorem forall_modify {s : Sessions} {e : Nat}
    {P : Nat → Entry → Entry → Prop} (hself : P e (s.entries e) (f (s.entries e)))
    (hothers : ∀ e', e' ≠ e → P e' (s.entries e') (s.entries e')) :
    ∀ e', P e' (s.entries e') ((s.modify e f).entries e') := by
  intro e'
  by_cases he : e' = e
  · subst he
    rw [modify_self]
    exact hself
  · rw [modify_of_ne s he]
    exact hothers e' he

variable {key : PeerKey} {e : Nat}

theorem get_eq_some (h : s.get key = some e) : (key, e) ∈ s.sessions := by
  obtain ⟨⟨k, e'⟩, hfind, rfl⟩ := Option.map_eq_some_iff.mp h
  have hkey := List.find?_some hfind
  simp only [decide_eq_true_eq] at hkey
  exact hkey ▸ mem_of_find?_eq_some hfind

theorem get_eq_none (h : s.get key = none) (e : Nat) : (key, e) ∉ s.sessions := by
  intro hmem
  have hnone := List.find?_eq_none.mp (Option.map_eq_none_iff.mp h) (key, e) hmem
  simp at hnone

theorem getSession_eq_some {id : Nat} {p : PeerKey × Nat}
    (h : s.getSessionBySessionId id = some p) : p ∈ s.sessions ∧ (s.entries p.2).has id = true :=
  ⟨mem_of_find?_eq_some h, List.find?_some (p := fun q : PeerKey × Nat => (s.entries q.2).has id) h⟩

theorem Placed.getSession_eq_none (h : s.Placed) {id : Nat}
    (hnone : s.getSessionBySessionId id = none) (e : Nat) : (s.entries e).has id ≠ true := by
  intro hhas
  obtain ⟨k, hk⟩ := h.mapped e id hhas
  exact List.find?_eq_none.mp hnone (k, e) hk hhas

theorem Placed.modify (h : s.Placed)
    (hf : ∀ id, (f (s.entries e)).has id = true ↔ (s.entries e).has id = true) :
    (s.modify e f).Placed := by
  have hsame : ∀ e' id, ((s.modify e f).entries e').has id = true ↔
      (s.entries e').has id = true := fun e' id =>
    forall_modify (P := fun _ x y => y.has id = true ↔ x.has id = true) (hf id)
      (fun _ _ => Iff.rfl) e'
  refine ⟨h.keys, h.apart, h.bound, fun e' id hid => h.mapped e' id ((hsame e' id).mp hid),
    fun e₁ e₂ id h₁ h₂ => h.single e₁ e₂ id ((hsame e₁ id).mp h₁) ((hsame e₂ id).mp h₂),
    fun e' id hid => h.known e' id ((hsame e' id).mp hid), h.used, fun id hid hopen => ?_⟩
  obtain ⟨e', he'⟩ := h.kept id hid hopen
  exact ⟨e', (hsame e' id).mpr he'⟩

theorem Removing.modify (h : s.Removing)
    (hf : (f (s.entries e)).handlers = [] ↔ (s.entries e).handlers = []) :
    (s.modify e f).Removing := by
  have hsame : ∀ e', ((s.modify e f).entries e').handlers = [] ↔ (s.entries e').handlers = [] :=
    forall_modify (P := fun _ x y => y.handlers = [] ↔ x.handlers = []) hf (fun _ _ => Iff.rfl)
  refine ⟨fun p hp hnil => h.emptied p hp ((hsame p.2).mp hnil), fun c k hk => ?_, h.once⟩
  obtain ⟨e', he', hnil⟩ := h.pending c k hk
  exact ⟨e', he', (hsame e').mpr hnil⟩

theorem Sound.setEventStream (h : s.Sound) {e id : Nat}
    (hcall : (s.entries e).Started id ∨ ∃ c, (s.calls c).connects = some id) :
    (s.modify e (·.setEventStream id)).Sound := by
  have hhas : ∀ e' j, ((s.modify e (·.setEventStream id)).entries e').has j = true ↔
      (s.entries e').has j = true := fun e' j =>
    forall_modify (P := fun _ x y => y.has j = true ↔ x.has j = true)
      (Entry.has_setEventStream _ id j) (fun _ _ => Iff.rfl) e'
  have hthreads : ∀ e', ((s.modify e (·.setEventStream id)).entries e').threads =
      (s.entries e').threads :=
    forall_modify (P := fun _ x y => y.threads = x.threads) rfl (fun _ _ => rfl)
  refine ⟨h.toPlaced.modify fun j => Entry.has_setEventStream _ id j,
    ⟨h.fresh, h.alone⟩, h.toRemoving.modify (by simp [Entry.setEventStream]),
    ⟨fun e' => (hthreads e').symm ▸ h.threads e', fun e' j hj => ?_, fun c j e' hd => ?_⟩, h.idle⟩
  · rw [hthreads]
    by_cases he : e' = e
    · subst he
      rw [modify_self] at hj
      rcases Entry.Started.of_setEventStream hj with hold | rfl
      · exact h.started e' j hold
      · rcases hcall with hstarted | hsome
        · exact h.started e' j hstarted
        · exact .inr hsome
    · rw [modify_of_ne s he] at hj
      exact h.started e' j hj
  · obtain ⟨hinserted, honly⟩ := h.deciding c j e' hd
    exact ⟨hinserted, fun e'' he'' => honly e'' ((hhas e'' j).mp he'')⟩

theorem Sound.spawn (h : s.Sound) (hnone : (s.entries e).threads = 0) :
    (s.modify e (·.spawn)).Sound := by
  have hhas : ∀ e' j, ((s.modify e (·.spawn)).entries e').has j = true ↔
      (s.entries e').has j = true := fun e' j =>
    forall_modify (P := fun _ x y => y.has j = true ↔ x.has j = true) Iff.rfl
      (fun _ _ => Iff.rfl) e'
  refine ⟨h.toPlaced.modify fun _ => Iff.rfl, ⟨h.fresh, h.alone⟩, h.toRemoving.modify Iff.rfl,
    ⟨fun e' => ?_, fun e' j hj => ?_, fun c j e' hd => ?_⟩, h.idle⟩
  · by_cases he : e' = e
    · subst he
      refine Nat.le_of_eq ?_
      rw [modify_self, Entry.spawn, hnone]
    · rw [modify_of_ne s he]
      exact h.threads e'
  · by_cases he : e' = e
    · subst he
      left
      rw [modify_self, Entry.spawn, hnone]
    · rw [modify_of_ne s he] at hj ⊢
      exact h.started e' j hj
  · obtain ⟨hinserted, honly⟩ := h.deciding c j e' hd
    exact ⟨hinserted, fun e'' he'' => honly e'' ((hhas e'' j).mp he'')⟩

theorem insertHandler_self (s : Sessions) (e id : Nat) :
    (s.insertHandler e id).entries e = (s.entries e).insert id :=
  modify_self s e (·.insert id)

theorem insertHandler_of_ne (s : Sessions) {e e' : Nat} (hne : e' ≠ e) (id : Nat) :
    (s.insertHandler e id).entries e' = s.entries e' :=
  modify_of_ne s hne (·.insert id)

/-- **A window is inserted** into a session of the table, the only one that may have been
without windows.  Its id is new, and no close of the peer is under way. -/
theorem Placed.insertHandler (hplaced : s.Placed) (hinserting : s.Inserting)
    (hconnecting : s.Connecting) (hidle : ∀ c, s.begun ≤ c → s.calls c = .done) {e id : Nat}
    (he : (key, e) ∈ s.sessions)
    (hemptied : ∀ p ∈ s.sessions, p.2 ≠ e → (s.entries p.2).handlers = [] →
      ∃ c, (s.calls c).removes = some p.1)
    (hpending : ∀ c k, (s.calls c).removes = some k →
      k ≠ key ∧ ∃ e, (k, e) ∈ s.sessions ∧ (s.entries e).handlers = [])
    (honce : ∀ c c' k, (s.calls c).removes = some k → (s.calls c').removes = some k → c = c')
    (hgiven : id ∈ s.ids) (hnew : id ∉ s.inserted) (hfree : ∀ c, (s.calls c).inserts ≠ some id) :
    (s.insertHandler e id).Sound := by
  have hhas : ∀ e' j, ((s.modify e (·.insert id)).entries e').has j = true ↔
      (s.entries e').has j = true ∨ (e' = e ∧ j = id) := by
    intro e' j
    by_cases he' : e' = e
    · subst he'
      rw [modify_self, Entry.has_insert]
      simp
    · rw [modify_of_ne s he']
      simp [he']
  have hnowhere : ∀ e', (s.entries e').has id ≠ true := fun e' hid => hnew (hplaced.known e' id hid)
  refine ⟨⟨hplaced.keys, hplaced.apart, hplaced.bound, fun e' j hj => ?_,
    fun e₁ e₂ j h₁ h₂ => ?_, fun e' j hj => ?_, fun j hj => ?_, fun j hj hopen => ?_⟩,
    ⟨fun c j hj => ?_, hinserting.alone⟩, ⟨fun p hp hnil => ?_, fun c k hk => ?_, honce⟩,
    ⟨fun e' => ?_, fun e' j hj => ?_, fun c j e' hd => ?_⟩, hidle⟩
  · rcases (hhas e' j).mp hj with hold | ⟨rfl, -⟩
    · exact hplaced.mapped e' j hold
    · exact ⟨key, he⟩
  · rcases (hhas e₁ j).mp h₁ with hold₁ | ⟨rfl, rfl⟩
    · rcases (hhas e₂ j).mp h₂ with hold₂ | ⟨rfl, rfl⟩
      · exact hplaced.single e₁ e₂ j hold₁ hold₂
      · exact absurd hold₁ (hnowhere e₁)
    · rcases (hhas e₂ j).mp h₂ with hold₂ | ⟨rfl, -⟩
      · exact absurd hold₂ (hnowhere e₂)
      · rfl
  · rcases (hhas e' j).mp hj with hold | ⟨-, rfl⟩
    · exact mem_append_left _ (hplaced.known e' j hold)
    · exact mem_append_right _ (mem_singleton.mpr rfl)
  · rcases mem_append.mp hj with hold | hlast
    · exact hplaced.used j hold
    · rw [mem_singleton.mp hlast]
      exact hgiven
  · rcases mem_append.mp hj with hold | hlast
    · obtain ⟨e', he'⟩ := hplaced.kept j hold hopen
      exact ⟨e', (hhas e' j).mpr (.inl he')⟩
    · exact ⟨e, (hhas e j).mpr (.inr ⟨rfl, mem_singleton.mp hlast⟩)⟩
  · obtain ⟨hids, hnot⟩ := hinserting.fresh c j hj
    refine ⟨hids, fun hmem => ?_⟩
    rcases mem_append.mp hmem with hold | hlast
    · exact hnot hold
    · exact hfree c (mem_singleton.mp hlast ▸ hj)
  · by_cases hpe : p.2 = e
    · have hinside : ((s.modify e (·.insert id)).entries p.2).has id = true :=
        (hhas p.2 id).mpr (.inr ⟨hpe, rfl⟩)
      exact absurd hnil (Entry.has_ne_nil hinside)
    · rw [insertHandler_of_ne s hpe] at hnil
      exact hemptied p hp hpe hnil
  · obtain ⟨hother, e', he', hnil⟩ := hpending c k hk
    have hne : e' ≠ e := fun heq => hother (hplaced.apart k key e' he' (heq ▸ he))
    exact ⟨e', he', by rw [insertHandler_of_ne s hne]; exact hnil⟩
  · have hthreads : ((s.insertHandler e id).entries e').threads = (s.entries e').threads :=
      forall_modify (f := (·.insert id)) (P := fun _ x y => y.threads = x.threads) rfl
        (fun _ _ => rfl) e'
    rw [hthreads]
    exact hconnecting.threads e'
  · by_cases he' : e' = e
    · subst he'
      rw [insertHandler_self] at hj ⊢
      exact hconnecting.started e' j hj.of_insert
    · rw [insertHandler_of_ne s he'] at hj ⊢
      exact hconnecting.started e' j hj
  · obtain ⟨hinserted, honly⟩ := hconnecting.deciding c j e' hd
    refine ⟨mem_append_left _ hinserted, fun e'' he'' => ?_⟩
    rcases (hhas e'' j).mp he'' with hold | ⟨-, rfl⟩
    · exact honly e'' hold
    · exact absurd hinserted hnew

def addSession (s : Sessions) (key : PeerKey) : Sessions :=
  { s with
    sessions := s.sessions ++ [(key, s.count)]
    entries := Function.update s.entries s.count .new
    count := s.count + 1 }

theorem mem_addSession {key k : PeerKey} :
    (k, e) ∈ (s.addSession key).sessions ↔ (k, e) ∈ s.sessions ∨ (k = key ∧ e = s.count) := by
  simp [addSession]

theorem addSession_of_ne (s : Sessions) (key : PeerKey) (hne : e ≠ s.count) :
    (s.addSession key).entries e = s.entries e :=
  Function.update_of_ne hne ..

theorem addSession_count (s : Sessions) (key : PeerKey) :
    (s.addSession key).entries s.count = .new :=
  Function.update_self ..

theorem Placed.lt_of_has (h : s.Placed) {e id : Nat}
    (hid : (s.entries e).has id = true) : e < s.count := by
  obtain ⟨k, hk⟩ := h.mapped e id hid
  exact h.bound k e hk

theorem Placed.has_addSession (h : s.Placed) (key : PeerKey) (e id : Nat) :
    ((s.addSession key).entries e).has id = true ↔ (s.entries e).has id = true := by
  by_cases he : e = s.count
  · subst he
    rw [addSession_count]
    exact ⟨fun hid => by simp [Entry.has, Entry.new] at hid,
      fun hid => absurd (h.lt_of_has hid) (Nat.lt_irrefl _)⟩
  · rw [addSession_of_ne s key he]

theorem Placed.addSession (h : s.Placed)
    (hnokey : ∀ e, (key, e) ∉ s.sessions) : (s.addSession key).Placed where
  keys k e e' he he' := by
    rcases mem_addSession.mp he with hold | ⟨rfl, rfl⟩
    · rcases mem_addSession.mp he' with hold' | ⟨rfl, rfl⟩
      · exact h.keys k e e' hold hold'
      · exact absurd hold (hnokey e)
    · rcases mem_addSession.mp he' with hold' | ⟨-, rfl⟩
      · exact absurd hold' (hnokey e')
      · rfl
  apart k k' e he he' := by
    rcases mem_addSession.mp he with hold | ⟨rfl, rfl⟩
    · rcases mem_addSession.mp he' with hold' | ⟨rfl, rfl⟩
      · exact h.apart k k' e hold hold'
      · exact absurd (h.bound k _ hold) (Nat.lt_irrefl _)
    · rcases mem_addSession.mp he' with hold' | ⟨rfl, -⟩
      · exact absurd (h.bound k' _ hold') (Nat.lt_irrefl _)
      · rfl
  bound k e he := by
    rcases mem_addSession.mp he with hold | ⟨-, rfl⟩
    · exact Nat.lt_succ_of_lt (h.bound k e hold)
    · exact Nat.lt_succ_self _
  mapped e id hid := by
    obtain ⟨k, hk⟩ := h.mapped e id ((h.has_addSession key e id).mp hid)
    exact ⟨k, mem_addSession.mpr (.inl hk)⟩
  single e e' id hid hid' :=
    h.single e e' id ((h.has_addSession key e id).mp hid) ((h.has_addSession key e' id).mp hid')
  known e id hid := h.known e id ((h.has_addSession key e id).mp hid)
  used := h.used
  kept id hid hopen := by
    obtain ⟨e, he⟩ := h.kept id hid hopen
    exact ⟨e, (h.has_addSession key e id).mpr he⟩

theorem Sound.connecting_addSession (h : s.Sound) (key : PeerKey) :
    (s.addSession key).Connecting where
  threads e := by
    by_cases he : e = s.count
    · subst he
      rw [addSession_count]
      exact Nat.zero_le 1
    · rw [addSession_of_ne s key he]
      exact h.threads e
  started e id hid := by
    by_cases he : e = s.count
    · subst he
      rw [addSession_count] at hid
      cases hid
    · rw [addSession_of_ne s key he] at hid ⊢
      exact h.started e id hid
  deciding c id e hd := by
    obtain ⟨hinserted, honly⟩ := h.deciding c id e hd
    exact ⟨hinserted, fun e' he' => honly e' ((h.toPlaced.has_addSession key e' id).mp he')⟩

/-- **A window is inserted** into the session of its peer, which is there or is made. -/
theorem Sound.insertSession (h : s.Sound) {id : Nat}
    (hgiven : id ∈ s.ids) (hnew : id ∉ s.inserted) (hfree : ∀ c, (s.calls c).inserts ≠ some id)
    (hcalm : ∀ c, (s.calls c).removes ≠ some key) : (s.insertSession id key).Sound := by
  have hother : ∀ c k, (s.calls c).removes = some k → k ≠ key :=
    fun c k hk heq => hcalm c (heq ▸ hk)
  unfold Sessions.insertSession
  split
  case h_1 e hget =>
    exact h.toPlaced.insertHandler h.toInserting h.toConnecting h.idle (get_eq_some hget)
      (fun p hp _ => h.emptied p hp) (fun c k hk => ⟨hother c k hk, h.pending c k hk⟩) h.once
      hgiven hnew hfree
  case h_2 hget =>
    -- the new session has no window yet, and all the others are as before
    refine (h.toPlaced.addSession (get_eq_none hget)).insertHandler
      ⟨h.fresh, h.alone⟩ (h.connecting_addSession key) h.idle
      (mem_addSession.mpr (.inr ⟨rfl, rfl⟩)) (fun p hp hpe hnil => ?_)
      (fun c k hk => ⟨hother c k hk, ?_⟩) h.once hgiven hnew hfree
    · rw [addSession_of_ne s key hpe] at hnil
      rcases mem_addSession.mp hp with hold | ⟨-, heq⟩
      · exact h.emptied p hold hnil
      · exact absurd heq hpe
    · obtain ⟨e, he, hnil⟩ := h.pending c k hk
      have hne : e ≠ s.count := Nat.ne_of_lt (h.bound k e he)
      exact ⟨e, mem_addSession.mpr (.inl he), by rw [addSession_of_ne s key hne]; exact hnil⟩

theorem removeHandler_self (s : Sessions) (e id : Nat) :
    (s.removeHandler e id).entries e = (s.entries e).remove id :=
  modify_self s e (·.remove id)

theorem Sound.pending_other (h : s.Sound) {c id e : Nat} (hid : (s.entries e).has id = true)
    (hk : (s.calls c).removes = some key) :
    ∃ e', (key, e') ∈ s.sessions ∧ (s.entries e').handlers = [] ∧ e' ≠ e := by
  obtain ⟨e', he', hnil⟩ := h.pending c key hk
  exact ⟨e', he', hnil, fun heq => Entry.has_ne_nil hid (heq ▸ hnil)⟩

theorem Sound.not_pending (h : s.Sound) {id e : Nat} (he : (key, e) ∈ s.sessions)
    (hid : (s.entries e).has id = true) (c : Nat) : (s.calls c).removes ≠ some key := by
  intro hk
  obtain ⟨e', he', -, hne⟩ := h.pending_other hid hk
  exact hne (h.keys key e' e he' he)

/-- **A handler is removed**, and the call goes on to remove the entry if it was the last. -/
theorem Sound.removeHandler (h : s.Sound) {c id e : Nat} (he : (key, e) ∈ s.sessions)
    (hid : (s.entries e).has id = true) (hc : s.calls c = .close id)
    (hempty : ((s.entries e).remove id).handlers = [] → next = .remove key)
    (hsome : ((s.entries e).remove id).handlers ≠ [] → next = .done) :
    ((s.removeHandler e id).setCall c next).Sound := by
  have hhas : ∀ e' j, ((s.modify e (·.remove id)).entries e').has j = true →
      (s.entries e').has j = true := fun e' j =>
    forall_modify (P := fun _ x y => y.has j = true → x.has j = true)
      (fun hj => ((Entry.has_remove _ id j).mp hj).1) (fun _ _ hj => hj) e'
  have hstays : ∀ e' j, j ≠ id → (s.entries e').has j = true →
      ((s.modify e (·.remove id)).entries e').has j = true := fun e' j hne =>
    forall_modify (P := fun _ x y => x.has j = true → y.has j = true)
      (fun hj => (Entry.has_remove _ id j).mpr ⟨hj, hne⟩) (fun _ _ hj => hj) e'
  have hnext : next = .remove key ∨ next = .done := by
    by_cases hnil : ((s.entries e).remove id).handlers = []
    · exact .inl (hempty hnil)
    · exact .inr (hsome hnil)
  have hkey : ∀ k, next.removes = some k → k = key ∧ ((s.entries e).remove id).handlers = [] := by
    intro k hk
    by_cases hnil : ((s.entries e).remove id).handlers = []
    · rw [hempty hnil] at hk
      exact ⟨(Option.some.inj hk).symm, hnil⟩
    · rw [hsome hnil] at hk
      cases hk
  have hinserting : (s.setCall c next).Inserting := by
    refine h.toInserting.setCall fun j hj => ?_
    rcases hnext with rfl | rfl <;> cases hj
  refine ⟨⟨h.keys, h.apart, h.bound, fun e' j hj => h.mapped e' j (hhas e' j hj),
    fun e₁ e₂ j h₁ h₂ => h.single e₁ e₂ j (hhas e₁ j h₁) (hhas e₂ j h₂),
    fun e' j hj => h.known e' j (hhas e' j hj), h.used, fun j hj hopen => ?_⟩,
    ⟨hinserting.fresh, hinserting.alone⟩, ⟨fun p hp hnil => ?_, fun c' k hk => ?_,
    fun c₁ c₂ k h₁ h₂ => ?_⟩, ?_, h.idle_setCall (by rw [hc]; nofun) next⟩
  · have hne : j ≠ id := fun heq =>
      hopen (mem_append_right _ (mem_singleton.mpr heq))
    obtain ⟨e', he'⟩ := h.kept j hj fun hmem => hopen (mem_append_left _ hmem)
    exact ⟨e', hstays e' j hne he'⟩
  · by_cases hpe : p.2 = e
    · obtain ⟨k, e'⟩ := p
      obtain rfl : e' = e := hpe
      obtain rfl : k = key := h.apart k key e' hp he
      have hlast : ((s.entries e').remove id).handlers = [] :=
        (congrArg Entry.handlers (modify_self s e' (·.remove id))).symm.trans hnil
      exact ⟨c, by rw [setCall_self, hempty hlast]; rfl⟩
    · have hold : (s.entries p.2).handlers = [] :=
        (congrArg Entry.handlers (modify_of_ne s hpe (·.remove id))).symm.trans hnil
      obtain ⟨c', hc'⟩ := h.emptied p hp hold
      have hne : c' ≠ c := fun heq => by rw [heq, hc] at hc'; cases hc'
      exact ⟨c', by rw [setCall_of_ne _ hne]; exact hc'⟩
  · rcases of_setCall (P := fun x => x.removes = some k) hk with ⟨-, hself⟩ | ⟨-, hother⟩
    · obtain ⟨rfl, hnil⟩ := hkey k hself
      exact ⟨e, he, (congrArg Entry.handlers (modify_self s e (·.remove id))).trans hnil⟩
    · obtain ⟨e', he', hnil, hne⟩ := h.pending_other hid hother
      exact ⟨e', he', (congrArg Entry.handlers (modify_of_ne s hne (·.remove id))).trans hnil⟩
  · rcases of_setCall (P := fun x => x.removes = some k) h₁ with ⟨rfl, hk₁⟩ | ⟨-, hk₁⟩
    · rcases of_setCall (P := fun x => x.removes = some k) h₂ with ⟨rfl, -⟩ | ⟨-, hk₂⟩
      · rfl
      · exact absurd ((hkey k hk₁).1 ▸ hk₂) (h.not_pending he hid c₂)
    · rcases of_setCall (P := fun x => x.removes = some k) h₂ with ⟨rfl, hk₂⟩ | ⟨-, hk₂⟩
      · exact absurd ((hkey k hk₂).1 ▸ hk₁) (h.not_pending he hid c₁)
      · exact h.once c₁ c₂ k hk₁ hk₂
  · have hthreads : ∀ e', ((s.removeHandler e id).entries e').threads =
        (s.entries e').threads :=
      forall_modify (f := (·.remove id)) (P := fun _ x y => y.threads = x.threads) rfl
        (fun _ _ => rfl)
    have hstarted : ∀ e' j, ((s.removeHandler e id).entries e').Started j →
        (s.entries e').Started j := fun e' j =>
      forall_modify (f := (·.remove id)) (P := fun _ x y => y.Started j → x.Started j)
        Entry.Started.of_remove (fun _ _ hj => hj) e'
    refine Connecting.setCall (s := s.removeHandler e id)
      ⟨fun e' => (hthreads e').symm ▸ h.threads e', fun e' j hj => ?_, fun c' j e' hd => ?_⟩
      (fun j hj => ?_) (fun j e' hd => ?_)
    · rw [hthreads]
      exact h.started e' j (hstarted e' j hj)
    · obtain ⟨hinserted, honly⟩ := h.deciding c' j e' hd
      exact ⟨hinserted, fun e'' he'' => honly e'' (hhas e'' j he'')⟩
    · have hclose : (s.calls c).connects = some j := hj
      rw [hc] at hclose
      cases hclose
    · rcases hnext with rfl | rfl <;> cases hd

theorem Sound.removeEntry (h : s.Sound) (hc : s.calls c = .remove key) :
    Sound (({ s with sessions := s.sessions.filter (·.1 ≠ key) } : Sessions).setCall c .done) := by
  obtain ⟨e, he, hnil⟩ := h.pending c key (by rw [hc]; rfl)
  have hinserting : (s.setCall c .done).Inserting := h.toInserting.setCall nofun
  have hconnecting : (s.setCall c .done).Connecting := by
    refine h.toConnecting.setCall (fun id hid => ?_) nofun
    rw [hc] at hid
    cases hid
  have hmem : ∀ p : PeerKey × Nat, p ∈ s.sessions.filter (·.1 ≠ key) ↔
      p ∈ s.sessions ∧ p.1 ≠ key := by simp
  have hcalls : ∀ c' k, (((s.setCall c .done).calls c').removes = some k ↔
      (s.calls c').removes = some k ∧ k ≠ key) := by
    intro c' k
    by_cases heq : c' = c
    · subst heq
      rw [setCall_self, hc]
      exact ⟨nofun, fun ⟨hk, hne⟩ => absurd (Option.some.inj hk).symm hne⟩
    · rw [setCall_of_ne s heq]
      refine ⟨fun hk => ⟨hk, fun hkey => heq ?_⟩, fun hk => hk.1⟩
      exact h.once c' c key (hkey ▸ hk) (by rw [hc]; rfl)
  refine ⟨⟨fun k e₁ e₂ h₁ h₂ => h.keys k e₁ e₂ ((hmem _).mp h₁).1 ((hmem _).mp h₂).1,
    fun k₁ k₂ e' h₁ h₂ => h.apart k₁ k₂ e' ((hmem _).mp h₁).1 ((hmem _).mp h₂).1,
    fun k e' he' => h.bound k e' ((hmem _).mp he').1, fun e' id hid => ?_, h.single, h.known,
    h.used, h.kept⟩, ⟨hinserting.fresh, hinserting.alone⟩, ⟨fun p hp hnil' => ?_,
    fun c' k hk => ?_, fun c₁ c₂ k h₁ h₂ => ?_⟩,
    ⟨hconnecting.threads, hconnecting.started, hconnecting.deciding⟩,
    h.idle_setCall (by rw [hc]; nofun) .done⟩
  · obtain ⟨k, hk⟩ := h.mapped e' id hid
    refine ⟨k, (hmem _).mpr ⟨hk, fun hkey => Entry.has_ne_nil hid ?_⟩⟩
    obtain rfl : e' = e := h.keys key e' e (hkey ▸ hk) he
    exact hnil
  · obtain ⟨hold, hne⟩ := (hmem p).mp hp
    obtain ⟨c', hc'⟩ := h.emptied p hold hnil'
    exact ⟨c', (hcalls c' p.1).mpr ⟨hc', hne⟩⟩
  · obtain ⟨hold, hne⟩ := (hcalls c' k).mp hk
    obtain ⟨e', he', hnil'⟩ := h.pending c' k hold
    exact ⟨e', (hmem _).mpr ⟨he', hne⟩, hnil'⟩
  · exact h.once c₁ c₂ k ((hcalls c₁ k).mp h₁).1 ((hcalls c₂ k).mp h₂).1

theorem Sound.beginCall (h : s.Sound) {call : Call}
    (hnew : ∀ id, call.inserts = some id → id ∉ s.ids) (hremoves : call.removes = none)
    (hdecides : call.decides = none) : (s.beginCall call).Sound := by
  have hidle : s.calls s.begun = .done := h.idle s.begun (Nat.le_refl _)
  have hids : ∀ id ∈ s.ids, id ∈ s.ids ++ call.inserts.toList := fun id hid => mem_append_left _ hid
  have hinserts : ∀ c id, ((s.setCall s.begun call).calls c).inserts = some id →
      (c = s.begun ∧ call.inserts = some id) ∨ (s.calls c).inserts = some id := by
    intro c id hid
    rcases of_setCall (P := fun x => x.inserts = some id) hid with hself | ⟨-, hold⟩
    · exact .inl hself
    · exact .inr hold
  have hremoving : (s.setCall s.begun call).Removing :=
    h.toRemoving.setCall (by rw [hidle]; rfl) hremoves
  have hconnecting : (s.setCall s.begun call).Connecting := by
    refine h.toConnecting.setCall (fun id hid => ?_) (fun id e hd => ?_)
    · rw [hidle] at hid
      cases hid
    · rw [hdecides] at hd
      cases hd
  refine ⟨⟨h.keys, h.apart, h.bound, h.mapped, h.single, h.known,
    fun id hid => hids id (h.used id hid), h.kept⟩, ⟨fun c id hid => ?_, fun c₁ c₂ id h₁ h₂ => ?_⟩,
    ⟨hremoving.emptied, hremoving.pending, hremoving.once⟩,
    ⟨hconnecting.threads, hconnecting.started, hconnecting.deciding⟩, fun c hle => ?_⟩
  · rcases hinserts c id hid with ⟨-, hcall⟩ | hold
    · refine ⟨mem_append_right _ (by simp [hcall]), fun hmem => ?_⟩
      exact hnew id hcall (h.used id hmem)
    · exact ⟨hids id (h.fresh c id hold).1, (h.fresh c id hold).2⟩
  · rcases hinserts c₁ id h₁ with ⟨rfl, hcall₁⟩ | hold₁
    · rcases hinserts c₂ id h₂ with ⟨rfl, -⟩ | hold₂
      · rfl
      · exact absurd (h.fresh c₂ id hold₂).1 (hnew id hcall₁)
    · rcases hinserts c₂ id h₂ with ⟨rfl, hcall₂⟩ | hold₂
      · exact absurd (h.fresh c₁ id hold₁).1 (hnew id hcall₂)
      · exact h.alone c₁ c₂ id hold₁ hold₂
  · have hlt : s.begun < c := hle
    exact (setCall_of_ne s (Nat.ne_of_gt hlt) call).trans (h.idle c (Nat.le_of_lt hlt))

theorem setCall_done (hc : s.calls c = .done) : s.setCall c .done = s := by
  unfold Sessions.setCall
  rw [← hc, Function.update_eq_self]

theorem insertSession_setCall (s : Sessions) (id : Nat) (key : PeerKey) (c : Nat) (next : Call) :
    (s.insertSession id key).setCall c next = (s.setCall c next).insertSession id key := by
  have hget : (s.setCall c next).get key = s.get key := rfl
  unfold Sessions.insertSession
  rw [hget]
  cases s.get key <;> rfl

theorem Sound.inserted (h : s.Sound) {c id : Nat}
    (hc : (s.calls c).inserts = some id) (hcalm : ∀ c' < s.begun, s.calls c' ≠ .remove key) :
    ((s.insertSession id key).setCall c .done).Sound := by
  obtain ⟨hnot, hremoves, hconnects⟩ := Call.of_inserts hc
  have hdone : (s.setCall c .done).Sound :=
    h.setCall hnot nofun hremoves rfl (fun j hj => by rw [hconnects] at hj; cases hj) nofun
  rw [insertSession_setCall]
  refine hdone.insertSession (h.fresh c id hc).1 (h.fresh c id hc).2 (fun c' hc' => ?_)
    (fun c' hc' => ?_)
  · rcases of_setCall (P := fun x => x.inserts = some id) hc' with ⟨-, hself⟩ | ⟨hne, hother⟩
    · cases hself
    · exact hne (h.alone c' c id hother hc)
  · rcases of_setCall (P := fun x => x.removes = some key) hc' with ⟨-, hself⟩ | ⟨-, hother⟩
    · cases hself
    · rcases Nat.lt_or_ge c' s.begun with hlt | hge
      · exact hcalm c' hlt (Call.of_removes hother)
      · rw [h.idle c' hge] at hother
        cases hother

theorem Sound.decided (h : s.Sound) {c id e : Nat} {b : Bool}
    (hc : s.calls c = .decide id e b) (horderly : s.OrderlyCall (.decide id e b)) :
    (s.run c).Sound := by
  obtain ⟨-, honly⟩ := h.deciding c id e (by rw [hc]; rfl)
  have hnot : s.calls c ≠ .done := by rw [hc]; nofun
  have hremoves : (s.calls c).removes = none := by rw [hc]; rfl
  unfold Sessions.run nextSection
  rw [hc]
  cases b with
  | true =>
    exact h.setCall hnot nofun hremoves rfl (fun j hj => by rw [hc] at hj; cases hj) nofun
  | false =>
    have hself : ∀ j, (s.calls c).connects = some j → j = id := by
      intro j hj
      rw [hc] at hj
      exact (Option.some.inj hj).symm
    by_cases hone : (s.entries e).handlers.length = 1
    · simp only [hone, decide_true, Bool.not_false, Bool.and_self, if_true]
      refine (h.spawn (horderly.1 hone)).setCall hnot nofun hremoves rfl
        (fun j hj => .inr fun e' he' => ?_) nofun
      obtain rfl := hself j hj
      by_cases hne : e' = e
      · subst hne
        rw [modify_self, Entry.spawn, horderly.1 hone]
      · rw [modify_of_ne s hne] at he'
        exact absurd (honly e' he'.has) hne
    · simp only [hone, decide_false, Bool.and_false]
      refine h.setCall hnot nofun hremoves rfl (fun j hj => .inr fun e' he' => ?_) nofun
      obtain rfl := hself j hj
      obtain rfl : e' = e := honly e' he'.has
      have hsome := horderly.2 hone he'.has
      have hle := h.threads e'
      omega

theorem run_eq {s t : Sessions} {n : Call}
    (h : s.nextSection (s.calls c) = (t, n)) : s.run c = t.setCall c n := by
  unfold Sessions.run
  rw [h]
  rfl

theorem Sound.moved (h : s.Sound) {call next : Call}
    (hc : s.calls c = call) (hnot : call ≠ .done) (hremoves : call.removes = none)
    (hconnects : call.connects = none) (hinserts : next.inserts = none)
    (hnext : next.removes = none) (hdecides : next.decides = none) : (s.setCall c next).Sound := by
  subst hc
  refine h.setCall hnot (fun id hid => ?_) hremoves hnext (fun id hid => ?_) (fun id e hd => ?_)
  · rw [hinserts] at hid
    cases hid
  · rw [hconnects] at hid
    cases hid
  · rw [hdecides] at hd
    cases hd

theorem Sound.visited (h : s.Sound) {c id : Nat} {snapshot : List Nat}
    (hc : s.calls c = .visit id snapshot) : (s.run c).Sound := by
  cases snapshot with
  | nil =>
    rw [run_eq (t := s) (n := .done) (by rw [hc]; rfl)]
    exact h.moved hc nofun rfl rfl rfl rfl rfl
  | cons e rest =>
    cases hstream : (s.entries e).eventStream id with
    | none =>
      rw [run_eq (t := s) (n := .visit id rest) (by rw [hc]; simp [nextSection, hstream])]
      exact h.moved hc nofun rfl rfl rfl rfl rfl
    | some b =>
      rw [run_eq (t := s.modify e (·.setEventStream id)) (n := .find id b)
        (by rw [hc]; simp [nextSection, hstream])]
      have hfind : (s.setCall c (.find id b)).Sound := h.moved hc nofun rfl rfl rfl rfl rfl
      refine hfind.setEventStream (e := e) ?_
      cases b with
      | true => exact .inl (Entry.eventStream_eq_some hstream)
      | false => exact .inr ⟨c, by rw [setCall_self]; rfl⟩

theorem Sound.found (h : s.Sound) {c id : Nat} {b : Bool}
    (hc : s.calls c = .find id b) : (s.run c).Sound := by
  have hnot : s.calls c ≠ .done := by rw [hc]; nofun
  have hremoves : (s.calls c).removes = none := by rw [hc]; rfl
  have hself : ∀ j, (s.calls c).connects = some j → j = id ∧ b = false := by
    intro j hj
    rw [hc] at hj
    cases b with
    | true => cases hj
    | false => exact ⟨(Option.some.inj hj).symm, rfl⟩
  cases hget : s.getSessionBySessionId id with
  | some p =>
    obtain ⟨-, hhas⟩ := getSession_eq_some hget
    rw [run_eq (t := s) (n := .decide id p.2 b) (by rw [hc]; simp [nextSection, hget])]
    refine h.setCall hnot nofun hremoves rfl (fun j hj => .inl ?_) (fun j e hj => ?_)
    · obtain ⟨rfl, rfl⟩ := hself j hj
      rfl
    · cases hj
      exact ⟨h.known _ _ hhas, fun e' he' => h.single _ _ _ he' hhas⟩
  | none =>
    rw [run_eq (t := s) (n := .done) (by rw [hc]; simp [nextSection, hget])]
    refine h.setCall hnot nofun hremoves rfl (fun j hj => .inr fun e he => ?_) nofun
    obtain ⟨rfl, -⟩ := hself j hj
    exact absurd he.has (h.toPlaced.getSession_eq_none hget e)

theorem Sound.run (h : s.Sound) (c : Nat)
    (horderly : s.OrderlyCall (s.calls c)) : (s.run c).Sound := by
  cases hc : s.calls c with
  | add id key =>
    cases hget : (s.getSessionBySessionId id).isSome with
    | true =>
      rw [run_eq (t := s) (n := .done) (by rw [hc]; simp [nextSection, hget])]
      exact h.moved hc nofun rfl rfl rfl rfl rfl
    | false =>
      rw [run_eq (t := s) (n := .insert id key) (by rw [hc]; simp [nextSection, hget])]
      exact h.setCall (by rw [hc]; nofun) (fun j hj => by rw [hc]; exact hj)
        (by rw [hc]; rfl) rfl (fun j hj => by rw [hc] at hj; cases hj) nofun
  | insert id key =>
    rw [hc] at horderly
    rw [run_eq (t := s.insertSession id key) (n := .done) (by rw [hc]; rfl)]
    exact h.inserted (by rw [hc]; rfl) horderly
  | existed id key =>
    rw [hc] at horderly
    cases hget : s.get key with
    | some e =>
      have hinsert : s.insertSession id key = s.insertHandler e id := by
        unfold Sessions.insertSession
        rw [hget]
      rw [run_eq (t := s.insertSession id key) (n := .done)
        (by rw [hc]; simp [nextSection, hget, hinsert])]
      exact h.inserted (by rw [hc]; rfl) horderly
    | none =>
      rw [run_eq (t := s) (n := .done) (by rw [hc]; simp [nextSection, hget])]
      exact h.moved hc nofun rfl rfl rfl rfl rfl
  | start id =>
    rw [run_eq (t := s) (n := .visit id (s.sessions.map (·.2))) (by rw [hc]; rfl)]
    exact h.moved hc nofun rfl rfl rfl rfl rfl
  | visit id snapshot => exact h.visited hc
  | find id b => exact h.found hc
  | decide id e b => exact h.decided hc (hc ▸ horderly)
  | close id =>
    cases hget : s.getSessionBySessionId id with
    | some p =>
      obtain ⟨hp, hhas⟩ := getSession_eq_some hget
      rw [run_eq (t := s.removeHandler p.2 id)
        (n := if ((s.entries p.2).remove id).handlers.isEmpty then .remove p.1 else .done)
        (by rw [hc]; simp [nextSection, hget, removeHandler_self])]
      refine h.removeHandler hp hhas hc (fun hnil => ?_) (fun hsome => ?_)
      · rw [hnil]
        rfl
      · rw [if_neg fun hnil => hsome (isEmpty_iff.mp hnil)]
    | none =>
      rw [run_eq (t := s) (n := .done) (by rw [hc]; simp [nextSection, hget])]
      exact h.moved hc nofun rfl rfl rfl rfl rfl
  | remove key =>
    rw [run_eq (t := { s with sessions := s.sessions.filter (·.1 ≠ key) }) (n := .done)
      (by rw [hc]; rfl)]
    exact h.removeEntry hc
  | done =>
    rw [run_eq (t := s) (n := .done) (by rw [hc]; rfl), setCall_done hc]
    exact h

theorem sound_init : init.Sound where
  keys _ _ _ h := absurd h not_mem_nil
  apart _ _ _ h := absurd h not_mem_nil
  bound _ _ h := absurd h not_mem_nil
  mapped _ _ h := absurd h Bool.false_ne_true
  single _ _ _ h := absurd h Bool.false_ne_true
  known _ _ h := absurd h Bool.false_ne_true
  used _ h := absurd h not_mem_nil
  kept _ h := absurd h not_mem_nil
  fresh _ _ h := nomatch h
  alone _ _ _ h := nomatch h
  emptied _ h := absurd h not_mem_nil
  pending _ _ h := nomatch h
  once _ _ _ h := nomatch h
  threads _ := Nat.zero_le 1
  started _ _ h := absurd h not_mem_nil
  deciding _ _ _ h := nomatch h
  idle _ _ := rfl

theorem Sound.step (h : s.Sound) (ev : Event) (hdistinct : s.Distinct ev)
    (horderly : s.Orderly ev) : (s.step ev).Sound := by
  cases ev with
  | sessionAdd id key =>
    exact h.beginCall (fun j hj => Option.some.inj hj ▸ hdistinct) rfl rfl
  | sessionAddExisted id key =>
    exact h.beginCall (fun j hj => Option.some.inj hj ▸ hdistinct) rfl rfl
  | sessionStart id => exact h.beginCall nofun rfl rfl
  | sessionClose id => exact h.beginCall nofun rfl rfl
  | run c => exact h.run c horderly

/-- **Every open window keeps its session**, has one entry and, once started, one connection, in
every run in which the ids are distinct and each section that is run loses nothing. -/
theorem windows_kept (events : List Event) (hdistinct : Run.Along step Distinct init events)
    (horderly : Run.Along step Orderly init events) : Run.Always step WindowsKept init events := by
  have hsound : Run.Always step Sound init events :=
    Run.always_of_along (fun s ev hs hev => hs.step ev hev.1 hev.2) sound_init
      (hdistinct.and horderly)
  exact fun pre hpre => (hsound pre hpre).windowsKept

def twoWindows : List Event :=
  let key : PeerKey := ("123456789", .defaultConn)
  [.sessionAdd 1 key, .run 0, .run 0, .sessionStart 1, .run 1, .run 1, .run 1, .run 1,
    .sessionAddExisted 2 key, .run 2, .sessionStart 2, .run 3, .run 3, .run 3, .run 3,
    .sessionClose 1, .run 4, .sessionClose 2, .run 5, .run 5]

theorem windows_kept_two_windows : Run.Always step WindowsKept init twoWindows :=
  windows_kept twoWindows (by decide +kernel) (by decide +kernel)

def windowLost : List Event :=
  let key : PeerKey := ("123456789", .defaultConn)
  [.sessionAdd 1 key, .run 0, .run 0, .sessionClose 1, .run 1, .sessionAddExisted 2 key, .run 2,
    .run 1]

/-- **A window is lost**: the close of the other window removes the entry it was inserted
into. -/
theorem window_lost :
    Run.Along step Distinct init windowLost ∧ ¬ Run.Always step WindowsKept init windowLost := by
  refine ⟨by decide +kernel, fun h => ?_⟩
  have hquiet : (Run.exec step init windowLost).Quiet := by
    intro c
    match c with
    | 0 | 1 | 2 | _ + 3 => rfl
  obtain ⟨p, ⟨hp, -⟩, -⟩ := (h.last hquiet).window 2 (by decide +kernel) (by decide +kernel)
  have hnone : (Run.exec step init windowLost).sessions = [] := by decide +kernel
  rw [hnone] at hp
  cases hp

/-- When both windows are there before the first of them decides, nobody connects. -/
example : ((Run.exec step init
    (let key : PeerKey := ("123456789", .defaultConn)
    [.sessionAdd 1 key, .run 0, .run 0, .sessionAddExisted 2 key, .run 1,
      .sessionStart 1, .run 2, .run 2, .run 2, .run 2,
      .sessionStart 2, .run 3, .run 3, .run 3, .run 3, .run 3])).entries 0) =
    ⟨[(1, true), (2, true)], 0⟩ := by
  decide +kernel

/-- When the window that connected is closed before the other decides, a second connection
thread is started. -/
example : ((Run.exec step init
    (let key : PeerKey := ("123456789", .defaultConn)
    [.sessionAdd 1 key, .run 0, .run 0, .sessionStart 1, .run 1, .run 1, .run 1, .run 1,
      .sessionAddExisted 2 key, .run 2, .sessionClose 1, .run 3,
      .sessionStart 2, .run 4, .run 4, .run 4, .run 4])).entries 0) =
    ⟨[(2, true)], 2⟩ := by
  decide +kernel

end Sessions
end RustDesk.UiSessions
