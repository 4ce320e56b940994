import RustDesk.Lib.Run

/-!
# Services

A service of the server publishes messages to the connections that subscribed to it.
Where it needs a snapshot, a new subscriber waits in `new_subscribes` until a call of
`snapshot` has sent it the present state, and is then promoted to `subscribes`.

The callback of `snapshot` runs without the lock, so that subscriptions may land
between its messages and the promotion.  `snapshot_before_stream` says that this is the
only way to miss a part of the snapshot.
-/

namespace RustDesk

open List Function

/-- How a message reached a subscriber: through `send_shared`, or from a call of
`snapshot`, by the number of the call. -/
inductive Delivery (M : Type) where
  | shared (m : M)
  | snapshot (call : Nat) (m : M)
  deriving DecidableEq

/-- What was delivered by a call of `snapshot`. -/
def Delivery.ofCall {M : Type} (call : Nat) : Delivery M → Option M
  | .shared _ => none
  | .snapshot k m => if k = call then some m else none

/-- A subscriber, with what it received since it subscribed, and the call that promoted
it with all that this call had sent. -/
structure Subscriber (M : Type) where
  id : Int
  received : List (Delivery M)
  promotedBy : Option (Nat × List M)
  deriving DecidableEq

/-- `ServiceInner`, as far as subscriptions are concerned. -/
structure ServiceInner (M : Type) where
  subscribes : List (Subscriber M)
  newSubscribes : List (Subscriber M)
  needSnapshot : Bool

namespace Subscriber

variable {M : Type}

def new (id : Int) : Subscriber M := ⟨id, [], none⟩

def send (s : Subscriber M) (d : Delivery M) : Subscriber M :=
  { s with received := s.received ++ [d] }

/-- What it received from a call of `snapshot`. -/
def ofCall (s : Subscriber M) (call : Nat) : List M := s.received.filterMap (Delivery.ofCall call)

end Subscriber

namespace ServiceInner

variable {M : Type}

def insert (s : Subscriber M) (subs : List (Subscriber M)) : List (Subscriber M) :=
  subs.filter (fun t => t.id ≠ s.id) ++ [s]

def remove (id : Int) (subs : List (Subscriber M)) : List (Subscriber M) :=
  subs.filter fun t => t.id ≠ id

/-- `HashMap::get(id).is_some()`. -/
def has (id : Int) (subs : List (Subscriber M)) : Bool := subs.any fun t => t.id = id

def new (needSnapshot : Bool) : ServiceInner M := ⟨[], [], needSnapshot⟩

def isSubed (s : ServiceInner M) (id : Int) : Bool := has id s.subscribes || has id s.newSubscribes

def onSubscribe (s : ServiceInner M) (id : Int) : ServiceInner M :=
  if has id s.subscribes then s
  else if s.needSnapshot then { s with newSubscribes := insert (.new id) s.newSubscribes }
  else { s with subscribes := insert (.new id) s.subscribes }

def onUnsubscribe (s : ServiceInner M) (id : Int) : ServiceInner M :=
  if has id s.subscribes then { s with subscribes := remove id s.subscribes }
  else { s with newSubscribes := remove id s.newSubscribes }

def sendShared (s : ServiceInner M) (m : M) : ServiceInner M :=
  { s with subscribes := s.subscribes.map fun t => t.send (.shared m) }

/-- `send_new_subscribes`, on behalf of a call of `snapshot`. -/
def sendNewSubscribes (s : ServiceInner M) (call : Nat) (m : M) : ServiceInner M :=
  { s with newSubscribes := s.newSubscribes.map fun t => t.send (.snapshot call m) }

/-- `swap_new_subscribes`, at the end of a call that sent these messages. -/
def swapNewSubscribes (s : ServiceInner M) (call : Nat) (sent : List M) : ServiceInner M :=
  { s with
    subscribes := s.newSubscribes.foldl
      (fun subs t => insert { t with promotedBy := some (call, sent) } subs) s.subscribes
    newSubscribes := [] }

section Has

variable {id : Int} {s : ServiceInner M} {t : Subscriber M} {subs : List (Subscriber M)}

theorem has_iff : has id subs = true ↔ ∃ t ∈ subs, t.id = id := by
  simp [has]

theorem mem_insert {u : Subscriber M} (h : u ∈ insert t subs) : u = t ∨ u ∈ subs := by
  rcases mem_append.mp h with hold | hnew
  · exact .inr (mem_of_mem_filter hold)
  · exact .inl (mem_singleton.mp hnew)

theorem has_insert : has id (insert t subs) = true ↔ t.id = id ∨ has id subs = true := by
  simp only [has_iff]
  constructor
  · rintro ⟨u, hu, hid⟩
    rcases mem_insert hu with rfl | hold
    · exact .inl hid
    · exact .inr ⟨u, hold, hid⟩
  · intro h
    by_cases hid : t.id = id
    · exact ⟨t, by simp [insert], hid⟩
    · obtain ⟨u, hu, huid⟩ := h.resolve_left hid
      refine ⟨u, mem_append_left _ (mem_filter.mpr ⟨hu, ?_⟩), huid⟩
      simpa [huid] using Ne.symm hid

theorem has_remove {other : Int} :
    has id (remove other subs) = true ↔ id ≠ other ∧ has id subs = true := by
  simp only [has_iff, remove, mem_filter, decide_eq_true_eq]
  constructor
  · rintro ⟨u, ⟨hu, hne⟩, rfl⟩
    exact ⟨hne, u, hu, rfl⟩
  · rintro ⟨hne, u, hu, rfl⟩
    exact ⟨u, ⟨hu, hne⟩, rfl⟩

@[simp] theorem has_map_send {d : Delivery M} :
    has id (subs.map fun t => t.send d) = has id subs := by
  simp [has, Subscriber.send, comp_def]

theorem mem_swap {call : Nat} {sent : List M} {u : Subscriber M}
    (h : u ∈ (s.swapNewSubscribes call sent).subscribes) :
    u ∈ s.subscribes ∨ ∃ t ∈ s.newSubscribes, u = { t with promotedBy := some (call, sent) } := by
  unfold swapNewSubscribes at h
  dsimp only at h
  generalize s.subscribes = subs at h ⊢
  generalize s.newSubscribes = waiting at h ⊢
  induction waiting generalizing subs with
  | nil => exact .inl h
  | cons t rest ih =>
    rcases ih _ h with hfirst | ⟨t', ht', heq⟩
    · rcases mem_insert hfirst with rfl | hold
      · exact .inr ⟨t, mem_cons_self, rfl⟩
      · exact .inl hold
    · exact .inr ⟨t', mem_cons_of_mem t ht', heq⟩

theorem has_swap {call : Nat} {sent : List M} :
    has id (s.swapNewSubscribes call sent).subscribes = true ↔ s.isSubed id = true := by
  unfold swapNewSubscribes isSubed
  dsimp only
  generalize s.subscribes = subs
  induction s.newSubscribes generalizing subs with
  | nil => simp [has]
  | cons t rest ih =>
    have hcons : has id (t :: rest) = true ↔ t.id = id ∨ has id rest = true := by
      simp [has]
    rw [foldl_cons, ih, Bool.or_eq_true, Bool.or_eq_true, hcons, has_insert]
    tauto

theorem isSubed_onSubscribe {other : Int} :
    (s.onSubscribe other).isSubed id = true ↔ other = id ∨ s.isSubed id = true := by
  unfold onSubscribe
  split
  · rename_i hother
    refine ⟨.inr, ?_⟩
    rintro (rfl | h)
    · simp [isSubed, hother]
    · exact h
  · split <;> simp only [isSubed, Bool.or_eq_true, has_insert, Subscriber.new] <;> tauto

end Has

/-- No connection is a subscriber and a new one, and none waits where there is no snapshot. -/
structure Apart (s : ServiceInner M) : Prop where
  disjoint : ∀ id, has id s.subscribes = true → has id s.newSubscribes = false
  noWait : s.needSnapshot = false → s.newSubscribes = []

section Apart

variable {id : Int} {s : ServiceInner M}

theorem isSubed_onUnsubscribe (h : s.Apart) {other : Int} :
    (s.onUnsubscribe other).isSubed id = true ↔ id ≠ other ∧ s.isSubed id = true := by
  unfold onUnsubscribe
  split
  · rename_i hother
    have hnew := h.disjoint other hother
    simp only [isSubed, Bool.or_eq_true, has_remove]
    constructor
    · rintro (⟨hne, hold⟩ | hnew')
      · exact ⟨hne, .inl hold⟩
      · refine ⟨?_, .inr hnew'⟩
        rintro rfl
        simp [hnew] at hnew'
    · tauto
  · rename_i hother
    simp only [isSubed, Bool.or_eq_true, has_remove]
    constructor
    · rintro (hold | ⟨hne, hnew⟩)
      · refine ⟨?_, .inl hold⟩
        rintro rfl
        exact hother hold
      · exact ⟨hne, .inr hnew⟩
    · tauto

theorem Apart.onSubscribe (h : s.Apart) (other : Int) : (s.onSubscribe other).Apart := by
  unfold ServiceInner.onSubscribe
  split
  · exact h
  · rename_i hother
    split
    · rename_i hneed
      refine ⟨fun id hid => ?_, fun hno => by simp [hneed] at hno⟩
      rw [← Bool.not_eq_true, has_insert]
      rintro (rfl | hnew)
      · exact hother hid
      · simp [h.disjoint id hid] at hnew
    · rename_i hneed
      have hnone : s.newSubscribes = [] := h.noWait (by simpa using hneed)
      exact ⟨fun id _ => by simp [hnone, has], fun _ => hnone⟩

theorem Apart.onUnsubscribe (h : s.Apart) (other : Int) : (s.onUnsubscribe other).Apart := by
  unfold ServiceInner.onUnsubscribe
  split
  · exact ⟨fun id hid => h.disjoint id (has_remove.mp hid).2, h.noWait⟩
  · refine ⟨fun id hid => ?_, fun hno => by simp [h.noWait hno, remove]⟩
    rw [← Bool.not_eq_true, has_remove]
    rintro ⟨-, hnew⟩
    simp [h.disjoint id hid] at hnew

theorem Apart.sendShared (h : s.Apart) (m : M) : (s.sendShared m).Apart :=
  ⟨fun id hid => h.disjoint id (by simpa [ServiceInner.sendShared] using hid), h.noWait⟩

theorem Apart.sendNewSubscribes (h : s.Apart) (call : Nat) (m : M) :
    (s.sendNewSubscribes call m).Apart := by
  refine ⟨fun id hid => ?_, fun hno => ?_⟩
  · simpa [ServiceInner.sendNewSubscribes] using h.disjoint id hid
  · simp [ServiceInner.sendNewSubscribes, h.noWait hno]

theorem Apart.swapNewSubscribes (call : Nat) (sent : List M) :
    (s.swapNewSubscribes call sent).Apart :=
  ⟨fun _ _ => rfl, fun _ => rfl⟩

end Apart
end ServiceInner

/-- A service and the calls of `snapshot` that are under way, with what they have sent
so far. -/
structure ServiceRun (M : Type) where
  inner : ServiceInner M
  calls : Nat → Option (List M)
  nextCall : Nat

namespace ServiceRun

variable {M : Type}

/-- What happens, each under the lock of the service: a subscription, its end, a message
to all; a call of `snapshot` begins, its callback sends a message, and it ends. -/
inductive Input (M : Type) where
  | subscribe (id : Int)
  | unsubscribe (id : Int)
  | sendShared (m : M)
  | snapshot
  | send (call : Nat) (m : M)
  | swap (call : Nat)

def start : ServiceRun M := ⟨.new true, fun _ => none, 0⟩

/-- One thing happens.  `snapshot` calls its callback only if somebody waits. -/
def step (s : ServiceRun M) : Input M → ServiceRun M
  | .subscribe id => { s with inner := s.inner.onSubscribe id }
  | .unsubscribe id => { s with inner := s.inner.onUnsubscribe id }
  | .sendShared m => { s with inner := s.inner.sendShared m }
  | .snapshot =>
    if s.inner.newSubscribes.isEmpty then s
    else { s with
      calls := update s.calls s.nextCall (some [])
      nextCall := s.nextCall + 1 }
  | .send call m =>
    match s.calls call with
    | some sent =>
      { s with
        inner := s.inner.sendNewSubscribes call m
        calls := update s.calls call (some (sent ++ [m])) }
    | none => s
  | .swap call =>
    match s.calls call with
    | some sent =>
      { s with
        inner := s.inner.swapNewSubscribes call sent
        calls := update s.calls call none }
    | none => s

/-- Whenever a shared message was received, the call of `snapshot` that promoted the
subscriber had sent nothing that it had not received before. -/
def SnapshotFirst (t : Subscriber M) : Prop :=
  ∀ pre m, pre ++ [.shared m] <+: t.received →
    ∃ call sent, t.promotedBy = some (call, sent) ∧ pre.filterMap (Delivery.ofCall call) = sent

/-- Nobody subscribes between the first message of a call of `snapshot` and its end. -/
def NoLateSubscription (s : ServiceRun M) : Input M → Prop
  | .subscribe id => ServiceInner.has id s.inner.subscribes = true ∨
      ∀ call sent, s.calls call = some sent → sent = []
  | _ => True

structure Waiting (s : ServiceRun M) (t : Subscriber M) : Prop where
  current : ∀ call sent, s.calls call = some sent → t.ofCall call = sent
  later : ∀ call, s.nextCall ≤ call → t.ofCall call = []
  noShared : ∀ m, .shared m ∉ t.received

structure Promoted (t : Subscriber M) : Prop where
  complete : ∃ call sent, t.promotedBy = some (call, sent) ∧ t.ofCall call = sent
  first : SnapshotFirst t

structure Inv (s : ServiceRun M) : Prop where
  needs : s.inner.needSnapshot = true
  calls : ∀ call, s.nextCall ≤ call → s.calls call = none
  waiting : ∀ t ∈ s.inner.newSubscribes, Waiting s t
  promoted : ∀ t ∈ s.inner.subscribes, Promoted t

section

variable {s : ServiceRun M} {t : Subscriber M}

theorem ofCall_send (d : Delivery M) (call : Nat) :
    (t.send d).ofCall call = t.ofCall call ++ (d.ofCall call).toList := by
  simp [Subscriber.ofCall, Subscriber.send, filterMap_append]
  cases h : d.ofCall call <;> simp [h]

theorem Promoted.send (h : Promoted t) (m : M) : Promoted (t.send (.shared m)) := by
  obtain ⟨call, sent, hby, hcall⟩ := h.complete
  refine ⟨⟨call, sent, hby, ?_⟩, ?_⟩
  · rw [ofCall_send, hcall]
    simp [Delivery.ofCall]
  · intro pre m' hpre
    rcases prefix_concat_iff.mp hpre with heq | hold
    · obtain ⟨rfl, -⟩ := append_inj' heq rfl
      exact ⟨call, sent, hby, hcall⟩
    · exact h.first pre m' hold

theorem Waiting.promote (h : Waiting s t) {call : Nat} {sent : List M}
    (hcall : s.calls call = some sent) : Promoted { t with promotedBy := some (call, sent) } := by
  refine ⟨⟨call, sent, rfl, h.current call sent hcall⟩, fun pre m hpre => ?_⟩
  exact absurd (hpre.subset (by simp)) (h.noShared m)

theorem Inv.subscribe (h : s.Inv) {id : Int} (hlate : NoLateSubscription s (.subscribe id)) :
    (s.step (.subscribe id)).Inv := by
  unfold step ServiceInner.onSubscribe
  dsimp only
  split
  · exact h
  · rename_i hnew
    rw [if_pos h.needs]
    refine ⟨h.needs, h.calls, fun t ht => ?_, h.promoted⟩
    rcases ServiceInner.mem_insert ht with rfl | hold
    · -- a new subscriber has received nothing, and nothing was sent
      have hempty := hlate.resolve_left hnew
      refine ⟨fun call sent hcall => (hempty call sent hcall).symm, fun _ _ => rfl, ?_⟩
      simp [Subscriber.new]
    · obtain ⟨hcurrent, hlater, hshared⟩ := h.waiting t hold
      exact ⟨hcurrent, hlater, hshared⟩

theorem Inv.unsubscribe (h : s.Inv) (id : Int) : (s.step (.unsubscribe id)).Inv := by
  unfold step ServiceInner.onUnsubscribe
  dsimp only
  split
  · refine ⟨h.needs, h.calls, fun t ht => ?_, fun t ht => ?_⟩
    · obtain ⟨hcurrent, hlater, hshared⟩ := h.waiting t ht
      exact ⟨hcurrent, hlater, hshared⟩
    · exact h.promoted t (mem_of_mem_filter ht)
  · refine ⟨h.needs, h.calls, fun t ht => ?_, h.promoted⟩
    obtain ⟨hcurrent, hlater, hshared⟩ := h.waiting t (mem_of_mem_filter ht)
    exact ⟨hcurrent, hlater, hshared⟩

theorem Inv.sendShared (h : s.Inv) (m : M) : (s.step (.sendShared m)).Inv := by
  refine ⟨h.needs, h.calls, fun t ht => ?_, fun t ht => ?_⟩
  · obtain ⟨hcurrent, hlater, hshared⟩ := h.waiting t ht
    exact ⟨hcurrent, hlater, hshared⟩
  · obtain ⟨t', ht', rfl⟩ := mem_map.mp ht
    exact (h.promoted t' ht').send m

theorem Inv.snapshot (h : s.Inv) : (s.step .snapshot).Inv := by
  unfold step
  dsimp only
  split
  · exact h
  · refine ⟨h.needs, fun call hcall => ?_, fun t ht => ?_, h.promoted⟩
    · have hcall' : s.nextCall + 1 ≤ call := hcall
      have hne : call ≠ s.nextCall := by omega
      exact (update_of_ne hne _ _).trans (h.calls call (by omega))
    · obtain ⟨hcurrent, hlater, hshared⟩ := h.waiting t ht
      refine ⟨fun call sent hcall => ?_, fun call hcall => hlater call ?_, hshared⟩
      · by_cases hnext : call = s.nextCall
        · subst hnext
          simp only [update_self, Option.some.injEq] at hcall
          rw [hlater _ (Nat.le_refl _), hcall]
        · have hold : s.calls call = some sent := (update_of_ne hnext _ _).symm.trans hcall
          exact hcurrent call sent hold
      · have hcall' : s.nextCall + 1 ≤ call := hcall
        omega

theorem Inv.send (h : s.Inv) (call : Nat) (m : M) : (s.step (.send call m)).Inv := by
  unfold step
  dsimp only
  split
  · rename_i sent hsent
    have hlt : call < s.nextCall := by
      by_contra hge
      rw [h.calls call (by omega)] at hsent
      cases hsent
    refine ⟨h.needs, fun k hk => ?_, fun t ht => ?_, h.promoted⟩
    · have hk' : s.nextCall ≤ k := hk
      have hne : k ≠ call := by omega
      exact (update_of_ne hne _ _).trans (h.calls k hk')
    · obtain ⟨t', ht', rfl⟩ := mem_map.mp ht
      obtain ⟨hcurrent, hlater, hshared⟩ := h.waiting t' ht'
      refine ⟨fun k sent' hk => ?_, fun k hk => ?_, fun m' hm' => ?_⟩
      · rw [ofCall_send]
        by_cases hcall : k = call
        · subst hcall
          simp only [update_self, Option.some.injEq] at hk
          rw [hcurrent k sent hsent, ← hk]
          simp [Delivery.ofCall]
        · have hold : s.calls k = some sent' := (update_of_ne hcall _ _).symm.trans hk
          rw [hcurrent k sent' hold]
          simp [Delivery.ofCall, Ne.symm hcall]
      · have hk' : s.nextCall ≤ k := hk
        have hne : call ≠ k := by omega
        rw [ofCall_send, hlater k hk']
        simp [Delivery.ofCall, hne]
      · rcases mem_append.mp hm' with hold | hnew
        · exact hshared m' hold
        · simp at hnew
  · exact h

theorem Inv.swap (h : s.Inv) (call : Nat) : (s.step (.swap call)).Inv := by
  unfold step
  dsimp only
  split
  · rename_i sent hsent
    refine ⟨h.needs, fun k hk => ?_, fun t ht => (not_mem_nil ht).elim, fun t ht => ?_⟩
    · by_cases hcall : k = call
      · subst hcall
        exact update_self ..
      · exact (update_of_ne hcall _ _).trans (h.calls k hk)
    · rcases ServiceInner.mem_swap ht with hold | ⟨t', ht', rfl⟩
      · exact h.promoted t hold
      · exact (h.waiting t' ht').promote hsent
  · exact h

theorem Inv.step (i : Input M) (h : s.Inv) (hlate : NoLateSubscription s i) : (s.step i).Inv := by
  cases i with
  | subscribe id => exact h.subscribe hlate
  | unsubscribe id => exact h.unsubscribe id
  | sendShared m => exact h.sendShared m
  | snapshot => exact h.snapshot
  | send call m => exact h.send call m
  | swap call => exact h.swap call

theorem apart_step (i : Input M) (h : s.inner.Apart) : (s.step i).inner.Apart := by
  cases i with
  | subscribe id => exact h.onSubscribe id
  | unsubscribe id => exact h.onUnsubscribe id
  | sendShared m => exact h.sendShared m
  | snapshot =>
    unfold ServiceRun.step
    dsimp only
    split <;> exact h
  | send call m =>
    unfold ServiceRun.step
    dsimp only
    split
    · exact h.sendNewSubscribes call m
    · exact h
  | swap call =>
    unfold ServiceRun.step
    dsimp only
    split
    · exact .swapNewSubscribes call _
    · exact h

end
end ServiceRun

open ServiceRun Run

/-- **Snapshot before stream.**  In every run no connection is in both maps, and one
whose subscription has just ended is in none.  If nobody subscribes between the first
message of a call of `snapshot` and its end, then in every state every subscriber has
received each shared message after everything that the call that promoted it sent. -/
theorem snapshot_before_stream {M : Type} (is : List (ServiceRun.Input M)) :
    Always step (fun s => s.inner.Apart ∧
      ∀ id, (s.inner.onUnsubscribe id).isSubed id = false) start is ∧
    (Along step NoLateSubscription start is →
      Always step (fun s => ∀ t ∈ s.inner.subscribes, SnapshotFirst t) start is) := by
  constructor
  · have hstart : (start : ServiceRun M).inner.Apart := ⟨fun _ _ => rfl, fun _ => rfl⟩
    have hall := always_of_step (fun s i => apart_step (s := s) i) hstart is
    intro pre hpre
    refine ⟨hall pre hpre, fun id => ?_⟩
    rw [← Bool.not_eq_true, ServiceInner.isSubed_onUnsubscribe (hall pre hpre)]
    exact fun h => h.1 rfl
  · intro hlate
    have hstart : (start : ServiceRun M).Inv :=
      ⟨rfl, fun _ _ => rfl, fun t ht => (not_mem_nil ht).elim, fun t ht => (not_mem_nil ht).elim⟩
    have hall := always_of_along (fun s i => Inv.step (s := s) i) hstart hlate
    exact fun pre hpre t ht => ((hall pre hpre).promoted t ht).first

/-- A subscriber is promoted after the message of a snapshot and then gets a shared one. -/
theorem snapshot_before_stream_one :
    ∀ t ∈ (exec step (start : ServiceRun Nat)
      [.subscribe 1, .snapshot, .send 0 7, .swap 0, .sendShared 8]).inner.subscribes,
      SnapshotFirst t := by
  have hlate : Along step NoLateSubscription (start : ServiceRun Nat)
      [.subscribe 1, .snapshot, .send 0 7, .swap 0, .sendShared 8] :=
    ⟨.inr fun _ _ h => (Option.some_ne_none _ h.symm).elim, trivial, trivial, trivial, trivial,
      trivial⟩
  exact ((snapshot_before_stream _).2 hlate).last

/-- A second connection subscribes after the message of the snapshot.  It is promoted
with the first one, and gets a shared message without the snapshot. -/
theorem late_subscriber_misses_snapshot :
    ∃ t ∈ (exec step (start : ServiceRun Nat)
      [.subscribe 1, .snapshot, .send 0 7, .subscribe 2, .swap 0, .sendShared 8]).inner.subscribes,
      t.id = 2 ∧ t.received = [.shared 8] ∧ t.promotedBy = some (0, [7]) ∧ ¬SnapshotFirst t := by
  refine ⟨⟨2, [.shared 8], some (0, [7])⟩, by decide, rfl, rfl, rfl, fun h => ?_⟩
  obtain ⟨call, sent, hby, hsent⟩ := h [] 8 (prefix_refl _)
  cases hby
  cases hsent

end RustDesk
