import RustDesk.Server.Subscriptions

/-!
# Which displays a connection captures

A `CaptureDisplays` message names displays to add, to take away or to set.  All three are
one function of the server with two switches: what becomes of the video services that are
listed, and what becomes of the others.

For `sub` the switches are those of `set` without its subscriptions, so that the displays
which are *not* listed are dropped.  `captureDisplays_asNamed_iff`: the message does what its
field is called exactly if it does not come to that, or nothing of the source was captured.
-/

namespace RustDesk

open List

namespace Server

variable {M : Type}

def keys (srv : Server M) : List Service := (srv.services.map Prod.fst).dedup

def getSubbedDisplaysCount (srv : Server M) (id : Int) : Nat :=
  (srv.keys.filter fun name => name.isVideo && srv.isSubed name id).length

/-- The video services that `Connection::capture_displays` adds. -/
def addDisplays (srv : Server M) (source : VideoSource) (displays : List Nat) : Server M :=
  displays.foldl (fun srv display => srv.tryAddService (.video source display)) srv

/-- What `Connection::capture_displays` makes of the video services. -/
def editDisplays (srv : Server M) (id : Int) (source : VideoSource) (add sub set : List Nat) :
    Server M :=
  let srv := srv.addDisplays source (add ++ set)
  if add ≠ [] then srv.captureDisplays id source add true false
  else if sub ≠ [] then srv.captureDisplays id source sub false true
  else srv.captureDisplays id source set true true

variable {srv : Server M} {id other : Int} {name n : Service} {source : VideoSource}
  {displays add sub set : List Nat} {d : Nat}

theorem contains_of_isSubed (h : srv.isSubed name id = true) : srv.contains name = true := by
  obtain ⟨x, hx, hname⟩ := any_eq_true.mp h
  rw [Bool.and_eq_true] at hname
  exact any_eq_true.mpr ⟨x, hx, hname.1⟩

theorem mem_keys : name ∈ srv.keys ↔ srv.contains name = true := by
  simp only [keys, mem_dedup, mem_map, contains, any_eq_true, decide_eq_true_eq]

theorem isSubed_modify {f : Service → ServiceTmpl M → ServiceTmpl M} (b : Option Bool)
    (h : ∀ s, (f name s).isSubed id = b.getD (s.isSubed id)) :
    (srv.modify f).isSubed name id = b.elim (srv.isSubed name id) (srv.contains name && ·) := by
  have hall : ∀ x : Service × ServiceTmpl M,
      (decide (x.1 = name) && (f x.1 x.2).isSubed id) =
        (decide (x.1 = name) && b.getD (x.2.isSubed id)) := by
    intro x
    by_cases hx : x.1 = name
    · rw [hx, h]
    · simp [hx]
  unfold isSubed modify contains
  rw [any_map]
  simp only [Function.comp_def, hall]
  cases b with
  | none => rfl
  | some on => cases on <;> simp

theorem contains_tryAddService :
    (srv.tryAddService n).contains name = (decide (n = name) || srv.contains name) := by
  unfold tryAddService
  split
  · rename_i hcontains
    by_cases hn : n = name
    · simpa [hn] using hcontains
    · simp [hn]
  · simp [contains, Bool.or_comm]

theorem contains_addDisplays (h : d ∈ displays) :
    (srv.addDisplays source displays).contains (.video source d) = true := by
  have hkept : ∀ (rest : List Nat) (srv : Server M), srv.contains (.video source d) = true →
      (srv.addDisplays source rest).contains (.video source d) = true := by
    intro rest
    induction rest with
    | nil => exact fun srv hsrv => hsrv
    | cons e rest ih =>
      intro srv hsrv
      refine ih _ ?_
      rw [contains_tryAddService, hsrv, Bool.or_true]
  induction displays generalizing srv with
  | nil => cases h
  | cons e rest ih =>
    rcases mem_cons.mp h with rfl | hrest
    · refine hkept rest _ ?_
      rw [contains_tryAddService, decide_eq_true rfl, Bool.true_or]
    · exact ih hrest

@[simp] theorem isSubed_addDisplays :
    (srv.addDisplays source displays).isSubed name id = srv.isSubed name id := by
  induction displays generalizing srv with
  | nil => rfl
  | cons e rest ih => exact Eq.trans ih isSubed_tryAddService

/-- **`capture_displays`**, for a display of the source. -/
theorem isSubed_captureDisplays {include' exclude : Bool} :
    (srv.captureDisplays id source displays include' exclude).isSubed (.video source d) id =
      if d ∈ displays then
        if include' then srv.contains (.video source d) else srv.isSubed (.video source d) id
      else if exclude then false
      else srv.isSubed (.video source d) id := by
  have hlisted : (displays.map (Service.video source)).contains (.video source d) = true ↔
      d ∈ displays := by simp
  unfold captureDisplays
  rw [isSubed_modify (if d ∈ displays then if include' then some true else none
    else if exclude then some false else none)]
  · split_ifs <;> simp
  · intro s
    by_cases hd : d ∈ displays
    · cases include' <;> simp [Service.isVideo, hd, ServiceTmpl.isSubed_subscribe]
    · cases exclude <;> simp [Service.isVideo, hd, ServiceTmpl.isSubed_subscribe]

theorem isSubed_editDisplays_other (hne : id ≠ other) :
    (srv.editDisplays id source add sub set).isSubed name other = srv.isSubed name other := by
  have hcapture : ∀ (srv : Server M) displays i e,
      (srv.captureDisplays id source displays i e).isSubed name other = srv.isSubed name other :=
    fun srv displays i e => isSubed_perform_other hne (.captureDisplays source displays i e)
  unfold editDisplays
  split_ifs <;> rw [hcapture, isSubed_addDisplays]

theorem isSubed_editDisplays_add (h : add ≠ []) :
    (srv.editDisplays id source add sub set).isSubed (.video source d) id = true ↔
      srv.isSubed (.video source d) id = true ∨ d ∈ add := by
  rw [editDisplays, if_pos h, isSubed_captureDisplays, isSubed_addDisplays]
  by_cases hd : d ∈ add
  · simp [hd, contains_addDisplays (mem_append_left set hd)]
  · simp [hd]

theorem isSubed_editDisplays_sub (hadd : add = []) (h : sub ≠ []) :
    (srv.editDisplays id source add sub set).isSubed (.video source d) id = true ↔
      srv.isSubed (.video source d) id = true ∧ d ∈ sub := by
  rw [editDisplays, if_neg (not_not.mpr hadd), if_pos h, isSubed_captureDisplays,
    isSubed_addDisplays]
  by_cases hd : d ∈ sub
  · simp [hd]
  · simp [hd]

theorem isSubed_editDisplays_set (hadd : add = []) (h : sub = []) :
    (srv.editDisplays id source add sub set).isSubed (.video source d) id = true ↔ d ∈ set := by
  rw [editDisplays, if_neg (not_not.mpr hadd), if_neg (not_not.mpr h), isSubed_captureDisplays]
  by_cases hd : d ∈ set
  · simp [hd, contains_addDisplays (mem_append_right add hd)]
  · simp [hd]

theorem one_lt_getSubbedDisplaysCount :
    1 < srv.getSubbedDisplaysCount id ↔
      ∃ n n' : Service, n ≠ n' ∧ (n.isVideo = true ∧ srv.isSubed n id = true) ∧
        n'.isVideo = true ∧ srv.isSubed n' id = true := by
  have hnodup : (srv.keys.filter fun name => name.isVideo && srv.isSubed name id).Nodup :=
    (nodup_dedup _).filter _
  have hmem : ∀ n : Service,
      n ∈ (srv.keys.filter fun name => name.isVideo && srv.isSubed name id).toFinset ↔
        n.isVideo = true ∧ srv.isSubed n id = true := by
    intro n
    rw [mem_toFinset, mem_filter, mem_keys, Bool.and_eq_true]
    exact ⟨fun h => h.2, fun h => ⟨contains_of_isSubed h.2, h⟩⟩
  rw [getSubbedDisplaysCount, ← toFinset_card_of_nodup hnodup, Finset.one_lt_card]
  constructor
  · rintro ⟨n, hn, n', hn', hne⟩
    exact ⟨n, n', hne, (hmem n).mp hn, (hmem n').mp hn'⟩
  · rintro ⟨n, n', hne, hn, hn'⟩
    exact ⟨n, (hmem n).mpr hn, n', (hmem n').mpr hn', hne⟩

theorem performAll_append (xs ys : List Effect) :
    srv.performAll id (xs ++ ys) = (srv.performAll id xs).performAll id ys :=
  foldl_append

theorem performAll_addVideoService (source : VideoSource) (displays : List Nat) :
    srv.performAll id (displays.map (.addVideoService source)) = srv.addDisplays source displays :=
  foldl_map

theorem isSubed_subscribe_windowFocus (on : Bool) (h : name.isVideo = true) :
    (srv.subscribe .windowFocus id on).isSubed name other = srv.isSubed name other := by
  rw [isSubed_subscribe, if_neg]
  rintro ⟨rfl, -⟩
  cases h

end Server

namespace Connection

variable {M : Type} {p : Platform}

def served (env : Env p) (count : Nat) : Env p :=
  { env with serverAlive := true, subbedDisplaysCount := count }

/-- `capture_displays` where the server is there: the connection and the server after it.
What the connection reads from the server is what the server counts after the edit. -/
def captureDisplaysOn (c : Connection) (env : Env p) (srv : Server M) (id : Int)
    (add sub set : List Nat) : Connection × Server M :=
  let counted := (srv.editDisplays id c.videoSource add sub set).getSubbedDisplaysCount id
  let c' := c.captureDisplays (served env counted) add sub set
  (c', srv.performAll id (c'.log.drop c.log.length))

variable {c : Connection} {env : Env p} {srv : Server M} {id : Int} {add sub set : List Nat}

theorem foldl_emit {α : Type} (f : α → Effect) (xs : List α) (c : Connection) :
    xs.foldl (fun c x => c.emit (f x)) c = { c with log := c.log ++ xs.map f } := by
  induction xs generalizing c with
  | nil => simp
  | cons x xs ih =>
    rw [foldl_cons, ih]
    simp [emit]

theorem captureDisplays_log (env : Env p) (halive : env.serverAlive = true) :
    (c.captureDisplays env add sub set).log.drop c.log.length =
      (add ++ set).map (.addVideoService c.videoSource) ++
        [if add ≠ [] then .captureDisplays c.videoSource add true false
          else if sub ≠ [] then .captureDisplays c.videoSource sub false true
          else .captureDisplays c.videoSource set true true] ++
        if c.followRemoteWindow then
          [.subscribe .windowFocus (!decide (env.subbedDisplaysCount > 1))]
        else [] := by
  have hadded := foldl_emit (Effect.addVideoService c.videoSource) (add ++ set) c
  simp only [captureDisplays, halive, if_true, hadded, captureNamed]
  split_ifs <;> simp_all [emit]

theorem captureDisplaysOn_server :
    (c.captureDisplaysOn env srv id add sub set).2 =
      if c.followRemoteWindow then
        (srv.editDisplays id c.videoSource add sub set).subscribe .windowFocus id
          (!decide ((srv.editDisplays id c.videoSource add sub set).getSubbedDisplaysCount id > 1))
      else srv.editDisplays id c.videoSource add sub set := by
  unfold captureDisplaysOn
  simp only [captureDisplays_log (served env _) rfl]
  rw [Server.performAll_append, Server.performAll_append, Server.performAll_addVideoService]
  unfold Server.editDisplays
  split_ifs <;> rfl

theorem captureDisplaysOn_multiUiSession :
    (c.captureDisplaysOn env srv id add sub set).1.multiUiSession =
      decide ((srv.editDisplays id c.videoSource add sub set).getSubbedDisplaysCount id > 1) := by
  unfold captureDisplaysOn captureDisplays
  simp only [served, if_true]
  split <;> rfl

theorem isSubed_captureDisplaysOn {name : Service} {other : Int} (h : name.isVideo = true) :
    (c.captureDisplaysOn env srv id add sub set).2.isSubed name other =
      (srv.editDisplays id c.videoSource add sub set).isSubed name other := by
  rw [captureDisplaysOn_server]
  split
  · exact Server.isSubed_subscribe_windowFocus _ h
  · rfl

theorem isSubed_captureDisplaysOn_other {name : Service} {other : Int} (hne : id ≠ other) :
    (c.captureDisplaysOn env srv id add sub set).2.isSubed name other = srv.isSubed name other := by
  have hedit : (srv.editDisplays id c.videoSource add sub set).isSubed name other
      = srv.isSubed name other := Server.isSubed_editDisplays_other hne
  rw [captureDisplaysOn_server]
  split
  · rw [Server.isSubed_subscribe, if_neg fun h => hne h.2.symm, hedit]
  · exact hedit

/-- A `CaptureDisplays` message did what its fields are called: to the displays of the
connection's video source, to no other connection, and to `multi_ui_session`. -/
structure AsNamed (c : Connection) (srv : Server M) (id : Int) (add sub set : List Nat)
    (after : Connection × Server M) : Prop where
  added : add ≠ [] → ∀ d, after.2.isSubed (.video c.videoSource d) id = true ↔
    srv.isSubed (.video c.videoSource d) id = true ∨ d ∈ add
  taken : add = [] → sub ≠ [] → ∀ d, after.2.isSubed (.video c.videoSource d) id = true ↔
    srv.isSubed (.video c.videoSource d) id = true ∧ d ∉ sub
  replaced : add = [] → sub = [] → ∀ d, after.2.isSubed (.video c.videoSource d) id = true ↔ d ∈ set
  others : ∀ other, id ≠ other → ∀ name, after.2.isSubed name other = srv.isSubed name other
  multi : after.1.multiUiSession = true ↔
    ∃ n n' : Service, n ≠ n' ∧ (n.isVideo = true ∧ after.2.isSubed n id = true) ∧
      n'.isVideo = true ∧ after.2.isSubed n' id = true

/-- **Captured as named**, exactly if the message takes no displays away or none of the
source was captured. -/
theorem captureDisplays_asNamed_iff (c : Connection) (env : Env p) (srv : Server M) (id : Int)
    (add sub set : List Nat) :
    AsNamed c srv id add sub set (c.captureDisplaysOn env srv id add sub set) ↔
      (add = [] → sub ≠ [] → ∀ d, srv.isSubed (.video c.videoSource d) id = false) := by
  constructor
  · intro h hadd hsub d
    have htaken := h.taken hadd hsub d
    rw [isSubed_captureDisplaysOn rfl, Server.isSubed_editDisplays_sub hadd hsub] at htaken
    grind
  · intro h
    refine ⟨fun hadd d => ?_, fun hadd hsub d => ?_, fun hadd hsub d => ?_,
      fun other hne name => isSubed_captureDisplaysOn_other hne, ?_⟩
    · rw [isSubed_captureDisplaysOn rfl, Server.isSubed_editDisplays_add hadd]
    · rw [isSubed_captureDisplaysOn rfl, Server.isSubed_editDisplays_sub hadd hsub, h hadd hsub d]
      simp
    · rw [isSubed_captureDisplaysOn rfl, Server.isSubed_editDisplays_set hadd hsub]
    · rw [captureDisplaysOn_multiUiSession, decide_eq_true_eq, gt_iff_lt,
        Server.one_lt_getSubbedDisplaysCount]
      refine exists_congr fun n => exists_congr fun n' => and_congr_right fun _ => ?_
      refine and_congr (and_congr_right fun hn => ?_) (and_congr_right fun hn => ?_)
      · rw [isSubed_captureDisplaysOn hn]
      · rw [isSubed_captureDisplaysOn hn]

def twoDisplays : Server Unit :=
  ⟨[(.video .monitor 0, (ServiceTmpl.new true).onSubscribe 1),
    (.video .monitor 1, (ServiceTmpl.new true).onSubscribe 1)], 0, false⟩

/-- **Display 1 taken away**: it is the one that is left. -/
theorem taken_away_is_kept :
    let c : Connection := (start (.idle linux) .idle).conn
    let after := c.captureDisplaysOn (.idle linux) twoDisplays 1 [] [1] []
    ¬AsNamed c twoDisplays 1 [] [1] [] after ∧
      after.2.isSubed (.video .monitor 0) 1 = false ∧
      after.2.isSubed (.video .monitor 1) 1 = true := by
  intro c after
  have hdropped : after.2.isSubed (.video .monitor 0) 1 = false := by decide
  have hkept : after.2.isSubed (.video .monitor 1) 1 = true := by decide
  refine ⟨fun h => ?_, hdropped, hkept⟩
  have htaken := (h.taken rfl (by decide) 1).mp hkept
  exact htaken.2 mem_cons_self

end Connection
end RustDesk
