import RustDesk.Rendezvous.Registration
import RustDesk.Lib.Run

/-!
# Confirmed means registered

The flags of a host should say that the server knows the client under its current id and key:
the last request whose OK was taken from it carried them (`Truthful`).

They say so in every run in which the steps are `Proper` (`confirmed_truthful`): an OK answers
a request with the identity of the moment; the two flags of an OK are set without a reset in
between; a configuration synced from root confirms only what it may, or is noticed by
`CheckIfResendPk`; and a generated key is stored while it is the one in use.  Nothing in the
code sees to the first: a late OK confirms an identity that was never registered.
-/

namespace RustDesk.Registration

namespace Mediators

def RegisteredAs (s : Mediators) (host : String) (id : String) (pk : Option Bytes) : Prop :=
  ∃ r, s.lastOk host = some r ∧ r.id = id ∧ some r.pk = pk

def Registered (s : Mediators) (host : String) : Prop :=
  s.RegisteredAs host s.config.id s.currentPk

/-- No task is between two writes of the flags. -/
def Settled (s : Mediators) : Prop :=
  s.sync = .idle ∧ ∀ host ∈ s.servers, s.tasks host ≠ .mismatchReset

instance (s : Mediators) : Decidable s.Settled :=
  inferInstanceAs (Decidable (_ ∧ ∀ host ∈ s.servers, s.tasks host ≠ .mismatchReset))

/-- Where the flag of a server is set, the server has this id with this key. -/
def Truthful (s : Mediators) : Prop :=
  s.Settled → ∀ host ∈ s.servers, s.confirmed host = true → s.Registered host

/-- No task is between its OK and the flag of its server. -/
def NoOkUnderWay (s : Mediators) : Prop :=
  ∀ host ∈ s.servers, s.tasks host ≠ .okKeyConfirmed

instance (s : Mediators) : Decidable s.NoOkUnderWay :=
  inferInstanceAs (Decidable (∀ host ∈ s.servers, s.tasks host ≠ .okKeyConfirmed))

/-- The configuration confirms no host without the client itself, and no host but those that
know its identity, unless `CheckIfResendPk`, which has kept `pk`, will notice its key. -/
def MaySet (s : Mediators) (pk : Option Bytes) (c : Config) : Prop :=
  (c.keyConfirmed = false → ∀ host ∈ s.servers,
    c.getHostKeyConfirmed (getHostPrefix host) = false) ∧
  ((s.sentRegisterPk = true ∧ pk ≠ none ∧ c.keyPair ≠ pk) ∨
    ∀ host ∈ s.servers, c.getHostKeyConfirmed (getHostPrefix host) = true →
      s.RegisteredAs host c.id c.keyPair)

def Proper (s : Mediators) : Event → Prop
  | .registerPkResponse host .ok answers => s.tasks host = .idle →
      answers.id = s.config.id ∧ some answers.pk = s.currentPk ∧
        ∀ other ∈ s.servers, s.tasks other ≠ .mismatchReset
  | .registerPkResponse host .notDeployed _ => s.tasks host = .idle → s.NoOkUnderWay
  | .lockSolving host => s.tasks host = .mismatch →
      s.solvingPkMismatch = "" ∨ s.solvingPkMismatch = host → s.NoOkUnderWay
  | .forceUpdatePk => s.NoOkUnderWay
  | .syncSet (some c) => ∀ pk, s.sync = .checking pk → c.isEmpty = false →
      s.NoOkUnderWay ∧ (∀ host ∈ s.servers, s.tasks host ≠ .mismatchReset) ∧ s.MaySet pk c
  | .syncDrop => ∀ pk, s.sync = .applied pk → s.sentRegisterPk = true →
      s.cachedKeyPair ≠ pk → s.NoOkUnderWay
  | .storeKeyPair => s.generatedKeyPair ≠ none → s.cachedKeyPair ≠ none
  | _ => True

/-- Before the mediators run: the prefixes of the hosts are distinct, and the flags found in
the configuration are true. -/
structure Start (s : Mediators) : Prop where
  distinct : ∀ host ∈ s.servers, ∀ other ∈ s.servers,
    getHostPrefix host = getHostPrefix other → host = other
  tasks : ∀ host ∈ s.servers, s.tasks host = .idle
  sync : s.sync = .idle
  unconfirmed : s.config.keyConfirmed = false → ∀ host ∈ s.servers,
    s.config.getHostKeyConfirmed (getHostPrefix host) = false
  truthful : ∀ host ∈ s.servers,
    s.config.getHostKeyConfirmed (getHostPrefix host) = true → s.Registered host

/-- The drop of `CheckIfResendPk` will reset the flags. -/
def WillResend (s : Mediators) : Prop :=
  ∃ pk, s.sync = .applied pk ∧ s.sentRegisterPk = true ∧ s.cachedKeyPair ≠ pk

/-- The invariant.  A host is confirmed only together with the client itself, and only if it
knows the current identity or a reset is sure to come; the tasks between two flags find the
first one as they left it; and `CheckIfResendPk` has kept the key in use, or one that differs
from the new one. -/
structure Consistent (s : Mediators) : Prop where
  distinct : ∀ host ∈ s.servers, ∀ other ∈ s.servers,
    getHostPrefix host = getHostPrefix other → host = other
  unconfirmed : s.config.keyConfirmed = false → ∀ host ∈ s.servers,
    s.config.getHostKeyConfirmed (getHostPrefix host) = false
  truthful : ¬s.WillResend → ∀ host ∈ s.servers,
    s.config.getHostKeyConfirmed (getHostPrefix host) = true → s.Registered host
  okTask : ∀ host ∈ s.servers, s.tasks host = .okKeyConfirmed →
    s.config.keyConfirmed = true ∧ s.Registered host
  mismatch : ∀ host ∈ s.servers, s.tasks host = .mismatchReset → s.config.keyConfirmed = false
  checking : ∀ pk, s.sync = .checking (some pk) → s.cachedKeyPair = some pk
  applied : ∀ pk, s.sync = .applied (some pk) → s.cachedKeyPair = none →
    s.config.keyPair ≠ none ∧ s.config.keyPair ≠ some pk

theorem Start.consistent {s : Mediators} (h : s.Start) : s.Consistent where
  distinct := h.distinct
  unconfirmed := h.unconfirmed
  truthful := fun _ => h.truthful
  okTask := fun host hhost htask => by
    rw [h.tasks host hhost] at htask
    cases htask
  mismatch := fun host hhost htask => by
    rw [h.tasks host hhost] at htask
    cases htask
  checking := fun pk hsync => by
    rw [h.sync] at hsync
    cases hsync
  applied := fun pk hsync => by
    rw [h.sync] at hsync
    cases hsync

theorem Consistent.truthful_of_settled {s : Mediators} (h : s.Consistent) : s.Truthful := by
  rintro ⟨hsync, -⟩ host hhost hconfirmed
  have hnot : ¬s.WillResend := by
    rintro ⟨pk, happlied, -⟩
    rw [hsync] at happlied
    cases happlied
  have hflag : s.config.getHostKeyConfirmed (getHostPrefix host) = true := by
    unfold confirmed at hconfirmed
    exact (Bool.and_eq_true_iff.mp hconfirmed).2
  exact h.truthful hnot host hhost hflag

end Mediators

namespace Config

@[simp] theorem setKeyConfirmed_keyConfirmed (c : Config) (v : Bool) :
    (c.setKeyConfirmed v).keyConfirmed = v := by
  unfold setKeyConfirmed
  split
  · assumption
  · rfl

@[simp] theorem setKeyConfirmed_id (c : Config) (v : Bool) : (c.setKeyConfirmed v).id = c.id := by
  unfold setKeyConfirmed
  split <;> rfl

@[simp] theorem setKeyConfirmed_keyPair (c : Config) (v : Bool) :
    (c.setKeyConfirmed v).keyPair = c.keyPair := by
  unfold setKeyConfirmed
  split <;> rfl

theorem getHostKeyConfirmed_set (c : Config) (host : String) :
    (c.setKeyConfirmed true).getHostKeyConfirmed host = c.getHostKeyConfirmed host := by
  unfold setKeyConfirmed
  split <;> rfl

theorem getHostKeyConfirmed_reset {c : Config} {host : String}
    (h : c.keyConfirmed = false → c.getHostKeyConfirmed host = false) :
    (c.setKeyConfirmed false).getHostKeyConfirmed host = false := by
  unfold setKeyConfirmed
  split
  · rename_i hfalse
    exact h hfalse
  · rfl

theorem setHostKeyConfirmed_fields (c : Config) (host : String) (v : Bool) :
    (c.setHostKeyConfirmed host v).keyConfirmed = c.keyConfirmed ∧
      (c.setHostKeyConfirmed host v).id = c.id ∧
      (c.setHostKeyConfirmed host v).keyPair = c.keyPair := by
  unfold setHostKeyConfirmed
  split <;> exact ⟨rfl, rfl, rfl⟩

theorem getHostKeyConfirmed_setHost (c : Config) (host other : String) (v : Bool) :
    (c.setHostKeyConfirmed host v).getHostKeyConfirmed other =
      if other = host then v else c.getHostKeyConfirmed other := by
  unfold setHostKeyConfirmed
  split
  · rename_i hsame
    split
    · rename_i hother
      rw [hother, hsame]
    · rfl
  · unfold getHostKeyConfirmed
    by_cases hother : other = host
    · subst hother
      cases v <;> simp
    · simp [hother]

end Config

namespace Mediators

theorem tasks_goTo_self (s : Mediators) (host : String) (task : Task) :
    (s.goTo host task).tasks host = task :=
  Function.update_self ..

theorem tasks_goTo_of_ne (s : Mediators) {host other : String} (task : Task)
    (hne : other ≠ host) : (s.goTo host task).tasks other = s.tasks other :=
  Function.update_of_ne hne ..

variable {s : Mediators}

theorem task_of_goTo {host other : String} {task task' : Task}
    (h : (s.goTo host task).tasks other = task') (hne : task ≠ task') : s.tasks other = task' := by
  by_cases heq : other = host
  · subst heq
    rw [tasks_goTo_self] at h
    exact absurd h hne
  · rwa [tasks_goTo_of_ne s task heq] at h

theorem Consistent.goTo (h : s.Consistent) (host : String) {task : Task}
    (hok : task ≠ .okKeyConfirmed) (hmismatch : task ≠ .mismatchReset) :
    (s.goTo host task).Consistent where
  distinct := h.distinct
  unconfirmed := h.unconfirmed
  truthful := h.truthful
  okTask := fun other hother htask => h.okTask other hother (task_of_goTo htask hok)
  mismatch := fun other hother htask => h.mismatch other hother (task_of_goTo htask hmismatch)
  checking := h.checking
  applied := h.applied

theorem Consistent.set (h : s.Consistent) (solving : String)
    (deploy last : Bool) (sent : List (String × Sent)) :
    Consistent { s with
      solvingPkMismatch := solving
      needsDeploy := deploy
      lastNotDeployedRegister := last
      sent := sent } :=
  ⟨h.distinct, h.unconfirmed, h.truthful, h.okTask, h.mismatch, h.checking, h.applied⟩

theorem currentPk_reset (s : Mediators) (v : Bool) :
    currentPk { s with config := s.config.setKeyConfirmed v } = s.currentPk := by
  unfold currentPk
  cases s.cachedKeyPair with
  | some pk => rfl
  | none => exact s.config.setKeyConfirmed_keyPair v

variable {host : String}

theorem Consistent.reset (h : s.Consistent) (hno : s.NoOkUnderWay) :
    Consistent { s with config := s.config.setKeyConfirmed false } where
  distinct := h.distinct
  unconfirmed := fun _ host hhost =>
    Config.getHostKeyConfirmed_reset fun hfalse => h.unconfirmed hfalse host hhost
  truthful := fun _ host hhost hconfirmed => by
    have hreset : (s.config.setKeyConfirmed false).getHostKeyConfirmed (getHostPrefix host) =
        false :=
      Config.getHostKeyConfirmed_reset fun hfalse => h.unconfirmed hfalse host hhost
    exact absurd (hreset.symm.trans hconfirmed) nofun
  okTask := fun host hhost htask => absurd htask (hno host hhost)
  mismatch := fun _ _ _ => s.config.setKeyConfirmed_keyConfirmed false
  checking := h.checking
  applied := fun pk hsync hcache => by
    have hkept := h.applied pk hsync hcache
    rwa [← s.config.setKeyConfirmed_keyPair false] at hkept

theorem Consistent.handleOk (h : s.Consistent)
    {answers : RegisterPk} (hid : answers.id = s.config.id) (hpk : some answers.pk = s.currentPk)
    (hno : ∀ other ∈ s.servers, s.tasks other ≠ .mismatchReset) :
    (s.handleRegisterPkResponse host .ok answers).Consistent := by
  let s' := s.handleRegisterPkResponse host .ok answers
  have hpk' : s'.currentPk = s.currentPk := currentPk_reset s true
  have hregistered : ∀ other, (other = host ∨ s.Registered other) → s'.Registered other := by
    intro other hother
    by_cases heq : other = host
    · subst heq
      refine ⟨answers, Function.update_self .., ?_, ?_⟩
      · rw [hid]
        exact (s.config.setKeyConfirmed_id true).symm
      · rw [hpk', hpk]
    · obtain ⟨r, hr, hid, hpk⟩ := hother.resolve_left heq
      refine ⟨r, ?_, ?_, ?_⟩
      · rw [← hr]
        exact Function.update_of_ne heq ..
      · rw [hid]
        exact (s.config.setKeyConfirmed_id true).symm
      · rw [hpk', hpk]
  refine ⟨h.distinct, ?_, ?_, ?_, ?_, h.checking, ?_⟩
  · intro hfalse
    exact absurd ((s.config.setKeyConfirmed_keyConfirmed true).symm.trans hfalse) nofun
  · intro hnot other hother hconfirmed
    have hbefore : s.config.getHostKeyConfirmed (getHostPrefix other) = true :=
      (s.config.getHostKeyConfirmed_set (getHostPrefix other)).symm.trans hconfirmed
    exact hregistered other (.inr (h.truthful hnot other hother hbefore))
  · intro other hother htask
    refine ⟨s.config.setKeyConfirmed_keyConfirmed true, ?_⟩
    by_cases heq : other = host
    · exact hregistered other (.inl heq)
    · have hbefore : s.tasks other = .okKeyConfirmed := by
        rw [← htask]
        exact (Function.update_of_ne heq ..).symm
      exact hregistered other (.inr (h.okTask other hother hbefore).2)
  · intro other hother htask
    exact absurd (task_of_goTo htask nofun) (hno other hother)
  · intro pk hsync hcache
    have hkept := h.applied pk hsync hcache
    rwa [← s.config.setKeyConfirmed_keyPair true] at hkept

theorem Consistent.setHost (h : s.Consistent) {v : Bool} (hhost : host ∈ s.servers)
    (hv : v = true → s.config.keyConfirmed = true ∧ s.Registered host) :
    Consistent { s with config := s.config.setHostKeyConfirmed (getHostPrefix host) v } := by
  obtain ⟨hkey, hid, hkeyPair⟩ := s.config.setHostKeyConfirmed_fields (getHostPrefix host) v
  let s' := { s with config := s.config.setHostKeyConfirmed (getHostPrefix host) v }
  have hpk : s'.currentPk = s.currentPk := by
    unfold currentPk
    rw [show s'.config.keyPair = s.config.keyPair from hkeyPair]
  have hregistered : ∀ other, s.Registered other → s'.Registered other := by
    rintro other ⟨r, hr, hrid, hrpk⟩
    exact ⟨r, hr, hrid.trans hid.symm, hrpk.trans hpk.symm⟩
  have hflag : ∀ other ∈ s.servers,
      s'.config.getHostKeyConfirmed (getHostPrefix other) = true →
      (other = host ∧ v = true) ∨ s.config.getHostKeyConfirmed (getHostPrefix other) = true := by
    intro other hother hconfirmed
    have heq := s.config.getHostKeyConfirmed_setHost (getHostPrefix host) (getHostPrefix other) v
    rw [show s'.config = s.config.setHostKeyConfirmed (getHostPrefix host) v from rfl,
      heq] at hconfirmed
    split at hconfirmed
    · rename_i hsame
      exact .inl ⟨h.distinct other hother host hhost hsame, hconfirmed⟩
    · exact .inr hconfirmed
  refine ⟨h.distinct, ?_, ?_, ?_, ?_, h.checking, ?_⟩
  · intro hfalse other hother
    have hfalse' : s.config.keyConfirmed = false := hkey.symm.trans hfalse
    cases hconfirmed : s'.config.getHostKeyConfirmed (getHostPrefix other) with
    | false => rfl
    | true =>
      rcases hflag other hother hconfirmed with ⟨-, hset⟩ | hbefore
      · exact absurd (hfalse'.symm.trans (hv hset).1) Bool.false_ne_true
      · exact absurd ((h.unconfirmed hfalse' other hother).symm.trans hbefore)
          Bool.false_ne_true
  · intro hnot other hother hconfirmed
    rcases hflag other hother hconfirmed with ⟨rfl, hset⟩ | hbefore
    · exact hregistered other (hv hset).2
    · exact hregistered other (h.truthful hnot other hother hbefore)
  · intro other hother htask
    obtain ⟨hkeyConfirmed, hreg⟩ := h.okTask other hother htask
    exact ⟨hkey.trans hkeyConfirmed, hregistered other hreg⟩
  · intro other hother htask
    exact hkey.trans (h.mismatch other hother htask)
  · intro pk hsync hcache
    have hkept := h.applied pk hsync hcache
    rwa [← hkeyPair] at hkept

theorem Consistent.updateId (h : s.Consistent)
    (hhost : host ∈ s.servers) (htask : s.tasks host = .mismatchReset) (newId : String) :
    Consistent { s with config := { s.config with id := newId }, solvingPkMismatch := host } := by
  have hkey := h.mismatch host hhost htask
  have hnone := h.unconfirmed hkey
  refine ⟨h.distinct, h.unconfirmed, ?_, ?_, h.mismatch, h.checking, h.applied⟩
  · intro _ other hother hconfirmed
    exact absurd ((hnone other hother).symm.trans hconfirmed) nofun
  · intro other hother hok
    exact absurd (hkey.symm.trans (h.okTask other hother hok).1) nofun

theorem not_registered_of_no_key (h : s.currentPk = none) : ¬s.Registered host := by
  rintro ⟨r, -, -, hpk⟩
  rw [h] at hpk
  cases hpk

theorem Consistent.getKeyPair (h : s.Consistent) (fresh : Bytes) :
    (s.getKeyPair fresh).1.Consistent := by
  unfold Mediators.getKeyPair
  cases hcache : s.cachedKeyPair with
  | some pk => exact h
  | none =>
    have hresend : s.WillResend → s.config.keyPair ≠ none ∧
        ∀ pk, s.sync = .applied pk → s.config.keyPair ≠ pk := by
      rintro ⟨kept, hsync, -, hne⟩
      rw [hcache] at hne
      cases kept with
      | none => exact absurd rfl hne
      | some q =>
        obtain ⟨hsome, hdiffers⟩ := h.applied q hsync hcache
        refine ⟨hsome, fun pk hpk => ?_⟩
        cases hsync.symm.trans hpk
        exact hdiffers
    have hchecking : ∀ pk fresh', s.sync = .checking (some pk) → some fresh' = some pk := by
      intro pk fresh' hsync
      exact absurd (hcache.symm.trans (h.checking pk hsync)) nofun
    cases hpair : s.config.keyPair with
    | some pk =>
      have hcurrent : s.currentPk = some pk := by
        unfold currentPk
        rw [hcache]
        exact hpair
      have hregistered : ∀ other, s.Registered other →
          Registered { s with cachedKeyPair := some pk } other := by
        rintro other ⟨r, hr, hid, hpk⟩
        exact ⟨r, hr, hid, hpk.trans hcurrent⟩
      refine ⟨h.distinct, h.unconfirmed, ?_, ?_, h.mismatch,
        fun q hsync => hchecking q pk hsync, nofun⟩
      · intro hnot other hother hconfirmed
        refine hregistered other (h.truthful ?_ other hother hconfirmed)
        intro hbefore
        obtain ⟨kept, hsync, hsent, -⟩ := id hbefore
        refine hnot ⟨kept, hsync, hsent, fun hkept => ?_⟩
        exact (hresend hbefore).2 kept hsync (hpair.trans hkept)
      · intro other hother htask
        obtain ⟨hkey, hreg⟩ := h.okTask other hother htask
        exact ⟨hkey, hregistered other hreg⟩
    | none =>
      have hno : ∀ other, ¬s.Registered other := by
        intro other
        refine not_registered_of_no_key ?_
        unfold currentPk
        rw [hcache]
        exact hpair
      refine ⟨h.distinct, h.unconfirmed, ?_, ?_, h.mismatch,
        fun q hsync => hchecking q fresh hsync, nofun⟩
      · intro _ other hother hconfirmed
        refine absurd (h.truthful ?_ other hother hconfirmed) (hno other)
        intro hbefore
        exact absurd hpair (hresend hbefore).1
      · intro other hother htask
        exact absurd (h.okTask other hother htask).2 (hno other)

theorem Consistent.sendRegisterPk (h : s.Consistent) (host : String)
    (pk : Bytes) : (s.sendRegisterPk host pk).Consistent := by
  have hsent : Consistent { s with
      sent := s.sent ++ [(host, Sent.registerPk ⟨s.config.id, s.uuid, pk, s.noRegisterDevice⟩)]
      sentRegisterPk := true } := by
    refine ⟨h.distinct, h.unconfirmed, ?_, h.okTask, h.mismatch, h.checking, h.applied⟩
    intro hnot other hother hconfirmed
    refine h.truthful ?_ other hother hconfirmed
    rintro ⟨kept, hsync, -, hne⟩
    exact hnot ⟨kept, hsync, rfl, hne⟩
  exact hsent.goTo host nofun nofun

theorem Consistent.syncNew (h : s.Consistent) (hsync : s.sync = .idle) :
    Consistent { s with sync := .checking s.cachedKeyPair } := by
  have hnot : ¬s.WillResend := by
    rintro ⟨kept, happlied, -⟩
    exact absurd (hsync.symm.trans happlied) nofun
  exact ⟨h.distinct, h.unconfirmed, fun _ => h.truthful hnot, h.okTask, h.mismatch,
    fun pk heq => Sync.checking.inj heq, nofun⟩

variable {pk : Option Bytes}

theorem Consistent.syncSame (h : s.Consistent)
    (hsync : s.sync = .checking pk) : Consistent { s with sync := .applied pk } := by
  have hnot : ¬s.WillResend := by
    rintro ⟨kept, happlied, -⟩
    exact absurd (hsync.symm.trans happlied) nofun
  refine ⟨h.distinct, h.unconfirmed, fun _ => h.truthful hnot, h.okTask, h.mismatch, nofun, ?_⟩
  intro q heq hcache
  cases heq
  exact absurd (hcache.symm.trans (h.checking q hsync)) nofun

theorem Consistent.syncSet (h : s.Consistent) {c : Config}
    (hsync : s.sync = .checking pk) (hpair : c.keyPair ≠ none) (hno : s.NoOkUnderWay)
    (hmismatch : ∀ host ∈ s.servers, s.tasks host ≠ .mismatchReset) (hmay : s.MaySet pk c) :
    Consistent { s.setConfig c with sync := .applied pk } := by
  let s' := { s.setConfig c with sync := .applied pk }
  have hcurrent : s'.currentPk = c.keyPair := by
    unfold currentPk
    by_cases hsame : s.cachedKeyPair = c.keyPair
    · obtain ⟨own, hown⟩ := Option.ne_none_iff_exists'.mp hpair
      rw [show s'.cachedKeyPair = c.keyPair from (if_pos hsame).trans hsame, hown]
    · rw [show s'.cachedKeyPair = none from if_neg hsame]
      rfl
  have hcache : ∀ q, pk = some q → c.keyPair ≠ some q → s'.cachedKeyPair = none := by
    rintro q rfl hdiffers
    have hkept := h.checking q hsync
    exact if_neg fun hsame => hdiffers (hsame.symm.trans hkept)
  refine ⟨h.distinct, hmay.1, ?_, fun host hhost htask => absurd htask (hno host hhost),
    fun host hhost htask => absurd htask (hmismatch host hhost), nofun, ?_⟩
  · intro hnot host hhost hconfirmed
    rcases hmay.2 with ⟨hsent, hsome, hdiffers⟩ | hregistered
    · obtain ⟨q, rfl⟩ := Option.ne_none_iff_exists'.mp hsome
      refine absurd ⟨some q, rfl, hsent, ?_⟩ hnot
      rw [show s'.cachedKeyPair = none from hcache q rfl hdiffers]
      exact (Option.some_ne_none q).symm
    · obtain ⟨r, hr, hid, hpk⟩ := hregistered host hhost hconfirmed
      exact ⟨r, hr, hid, hpk.trans hcurrent.symm⟩
  · intro q heq hnone
    cases heq
    refine ⟨hpair, fun hsame => ?_⟩
    have hkept := h.checking q hsync
    have hcached : s'.cachedKeyPair = s.cachedKeyPair := if_pos (hkept.trans hsame.symm)
    exact absurd ((hcached.trans hkept).symm.trans hnone) (Option.some_ne_none q)

/-- **The drop of `CheckIfResendPk`.** -/
theorem Consistent.syncDrop (h : s.Consistent) (hsync : s.sync = .applied pk)
    (hno : s.sentRegisterPk = true → s.cachedKeyPair ≠ pk → s.NoOkUnderWay) :
    Consistent { s.checkIfResendPk pk with sync := .idle } := by
  have hdone : ∀ s' : Mediators, s'.Consistent → ¬s'.WillResend →
      Consistent { s' with sync := .idle } := fun s' h' hnot =>
    ⟨h'.distinct, h'.unconfirmed, fun _ => h'.truthful hnot, h'.okTask, h'.mismatch, nofun, nofun⟩
  unfold checkIfResendPk
  split
  · rename_i hresend
    obtain ⟨hsent, hne⟩ := Bool.and_eq_true_iff.mp hresend
    have hreset := h.reset (hno hsent (of_decide_eq_true hne))
    refine ⟨hreset.distinct, hreset.unconfirmed, ?_, hreset.okTask, hreset.mismatch, nofun, nofun⟩
    intro _ host hhost hconfirmed
    have hnone := hreset.unconfirmed (s.config.setKeyConfirmed_keyConfirmed false) host hhost
    exact absurd (hnone.symm.trans hconfirmed) nofun
  · rename_i hquiet
    refine hdone s h ?_
    rintro ⟨kept, happlied, hsent, hne⟩
    obtain rfl := Sync.applied.inj (hsync.symm.trans happlied)
    exact hquiet (Bool.and_eq_true_iff.mpr ⟨hsent, decide_eq_true hne⟩)

theorem Consistent.storeKeyPair (h : s.Consistent) (pk : Bytes) (hcache : s.cachedKeyPair ≠ none) :
    Consistent { s with
      config := { s.config with keyPair := some pk }, generatedKeyPair := none } := by
  obtain ⟨q, hq⟩ := Option.ne_none_iff_exists'.mp hcache
  have hcurrent : currentPk { s with
      config := { s.config with keyPair := some pk }, generatedKeyPair := none } =
      s.currentPk := by
    unfold currentPk
    rw [hq]
  have hregistered : ∀ other, s.Registered other → Registered { s with
      config := { s.config with keyPair := some pk }, generatedKeyPair := none } other := by
    rintro other ⟨r, hr, hid, hpk⟩
    exact ⟨r, hr, hid, hpk.trans hcurrent.symm⟩
  refine ⟨h.distinct, h.unconfirmed, ?_, ?_, h.mismatch, h.checking,
    fun _ _ hnone => absurd hnone hcache⟩
  · intro hnot other hother hconfirmed
    exact hregistered other (h.truthful hnot other hother hconfirmed)
  · intro other hother htask
    obtain ⟨hkey, hreg⟩ := h.okTask other hother htask
    exact ⟨hkey, hregistered other hreg⟩

theorem Consistent.atTask (h : s.Consistent) {task : Task} {f : Mediators → Mediators}
    (hf : host ∈ s.servers → s.tasks host = task → (f s).Consistent) :
    (s.atTask host task f).Consistent := by
  unfold Mediators.atTask
  split
  · rename_i hat
    exact hf hat.1 hat.2
  · exact h

theorem Consistent.registerPeer (h : s.Consistent) (host : String) :
    (s.registerPeer host).Consistent := by
  unfold Mediators.registerPeer
  split
  · split
    · exact h.set _ _ _ _
    · exact h.goTo host nofun nofun
  · exact h

theorem Consistent.handleResponse (h : s.Consistent)
    {result : RegisterPkResult} {answers : RegisterPk} (htask : s.tasks host = .idle)
    (hproper : s.Proper (.registerPkResponse host result answers)) :
    (s.handleRegisterPkResponse host result answers).Consistent := by
  cases result with
  | ok =>
    obtain ⟨hid, hpk, hno⟩ := hproper htask
    exact h.handleOk hid hpk hno
  | uuidMismatch => exact h.goTo host nofun nofun
  | notDeployed => exact ((h.reset (hproper htask)).set _ true _ _).goTo host nofun nofun
  | other => exact h

theorem Consistent.handleUuidMismatch (h : s.Consistent)
    (hno : s.solvingPkMismatch = "" ∨ s.solvingPkMismatch = host → s.NoOkUnderWay) :
    (s.handleUuidMismatch host).Consistent := by
  unfold Mediators.handleUuidMismatch
  split
  · rename_i hmine
    have hreset := h.reset (hno (by simpa using hmine))
    refine ⟨hreset.distinct, hreset.unconfirmed, hreset.truthful, ?_, ?_, hreset.checking,
      hreset.applied⟩
    · intro other hother htask
      exact hreset.okTask other hother (task_of_goTo htask nofun)
    · intro _ _ _
      exact s.config.setKeyConfirmed_keyConfirmed false
  · exact h.goTo host nofun nofun

theorem Consistent.registerPk (h : s.Consistent) (host : String)
    (throttled : Bool) (fresh : Bytes) : (s.registerPk host throttled fresh).Consistent := by
  unfold Mediators.registerPk
  split
  · exact h.goTo host nofun nofun
  · exact ((h.set _ _ _ _).getKeyPair fresh).goTo host nofun nofun

theorem Consistent.step {e : Event} (h : s.Consistent) (hproper : s.Proper e) :
    (s.step e).Consistent := by
  unfold Mediators.step
  cases e with
  | timer host throttled =>
    refine h.atTask fun _ _ => ?_
    split
    · exact h
    · exact h.registerPeer host
  | registerPeerResponse host requestPk =>
    refine h.atTask fun _ _ => ?_
    split
    · exact h.goTo host nofun nofun
    · exact h
  | registerPkResponse host result answers =>
    refine h.atTask fun _ htask => ?_
    split
    · exact h.handleResponse htask hproper
    · exact h
  | confirmHost host =>
    refine h.atTask fun hhost htask => ?_
    exact (h.setHost hhost fun _ => h.okTask host hhost htask).goTo host nofun nofun
  | clearSolving host =>
    refine h.atTask fun _ _ => ?_
    split
    · exact h
    · exact (h.set _ _ _ _).goTo host nofun nofun
  | lockSolving host =>
    refine h.atTask fun _ htask => ?_
    split
    · exact h
    · exact h.handleUuidMismatch (hproper htask)
  | updateId host newId =>
    refine h.atTask fun hhost htask => ?_
    exact (h.updateId hhost htask newId).goTo host nofun nofun
  | registerPk host throttled fresh =>
    exact h.atTask fun _ _ => h.registerPk host throttled fresh
  | sendRegisterPk host =>
    dsimp only
    split
    · exact h.atTask fun _ _ => h.sendRegisterPk host _
    · exact h
  | unconfirmHost host =>
    refine h.atTask fun hhost _ => ?_
    exact (h.setHost (v := false) hhost nofun).goTo host nofun nofun
  | forceUpdatePk => exact h.reset hproper
  | syncNew =>
    dsimp only
    split
    · rename_i hsync
      exact h.syncNew hsync
    · exact h
  | syncSet config =>
    dsimp only
    split
    · rename_i pk hsync
      split
      · rename_i c
        split
        · exact h.syncSame hsync
        · rename_i hempty
          obtain ⟨hno, hmismatch, hmay⟩ := hproper pk hsync (Bool.eq_false_iff.mpr hempty)
          refine h.syncSet hsync ?_ hno hmismatch hmay
          intro hnone
          simp [Config.isEmpty, hnone] at hempty
      · exact h.syncSame hsync
    · exact h
  | syncDrop =>
    dsimp only
    split
    · rename_i pk hsync
      exact h.syncDrop hsync (hproper pk hsync)
    · exact h
  | storeKeyPair =>
    dsimp only
    split
    · rename_i pk hgenerated
      exact h.storeKeyPair pk (hproper (by rw [hgenerated]; nofun))
    · exact h

end Mediators

/-- **In a run of proper steps the flags tell the truth**: whenever both flags of a host are
set and no identity change is in progress, its last OK was for the current id and key. -/
theorem confirmed_truthful {s : Mediators} (hstart : s.Start) (events : List Event)
    (h : Run.Along Mediators.step Mediators.Proper s events) :
    Run.Always Mediators.step Mediators.Truthful s events := by
  have halways : Run.Always Mediators.step Mediators.Consistent s events :=
    Run.always_of_along (fun _ _ hconsistent hproper => hconsistent.step hproper)
      hstart.consistent h
  exact fun pre hpre => (halways pre hpre).truthful_of_settled

def freshClient : Mediators where
  servers := ["rs-ny.rustdesk.com:21116"]
  uuid := [1]
  noRegisterDevice := false
  serial := 0
  config := ⟨"100", some [7], false, fun _ => none⟩
  cachedKeyPair := none
  generatedKeyPair := none
  solvingPkMismatch := ""
  needsDeploy := false
  lastNotDeployedRegister := false
  sentRegisterPk := false
  tasks := fun _ => .idle
  sync := .idle
  sent := []
  lastOk := fun _ => none

theorem freshClient_start : freshClient.Start where
  distinct := by decide
  tasks := fun _ _ => rfl
  sync := rfl
  unconfirmed := fun _ _ _ => rfl
  truthful := fun _ _ hconfirmed => absurd hconfirmed nofun

def asks (host : String) : List Event := [.registerPk host false [], .sendRegisterPk host]

def refuses (host newId : String) (answers : RegisterPk) : List Event :=
  [.registerPkResponse host .uuidMismatch answers, .lockSolving host, .updateId host newId]

def accepts (host : String) (answers : RegisterPk) : List Event :=
  [.registerPkResponse host .ok answers, .confirmHost host, .clearSolving host]

def firstRequest : RegisterPk := ⟨"100", [1], [7], false⟩

def secondRequest : RegisterPk := ⟨"200", [1], [7], false⟩

/-- An id is refused, and the next one is registered. -/
theorem truthful_after_mismatch :
    Run.Always Mediators.step Mediators.Truthful freshClient
      (.timer "rs-ny.rustdesk.com:21116" false :: asks "rs-ny.rustdesk.com:21116" ++
        refuses "rs-ny.rustdesk.com:21116" "200" firstRequest ++
        asks "rs-ny.rustdesk.com:21116" ++ accepts "rs-ny.rustdesk.com:21116" secondRequest) :=
  confirmed_truthful freshClient_start _
    ⟨trivial, trivial, trivial, trivial, fun _ _ => by decide +kernel, trivial, trivial, trivial,
      fun _ => by decide +kernel, trivial, trivial, trivial⟩

/-- A request is accepted; the server asks for the key again and refuses it this time, a new
id is chosen and asked for; then comes a copy of the first answer. -/
def lateOk : List Event :=
  .timer "rs-ny.rustdesk.com:21116" false :: asks "rs-ny.rustdesk.com:21116" ++
    accepts "rs-ny.rustdesk.com:21116" firstRequest ++
    .registerPeerResponse "rs-ny.rustdesk.com:21116" true :: asks "rs-ny.rustdesk.com:21116" ++
    refuses "rs-ny.rustdesk.com:21116" "200" firstRequest ++
    asks "rs-ny.rustdesk.com:21116" ++ accepts "rs-ny.rustdesk.com:21116" firstRequest

/-- The new id is then confirmed and no server knows it. -/
theorem late_ok_confirms :
    ¬∀ (s : Mediators), s.Start → ∀ events,
      Run.Always Mediators.step Mediators.Truthful s events := by
  intro h
  have htruthful := (h freshClient freshClient_start lateOk).last
  obtain ⟨r, hr, hid, -⟩ := htruthful (by decide +kernel) "rs-ny.rustdesk.com:21116"
    (by decide +kernel) (by decide +kernel)
  obtain rfl : firstRequest = r := Option.some.inj hr
  revert hid
  decide +kernel

end RustDesk.Registration
