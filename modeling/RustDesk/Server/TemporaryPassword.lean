import RustDesk.Server.Authentication

/-!
# Guessing the temporary password

A login compares the password, and then `check_update_temporary_password` counts what came
of it.  These are two steps, between which other connections take theirs and the password
may change.  A failure is counted for the password that is current when it is counted; a
match clears all failures that were counted until then.

`Guessing` is the shared tables with `n` connections that take these steps in any order.
A round of a password begins when it becomes current or is matched, and ends when it is
replaced.

* `failed_le`: in a round there are no more than `9 + n` failures and those that late
  matches have cleared.
* `guessing_spec`: when the failures of a round are bounded by `10 + n`, and exactly when
  the counter is about the password beside it.
-/

namespace RustDesk

open Run

variable {p : Platform} {n : Nat}

namespace Connection

/-- What the comparisons of `validate_password` find. -/
inductive Compared where
  | temporary
  | permanent
  | wrong

/-- `validate_password`, up to the update. -/
def comparePassword (c : Connection) (env : Env p) (allowPermanentPassword : Bool) :
    Compared × Connection :=
  if env.temporaryEnabled && c.validatePasswordPlain p c.shared.temporaryPassword then
    let c := c.setConnAuditPrimaryAuth .temporaryPassword
    (.temporary, c.updateOrInsertSession env (some c.shared.temporaryPassword) (some false))
  else if (env.permanentEnabled || allowPermanentPassword) && c.validatePermanentPassword env then
    (.permanent, c.setConnAuditPrimaryAuth .permanentPassword)
  else (.wrong, c)

def withShared (c : Connection) (shared : Shared) : Connection := c.modifyShared fun _ => shared

end Connection

/-- A moment at which temporary passwords are enabled.  `get_auto_password` draws at least
six characters. -/
structure TemporaryMoment (p : Platform) where
  env : Env p
  enabled : env.temporaryEnabled = true
  drawn : env.nextTemporaryPassword ≠ ""

/-- A login between its comparison and the update: the password it was compared with, what
came of it, and the round. -/
structure ComparedLogin where
  value : String
  matched : Bool
  round : Nat

/-- The shared tables and `n` connections.  The rest is no state of the program: it says
what has happened in the round and since the counter was last reset. -/
structure Guessing (n : Nat) where
  shared : Shared
  pending : Fin n → Option ComparedLogin
  round : Nat
  /-- The comparisons of the round that failed and reject the login. -/
  failed : Nat
  counted : Nat
  /-- Those of them that were counted and have been cleared by a match before the round. -/
  cleared : Nat
  /-- The passwords that the counted failures were compared with. -/
  charged : List String

namespace Guessing

/-- A step of a connection, or a change of the password that no attempt has caused: by the
user, or at the end of a session. -/
inductive Input (p : Platform) (n : Nat) where
  | compare (i : Fin n) (c : Connection) (now : TemporaryMoment p)
      (allowPermanentPassword : Bool)
  | checkUpdate (i : Fin n) (c : Connection) (now : TemporaryMoment p)
  | updateTemporaryPassword (now : TemporaryMoment p)

def started (n : Nat) (password : { s : String // s ≠ "" }) : Guessing n where
  shared := { Shared.idle with temporaryPassword := password.1 }
  pending _ := none
  round := 0
  failed := 0
  counted := 0
  cleared := 0
  charged := []

def newRound (w : Guessing n) : Guessing n :=
  { w with round := w.round + 1, failed := 0, counted := 0, cleared := 0 }

def compare (w : Guessing n) (i : Fin n) (c : Connection) (env : Env p) (allow : Bool) :
    Guessing n :=
  match (c.withShared w.shared).comparePassword env allow with
  | (.temporary, c) =>
    let w := { w.newRound with shared := c.shared }
    { w with
      pending := Function.update w.pending i (some ⟨w.shared.temporaryPassword, true, w.round⟩) }
  | (.permanent, _) => w
  | (.wrong, _) =>
    { w with
      pending := Function.update w.pending i (some ⟨w.shared.temporaryPassword, false, w.round⟩)
      failed := w.failed + 1 }

/-- The update after a comparison.  A counter that is back at zero after a failure has been
reset, with a new password; one that is at one has begun with this failure. -/
def checkUpdate (w : Guessing n) (i : Fin n) (a : ComparedLogin) (c : Connection) (env : Env p) :
    Guessing n :=
  let w := { w with
    shared := ((c.withShared w.shared).checkUpdateTemporaryPassword env a.matched).shared
    pending := Function.update w.pending i none }
  let failures := w.shared.temporaryPasswordFailures.2
  if a.matched then { w with counted := 0, cleared := w.cleared + w.counted, charged := [] }
  else if failures = 0 then { w.newRound with charged := [] }
  else
    { w with
      counted := if a.round = w.round then w.counted + 1 else w.counted
      charged := if failures = 1 then [a.value] else a.value :: w.charged }

def step (w : Guessing n) : Input p n → Guessing n
  | .compare i c now allow =>
    match w.pending i with
    | none => w.compare i c now.env allow
    | some _ => w
  | .checkUpdate i c now =>
    match w.pending i with
    | some a => w.checkUpdate i a c now.env
    | none => w
  | .updateTemporaryPassword now =>
    { w.newRound with
      shared := { w.shared with temporaryPassword := now.env.nextTemporaryPassword } }

/-- Ten failures, and one for each connection that was under way. -/
def Bounded (w : Guessing n) : Prop := w.failed ≤ 10 + n

def Refers (w : Guessing n) : Prop :=
  ∀ value ∈ w.charged, value = w.shared.temporaryPasswordFailures.1

def Prompt (w : Guessing n) : Input p n → Prop
  | .checkUpdate i _ _ => ∀ a, w.pending i = some a → a.matched = true →
      w.cleared + w.counted ≤ 1
  | _ => True

/-- A failure counts against the password that was tried, or changes the password anyway. -/
def Own (w : Guessing n) : Input p n → Prop
  | .checkUpdate i _ _ => ∀ a, w.pending i = some a → a.matched = false →
      a.value = w.shared.temporaryPassword ∨
        w.shared.temporaryPasswordFailures.1 = w.shared.temporaryPassword ∧
          9 ≤ w.shared.temporaryPasswordFailures.2
  | _ => True

def fresh (round : Nat) : Option ComparedLogin → Bool
  | some a => !a.matched && a.round == round
  | none => false

structure Inv (w : Guessing n) : Prop where
  password_ne : w.shared.temporaryPassword ≠ ""
  lt_ten : w.shared.temporaryPasswordFailures.2 < 10
  charged_length : w.shared.temporaryPasswordFailures.2 = w.charged.length
  counted_le : w.counted ≠ 0 →
    w.shared.temporaryPasswordFailures.1 = w.shared.temporaryPassword ∧
      (w.counted : Int) ≤ w.shared.temporaryPasswordFailures.2
  failed_eq : w.failed = w.counted + w.cleared + Slots.count (fresh w.round) w.pending
  round_le : ∀ i a, w.pending i = some a → a.round ≤ w.round

variable {w : Guessing n} {i : Fin n} {a : ComparedLogin} {c : Connection} {env : Env p}
  {allow : Bool} {shared : Shared}

theorem comparePassword_keeps (c : Connection) (env : Env p) (allow : Bool) :
    (c.comparePassword env allow).2.shared.temporaryPassword = c.shared.temporaryPassword ∧
      (c.comparePassword env allow).2.shared.temporaryPasswordFailures
        = c.shared.temporaryPasswordFailures := by
  unfold Connection.comparePassword
  split
  · exact ⟨rfl, rfl⟩
  · split <;> exact ⟨rfl, rfl⟩

def currentFailures (s : Shared) : Int :=
  if s.temporaryPasswordFailures.1 ≠ s.temporaryPassword then 0
  else s.temporaryPasswordFailures.2

theorem checkUpdate_shared (c : Connection) {success : Bool}
    (henabled : env.temporaryEnabled = true) (hne : shared.temporaryPassword ≠ "") :
    ((c.withShared shared).checkUpdateTemporaryPassword env success).shared =
      if success then
        { shared with temporaryPasswordFailures := (shared.temporaryPassword, 0) }
      else if currentFailures shared + 1 < 10 then
        { shared with
          temporaryPasswordFailures := (shared.temporaryPassword, currentFailures shared + 1) }
      else
        { shared with
          temporaryPassword := env.nextTemporaryPassword
          temporaryPasswordFailures := (env.nextTemporaryPassword, 0) } := by
  have hskip : (!env.temporaryEnabled || (c.withShared shared).shared.temporaryPassword = "")
      = false := by
    have hne' : (c.withShared shared).shared.temporaryPassword ≠ "" := hne
    simp [henabled, hne']
  simp only [Connection.checkUpdateTemporaryPassword, hskip, Bool.false_eq_true, if_false]
  cases success with
  | true => rfl
  | false =>
    simp only [Bool.false_eq_true, if_false]
    by_cases hfew : currentFailures shared + 1 < 10
    · rw [if_pos hfew]
      exact congrArg Connection.shared (if_pos hfew)
    · rw [if_neg hfew]
      exact congrArg Connection.shared (if_neg hfew)

theorem Inv.currentFailures_range (h : w.Inv) :
    0 ≤ currentFailures w.shared ∧ currentFailures w.shared < 10 := by
  have hlt := h.lt_ten
  have hlength := h.charged_length
  rw [currentFailures]
  split <;> omega

theorem Inv.count_newRound (h : w.Inv) : Slots.count (fresh (w.round + 1)) w.pending = 0 := by
  refine Slots.count_eq_zero fun i => ?_
  cases ha : w.pending i with
  | none => rfl
  | some a =>
    have := h.round_le i a ha
    simp only [fresh, Bool.and_eq_false_imp, beq_eq_false_iff_ne]
    omega

theorem Inv.failed_le (h : w.Inv) : w.failed ≤ 9 + n + w.cleared := by
  have hfresh := Slots.count_le (fresh w.round) w.pending
  have hlt := h.lt_ten
  have hfailed := h.failed_eq
  by_cases hcounted : w.counted = 0
  · omega
  · have := (h.counted_le hcounted).2
    omega

theorem inv_started (password : { s : String // s ≠ "" }) : (started n password).Inv where
  password_ne := password.2
  lt_ten := show (0 : Int) < 10 by decide
  charged_length := rfl
  counted_le := fun h => absurd rfl h
  failed_eq := by
    rw [Slots.count_eq_zero fun _ => rfl]
    rfl
  round_le := nofun

theorem round_le_update {x : Option ComparedLogin} (h : w.Inv) {round : Nat}
    (hround : w.round ≤ round) (hx : ∀ a, x = some a → a.round ≤ round) :
    ∀ j b, Function.update w.pending i x j = some b → b.round ≤ round := by
  intro j b hb
  by_cases hj : j = i
  · subst hj
    rw [Function.update_self] at hb
    exact hx b hb
  · rw [Function.update_of_ne hj] at hb
    exact (h.round_le j b hb).trans hround

theorem Inv.compare (h : w.Inv) (hidle : w.pending i = none) : (w.compare i c env allow).Inv := by
  obtain ⟨hpassword, hfailures⟩ := comparePassword_keeps (c.withShared w.shared) env allow
  rw [Guessing.compare]
  split
  next c' heq =>
    rw [heq] at hpassword hfailures
    have hcount := Slots.count_update (fresh (w.round + 1)) w.pending i
      (some ⟨c'.shared.temporaryPassword, true, w.round + 1⟩)
    rw [hidle, h.count_newRound] at hcount
    constructor
    case password_ne => exact hpassword.trans_ne h.password_ne
    case lt_ten => exact (congrArg Prod.snd hfailures).trans_lt h.lt_ten
    case charged_length => exact (congrArg Prod.snd hfailures).trans h.charged_length
    case counted_le => exact fun hne => absurd rfl hne
    case failed_eq => simpa [newRound, fresh] using hcount.symm
    case round_le =>
      refine round_le_update h (Nat.le_succ _) fun a ha => ?_
      cases ha
      exact Nat.le_refl _
  next => exact h
  next =>
    have hcount := Slots.count_update (fresh w.round) w.pending i
      (some ⟨w.shared.temporaryPassword, false, w.round⟩)
    rw [hidle] at hcount
    refine ⟨h.password_ne, h.lt_ten, h.charged_length, h.counted_le, ?_, ?_⟩
    · have hfailed := h.failed_eq
      simp only [fresh, Bool.not_false, Bool.true_and, beq_self_eq_true, Bool.toNat_true,
        Bool.toNat_false] at hcount
      simp only
      omega
    · refine round_le_update h (Nat.le_refl _) fun a ha => ?_
      cases ha
      exact Nat.le_refl _

/-- **What an update does**: a match clears the failures, the tenth failure changes the
password, and any other is counted. -/
theorem checkUpdate_eq (h : w.Inv) (henabled : env.temporaryEnabled = true) :
    w.checkUpdate i a c env =
      if a.matched then
        { w with
          shared := { w.shared with
            temporaryPasswordFailures := (w.shared.temporaryPassword, 0) }
          pending := Function.update w.pending i none
          counted := 0
          cleared := w.cleared + w.counted
          charged := [] }
      else if currentFailures w.shared + 1 < 10 then
        { w with
          shared := { w.shared with
            temporaryPasswordFailures :=
              (w.shared.temporaryPassword, currentFailures w.shared + 1) }
          pending := Function.update w.pending i none
          counted := if a.round = w.round then w.counted + 1 else w.counted
          charged := if currentFailures w.shared = 0 then [a.value] else a.value :: w.charged }
      else
        { w.newRound with
          shared := { w.shared with
            temporaryPassword := env.nextTemporaryPassword
            temporaryPasswordFailures := (env.nextTemporaryPassword, 0) }
          pending := Function.update w.pending i none
          charged := [] } := by
  obtain ⟨hcurrent, -⟩ := h.currentFailures_range
  rw [Guessing.checkUpdate]
  simp only [checkUpdate_shared c henabled h.password_ne]
  cases a.matched with
  | true => rfl
  | false =>
    simp only [Bool.false_eq_true, if_false]
    by_cases hfew : currentFailures w.shared + 1 < 10
    · rw [if_pos hfew, if_pos hfew, if_neg (by simp only; omega)]
      simp only [add_eq_right]
    · rw [if_neg hfew, if_neg hfew]
      rfl

theorem currentFailures_cases (s : Shared) : currentFailures s = 0 ∨
    s.temporaryPasswordFailures.1 = s.temporaryPassword ∧
      currentFailures s = s.temporaryPasswordFailures.2 := by
  rw [currentFailures]
  split
  next => exact .inl rfl
  next hsame => exact .inr ⟨not_not.mp hsame, rfl⟩

theorem count_checked (hpending : w.pending i = some a) (round : Nat) :
    Slots.count (fresh round) (Function.update w.pending i none) + (fresh round (some a)).toNat =
      Slots.count (fresh round) w.pending := by
  have hcount := Slots.count_update (fresh round) w.pending i none
  rw [hpending] at hcount
  exact hcount

theorem Inv.checkUpdate (h : w.Inv) (hpending : w.pending i = some a)
    (henabled : env.temporaryEnabled = true) (hdrawn : env.nextTemporaryPassword ≠ "") :
    (w.checkUpdate i a c env).Inv := by
  have hrounds := round_le_update (i := i) (x := none) h (Nat.le_refl _) nofun
  have hcount := count_checked hpending w.round
  have hfailed := h.failed_eq
  obtain ⟨hcurrent, -⟩ := h.currentFailures_range
  rw [checkUpdate_eq h henabled]
  split
  next hmatched =>
    have hstale : fresh w.round (some a) = false := by simp [fresh, hmatched]
    rw [hstale, Bool.toNat_false] at hcount
    refine ⟨h.password_ne, show (0 : Int) < 10 by decide, rfl, fun hne => absurd rfl hne, ?_,
      hrounds⟩
    simp only
    omega
  next hmatched =>
    have hcounted : w.counted ≠ 0 → (w.counted : Int) ≤ currentFailures w.shared := by
      intro hne
      obtain ⟨hpassword, hle⟩ := h.counted_le hne
      rw [currentFailures, if_neg (not_not.mpr hpassword)]
      exact hle
    split
    next hfew =>
      refine ⟨h.password_ne, hfew, ?_, fun _ => ⟨rfl, ?_⟩, ?_, hrounds⟩
      · have hlength := h.charged_length
        have hcases := currentFailures_cases w.shared
        simp only
        split
        next hnone =>
          rw [hnone]
          rfl
        next hmore =>
          rw [List.length_cons]
          omega
      · simp only
        split <;> omega
      · simp only [fresh, Bool.eq_false_of_not_eq_true hmatched, Bool.not_false,
          Bool.true_and] at hcount ⊢
        by_cases hround : a.round = w.round
        · simp only [hround, if_true, beq_self_eq_true, Bool.toNat_true] at hcount ⊢
          omega
        · simp only [hround, if_false, beq_eq_false_iff_ne.mpr hround, Bool.toNat_false]
            at hcount ⊢
          omega
    next =>
      refine ⟨hdrawn, show (0 : Int) < 10 by decide, rfl, fun hne => absurd rfl hne, ?_, ?_⟩
      · have hnew := count_checked hpending (w.round + 1)
        rw [h.count_newRound] at hnew
        simp only [newRound]
        omega
      · exact fun j b hb => (hrounds j b hb).trans (Nat.le_succ _)

theorem Inv.step (h : w.Inv) (input : Input p n) : (w.step input).Inv := by
  cases input with
  | compare i c now allow =>
    rw [Guessing.step]
    split
    next hidle => exact h.compare hidle
    next => exact h
  | checkUpdate i c now =>
    rw [Guessing.step]
    split
    next a hpending => exact h.checkUpdate hpending now.enabled now.drawn
    next => exact h
  | updateTemporaryPassword now =>
    refine ⟨now.drawn, h.lt_ten, h.charged_length, fun hne => absurd rfl hne, ?_, ?_⟩
    · have hnew := h.count_newRound
      simp only [Guessing.step, newRound]
      omega
    · exact fun j b hb => (h.round_le j b hb).trans (Nat.le_succ _)

theorem compare_keeps (w : Guessing n) (i : Fin n) (c : Connection) (env : Env p) (allow : Bool) :
    (w.compare i c env allow).charged = w.charged ∧
      (w.compare i c env allow).shared.temporaryPasswordFailures =
        w.shared.temporaryPasswordFailures ∧
      ((w.compare i c env allow).cleared = w.cleared ∨ (w.compare i c env allow).cleared = 0) := by
  obtain ⟨-, hfailures⟩ := comparePassword_keeps (c.withShared w.shared) env allow
  rw [Guessing.compare]
  split
  next c' heq =>
    rw [heq] at hfailures
    exact ⟨rfl, hfailures, .inr rfl⟩
  next => exact ⟨rfl, rfl, .inl rfl⟩
  next => exact ⟨rfl, rfl, .inl rfl⟩

theorem refers_checkUpdate_iff (h : w.Inv) (hrefers : w.Refers)
    (henabled : env.temporaryEnabled = true) :
    (w.checkUpdate i a c env).Refers ↔ (a.matched = false →
      a.value = w.shared.temporaryPassword ∨
        w.shared.temporaryPasswordFailures.1 = w.shared.temporaryPassword ∧
          9 ≤ w.shared.temporaryPasswordFailures.2) := by
  obtain ⟨hcurrent, -⟩ := h.currentFailures_range
  have hcases := currentFailures_cases w.shared
  rw [checkUpdate_eq h henabled]
  split
  next hmatched =>
    exact iff_of_true nofun fun hfails => absurd (hmatched.symm.trans hfails) nofun
  next hmatched =>
    rw [imp_iff_right (Bool.eq_false_of_not_eq_true hmatched)]
    split
    next hfew =>
      have hfull : ¬(w.shared.temporaryPasswordFailures.1 = w.shared.temporaryPassword ∧
          9 ≤ w.shared.temporaryPasswordFailures.2) := by
        rintro ⟨hsame, hnine⟩
        rw [currentFailures, if_neg (not_not.mpr hsame)] at hfew
        omega
      rw [or_iff_left hfull]
      constructor
      · intro hall
        refine hall a.value ?_
        simp only
        split <;> exact List.mem_cons_self
      · rintro hvalue value hmem
        simp only at hmem
        split at hmem
        next => exact (List.mem_singleton.mp hmem).trans hvalue
        next hmore =>
          rcases List.mem_cons.mp hmem with rfl | hmem
          · exact hvalue
          · rcases hcases with hnone | ⟨hsame, -⟩
            · exact absurd hnone hmore
            · exact (hrefers value hmem).trans hsame
    next hfew =>
      refine iff_of_true nofun (.inr ?_)
      rcases hcases with hnone | ⟨hsame, heq⟩
      · omega
      · exact ⟨hsame, by omega⟩

theorem refers_step_iff (h : w.Inv) (hrefers : w.Refers) (input : Input p n) :
    (w.step input).Refers ↔ w.Own input := by
  cases input with
  | compare i c now allow =>
    refine iff_of_true ?_ trivial
    rw [Guessing.step]
    split
    next =>
      obtain ⟨hcharged, hfailures, -⟩ := compare_keeps w i c now.env allow
      rw [Refers, hcharged, hfailures]
      exact hrefers
    next => exact hrefers
  | checkUpdate i c now =>
    rw [Guessing.step, Own]
    split
    next a hpending =>
      rw [refers_checkUpdate_iff h hrefers now.enabled]
      simp only [hpending, Option.some.injEq, forall_eq']
    next hpending => exact iff_of_true hrefers fun a ha => nomatch hpending.symm.trans ha
  | updateTemporaryPassword now => exact iff_of_true hrefers trivial

theorem cleared_step (hcleared : w.cleared ≤ 1) (input : Input p n) (hprompt : w.Prompt input) :
    (w.step input).cleared ≤ 1 := by
  cases input with
  | compare i c now allow =>
    rw [Guessing.step]
    split
    next =>
      rcases (compare_keeps w i c now.env allow).2.2 with hsame | hzero
      · exact hsame.trans_le hcleared
      · exact hzero.trans_le (Nat.zero_le 1)
    next => exact hcleared
  | checkUpdate i c now =>
    rw [Guessing.step]
    split
    next a hpending =>
      rw [Guessing.checkUpdate]
      split
      next hmatched => exact hprompt a hpending hmatched
      next =>
        split
        next => exact Nat.zero_le 1
        next => exact hcleared
    next => exact hcleared
  | updateTemporaryPassword now => exact Nat.zero_le 1

/-- **Guesses at the temporary password.**  The failures of a round are bounded as long as
no match clears more than one of them; and the counter is about the password beside it
exactly if every failure is counted while its password is current, or is the tenth. -/
theorem guessing_spec (password : { s : String // s ≠ "" }) (inputs : List (Input p n)) :
    (Along step Prompt (started n password) inputs →
      Always step Bounded (started n password) inputs) ∧
    (Always step Refers (started n password) inputs ↔
      Along step Own (started n password) inputs) := by
  constructor
  · intro hprompt
    have hgood : Always step (fun w => w.Inv ∧ w.cleared ≤ 1) (started n password) inputs :=
      always_of_along (fun w input hw hp => ⟨hw.1.step input, cleared_step hw.2 input hp⟩)
        ⟨inv_started password, Nat.zero_le 1⟩ hprompt
    intro before hbefore
    obtain ⟨hinv, hcleared⟩ := hgood before hbefore
    have := hinv.failed_le
    rw [Bounded]
    omega
  · exact always_iff_along (J := fun _ => Inv) (W := fun _ _ => True) (N := inputs.length) (n := 0)
      (fun _ _ input _ hw => hw.step input)
      (fun _ _ input _ _ hw hrefers => refers_step_iff hw hrefers input)
      (by omega) (inv_started password) nofun (along_of_forall (fun _ _ => trivial) _ _)

def guessTime : TemporaryMoment linux where
  env := { Env.idle linux with nextTemporaryPassword := "another" }
  enabled := by decide
  drawn := by decide

def peerWith (answer : String) : Connection :=
  let c := Connection.new (.idle linux) .idle
  { c with lr := { LoginRequest.default with
      password := asBytes answer ++ asBytes c.salt ++ asBytes c.challenge } }

def compares (i : Fin n) (answer : String) : Input linux n :=
  .compare i (peerWith answer) guessTime false

def updates (i : Fin n) : Input linux n := .checkUpdate i (peerWith "") guessTime

def guesses (i : Fin n) (k : Nat) : List (Input linux n) :=
  (List.replicate k [compares i "guess", updates i]).flatten

/-- One connection matches; nine guesses of another are counted before its update clears
them, and then there are more. -/
def lateMatch (i j : Fin n) : List (Input linux n) :=
  compares i "secret" :: guesses j 9 ++ updates i :: guesses j 4

def changedBetween (i : Fin n) : List (Input linux n) :=
  [compares i "guess", .updateTemporaryPassword guessTime, updates i]

/-- **A late match gives more guesses**, and a late failure is charged to the new
password. -/
theorem late_updates :
    ¬Always step Bounded (started 2 ⟨"secret", by decide⟩) (lateMatch 0 1) ∧
      ¬Always step Refers (started 2 ⟨"secret", by decide⟩) (changedBetween 0) := by
  constructor
  · intro h
    have hfailed : (exec step (started 2 ⟨"secret", by decide⟩) (lateMatch 0 1)).failed = 13 := by
      decide +kernel
    have := h.last
    rw [Bounded, hfailed] at this
    omega
  · intro h
    have hcharged : (exec step (started 2 ⟨"secret", by decide⟩) (changedBetween 0)).charged
        = ["secret"] := by decide +kernel
    have hbeside : (exec step (started 2 ⟨"secret", by decide⟩)
        (changedBetween 0)).shared.temporaryPasswordFailures.1 = "another" := by decide +kernel
    have := h.last "secret" (hcharged ▸ List.mem_cons_self)
    rw [hbeside] at this
    exact absurd this (by decide)

end Guessing
end RustDesk
