import RustDesk.Server.Subscriptions

/-!
# Subscriptions and permissions

What a remote session is subscribed to follows from what the local user grants and what
the peer asks for.  Both change while the session runs, each change being followed by
calls of `subscribe`.

`subscriptions_follow`: the subscriptions stay what they should be exactly if three
steps do not occur, after which no call of `subscribe` repairs them.
-/

namespace RustDesk

open List

structure Rights where
  keyboard : Bool
  clipboard : Bool
  audio : Bool
  file : Bool
  showRemoteCursor : Bool
  disableAudio : Bool
  enableFileTransfer : Bool
  disableClipboard : Bool
  disableKeyboard : Bool

namespace Rights

variable {p : Platform}

def wants (r : Rights) (env : Env p) : Service → Option Bool
  | .clipboard => some (r.clipboard && !r.disableClipboard && (r.keyboard && !r.disableKeyboard)
      && env.builtinOption "one-way-clipboard-redirection" ≠ "Y")
  | .fileClipboard =>
    if p.build.unixFileCopyPaste then
      some (r.clipboard && !r.disableClipboard && (r.file && r.enableFileTransfer)
        && env.builtinOption "one-way-file-transfer" ≠ "Y")
    else none
  | .audio => some (r.audio && !r.disableAudio)
  | .cursor => some (r.keyboard && !r.disableKeyboard || r.showRemoteCursor)
  | .cursorPos => some r.showRemoteCursor
  | _ => none

def switch (r : Rights) (permission : String) (enabled : Bool) : Rights :=
  if permission = "keyboard" then { r with keyboard := enabled }
  else if permission = "clipboard" then { r with clipboard := enabled }
  else if permission = "audio" then { r with audio := enabled }
  else if permission = "file" then { r with file := enabled }
  else r

/-- The rights after each group of options, in the order of `update_options`. -/
def setCursor (r : Rights) (b : Build) (o : OptionMessage) : Rights :=
  { r with showRemoteCursor := if b.mobile then r.showRemoteCursor
      else (setTo o.showRemoteCursor).getD r.showRemoteCursor }

def setAudio (r : Rights) (o : OptionMessage) : Rights :=
  { r with disableAudio := (setTo o.disableAudio).getD r.disableAudio }

def setFileTransfer (r : Rights) (b : Build) (o : OptionMessage) : Rights :=
  { r with enableFileTransfer := if b.os = .windows || b.unixFileCopyPaste then
        (setTo o.enableFileTransfer).getD r.enableFileTransfer
      else r.enableFileTransfer }

def setClipboard (r : Rights) (o : OptionMessage) : Rights :=
  { r with disableClipboard := (setTo o.disableClipboard).getD r.disableClipboard }

def setKeyboard (r : Rights) (o : OptionMessage) : Rights :=
  { r with disableKeyboard := (setTo o.disableKeyboard).getD r.disableKeyboard }

def setOptions (r : Rights) (b : Build) (o : OptionMessage) : Rights :=
  ((((r.setCursor b o).setAudio o).setFileTransfer b o).setClipboard o).setKeyboard o

def announces (r : Rights) (env : Env p) (on : Bool) (services : List Service) (name : Service) :
    Option Bool :=
  if on = true ∧ env.serverAlive = true ∧ name ∈ services then r.wants env name else none

def optionDecides (r : Rights) (env : Env p) (o : OptionMessage) (name : Service) : Option Bool :=
  let cursor := r.setCursor p.build o
  let audio := cursor.setAudio o
  let file := audio.setFileTransfer p.build o
  let clipboard := file.setClipboard o
  let keyboard := clipboard.setKeyboard o
  keyboard.announces env (setTo o.disableKeyboard).isSome [.clipboard, .fileClipboard, .cursor] name
    <|> clipboard.announces env (setTo o.disableClipboard).isSome [.clipboard] name
    <|> file.announces env (setTo o.enableFileTransfer).isSome [.fileClipboard] name
    <|> audio.announces env (setTo o.disableAudio).isSome [.audio] name
    <|> cursor.announces env ((setTo o.showRemoteCursor).isSome && !p.build.mobile)
      [.cursor, .cursorPos] name

end Rights

namespace Connection

variable {p : Platform} {env : Env p} {c c' c'' : Connection} {o : OptionMessage}

def rights (c : Connection) : Rights :=
  ⟨c.keyboard, c.clipboard, c.audio, c.file, c.showRemoteCursor, c.disableAudio,
    c.enableFileTransfer, c.disableClipboard, c.disableKeyboard⟩

/-- From `c` to `c'` the last calls of `subscribe` said `d`, and the rights became `r`. -/
structure Tells (c c' : Connection) (d : Service → Option Bool) (r : Rights) : Prop where
  decides : Decides c c' d
  rights : c'.rights = r
  auth : c'.toAuth = c.toAuth
  socket : c'.portForwardSocket = c.portForwardSocket

namespace Tells

variable {d d' : Service → Option Bool} {r r' : Rights}

theorem refl (c : Connection) : Tells c c undecided c.rights := ⟨.silent rfl, rfl, rfl, rfl⟩

theorem trans (h : Tells c c' d r) (h' : Tells c' c'' d' r') :
    Tells c c'' (fun name => d' name <|> d name) r' :=
  ⟨h.decides.trans h'.decides, h'.rights, h'.auth.trans h.auth, h'.socket.trans h.socket⟩

theorem congr (h : Tells c c' d r) (hd : ∀ name, d name = d' name) (hr : r = r') :
    Tells c c' d' r' :=
  ⟨h.decides.congr hd, h.rights.trans hr, h.auth, h.socket⟩

theorem unset (c : Connection) (env : Env p) (services : List Service) {on : Bool}
    (hon : on = false) (hr : c.rights = r) : Tells c c (r.announces env on services) r :=
  (refl c).congr (fun name => by simp [Rights.announces, undecided, hon]) hr

theorem quietly (h : Tells c c' d r) (h' : Tells c' c'' undecided c'.rights) : Tells c c'' d r :=
  (h.trans h').congr (fun _ => rfl) h.rights

theorem emit (h : Tells c c' d r) {e : Effect} (hplain : e.rebuilds = false)
    (hnone : ∀ name, e.decides name = none) : Tells c (c'.emit e) d r :=
  ⟨h.decides.emit hplain hnone, h.rights, h.auth, h.socket⟩

theorem subscribe (h : Tells c c' d r) (service : Service) (on : Bool) :
    Tells c (c'.subscribe env service on)
      (fun name => if env.serverAlive = true ∧ name = service then some on else d name) r := by
  have hsame : (c'.subscribe env service on).rights = c'.rights ∧
      (c'.subscribe env service on).toAuth = c'.toAuth ∧
      (c'.subscribe env service on).portForwardSocket = c'.portForwardSocket := by
    unfold Connection.subscribe
    split <;> exact ⟨rfl, rfl, rfl⟩
  exact ⟨h.decides.subscribe service on, hsame.1.trans h.rights, hsame.2.1.trans h.auth,
    hsame.2.2.trans h.socket⟩

theorem announce (h : Tells c c' d r) {service : Service} {on : Bool}
    (hon : c'.rights.wants env service = some on) :
    Tells c (c'.subscribe env service on)
      (fun name =>
        if env.serverAlive = true ∧ name = service then r.wants env name else d name) r := by
  refine (h.subscribe service on).congr (fun name => ?_) rfl
  by_cases hname : env.serverAlive = true ∧ name = service
  · rw [if_pos hname, if_pos hname, hname.2, ← h.rights, hon]
  · rw [if_neg hname, if_neg hname]

theorem send (h : Tells c c' d r) (m : PeerMessage) : Tells c (c'.send m) d r :=
  h.emit rfl fun _ => rfl

theorem sendToCm (h : Tells c c' d r) (m : CmData) : Tells c (c'.sendToCm m) d r :=
  h.emit rfl fun _ => rfl

theorem of_seeing (h : Tells (c.seeing env) c' d r) : Tells c c' d r :=
  ⟨h.decides, h.rights, h.auth, h.socket⟩

end Tells

theorem wants_clipboard : c.rights.wants env .clipboard = some (c.canSubClipboardService env) := rfl

theorem wants_fileClipboard (hunix : p.build.unixFileCopyPaste = true) :
    c.rights.wants env .fileClipboard = some (c.canSubFileClipboardService env) :=
  if_pos hunix

theorem wants_fileClipboard_none {r : Rights} (hunix : ¬p.build.unixFileCopyPaste = true) :
    r.wants env .fileClipboard = none :=
  if_neg hunix

theorem wants_cursor :
    c.rights.wants env .cursor = some (c.peerKeyboardEnabled || c.showRemoteCursor) := rfl

section Options

theorem updateImageQuality_tells : Tells c (c.updateImageQuality o) undecided c.rights := by
  have h := Tells.refl c
  unfold updateImageQuality
  split
  · exact h
  · dsimp only
    split_ifs <;> first | exact h | exact h.emit rfl fun _ => rfl

theorem updateCustomFps_tells : Tells c (c.updateCustomFps o) undecided c.rights := by
  have h := Tells.refl c
  unfold updateCustomFps
  split
  · exact h.emit rfl fun _ => rfl
  · exact h

theorem updateSupportedDecoding_tells :
    Tells c (c.updateSupportedDecoding o) undecided c.rights := by
  have h := Tells.refl c
  unfold updateSupportedDecoding
  split
  · exact h.emit rfl fun _ => rfl
  · exact h

theorem updateLockAfterSessionEnd_tells :
    Tells c (c.updateLockAfterSessionEnd o) undecided c.rights := by
  unfold updateLockAfterSessionEnd
  split <;> exact ⟨.silent rfl, rfl, rfl, rfl⟩

theorem updateFollowRemoteCursor_tells :
    Tells c (c.updateFollowRemoteCursor p o) undecided c.rights := by
  unfold updateFollowRemoteCursor
  split
  · split <;> exact ⟨.silent rfl, rfl, rfl, rfl⟩
  · exact .refl c

theorem updateFollowRemoteWindow_tells :
    ∃ d, Tells c (c.updateFollowRemoteWindow env o) d c.rights ∧
      ∀ name, name ≠ .windowFocus → d name = none := by
  unfold updateFollowRemoteWindow
  split
  · rename_i b _
    have hset : Tells c { c with followRemoteWindow := b } undecided c.rights :=
      ⟨.silent rfl, rfl, rfl, rfl⟩
    exact ⟨_, hset.subscribe _ _, fun name hname => by simp [hname, undecided]⟩
  · exact ⟨_, .refl c, fun _ _ => rfl⟩

theorem turnOffPrivacy_tells {implKey : String} :
    Tells c (c.turnOffPrivacy env implKey) undecided c.rights := by
  have h := Tells.refl c
  unfold turnOffPrivacy
  split
  · exact (h.emit rfl fun _ => rfl).send _
  · exact h.send _

theorem turnOnPrivacy_tells {implKey : String} :
    Tells c (c.turnOnPrivacy env implKey) undecided c.rights := by
  have h := Tells.refl c
  have hprevious : Tells c (c.sendPreviousPrivacyOff env) undecided c.rights := by
    unfold sendPreviousPrivacyOff
    split
    · split
      · exact h.send _
      · exact h
    · exact h
  have htried := hprevious.emit (e := .turnOnPrivacy implKey) rfl fun _ => rfl
  have hback := htried.emit (e := .turnOffPrivacy) rfl fun _ => rfl
  unfold turnOnPrivacy
  dsimp only
  split
  · exact h.send _
  · split
    · exact h.send _
    · split
      · split
        · exact htried.send _
        · exact hback.send _
      · exact htried.send _
      · split
        · exact hback.send _
        · exact htried.send _
      · exact htried.send _

theorem updatePrivacyMode_tells : Tells c (c.updatePrivacyMode env o) undecided c.rights := by
  unfold updatePrivacyMode
  split
  · split
    · exact turnOnPrivacy_tells
    · exact turnOffPrivacy_tells
    · exact .refl c
  · exact .refl c

theorem updateBlockInput_tells : Tells c (c.updateBlockInput o) undecided c.rights := by
  have h := Tells.refl c
  unfold updateBlockInput
  split
  · split
    · exact h.emit rfl fun _ => rfl
    · exact h.send _
  · exact h

theorem updateTerminalPersistent_tells :
    Tells c (c.updateTerminalPersistent p o) undecided c.rights := by
  unfold updateTerminalPersistent updateTerminalPersistence
  split
  · rename_i b _
    have hset : Tells c { c with terminalPersistent := b } undecided c.rights :=
      ⟨.silent rfl, rfl, rfl, rfl⟩
    split
    · exact .refl c
    · exact hset.emit rfl fun _ => rfl
  · exact .refl c

theorem updateShowMyCursor_tells : Tells c (c.updateShowMyCursor env o) undecided c.rights := by
  unfold updateShowMyCursor
  split
  · rename_i b _
    have hset : Tells c { c with showMyCursor := b } undecided c.rights :=
      ⟨.silent rfl, rfl, rfl, rfl⟩
    dsimp only
    split_ifs
    · exact .refl c
    · exact hset.emit rfl fun _ => rfl
    · exact hset.send _
    · exact hset
  · exact .refl c

theorem updateShowRemoteCursor_tells (c : Connection) (env : Env p) (o : OptionMessage) :
    Tells c (c.updateShowRemoteCursor env o)
      ((c.rights.setCursor p.build o).announces env
        ((setTo o.showRemoteCursor).isSome && !p.build.mobile) [.cursor, .cursorPos])
      (c.rights.setCursor p.build o) := by
  unfold updateShowRemoteCursor
  split
  · rename_i b hb
    split
    · rename_i hmobile
      exact .unset c env _ (by simp [hmobile]) (by simp [Rights.setCursor, hmobile])
    · rename_i hmobile
      have hset : Tells c { c with showRemoteCursor := b } undecided
          { c.rights with showRemoteCursor := b } := ⟨.silent rfl, rfl, rfl, rfl⟩
      refine ((hset.subscribe _ _).subscribe _ _).congr (fun name => ?_) ?_
      · cases name <;> simp [Rights.announces, Rights.wants, Rights.setCursor, undecided, hb,
          hmobile, peerKeyboardEnabled, rights]
      · simp [Rights.setCursor, hmobile, hb]
  · rename_i hb
    exact .unset c env _ (by simp [hb]) (by simp [Rights.setCursor, hb])

theorem updateDisableAudio_tells (env : Env p) (o : OptionMessage)
    (hcamera : c.isAuthedViewCameraConn = false) :
    Tells c (c.updateDisableAudio env o)
      ((c.rights.setAudio o).announces env (setTo o.disableAudio).isSome [.audio])
      (c.rights.setAudio o) := by
  unfold updateDisableAudio
  split
  · rename_i b hb
    have hset : Tells c { c with disableAudio := b } undecided
        { c.rights with disableAudio := b } := ⟨.silent rfl, rfl, rfl, rfl⟩
    have hother : { c with disableAudio := b }.isAuthedViewCameraConn = false := hcamera
    dsimp only
    rw [hother]
    refine (hset.subscribe _ _).congr (fun name => ?_) ?_
    · cases name <;> simp [Rights.announces, Rights.wants, Rights.setAudio, undecided, hb,
        audioEnabled, rights]
    · simp [Rights.setAudio, hb]
  · rename_i hb
    exact .unset c env _ (by simp [hb]) (by simp [Rights.setAudio, hb])

theorem updateEnableFileTransfer_tells (c : Connection) (env : Env p) (o : OptionMessage) :
    Tells c (c.updateEnableFileTransfer env o)
      ((c.rights.setFileTransfer p.build o).announces env (setTo o.enableFileTransfer).isSome
        [.fileClipboard])
      (c.rights.setFileTransfer p.build o) := by
  unfold updateEnableFileTransfer
  split
  · rename_i b hb
    split
    · rename_i hbuild
      have hset : Tells c { c with enableFileTransfer := b } undecided
          { c.rights with enableFileTransfer := b } := ⟨.silent rfl, rfl, rfl, rfl⟩
      have hrights :
          { c.rights with enableFileTransfer := b } = c.rights.setFileTransfer p.build o := by
        simp [Rights.setFileTransfer, hb, hbuild]
      have htold : ∀ q : Prop, [Decidable q] → ∀ d, Tells c
          (if q then { c with enableFileTransfer := b }.sendToCm d
            else { c with enableFileTransfer := b }) undecided
          { c.rights with enableFileTransfer := b } := by
        intro q _ d
        split
        · exact hset.sendToCm d
        · exact hset
      dsimp only
      generalize hc₁ : (if p.build.os = .windows then _ else _ : Connection) = c₁
      have hfirst : Tells c c₁ undecided { c.rights with enableFileTransfer := b } :=
        hc₁ ▸ htold _ _
      split
      · rename_i hunix
        have hemptied : Tells c (if b then c₁ else c₁.tryEmptyFileClipboard) undecided
            { c.rights with enableFileTransfer := b } := by
          split
          · exact hfirst
          · exact hfirst.emit rfl fun _ => rfl
        refine (hemptied.announce (wants_fileClipboard hunix)).congr (fun name => ?_) hrights
        cases name <;> simp [Rights.announces, undecided, hb, hrights]
      · rename_i hunix
        refine hfirst.congr (fun name => ?_) hrights
        cases name <;> simp [Rights.announces, undecided, wants_fileClipboard_none hunix]
    · rename_i hbuild
      refine (Tells.refl c).congr (fun name => ?_) ?_
      · cases name <;> simp_all [Rights.announces, undecided, Rights.wants]
      · simp [Rights.setFileTransfer, hbuild]
  · rename_i hb
    exact .unset c env _ (by simp [hb]) (by simp [Rights.setFileTransfer, hb])

theorem updateDisableClipboard_tells (c : Connection) (env : Env p) (o : OptionMessage) :
    Tells c (c.updateDisableClipboard env o)
      ((c.rights.setClipboard o).announces env (setTo o.disableClipboard).isSome [.clipboard])
      (c.rights.setClipboard o) := by
  unfold updateDisableClipboard
  split
  · rename_i b hb
    have hset : Tells c { c with disableClipboard := b } undecided
        { c.rights with disableClipboard := b } := ⟨.silent rfl, rfl, rfl, rfl⟩
    refine (hset.subscribe _ _).congr (fun name => ?_) ?_
    · cases name <;> simp [Rights.announces, Rights.wants, Rights.setClipboard, undecided, hb,
        canSubClipboardService, clipboardEnabled, peerKeyboardEnabled, rights]
    · simp [Rights.setClipboard, hb]
  · rename_i hb
    exact .unset c env _ (by simp [hb]) (by simp [Rights.setClipboard, hb])

theorem updateDisableKeyboard_tells (c : Connection) (env : Env p) (o : OptionMessage) :
    Tells c (c.updateDisableKeyboard env o)
      ((c.rights.setKeyboard o).announces env (setTo o.disableKeyboard).isSome
        [.clipboard, .fileClipboard, .cursor])
      (c.rights.setKeyboard o) := by
  unfold updateDisableKeyboard
  split
  · rename_i b hb
    have hset : Tells c { c with disableKeyboard := b } undecided
        { c.rights with disableKeyboard := b } := ⟨.silent rfl, rfl, rfl, rfl⟩
    have hrights : { c.rights with disableKeyboard := b } = c.rights.setKeyboard o := by
      simp [Rights.setKeyboard, hb]
    dsimp only
    split
    · rename_i hunix
      refine (((hset.announce wants_clipboard).announce (wants_fileClipboard hunix)).announce
        wants_cursor).congr (fun name => ?_) hrights
      cases name <;> simp [Rights.announces, undecided, hb, hrights]
    · rename_i hunix
      refine ((hset.announce wants_clipboard).announce wants_cursor).congr (fun name => ?_) hrights
      cases name <;> simp [Rights.announces, undecided, hb, hrights, wants_fileClipboard_none hunix]
  · rename_i hb
    exact .unset c env _ (by simp [hb]) (by simp [Rights.setKeyboard, hb])

theorem updateOptions_tells (env : Env p) (o : OptionMessage)
    (hcamera : c.isAuthedViewCameraConn = false) :
    ∃ d, Tells c (c.updateOptions env o) d (c.rights.setOptions p.build o) ∧
      ∀ name, name ≠ .windowFocus → d name = c.rights.optionDecides env o name := by
  have hfirst : Tells c (((c.updateImageQuality o).updateCustomFps o).updateSupportedDecoding
      o |>.updateLockAfterSessionEnd o) undecided c.rights :=
    ((updateImageQuality_tells.quietly updateCustomFps_tells).quietly
      updateSupportedDecoding_tells).quietly updateLockAfterSessionEnd_tells
  unfold updateOptions
  dsimp only
  generalize (((c.updateImageQuality o).updateCustomFps o).updateSupportedDecoding
      o |>.updateLockAfterSessionEnd o) = c₁ at hfirst ⊢
  have hfollow : Tells (c₁.updateShowRemoteCursor env o)
      ((c₁.updateShowRemoteCursor env o).updateFollowRemoteCursor p o) undecided _ :=
    updateFollowRemoteCursor_tells
  have hcursor := (hfirst.trans (updateShowRemoteCursor_tells c₁ env o)).quietly hfollow
  clear hfollow
  generalize (c₁.updateShowRemoteCursor env o).updateFollowRemoteCursor p o = c₂ at hcursor ⊢
  rw [hfirst.rights] at hcursor
  obtain ⟨d, hwindow, hd⟩ : ∃ d, Tells c₂ (c₂.updateFollowRemoteWindow env o) d c₂.rights ∧
      ∀ name, name ≠ .windowFocus → d name = none := updateFollowRemoteWindow_tells
  have hwindow := hcursor.trans hwindow
  generalize c₂.updateFollowRemoteWindow env o = c₃ at hwindow ⊢
  rw [hcursor.rights] at hwindow
  have hcamera₃ : c₃.isAuthedViewCameraConn = false := by
    unfold isAuthedViewCameraConn
    rw [hwindow.auth]
    exact hcamera
  have haudio := hwindow.trans (updateDisableAudio_tells env o hcamera₃)
  generalize c₃.updateDisableAudio env o = c₄ at haudio ⊢
  rw [hwindow.rights] at haudio
  have hfile := haudio.trans (updateEnableFileTransfer_tells c₄ env o)
  generalize c₄.updateEnableFileTransfer env o = c₅ at hfile ⊢
  rw [haudio.rights] at hfile
  have hclipboard := hfile.trans (updateDisableClipboard_tells c₅ env o)
  generalize c₅.updateDisableClipboard env o = c₆ at hclipboard ⊢
  rw [hfile.rights] at hclipboard
  have hkeyboard := hclipboard.trans (updateDisableKeyboard_tells c₆ env o)
  generalize c₆.updateDisableKeyboard env o = c₇ at hkeyboard ⊢
  rw [hclipboard.rights] at hkeyboard
  refine ⟨_, (((hkeyboard.quietly updatePrivacyMode_tells).quietly updateBlockInput_tells).quietly
    updateTerminalPersistent_tells).quietly updateShowMyCursor_tells, fun name hname => ?_⟩
  simp only [hd name hname, undecided, Rights.optionDecides, Option.orElse_eq_orElse,
    Option.orElse_eq_or, Option.none_or, Option.or_none]

end Options

theorem subscribe_rights {service : Service} {on : Bool} :
    (c.subscribe env service on).rights = c.rights := by
  unfold Connection.subscribe
  split <;> rfl

theorem send_rights {m : PeerMessage} : (c.send m).rights = c.rights := rfl

theorem sendToCm_rights {m : CmData} : (c.sendToCm m).rights = c.rights := rfl

variable {enabled : Bool}

theorem switchKeyboard_rights :
    (c.switchKeyboard env enabled).rights = { c.rights with keyboard := enabled } := by
  unfold switchKeyboard
  dsimp only
  rw [subscribe_rights]
  split
  · rw [subscribe_rights, subscribe_rights]
    rfl
  · rw [subscribe_rights]
    rfl

theorem switchAudio_rights :
    (c.switchAudio env enabled).rights = { c.rights with audio := enabled } := by
  unfold switchAudio
  dsimp only
  split
  · rfl
  · split
    · rfl
    · exact subscribe_rights

theorem switchFile_rights :
    (c.switchFile env enabled).rights = { c.rights with file := enabled } := by
  unfold switchFile
  dsimp only
  split
  · rw [subscribe_rights]
    cases enabled <;> rfl
  · rfl

theorem switchPrivacyMode_rights : (c.switchPrivacyMode env enabled).rights = c.rights := by
  have hgrant : ∀ c : Connection, ({ c with privacyMode := enabled }.sendPermission .privacyMode
      enabled).rights = c.rights := fun _ => rfl
  unfold switchPrivacyMode
  dsimp only
  split
  · split
    · rw [hgrant, send_rights]
      rfl
    · rw [sendToCm_rights, send_rights]
      rfl
  · exact hgrant c

theorem onSwitchPermission_rights {permission : String} :
    (c.onSwitchPermission env permission enabled).rights = c.rights.switch permission enabled := by
  unfold onSwitchPermission Rights.switch
  by_cases hkeyboard : permission = "keyboard"
  · rw [if_pos hkeyboard, if_pos hkeyboard, switchKeyboard_rights]
  rw [if_neg hkeyboard, if_neg hkeyboard]
  by_cases hclipboard : permission = "clipboard"
  · rw [if_pos hclipboard, if_pos hclipboard, subscribe_rights]
    rfl
  rw [if_neg hclipboard, if_neg hclipboard]
  by_cases haudio : permission = "audio"
  · rw [if_pos haudio, if_pos haudio, switchAudio_rights]
  rw [if_neg haudio, if_neg haudio]
  by_cases hfile : permission = "file"
  · rw [if_pos hfile, if_pos hfile, switchFile_rights]
  rw [if_neg hfile, if_neg hfile]
  split_ifs
  · rfl
  · rfl
  · rfl
  · exact switchPrivacyMode_rights
  · rfl

theorem onSwitchPermission_tells {permission : String} :
    Tells c (c.onSwitchPermission env permission enabled)
      (c.switchDecides env permission enabled) (c.rights.switch permission enabled) := by
  have hsteady : Steady Plain c (c.onSwitchPermission env permission enabled) :=
    onSwitchPermission_steady
  exact ⟨onSwitchPermission_decides, onSwitchPermission_rights, hsteady.auth,
    congrArg (fun f => f.2.2) hsteady.same⟩

end Connection

theorem Server.isSubed_eq_false {M : Type} {srv : Server M} {name : Service} {id : Int}
    (h : srv.contains name = true → srv.isSubed name id = false) : srv.isSubed name id = false := by
  cases hhas : srv.contains name with
  | true => exact h hhas
  | false =>
    refine any_eq_false.mpr fun x hx => ?_
    have hname := any_eq_false.mp hhas x hx
    simp_all

namespace Hosted

open Connection Run

variable {M : Type} {p : Platform} {w : Hosted M} {env : Env p}

/-- The session is subscribed to what its rights say, and nothing of the clipboard
reaches it once the user has revoked that permission. -/
structure Follows (env : Env p) (w : Hosted M) : Prop where
  clipboard : w.server.contains .clipboard = true →
    (w.server.isSubed .clipboard w.id = true ↔ w.loop.conn.canSubClipboardService env = true)
  fileClipboard : p.build.unixFileCopyPaste = true → w.server.contains .fileClipboard = true →
    (w.server.isSubed .fileClipboard w.id = true ↔
      w.loop.conn.canSubFileClipboardService env = true)
  audio : w.server.contains .audio = true →
    (w.server.isSubed .audio w.id = true ↔ w.loop.conn.audioEnabled = true)
  cursor : w.server.contains .cursor = true →
    (w.server.isSubed .cursor w.id = true ↔
      (w.loop.conn.peerKeyboardEnabled = true ∨ w.loop.conn.showRemoteCursor = true))
  cursorPos : w.server.contains .cursorPos = true →
    (w.server.isSubed .cursorPos w.id = true ↔ w.loop.conn.showRemoteCursor = true)
  revoked : w.loop.conn.clipboard = false → ∀ a, w.id ∉ w.server.reached .clipboard a ∧
    (p.build.unixFileCopyPaste = true → w.id ∉ w.server.reached .fileClipboard a)

def Obeys (env : Env p) (w : Hosted M) (r : Rights) : Prop :=
  ∀ name wanted, r.wants env name = some wanted → w.server.contains name = true →
    w.server.isSubed name w.id = wanted

theorem follows_iff : w.Follows env ↔ w.Obeys env w.loop.conn.rights := by
  constructor
  · intro h name wanted hwants hhas
    cases name with
    | clipboard =>
      cases hwants
      exact Bool.eq_iff_iff.mpr (h.clipboard hhas)
    | fileClipboard =>
      by_cases hunix : p.build.unixFileCopyPaste = true
      · rw [wants_fileClipboard hunix] at hwants
        cases hwants
        exact Bool.eq_iff_iff.mpr (h.fileClipboard hunix hhas)
      · rw [wants_fileClipboard_none hunix] at hwants
        cases hwants
    | audio =>
      cases hwants
      exact Bool.eq_iff_iff.mpr (h.audio hhas)
    | cursor =>
      cases hwants
      refine Bool.eq_iff_iff.mpr ((h.cursor hhas).trans ?_)
      rw [← Bool.or_eq_true]
      rfl
    | cursorPos =>
      cases hwants
      exact Bool.eq_iff_iff.mpr (h.cursorPos hhas)
    | windowFocus => cases hwants
    | video => cases hwants
  · intro h
    have hclipboard := h .clipboard _ wants_clipboard
    have hfile := fun hunix => h .fileClipboard _ (wants_fileClipboard hunix)
    refine ⟨fun hhas => ?_, fun hunix hhas => ?_, fun hhas => ?_, fun hhas => ?_, fun hhas => ?_,
      fun hoff a => ⟨?_, fun hunix => ?_⟩⟩
    · rw [hclipboard hhas]
    · rw [hfile hunix hhas]
    · rw [h .audio _ rfl hhas]
      rfl
    · rw [h .cursor _ rfl hhas, ← Bool.or_eq_true]
      rfl
    · rw [h .cursorPos _ rfl hhas]
      rfl
    · refine Server.not_mem_reached (Server.isSubed_eq_false fun hhas => ?_) a
      rw [hclipboard hhas]
      simp [canSubClipboardService, clipboardEnabled, hoff]
    · refine Server.not_mem_reached (Server.isSubed_eq_false fun hhas => ?_) a
      rw [hfile hunix hhas]
      simp [canSubFileClipboardService, clipboardEnabled, hoff]

variable {name : Service} {wanted : Bool}

theorem wants_some {r r' : Rights}
    (h : r'.wants env name = some wanted) : ∃ before, r.wants env name = some before := by
  cases name <;> simp only [Rights.wants] at h ⊢ <;> simp_all

/-- **A round of calls** keeps the subscriptions right if the last call for each service,
or the rights before where there was none, says what the new rights say. -/
theorem obeys_after {w' : Hosted M} {r r' : Rights} {c' : Connection} {d : Service → Option Bool}
    (hw : w.Obeys env r) (htells : Tells w.loop.conn c' d r') (hid : w'.id = w.id)
    (hserver : w'.server = w.server.performAll w.id (c'.log.drop w.loop.conn.log.length)) :
    w'.Obeys env r' ↔ ∀ name wanted, r'.wants env name = some wanted →
      w.server.contains name = true → (d name <|> r.wants env name) = some wanted := by
  obtain ⟨new, hnew, hplain, hd⟩ := htells.decides
  rw [hnew, drop_left] at hserver
  refine forall_congr' fun name => forall_congr' fun wanted => forall_congr' fun hwants => ?_
  rw [hserver, hid, Server.contains_performAll hplain, Server.isSubed_performAll hplain, hd]
  refine forall_congr' fun hhas => ?_
  obtain ⟨before, hbefore⟩ := wants_some (r := r) hwants
  cases d name with
  | some on => simp [hhas]
  | none => simp [hbefore, hw name before hbefore hhas]

def SharesFiles (w : Hosted M) (env : Env p) (enabled : Bool) : Prop :=
  p.build.unixFileCopyPaste = true ∧ w.server.contains .fileClipboard = true ∧
    w.loop.conn.file = true ∧ enabled = true ∧ env.builtinOption "one-way-file-transfer" ≠ "Y"

/-- The permissions that are switched without telling every service: the keyboard, while
the peer has it disabled and sees no cursor otherwise; the clipboard, where files are
shared through it. -/
def SwitchSlips (w : Hosted M) (env : Env p) (permission : String) (enabled : Bool) : Prop :=
  let c := w.loop.conn
  permission = "keyboard" ∧ enabled = true ∧ c.disableKeyboard = true ∧
      c.showRemoteCursor = false ∧ w.server.contains .cursor = true ∨
    permission = "clipboard" ∧ enabled ≠ c.clipboard ∧ c.disableClipboard = false ∧
      w.SharesFiles env c.enableFileTransfer

/-- The options that are set without telling every service: the clipboard without the
keyboard, where files are shared through it. -/
def OptionSlips (w : Hosted M) (env : Env p) (o : OptionMessage) : Prop :=
  let c := w.loop.conn
  setTo o.disableKeyboard = none ∧
    (setTo o.disableClipboard).getD c.disableClipboard ≠ c.disableClipboard ∧
    c.clipboard = true ∧ w.SharesFiles env ((setTo o.enableFileTransfer).getD c.enableFileTransfer)

theorem optionDecides_other {r : Rights} (halive : env.serverAlive = true) {o : OptionMessage}
    (hname : name ≠ .fileClipboard) :
    (r.optionDecides env o name <|> r.wants env name) =
      (r.setOptions p.build o).wants env name := by
  simp only [Rights.optionDecides, Rights.announces, halive, Rights.setOptions, Rights.setKeyboard,
    Rights.setClipboard, Rights.setFileTransfer, Rights.setAudio, Rights.setCursor]
  cases name with
  | clipboard =>
    cases setTo o.disableKeyboard <;> cases setTo o.disableClipboard <;> simp [Rights.wants]
  | fileClipboard => exact absurd rfl hname
  | audio => cases setTo o.disableAudio <;> simp [Rights.wants]
  | cursor =>
    cases setTo o.disableKeyboard <;> cases setTo o.showRemoteCursor <;>
      cases p.build.mobile <;> simp [Rights.wants]
  | cursorPos =>
    cases setTo o.showRemoteCursor <;> cases p.build.mobile <;> simp [Rights.wants]
  | windowFocus => simp [Rights.wants]
  | video => simp [Rights.wants]

theorem optionDecides_fileClipboard {r : Rights} (halive : env.serverAlive = true)
    (hunix : p.build.unixFileCopyPaste = true) {o : OptionMessage} :
    (r.optionDecides env o .fileClipboard <|> r.wants env .fileClipboard)
        = (r.setOptions p.build o).wants env .fileClipboard ↔
      ¬(setTo o.disableKeyboard = none ∧
        (setTo o.disableClipboard).getD r.disableClipboard ≠ r.disableClipboard ∧
        r.clipboard = true ∧ r.file = true ∧
        (setTo o.enableFileTransfer).getD r.enableFileTransfer = true ∧
        env.builtinOption "one-way-file-transfer" ≠ "Y") := by
  cases hkeyboard : setTo o.disableKeyboard with
  | some => simp [Rights.optionDecides, Rights.announces, halive, hkeyboard, Rights.setOptions,
      Rights.setKeyboard, Rights.wants, hunix]
  | none =>
    -- with or without the option of files, the clipboard is judged as it was before
    have hdecides : (r.optionDecides env o .fileClipboard <|> r.wants env .fileClipboard)
        = some (r.clipboard && !r.disableClipboard &&
          (r.file && (setTo o.enableFileTransfer).getD r.enableFileTransfer)
          && env.builtinOption "one-way-file-transfer" ≠ "Y") := by
      cases hfile : setTo o.enableFileTransfer <;>
        simp [Rights.optionDecides, Rights.announces, halive, hkeyboard, hfile, Rights.wants,
          Rights.setFileTransfer, Rights.setAudio, Rights.setCursor, hunix]
    have hwants : (r.setOptions p.build o).wants env .fileClipboard
        = some (r.clipboard && !(setTo o.disableClipboard).getD r.disableClipboard &&
          (r.file && (setTo o.enableFileTransfer).getD r.enableFileTransfer)
          && env.builtinOption "one-way-file-transfer" ≠ "Y") := by
      simp [Rights.wants, Rights.setOptions, Rights.setKeyboard, Rights.setClipboard,
        Rights.setFileTransfer, Rights.setAudio, Rights.setCursor, hunix]
    rw [hdecides, hwants]
    generalize (setTo o.disableClipboard).getD r.disableClipboard = after
    generalize (setTo o.enableFileTransfer).getD r.enableFileTransfer = enabled
    cases r.clipboard <;> cases r.disableClipboard <;> cases after <;> cases r.file <;>
      cases enabled <;> simp

theorem optionDecides_fits (halive : env.serverAlive = true) {o : OptionMessage} :
    (∀ name wanted, (w.loop.conn.rights.setOptions p.build o).wants env name = some wanted →
      w.server.contains name = true →
        (w.loop.conn.rights.optionDecides env o name <|> w.loop.conn.rights.wants env name)
          = some wanted) ↔ ¬w.OptionSlips env o := by
  constructor
  · rintro h ⟨hkeyboard, hclipboard, hon, hunix, hhas, hfile, henabled, honeWay⟩
    have hfits := optionDecides_fileClipboard (r := w.loop.conn.rights) (o := o) halive hunix
    have hbefore : w.loop.conn.rights.wants env .fileClipboard
        = some (w.loop.conn.canSubFileClipboardService env) := wants_fileClipboard hunix
    obtain ⟨wanted, hwanted⟩ := wants_some (r := w.loop.conn.rights.setOptions p.build o) hbefore
    have hequal := (h .fileClipboard wanted hwanted hhas).trans hwanted.symm
    exact hfits.mp hequal ⟨hkeyboard, hclipboard, hon, hfile, henabled, honeWay⟩
  · intro h name wanted hwanted hhas
    rw [← hwanted]
    by_cases hname : name = .fileClipboard
    · subst hname
      by_cases hunix : p.build.unixFileCopyPaste = true
      · refine (optionDecides_fileClipboard halive hunix).mpr ?_
        rintro ⟨hkeyboard, hclipboard, hon, hfile, henabled, honeWay⟩
        exact h ⟨hkeyboard, hclipboard, hon, hunix, hhas, hfile, henabled, honeWay⟩
      · rw [wants_fileClipboard_none hunix] at hwanted
        cases hwanted
    · exact optionDecides_other halive hname

variable {enabled : Bool} {permission : String}

theorem switchDecides_other {c : Connection} (halive : env.serverAlive = true)
    (hauth : c.authorized = true)
    (hcamera : c.isAuthedViewCameraConn = false)
    (hcursor : ¬(permission = "keyboard" ∧ name = .cursor))
    (hfile : ¬(permission = "clipboard" ∧ name = .fileClipboard)) :
    (c.switchDecides env permission enabled name <|> c.rights.wants env name)
      = (c.rights.switch permission enabled).wants env name := by
  by_cases hkeyboard : permission = "keyboard"
  · subst hkeyboard
    cases hunix : p.build.unixFileCopyPaste <;> cases name <;>
      simp_all [switchDecides, Rights.switch, Rights.wants, rights, canSubClipboardService,
        canSubFileClipboardService, clipboardEnabled, peerKeyboardEnabled, fileTransferEnabled]
  · by_cases hclipboard : permission = "clipboard"
    · subst hclipboard
      cases name <;>
        simp_all [switchDecides, Rights.switch, Rights.wants, rights, canSubClipboardService,
          clipboardEnabled, peerKeyboardEnabled]
    · by_cases haudio : permission = "audio"
      · subst haudio
        have hother : { c with audio := enabled }.isAuthedViewCameraConn = false := hcamera
        cases name <;>
          simp_all [switchDecides, Rights.switch, Rights.wants, rights, audioDecision, audioEnabled]
      · by_cases hfiles : permission = "file"
        · subst hfiles
          cases hunix : p.build.unixFileCopyPaste <;> cases name <;>
            simp_all [switchDecides, Rights.switch, Rights.wants, rights,
              canSubFileClipboardService, clipboardEnabled, fileTransferEnabled]
        · have hnone : c.switchDecides env permission enabled name = none := by
            simp [switchDecides, hkeyboard, hclipboard, haudio, hfiles]
          simp [hnone, Rights.switch, hkeyboard, hclipboard, haudio, hfiles]

theorem switchDecides_cursor {c : Connection} (halive : env.serverAlive = true) :
    (c.switchDecides env "keyboard" enabled .cursor <|> c.rights.wants env .cursor)
        = (c.rights.switch "keyboard" enabled).wants env .cursor ↔
      ¬(enabled = true ∧ c.disableKeyboard = true ∧ c.showRemoteCursor = false) := by
  have hdecides : c.switchDecides env "keyboard" enabled .cursor
      = some (enabled || c.showRemoteCursor) := by simp [switchDecides, halive]
  have hwants : (c.rights.switch "keyboard" enabled).wants env .cursor
      = some (enabled && !c.disableKeyboard || c.showRemoteCursor) := rfl
  rw [hdecides, hwants]
  cases enabled <;> cases c.disableKeyboard <;> cases c.showRemoteCursor <;> simp

theorem switchDecides_fileClipboard {c : Connection} (halive : env.serverAlive = true)
    (hunix : p.build.unixFileCopyPaste = true) :
    (c.switchDecides env "clipboard" enabled .fileClipboard <|> c.rights.wants env .fileClipboard)
        = (c.rights.switch "clipboard" enabled).wants env .fileClipboard ↔
      ¬(enabled ≠ c.clipboard ∧ c.disableClipboard = false ∧ c.file = true ∧
        c.enableFileTransfer = true ∧ env.builtinOption "one-way-file-transfer" ≠ "Y") := by
  have hnone : c.switchDecides env "clipboard" enabled .fileClipboard = none := by
    simp [switchDecides, halive]
  have hwants : ∀ on, ({ c.rights with clipboard := on } : Rights).wants env .fileClipboard
      = some (on && !c.disableClipboard && (c.file && c.enableFileTransfer)
        && env.builtinOption "one-way-file-transfer" ≠ "Y") := fun _ => if_pos hunix
  have hbefore := hwants c.clipboard
  have hafter : (c.rights.switch "clipboard" enabled).wants env .fileClipboard = _ := hwants enabled
  have hrights : ({ c.rights with clipboard := c.clipboard } : Rights) = c.rights := rfl
  rw [hrights] at hbefore
  rw [hnone, hbefore, hafter]
  cases enabled <;> cases c.clipboard <;> cases c.disableClipboard <;> cases c.file <;>
    cases c.enableFileTransfer <;> simp

/-- **Permissions**: what is decided fits the new rights unless the cursor or files are
forgotten. -/
theorem switchDecides_fits (halive : env.serverAlive = true)
    (hauth : w.loop.conn.authorized = true) (hcamera : w.loop.conn.isAuthedViewCameraConn = false) :
    (∀ name wanted, (w.loop.conn.rights.switch permission enabled).wants env name = some wanted →
      w.server.contains name = true →
        (w.loop.conn.switchDecides env permission enabled name <|> w.loop.conn.rights.wants env name)
          = some wanted) ↔ ¬w.SwitchSlips env permission enabled := by
  constructor
  · rintro h (⟨rfl, hon, hkeyboard, hcursor, hhas⟩ |
      ⟨rfl, hne, hclipboard, hunix, hhas, hfile, henabled, honeWay⟩)
    · exact (switchDecides_cursor halive).mp (h .cursor _ rfl hhas) ⟨hon, hkeyboard, hcursor⟩
    · have hbefore : w.loop.conn.rights.wants env .fileClipboard
          = some (w.loop.conn.canSubFileClipboardService env) := wants_fileClipboard hunix
      obtain ⟨wanted, hwanted⟩ := wants_some (r := w.loop.conn.rights.switch "clipboard" enabled)
        hbefore
      have hequal := (h .fileClipboard wanted hwanted hhas).trans hwanted.symm
      exact (switchDecides_fileClipboard halive hunix).mp hequal
        ⟨hne, hclipboard, hfile, henabled, honeWay⟩
  · intro h name wanted hwanted hhas
    rw [← hwanted]
    by_cases hcursor : permission = "keyboard" ∧ name = .cursor
    · obtain ⟨rfl, rfl⟩ := hcursor
      refine (switchDecides_cursor halive).mpr ?_
      rintro ⟨hon, hkeyboard, hcursor⟩
      exact h (.inl ⟨rfl, hon, hkeyboard, hcursor, hhas⟩)
    · by_cases hfile : permission = "clipboard" ∧ name = .fileClipboard
      · obtain ⟨rfl, rfl⟩ := hfile
        by_cases hunix : p.build.unixFileCopyPaste = true
        · refine (switchDecides_fileClipboard halive hunix).mpr ?_
          rintro ⟨hne, hclipboard, hfile, henabled, honeWay⟩
          exact h (.inr ⟨rfl, hne, hclipboard, hunix, hhas, hfile, henabled, honeWay⟩)
        · rw [wants_fileClipboard_none hunix] at hwanted
          cases hwanted
      · exact switchDecides_other halive hauth hcamera hcursor hfile

structure Remote (c : Connection) : Prop where
  authorized : c.authorized = true
  authedConnId : c.authedConnId = some .remote
  socket : c.portForwardSocket = none

theorem Remote.camera {c : Connection} (h : Remote c) : c.isAuthedViewCameraConn = false := by
  simp [isAuthedViewCameraConn, h.authedConnId]

theorem Remote.of_tells {c c' : Connection} {d : Service → Option Bool} {r : Rights}
    (h : Remote c) (htells : Tells c c' d r) : Remote c' :=
  ⟨(congrArg Auth.authorized htells.auth).trans h.authorized,
    (congrArg Auth.authedConnId htells.auth).trans h.authedConnId, htells.socket.trans h.socket⟩

theorem handle_option {c : Connection} (h : Remote c) (o : OptionMessage) :
    (c.handle env (.message (.misc (some (.option o))))).2 = c.updateOptions env o := by
  have hmessage : c.onMessage env (.misc (some (.option o))) = (true, c.updateOptions env o) := by
    have hgate : c.onMessage env (.misc (some (.option o)))
        = c.gate env (.misc (some (.option o))) := if_pos h.authorized
    have hpasses : c.authorizedScopeViolation p (.misc (some (.option o))) = none := by
      simp [authorizedScopeViolation, h.authedConnId, authorizedMessageScopeViolation, allowedMessage]
    have hdispatch : c.dispatch env (.misc (some (.option o)))
        = c.onAuthorizedMessage env (.misc (some (.option o))) := if_pos h.authorized
    rw [hgate]
    unfold gate
    dsimp only
    rw [hpasses, hdispatch]
    unfold onAuthorizedMessage
    rw [h.socket]
    simp [onMisc, onOption, h.authedConnId]
  simp only [handle, hmessage]

/-- The run consists of permissions and options, and of what others do.  The server
exists, and the built-in options are what they were when the program started. -/
def Regular (env₀ : Env p) (_ : Hosted M) : Input M p → Prop
  | .handle env (.cm (.switchPermission _ _))
  | .handle env (.message (.misc (some (.option _)))) =>
    env.serverAlive = true ∧ env.builtinOption = env₀.builtinOption
  | .handle _ _ => False
  | .other _ _ | .publish _ _ => True

/-- No switch and no option leaves out a service that it decides. -/
def TellsAll (w : Hosted M) : Input M p → Prop
  | .handle env (.cm (.switchPermission permission enabled)) =>
    w.loop.running = true → ¬w.SwitchSlips env permission enabled
  | .handle env (.message (.misc (some (.option o)))) =>
    w.loop.running = true → ¬w.OptionSlips env o
  | _ => True

variable {env₀ : Env p}

theorem Regular.settings {e : Event} (h : w.Regular env₀ (.handle env e)) :
    env.serverAlive = true ∧ env.builtinOption = env₀.builtinOption := by
  unfold Regular at h
  split at h
  · rename_i heq
    cases heq
    exact h
  · rename_i heq
    cases heq
    exact h
  · exact h.elim
  · rename_i heq
    cases heq
  · rename_i heq
    cases heq

theorem Regular.cases {e : Event} (h : w.Regular env₀ (.handle env e)) :
    (∃ permission enabled, e = .cm (.switchPermission permission enabled)) ∨
      ∃ o, e = .message (.misc (some (.option o))) := by
  unfold Regular at h
  split at h
  · rename_i heq
    cases heq
    exact .inl ⟨_, _, rfl⟩
  · rename_i heq
    cases heq
    exact .inr ⟨_, rfl⟩
  · exact h.elim
  · rename_i heq
    cases heq
  · rename_i heq
    cases heq

theorem obeys_congr (h : env.builtinOption = env₀.builtinOption) {r : Rights} :
    w.Obeys env₀ r ↔ w.Obeys env r := by
  have hwants : ∀ name, r.wants env₀ name = r.wants env name := by
    intro name
    cases name <;> simp only [Rights.wants, h]
  simp only [Obeys, hwants]

theorem step_obeys {e : Event} {d : Service → Option Bool} {r' : Rights}
    (hrunning : w.loop.running = true) (hw : w.Obeys env w.loop.conn.rights)
    (htells : Tells w.loop.conn ((w.loop.conn.seeing env).handle env e).2 d r') :
    (w.step (.handle env e)).Obeys env (w.step (.handle env e)).loop.conn.rights ↔
      ∀ name wanted, r'.wants env name = some wanted → w.server.contains name = true →
        (d name <|> w.loop.conn.rights.wants env name) = some wanted := by
  have hconn : (w.step (.handle env e)).loop.conn = ((w.loop.conn.seeing env).handle env e).2 := by
    simp only [step, Loop.step_running hrunning]
  rw [hconn, htells.rights]
  refine obeys_after hw htells rfl ?_
  simp only [step, newEffects, Loop.step_running hrunning]

theorem switchPermission_obeys (halive : env.serverAlive = true) (hrunning : w.loop.running = true)
    (hremote : Remote w.loop.conn) (hw : w.Obeys env w.loop.conn.rights) :
    (w.step (.handle env (.cm (.switchPermission permission enabled)))).Obeys env
        (w.step (.handle env (.cm (.switchPermission permission enabled)))).loop.conn.rights ↔
      ¬w.SwitchSlips env permission enabled := by
  have htells : Tells w.loop.conn
      ((w.loop.conn.seeing env).handle env (.cm (.switchPermission permission enabled))).2
      (w.loop.conn.switchDecides env permission enabled)
      (w.loop.conn.rights.switch permission enabled) :=
    .of_seeing onSwitchPermission_tells
  refine (step_obeys hrunning hw htells).trans ?_
  exact switchDecides_fits halive hremote.authorized hremote.camera

theorem option_obeys {o : OptionMessage} (halive : env.serverAlive = true)
    (hrunning : w.loop.running = true) (hremote : Remote w.loop.conn)
    (hw : w.Obeys env w.loop.conn.rights) :
    (w.step (.handle env (.message (.misc (some (.option o)))))).Obeys env
        (w.step (.handle env (.message (.misc (some (.option o)))))).loop.conn.rights ↔
      ¬w.OptionSlips env o := by
  have hseen : Remote (w.loop.conn.seeing env) :=
    ⟨hremote.authorized, hremote.authedConnId, hremote.socket⟩
  obtain ⟨d, htells, hd⟩ := updateOptions_tells env o hseen.camera
  rw [← handle_option hseen] at htells
  refine (step_obeys hrunning hw (.of_seeing htells)).trans (Iff.trans ?_ (optionDecides_fits halive))
  refine forall_congr' fun name => forall_congr' fun wanted => forall_congr' fun hwanted => ?_
  have hname : name ≠ .windowFocus := by
    rintro rfl
    cases hwanted
  rw [hd name hname]
  rfl

variable {srv : Server M}

theorem contains_tryAddService (hname : name.isVideo = false)
    {source : VideoSource} {display : Nat} :
    (srv.tryAddService (.video source display)).contains name = srv.contains name := by
  unfold Server.tryAddService
  split
  · rfl
  · have hne : Service.video source display ≠ name := by
      rintro rfl
      cases hname
    simp [Server.contains, hne]

theorem contains_perform_other {id : Int} {e : Effect}
    (hname : name.isVideo = false) : (srv.perform id e).contains name = srv.contains name := by
  unfold Server.perform
  split
  · exact Server.contains_subscribe
  · exact Server.contains_modify.trans (contains_tryAddService hname)
  · unfold Server.addCameraConnection Server.tryAddPrimaryCameraService
    split_ifs <;> simp [contains_tryAddService hname]
  · exact contains_tryAddService hname
  · exact Server.contains_modify
  · rfl

theorem wants_video {r : Rights} (h : r.wants env name = some wanted) : name.isVideo = false := by
  cases name with
  | video => cases h
  | _ => rfl

theorem step_other_obeys {id : Int} {e : Effect} {r : Rights} (hw : w.Obeys env r) :
    (w.step (.other id e : Input M p)).Obeys env r := by
  simp only [step]
  split
  · exact hw
  · rename_i hid
    intro name wanted hwanted hhas
    rw [contains_perform_other (wants_video hwanted)] at hhas
    exact (Server.isSubed_perform_other hid e).trans (hw name wanted hwanted hhas)

theorem step_publish_obeys {n : Service} {a : ServiceTmpl.Publication M} {r : Rights}
    (hw : w.Obeys env r) : (w.step (.publish n a : Input M p)).Obeys env r := by
  intro name wanted hwanted hhas
  simp only [step, Server.contains_modify] at hhas
  refine Eq.trans (Server.isSubed_modify_of_eq fun m s => ?_) (hw name wanted hwanted hhas)
  split
  · exact ServiceTmpl.isSubed_publish a
  · rfl

/-- **One step** of a remote session keeps its subscriptions right exactly if it forgets
no service. -/
theorem step_follows {i : Input M p} (hregular : w.Regular env₀ i)
    (hremote : w.loop.running = true → Remote w.loop.conn) (hw : w.Follows env₀) :
    (w.step i).Follows env₀ ↔ w.TellsAll i := by
  rw [follows_iff] at hw ⊢
  cases i with
  | other id e =>
    refine iff_of_true ?_ trivial
    have hconn : (w.step (.other id e : Input M p)).loop = w.loop := by
      simp only [step]
      split <;> rfl
    rw [hconn]
    exact step_other_obeys hw
  | publish n a => exact iff_of_true (step_publish_obeys hw) trivial
  | handle env e =>
    cases hrunning : w.loop.running with
    | false =>
      rw [step_stopped hrunning]
      refine iff_of_true hw ?_
      rcases hregular.cases with ⟨permission, enabled, rfl⟩ | ⟨o, rfl⟩
      · exact fun h => absurd (hrunning.symm.trans h) (by simp)
      · exact fun h => absurd (hrunning.symm.trans h) (by simp)
    | true =>
      obtain ⟨halive, hbuiltin⟩ := hregular.settings
      rw [obeys_congr hbuiltin] at hw ⊢
      rcases hregular.cases with ⟨permission, enabled, rfl⟩ | ⟨o, rfl⟩
      · refine (switchPermission_obeys halive hrunning (hremote hrunning) hw).trans ?_
        exact ⟨fun h _ => h, fun h => h hrunning⟩
      · refine (option_obeys halive hrunning (hremote hrunning) hw).trans ?_
        exact ⟨fun h _ => h, fun h => h hrunning⟩

theorem step_remote {i : Input M p} (hregular : w.Regular env₀ i)
    (hremote : w.loop.running = true → Remote w.loop.conn)
    (hrunning : (w.step i).loop.running = true) : Remote (w.step i).loop.conn := by
  cases i with
  | other id e =>
    simp only [step] at hrunning ⊢
    split at hrunning
    · rename_i hid
      rw [if_pos hid]
      exact hremote hrunning
    · rename_i hid
      rw [if_neg hid]
      exact hremote hrunning
  | publish => exact hremote hrunning
  | handle env e =>
    cases hbefore : w.loop.running with
    | false =>
      rw [step_stopped hbefore] at hrunning ⊢
      exact hremote hrunning
    | true =>
      have hseen : Remote (w.loop.conn.seeing env) :=
        ⟨(hremote hbefore).authorized, (hremote hbefore).authedConnId, (hremote hbefore).socket⟩
      simp only [step, Loop.step_running hbefore]
      rcases hregular.cases with ⟨permission, enabled, rfl⟩ | ⟨o, rfl⟩
      · exact hseen.of_tells onSwitchPermission_tells
      · rw [handle_option hseen]
        obtain ⟨d, htells, -⟩ := updateOptions_tells env o hseen.camera
        exact hseen.of_tells htells

/-- `try_sub_monitor_services`, at the server. -/
def trySubMonitorServices (w : Hosted M) (env : Env p) : Hosted M :=
  let conn := w.loop.conn.trySubMonitorServices env
  { w with
    loop := { w.loop with conn := conn }
    server := w.server.performAll w.id (conn.log.drop w.loop.conn.log.length) }

/-- The connection is subscribed to nothing that its rights deny. -/
def NoneStale (env : Env p) (w : Hosted M) : Prop :=
  ∀ name, w.loop.conn.rights.wants env name = some false → w.server.isSubed name w.id = false

theorem contains_noperms {c : Connection}
    (h : c.rights.wants env name = some wanted) : (c.noperms env).contains name = !wanted := by
  have hsingle : ∀ (q : Bool) (service : Service), name ∈ (if q then [service] else [])
      ↔ q = true ∧ name = service := by
    intro q service
    cases q <;> simp
  rw [Bool.eq_iff_iff, contains_iff_mem]
  simp only [noperms, mem_append, hsingle]
  cases name with
  | clipboard =>
    cases h
    simp [canSubClipboardService, clipboardEnabled, peerKeyboardEnabled, rights]
  | fileClipboard =>
    by_cases hunix : p.build.unixFileCopyPaste = true
    · rw [wants_fileClipboard hunix] at h
      cases h
      simp [hunix]
    · rw [wants_fileClipboard_none hunix] at h
      cases h
  | audio =>
    cases h
    simp [audioEnabled, rights]
  | cursor =>
    cases h
    simp [peerKeyboardEnabled, rights]
  | cursorPos =>
    cases h
    simp [rights]
  | windowFocus => cases h
  | video => cases h

theorem isSubed_addConnection {id : Int} {noperms : List Service} (hname : name.isVideo = false) :
    (srv.perform id (.addConnection noperms)).isSubed name id =
      if noperms.contains name then srv.isSubed name id else srv.contains name := by
  have hdisplay : srv.tryAddPrimayVideoService.isSubed name id = srv.isSubed name id :=
    Server.isSubed_tryAddService
  have hhas : srv.tryAddPrimayVideoService.contains name = srv.contains name :=
    contains_tryAddService hname
  rw [← hdisplay, ← hhas, Server.perform]
  generalize srv.tryAddPrimayVideoService = srv'
  unfold Server.addConnection Server.modify Server.isSubed Server.contains
  rw [any_map]
  have hone : ∀ x : Service × ServiceTmpl M,
      (decide (x.1 = name) && (if x.1.isVideo && x.1 ≠ .video .monitor srv'.primaryDisplayIdx then x.2
        else if noperms.contains x.1 then x.2 else x.2.onSubscribe id).isSubed id)
      = if noperms.contains name then decide (x.1 = name) && x.2.isSubed id
        else decide (x.1 = name) := by
    intro x
    by_cases hx : x.1 = name
    · rw [hx, hname]
      cases noperms.contains name <;> simp [ServiceTmpl.isSubed_onSubscribe]
    · simp [hx]
  simp only [Function.comp_def, hone]
  split <;> rfl

theorem trySubMonitorServices_follows (halive : env.serverAlive = true)
    (hremote : w.loop.conn.isRemote = true) (hsubed : w.loop.conn.servicesSubed = false) :
    (w.trySubMonitorServices env).Follows env ↔ w.NoneStale env := by
  have hconn : w.loop.conn.trySubMonitorServices env =
      { { w.loop.conn with servicesSubed := true } with
        autoDisconnectTimer := getAutoDisconnectTimer env }.emit
          (.addConnection (w.loop.conn.noperms env)) := by
    simp only [Connection.trySubMonitorServices, hremote, hsubed, halive, Bool.not_false,
      Bool.and_self, if_true]
    rfl
  have hrights : (w.trySubMonitorServices env).loop.conn.rights = w.loop.conn.rights := by
    simp only [trySubMonitorServices, hconn]
    rfl
  have hserver : (w.trySubMonitorServices env).server
      = w.server.perform w.id (.addConnection (w.loop.conn.noperms env)) := by
    simp only [trySubMonitorServices, hconn, emit, drop_left, Server.performAll, List.foldl]
  have hid : (w.trySubMonitorServices env).id = w.id := rfl
  rw [follows_iff, hrights]
  constructor
  · intro h name hwanted
    refine Server.isSubed_eq_false fun hhas => ?_
    have hafter := h name false hwanted (by
      rw [hserver, contains_perform_other (wants_video hwanted)]
      exact hhas)
    rw [hserver, hid, isSubed_addConnection (wants_video hwanted), contains_noperms hwanted] at hafter
    exact hafter
  · intro h name wanted hwanted hhas
    rw [hserver, contains_perform_other (wants_video hwanted)] at hhas
    rw [hserver, hid, isSubed_addConnection (wants_video hwanted), contains_noperms hwanted]
    cases wanted with
    | true => exact hhas
    | false => exact h name hwanted

/-- **Subscriptions follow permissions.**  Once a remote session has its services, it is
subscribed to what its rights say in every state of every run of permissions and options,
exactly if it had no stale subscription before and no step forgets a service. -/
theorem subscriptions_follow (env₀ : Env p) (w : Hosted M) (hauth : w.loop.conn.authorized = true)
    (htype : w.loop.conn.authedConnId = some .remote) (hremote : w.loop.conn.isRemote = true)
    (hsubed : w.loop.conn.servicesSubed = false) (halive : env₀.serverAlive = true)
    (is : List (Input M p))
    (hregular : Along step (Regular env₀) (w.trySubMonitorServices env₀) is) :
    Always step (Follows env₀) (w.trySubMonitorServices env₀) is ↔
      w.NoneStale env₀ ∧ Along step TellsAll (w.trySubMonitorServices env₀) is := by
  have hsocket : w.loop.conn.portForwardSocket = none := by
    simp only [isRemote, Bool.and_eq_true, Option.isNone_iff_eq_none] at hremote
    exact hremote.1.1.2
  have hkept : Steady (fun _ => True) w.loop.conn (w.loop.conn.trySubMonitorServices env₀) :=
    trySubMonitorServices_steady fun _ => trivial
  have hfirst : Remote (w.trySubMonitorServices env₀).loop.conn :=
    ⟨(congrArg Auth.authorized hkept.auth).trans hauth,
      (congrArg Auth.authedConnId hkept.auth).trans htype,
      (congrArg (fun f => f.2.2) hkept.same).trans hsocket⟩
  have hstart := trySubMonitorServices_follows halive hremote hsubed
  by_cases hstale : w.NoneStale env₀
  · have hrun : Always step (Follows env₀) (w.trySubMonitorServices env₀) is ↔
        Along step TellsAll (w.trySubMonitorServices env₀) is :=
      always_iff_along (W := Regular env₀) (N := is.length) (n := 0)
        (J := fun _ w => w.loop.running = true → Remote w.loop.conn)
        (fun _ _ _ hregular hremote => step_remote hregular hremote)
        (fun _ _ _ _ hregular hremote hw => step_follows hregular hremote hw)
        (by simp) (fun _ => hfirst) (hstart.mpr hstale) hregular
    exact hrun.trans ⟨fun h => ⟨hstale, h⟩, fun h => h.2⟩
  · refine iff_of_false (fun h => hstale (hstart.mp ?_)) fun h => hstale h.1
    exact h [] nil_prefix

def sharing : Server Unit :=
  ⟨[(.clipboard, .new false), (.fileClipboard, .new false), (.cursor, .new true)], 0, false⟩

def letIn : Hosted Unit :=
  ⟨1, ⟨{ (Connection.start (.idle linux) .idle).conn with
    authorized := true, authedConnId := some .remote }, true⟩, sharing⟩

def askForFiles : Input Unit linux :=
  .handle (.idle linux) (.message (.misc (some (.option
    { OptionMessage.new with enableFileTransfer := .ok .yes }))))

/-- A run that forgets no service: the peer asks for files, and the user revokes them. -/
theorem files_revoked :
    letIn.loop.conn.isRemote = true ∧
    Always step (Follows (.idle linux)) (letIn.trySubMonitorServices (.idle linux))
      [askForFiles, .handle (.idle linux) (.cm (.switchPermission "file" false))] := by
  refine ⟨by decide, (subscriptions_follow (.idle linux) letIn rfl rfl (by decide) rfl rfl
    [askForFiles, .handle (.idle linux) (.cm (.switchPermission "file" false))]
    ⟨⟨rfl, rfl⟩, ⟨rfl, rfl⟩, trivial⟩).mpr ⟨?_, ?_, ?_, trivial⟩⟩
  · intro name _
    simp [letIn, sharing, Server.isSubed]
  · rintro - ⟨-, hclipboard, -⟩
    exact hclipboard rfl
  · rintro - (⟨hname, -⟩ | ⟨hname, -⟩)
    · exact absurd hname (by decide)
    · exact absurd hname (by decide)

def clipboardRevoked : Hosted Unit :=
  exec step (start (.idle linux) .idle sharing)
    [.handle (.idle linux) (.message (.loginRequest { LoginRequest.default with myId := "peer" })),
      .handle (.idle linux) (.cm .authorize), askForFiles,
      .handle (.idle linux) (.cm (.switchPermission "clipboard" false))]

/-- **The clipboard revoked while files are shared through it.**  The session stays
subscribed to the file clipboard, and what is copied there reaches the peer. -/
theorem clipboard_revoked_files_stay : clipboardRevoked.loop.conn.authorized = true ∧
    clipboardRevoked.loop.conn.authedConnId = some .remote ∧
    clipboardRevoked.loop.conn.servicesSubed = true ∧ clipboardRevoked.loop.conn.clipboard = false ∧
    clipboardRevoked.loop.conn.canSubFileClipboardService (.idle linux) = false ∧
    clipboardRevoked.server.isSubed .fileClipboard 1 = true ∧
    1 ∈ clipboardRevoked.server.reached .fileClipboard (.shared ()) := by
  decide

end Hosted
end RustDesk
