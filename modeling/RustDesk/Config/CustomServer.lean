import RustDesk.Lib.TextBytes

/-!
# Server settings in a file name

`get_custom_server_from_string` reads settings out of the name of the executable: behind
`host=`, in fields that commas separate, or as an encoded text.  It looks for `host=` in the
name in small letters, and cuts the name itself at the offset found there.

How the encoded texts are decoded and verified is a parameter.
-/

open CheckedArith TextBytes

namespace RustDesk.FileNameServer

structure CustomServer where
  key : Text := []
  host : Text := []
  api : Text := []
  relay : Text := []
  deriving DecidableEq

structure Decoders where
  decode : Text → Option (List UInt8)
  fromSlice : List UInt8 → Option CustomServer
  verify : List UInt8 → Option (List UInt8)

def getCustomServerFromConfigString (d : Decoders) (s : Text) : Except String CustomServer :=
  match d.decode s.reverse with
  | none => .error "decode"
  | some data =>
    match d.fromSlice data with
    | some lic => .ok lic
    | none =>
      match d.verify data with
      | none => .error "sign:verify failed"
      | some data =>
        match d.fromSlice data with
        | some lic => .ok lic
        | none => .error "from_slice"

/-- `str::split` by a text, of at most so many pieces behind the first. -/
def splitText (sep : Text) : Nat → Text → List Text
  | 0, s => [s]
  | fuel + 1, s =>
    match (List.range (s.length + 1)).find? fun i => sep <+: s.drop i with
    | some i => s.take i :: splitText sep fuel (s.drop (i + sep.length))
    | none => [s]

def split (sep s : Text) : List Text := splitText sep s.length s

def replace (pat new s : Text) : Text := new.intercalate (split pat s)

def exe : Text := ['.', 'e', 'x', 'e']

inductive Kind where
  | host
  | key
  | api
  | relay
  deriving DecidableEq

namespace Kind

def name : Kind → Text
  | host => ['h', 'o', 's', 't', '=']
  | key => ['k', 'e', 'y', '=']
  | api => ['a', 'p', 'i', '=']
  | relay => ['r', 'e', 'l', 'a', 'y', '=']

end Kind

namespace CustomServer

def get (s : CustomServer) : Kind → Text
  | .host => s.host
  | .key => s.key
  | .api => s.api
  | .relay => s.relay

def set (s : CustomServer) (v : Text) : Kind → CustomServer
  | .host => { s with host := v }
  | .key => { s with key := v }
  | .api => { s with api := v }
  | .relay => { s with relay := v }

end CustomServer

section

variable (endsWord : Text → Text → Bool)

def recognized (kind : Kind) (el : Text) : Bool := decide (kind.name <+: toLowercase endsWord el)

def readField (el : Text) (s : CustomServer) (kind : Kind) : CustomServer :=
  if recognized endsWord kind el then s.set (el.drop kind.name.length) kind else s

def readElement (s : CustomServer) (el : Text) : CustomServer :=
  readField endsWord el (readField endsWord el
    (readField endsWord el (readField endsWord el s .host) .key) .api) .relay

def readElements (strs : List Text) : CustomServer := strs.foldl (readElement endsWord) {}

/-- The name without `.exe.exe` or `.exe` at its end. -/
def stripExe (s : Text) : Except Trap Text :=
  if exe ++ exe <:+ toLowercase endsWord s then do
    let n ← sub (size s) 8
    takeBytes s n
  else if exe <:+ toLowercase endsWord s then do
    let n ← sub (size s) 4
    takeBytes s n
  else .ok s

def readPart (d : Decoders) (s : Text) : Option CustomServer :=
  match getCustomServerFromConfigString d s.trim with
  | .ok lic => some lic
  | .error _ =>
    if s.contains '(' then
      (s.splitOn '(').findSome? fun s => (getCustomServerFromConfigString d (Text.trim s)).toOption
    else none

def readEncoded (d : Decoders) (s : Text) : Except String CustomServer :=
  let dashes : Text := ['-', '-']
  let s := replace ("-licensed---".toList) dashes s
  let s := replace ("-licensed--".toList) dashes s
  let s := replace ("-licensed-".toList) dashes s
  match (split dashes s).findSome? (readPart d) with
  | some lic => .ok lic
  | none => .error "Failed to parse"

def getCustomServerFromString (d : Decoders) (s : Text) :
    Except Trap (Except String CustomServer) := do
  let s ← stripExe endsWord s
  match findBytes Kind.host.name (toLowercase endsWord s) with
  | some off =>
    let stripped ← dropBytes s off
    return .ok (readElements endsWord (stripped.splitOn ','))
  | none => return readEncoded d s

end

variable {endsWord : Text → Text → Bool} {d : Decoders} {s : Text}

/-- The name without `.exe.exe` or `.exe` at its end, in any letter case. -/
def withoutExe (s : Text) : Text :=
  if EndsIn (exe ++ exe) s then s.take (s.length - 8)
  else if EndsIn exe s then s.take (s.length - 4)
  else s

theorem takeBytes_of_endsIn {pat : Text} (hpat : Plain pat) (h : EndsIn pat s) :
    (sub (size s) pat.length >>= takeBytes s) = .ok (s.take (s.length - pat.length)) := by
  obtain ⟨a, m, rfl, -, hsize, hlength⟩ := h.exists_front fun c hc => (hpat c hc).1
  have hbytes : size (a ++ m) - pat.length = size a := by
    rw [size_append]
    omega
  have htake : (a ++ m).length - pat.length = a.length := by
    rw [List.length_append]
    omega
  rw [sub_ok (by rw [size_append]; omega), ok_bind, hbytes, takeBytes_append, htake, List.take_left]

theorem stripExe_eq (s : Text) : stripExe endsWord s = .ok (withoutExe s) := by
  have hlower := lowers_toLowercase endsWord s
  unfold stripExe withoutExe
  simp only [suffix_lowers (by decide : Plain (exe ++ exe)) hlower,
    suffix_lowers (by decide : Plain exe) hlower]
  split_ifs with htwice honce
  · exact takeBytes_of_endsIn (by decide) htwice
  · exact takeBytes_of_endsIn (by decide) honce
  · rfl

theorem getCustomServerFromString_eq (s : Text) :
    getCustomServerFromString endsWord d s =
      match lowerOffset Kind.host.name (withoutExe s) with
      | some off => do
          let stripped ← dropBytes (withoutExe s) off
          return .ok (readElements endsWord (stripped.splitOn ','))
      | none => .ok (readEncoded d (withoutExe s)) := by
  have hlower := lowers_toLowercase endsWord (withoutExe s)
  rw [getCustomServerFromString, stripExe_eq, ok_bind,
    findBytes_lowers (by decide) (by decide) hlower]
  rfl

/-- The offset that was found in the lower-case name is a boundary in the name itself. -/
def CutsWell (s : Text) : Prop :=
  ∀ off, lowerOffset Kind.host.name (withoutExe s) = some off → BoundaryAt (withoutExe s) off

theorem returns_iff (s : Text) :
    (∃ r, getCustomServerFromString endsWord d s = .ok r) ↔ CutsWell s := by
  rw [getCustomServerFromString_eq, CutsWell]
  cases hoff : lowerOffset Kind.host.name (withoutExe s) with
  | none => exact iff_of_true ⟨_, rfl⟩ (by simp)
  | some off =>
    have hslice : (∃ r, (do
        let stripped ← dropBytes (withoutExe s) off
        return .ok (readElements endsWord (stripped.splitOn ',')) :
          Except Trap (Except String CustomServer)) = .ok r) ↔
        ∃ u, dropBytes (withoutExe s) off = .ok u := by
      cases dropBytes (withoutExe s) off with
      | error e => exact iff_of_false (by simp) (by simp)
      | ok u => exact iff_of_true ⟨_, rfl⟩ ⟨_, rfl⟩
    refine hslice.trans (dropBytes_boundary.trans ?_)
    constructor
    · intro h off' heq
      exact Option.some.inj heq ▸ h
    · intro h
      exact h off rfl

end RustDesk.FileNameServer
