import Mathlib.Data.List.TakeWhile
import RustDesk.Lib.Text

/-!
# Authorities

The authority of a URL or of an HTTP request names a host and a port.  The address of an IPv6
host stands in brackets there, so that its colons are not taken for the one before the port.

`parse` reads an authority.  It reads back what `written` and a port say (`parse_written`), and
reads nothing where an IPv6 address stands without its brackets (`parse_bare`).
-/

namespace Authority

open List

def isPlain (c : Char) : Bool :=
  c ≠ ':' && c ≠ '[' && c ≠ ']' && c ≠ ' ' && c ≠ '\r' && c ≠ '\n'

inductive Host where
  | name (text : Text) (plain : ∀ c ∈ text, isPlain c = true)
  | ipv6 (text : Text) (colon : ':' ∈ text) (plain : ∀ c ∈ text, isPlain c = true ∨ c = ':')

namespace Host

def text : Host → Text
  | name text _ => text
  | ipv6 text _ _ => text

def written : Host → Text
  | name text _ => text
  | ipv6 text _ _ => '[' :: text ++ [']']

def isIpv6 : Host → Bool
  | name _ _ => false
  | ipv6 _ _ _ => true

end Host

def digits (port : UInt16) : Text := Nat.toDigits 10 port.toNat

def parsePort (ds : Text) : Option UInt16 :=
  if ds ≠ [] ∧ ds.all Char.isDigit ∧ Nat.ofDigitChars 10 ds 0 < 65536 then
    some (UInt16.ofNat (Nat.ofDigitChars 10 ds 0))
  else none

/-- The text in front of the first `sep`, and what is behind it. -/
def splitOnce (sep : Char) (t : Text) : Option (Text × Text) :=
  match t.dropWhile (· ≠ sep) with
  | [] => none
  | _ :: rest => some (t.takeWhile (· ≠ sep), rest)

def splitHost (t : Text) : Text × Text :=
  if t.head? = some '[' then
    match splitOnce ']' t with
    | some (front, rest) => (front ++ [']'], rest)
    | none => (t, [])
  else (t.takeWhile (· ≠ ':'), t.dropWhile (· ≠ ':'))

def parse (t : Text) : Option (Text × UInt16) :=
  match splitHost t with
  | (host, ':' :: port) => (parsePort port).map ((host, ·))
  | _ => none

theorem isDigit_digits {port : UInt16} {c : Char} (hc : c ∈ digits port) : c.isDigit = true :=
  Nat.isDigit_of_mem_toDigits (by decide) (by decide) hc

theorem parsePort_digits (port : UInt16) : parsePort (digits port) = some port := by
  have hvalue : Nat.ofDigitChars 10 (digits port) 0 = port.toNat := Nat.ofDigitChars_ten_toDigits
  have hlt : port.toNat < 65536 := port.toNat_lt
  have hall : (digits port).all Char.isDigit = true := all_eq_true.mpr fun c hc => isDigit_digits hc
  rw [parsePort, hvalue, if_pos ⟨Nat.toDigits_ne_nil, hall, hlt⟩, UInt16.ofNat_toNat]

theorem parsePort_of_colon {ds : Text} (h : ':' ∈ ds) : parsePort ds = none := by
  apply if_neg
  rintro ⟨-, hall, -⟩
  exact absurd (all_eq_true.mp hall ':' h) (by decide)

theorem splitOnce_append {sep : Char} {a : Text} (h : sep ∉ a) (b : Text) :
    splitOnce sep (a ++ sep :: b) = some (a, b) := by
  have hall : ∀ c ∈ a, decide (c ≠ sep) = true := fun c hc =>
    decide_eq_true fun heq => h (heq ▸ hc)
  have htake : (a ++ sep :: b).takeWhile (· ≠ sep) = a := by
    rw [takeWhile_append_of_pos hall, takeWhile_cons_of_neg (by simp), append_nil]
  have hdrop : (a ++ sep :: b).dropWhile (· ≠ sep) = sep :: b := by
    rw [dropWhile_append_of_pos hall, dropWhile_cons_of_neg (by simp)]
  rw [splitOnce, htake, hdrop]

theorem splitOnce_of_notMem {sep : Char} {t : Text} (h : sep ∉ t) : splitOnce sep t = none := by
  have hdrop : t.dropWhile (· ≠ sep) = [] :=
    dropWhile_eq_nil_iff.mpr fun c hc => decide_eq_true fun heq => h (heq ▸ hc)
  rw [splitOnce, hdrop]

namespace Host

theorem colon_notMem {text : Text} (h : ∀ c ∈ text, isPlain c = true) : ':' ∉ text :=
  fun hc => absurd (h ':' hc) (by decide)

theorem notMem_text (h : Host) {c : Char} (hc : isPlain c = false) (hcolon : c ≠ ':') :
    c ∉ h.text := by
  intro hmem
  cases h with
  | name text plain => exact Bool.noConfusion (hc.symm.trans (plain c hmem))
  | ipv6 text colon plain =>
    rcases plain c hmem with hplain | heq
    · exact Bool.noConfusion (hc.symm.trans hplain)
    · exact hcolon heq

theorem colon_mem_text_iff (h : Host) : ':' ∈ h.text ↔ h.isIpv6 = true := by
  cases h with
  | name text plain => simp [Host.text, isIpv6, colon_notMem plain]
  | ipv6 text colon plain => simp [Host.text, isIpv6, colon]

theorem text_eq_written {h : Host} (hname : h.isIpv6 = false) : h.text = h.written := by
  cases h with
  | name text plain => rfl
  | ipv6 text colon plain => exact absurd hname Bool.noConfusion

end Host

theorem splitHost_append {a : Text} (hcolon : ':' ∉ a) (hopening : '[' ∉ a) (b : Text) :
    splitHost (a ++ ':' :: b) = (a, ':' :: b) := by
  have hhead : (a ++ ':' :: b).head? ≠ some '[' := by
    cases a with
    | nil => simp
    | cons c a => simpa using fun heq : c = '[' => hopening (heq ▸ mem_cons_self)
  have hall : ∀ c ∈ a, decide (c ≠ ':') = true := fun c hc =>
    decide_eq_true fun heq => hcolon (heq ▸ hc)
  rw [splitHost, if_neg hhead, takeWhile_append_of_pos hall, dropWhile_append_of_pos hall,
    takeWhile_cons_of_neg (by simp), dropWhile_cons_of_neg (by simp), append_nil]

theorem parse_written (h : Host) (port : UInt16) :
    parse (h.written ++ ':' :: digits port) = some (h.written, port) := by
  have hsplit : splitHost (h.written ++ ':' :: digits port) = (h.written, ':' :: digits port) := by
    cases h with
    | name text plain =>
      have hopening : '[' ∉ text := fun hc => absurd (plain _ hc) (by decide)
      exact splitHost_append (Host.colon_notMem plain) hopening _
    | ipv6 text colon plain =>
      have hclosing : ']' ∉ '[' :: text := by
        have htext := (Host.ipv6 text colon plain).notMem_text (c := ']') rfl (by decide)
        exact not_mem_cons_of_ne_of_not_mem (by decide) htext
      have hcut := splitOnce_append hclosing (':' :: digits port)
      have heq : (Host.ipv6 text colon plain).written ++ ':' :: digits port =
          '[' :: text ++ ']' :: ':' :: digits port := by
        simp [Host.written]
      have hhead : ('[' :: text ++ ']' :: ':' :: digits port).head? = some '[' := rfl
      rw [heq, splitHost, if_pos hhead, hcut]
      rfl
  rw [parse, hsplit]
  exact congrArg (Option.map _) (parsePort_digits port)

theorem parse_bare {h : Host} (hipv6 : h.isIpv6 = true) (port : UInt16) :
    parse (h.text ++ ':' :: digits port) = none := by
  obtain ⟨a, b, heq, hcolon⟩ := eq_append_cons_of_mem (h.colon_mem_text_iff.mpr hipv6)
  have hopening : '[' ∉ a := fun hc =>
    h.notMem_text (c := '[') rfl (by decide) (heq ▸ mem_append_left _ hc)
  rw [parse, heq, append_assoc, cons_append, splitHost_append hcolon hopening]
  have hport : ':' ∈ b ++ ':' :: digits port := mem_append_right _ mem_cons_self
  exact congrArg (Option.map _) (parsePort_of_colon hport)

end Authority
