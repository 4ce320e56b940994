import RustDesk.Config.CustomServer
import RustDesk.Lib.Regex

/-!
# Server addresses with a port

`check_port` puts the port behind a host that has none, `split_host_port` takes the two apart
again and `increase_port` adds to the port.  All three tell an IPv6 address by the same regular
expression and other hosts with a port by their colon.

* `host_and_port_kept`: **host and port survive exactly** for the IPv6 addresses that neither
  begin nor end with a colon and have no dot, for all IPv4 addresses, and for the domain names
  that are not up to four hexadecimal digits with a port of up to four digits.
-/

open TextBytes RegularExpression

namespace RustDesk.HostPort

open List

/-- What the regular expression tells apart: decimal digits, the other hexadecimal digits,
colons, brackets, and decimal digits of other scripts. -/
inductive CharClass where
  | digit
  | letter
  | colon
  | opening
  | closing
  | otherDigit
  | other
  deriving DecidableEq

/-- The class of a character; `isOtherDigit` are the decimal digits beyond ASCII. -/
def classify (isOtherDigit : Char → Bool) (c : Char) : CharClass :=
  if c.isDigit then .digit
  else if ('a' ≤ c ∧ c ≤ 'f') ∨ ('A' ≤ c ∧ c ≤ 'F') then .letter
  else if c = ':' then .colon
  else if c = '[' then .opening
  else if c = ']' then .closing
  else if isOtherDigit c then .otherDigit
  else .other

/-- `[a-fA-F0-9]`. -/
def hexDigit : RegularExpression CharClass := char .digit + char .letter

/-- `\d`. -/
def decimalDigit : RegularExpression CharClass := char .digit + char .otherDigit

/-- `[a-fA-F0-9]{1,4}`. -/
def group : RegularExpression CharClass := hexDigit.upTo 3

/-- `:{1,2}`. -/
def colons : RegularExpression CharClass := (char .colon).upTo 1

/-- `([a-fA-F0-9]{1,4}:{1,2})+[a-fA-F0-9]{1,4}`. -/
def address : RegularExpression CharClass := (group * colons).atLeastOne * group

/-- `\[([a-fA-F0-9]{1,4}:{1,2})+[a-fA-F0-9]{1,4}\]:\d+`. -/
def bracketed : RegularExpression CharClass :=
  char .opening * address * char .closing * char .colon * decimalDigit.atLeastOne

section

variable (isOtherDigit : Char → Bool)

def isIpv6Str (host : Text) : Bool :=
  (address + bracketed).rmatch (host.map (classify isOtherDigit))

/-- `format!("{}")` of a number. -/
def showInt : Int → Text
  | .ofNat n => Nat.toDigits 10 n
  | .negSucc n => '-' :: Nat.toDigits 10 (n + 1)

def digitsValue (ds : Text) : Option Nat :=
  if ds ≠ [] ∧ ds.all Char.isDigit then some (Nat.ofDigitChars 10 ds 0) else none

/-- `str::parse::<i32>`. -/
def parseI32 (cs : Text) : Option Int :=
  match cs with
  | '-' :: ds => (digitsValue ds).bind fun n => if n ≤ 2 ^ 31 then some (-n) else none
  | '+' :: ds => (digitsValue ds).bind fun n => if n < 2 ^ 31 then some n else none
  | ds => (digitsValue ds).bind fun n => if n < 2 ^ 31 then some n else none

/-- `]:`. -/
def bracketColon : Text := [']', ':']

def checkPort (host : Text) (port : Int) : Text :=
  if isIpv6Str isOtherDigit host then
    if host.head? = some '[' then host
    else '[' :: host ++ bracketColon ++ showInt port
  else if ':' ∉ host then host ++ ':' :: showInt port
  else host

def increasePort (host : Text) (offset : Int) : Text :=
  if isIpv6Str isOtherDigit host then
    if host.head? = some '[' then
      match FileNameServer.split bracketColon host with
      | [a, b] =>
        let port := (parseI32 b).getD 0
        if port > 0 then a ++ bracketColon ++ showInt (port + offset) else host
      | _ => host
    else host
  else if ':' ∈ host then
    match host.splitOn ':' with
    | [a, b] =>
      let port := (parseI32 b).getD 0
      if port > 0 then a ++ ':' :: showInt (port + offset) else host
    | _ => host
  else host

def splitHostPort (host : Text) : Option (Text × Int) :=
  if isIpv6Str isOtherDigit host then
    if host.head? = some '[' then
      match FileNameServer.split bracketColon host with
      | [a, b] =>
        let port := (parseI32 b).getD 0
        if port > 0 then some (a ++ [']'], port) else none
      | _ => none
    else none
  else if ':' ∈ host then
    match host.splitOn ':' with
    | [a, b] =>
      let port := (parseI32 b).getD 0
      if port > 0 then some (a, port) else none
    | _ => none
  else none

end

def IsGroup (g : Text) : Prop :=
  g ≠ [] ∧ g.length ≤ 4 ∧ ∀ c ∈ g, c.isDigit = true ∨ ('a' ≤ c ∧ c ≤ 'f') ∨ ('A' ≤ c ∧ c ≤ 'F')

def IsIpv4 (h : Text) : Prop :=
  ∃ a b c d : Nat, a < 256 ∧ b < 256 ∧ c < 256 ∧ d < 256 ∧
    h = ['.'].intercalate ([a, b, c, d].map (Nat.toDigits 10))

/-- An IPv6 address in one of its textual forms: eight groups, the last two perhaps as an IPv4
address, and `::` perhaps for one group or more. -/
inductive IsIpv6 : Text → Prop
  | full {gs : List Text} (hgs : ∀ g ∈ gs, IsGroup g) (hlen : gs.length = 8) :
      IsIpv6 ([':'].intercalate gs)
  | fullIpv4 {gs : List Text} {v4 : Text} (hgs : ∀ g ∈ gs, IsGroup g) (hlen : gs.length = 6)
      (h4 : IsIpv4 v4) : IsIpv6 ([':'].intercalate (gs ++ [v4]))
  | compressed {left right : List Text} (hl : ∀ g ∈ left, IsGroup g) (hr : ∀ g ∈ right, IsGroup g)
      (hlen : left.length + right.length ≤ 7) :
      IsIpv6 ([':'].intercalate left ++ [':', ':'] ++ [':'].intercalate right)
  | compressedIpv4 {left right : List Text} {v4 : Text} (hl : ∀ g ∈ left, IsGroup g)
      (hr : ∀ g ∈ right, IsGroup g) (hlen : left.length + right.length ≤ 5) (h4 : IsIpv4 v4) :
      IsIpv6 ([':'].intercalate left ++ [':', ':'] ++ [':'].intercalate (right ++ [v4]))

def IsLabel (l : Text) : Prop :=
  l ≠ [] ∧ l.length ≤ 63 ∧ (∀ c ∈ l, c.isAlphanum = true ∨ c = '-') ∧
    l.head? ≠ some '-' ∧ l.getLast? ≠ some '-'

def IsDomain (h : Text) : Prop :=
  ∃ ls : List Text, ls ≠ [] ∧ (∀ l ∈ ls, IsLabel l) ∧ h = ['.'].intercalate ls ∧ h.length ≤ 253

/-- Host and port survive the three functions; `shown` is the host as `split_host_port` shows
it. -/
structure Kept (isOtherDigit : Char → Bool) (h shown : Text) (p d : Int) : Prop where
  split : splitHostPort isOtherDigit (checkPort isOtherDigit h p) = some (shown, p)
  check : ∀ q, checkPort isOtherDigit (checkPort isOtherDigit h p) q = checkPort isOtherDigit h p
  increase : increasePort isOtherDigit (checkPort isOtherDigit h p) d =
    checkPort isOtherDigit h (p + d)

def IsHex (x : CharClass) : Prop := x = .digit ∨ x = .letter

variable {w : List CharClass}

theorem letters_hexDigit : Letters hexDigit IsHex :=
  (letters_char CharClass.digit).add (letters_char CharClass.letter)

theorem mem_group : w ∈ group.matches' ↔ w ≠ [] ∧ w.length ≤ 4 ∧ ∀ x ∈ w, IsHex x :=
  letters_hexDigit.mem_upTo

theorem mem_colons : w ∈ colons.matches' ↔ w ≠ [] ∧ w.length ≤ 2 ∧ ∀ x ∈ w, x = .colon :=
  (letters_char CharClass.colon).mem_upTo

theorem mem_address : w ∈ address.matches' ↔ ∃ g cs rest, w = g ++ cs ++ rest ∧
    g ∈ group.matches' ∧ cs ∈ colons.matches' ∧
      (rest ∈ group.matches' ∨ rest ∈ address.matches') := by
  have hword : w ∈ address.matches' ↔
      w ∈ (group * colons).matches' * (group.matches' + address.matches') :=
    iff_of_eq (congrArg (w ∈ ·) (matches'_atLeastOne_mul (group * colons) group))
  rw [hword, Language.mem_mul]
  constructor
  · rintro ⟨u, hu, rest, hrest, rfl⟩
    rw [matches'_mul, Language.mem_mul] at hu
    obtain ⟨g, hg, cs, hcs, rfl⟩ := hu
    exact ⟨g, cs, rest, rfl, hg, hcs, (Language.mem_add ..).mp hrest⟩
  · rintro ⟨g, cs, rest, rfl, hg, hcs, hrest⟩
    refine ⟨g ++ cs, ?_, rest, (Language.mem_add ..).mpr hrest, rfl⟩
    rw [matches'_mul, Language.mem_mul]
    exact ⟨g, hg, cs, hcs, rfl⟩

structure Shaped (w : List CharClass) : Prop where
  letters : ∀ x ∈ w, IsHex x ∨ x = .colon
  colon : CharClass.colon ∈ w
  front : ∀ x ∈ w.head?, IsHex x
  back : ∀ x ∈ w.getLast?, IsHex x

theorem shaped_of_mem_address (h : w ∈ address.matches') : Shaped w := by
  induction hn : w.length using Nat.strongRecOn generalizing w with
  | ind n ih =>
    obtain ⟨g, cs, rest, rfl, hg, hcs, hrest⟩ := mem_address.mp h
    obtain ⟨hgne, -, hgall⟩ := mem_group.mp hg
    obtain ⟨hcsne, -, hcsall⟩ := mem_colons.mp hcs
    have hrest' : (∀ x ∈ rest, IsHex x ∨ x = .colon) ∧ rest ≠ [] ∧
        ∀ x ∈ rest.getLast?, IsHex x := by
      rcases hrest with hrest | hrest
      · obtain ⟨hne, -, hall⟩ := mem_group.mp hrest
        exact ⟨fun x hx => .inl (hall x hx), hne, fun x hx => hall x (mem_of_getLast? hx)⟩
      · have hlt : rest.length < n := by
          have := length_pos_of_ne_nil hgne
          rw [← hn, length_append, length_append]
          omega
        have hshaped := ih _ hlt hrest rfl
        exact ⟨hshaped.letters, ne_nil_of_mem hshaped.colon, hshaped.back⟩
    refine ⟨fun x hx => ?_, ?_, fun x hx => ?_, fun x hx => ?_⟩
    · rcases mem_append.mp hx with hx | hx
      · rcases mem_append.mp hx with hx | hx
        · exact .inl (hgall x hx)
        · exact .inr (hcsall x hx)
      · exact hrest'.1 x hx
    · obtain ⟨c, hc⟩ := exists_mem_of_ne_nil cs hcsne
      rw [← hcsall c hc]
      exact mem_append_left _ (mem_append_right _ hc)
    · rw [append_assoc, List.head?_append_of_ne_nil _ hgne] at hx
      exact hgall x (mem_of_head? hx)
    · rw [List.getLast?_append_of_ne_nil _ hrest'.2.1] at hx
      exact hrest'.2.2 x hx

variable {isOtherDigit : Char → Bool} {h g : Text} {c : Char} {p d : Int}

theorem classify_colon : classify isOtherDigit ':' = .colon := rfl

theorem classify_eq_colon (hc : classify isOtherDigit c = .colon) : c = ':' := by
  unfold classify at hc
  split_ifs at hc with h1 h2 h3
  exact h3

theorem classify_eq_opening (hc : classify isOtherDigit c = .opening) : c = '[' := by
  unfold classify at hc
  split_ifs at hc with h1 h2 h3 h4
  exact h4

theorem isHex_classify : IsHex (classify isOtherDigit c) ↔
    c.isDigit = true ∨ ('a' ≤ c ∧ c ≤ 'f') ∨ ('A' ≤ c ∧ c ≤ 'F') := by
  unfold IsHex classify
  split_ifs with h1 h2 <;> simp_all

theorem classify_of_isDigit (hc : c.isDigit = true) : classify isOtherDigit c = .digit :=
  if_pos hc

theorem mem_group_map : g.map (classify isOtherDigit) ∈ group.matches' ↔ IsGroup g := by
  rw [mem_group, IsGroup, length_map, map_eq_nil_iff.ne, forall_mem_map]
  simp only [isHex_classify]

def IsAddress (isOtherDigit : Char → Bool) (h : Text) : Prop :=
  h.map (classify isOtherDigit) ∈ address.matches'

theorem isIpv6Str_iff : isIpv6Str isOtherDigit h = true ↔
    IsAddress isOtherDigit h ∨ h.map (classify isOtherDigit) ∈ bracketed.matches' := by
  rw [isIpv6Str, rmatch_iff_matches', matches'_add, Language.mem_add]
  rfl

theorem mem_bracketed : w ∈ bracketed.matches' ↔ ∃ a ds,
    w = .opening :: a ++ .closing :: .colon :: ds ∧
    a ∈ address.matches' ∧ ds ≠ [] ∧ ∀ x ∈ ds, x = .digit ∨ x = .otherDigit := by
  have hdigits : ∀ {ds : List CharClass}, ds ∈ decimalDigit.atLeastOne.matches' ↔
      ds ≠ [] ∧ ∀ x ∈ ds, x = .digit ∨ x = .otherDigit :=
    Letters.mem_atLeastOne ((letters_char CharClass.digit).add (letters_char CharClass.otherDigit))
  simp only [bracketed, matches'_mul, Language.mem_mul, matches'_char]
  constructor
  · rintro ⟨_, ⟨_, ⟨_, ⟨_, rfl, a, ha, rfl⟩, _, rfl, rfl⟩, _, rfl, rfl⟩, ds, hds, rfl⟩
    exact ⟨a, ds, by simp, ha, hdigits.mp hds⟩
  · rintro ⟨a, ds, rfl, ha, hds⟩
    exact ⟨_, ⟨_, ⟨_, ⟨[.opening], rfl, a, ha, rfl⟩, [.closing], rfl, rfl⟩, [.colon], rfl, rfl⟩, ds,
      hdigits.mpr hds, by simp⟩

theorem cut_inj {α : Type*} [DecidableEq α] {x : α} {a b u v : List α} (ha : x ∉ a) (hb : x ∉ b)
    (heq : a ++ x :: u = b ++ x :: v) : a = b ∧ u = v := by
  have hsplit := congrArg (List.splitOn x) heq
  rw [splitOn_append_cons_self_of_not_mem ha, splitOn_append_cons_self_of_not_mem hb,
    List.cons.injEq] at hsplit
  have hjoined : [x].intercalate (u.splitOn x) = u := intercalate_splitOn x
  refine ⟨hsplit.1, ?_⟩
  rw [← hjoined, hsplit.2, intercalate_splitOn]

theorem isAddress_step {cs rest : Text} (hg : IsGroup g) (hcs : cs = [':'] ∨ cs = [':', ':'])
    (hrest : IsGroup rest ∨ IsAddress isOtherDigit rest) :
    IsAddress isOtherDigit (g ++ cs ++ rest) := by
  refine mem_address.mpr ⟨g.map (classify isOtherDigit), cs.map (classify isOtherDigit),
    rest.map (classify isOtherDigit), by simp, mem_group_map.mpr hg, ?_, ?_⟩
  · rw [mem_colons]
    rcases hcs with rfl | rfl <;> simp [classify_colon]
  · exact hrest.imp_left mem_group_map.mpr

theorem isAddress_append {gs : List Text} {cs rest : Text} (hgs : ∀ g ∈ gs, IsGroup g)
    (hne : gs ≠ []) (hcs : cs = [':'] ∨ cs = [':', ':'])
    (hrest : IsGroup rest ∨ IsAddress isOtherDigit rest) :
    IsAddress isOtherDigit ([':'].intercalate gs ++ cs ++ rest) := by
  induction gs with
  | nil => exact absurd rfl hne
  | cons g gs ih =>
    obtain ⟨hg, hgs⟩ := forall_mem_cons.mp hgs
    cases gs with
    | nil =>
      rw [intercalate_singleton]
      exact isAddress_step hg hcs hrest
    | cons g' gs =>
      rw [intercalate_cons_cons]
      have htail : IsAddress isOtherDigit ([':'].intercalate (g' :: gs) ++ cs ++ rest) :=
        ih hgs (cons_ne_nil _ _)
      simpa only [append_assoc] using isAddress_step hg (.inl rfl) (.inr htail)

theorem isGroup_or_isAddress {gs : List Text} (hgs : ∀ g ∈ gs, IsGroup g) (hne : gs ≠ []) :
    IsGroup ([':'].intercalate gs) ∨ IsAddress isOtherDigit ([':'].intercalate gs) := by
  induction gs with
  | nil => exact absurd rfl hne
  | cons g gs ih =>
    obtain ⟨hg, hgs⟩ := forall_mem_cons.mp hgs
    cases gs with
    | nil =>
      rw [intercalate_singleton]
      exact .inl hg
    | cons g' gs =>
      rw [intercalate_cons_cons]
      exact .inr (isAddress_step hg (.inl rfl) (ih hgs (cons_ne_nil _ _)))

theorem IsIpv6.isAddress (h6 : IsIpv6 h) (hdot : '.' ∉ h) (hfront : h.head? ≠ some ':')
    (hback : h.getLast? ≠ some ':') : IsAddress isOtherDigit h := by
  have hdotted : ∀ {v4 : Text}, IsIpv4 v4 → '.' ∈ v4 := by
    rintro _ ⟨a, b, c, d, -, -, -, -, rfl⟩
    simp [intercalate_cons_cons]
  have hlast : ∀ {ls : List Text} {v4 : Text}, IsIpv4 v4 →
      '.' ∈ [':'].intercalate (ls ++ [v4]) := by
    intro ls v4 h4
    induction ls with
    | nil => simpa using hdotted h4
    | cons l ls ih =>
      rw [cons_append, intercalate_cons_of_ne_nil (by simp)]
      exact mem_append_right _ ih
  cases h6 with
  | @full gs hgs hlen =>
    obtain ⟨g, gs, rfl⟩ := exists_cons_of_length_pos (by omega : 0 < gs.length)
    obtain ⟨g', gs, rfl⟩ := exists_cons_of_length_pos (l := gs) (by simp at hlen; omega)
    obtain ⟨hg, hgs⟩ := forall_mem_cons.mp hgs
    rw [intercalate_cons_cons]
    exact isAddress_step hg (.inl rfl) (isGroup_or_isAddress hgs (cons_ne_nil _ _))
  | fullIpv4 hgs hlen h4 => exact absurd (hlast h4) hdot
  | @compressed left right hl hr hlen =>
    have hleft : left ≠ [] := by
      rintro rfl
      exact hfront rfl
    have hright : right ≠ [] := by
      rintro rfl
      simp at hback
    exact isAddress_append hl hleft (.inr rfl) (isGroup_or_isAddress hr hright)
  | compressedIpv4 hl hr hlen h4 => exact absurd (mem_append_right _ (hlast h4)) hdot

theorem IsAddress.shaped (ha : IsAddress isOtherDigit h) :
    (∀ c ∈ h, c = ':' ∨ c.isDigit = true ∨ ('a' ≤ c ∧ c ≤ 'f') ∨ ('A' ≤ c ∧ c ≤ 'F')) ∧
      ':' ∈ h ∧ h.head? ≠ some ':' ∧ h.getLast? ≠ some ':' := by
  have hs := shaped_of_mem_address ha
  have hcolon : ¬IsHex (classify isOtherDigit ':') := by
    rw [classify_colon]
    exact fun h => h.elim CharClass.noConfusion CharClass.noConfusion
  refine ⟨fun c hc => ?_, ?_, fun hfront => ?_, fun hback => ?_⟩
  · rcases hs.letters _ (mem_map_of_mem hc) with hhex | heq
    · exact .inr (isHex_classify.mp hhex)
    · exact .inl (classify_eq_colon heq)
  · obtain ⟨c, hc, heq⟩ := mem_map.mp hs.colon
    exact classify_eq_colon heq ▸ hc
  · exact hcolon (hs.front _ (by rw [List.head?_map, hfront]; rfl))
  · exact hcolon (hs.back _ (by rw [List.getLast?_map, hback]; rfl))

theorem IsAddress.notMem (ha : IsAddress isOtherDigit h)
    (hc : c ≠ ':' ∧ c.isDigit = false ∧ ¬('a' ≤ c ∧ c ≤ 'f') ∧ ¬('A' ≤ c ∧ c ≤ 'F')) : c ∉ h := by
  intro hmem
  rcases ha.shaped.1 c hmem with heq | hdigit | hlower | hupper
  · exact hc.1 heq
  · exact Bool.noConfusion (hc.2.1.symm.trans hdigit)
  · exact hc.2.2.1 hlower
  · exact hc.2.2.2 hupper

theorem head?_of_mem_bracketed (hb : h.map (classify isOtherDigit) ∈ bracketed.matches') :
    h.head? = some '[' ∧ ':' ∈ h := by
  obtain ⟨a, ds, heq, -⟩ := mem_bracketed.mp hb
  constructor
  · cases h with
    | nil => exact absurd heq.symm (by simp)
    | cons c h =>
      rw [map_cons, cons_append, List.cons.injEq] at heq
      rw [List.head?_cons, classify_eq_opening heq.1]
  · have hmem : CharClass.colon ∈ h.map (classify isOtherDigit) := by
      rw [heq]
      simp
    obtain ⟨c, hc, hcolon⟩ := mem_map.mp hmem
    exact classify_eq_colon hcolon ▸ hc

theorem isDigit_toDigits {n : Nat} : ∀ c ∈ Nat.toDigits 10 n, c.isDigit = true :=
  fun _ hc => Nat.isDigit_of_mem_toDigits (by decide) (by decide) hc

theorem showInt_of_pos (hp : 0 < p) : showInt p = Nat.toDigits 10 p.toNat := by
  cases p with
  | ofNat n => rfl
  | negSucc n => cases hp

theorem isDigit_of_mem_showInt (hp : 0 < p) (hc : c ∈ showInt p) : c.isDigit = true := by
  rw [showInt_of_pos hp] at hc
  exact isDigit_toDigits c hc

theorem digitsValue_toDigits (n : Nat) : digitsValue (Nat.toDigits 10 n) = some n := by
  rw [digitsValue, if_pos ⟨Nat.toDigits_ne_nil, all_eq_true.mpr isDigit_toDigits⟩,
    Nat.ofDigitChars_ten_toDigits]

theorem parseI32_showInt (hp : 0 < p) (hp' : p ≤ 65535) : parseI32 (showInt p) = some p := by
  rw [showInt_of_pos hp]
  have hvalue := digitsValue_toDigits p.toNat
  have hall := isDigit_toDigits (n := p.toNat)
  cases hds : Nat.toDigits 10 p.toNat with
  | nil => exact absurd hds Nat.toDigits_ne_nil
  | cons c ds =>
    rw [hds] at hvalue hall
    have hc := hall c mem_cons_self
    have hminus : c ≠ '-' := by
      rintro rfl
      cases hc
    have hplus : c ≠ '+' := by
      rintro rfl
      cases hc
    rw [parseI32, hvalue]
    · simp only [Option.bind_some]
      rw [if_pos (by omega)]
      exact congrArg some (Int.toNat_of_nonneg hp.le)
    · exact fun ds heq => hminus (List.cons.inj heq).1
    · exact fun ds heq => hplus (List.cons.inj heq).1

theorem splitText_bracketColon {b : Text} (hb : ']' ∉ b) (fuel : Nat) :
    FileNameServer.splitText bracketColon fuel b = [b] := by
  cases fuel with
  | zero => rfl
  | succ fuel =>
    have hnone : (List.range (b.length + 1)).find?
        (fun i => decide (bracketColon <+: b.drop i)) = none := by
      refine List.find?_eq_none.mpr fun i _ hpre => hb ?_
      have hmem := (of_decide_eq_true hpre).subset (mem_cons_self (a := ']'))
      exact mem_of_mem_drop hmem
    rw [FileNameServer.splitText, hnone]

theorem split_bracketColon {a b : Text} (ha : ']' ∉ a) (hb : ']' ∉ b) :
    FileNameServer.split bracketColon (a ++ bracketColon ++ b) = [a, b] := by
  obtain ⟨fuel, hfuel⟩ : ∃ fuel, (a ++ bracketColon ++ b).length = fuel + 1 :=
    ⟨a.length + b.length + 1, by simp [bracketColon]; omega⟩
  have hfind : (List.range ((a ++ bracketColon ++ b).length + 1)).find?
      (fun i => decide (bracketColon <+: (a ++ bracketColon ++ b).drop i)) = some a.length := by
    rw [List.find?_range_eq_some]
    refine ⟨?_, ?_, fun j hj => ?_⟩
    · rw [append_assoc, drop_left]
      exact decide_eq_true (prefix_append ..)
    · rw [mem_range, length_append, length_append]
      omega
    · rw [Bool.not_eq_true', decide_eq_false_iff_not]
      intro hpre
      rw [append_assoc, drop_append_of_le_length hj.le,
        drop_eq_getElem_cons hj, cons_append] at hpre
      have hhead := (cons_prefix_cons.mp hpre).1
      exact ha (hhead ▸ getElem_mem hj)
  rw [FileNameServer.split, hfuel, FileNameServer.splitText, hfind]
  simp only
  rw [splitText_bracketColon]
  · simp [append_assoc]
  · simpa [append_assoc, bracketColon] using hb

theorem kept_of_isAddress (ha : IsAddress isOtherDigit h) (hp : 0 < p) (hp' : p ≤ 65535) :
    Kept isOtherDigit h ('[' :: h ++ [']']) p d := by
  have hopen : '[' ∉ h := ha.notMem (by decide)
  have hclose : ']' ∉ h := ha.notMem (by decide)
  have hcheck : ∀ q, checkPort isOtherDigit h q = '[' :: h ++ bracketColon ++ showInt q := by
    intro q
    rw [checkPort, if_pos (isIpv6Str_iff.mpr (.inl ha)),
      if_neg fun hfront => hopen (mem_of_head? hfront)]
  have hmatched : isIpv6Str isOtherDigit ('[' :: h ++ bracketColon ++ showInt p) = true := by
    refine isIpv6Str_iff.mpr (.inr (mem_bracketed.mpr ⟨h.map (classify isOtherDigit),
      (showInt p).map (classify isOtherDigit), ?_, ha, ?_, ?_⟩))
    · rw [map_append, map_append, map_cons, append_assoc]
      rfl
    · rw [showInt_of_pos hp]
      exact map_eq_nil_iff.not.mpr Nat.toDigits_ne_nil
    · rw [showInt_of_pos hp, forall_mem_map]
      exact fun c hc => .inl (classify_of_isDigit (isDigit_toDigits c hc))
  have hfront : ('[' :: h ++ bracketColon ++ showInt p).head? = some '[' := rfl
  have hpieces : FileNameServer.split bracketColon ('[' :: h ++ bracketColon ++ showInt p) =
      ['[' :: h, showInt p] := by
    refine split_bracketColon (not_mem_cons_of_ne_of_not_mem (by decide) hclose) fun hmem => ?_
    exact absurd (isDigit_of_mem_showInt hp hmem) (by decide)
  refine ⟨?_, fun q => ?_, ?_⟩
  · rw [hcheck, splitHostPort, if_pos hmatched, if_pos hfront, hpieces]
    simp only [parseI32_showInt hp hp', Option.getD_some]
    rw [if_pos hp]
  · rw [hcheck p, checkPort, if_pos hmatched, if_pos hfront]
  · rw [hcheck, hcheck, increasePort, if_pos hmatched, if_pos hfront, hpieces]
    simp only [parseI32_showInt hp hp', Option.getD_some]
    rw [if_pos hp]

theorem not_kept_of_colons {shown a b c : Text} (heq : h = a ++ ':' :: b ++ ':' :: c)
    (hmatched : isIpv6Str isOtherDigit h = false) : ¬Kept isOtherDigit h shown p d := by
  intro hkept
  have hsplit := hkept.split
  have hcolon : ':' ∈ h := by
    rw [heq]
    simp
  rw [checkPort, if_neg (Bool.eq_false_iff.mp hmatched), if_neg (not_not.mpr hcolon),
    splitHostPort, if_neg (Bool.eq_false_iff.mp hmatched), if_pos hcolon] at hsplit
  have hpieces : 3 ≤ (h.splitOn ':').length := by
    have hpos : ∀ l : Text, 1 ≤ (l.splitOn ':').length :=
      fun l => length_pos_of_ne_nil (splitOn_ne_nil _ l)
    rw [heq, splitOn_append_cons_self, splitOn_append_cons_self, length_append, length_append]
    have h1 := hpos a
    have h2 := hpos b
    have h3 := hpos c
    omega
  split at hsplit
  case h_1 a b hab =>
    rw [hab] at hpieces
    exact absurd hpieces (by simp)
  case h_2 => exact absurd hsplit.symm (Option.some_ne_none _)

theorem mem_intercalate {sep : Text} {ls : List Text} (hc : c ∈ sep.intercalate ls) :
    c ∈ sep ∨ ∃ l ∈ ls, c ∈ l := by
  induction ls with
  | nil => cases hc
  | cons l ls ih =>
    by_cases hnil : ls = []
    · rw [hnil, intercalate_singleton] at hc
      exact .inr ⟨l, mem_cons_self, hc⟩
    · rw [intercalate_cons_of_ne_nil hnil, append_assoc] at hc
      rcases mem_append.mp hc with hc | hc
      · exact .inr ⟨l, mem_cons_self, hc⟩
      · rcases mem_append.mp hc with hc | hc
        · exact .inl hc
        · exact (ih hc).imp_right fun ⟨l', hl', hc⟩ => ⟨l', mem_cons_of_mem _ hl', hc⟩

theorem IsIpv4.mem (h4 : IsIpv4 h) (hc : c ∈ h) : c = '.' ∨ c.isDigit = true := by
  obtain ⟨n1, n2, n3, n4, -, -, -, -, rfl⟩ := h4
  rcases mem_intercalate hc with hc | ⟨l, hl, hc⟩
  · exact .inl (mem_singleton.mp hc)
  · obtain ⟨n, -, rfl⟩ := mem_map.mp hl
    exact .inr (isDigit_toDigits c hc)

theorem IsDomain.mem (hd : IsDomain h) (hc : c ∈ h) : c = '.' ∨ c.isAlphanum = true ∨ c = '-' := by
  obtain ⟨ls, -, hls, rfl, -⟩ := hd
  rcases mem_intercalate hc with hc | ⟨l, hl, hc⟩
  · exact .inl (mem_singleton.mp hc)
  · exact .inr ((hls l hl).2.2.1 c hc)

theorem IsIpv6.colons (h6 : IsIpv6 h) : ∃ a b c, h = a ++ ':' :: b ++ ':' :: c := by
  have hmany : ∀ {ls : List Text}, 3 ≤ ls.length →
      ∃ a b c, [':'].intercalate ls = a ++ ':' :: b ++ ':' :: c := by
    intro ls hlen
    match ls, hlen with
    | l1 :: l2 :: l3 :: ls, _ =>
      refine ⟨l1, l2, [':'].intercalate (l3 :: ls), ?_⟩
      rw [intercalate_cons_cons, intercalate_cons_cons]
      simp
  have htwo : ∀ a b : Text, ∃ a' b' c', a ++ [':', ':'] ++ b = a' ++ ':' :: b' ++ ':' :: c' :=
    fun a b => ⟨a, [], b, by simp⟩
  cases h6 with
  | full hgs hlen => exact hmany (by omega)
  | fullIpv4 hgs hlen h4 => exact hmany (by simp [hlen])
  | compressed hl hr hlen => exact htwo _ _
  | compressedIpv4 hl hr hlen h4 => exact htwo _ _

theorem IsIpv6.notMem_opening (h6 : IsIpv6 h) : '[' ∉ h := by
  have hgroup : ∀ {g : Text}, IsGroup g → '[' ∉ g :=
    fun hg hmem => absurd (hg.2.2 _ hmem) (by decide)
  have hipv4 : ∀ {v4 : Text}, IsIpv4 v4 → '[' ∉ v4 :=
    fun h4 hmem => absurd (h4.mem hmem) (by decide)
  have hgroups : ∀ {gs : List Text}, (∀ g ∈ gs, IsGroup g) → '[' ∉ [':'].intercalate gs := by
    intro gs hgs hmem
    rcases mem_intercalate hmem with hsep | ⟨g, hg, hmem⟩
    · exact absurd hsep (by decide)
    · exact hgroup (hgs g hg) hmem
  have hdotted : ∀ {gs : List Text} {v4 : Text}, (∀ g ∈ gs, IsGroup g) → IsIpv4 v4 →
      '[' ∉ [':'].intercalate (gs ++ [v4]) := by
    intro gs v4 hgs h4 hmem
    rcases mem_intercalate hmem with hsep | ⟨g, hg, hmem⟩
    · exact absurd hsep (by decide)
    · rcases mem_append.mp hg with hg | hg
      · exact hgroup (hgs g hg) hmem
      · exact hipv4 h4 (mem_singleton.mp hg ▸ hmem)
  have hjoined : ∀ {a b : Text}, '[' ∉ a → '[' ∉ b → '[' ∉ a ++ [':', ':'] ++ b := by
    intro a b ha hb hmem
    rcases mem_append.mp hmem with hmem | hmem
    · rcases mem_append.mp hmem with hmem | hmem
      · exact ha hmem
      · exact absurd hmem (by decide)
    · exact hb hmem
  cases h6 with
  | full hgs hlen => exact hgroups hgs
  | fullIpv4 hgs hlen h4 => exact hdotted hgs h4
  | compressed hl hr hlen => exact hjoined (hgroups hl) (hgroups hr)
  | compressedIpv4 hl hr hlen h4 => exact hjoined (hgroups hl) (hdotted hr h4)

/-- **An IPv6 address keeps its host and port** if and only if the expression matches it. -/
theorem IsIpv6.kept_iff (h6 : IsIpv6 h) (hp : 0 < p) (hp' : p ≤ 65535) :
    Kept isOtherDigit h ('[' :: h ++ [']']) p d ↔
      '.' ∉ h ∧ h.head? ≠ some ':' ∧ h.getLast? ≠ some ':' := by
  by_cases ha : IsAddress isOtherDigit h
  · have hdot : '.' ∉ h := ha.notMem (by decide)
    exact iff_of_true (kept_of_isAddress ha hp hp') ⟨hdot, ha.shaped.2.2⟩
  · refine iff_of_false ?_ fun hshape => ha (h6.isAddress hshape.1 hshape.2.1 hshape.2.2)
    obtain ⟨a, b, c, heq⟩ := h6.colons
    refine not_kept_of_colons heq (Bool.eq_false_iff.mpr fun hmatched => ?_)
    rcases isIpv6Str_iff.mp hmatched with hmatched | hmatched
    · exact ha hmatched
    · exact h6.notMem_opening (mem_of_head? (head?_of_mem_bracketed hmatched).1)

theorem isGroup_showInt_iff (hp : 0 < p) : IsGroup (showInt p) ↔ p < 10000 := by
  have hlen : (showInt p).length ≤ 4 ↔ p.toNat < 10 ^ 4 := by
    rw [showInt_of_pos hp]
    exact Nat.length_toDigits_le_iff (by decide) (by decide)
  rw [IsGroup, hlen, showInt_of_pos hp]
  constructor
  · rintro ⟨-, hlt, -⟩
    omega
  · intro hlt
    exact ⟨Nat.toDigits_ne_nil, by omega, fun c hc => .inl (isDigit_toDigits c hc)⟩

theorem colon_notMem_map (hcolon : ':' ∉ h) : CharClass.colon ∉ h.map (classify isOtherDigit) := by
  intro hmem
  obtain ⟨c, hc, hclass⟩ := mem_map.mp hmem
  exact hcolon (classify_eq_colon hclass ▸ hc)

theorem isIpv6Str_port_iff (hcolon : ':' ∉ h) (hopen : '[' ∉ h) (hp : 0 < p) :
    isIpv6Str isOtherDigit (h ++ ':' :: showInt p) = true ↔ IsGroup h ∧ p < 10000 := by
  have hdigits := isGroup_showInt_iff hp
  rw [isIpv6Str_iff]
  constructor
  · rintro (ha | hb)
    · obtain ⟨g, cs, rest, heq, hg, hcs, hrest⟩ := mem_address.mp ha
      obtain ⟨hne, -, hcs⟩ := mem_colons.mp hcs
      cases cs with
      | nil => exact absurd rfl hne
      | cons x cs =>
        obtain ⟨rfl, htail⟩ := forall_mem_cons.mp hcs
        have hgroup : CharClass.colon ∉ g := fun hmem =>
          absurd ((mem_group.mp hg).2.2 _ hmem) fun h => h.elim CharClass.noConfusion
            CharClass.noConfusion
        rw [map_append, map_cons, classify_colon, append_assoc, cons_append] at heq
        obtain ⟨rfl, hright⟩ := cut_inj (colon_notMem_map hcolon) hgroup heq
        -- the port has no colon, so nothing but a group is behind the first one
        have hnone : CharClass.colon ∉ (showInt p).map (classify isOtherDigit) :=
          colon_notMem_map fun hmem => absurd (isDigit_of_mem_showInt hp hmem) (by decide)
        have hcsnil : cs = [] := by
          refine eq_nil_iff_forall_not_mem.mpr fun x hx => hnone ?_
          rw [hright, ← htail x hx]
          exact mem_append_left _ hx
        rw [hcsnil, nil_append] at hright
        rw [← hright] at hrest
        refine ⟨mem_group_map.mp hg, hdigits.mp ?_⟩
        rcases hrest with hrest | hrest
        · exact mem_group_map.mp hrest
        · exact absurd (shaped_of_mem_address hrest).colon hnone
    · have hfront := mem_of_head? (head?_of_mem_bracketed hb).1
      rcases mem_append.mp hfront with hmem | hmem
      · exact absurd hmem hopen
      · rcases mem_cons.mp hmem with heq | hmem
        · cases heq
        · exact absurd (isDigit_of_mem_showInt hp hmem) (by decide)
  · rintro ⟨hg, hlt⟩
    have hstep : IsAddress isOtherDigit (h ++ [':'] ++ showInt p) :=
      isAddress_step hg (.inl rfl) (.inl (hdigits.mpr hlt))
    rw [append_assoc] at hstep
    exact .inl hstep

/-- **A host without a colon keeps host and port** unless it is a group and the port short. -/
theorem kept_iff_of_notMem (hcolon : ':' ∉ h) (hopen : '[' ∉ h) (hp : 0 < p)
    (hp' : p ≤ 65535) : Kept isOtherDigit h h p d ↔ ¬(IsGroup h ∧ p < 10000) := by
  have hplain : isIpv6Str isOtherDigit h = false := by
    refine Bool.eq_false_iff.mpr fun hmatched => ?_
    rcases isIpv6Str_iff.mp hmatched with ha | hb
    · exact hcolon ha.shaped.2.1
    · exact hcolon (head?_of_mem_bracketed hb).2
  have hcheck : ∀ q, checkPort isOtherDigit h q = h ++ ':' :: showInt q := by
    intro q
    rw [checkPort, if_neg (Bool.eq_false_iff.mp hplain), if_pos hcolon]
  have hmem : ':' ∈ h ++ ':' :: showInt p := mem_append_right _ mem_cons_self
  by_cases hgroup : IsGroup h ∧ p < 10000
  · refine iff_of_false (fun hkept => ?_) (not_not.mpr hgroup)
    have hmatched : isIpv6Str isOtherDigit (h ++ ':' :: showInt p) = true :=
      (isIpv6Str_port_iff hcolon hopen hp).mpr hgroup
    have hsplit := hkept.split
    have hfront : (h ++ ':' :: showInt p).head? ≠ some '[' := by
      rw [List.head?_append_of_ne_nil _ hgroup.1.1]
      exact fun hfront => hopen (mem_of_head? hfront)
    rw [hcheck, splitHostPort, if_pos hmatched, if_neg hfront] at hsplit
    exact absurd hsplit.symm (Option.some_ne_none _)
  · refine iff_of_true ?_ hgroup
    have hmatched : ¬isIpv6Str isOtherDigit (h ++ ':' :: showInt p) = true :=
      mt (isIpv6Str_port_iff hcolon hopen hp).mp hgroup
    have hport : ':' ∉ showInt p := fun hmem =>
      absurd (isDigit_of_mem_showInt hp hmem) (by decide)
    have hpieces : (h ++ ':' :: showInt p).splitOn ':' = [h, showInt p] := by
      rw [splitOn_append_cons_self_of_not_mem hcolon, splitOn_eq_singleton hport]
    refine ⟨?_, fun q => ?_, ?_⟩
    · rw [hcheck, splitHostPort, if_neg hmatched, if_pos hmem, hpieces]
      simp only [parseI32_showInt hp hp', Option.getD_some]
      rw [if_pos hp]
    · rw [hcheck p, checkPort, if_neg hmatched, if_neg (not_not.mpr hmem)]
    · rw [hcheck, hcheck, increasePort, if_neg hmatched, if_pos hmem, hpieces]
      simp only [parseI32_showInt hp hp', Option.getD_some]
      rw [if_pos hp]

/-- **Host and port survive exactly** for the IPv6 addresses that have no dot and no colon at
either end, and for the other hosts that are not a group with a port of up to four digits. -/
theorem host_and_port_kept (isOtherDigit : Char → Bool) :
    (∀ h, IsIpv6 h → ∀ p d : Int, 1 ≤ p → p ≤ 65535 → 1 ≤ p + d → p + d ≤ 65535 →
      (Kept isOtherDigit h ('[' :: h ++ [']']) p d ↔
        '.' ∉ h ∧ h.head? ≠ some ':' ∧ h.getLast? ≠ some ':')) ∧
    ∀ h, IsIpv4 h ∨ IsDomain h → ∀ p d : Int, 1 ≤ p → p ≤ 65535 → 1 ≤ p + d → p + d ≤ 65535 →
      (Kept isOtherDigit h h p d ↔ ¬(IsGroup h ∧ p < 10000)) := by
  constructor
  · intro h h6 p d hp hp' _ _
    exact h6.kept_iff hp hp'
  · intro h hh p d hp hp' _ _
    have hcolon : ':' ∉ h := by
      intro hmem
      rcases hh with h4 | hd
      · exact absurd (h4.mem hmem) (by decide)
      · exact absurd (hd.mem hmem) (by decide)
    have hopen : '[' ∉ h := by
      intro hmem
      rcases hh with h4 | hd
      · exact absurd (h4.mem hmem) (by decide)
      · exact absurd (hd.mem hmem) (by decide)
    exact kept_iff_of_notMem hcolon hopen hp hp'

theorem full_address_kept : Kept (fun _ => false)
    ['1', ':', '2', ':', '3', ':', '4', ':', '5', ':', '6', ':', '7', ':', '8']
    ['[', '1', ':', '2', ':', '3', ':', '4', ':', '5', ':', '6', ':', '7', ':', '8', ']']
    21116 1 := by
  have h6 : IsIpv6 ([':'].intercalate [['1'], ['2'], ['3'], ['4'], ['5'], ['6'], ['7'], ['8']]) :=
    .full (by simp [IsGroup]) rfl
  exact ((host_and_port_kept _).1 _ h6 21116 1 (by decide) (by decide) (by decide)
    (by decide)).mpr (by decide)

/-- The IPv6 loopback address, `::1`, has no port behind it afterwards. -/
theorem loopback_port_lost : IsIpv6 [':', ':', '1'] ∧
    ¬Kept (fun _ => false) [':', ':', '1'] ['[', ':', ':', '1', ']'] 21116 1 := by
  constructor
  · have h6 : IsIpv6 ([':'].intercalate [] ++ [':', ':'] ++ [':'].intercalate [['1']]) :=
      .compressed (by simp) (by simp [IsGroup]) (by decide)
    exact h6
  · intro hkept
    exact absurd hkept.split (by decide)

end RustDesk.HostPort
