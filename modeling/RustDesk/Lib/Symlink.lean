import Mathlib.Data.List.Infix
import RustDesk.Lib.UnixPath

/-!
# A file system with symbolic links

A place is the list of names that leads to it from the root.  `walk` follows a path from
a place: `..` goes up, a symbolic link is replaced by its target, and every other name is
appended, whether something is there or not.  So a path denotes a place also if nothing is
there yet; whether an operation succeeds on it is another question.  A path that meets too
many links denotes nothing.

`resolve` follows a link in the last position too, `entry` does not.

What a path denotes depends only on the links.  If there is no link on the way that a path
goes on from a directory (`Clear`), it denotes what its names say, below the directory.
-/

namespace UnixPath

open List

/-- The names on the way from the root. -/
abbrev Place := List Text

inductive Node where
  | file
  | dir
  | link (target : Text)
  deriving DecidableEq

structure FileSystem where
  cwd : Place
  node : Place → Option Node

namespace FileSystem

variable (fs : FileSystem)

def linkAt (l : Place) : Option Text :=
  match fs.node l with
  | some (.link target) => some target
  | _ => none

def maxLinks : Nat := 40

def start (l : Place) (p : Text) : Place := if isAbsolute p then [] else l

/-- The way along some names up to the first link, and from there as `follow` says. -/
def walkWith (follow : Place → List Text → Option Place) : Place → List Text → Option Place
  | l, [] => some l
  | l, c :: cs =>
    if c = dotdot then walkWith follow l.dropLast cs
    else
      match fs.linkAt (l ++ [c]) with
      | some target => follow (start l target) (named target ++ cs)
      | none => walkWith follow (l ++ [c]) cs

def walk : Nat → Place → List Text → Option Place
  | 0 => fs.walkWith fun _ _ => none
  | n + 1 => fs.walkWith (walk n)

def resolve (p : Text) : Option Place := fs.walk maxLinks (start fs.cwd p) (named p)

def entry (p : Text) : Option Place :=
  match (pieces p).getLast? with
  | some c =>
    if proper c ∧ c ≠ dotdot then
      (fs.walk maxLinks (start fs.cwd p) (named p).dropLast).map (· ++ [c])
    else none
  | none => none

def isDir (p : Text) : Bool :=
  match fs.resolve p with
  | some l => l = [] ∨ fs.node l = some .dir
  | none => false

def put (l : Place) (n : Option Node) : FileSystem :=
  { fs with node := Function.update fs.node l n }

/-- `mkdir`. -/
def createDir (p : Text) : Option FileSystem := do
  let l ← fs.entry p
  match fs.node l with
  | none => some (fs.put l (some .dir))
  | some _ => none

/-- `open` for writing, which creates what is missing. -/
def createFile (p : Text) : Option FileSystem := do
  let l ← fs.resolve p
  match fs.node l with
  | none | some .file => some (fs.put l (some .file))
  | _ => none

/-- `unlink`. -/
def removeFile (p : Text) : Option FileSystem := do
  let l ← fs.entry p
  match fs.node l with
  | some .file | some (.link _) => some (fs.put l none)
  | _ => none

def rename (src dst : Text) : Option FileSystem := do
  let a ← fs.entry src
  let b ← fs.entry dst
  match fs.node a, fs.node b with
  | none, _ => none
  | some .dir, some .file | some .dir, some (.link _) => none
  | some .dir, _ =>
    if a <+: b then none
    else some { fs with node := fun l =>
      if b <+: l then fs.node (a ++ l.drop b.length) else if a <+: l then none else fs.node l }
  | some _, some .dir => none
  | some n, _ => if a = b then some fs else some ((fs.put a none).put b (some n))

variable {fs}

@[simp] theorem walk_nil (n : Nat) (l : Place) : fs.walk n l [] = some l := by
  cases n <;> rfl

theorem walk_cons (n : Nat) (l : Place) (c : Text) (cs : List Text) :
    fs.walk n l (c :: cs) =
      if c = dotdot then fs.walk n l.dropLast cs
      else
        match fs.linkAt (l ++ [c]), n with
        | some _, 0 => none
        | some target, n + 1 => fs.walk n (start l target) (named target ++ cs)
        | none, n => fs.walk n (l ++ [c]) cs := by
  cases n <;> simp only [walk, walkWith] <;> split <;> try rfl
  all_goals cases fs.linkAt (l ++ [c]) <;> rfl

theorem walk_append (n : Nat) (l : Place) (xs : List Text) :
    (fs.walk n l xs = none ∧ ∀ ys, fs.walk n l (xs ++ ys) = none) ∨
      ∃ b m, fs.walk n l xs = some b ∧ ∀ ys, fs.walk n l (xs ++ ys) = fs.walk m b ys := by
  induction n using Nat.strong_induction_on generalizing l xs with
  | _ n ihn =>
    induction xs generalizing l with
    | nil => exact .inr ⟨l, n, walk_nil n l, fun _ => rfl⟩
    | cons c xs ih =>
      by_cases hc : c = dotdot
      · simpa only [cons_append, walk_cons, if_pos hc] using ih l.dropLast
      · simp only [cons_append, walk_cons, if_neg hc]
        cases fs.linkAt (l ++ [c]) with
        | none => exact ih (l ++ [c])
        | some target =>
          cases n with
          | zero => exact .inl ⟨rfl, fun _ => rfl⟩
          | succ n =>
            have := ihn n (Nat.lt_succ_self n) (start l target) (named target ++ xs)
            simpa only [append_assoc] using this

variable {fs' : FileSystem}

theorem walk_congr (h : ∀ l, fs'.linkAt l = fs.linkAt l) (n : Nat) (l : Place)
    (cs : List Text) : fs'.walk n l cs = fs.walk n l cs := by
  induction n using Nat.strong_induction_on generalizing l cs with
  | _ n ihn =>
    induction cs generalizing l with
    | nil => rw [walk_nil, walk_nil]
    | cons c cs ih =>
      rw [walk_cons, walk_cons, h]
      by_cases hc : c = dotdot
      · rw [if_pos hc, if_pos hc, ih]
      · rw [if_neg hc, if_neg hc]
        cases fs.linkAt (l ++ [c]) with
        | none => exact ih (l ++ [c])
        | some target =>
          cases n with
          | zero => rfl
          | succ n => exact ihn n (Nat.lt_succ_self n) _ _

variable (fs) in
def Clear : Place → List Text → Prop
  | _, [] => True
  | l, c :: cs => c ≠ dotdot ∧ fs.linkAt (l ++ [c]) = none ∧ Clear (l ++ [c]) cs

variable {l : Place}

theorem clear_append {xs ys : List Text} :
    fs.Clear l (xs ++ ys) ↔ fs.Clear l xs ∧ fs.Clear (l ++ xs) ys := by
  induction xs generalizing l with
  | nil => simp [Clear]
  | cons c xs ih => simp [Clear, ih, and_assoc]

variable {cs : List Text}

theorem Clear.walk (h : fs.Clear l cs) (n : Nat) : fs.walk n l cs = some (l ++ cs) := by
  induction cs generalizing l with
  | nil => simp
  | cons c cs ih =>
    obtain ⟨hc, hlink, hrest⟩ := h
    rw [walk_cons, if_neg hc, hlink]
    simpa using ih hrest

theorem Clear.congr (h : ∀ l, fs'.linkAt l = fs.linkAt l) (hclear : fs.Clear l cs) :
    fs'.Clear l cs := by
  induction cs generalizing l with
  | nil => trivial
  | cons c cs ih => exact ⟨hclear.1, (h _).trans hclear.2.1, ih hclear.2.2⟩

variable (fs) in
def Within (dir p : Text) : Prop :=
  ∀ l, fs.resolve p = some l → ∃ b, fs.resolve dir = some b ∧ b <+: l

instance (dir p : Text) : Decidable (fs.Within dir p) :=
  inferInstanceAs (Decidable (∀ l ∈ fs.resolve p, ∃ b ∈ fs.resolve dir, b <+: l))

structure GoesOn (dir : Text) (cs : List Text) (p : Text) : Prop where
  absolute : isAbsolute p = isAbsolute dir
  names : named p = named dir ++ cs

theorem GoesOn.start {dir p : Text} (h : GoesOn dir cs p) (l : Place) :
    start l p = start l dir := by
  simp [FileSystem.start, h.absolute]

theorem GoesOn.resolve {dir p : Text} {cs : List Text} (h : GoesOn dir cs p) :
    (fs.resolve dir = none ∧ fs.resolve p = none) ∨
      ∃ b m, fs.resolve dir = some b ∧ fs.resolve p = fs.walk m b cs := by
  unfold FileSystem.resolve
  rw [h.start, h.names]
  rcases walk_append maxLinks (FileSystem.start fs.cwd dir) (named dir) with
    ⟨hnone, hall⟩ | ⟨b, m, hsome, hall⟩
  · exact .inl ⟨hnone, hall cs⟩
  · exact .inr ⟨b, m, hsome, hall cs⟩

theorem GoesOn.within {dir p : Text} (h : GoesOn dir cs p)
    (hclear : ∀ b, fs.resolve dir = some b → fs.Clear b cs) : fs.Within dir p := by
  intro l hl
  rcases @GoesOn.resolve fs _ _ _ h with ⟨-, hnone⟩ | ⟨b, m, hdir, hp⟩
  · rw [hnone] at hl
    cases hl
  · rw [hp, (hclear b hdir).walk m] at hl
    cases hl
    exact ⟨b, hdir, prefix_append b cs⟩

theorem GoesOn.entry {dir p c : Text} (h : GoesOn dir (cs ++ [c]) p)
    (hlast : (pieces p).getLast? = some c) (hproper : proper c) (hup : c ≠ dotdot) {b : Place}
    (hdir : fs.resolve dir = some b) (hclear : fs.Clear b cs) :
    fs.entry p = some (b ++ cs ++ [c]) := by
  have hnames : (named p).dropLast = named dir ++ cs := by
    rw [h.names, ← append_assoc, dropLast_concat]
  unfold FileSystem.entry
  rw [hlast]
  simp only [hproper, hup, ne_eq, not_false_eq_true, and_self, if_true]
  rw [hnames, h.start]
  rcases walk_append maxLinks (FileSystem.start fs.cwd dir) (named dir) with
    ⟨hnone, -⟩ | ⟨b', m, hsome, hall⟩
  · unfold FileSystem.resolve at hdir
    rw [hnone] at hdir
    cases hdir
  · obtain rfl : b' = b := Option.some.inj (hsome.symm.trans hdir)
    rw [hall, hclear.walk m]
    rfl

variable (fs) in
structure SameLinks (fs' : FileSystem) : Prop where
  cwd : fs'.cwd = fs.cwd
  links : ∀ l, fs'.linkAt l = fs.linkAt l

theorem SameLinks.refl : fs.SameLinks fs := ⟨rfl, fun _ => rfl⟩

theorem SameLinks.symm (h : fs.SameLinks fs') : fs'.SameLinks fs :=
  ⟨h.cwd.symm, fun l => (h.links l).symm⟩

theorem SameLinks.trans {fs' fs'' : FileSystem} (h : fs.SameLinks fs') (h' : fs'.SameLinks fs'') :
    fs.SameLinks fs'' :=
  ⟨h'.cwd.trans h.cwd, fun l => (h'.links l).trans (h.links l)⟩

theorem SameLinks.resolve {fs' : FileSystem} (h : fs.SameLinks fs') (p : Text) :
    fs'.resolve p = fs.resolve p := by
  unfold FileSystem.resolve
  rw [h.cwd, walk_congr h.links]

theorem SameLinks.entry (h : fs.SameLinks fs') (p : Text) : fs'.entry p = fs.entry p := by
  unfold FileSystem.entry
  simp only [h.cwd, walk_congr h.links]

theorem linkAt_eq_none (h : fs.node l = none ∨ fs.node l = some .file) : fs.linkAt l = none := by
  rcases h with h | h <;> simp [linkAt, h]

theorem sameLinks_put {n : Option Node} (hbefore : fs.linkAt l = none)
    (hafter : ∀ target, n ≠ some (.link target)) : fs.SameLinks (fs.put l n) := by
  refine ⟨rfl, fun q => ?_⟩
  by_cases hq : q = l
  · subst hq
    rw [hbefore]
    cases n with
    | none => simp [linkAt, put]
    | some node =>
      cases node with
      | link target => exact absurd rfl (hafter target)
      | _ => simp [linkAt, put]
  · simp [linkAt, put, Function.update_of_ne hq]

variable {p : Text}

theorem sameLinks_createDir (h : fs.createDir p = some fs') : fs.SameLinks fs' := by
  obtain ⟨l, -, h⟩ := Option.bind_eq_some_iff.mp h
  split at h
  · rename_i hnode
    cases h
    exact sameLinks_put (linkAt_eq_none (.inl hnode)) nofun
  · cases h

theorem sameLinks_createFile (h : fs.createFile p = some fs') : fs.SameLinks fs' := by
  obtain ⟨l, -, h⟩ := Option.bind_eq_some_iff.mp h
  split at h
  · rename_i hnode
    cases h
    exact sameLinks_put (linkAt_eq_none (.inl hnode)) nofun
  · rename_i hnode
    cases h
    exact sameLinks_put (linkAt_eq_none (.inr hnode)) nofun
  · cases h

variable (fs) in
def Regular (p : Text) : Prop :=
  ∀ l, fs.entry p = some l → fs.node l = none ∨ fs.node l = some .file

variable (fs) in
def NoLink (p : Text) : Prop := ∀ l, fs.entry p = some l → fs.linkAt l = none

theorem Regular.noLink (h : fs.Regular p) : fs.NoLink p :=
  fun l hl => linkAt_eq_none (h l hl)

theorem SameLinks.noLink (h : fs.SameLinks fs') (hp : fs.NoLink p) : fs'.NoLink p := by
  intro l hl
  rw [h.entry] at hl
  exact (h.links l).trans (hp l hl)

theorem NoLink.removeFile (hp : fs.NoLink p) (h : fs.removeFile p = some fs') :
    fs.SameLinks fs' ∧ ∀ q, fs.Regular q → fs'.Regular q := by
  obtain ⟨l, hl, h⟩ := Option.bind_eq_some_iff.mp h
  have hsame : fs.SameLinks (fs.put l none) := sameLinks_put (hp l hl) nofun
  have hput : fs' = fs.put l none := by
    split at h
    · exact (Option.some.inj h).symm
    · exact (Option.some.inj h).symm
    · cases h
  rw [hput]
  refine ⟨hsame, fun q hq l' hl' => ?_⟩
  rw [hsame.entry] at hl'
  by_cases heq : l' = l
  · subst heq
    exact .inl (by simp [put])
  · simpa [put, Function.update_of_ne heq] using hq l' hl'

theorem Regular.rename {src dst : Text} (hsrc : fs.Regular src)
    (hdst : fs.NoLink dst) (h : fs.rename src dst = some fs') : fs.SameLinks fs' := by
  obtain ⟨a, ha, h⟩ := Option.bind_eq_some_iff.mp h
  obtain ⟨b, hb, h⟩ := Option.bind_eq_some_iff.mp h
  rcases hsrc a ha with hnode | hnode
  · rw [hnode] at h
    cases h
  · have hmoved : fs.SameLinks ((fs.put a none).put b (some .file)) := by
      have hfirst : fs.SameLinks (fs.put a none) :=
        sameLinks_put (linkAt_eq_none (.inr hnode)) nofun
      exact hfirst.trans (sameLinks_put ((hfirst.links b).trans (hdst b hb)) nofun)
    rw [hnode] at h
    cases hto : fs.node b with
    | none =>
      rw [hto] at h
      simp only at h
      split at h
      · exact Option.some.inj h ▸ .refl
      · exact Option.some.inj h ▸ hmoved
    | some node =>
      rw [hto] at h
      cases node with
      | dir => cases h
      | file =>
        simp only at h
        split at h
        · exact Option.some.inj h ▸ .refl
        · exact Option.some.inj h ▸ hmoved
      | link target =>
        have := hdst b hb
        simp [FileSystem.linkAt, hto] at this

theorem named_eq_filter (p : Text) : named p = (components p).filter (· ≠ dot) := by
  have hnamed : (named p).filter (· ≠ dot) = named p := by
    rw [filter_eq_self]
    intro c hc
    simpa using (mem_named.mp hc).2.2
  rw [components, filter_append, hnamed, lead]
  split <;> simp

variable {name : Text}

theorem named_join (dir : Text) (h : isAbsolute name = false) :
    GoesOn dir (named name) (join dir name) := by
  obtain ⟨habs, rest, hjoin, hrest, -⟩ := join_spec dir h
  refine ⟨habs, ?_⟩
  by_cases hdir : dir = []
  · subst hdir
    rw [join, if_neg (by simp [h]), if_pos (Or.inl rfl), nil_append]
    rfl
  · by_cases hsep : dir.getLast? = some '/'
    · obtain ⟨front, rfl⟩ := List.getLast?_eq_some_iff.mp hsep
      rw [join, if_neg (by simp [h]), if_pos (Or.inr hsep), append_assoc]
      change named (front ++ '/' :: name) = named (front ++ '/' :: []) ++ named name
      rw [named_append_sep, named_append_sep]
      simp [named, pieces, proper]
    · rw [join, if_neg (by simp [h]), if_neg (by simp [hdir, hsep]), named_append_sep]

theorem onTheWay_or_goesOn (dir : Text) (h : isAbsolute name = false)
    (hcs : cs <+: components (join dir name)) :
    cs <+: components dir ∨ ∃ ds, ds <+: named name ∧
      GoesOn dir ds (render (isAbsolute dir) cs) := by
  obtain ⟨habs, rest, hjoin, hrest, -⟩ := join_spec dir h
  rw [hjoin] at hcs
  have hnamed : rest.filter (· ≠ dot) = named name := by
    have hnames := (named_join dir h).names
    rw [named_eq_filter, hjoin, filter_append, ← named_eq_filter] at hnames
    exact append_cancel_left hnames
  have hformed : Formed (isAbsolute dir) cs := by
    rw [← habs]
    exact (formed_components (join dir name)).front (hjoin ▸ hcs)
  rcases prefix_or_prefix_of_prefix hcs (prefix_append (components dir) rest) with
    hshort | ⟨ds, rfl⟩
  · exact .inl hshort
  · refine .inr ⟨ds.filter (· ≠ dot), ?_, ?_⟩
    · rw [← hnamed]
      exact ((prefix_append_right_inj _).mp hcs).filter _
    · obtain ⟨hcomp, hsame⟩ := components_render hformed
      refine ⟨hsame, ?_⟩
      rw [named_eq_filter, hcomp, filter_append, ← named_eq_filter]

theorem getLast?_pieces_join (dir : Text) (h : isAbsolute name = false) :
    (pieces (join dir name)).getLast? = (pieces name).getLast? := by
  have hsep : ∀ front, (pieces (front ++ '/' :: name)).getLast? = (pieces name).getLast? :=
    fun front => by
      rw [pieces_append_sep, List.getLast?_append_of_ne_nil _ (pieces_ne_nil name)]
  rw [join, if_neg (by simp [h])]
  by_cases hdir : dir = []
  · rw [if_pos (Or.inl hdir), hdir, nil_append]
  by_cases hlast : dir.getLast? = some '/'
  · obtain ⟨front, rfl⟩ := List.getLast?_eq_some_iff.mp hlast
    rw [if_pos (Or.inr hlast), append_assoc]
    exact hsep front
  · rw [if_neg (by simp [hdir, hlast])]
    exact hsep dir

theorem goesOn_append (dir : Text) {name s : Text} (h : isAbsolute name = false) (hs : '/' ∉ s)
    (hlen : 2 < s.length) :
    ∃ front tail last, named name = front ++ tail ∧
      GoesOn dir (front ++ [last ++ s]) (join dir name ++ s) ∧
      (pieces (join dir name ++ s)).getLast? = some (last ++ s) ∧ proper (last ++ s) ∧
      last ++ s ≠ dotdot := by
  obtain ⟨front, last, hname, happ⟩ := pieces_append name
  have hlong : ∀ d : Text, d.length ≤ 2 → last ++ s ≠ d := by
    rintro d hd heq
    have := congrArg List.length heq
    rw [length_append] at this
    omega
  have hproper : proper (last ++ s) := by
    simp only [proper, bne_iff_ne, ne_eq, Bool.and_eq_true]
    exact ⟨hlong [] (by decide), hlong dot (by decide)⟩
  have habs : isAbsolute (name ++ s) = false := by
    by_cases hnil : name = []
    · rw [hnil]
      exact isAbsolute_of_notMem hs
    · rw [isAbsolute_append s hnil, h]
  refine ⟨front.filter proper, [last].filter proper, last, ?_, ?_, ?_, hproper,
    hlong dotdot (by decide)⟩
  · rw [named, hname, filter_append]
  · rw [join_append dir h hs]
    have hnamed : named (name ++ s) = front.filter proper ++ [last ++ s] := by
      rw [named, happ s hs, filter_append]
      simp [hproper]
    exact hnamed ▸ named_join dir habs
  · rw [join_append dir h hs, getLast?_pieces_join dir habs, happ s hs, List.getLast?_concat]

theorem noLink_join {dir name : Text} (h : isAbsolute name = false)
    (hclear : ∀ b, fs.resolve dir = some b → fs.Clear b (named name)) :
    fs.NoLink (join dir name) := by
  intro l hl
  have hgoes := named_join dir h
  obtain ⟨front, last, hname, -⟩ := pieces_append name
  have hlast : (pieces (join dir name)).getLast? = some last := by
    rw [getLast?_pieces_join dir h, hname, List.getLast?_concat]
  by_cases hproper : proper last ∧ last ≠ dotdot
  · have hnamed : named name = front.filter proper ++ [last] := by
      rw [named, hname, filter_append]
      simp [hproper.1]
    rw [hnamed] at hgoes hclear
    cases hdir : fs.resolve dir with
    | some b =>
      obtain ⟨hfront, -, hlink, -⟩ := clear_append.mp (hclear b hdir)
      rw [hgoes.entry hlast hproper.1 hproper.2 hdir hfront] at hl
      exact Option.some.inj hl ▸ hlink
    | none =>
      unfold FileSystem.entry at hl
      rw [hlast] at hl
      simp only [hproper, ne_eq, not_false_eq_true, and_self, if_true] at hl
      rw [hgoes.names, ← append_assoc, dropLast_concat, hgoes.start] at hl
      rcases @walk_append fs maxLinks (FileSystem.start fs.cwd dir) (named dir) with
        ⟨-, hall⟩ | ⟨b, m, hsome, -⟩
      · rw [hall] at hl
        cases hl
      · exact absurd (hsome.symm.trans hdir) (Option.some_ne_none _)
  · unfold FileSystem.entry at hl
    rw [hlast] at hl
    simp [hproper] at hl

end FileSystem
end UnixPath
