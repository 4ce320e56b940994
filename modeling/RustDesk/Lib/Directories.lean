import RustDesk.Lib.Symlink

/-!
# Directories that come and go

`FileSystem.reach` follows a path as the system does: every place that it goes on from has
to be a directory.  So a path through a directory or a link that is removed leads nowhere
afterwards.

A directory lists its entries in some order, `names`, over all names that may be there.
What is in a tree is `Listed`, and only in directories.

`ClearedOn P` says that a tree was cleared where `P` holds: links and directories without a
regular file anywhere below are gone, and all else is as it was.
-/

namespace UnixPath

open List

structure Valid (c : Text) : Prop where
  noSep : '/' ∉ c
  isProper : proper c = true
  notUp : c ≠ dotdot

theorem Valid.named {c : Text} (h : Valid c) : UnixPath.named c = [c] :=
  (components_of_notMem h.noSep h.isProper).2

theorem Valid.ne_nil {c : Text} (h : Valid c) : c ≠ [] := by
  rintro rfl
  exact absurd h.isProper (by decide)

namespace FileSystem

variable (fs : FileSystem)

def DirAt (l : Place) : Prop := l = [] ∨ fs.node l = some .dir

instance (l : Place) : Decidable (fs.DirAt l) := inferInstanceAs (Decidable (_ ∨ _))

/-- The way along some names up to the first link, and from there as `follow` says. -/
def reachWith (follow : Place → List Text → Option Place) : Place → List Text → Option Place
  | l, [] => some l
  | l, c :: cs =>
    if ¬fs.DirAt l then none
    else if c = dotdot then reachWith follow l.dropLast cs
    else
      match fs.linkAt (l ++ [c]) with
      | some target => follow (start l target) (named target ++ cs)
      | none => reachWith follow (l ++ [c]) cs

def reach : Nat → Place → List Text → Option Place
  | 0 => fs.reachWith fun _ _ => none
  | n + 1 => fs.reachWith (reach n)

def find (p : Text) : Option Place :=
  if p = [] then none else fs.reach maxLinks (start fs.cwd p) (named p)

def parentAt (p : Text) : Option Place :=
  match fs.reach maxLinks (start fs.cwd p) (named p).dropLast with
  | some l => if fs.DirAt l then some l else none
  | none => none

def entryAt (p : Text) : Option Place :=
  match (pieces p).getLast? with
  | some c => if proper c = true ∧ c ≠ dotdot then (fs.parentAt p).map (· ++ [c]) else none
  | none => none

def dirEntryAt (p : Text) : Option Place :=
  match ((pieces p).filter (· ≠ [])).getLast? with
  | some c => if proper c = true ∧ c ≠ dotdot then (fs.parentAt p).map (· ++ [c]) else none
  | none => none

/-- `stat`, which follows links, as far as it asks for a directory. -/
def statDir (p : Text) : Bool :=
  match fs.find p with
  | some l => fs.DirAt l
  | none => false

def lstat (p : Text) : Option Node := (fs.entryAt p).bind fs.node

def unlink (p : Text) : Option FileSystem :=
  match fs.entryAt p with
  | some l => match fs.node l with
    | some .file | some (.link _) => some (fs.put l none)
    | _ => none
  | none => none

section Listing

variable (names : Place → List Text)

def listing (l : Place) : List Text := (names l).filter fun c => (fs.node (l ++ [c])).isSome

/-- `opendir` and `readdir`. -/
def list (p : Text) : Option (List Text) :=
  match fs.find p with
  | some l => if fs.DirAt l then some (fs.listing names l) else none
  | none => none

def rmdir (p : Text) : Option FileSystem :=
  match fs.dirEntryAt p with
  | some l => if fs.node l = some .dir ∧ fs.listing names l = [] then some (fs.put l none) else none
  | none => none

structure Listed : Prop where
  complete : ∀ l c, fs.node (l ++ [c]) ≠ none → c ∈ names l
  nodup : ∀ l, (names l).Nodup
  valid : ∀ l, ∀ c ∈ names l, Valid c
  parent : ∀ l c, fs.node (l ++ [c]) ≠ none → fs.DirAt l

end Listing

structure SameOutside (root : Place) (fs' : FileSystem) : Prop where
  cwd : fs'.cwd = fs.cwd
  node : ∀ l, ¬(root <+: l ∧ l ≠ root) → fs'.node l = fs.node l

def LeadsTo (p : Text) (root : Place) : Prop :=
  ∀ fs', fs.SameOutside root fs' → fs'.find p = some root ∧ fs'.dirEntryAt p = some root

def Doomed (l : Place) : Prop :=
  (∃ target, fs.node l = some (.link target)) ∨
    fs.node l = some .dir ∧ ∀ q, l <+: q → fs.node q ≠ some .file

/-- Where `P` holds, what is to go is gone; all else is as it was. -/
structure ClearedOn (P : Place → Prop) (fs' : FileSystem) : Prop where
  cwd : fs'.cwd = fs.cwd
  gone : ∀ l, P l → fs.Doomed l → fs'.node l = none
  kept : ∀ l, ¬(P l ∧ fs.Doomed l) → fs'.node l = fs.node l

variable {fs}

@[simp] theorem reach_nil (n : Nat) (l : Place) : fs.reach n l [] = some l := by
  cases n <;> rfl

theorem reach_cons (n : Nat) (l : Place) (c : Text) (cs : List Text) :
    fs.reach n l (c :: cs) =
      if ¬fs.DirAt l then none
      else if c = dotdot then fs.reach n l.dropLast cs
      else
        match fs.linkAt (l ++ [c]), n with
        | some _, 0 => none
        | some target, n + 1 => fs.reach n (start l target) (named target ++ cs)
        | none, n => fs.reach n (l ++ [c]) cs := by
  cases n <;> simp only [reach, reachWith] <;> split <;> try rfl
  all_goals split <;> try rfl
  all_goals cases fs.linkAt (l ++ [c]) <;> rfl

theorem reach_append (n : Nat) (l : Place) (xs : List Text) :
    (fs.reach n l xs = none ∧ ∀ ys, fs.reach n l (xs ++ ys) = none) ∨
      ∃ b m, fs.reach n l xs = some b ∧ ∀ ys, fs.reach n l (xs ++ ys) = fs.reach m b ys := by
  induction n using Nat.strong_induction_on generalizing l xs with
  | _ n ihn =>
    induction xs generalizing l with
    | nil => exact .inr ⟨l, n, reach_nil n l, fun _ => rfl⟩
    | cons c xs ih =>
      by_cases hdir : fs.DirAt l
      · by_cases hc : c = dotdot
        · simpa only [cons_append, reach_cons, not_not.mpr hdir, if_false, if_pos hc]
            using ih l.dropLast
        · simp only [cons_append, reach_cons, not_not.mpr hdir, if_false, if_neg hc]
          cases fs.linkAt (l ++ [c]) with
          | none => exact ih (l ++ [c])
          | some target =>
            cases n with
            | zero => exact .inl ⟨rfl, fun _ => rfl⟩
            | succ n =>
              have := ihn n (Nat.lt_succ_self n) (start l target) (named target ++ xs)
              simpa only [append_assoc] using this
      · refine .inl ⟨?_, fun ys => ?_⟩
        · rw [reach_cons, if_pos hdir]
        · rw [cons_append, reach_cons, if_pos hdir]

theorem reach_concat {n : Nat} {l b : Place} {xs : List Text} {c : Text}
    (h : fs.reach n l xs = some b) (hdir : fs.DirAt b) (hup : c ≠ dotdot)
    (hlink : fs.linkAt (b ++ [c]) = none) : fs.reach n l (xs ++ [c]) = some (b ++ [c]) := by
  rcases fs.reach_append n l xs with ⟨hnone, -⟩ | ⟨b', m, hsome, hall⟩
  · exact absurd (hnone.symm.trans h) (by simp)
  · obtain rfl : b' = b := Option.some.inj (hsome.symm.trans h)
    rw [hall, reach_cons, if_neg (not_not.mpr hdir), if_neg hup, hlink]
    exact reach_nil m _

section Child

variable {p c : Text} {l : Place}

theorem find_ne_nil (h : fs.find p = some l) : p ≠ [] := by
  rintro rfl
  cases h

theorem child_path (hp : p ≠ []) (hc : Valid c) :
    join p c ≠ [] ∧ isAbsolute (join p c) = isAbsolute p ∧
      named (join p c) = named p ++ [c] ∧ (pieces (join p c)).getLast? = some c := by
  have hrel := isAbsolute_of_notMem hc.noSep
  obtain ⟨habs, hnames⟩ := named_join p hrel
  rw [hc.named] at hnames
  refine ⟨?_, habs, hnames, ?_⟩
  · rw [join, if_neg (by simp [hrel])]
    split_ifs
    · exact append_ne_nil_of_left_ne_nil hp c
    · exact append_ne_nil_of_left_ne_nil hp _
  · rw [getLast?_pieces_join p hrel, pieces_of_notMem hc.noSep]
    rfl

theorem parentAt_child (h : fs.find p = some l) (hdir : fs.DirAt l) (hc : Valid c) :
    fs.parentAt (join p c) = some l := by
  have hp := find_ne_nil h
  obtain ⟨-, habs, hnames, -⟩ := child_path hp hc
  rw [find, if_neg hp] at h
  rw [parentAt, hnames, dropLast_concat, start, habs, ← start, h]
  exact if_pos hdir

theorem entryAt_child (h : fs.find p = some l) (hdir : fs.DirAt l) (hc : Valid c) :
    fs.entryAt (join p c) = some (l ++ [c]) := by
  obtain ⟨-, -, -, hlast⟩ := child_path (find_ne_nil h) hc
  rw [entryAt, hlast]
  dsimp only
  rw [if_pos ⟨hc.isProper, hc.notUp⟩, parentAt_child h hdir hc]
  rfl

theorem dirEntryAt_child (h : fs.find p = some l) (hdir : fs.DirAt l) (hc : Valid c) :
    fs.dirEntryAt (join p c) = some (l ++ [c]) := by
  obtain ⟨-, -, -, hlast⟩ := child_path (find_ne_nil h) hc
  obtain ⟨front, hfront⟩ := List.getLast?_eq_some_iff.mp hlast
  have hfilter : ((pieces (join p c)).filter (· ≠ [])).getLast? = some c := by
    rw [hfront, filter_append, filter_cons_of_pos (by simpa using hc.ne_nil)]
    simp
  rw [dirEntryAt, hfilter]
  dsimp only
  rw [if_pos ⟨hc.isProper, hc.notUp⟩, parentAt_child h hdir hc]
  rfl

theorem find_child (h : fs.find p = some l) (hdir : fs.DirAt l) (hc : Valid c)
    (hlink : fs.linkAt (l ++ [c]) = none) : fs.find (join p c) = some (l ++ [c]) := by
  have hp := find_ne_nil h
  obtain ⟨hne, habs, hnames, -⟩ := child_path hp hc
  rw [find, if_neg hp] at h
  rw [find, if_neg hne, hnames, start, habs, ← start]
  exact reach_concat h hdir hc.notUp hlink

end Child

section Trees

variable {names : Place → List Text} {l q : Place} {c : Text}

theorem dirAt_of_node (h : fs.node l = some .dir) : fs.DirAt l := .inr h

theorem child_of_below (h : l <+: q) (hne : q ≠ l) : ∃ c, l ++ [c] <+: q := by
  obtain ⟨rest, rfl⟩ := h
  cases rest with
  | nil => exact absurd (append_nil l) hne
  | cons c rest => exact ⟨c, rest, by rw [append_assoc, singleton_append]⟩

theorem child_unique {c d : Text} (hc : l ++ [c] <+: q) (hd : l ++ [d] <+: q) : c = d := by
  rcases prefix_or_prefix_of_prefix hc hd with h | h
  · exact (List.cons.inj ((prefix_append_right_inj l).mp h |>.eq_of_length rfl)).1
  · exact (List.cons.inj ((prefix_append_right_inj l).mp h |>.eq_of_length rfl)).1.symm

theorem prefix_of_child {l q : Place} {c : Text} (h : l ++ [c] <+: q) : l <+: q ∧ q ≠ l := by
  refine ⟨(prefix_append l [c]).trans h, ?_⟩
  rintro rfl
  have := h.length_le
  rw [length_append, length_singleton] at this
  omega

theorem Listed.dirAt_of_below (hl : fs.Listed names) (h : l <+: q) (hne : q ≠ l)
    (hq : fs.node q ≠ none) : fs.DirAt l := by
  obtain ⟨rest, rfl⟩ := h
  induction rest using List.reverseRecOn with
  | nil => exact absurd (append_nil l) hne
  | append_singleton rest c ih =>
    rw [← append_assoc] at hq
    have hparent := hl.parent _ c hq
    by_cases hrest : rest = []
    · rwa [hrest, append_nil] at hparent
    · rcases hparent with hroot | hdir
      · exact absurd (append_eq_nil_iff.mp hroot).2 hrest
      · exact ih (by simpa using hrest) (by rw [hdir]; simp)

theorem Listed.node_below (hl : fs.Listed names) (hdir : ¬fs.DirAt l) (h : l <+: q)
    (hne : q ≠ l) : fs.node q = none := by
  by_contra hq
  exact hdir (hl.dirAt_of_below h hne hq)

theorem Listed.mem_listing (hl : fs.Listed names) :
    c ∈ fs.listing names l ↔ fs.node (l ++ [c]) ≠ none := by
  rw [listing, mem_filter, Option.isSome_iff_ne_none]
  exact and_iff_right_of_imp (hl.complete l c)

theorem Listed.child_of_below (hl : fs.Listed names) (h : l <+: q) (hne : q ≠ l)
    (hq : fs.node q ≠ none) : ∃ c ∈ fs.listing names l, l ++ [c] <+: q := by
  obtain ⟨c, hc⟩ := FileSystem.child_of_below h hne
  refine ⟨c, hl.mem_listing.mpr ?_, hc⟩
  by_cases heq : q = l ++ [c]
  · rwa [← heq]
  · rcases hl.dirAt_of_below hc heq hq with hroot | hdir
    · simp at hroot
    · rw [hdir]
      simp

variable {fs' fs'' : FileSystem} {P Q : Place → Prop}

theorem Doomed.congr (h : ∀ q, l <+: q → fs'.node q = fs.node q) : fs'.Doomed l ↔ fs.Doomed l := by
  unfold Doomed
  rw [h l (prefix_refl l)]
  refine or_congr_right (and_congr_right fun _ => forall₂_congr fun q hq => ?_)
  rw [h q hq]

theorem not_doomed_none (h : fs.node l = none) : ¬fs.Doomed l := by
  simp [Doomed, h]

theorem not_doomed_file (h : fs.node l = some .file) : ¬fs.Doomed l := by
  simp [Doomed, h]

theorem Doomed.below (h : fs.Doomed l) (hdir : fs.node l = some .dir) (hq : l <+: q)
    (hnode : fs.node q ≠ none) : fs.Doomed q := by
  rcases h with ⟨target, hlink⟩ | ⟨-, hnone⟩
  · rw [hdir] at hlink
    cases hlink
  · cases hn : fs.node q with
    | none => exact absurd hn hnode
    | some n =>
      cases n with
      | file => exact absurd hn (hnone q hq)
      | dir => exact .inr ⟨hn, fun r hr => hnone r (hq.trans hr)⟩
      | link target => exact .inl ⟨target, hn⟩

theorem ClearedOn.node_eq (h : fs.ClearedOn P fs') (hl : fs'.node l ≠ none) :
    fs'.node l = fs.node l :=
  h.kept l fun hdoomed => hl (h.gone l hdoomed.1 hdoomed.2)

theorem ClearedOn.listed (h : fs.ClearedOn P fs') (hP : ∀ l q, P l → l <+: q → P q)
    (hl : fs.Listed names) : fs'.Listed names := by
  have hbefore {l : Place} (hl : fs'.node l ≠ none) : fs.node l ≠ none := by
    rwa [← h.node_eq hl]
  refine ⟨fun l c hc => hl.complete l c (hbefore hc), hl.nodup, hl.valid, fun l c hc => ?_⟩
  rcases hl.parent l c (hbefore hc) with hroot | hdir
  · exact .inl hroot
  · refine .inr ((h.kept l ?_).trans hdir)
    rintro ⟨hPl, hdoomed⟩
    have hunder : l <+: l ++ [c] := prefix_append l [c]
    exact hc (h.gone _ (hP l _ hPl hunder) (hdoomed.below hdir hunder (hbefore hc)))

theorem ClearedOn.trans (h : fs.ClearedOn P fs') (h' : fs'.ClearedOn Q fs'')
    (hdisjoint : ∀ l q, Q l → l <+: q → ¬P q) : fs.ClearedOn (fun l => P l ∨ Q l) fs'' := by
  have hsame {l : Place} (hQ : Q l) : fs'.Doomed l ↔ fs.Doomed l :=
    Doomed.congr fun q hq => h.kept q fun hP => hdisjoint l q hQ hq hP.1
  refine ⟨h'.cwd.trans h.cwd, ?_, fun l hnot => ?_⟩
  · rintro l (hP | hQ) hdoomed
    · have hgone := h.gone l hP hdoomed
      rw [h'.kept l fun hQ => not_doomed_none hgone hQ.2, hgone]
    · exact h'.gone l hQ ((hsame hQ).mpr hdoomed)
  · rw [h'.kept l fun hQ => hnot ⟨.inr hQ.1, (hsame hQ.1).mp hQ.2⟩,
      h.kept l fun hP => hnot ⟨.inl hP.1, hP.2⟩]

theorem ClearedOn.congr (h : fs.ClearedOn P fs') (hPQ : ∀ l, P l ↔ Q l) : fs.ClearedOn Q fs' :=
  ⟨h.cwd, fun l hQ => h.gone l ((hPQ l).mpr hQ),
    fun l hnot => h.kept l fun hP => hnot ⟨(hPQ l).mp hP.1, hP.2⟩⟩

theorem clearedOn_link {target : Text} (hl : fs.Listed names)
    (hlink : fs.node l = some (.link target)) (hne : l ≠ []) :
    fs.ClearedOn (l <+: ·) (fs.put l none) := by
  have hdir : ¬fs.DirAt l := by
    rintro (hroot | hdir)
    · exact hne hroot
    · rw [hlink] at hdir
      cases hdir
  refine ⟨rfl, fun q hq hdoomed => ?_, fun q hnot => ?_⟩
  · by_cases hql : q = l
    · rw [hql]
      exact Function.update_self ..
    · exact absurd hdoomed (not_doomed_none (hl.node_below hdir hq hql))
  · have hql : q ≠ l := by
      rintro rfl
      exact hnot ⟨prefix_refl q, .inl ⟨target, hlink⟩⟩
    exact Function.update_of_ne hql ..

theorem clearedOn_file (hl : fs.Listed names) (hfile : fs.node l = some .file) (hne : l ≠ []) :
    fs.ClearedOn (l <+: ·) fs := by
  have hdir : ¬fs.DirAt l := by
    rintro (hroot | hdir)
    · exact hne hroot
    · rw [hfile] at hdir
      cases hdir
  refine ⟨rfl, fun q hq hdoomed => ?_, fun _ _ => rfl⟩
  by_cases hql : q = l
  · exact absurd hdoomed (not_doomed_file (hql ▸ hfile))
  · exact absurd hdoomed (not_doomed_none (hl.node_below hdir hq hql))

/-- **A directory whose children are cleared** is to go exactly if it is empty now; when it is
removed then, it is cleared itself. -/
theorem ClearedOn.dir (hl : fs.Listed names) (hdir : fs.node l = some .dir)
    (h : fs.ClearedOn (fun q => ∃ c ∈ fs.listing names l, l ++ [c] <+: q) fs') :
    fs.ClearedOn (l <+: ·) (if fs'.listing names l = [] then fs'.put l none else fs') := by
  have hup (r q : Place) (hr : ∃ c ∈ fs.listing names l, l ++ [c] <+: r) (hrq : r <+: q) :
      ∃ c ∈ fs.listing names l, l ++ [c] <+: q := by
    obtain ⟨c, hc, hcr⟩ := hr
    exact ⟨c, hc, hcr.trans hrq⟩
  have hl' := h.listed hup hl
  have hself : ¬∃ c ∈ fs.listing names l, l ++ [c] <+: l :=
    fun ⟨c, _, hc⟩ => (prefix_of_child hc).2 rfl
  -- an entry that is left is a regular file, or one is below it
  have hempty : fs'.listing names l = [] ↔ fs.Doomed l := by
    constructor
    · intro hnil
      refine .inr ⟨hdir, fun q hq hfile => ?_⟩
      have hql : q ≠ l := by
        rintro rfl
        rw [hdir] at hfile
        cases hfile
      have hkept : fs'.node q ≠ none := by
        rw [h.kept q fun hdoomed => not_doomed_file hfile hdoomed.2, hfile]
        simp
      obtain ⟨c, hc, -⟩ := hl'.child_of_below hq hql hkept
      rw [hnil] at hc
      cases hc
    · intro hdoomed
      by_contra hne
      obtain ⟨c, hc⟩ := exists_mem_of_ne_nil _ hne
      have hnode := hl'.mem_listing.mp hc
      have hbefore : fs.node (l ++ [c]) ≠ none := by rwa [← h.node_eq hnode]
      exact hnode (h.gone _ ⟨c, hl.mem_listing.mpr hbefore, prefix_refl _⟩
        (hdoomed.below hdir (prefix_append l [c]) hbefore))
  have hbelow {q : Place} (hq : l <+: q) (hql : q ≠ l) (hnode : fs.node q ≠ none) :
      ∃ c ∈ fs.listing names l, l ++ [c] <+: q := hl.child_of_below hq hql hnode
  have hgone {q : Place} (hq : l <+: q) (hql : q ≠ l) (hdoomed : fs.Doomed q) : fs'.node q = none :=
    h.gone q (hbelow hq hql fun hnone => not_doomed_none hnone hdoomed) hdoomed
  have hkept {q : Place} (hnot : ¬(l <+: q ∧ fs.Doomed q)) : fs'.node q = fs.node q := by
    refine h.kept q fun hP => hnot ⟨?_, hP.2⟩
    obtain ⟨c, -, hc⟩ := hP.1
    exact (prefix_of_child hc).1
  split_ifs with hnil
  · refine ⟨h.cwd, fun q hq hdoomed => ?_, fun q hnot => ?_⟩
    · by_cases hql : q = l
      · rw [hql]
        exact Function.update_self ..
      · exact (Function.update_of_ne hql ..).trans (hgone hq hql hdoomed)
    · have hql : q ≠ l := by
        rintro rfl
        exact hnot ⟨prefix_refl q, hempty.mp hnil⟩
      exact (Function.update_of_ne hql ..).trans (hkept hnot)
  · refine ⟨h.cwd, fun q hq hdoomed => ?_, fun q hnot => hkept hnot⟩
    refine hgone hq ?_ hdoomed
    rintro rfl
    exact hnil (hempty.mpr hdoomed)

variable {root : Place} {p : Text}

theorem SameOutside.refl : fs.SameOutside root fs := ⟨rfl, fun _ _ => rfl⟩

theorem SameOutside.trans (h : fs.SameOutside root fs') (h' : fs'.SameOutside root fs'') :
    fs.SameOutside root fs'' :=
  ⟨h'.cwd.trans h.cwd, fun l hl => (h'.node l hl).trans (h.node l hl)⟩

theorem ClearedOn.sameOutside (h : fs.ClearedOn P fs') (hP : ∀ l, P l → root <+: l ∧ l ≠ root) :
    fs.SameOutside root fs' :=
  ⟨h.cwd, fun l hl => h.kept l fun hdoomed => hl (hP l hdoomed.1)⟩

theorem LeadsTo.of_sameOutside (h : fs.LeadsTo p root) (hsame : fs.SameOutside root fs') :
    fs'.LeadsTo p root :=
  fun _ hnext => h _ (hsame.trans hnext)

theorem LeadsTo.find (h : fs.LeadsTo p root) : fs.find p = some root := (h fs .refl).1

theorem LeadsTo.dirEntryAt (h : fs.LeadsTo p root) : fs.dirEntryAt p = some root := (h fs .refl).2

theorem LeadsTo.child (h : fs.LeadsTo p root) (hroot : fs.node root = some .dir) (hc : Valid c)
    (hdir : fs.node (root ++ [c]) = some .dir) : fs.LeadsTo (join p c) (root ++ [c]) := by
  intro fs' hsame
  have houtside : fs.SameOutside root fs' := by
    refine ⟨hsame.cwd, fun l hl => hsame.node l ?_⟩
    rintro ⟨hchild, -⟩
    exact hl (prefix_of_child hchild)
  have hfind := (h fs' houtside).1
  have hroot' : fs'.DirAt root :=
    .inr ((hsame.node root fun hchild => (prefix_of_child hchild.1).2 rfl).trans hroot)
  have hnode : fs'.node (root ++ [c]) = some .dir :=
    (hsame.node _ fun hchild => hchild.2 rfl).trans hdir
  have hlink : fs'.linkAt (root ++ [c]) = none := by simp [linkAt, hnode]
  exact ⟨find_child hfind hroot' hc hlink, dirEntryAt_child hfind hroot' hc⟩

end Trees
end FileSystem
end UnixPath
