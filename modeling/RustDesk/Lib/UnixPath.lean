import Mathlib.Data.List.TakeWhile
import RustDesk.Lib.Pieces
import RustDesk.Lib.Text

/-!
# Unix paths as texts

A path is a text; `/` separates its pieces.  Empty pieces and `.` say nothing (a `.` at
the very front of a relative path is kept), so that two texts with the same `components`
and the same `isAbsolute` are the same path.

Operations that take a path apart (`parent`, `withFileName`) give the text of the
components back, with one `/` between two of them.

`Under dir p` is containment by name: `p` goes on from `dir` without a `..`.
-/

namespace UnixPath

open List

def pieces (p : Text) : List Text := p.splitOn '/'

def isAbsolute (p : Text) : Bool := p.head? == some '/'

/-- `.`. -/
def dot : Text := ['.']

/-- `..`. -/
def dotdot : Text := ['.', '.']

def proper (c : Text) : Bool := c != [] && c != dot

def named (p : Text) : List Text := (pieces p).filter proper

/-- The `.` in front of a relative path. -/
def lead (p : Text) : List Text := if (pieces p).head? = some dot then [dot] else []

def components (p : Text) : List Text := lead p ++ named p

def render (abs : Bool) (cs : List Text) : Text :=
  (if abs then ['/'] else []) ++ ['/'].intercalate cs

def join (dir p : Text) : Text :=
  if isAbsolute p then p
  else if dir = [] ∨ dir.getLast? = some '/' then dir ++ p
  else dir ++ '/' :: p

def fileName (p : Text) : Option Text :=
  match (components p).getLast? with
  | some c => if c = dotdot ∨ c = dot then none else some c
  | none => none

def parent (p : Text) : Text := render (isAbsolute p) (components p).dropLast

/-- What stands before and behind the last dot of a name.  A dot in front of everything
else is no such dot. -/
def splitAtDot (name : Text) : Text × Option Text :=
  let after := (name.reverse.takeWhile (· ≠ '.')).reverse
  let before := name.take (name.length - after.length - 1)
  if name = dotdot ∨ after = name ∨ before = [] then (name, none) else (before, some after)

def fileStem (p : Text) : Option Text := (fileName p).map fun name => (splitAtDot name).1

def extension (p : Text) : Option Text := (fileName p).bind fun name => (splitAtDot name).2

def withFileName (p name : Text) : Text :=
  if (fileName p).isSome then join (parent p) name else join p name

def withExtension (p ext : Text) : Text :=
  match fileStem p with
  | some stem => withFileName p (stem ++ '.' :: ext)
  | none => p

structure Under (dir p : Text) : Prop where
  absolute : isAbsolute p = isAbsolute dir
  below : ∃ rest, components p = components dir ++ rest ∧ dotdot ∉ rest

structure Below (dir p : Text) : Prop where
  absolute : isAbsolute p = isAbsolute dir
  below : ∃ rest, rest ≠ [] ∧ components p = components dir ++ rest ∧ dotdot ∉ rest

theorem pieces_ne_nil (p : Text) : pieces p ≠ [] := splitOn_ne_nil '/' p

theorem pieces_cons (c : Char) (p : Text) :
    pieces (c :: p) = if c = '/' then [] :: pieces p else (pieces p).modifyHead (c :: ·) := by
  simp [pieces, splitOn_cons_eq_if_modifyHead]

variable {p : Text}

theorem pieces_of_notMem (h : '/' ∉ p) : pieces p = [p] :=
  splitOn_eq_singleton h

theorem pieces_append_sep (p q : Text) : pieces (p ++ '/' :: q) = pieces p ++ pieces q :=
  splitOn_append_cons_self p q

theorem notMem_of_mem_pieces {p c : Text} (h : c ∈ pieces p) : '/' ∉ c :=
  Pieces.notMem_of_mem_splitOn h

theorem pieces_append (p : Text) :
    ∃ front last, pieces p = front ++ [last] ∧
      ∀ s, '/' ∉ s → pieces (p ++ s) = front ++ [last ++ s] := by
  induction p with
  | nil =>
    refine ⟨[], [], rfl, ?_⟩
    intro s hs
    simpa using pieces_of_notMem hs
  | cons c p ih =>
    obtain ⟨front, last, hp, happ⟩ := ih
    by_cases hc : c = '/'
    · refine ⟨[] :: front, last, by rw [pieces_cons, if_pos hc, hp]; rfl, ?_⟩
      intro s hs
      rw [cons_append, pieces_cons, if_pos hc, happ s hs]
      rfl
    · cases front with
      | nil =>
        refine ⟨[], c :: last, by rw [pieces_cons, if_neg hc, hp]; rfl, ?_⟩
        intro s hs
        rw [cons_append, pieces_cons, if_neg hc, happ s hs]
        rfl
      | cons f front =>
        refine ⟨(c :: f) :: front, last, by rw [pieces_cons, if_neg hc, hp]; rfl, ?_⟩
        intro s hs
        rw [cons_append, pieces_cons, if_neg hc, happ s hs]
        rfl

theorem mem_pieces_iff {c : Char} (h : c ≠ '/') : (∃ q ∈ pieces p, c ∈ q) ↔ c ∈ p := by
  induction p with
  | nil => simp [pieces]
  | cons d p ih =>
    obtain ⟨head, tail, hp⟩ := exists_cons_of_ne_nil (pieces_ne_nil p)
    rw [pieces_cons]
    by_cases hd : d = '/'
    · subst hd
      simp [ih, h]
    · rw [hp] at ih
      simp only [if_neg hd, hp, modifyHead_cons, mem_cons, exists_eq_or_imp, ← ih, or_assoc]

theorem mem_named {p c : Text} : c ∈ named p ↔ c ∈ pieces p ∧ c ≠ [] ∧ c ≠ dot := by
  simp [named, proper]

theorem mem_components {p c : Text} (h : c ∈ components p) : c ≠ [] ∧ '/' ∉ c := by
  rcases mem_append.mp h with h | h
  · obtain rfl : c = dot := by
      simp only [lead] at h
      split at h <;> simp_all
    exact ⟨by decide, by decide⟩
  · obtain ⟨hc, hne, -⟩ := mem_named.mp h
    exact ⟨hne, notMem_of_mem_pieces hc⟩

theorem named_append_sep (p q : Text) : named (p ++ '/' :: q) = named p ++ named q := by
  rw [named, pieces_append_sep, filter_append]
  rfl

theorem named_of_notMem (h : '/' ∉ p) : named p = if proper p then [p] else [] := by
  rw [named, pieces_of_notMem h]
  simp [filter_cons]

theorem named_eq_nil (hdot : '.' ∉ p) (h : named p = []) : ∀ c ∈ p, c = '/' := by
  intro c hc
  by_contra hsep
  obtain ⟨q, hq, hcq⟩ := (mem_pieces_iff hsep).mpr hc
  have hne : q ≠ [] := ne_nil_of_mem hcq
  have hq' : q ≠ dot := by
    rintro rfl
    exact hdot ((mem_pieces_iff (by decide)).mp ⟨dot, hq, by decide⟩)
  have := mem_named.mpr ⟨hq, hne, hq'⟩
  simp [h] at this

theorem lead_append_sep (p q : Text) : lead (p ++ '/' :: q) = lead p := by
  obtain ⟨c, cs, hp⟩ := exists_cons_of_ne_nil (pieces_ne_nil p)
  rw [lead, lead, pieces_append_sep, hp]
  rfl

theorem components_append_sep (p q : Text) :
    components (p ++ '/' :: q) = components p ++ named q := by
  rw [components, named_append_sep, lead_append_sep, components, append_assoc]

theorem isAbsolute_append (q : Text) (h : p ≠ []) : isAbsolute (p ++ q) = isAbsolute p := by
  obtain ⟨c, cs, rfl⟩ := exists_cons_of_ne_nil h
  rfl

theorem join_spec (dir : Text) (h : isAbsolute p = false) :
    isAbsolute (join dir p) = isAbsolute dir ∧
      ∃ rest, components (join dir p) = components dir ++ rest ∧
        (dir ≠ [] → rest = named p) ∧ rest ⊆ components p := by
  have hsub : named p ⊆ components p := subset_append_right _ _
  rw [join, if_neg (by simp [h])]
  by_cases hdir : dir = []
  · subst hdir
    rw [if_pos (Or.inl rfl)]
    exact ⟨h, components p, rfl, fun hne => (hne rfl).elim, List.Subset.refl _⟩
  by_cases hsep : dir.getLast? = some '/'
  · rw [if_pos (Or.inr hsep)]
    obtain ⟨front, rfl⟩ := List.getLast?_eq_some_iff.mp hsep
    refine ⟨isAbsolute_append p hdir, named p, ?_, fun _ => rfl, hsub⟩
    rw [append_assoc]
    change components (front ++ '/' :: p) = components (front ++ '/' :: []) ++ named p
    rw [components_append_sep, components_append_sep]
    have hnil : named [] = [] := rfl
    rw [hnil, append_nil]
  · rw [if_neg (by simp [hdir, hsep])]
    exact ⟨isAbsolute_append _ hdir, named p, components_append_sep dir p, fun _ => rfl, hsub⟩

theorem isAbsolute_of_notMem (h : '/' ∉ p) : isAbsolute p = false := by
  cases p with
  | nil => rfl
  | cons c cs =>
    have hc : c ≠ '/' := fun heq => h (by simp [heq])
    simp [isAbsolute, hc]

variable {name : Text}

theorem components_of_notMem (h : '/' ∉ name) (hp : proper name) :
    components name = [name] ∧ named name = [name] := by
  have hn : named name = [name] := by rw [named_of_notMem h, if_pos hp]
  refine ⟨?_, hn⟩
  have hdot : name ≠ dot := by
    rintro rfl
    simp [proper] at hp
  rw [components, lead, pieces_of_notMem h, hn]
  simp [hdot]

theorem components_join_name (dir : Text) (h : '/' ∉ name) (hp : proper name) :
    components (join dir name) = components dir ++ [name] ∧
      isAbsolute (join dir name) = isAbsolute dir := by
  obtain ⟨hcomp, hnamed⟩ := components_of_notMem h hp
  obtain ⟨habs, rest, hjoin, hrest, -⟩ := join_spec dir (isAbsolute_of_notMem h)
  refine ⟨?_, habs⟩
  by_cases hdir : dir = []
  · subst hdir
    rw [join, if_neg (by simp [isAbsolute_of_notMem h]), if_pos (Or.inl rfl), nil_append, hcomp]
    rfl
  · rw [hjoin, hrest hdir, hnamed]

structure Formed (abs : Bool) (cs : List Text) : Prop where
  each : ∀ c ∈ cs, c ≠ [] ∧ '/' ∉ c
  tail : dot ∉ cs.tail
  head : abs → dot ∉ cs

theorem formed_components (p : Text) : Formed (isAbsolute p) (components p) := by
  have hnamed : dot ∉ named p := by simp [mem_named]
  have hhead : isAbsolute p → lead p = [] := by
    intro habs
    cases p with
    | nil => cases habs
    | cons c cs =>
      obtain rfl : c = '/' := by simpa [isAbsolute] using habs
      rw [lead, pieces_cons, if_pos rfl]
      rfl
  refine ⟨fun c hc => mem_components hc, ?_, ?_⟩
  · rw [components, lead]
    split
    · exact hnamed
    · rw [nil_append]
      exact fun h => hnamed (mem_of_mem_tail h)
  · intro habs
    rw [components, hhead habs]
    exact hnamed

variable {abs : Bool} {cs : List Text}

theorem Formed.dropLast (h : Formed abs cs) : Formed abs cs.dropLast := by
  refine ⟨fun c hc => h.each c (dropLast_subset _ hc), ?_, ?_⟩
  · intro hdot
    rw [tail_dropLast] at hdot
    exact h.tail (dropLast_subset _ hdot)
  · intro habs hdot
    exact h.head habs (dropLast_subset _ hdot)

theorem Formed.front {cs ds : List Text} (h : Formed abs cs) (hds : ds <+: cs) : Formed abs ds := by
  refine ⟨fun c hc => h.each c (hds.subset hc), fun hdot => h.tail ?_,
    fun habs hdot => h.head habs (hds.subset hdot)⟩
  obtain ⟨rest, rfl⟩ := hds
  cases ds with
  | nil => cases hdot
  | cons c ds => exact mem_append_left rest hdot

theorem Formed.filter_proper (h : Formed abs cs) :
    (if cs.head? = some dot then [dot] else []) ++ cs.filter proper = cs := by
  cases cs with
  | nil => rfl
  | cons c cs =>
    have htail : cs.filter proper = cs := by
      rw [filter_eq_self]
      intro d hd
      have hne := (h.each d (mem_cons_of_mem c hd)).1
      have hdot : d ≠ dot := fun heq => h.tail (heq ▸ hd)
      simp [proper, hne, hdot]
    have hc := (h.each c mem_cons_self).1
    by_cases hdot : c = dot
    · subst hdot
      simp [proper, htail]
    · have hproper : proper c := by simp [proper, hdot, hc]
      rw [filter_cons_of_pos hproper, htail]
      simp [hdot]

theorem components_render (h : Formed abs cs) :
    components (render abs cs) = cs ∧ isAbsolute (render abs cs) = abs := by
  have hpieces : cs ≠ [] → pieces (['/'].intercalate cs) = cs :=
    fun hne => splitOn_intercalate '/' (fun c hc => (h.each c hc).2) hne
  have hfilter := h.filter_proper
  cases abs with
  | true =>
    refine ⟨?_, rfl⟩
    have hrender : render true cs = [] ++ '/' :: ['/'].intercalate cs := rfl
    rw [hrender, components_append_sep]
    by_cases hcs : cs = []
    · subst hcs
      rfl
    · have hdot : cs.head? ≠ some dot :=
        fun heq => h.head rfl (mem_of_mem_head? heq)
      rw [named, hpieces hcs]
      rw [if_neg hdot] at hfilter
      exact hfilter
  | false =>
    have hrender : render false cs = ['/'].intercalate cs := rfl
    rw [hrender]
    by_cases hcs : cs = []
    · subst hcs
      exact ⟨rfl, rfl⟩
    · refine ⟨?_, ?_⟩
      · rw [components, named, lead, hpieces hcs]
        exact hfilter
      · obtain ⟨c, rest, rfl⟩ := exists_cons_of_ne_nil hcs
        obtain ⟨hne, hsep⟩ := h.each c mem_cons_self
        obtain ⟨d, ds, rfl⟩ := exists_cons_of_ne_nil hne
        have hd : d ≠ '/' := fun heq => hsep (by simp [heq])
        cases rest <;> simp [isAbsolute, List.intercalate, hd]

theorem components_parent (p : Text) :
    components (parent p) = (components p).dropLast ∧ isAbsolute (parent p) = isAbsolute p :=
  components_render (formed_components p).dropLast

theorem fileName_eq_some {p c : Text} (h : fileName p = some c) :
    (components p).getLast? = some c ∧ c ≠ dotdot ∧ c ≠ dot := by
  rw [fileName] at h
  split at h
  next d hd =>
    split_ifs at h with hc
    cases h
    exact ⟨hd, fun heq => hc (Or.inl heq), fun heq => hc (Or.inr heq)⟩
  next => cases h

theorem components_withFileName {p c name : Text} (h : fileName p = some c) (hsep : '/' ∉ name)
    (hp : proper name) :
    components (withFileName p name) = (components p).dropLast ++ [name] ∧
      isAbsolute (withFileName p name) = isAbsolute p := by
  rw [withFileName, if_pos (by simp [h])]
  obtain ⟨hcomp, habs⟩ := components_join_name (parent p) hsep hp
  rw [hcomp, habs, (components_parent p).1, (components_parent p).2]
  exact ⟨rfl, rfl⟩

theorem takeWhile_ne_dot {before after : Text} (h : '.' ∉ after) :
    ((before ++ '.' :: after).reverse.takeWhile (· ≠ '.')).reverse = after := by
  rw [reverse_append, reverse_cons, append_assoc, takeWhile_append_of_pos]
  · simp
  · intro c hc
    have : c ≠ '.' := fun heq => h (by simpa [heq] using hc)
    simpa using this

theorem splitAtDot_append {before after : Text} (h : '.' ∉ after) (hbefore : before ≠ [])
    (hname : before ++ '.' :: after ≠ dotdot) :
    splitAtDot (before ++ '.' :: after) = (before, some after) := by
  have htake : (before ++ '.' :: after).take
      ((before ++ '.' :: after).length - after.length - 1) = before := by
    rw [length_append, length_cons,
      show before.length + (after.length + 1) - after.length - 1 = before.length by omega,
      take_left]
  have hne : after ≠ before ++ '.' :: after := by
    intro heq
    have := congrArg List.length heq
    simp only [length_append, length_cons] at this
    omega
  rw [splitAtDot]
  simp only [takeWhile_ne_dot h, htake, hname, hne, hbefore, or_self, if_false]

theorem splitAtDot_spec (name : Text) :
    (splitAtDot name = (name, none)) ∨
      ∃ before after, splitAtDot name = (before, some after) ∧ name = before ++ '.' :: after := by
  by_cases hdot : '.' ∈ name
  · have hsplit := takeWhile_append_dropWhile (p := (· ≠ '.')) (l := name.reverse)
    generalize htw : name.reverse.takeWhile (· ≠ '.') = tw at hsplit
    obtain ⟨c, dw, hdw⟩ : ∃ c dw, name.reverse.dropWhile (· ≠ '.') = c :: dw := by
      refine exists_cons_of_ne_nil fun hnil => ?_
      rw [hnil, append_nil] at hsplit
      rw [← mem_reverse, ← hsplit, ← htw] at hdot
      have := mem_takeWhile_imp hdot
      simp at this
    have hc : c = '.' := by
      have := head_dropWhile_not (fun d => decide (d ≠ '.')) (l := name.reverse)
        (by rw [hdw]; exact cons_ne_nil _ _)
      simp only [hdw, head_cons] at this
      simpa using this
    have hname : name = dw.reverse ++ '.' :: tw.reverse := by
      rw [hdw, hc] at hsplit
      simpa using (congrArg List.reverse hsplit).symm
    by_cases hspecial : name = dotdot ∨ tw.reverse = name ∨
        name.take (name.length - tw.reverse.length - 1) = []
    · left
      rw [splitAtDot, htw]
      exact if_pos hspecial
    · right
      refine ⟨dw.reverse, tw.reverse, ?_, hname⟩
      have htake : name.take (name.length - tw.reverse.length - 1) = dw.reverse := by
        rw [hname, length_append, length_cons,
          show dw.reverse.length + (tw.reverse.length + 1) - tw.reverse.length - 1
            = dw.reverse.length by omega, take_left]
      rw [htake] at hspecial
      rw [splitAtDot, htw]
      simp only [htake, if_neg hspecial]
  · left
    have htw : name.reverse.takeWhile (· ≠ '.') = name.reverse := by
      rw [takeWhile_eq_self_iff]
      intro c hc
      have : c ≠ '.' := fun heq => hdot (by simpa [heq] using hc)
      simpa using this
    rw [splitAtDot, htw]
    simp

def Inside (name : Text) : Prop := isAbsolute name = false ∧ dotdot ∉ components name

instance (name : Text) : Decidable (Inside name) := inferInstanceAs (Decidable (_ ∧ _))

theorem under_join (dir : Text) (h : Inside name) : Under dir (join dir name) := by
  obtain ⟨habs, rest, hjoin, -, hsub⟩ := join_spec dir h.1
  exact ⟨habs, rest, hjoin, fun hmem => h.2 (hsub hmem)⟩

theorem join_append (dir : Text) {name s : Text} (hname : isAbsolute name = false)
    (hs : '/' ∉ s) : join dir name ++ s = join dir (name ++ s) := by
  have happ : isAbsolute (name ++ s) = false := by
    by_cases hnil : name = []
    · rw [hnil]
      exact isAbsolute_of_notMem hs
    · rw [isAbsolute_append s hnil, hname]
  simp only [join, hname, happ, Bool.false_eq_true, if_false]
  split_ifs <;> simp

theorem Inside.append {name s : Text} (h : Inside name) (hs : '/' ∉ s) (hlen : 2 < s.length) :
    Inside (name ++ s) ∧ ∃ front last, named (name ++ s) = front ++ [last ++ s] := by
  obtain ⟨front, last, hname, happ⟩ := pieces_append name
  have hlast : proper (last ++ s) := by
    have hne : last ++ s ≠ [] := by
      intro hnil
      simp [(append_eq_nil_iff.mp hnil).2] at hlen
    have hdot : last ++ s ≠ dot := by
      intro heq
      have := congrArg List.length heq
      simp only [length_append, dot, length_cons, length_nil] at this
      omega
    simp [proper, hne, hdot]
  refine ⟨⟨?_, ?_⟩, front.filter proper, last, ?_⟩
  · by_cases hnil : name = []
    · rw [hnil]
      exact isAbsolute_of_notMem hs
    · rw [isAbsolute_append s hnil, h.1]
  · intro hmem
    rcases mem_append.mp hmem with hmem | hmem
    · rw [lead] at hmem
      split at hmem
      · exact absurd hmem (by decide)
      · cases hmem
    · obtain ⟨hpiece, hne, hdot⟩ := mem_named.mp hmem
      rw [happ s hs] at hpiece
      rcases mem_append.mp hpiece with hpiece | hpiece
      · refine h.2 (mem_append_right _ (mem_named.mpr ⟨?_, hne, hdot⟩))
        rw [hname]
        exact mem_append_left _ hpiece
      · have hlen' := congrArg List.length (mem_singleton.mp hpiece)
        simp only [length_append, dotdot, length_cons, length_nil] at hlen'
        omega
  · rw [named, happ s hs, filter_append]
    simp [hlast]

theorem Below.under {dir p : Text} (h : Below dir p) : Under dir p := by
  obtain ⟨rest, -, hrest⟩ := h.below
  exact ⟨h.absolute, rest, hrest⟩

theorem Below.parent {dir p : Text} (h : Below dir p) : Under dir (parent p) := by
  obtain ⟨rest, hne, hcomp, hdot⟩ := h.below
  obtain ⟨hparent, habs⟩ := components_parent p
  refine ⟨habs.trans h.absolute, rest.dropLast, ?_, fun hmem => hdot (dropLast_subset _ hmem)⟩
  rw [hparent, hcomp, dropLast_append_of_ne_nil hne]

theorem Inside.below {dir name : Text} (h : Inside name) (hnamed : named name ≠ []) :
    Below dir (join dir name) := by
  obtain ⟨habs, rest, hjoin, hrest, hsub⟩ := join_spec dir h.1
  refine ⟨habs, rest, ?_, hjoin, fun hmem => h.2 (hsub hmem)⟩
  by_cases hdir : dir = []
  · subst hdir
    rw [join, if_neg (by simp [h.1]), if_pos (Or.inl rfl), nil_append] at hjoin
    rintro rfl
    have hnil : components name = [] := hjoin
    rw [components, append_eq_nil_iff] at hnil
    exact hnamed hnil.2
  · rw [hrest hdir]
    exact hnamed

theorem Inside.below_append {dir name s : Text} (h : Inside name) (hs : '/' ∉ s)
    (hlen : 2 < s.length) : Below dir (join dir name ++ s) := by
  obtain ⟨hinside, front, last, hnamed⟩ := h.append hs hlen
  rw [join_append dir h.1 hs]
  refine hinside.below ?_
  rw [hnamed]
  simp

theorem Below.withFileName {dir p c name : Text} (h : Below dir p) (hp : fileName p = some c)
    (hsep : '/' ∉ name) (hlen : 2 < name.length) : Below dir (withFileName p name) := by
  have hlong : ∀ d : Text, d.length ≤ 2 → name ≠ d := by
    rintro d hd rfl
    omega
  have hproper : proper name := by
    simp [proper, hlong [] (by decide), hlong dot (by decide)]
  obtain ⟨hcomp, habs⟩ := components_withFileName hp hsep hproper
  obtain ⟨rest, hne, hrest, hdot⟩ := h.below
  refine ⟨habs.trans h.absolute, rest.dropLast ++ [name], by simp, ?_, ?_⟩
  · rw [hcomp, hrest, dropLast_append_of_ne_nil hne, append_assoc]
  · intro hmem
    rcases mem_append.mp hmem with hmem | hmem
    · exact hdot (dropLast_subset _ hmem)
    · exact hlong dotdot (by decide) (mem_singleton.mp hmem).symm

theorem extension_parts {p ext : Text} (h : extension p = some ext) :
    ∃ c stem, fileName p = some c ∧ fileStem p = some stem ∧ '/' ∉ stem ∧ '/' ∉ ext := by
  simp only [extension, Option.bind_eq_some_iff] at h
  obtain ⟨c, hc, hsplit⟩ := h
  have hsep : '/' ∉ c := (mem_components (mem_of_getLast? (fileName_eq_some hc).1)).2
  rcases splitAtDot_spec c with heq | ⟨before, after, heq, rfl⟩
  · rw [heq] at hsplit
    cases hsplit
  · rw [heq] at hsplit
    cases hsplit
    refine ⟨_, before, hc, by simp [fileStem, hc, heq], ?_, ?_⟩
    · exact fun hmem => hsep (mem_append_left _ hmem)
    · exact fun hmem => hsep (mem_append_right _ (mem_cons_of_mem _ hmem))

theorem extension_join_of_named_nil {dir name : Text} (h : Inside name) (hnamed : named name = [])
    (hext : extension dir = none) : extension (join dir name) = none := by
  obtain ⟨-, rest, hjoin, hrest, hsub⟩ := join_spec dir h.1
  by_cases hdir : dir = []
  · have hcomp : components (join dir name) = lead name := by
      rw [join, if_neg (by simp [h.1]), if_pos (Or.inl hdir), hdir, nil_append, components,
        hnamed, append_nil]
    by_cases hlead : (pieces name).head? = some dot
    · rw [extension, fileName, hcomp, lead, if_pos hlead]
      rfl
    · rw [extension, fileName, hcomp, lead, if_neg hlead]
      rfl
  · have hcomp : components (join dir name) = components dir := by
      rw [hjoin, hrest hdir, hnamed, append_nil]
    rw [extension, fileName, hcomp]
    exact hext

end UnixPath
