import RustDesk.Config.CustomServer

/-!
# Which file names are read back

A file name writes the settings in fields, the host first, behind any text.  Reading it
cuts it at the offset of `host=` in the name in small letters.  Where the small letters of
the text in front take more bytes than the text, or fewer, the cut is inside the fields or
in front of them.  This file says which names are read back all the same.
-/

open CheckedArith TextBytes

namespace RustDesk.FileNameServer

open List

structure Setting where
  kind : Kind
  name : Text
  value : Text
  spelled : name.map Char.toLower = kind.name
  noComma : ',' ∉ value

def Setting.element (f : Setting) : Text := f.name ++ f.value

/-- A name that writes the four settings, the host first, behind a text without `host=`. -/
structure FileName where
  lead : Text
  noHost : ¬Kind.host.name <:+: lead.map Char.toLower
  host : Setting
  isHost : host.kind = .host
  others : List Setting
  allOthers : (others.map Setting.kind).Perm [.key, .api, .relay]
  comma : Bool
  withExe : Bool

namespace FileName

def fields (n : FileName) : List Setting := n.host :: n.others

def extra (n : FileName) : List Text := if n.comma then [[]] else []

def elements (n : FileName) : List Text := n.fields.map Setting.element ++ n.extra

def body (n : FileName) : Text := [','].intercalate n.elements

def base (n : FileName) : Text := n.lead ++ n.body

def text (n : FileName) : Text := if n.withExe then n.base ++ exe else n.base

end FileName

def places : Nat → List Setting → List (Nat × Setting)
  | _, [] => []
  | start, f :: fs => (start, f) :: places (start + size f.element + 1) fs

/-- The name is read, and each of its fields has its value. -/
def Reads (endsWord : Text → Text → Bool) (d : Decoders) (n : FileName) : Prop :=
  ∃ r, getCustomServerFromString endsWord d n.text = .ok (.ok r) ∧
    ∀ f ∈ n.fields, r.get f.kind = f.value

/-- **The names that are read back.**  The cut, which is behind as many bytes as the text in
front has in small letters, is at the end of a character.  The last value is not taken for an
extension.  No field that has a value is cut or left out, and a host that has one is not
joined with what the cut leaves of the text in front. -/
structure Readable (n : FileName) : Prop where
  boundary : BoundaryAt n.base (lowerSize n.lead)
  extension : n.comma = false → ∀ f ∈ n.others.getLast?, ¬EndsIn exe f.value
  fields : ∀ p ∈ places (size n.lead) n.fields, p.2.value ≠ [] → lowerSize n.lead ≤ p.1
  host : n.host.value ≠ [] → lowerSize n.lead < size n.lead → n.lead.getLast? = some ','

variable {endsWord : Text → Text → Bool} {d : Decoders} {s : CustomServer} {el : Text} {k : Kind}

theorem get_readElement :
    (readElement endsWord s el).get k =
      if recognized endsWord k el then el.drop k.name.length else s.get k := by
  unfold readElement readField
  cases k <;> split_ifs <;> rfl

theorem get_of_unrecognized {els : List Text} (h : ∀ el ∈ els, recognized endsWord k el = false) :
    (els.foldl (readElement endsWord) s).get k = s.get k := by
  induction els generalizing s with
  | nil => rfl
  | cons el els ih =>
    obtain ⟨hel, hels⟩ := forall_mem_cons.mp h
    rw [foldl_cons, ih hels, get_readElement, if_neg (by simp [hel])]

theorem get_of_last {front behind : List Text} (hel : recognized endsWord k el)
    (h : ∀ el ∈ behind, recognized endsWord k el = false) :
    (readElements endsWord (front ++ el :: behind)).get k = el.drop k.name.length := by
  rw [readElements, foldl_append, foldl_cons, get_of_unrecognized h, get_readElement, if_pos hel]

theorem name_ascii (k : Kind) : ∀ c ∈ k.name, c.toNat < 128 := by
  have hall : k.name.all (fun c => c.toNat < 128) = true := by cases k <;> decide
  simpa using hall

theorem eq_of_name_front {k k' : Kind} (h : k.name <+: k'.name) : k = k' := by
  revert h
  cases k <;> cases k' <;> decide

theorem recognized_unique {k' : Kind} (h : recognized endsWord k el)
    (h' : recognized endsWord k' el) : k = k' := by
  rcases prefix_or_prefix_of_prefix (of_decide_eq_true h) (of_decide_eq_true h') with
    hpre | hpre
  · exact eq_of_name_front hpre
  · exact (eq_of_name_front hpre).symm

theorem recognized_nil : recognized endsWord k [] = false := by
  cases k <;> rfl

theorem Setting.name_isAscii (f : Setting) : ∀ c ∈ f.name, c.toNat < 128 :=
  ascii_of_map_toLower (name_ascii f.kind) f.spelled

theorem Setting.name_length (f : Setting) : f.name.length = f.kind.name.length := by
  rw [← f.spelled, length_map]

theorem recognized_iff (f : Setting) (v : Text) :
    recognized endsWord k (f.name ++ v) ↔ k = f.kind := by
  have hown : recognized endsWord f.kind (f.name ++ v) := by
    apply decide_eq_true
    rw [← f.spelled]
    exact (lowers_toLowercase endsWord _).ascii_front f.name_isAscii
  constructor
  · intro h
    exact recognized_unique h hown
  · rintro rfl
    exact hown

theorem recognized_rest (f : Setting) {y h : Text} (hname : f.name = y ++ h) (hy : y ≠ []) :
    recognized endsWord k h = false := by
  have hascii : ∀ c ∈ h, c.toNat < 128 := fun c hc =>
    f.name_isAscii c (hname ▸ mem_append_right y hc)
  have hlower := (lowers_toLowercase endsWord h).eq_of_ascii hascii
  have hrest : h.map Char.toLower = f.kind.name.drop y.length := by
    rw [← f.spelled, hname, map_append, ← length_map Char.toLower, drop_left]
  have hpos := length_pos_iff.mpr hy
  have hlength : y.length ≤ f.kind.name.length := by
    rw [← f.name_length, hname, length_append]
    omega
  have hnone : ∀ k k' : Kind, ∀ i ≤ k'.name.length, 0 < i → ¬k.name <+: k'.name.drop i := by
    intro k k'
    cases k <;> cases k' <;> decide
  apply decide_eq_false
  rw [hlower, hrest]
  exact hnone k f.kind y.length hlength hpos

theorem recognized_joined {y t : Text} (hy : y ≠ [])
    (hnot : ¬Kind.host.name <:+: y.map Char.toLower)
    (ht : Kind.host.name <+: t.map Char.toLower) : recognized endsWord .host (y ++ t) = false := by
  apply decide_eq_false
  rw [prefix_lowers (by decide) (lowers_toLowercase endsWord _), map_append]
  exact not_prefix_append (by decide) (by simpa using hy) hnot ht

theorem recognized_without {t : Text} (hnot : ¬Kind.host.name <:+: t.map Char.toLower) :
    recognized endsWord .host t = false := by
  apply decide_eq_false
  rw [prefix_lowers (by decide) (lowers_toLowercase endsWord _)]
  exact fun h => hnot h.isInfix

variable {fs : List Setting}

theorem get_of_mem {front extra : List Text} {f : Setting}
    (hnodup : (fs.map Setting.kind).Nodup) (hextra : ∀ el ∈ extra, el = []) (hf : f ∈ fs) :
    (readElements endsWord (front ++ (fs.map Setting.element ++ extra))).get f.kind = f.value := by
  obtain ⟨bef, aft, rfl⟩ := append_of_mem hf
  rw [map_append, nodup_append, map_cons, nodup_cons] at hnodup
  have hlast : ∀ el ∈ aft.map Setting.element ++ extra, recognized endsWord f.kind el = false := by
    intro el hel
    rcases mem_append.mp hel with hel | hel
    · obtain ⟨g, hg, rfl⟩ := mem_map.mp hel
      rw [← Bool.not_eq_true, Setting.element, recognized_iff]
      intro heq
      exact hnodup.2.1.1 (heq ▸ mem_map_of_mem hg)
    · rw [hextra el hel]
      exact recognized_nil
  have helements : front ++ ((bef ++ f :: aft).map Setting.element ++ extra) =
      front ++ bef.map Setting.element ++
        (f.name ++ f.value) :: (aft.map Setting.element ++ extra) := by
    simp [Setting.element]
  rw [helements, get_of_last ((recognized_iff f f.value).mpr rfl) hlast, ← f.name_length, drop_left]

theorem get_of_notMem {front extra : List Text}
    (hk : k ∉ fs.map Setting.kind) (hextra : ∀ el ∈ extra, el = []) :
    (readElements endsWord (front ++ (fs.map Setting.element ++ extra))).get k =
      (readElements endsWord front).get k := by
  rw [readElements, foldl_append]
  refine get_of_unrecognized fun el hel => ?_
  rcases mem_append.mp hel with hel | hel
  · obtain ⟨g, hg, rfl⟩ := mem_map.mp hel
    rw [← Bool.not_eq_true, Setting.element, recognized_iff]
    rintro rfl
    exact hk (mem_map_of_mem hg)
  · rw [hextra el hel]
    exact recognized_nil

theorem get_readElements_nil : (readElements endsWord []).get k = [] := by
  cases k <;> rfl

def widths (ts : List Text) : Nat := (ts.map fun t => size t + 1).sum

theorem cut_intercalate {es : List Text} (hcomma : ∀ e ∈ es, ',' ∉ e) (hne : es ≠ []) {a u : Text}
    (h : [','].intercalate es = a ++ u) :
    ∃ ts y h rest, es = ts ++ (y ++ h) :: rest ∧ u.splitOn ',' = h :: rest ∧
      size a = widths ts + size y := by
  induction es generalizing a with
  | nil => exact absurd rfl hne
  | cons e es ih =>
    obtain ⟨he, hes⟩ := forall_mem_cons.mp hcomma
    cases es with
    | nil =>
      rw [intercalate_singleton] at h
      refine ⟨[], a, u, [], by rw [h]; rfl, splitOn_eq_singleton fun hu => he ?_, ?_⟩
      · exact h ▸ mem_append_right a hu
      · simp [widths]
    | cons e' es =>
      rw [intercalate_cons_cons, append_assoc] at h
      -- the cut is behind the element, or it is inside it
      rcases append_eq_append_iff.mp h with ⟨x, rfl, hx⟩ | ⟨x, rfl, rfl⟩
      · cases x with
        | nil =>
          refine ⟨[], e, [], e' :: es, by simp, ?_, by simp [widths]⟩
          rw [nil_append] at hx
          rw [← hx, singleton_append]
          have hsplit := splitOn_append_cons_self (a := ',') [] ([','].intercalate (e' :: es))
          rw [nil_append, splitOn_intercalate ',' hes (by simp)] at hsplit
          exact hsplit
        | cons c x =>
          rw [singleton_append, cons_append] at hx
          obtain ⟨rfl, hrest⟩ := List.cons.inj hx
          obtain ⟨ts, y, v, rest, heq, hsplit, hsize⟩ := ih hes (by simp) hrest
          refine ⟨e :: ts, y, v, rest, by rw [heq]; rfl, hsplit, ?_⟩
          have hone : (',' : Char).utf8Size = 1 := rfl
          rw [size_append, size_cons, hsize, widths, widths, map_cons, sum_cons, hone]
          omega
      · refine ⟨[], a, x, e' :: es, rfl, ?_, by simp [widths]⟩
        rw [singleton_append, splitOn_append_cons_self_of_not_mem,
          splitOn_intercalate ',' hes (by simp)]
        exact fun hin => he (mem_append_right a hin)

theorem infix_intercalate {es : List Text} {e : Text} (h : e ∈ es) :
    e <:+: [','].intercalate es := by
  induction es with
  | nil => cases h
  | cons e' es ih =>
    cases es with
    | nil =>
      obtain rfl := mem_singleton.mp h
      exact intercalate_singleton ▸ infix_rfl
    | cons e'' es =>
      rw [intercalate_cons_cons, append_assoc]
      rcases mem_cons.mp h with rfl | h
      · exact (prefix_append _ _).isInfix
      · exact (ih h).trans ((suffix_append _ _).trans (suffix_append _ _)).isInfix

theorem splitOn_append (t : Text) : ∃ ts y, (∀ t' ∈ ts, t' <:+: t) ∧ y <:+ t ∧
    (y = [] ↔ t = [] ∨ t.getLast? = some ',') ∧
    ∀ u, ',' ∉ u → ∀ v, (t ++ (u ++ ',' :: v)).splitOn ',' = ts ++ (y ++ u) :: v.splitOn ',' := by
  by_cases hmem : ',' ∈ t.reverse
  · obtain ⟨y, ts, hrev, hy⟩ := eq_append_cons_of_mem hmem
    have ht : t = ts.reverse ++ ',' :: y.reverse := by
      rw [← reverse_reverse t, hrev]
      simp
    have hy' : ',' ∉ y.reverse := by simpa using hy
    refine ⟨ts.reverse.splitOn ',', y.reverse, ?_, ⟨ts.reverse ++ [','], by rw [ht]; simp⟩, ?_, ?_⟩
    · intro t' ht'
      have hin := infix_intercalate ht'
      rw [intercalate_splitOn] at hin
      exact hin.trans ⟨[], ',' :: y.reverse, by rw [ht]; rfl⟩
    · rw [ht, List.getLast?_append_cons]
      rcases eq_nil_or_concat y.reverse with hnil | ⟨x, c, hlast⟩
      · rw [hnil]
        simp
      · rw [concat_eq_append] at hlast
        have hend : (',' :: (x ++ [c])).getLast? = some c := List.getLast?_concat (l := ',' :: x)
        rw [hlast, hend]
        refine iff_of_false (by simp) ?_
        simp only [append_eq_nil_iff, reduceCtorEq, and_false, false_or, Option.some.injEq]
        rintro rfl
        exact hy' (hlast ▸ mem_append_right x (mem_singleton_self _))
    · intro u hu v
      have hassoc : t ++ (u ++ ',' :: v) = ts.reverse ++ ',' :: (y.reverse ++ u ++ ',' :: v) := by
        rw [ht]
        simp
      rw [hassoc, splitOn_append_cons_self, splitOn_append_cons_self_of_not_mem]
      exact fun hin => (mem_append.mp hin).elim hy' hu
  · have ht : ',' ∉ t := by simpa using hmem
    refine ⟨[], t, by simp, suffix_rfl, ?_, ?_⟩
    · constructor
      · exact Or.inl
      · rintro (h | h)
        · exact h
        · exact absurd (mem_of_getLast? h) ht
    · intro u hu v
      rw [← append_assoc, splitOn_append_cons_self_of_not_mem]
      · rfl
      · exact fun hin => (mem_append.mp hin).elim ht hu

theorem places_append (start : Nat) (bef aft : List Setting) :
    places start (bef ++ aft) =
      places start bef ++ places (start + widths (bef.map Setting.element)) aft := by
  induction bef generalizing start with
  | nil => rfl
  | cons f bef ih =>
    rw [cons_append, places, places, ih, cons_append]
    simp only [widths, map_cons, sum_cons]
    congr 3
    omega

theorem le_of_mem_places {start : Nat} {p : Nat × Setting}
    (h : p ∈ places start fs) : start ≤ p.1 := by
  induction fs generalizing start with
  | nil => cases h
  | cons f fs ih =>
    rcases mem_cons.mp h with rfl | h
    · exact Nat.le_refl _
    · have := ih h
      omega

theorem places_cut {start off : Nat} (hoff : start + widths (fs.map Setting.element) ≤ off) :
    (∀ p ∈ places start fs, p.2.value ≠ [] → off ≤ p.1) ↔ ∀ f ∈ fs, f.value = [] := by
  induction fs generalizing start with
  | nil => exact iff_of_true (by simp [places]) (by simp)
  | cons f fs ih =>
    simp only [widths, map_cons, sum_cons] at hoff
    rw [places, forall_mem_cons, forall_mem_cons, ih (by unfold widths; omega)]
    refine and_congr_left fun _ => ?_
    constructor
    · intro h
      by_contra hvalue
      have : off ≤ start := h hvalue
      omega
    · intro h hvalue
      exact absurd h hvalue

theorem places_cut_inside {start : Nat} {bef aft : List Setting} {f : Setting} {y v : Text}
    (hf : f.element = y ++ v) :
    (∀ p ∈ places start (bef ++ f :: aft), p.2.value ≠ [] →
        start + (widths (bef.map Setting.element) + size y) ≤ p.1) ↔
      (∀ g ∈ bef, g.value = []) ∧ (f.value = [] ∨ y = []) := by
  have hbehind : ∀ p ∈ places (start + widths (bef.map Setting.element) + size f.element + 1) aft,
      start + (widths (bef.map Setting.element) + size y) ≤ p.1 := by
    intro p hp
    have := le_of_mem_places hp
    rw [hf, size_append] at this
    omega
  rw [places_append, places]
  simp only [forall_mem_append, forall_mem_cons]
  rw [places_cut (by omega)]
  refine and_congr_right fun _ => ?_
  constructor
  · rintro ⟨h, -⟩
    by_cases hvalue : f.value = []
    · exact .inl hvalue
    · have := h hvalue
      exact .inr (size_eq_zero.mp (by omega))
  · intro h
    refine ⟨fun hvalue => ?_, fun p hp _ => hbehind p hp⟩
    rw [h.resolve_left hvalue, size_nil]
    exact Nat.le_refl _

theorem Setting.noComma_element (f : Setting) : ',' ∉ f.element := by
  intro h
  rcases mem_append.mp h with h | h
  · have hlower := mem_map_of_mem (f := Char.toLower) h
    rw [f.spelled] at hlower
    revert hlower
    cases f.kind <;> decide
  · exact f.noComma h

namespace FileName

variable {n : FileName}

theorem kinds_nodup (n : FileName) : (n.fields.map Setting.kind).Nodup := by
  have hperm : (n.fields.map Setting.kind).Perm [.host, .key, .api, .relay] := by
    rw [fields, map_cons, n.isHost]
    exact n.allOthers.cons _
  exact hperm.nodup_iff.mpr (by decide)

theorem extra_nil (n : FileName) : ∀ el ∈ n.extra, el = [] := by
  unfold extra
  split_ifs <;> simp

theorem noComma_elements (n : FileName) : ∀ e ∈ n.elements, ',' ∉ e := by
  intro e he
  rcases mem_append.mp he with he | he
  · obtain ⟨f, -, rfl⟩ := mem_map.mp he
    exact f.noComma_element
  · rw [n.extra_nil e he]
    exact not_mem_nil

theorem others_ne_nil (n : FileName) : n.others ≠ [] := by
  intro h
  have hperm := n.allOthers
  rw [h] at hperm
  exact absurd hperm.length_eq (by decide)

theorem body_eq (n : FileName) : n.body = n.host.element ++
    ',' :: [','].intercalate (n.others.map Setting.element ++ n.extra) := by
  rw [body, elements, fields, map_cons, cons_append,
    intercalate_cons_of_ne_nil (by simp [n.others_ne_nil])]
  simp

theorem host_prefix_body (n : FileName) : Kind.host.name <+: n.body.map Char.toLower := by
  rw [body_eq, Setting.element, append_assoc, map_append, n.host.spelled, n.isHost]
  exact prefix_append _ _

theorem splitOn_before {t : Text} (ht : t <:+ n.lead) :
    ∃ ts y, (t ++ n.body).splitOn ',' =
        ts ++ (y ++ n.host.element) :: (n.others.map Setting.element ++ n.extra) ∧
      (∀ t' ∈ ts, ¬Kind.host.name <:+: t'.map Char.toLower) ∧
      ¬Kind.host.name <:+: y.map Char.toLower ∧ (y = [] ↔ t = [] ∨ t.getLast? = some ',') := by
  obtain ⟨ts, y, hts, hy, hend, hsplit⟩ := splitOn_append t
  have hwithout : ∀ t' : Text, t' <:+: t → ¬Kind.host.name <:+: t'.map Char.toLower :=
    fun t' ht' hin => n.noHost (hin.trans ((ht'.trans ht.isInfix).map _))
  refine ⟨ts, y, ?_, fun t' ht' => hwithout t' (hts t' ht'), hwithout y hy.isInfix, hend⟩
  have hrest : ∀ e ∈ n.others.map Setting.element ++ n.extra, ',' ∉ e := by
    intro e he
    refine n.noComma_elements e ?_
    rw [elements, fields, map_cons, cons_append]
    exact mem_cons_of_mem _ he
  rw [body_eq, hsplit _ n.host.noComma_element,
    splitOn_intercalate ',' hrest (by simp [n.others_ne_nil])]

theorem splitOn_inside {x u : Text} (h : n.body = x ++ u) :
    (u.splitOn ',' = [[]] ∧ size x = widths (n.fields.map Setting.element) ∧ n.comma) ∨
      ∃ bef f aft y v, n.fields = bef ++ f :: aft ∧ f.element = y ++ v ∧
        u.splitOn ',' = v :: (aft.map Setting.element ++ n.extra) ∧
        size x = widths (bef.map Setting.element) + size y := by
  obtain ⟨ts, y, v, rest, heq, hsplit, hsize⟩ :=
    cut_intercalate n.noComma_elements (by simp [elements, fields]) h
  rw [elements] at heq
  have hall : ∀ zs, ts = n.fields.map Setting.element ++ zs → n.extra = zs ++ (y ++ v) :: rest →
      u.splitOn ',' = [[]] ∧ size x = widths (n.fields.map Setting.element) ∧ n.comma := by
    intro zs hts hextra
    have hcomma : n.comma := by
      by_contra hno
      rw [extra, if_neg hno] at hextra
      simp at hextra
    rw [extra, if_pos hcomma] at hextra
    cases zs with
    | nil =>
      obtain ⟨hnil, rfl⟩ := List.cons.inj hextra
      obtain ⟨rfl, rfl⟩ := append_eq_nil_iff.mp hnil.symm
      rw [append_nil] at hts
      exact ⟨hsplit, by rw [hsize, hts, size_nil]; omega, hcomma⟩
    | cons z zs => simp at hextra
  rcases append_eq_append_iff.mp heq with ⟨zs, hts, hextra⟩ | ⟨zs, hfields, hrest⟩
  · exact .inl (hall zs hts hextra)
  · cases zs with
    | nil => exact .inl (hall [] (by simp [hfields]) hrest.symm)
    | cons z zs =>
      rw [cons_append] at hrest
      cases hrest
      obtain ⟨bef, fs, hbef, hts, hfs⟩ := map_eq_append_iff.mp hfields
      obtain ⟨f, aft, rfl, hf, haft⟩ := map_eq_cons_iff.mp hfs
      exact .inr ⟨bef, f, aft, y, v, hbef, hf, by rw [hsplit, haft], by rw [hsize, hts]⟩

end FileName

theorem get_cut (f : Setting) {y v : Text} (hf : f.element = y ++ v) (hy : y ≠ []) :
    ((readElements endsWord [v]).get f.kind).length ≤ f.value.length ∧
      ((readElements endsWord [v]).get f.kind = f.value ↔ f.value = []) := by
  have hlength := congrArg List.length hf
  rw [Setting.element, length_append, length_append, f.name_length] at hlength
  have hpos := length_pos_iff.mpr hy
  have hread : (readElements endsWord [v]).get f.kind =
      if recognized endsWord f.kind v then v.drop f.kind.name.length else [] := by
    rw [readElements, foldl_cons, foldl_nil, get_readElement]
    cases f.kind <;> rfl
  have hshort : ((readElements endsWord [v]).get f.kind).length ≤ f.value.length - 1 := by
    rw [hread]
    split_ifs
    · rw [length_drop]
      omega
    · exact Nat.zero_le _
  refine ⟨by omega, fun heq => ?_, fun hnil => ?_⟩
  · rw [heq] at hshort
    exact length_eq_zero_iff.mp (by omega)
  · rw [hnil] at hshort ⊢
    exact length_eq_zero_iff.mp (Nat.le_zero.mp hshort)

theorem get_cut_name (f : Setting) {y v : Text} (hf : f.element = y ++ v) (hy : y ≠ [])
    (hvalue : f.value = []) : (readElements endsWord [v]).get k = [] := by
  rw [Setting.element, hvalue, append_nil] at hf
  rw [readElements, foldl_cons, foldl_nil, get_readElement,
    if_neg (by simp [recognized_rest f hf hy])]
  cases k <;> rfl

namespace FileName

variable {n : FileName} {f : Setting}

theorem read_others (endsWord : Text → Text → Bool) {t : Text} (ht : t <:+ n.lead)
    (hf : f ∈ n.others) :
    (readElements endsWord ((t ++ n.body).splitOn ',')).get f.kind = f.value := by
  obtain ⟨ts, y, hsplit, -⟩ := splitOn_before ht
  have hnodup := n.kinds_nodup
  rw [fields, map_cons, nodup_cons] at hnodup
  rw [hsplit, ← singleton_append, ← append_assoc]
  exact get_of_mem hnodup.2 n.extra_nil hf

theorem read_before {t : Text} (ht : t <:+ n.lead) :
    (∀ f ∈ n.fields, (readElements endsWord ((t ++ n.body).splitOn ',')).get f.kind = f.value) ↔
      n.host.value = [] ∨ t = [] ∨ t.getLast? = some ',' := by
  obtain ⟨ts, y, hsplit, hts, hynot, hend⟩ := splitOn_before ht
  have hnodup := n.kinds_nodup
  rw [fields, map_cons, nodup_cons] at hnodup
  rw [fields, forall_mem_cons, and_iff_left fun f hf => read_others endsWord ht hf, ← hend]
  by_cases hy : y = []
  · refine iff_of_true ?_ (.inr hy)
    rw [hsplit, hy, nil_append, ← cons_append, ← map_cons]
    exact get_of_mem n.kinds_nodup n.extra_nil mem_cons_self
  · have hhost : (readElements endsWord ((t ++ n.body).splitOn ',')).get n.host.kind = [] := by
      rw [hsplit, ← singleton_append, ← append_assoc,
        get_of_notMem hnodup.1 n.extra_nil, readElements, n.isHost]
      refine get_of_unrecognized fun el hel => ?_
      rcases mem_append.mp hel with hel | hel
      · exact recognized_without (hts el hel)
      · rw [mem_singleton.mp hel]
        refine recognized_joined hy hynot ?_
        rw [Setting.element, map_append, n.host.spelled, n.isHost]
        exact prefix_append _ _
    rw [hhost, or_iff_left hy]
    exact eq_comm

variable {bef aft : List Setting}

theorem read_behind {f g : Setting} {v u : Text} (hfields : n.fields = bef ++ f :: aft)
    (hsplit : u.splitOn ',' = v :: (aft.map Setting.element ++ n.extra)) (hg : g ∈ aft) :
    (readElements endsWord (u.splitOn ',')).get g.kind = g.value := by
  have hnodup := n.kinds_nodup
  rw [hfields, map_append, nodup_append, map_cons, nodup_cons] at hnodup
  rw [hsplit, ← singleton_append]
  exact get_of_mem hnodup.2.1.2 n.extra_nil hg

theorem read_cut {y v u : Text} (hfields : n.fields = bef ++ f :: aft) (hf : f.element = y ++ v)
    (hsplit : u.splitOn ',' = v :: (aft.map Setting.element ++ n.extra)) :
    ((readElements endsWord (u.splitOn ',')).get f.kind).length ≤ f.value.length ∧
      ((readElements endsWord (u.splitOn ',')).get f.kind = f.value ↔ f.value = [] ∨ y = []) := by
  have hnodup := n.kinds_nodup
  rw [hfields, map_append, nodup_append, map_cons] at hnodup
  by_cases hy : y = []
  · have hwhole : u.splitOn ',' = [] ++ ((f :: aft).map Setting.element ++ n.extra) := by
      rw [hsplit, map_cons, hf, hy]
      rfl
    have hread : (readElements endsWord (u.splitOn ',')).get f.kind = f.value := by
      rw [hwhole]
      exact get_of_mem hnodup.2.1 n.extra_nil mem_cons_self
    exact ⟨Nat.le_of_eq (congrArg _ hread), iff_of_true hread (.inr hy)⟩
  · rw [hsplit, ← singleton_append,
      get_of_notMem (nodup_cons.mp hnodup.2.1).1 n.extra_nil, or_iff_left hy]
    exact get_cut f hf hy

theorem read_inside {y v u : Text} (hfields : n.fields = bef ++ f :: aft) (hf : f.element = y ++ v)
    (hsplit : u.splitOn ',' = v :: (aft.map Setting.element ++ n.extra)) :
    (∀ g ∈ n.fields, (readElements endsWord (u.splitOn ',')).get g.kind = g.value) ↔
      (∀ g ∈ bef, g.value = []) ∧ (f.value = [] ∨ y = []) := by
  have hnodup := n.kinds_nodup
  rw [hfields, map_append, nodup_append, map_cons] at hnodup
  have hbef : ∀ g ∈ bef, g.kind ∉ f.kind :: aft.map Setting.kind := fun g hg hin =>
    hnodup.2.2 _ (mem_map_of_mem hg) _ hin rfl
  rw [hfields, forall_mem_append, forall_mem_cons, (read_cut hfields hf hsplit).2,
    and_iff_left fun g hg => read_behind hfields hsplit hg]
  refine and_congr_left fun hcut => forall₂_congr fun g hg => ?_
  have hnone : (readElements endsWord (u.splitOn ',')).get g.kind = [] := by
    by_cases hy : y = []
    · have hwhole : u.splitOn ',' = [] ++ ((f :: aft).map Setting.element ++ n.extra) := by
        rw [hsplit, map_cons, hf, hy]
        rfl
      rw [hwhole, get_of_notMem (hbef g hg) n.extra_nil, get_readElements_nil]
    · rw [hsplit, ← singleton_append,
        get_of_notMem (fun hin => hbef g hg (mem_cons_of_mem _ hin)) n.extra_nil,
        get_cut_name f hf hy (hcut.resolve_right hy)]
  rw [hnone]
  exact eq_comm

theorem read_iff {a u : Text} (h : n.base = a ++ u) (hsize : size a = lowerSize n.lead) :
    (∀ f ∈ n.fields, (readElements endsWord (u.splitOn ',')).get f.kind = f.value) ↔
      (∀ p ∈ places (size n.lead) n.fields, p.2.value ≠ [] → lowerSize n.lead ≤ p.1) ∧
        (n.host.value ≠ [] → lowerSize n.lead < size n.lead → n.lead.getLast? = some ',') := by
  rcases append_eq_append_iff.mp h with ⟨x, rfl, hbody⟩ | ⟨t, hlead, rfl⟩
  · rw [size_append] at hsize
    rw [and_iff_left fun _ hlt => absurd hlt (by omega)]
    rcases splitOn_inside hbody with ⟨hsplit, hx, -⟩ | ⟨bef, f, aft, y, v, hfields, hf, hsplit, hx⟩
    · rw [places_cut (by omega), hsplit]
      refine forall₂_congr fun f _ => ?_
      rw [readElements, get_of_unrecognized (by simp [recognized_nil])]
      cases f.kind <;> exact eq_comm
    · rw [read_inside hfields hf hsplit, hfields, ← hsize, hx, places_cut_inside hf]
  · have hbound : size n.lead = lowerSize n.lead + size t := by
      rw [hlead, size_append, ← hlead, hsize]
    have hplaces : ∀ p ∈ places (size n.lead) n.fields,
        p.2.value ≠ [] → lowerSize n.lead ≤ p.1 := by
      intro p hp _
      have := le_of_mem_places hp
      omega
    rw [and_iff_right hplaces, read_before ⟨a, hlead.symm⟩]
    by_cases ht : t = []
    · refine iff_of_true (.inr (.inl ht)) fun _ hlt => ?_
      rw [ht, size_nil] at hbound
      omega
    · have hlt : lowerSize n.lead < size n.lead := by
        have := mt size_eq_zero.mp ht
        omega
      have hlast : t.getLast? = n.lead.getLast? := by
        rw [hlead, List.getLast?_append_of_ne_nil _ ht]
      rw [or_iff_right ht, hlast]
      constructor
      · intro h hvalue _
        exact h.resolve_left hvalue
      · intro h
        by_cases hvalue : n.host.value = []
        · exact .inl hvalue
        · exact .inr (h hvalue hlt)

theorem read_last_le (endsWord : Text → Text → Bool) {a u : Text} (h : n.base = a ++ u)
    {init : List Setting} (hothers : n.others = init ++ [f]) (hcomma : n.comma = false) :
    ((readElements endsWord (u.splitOn ',')).get f.kind).length ≤ f.value.length := by
  rcases append_eq_append_iff.mp h with ⟨x, rfl, hbody⟩ | ⟨t, hlead, rfl⟩
  · rcases splitOn_inside hbody with ⟨-, -, htrue⟩ | ⟨bef, g, aft, y, v, hfields, hg, hsplit, -⟩
    · rw [hcomma] at htrue
      cases htrue
    · have hlast : (n.host :: init) ++ [f] = bef ++ g :: aft := by
        rw [← hfields, fields, hothers, cons_append]
      rcases eq_nil_or_concat aft with rfl | ⟨aft, f', rfl⟩
      · obtain ⟨-, rfl⟩ := append_singleton_inj.mp hlast
        exact (read_cut hfields hg hsplit).1
      · rw [concat_eq_append] at hfields hsplit hlast
        rw [← cons_append, ← append_assoc] at hlast
        obtain ⟨-, rfl⟩ := append_singleton_inj.mp hlast
        exact Nat.le_of_eq (congrArg _ (read_behind hfields hsplit (by simp)))
  · have hread := read_others endsWord ⟨a, hlead.symm⟩
      (hothers ▸ mem_append_right init (mem_singleton_self f))
    exact Nat.le_of_eq (congrArg _ hread)

end FileName

theorem toLower_sign {c : Char} (h : c.toLower = '=') : c = '=' := by
  by_cases hupper : 65 ≤ c.toNat ∧ c.toNat ≤ 90
  · have hsmall := toNat_toLower hupper.1 hupper.2
    have hsign : c.toLower.toNat = 61 := congrArg Char.toNat h
    omega
  · rwa [toLower_of_not_upper (by omega)] at h

theorem Setting.exists_sign (f : Setting) : ∃ x, f.name = x ++ ['='] := by
  obtain ⟨z, hz⟩ : ∃ z, f.kind.name = z ++ ['='] := by
    cases f.kind
    · exact ⟨['h', 'o', 's', 't'], rfl⟩
    · exact ⟨['k', 'e', 'y'], rfl⟩
    · exact ⟨['a', 'p', 'i'], rfl⟩
    · exact ⟨['r', 'e', 'l', 'a', 'y'], rfl⟩
  obtain ⟨x, m, hname, -, hm⟩ := map_eq_append_iff.mp (f.spelled.trans hz)
  obtain ⟨c, m, rfl, hc, hm⟩ := map_eq_cons_iff.mp hm
  rw [map_eq_nil_iff.mp hm, toLower_sign hc] at hname
  exact ⟨x, hname⟩

theorem endsIn_behind {pat x v : Text} {c : Char} (hc : c ∉ pat) (hlow : c.toLower = c) :
    EndsIn pat (x ++ c :: v) ↔ EndsIn pat v := by
  have hmap : (x ++ c :: v).map Char.toLower = x.map Char.toLower ++ c :: v.map Char.toLower := by
    rw [map_append, map_cons, hlow]
  rw [EndsIn, EndsIn, hmap]
  constructor
  · intro h
    by_cases hlength : pat.length ≤ (v.map Char.toLower).length
    · exact suffix_of_suffix_length_le h
        ((suffix_cons c _).trans (suffix_append _ _)) hlength
    · have hin : c :: v.map Char.toLower <:+ pat :=
        suffix_of_suffix_length_le (suffix_append _ _) h (by
          rw [length_cons]
          omega)
      exact absurd (hin.subset mem_cons_self) hc
  · intro h
    exact h.trans ((suffix_cons c _).trans (suffix_append _ _))

theorem withoutExe_behind (x v : Text) {c : Char} (hc : c ∉ exe) (hlow : c.toLower = c) :
    withoutExe (x ++ c :: v) = x ++ c :: withoutExe v := by
  have htake : ∀ k ≤ v.length,
      (x ++ c :: v).take ((x ++ c :: v).length - k) = x ++ c :: v.take (v.length - k) := by
    intro k hk
    have hlength : (x ++ c :: v).length - k = x.length + (v.length - k + 1) := by
      rw [length_append, length_cons]
      omega
    rw [hlength, take_length_add_append, take_succ_cons]
  have hle : ∀ pat, EndsIn pat v → pat.length ≤ v.length := fun pat h => by
    have := h.length_le
    rwa [length_map] at this
  have hctwice : c ∉ exe ++ exe := fun h => (mem_append.mp h).elim hc hc
  unfold withoutExe
  simp only [endsIn_behind hctwice hlow, endsIn_behind hc hlow]
  split_ifs with htwice honce
  · exact htake 8 (hle _ htwice)
  · exact htake 4 (hle _ honce)
  · rfl

theorem withoutExe_value (v : Text) (e : Bool) :
    (¬EndsIn exe v → withoutExe (if e then v ++ exe else v) = v) ∧
      (EndsIn exe v → withoutExe (if e then v ++ exe else v) <+: v ∧
        (withoutExe (if e then v ++ exe else v)).length < v.length) := by
  have htwice : EndsIn (exe ++ exe) (v ++ exe) ↔ EndsIn exe v := by
    rw [EndsIn, EndsIn, map_append]
    exact suffix_append_self_iff
  have honce : EndsIn exe (v ++ exe) := by
    rw [EndsIn, map_append]
    exact suffix_append _ _
  have hend : EndsIn (exe ++ exe) v → EndsIn exe v := (suffix_append exe exe).trans
  have hlength : EndsIn exe v → 4 ≤ v.length := fun h => by
    have := h.length_le
    rwa [length_map] at this
  have hfour : (v ++ exe).length = v.length + 4 := length_append
  unfold withoutExe
  cases e with
  | false =>
    refine ⟨fun h => by rw [if_neg Bool.false_ne_true, if_neg (mt hend h), if_neg h], fun h => ?_⟩
    have := hlength h
    rw [if_neg Bool.false_ne_true]
    split_ifs
    · exact ⟨ take_prefix _ _, by rw [length_take]; omega⟩
    · exact ⟨ take_prefix _ _, by rw [length_take]; omega⟩
  | true =>
    simp only [if_pos, htwice, honce, hfour]
    refine ⟨fun h => ?_, fun h => ?_⟩
    · rw [if_neg h, Nat.add_sub_cancel, take_left]
    · have := hlength h
      have height : v.length + 4 - 8 = v.length - 4 := by omega
      rw [if_pos h, height, take_append_of_le_length (Nat.sub_le _ _)]
      exact ⟨ take_prefix _ _, by rw [length_take]; omega⟩

theorem intercalate_concat {es : List Text} (hes : es ≠ []) (e : Text) :
    [','].intercalate (es ++ [e]) = [','].intercalate es ++ ',' :: e := by
  induction es with
  | nil => exact absurd rfl hes
  | cons e' es ih =>
    cases es with
    | nil => simp [intercalate_singleton]
    | cons e'' es =>
      rw [intercalate_cons_cons, cons_append, cons_append,
        intercalate_cons_cons, ← cons_append, ih (by simp)]
      simp

namespace FileName

variable {n : FileName}

theorem base_of_comma (h : n.comma) :
    n.base = n.lead ++ [','].intercalate (n.fields.map Setting.element) ++ [','] := by
  rw [base, body, elements, extra, if_pos h, intercalate_concat (by simp [fields]), append_assoc]

variable {init : List Setting} {f : Setting}

theorem base_of_last (hothers : n.others = init ++ [f]) (h : n.comma = false) :
    n.base = n.lead ++ [','].intercalate ((n.host :: init).map Setting.element) ++
      ',' :: f.element := by
  have hfields : n.fields.map Setting.element ++ n.extra =
      (n.host :: init).map Setting.element ++ [f.element] := by
    rw [extra, if_neg (by simp [h]), fields, hothers]
    simp
  rw [base, body, elements, hfields, intercalate_concat (by simp), append_assoc]

theorem withoutExe_comma (h : n.comma) : withoutExe n.text = n.base := by
  have htext : n.text = n.lead ++ [','].intercalate (n.fields.map Setting.element) ++
      ',' :: (if n.withExe then exe else []) := by
    rw [text, base_of_comma h]
    split_ifs
    · rw [append_assoc _ [','], singleton_append]
    · rfl
  rw [htext, withoutExe_behind _ _ (by decide) (by decide), base_of_comma h]
  cases n.withExe <;> rfl

theorem withoutExe_last (hothers : n.others = init ++ [f]) (h : n.comma = false) :
    withoutExe n.text = n.lead ++ [','].intercalate ((n.host :: init).map Setting.element) ++
      ',' :: (f.name ++ withoutExe (if n.withExe then f.value ++ exe else f.value)) := by
  obtain ⟨x, hx⟩ := f.exists_sign
  have htext : n.text = (n.lead ++ [','].intercalate ((n.host :: init).map Setting.element) ++
      ',' :: x) ++ '=' :: (if n.withExe then f.value ++ exe else f.value) := by
    rw [text, base_of_last hothers h, Setting.element, hx]
    split_ifs <;> simp
  rw [htext, withoutExe_behind _ _ (by decide) (by decide), hx]
  simp

theorem run_eq {t : Text} (hs : withoutExe n.text = n.lead ++ t)
    (ht : Kind.host.name <+: t.map Char.toLower) :
    Reads endsWord d n ↔ ∃ u, dropBytes (n.lead ++ t) (lowerSize n.lead) = .ok u ∧
      ∀ f ∈ n.fields, (readElements endsWord (u.splitOn ',')).get f.kind = f.value := by
  have hoff := lowerOffset_append (by decide) (by decide) n.noHost ht
  rw [Reads, getCustomServerFromString_eq, hs, hoff]
  dsimp only
  cases dropBytes (n.lead ++ t) (lowerSize n.lead) with
  | error e =>
    refine iff_of_false ?_ ?_
    · rintro ⟨r, hr, -⟩
      rw [error_bind] at hr
      cases hr
    · rintro ⟨u, hu, -⟩
      cases hu
  | ok u =>
    rw [ok_bind]
    constructor
    · rintro ⟨r, hr, hread⟩
      cases hr
      exact ⟨u, rfl, hread⟩
    · rintro ⟨u', hu, hread⟩
      cases hu
      exact ⟨_, rfl, hread⟩

theorem reads_iff_of_base (hs : withoutExe n.text = n.base) :
    Reads endsWord d n ↔ BoundaryAt n.base (lowerSize n.lead) ∧
      (∀ p ∈ places (size n.lead) n.fields, p.2.value ≠ [] → lowerSize n.lead ≤ p.1) ∧
        (n.host.value ≠ [] → lowerSize n.lead < size n.lead → n.lead.getLast? = some ',') := by
  rw [run_eq hs n.host_prefix_body]
  constructor
  · rintro ⟨u, hu, hread⟩
    obtain ⟨a, hbase, hsize⟩ := dropBytes_iff.mp hu
    exact ⟨⟨a, u, hbase, hsize⟩, (read_iff hbase hsize).mp hread⟩
  · rintro ⟨⟨a, u, hbase, hsize⟩, hkept⟩
    exact ⟨u, dropBytes_iff.mpr ⟨a, hbase, hsize⟩, (read_iff hbase hsize).mpr hkept⟩

theorem not_reads_of_exe (hothers : n.others = init ++ [f])
    (hcomma : n.comma = false) (hexe : EndsIn exe f.value) : ¬Reads endsWord d n := by
  obtain ⟨⟨rest, hrest⟩, hshort⟩ := (withoutExe_value f.value n.withExe).2 hexe
  let f' : Setting :=
    { f with
      value := withoutExe (if n.withExe then f.value ++ exe else f.value)
      noComma := fun h => f.noComma (hrest ▸ mem_append_left _ h) }
  -- what is read is the name with the shorter value
  let n' : FileName :=
    { n with
      others := init ++ [f']
      allOthers := by
        have hkinds := n.allOthers
        rw [hothers, map_append] at hkinds
        rwa [map_append]
      comma := false
      withExe := false }
  have hs : withoutExe n.text = n'.lead ++ n'.body := by
    rw [withoutExe_last hothers hcomma]
    exact (base_of_last (n := n') rfl rfl).symm
  intro h
  obtain ⟨u, hu, hread⟩ := (run_eq hs n'.host_prefix_body).mp h
  obtain ⟨a, hbase, -⟩ := dropBytes_iff.mp hu
  have hle := read_last_le endsWord (n := n') hbase rfl rfl
  have hvalue := hread f (by simp [fields, hothers])
  change ((readElements endsWord (u.splitOn ',')).get f.kind).length ≤ f'.value.length at hle
  rw [hvalue] at hle
  exact absurd hle (Nat.not_le.mpr hshort)

theorem reads_iff (n : FileName) : Reads endsWord d n ↔ Readable n := by
  obtain hnil | ⟨init, f, hothers⟩ := eq_nil_or_concat n.others
  · exact absurd hnil n.others_ne_nil
  rw [concat_eq_append] at hothers
  have hlast : n.others.getLast? = some f := by rw [hothers, List.getLast?_concat]
  by_cases hexe : n.comma = false ∧ EndsIn exe f.value
  · refine iff_of_false (not_reads_of_exe hothers hexe.1 hexe.2) fun h => ?_
    exact h.extension hexe.1 f hlast hexe.2
  · have hs : withoutExe n.text = n.base := by
      cases hcomma : n.comma with
      | true => exact withoutExe_comma hcomma
      | false =>
        rw [withoutExe_last hothers hcomma, base_of_last hothers hcomma,
          (withoutExe_value f.value n.withExe).1 fun h => hexe ⟨hcomma, h⟩, Setting.element]
    rw [reads_iff_of_base hs]
    constructor
    · rintro ⟨hboundary, hfields, hhost⟩
      refine ⟨hboundary, fun hcomma g hg => ?_, hfields, hhost⟩
      rw [hlast] at hg
      cases hg
      exact fun h => hexe ⟨hcomma, h⟩
    · intro h
      exact ⟨h.boundary, h.fields, h.host⟩

end FileName

/-- **The settings in a file name.**  A name is read without a trap if and only if the cut is
at the end of a character, and what it writes is read back if and only if it is readable. -/
theorem parses_iff (endsWord : Text → Text → Bool) (d : Decoders) :
    (∀ s, (∃ r, getCustomServerFromString endsWord d s = .ok r) ↔ CutsWell s) ∧
      ∀ n, Reads endsWord d n ↔ Readable n :=
  ⟨returns_iff, FileName.reads_iff⟩

def dotted : FileName where
  lead := [.ofNat 0x130]
  noHost := by decide
  host := ⟨.host, ['h', 'o', 's', 't', '='], ['h'], by decide, by decide⟩
  isHost := rfl
  others :=
    [⟨.key, ['k', 'e', 'y', '='], ['k'], by decide, by decide⟩,
      ⟨.api, ['a', 'p', 'i', '='], ['a'], by decide, by decide⟩,
      ⟨.relay, ['r', 'e', 'l', 'a', 'y', '='], ['r'], by decide, by decide⟩]
  allOthers := .refl _
  comma := false
  withExe := true

def kelvin : Text := [.ofNat 0x212A, .ofNat 0x212A, 'h', 'o', 's', 't', '=', 'h']

/-- A cut inside a Kelvin sign traps, and a cut behind the first letter of `host=` loses it. -/
theorem wide_letters_break :
    let d : Decoders := ⟨fun _ => none, fun _ => none, fun _ => none⟩
    (¬∃ r, getCustomServerFromString (fun _ _ => false) d kelvin = .ok r) ∧
      (∀ f ∈ dotted.fields, ¬exe <:+ f.value) ∧ ¬Reads (fun _ _ => false) d dotted := by
  intro d
  have htrap : getCustomServerFromString (fun _ _ => false) d kelvin = .error .outOfRange := by
    decide +kernel
  have hlost : getCustomServerFromString (fun _ _ => false) d dotted.text =
      .ok (.ok { key := ['k'], host := [], api := ['a'], relay := ['r'] }) := by
    decide +kernel
  refine ⟨?_, by decide, ?_⟩
  · rintro ⟨r, hr⟩
    rw [htrap] at hr
    cases hr
  · rintro ⟨r, hr, hread⟩
    rw [hlost] at hr
    cases hr
    exact absurd (hread dotted.host mem_cons_self) (by decide)

end RustDesk.FileNameServer
