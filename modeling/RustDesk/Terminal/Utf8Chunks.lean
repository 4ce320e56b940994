import RustDesk.Lib.Utf8
import RustDesk.Terminal.OutputBuffer

/-!
# Whole characters

A read from a terminal may end in the middle of a character.  `Utf8ChunkAccumulator` holds the
beginning of the character back until the rest of it has been read.  It finds it from the last
three bytes.

Whatever the bytes are, none is lost, and no more than three are held back.  If they are the
encoding of a text, so is each chunk (`push_valid`), each line of the output buffer
(`ValidLines.append`) and each replay (`ValidLines.getRecent`).
-/

namespace RustDesk.Terminal

open List

open OutputBuffer (isContinuation alignOffset)

/-- The length that `find_utf8_split_point` takes from the first byte of a sequence. -/
def seqLen (b : UInt8) : Option Nat :=
  if b &&& 0xE0 = 0xC0 then some 2
  else if b &&& 0xF0 = 0xE0 then some 3
  else if b &&& 0xF8 = 0xF0 then some 4
  else none

/-- The loop of `find_utf8_split_point` over the last bytes, backwards.  The number is that of the
bytes from the present one on. -/
def splitPointLoop (len : Nat) : Bytes → Nat → Nat
  | [], _ => len
  | b :: before, behind =>
    if b &&& 0x80 = 0 then len
    else if b &&& 0xC0 = 0x80 then splitPointLoop len before (behind + 1)
    else
      match seqLen b with
      | none => len
      | some n => if n ≤ behind then len else len - behind

def findUtf8SplitPoint (buf : Bytes) : Nat := splitPointLoop buf.length (buf.reverse.take 3) 1

structure Utf8ChunkAccumulator where
  remainder : Bytes

namespace Utf8ChunkAccumulator

/-- `Utf8ChunkAccumulator::default`. -/
def new : Utf8ChunkAccumulator := ⟨[]⟩

/-- `Some`, unless there is nothing. -/
def nonempty (data : Bytes) : Option Bytes := if data = [] then none else some data

def pushChunk (a : Utf8ChunkAccumulator) (data : Bytes) : Option Bytes × Utf8ChunkAccumulator :=
  if data = [] then (none, a)
  else
    let hadRemainder := !a.remainder.isEmpty
    let data := a.remainder ++ data
    let split := findUtf8SplitPoint data
    if split = data.length then (some data, ⟨[]⟩)
    else if !hadRemainder && 0 < split && !Utf8.valid (data.take split) then (some data, ⟨[]⟩)
    else (nonempty (data.take split), ⟨data.drop split⟩)

def finish (a : Utf8ChunkAccumulator) : Option Bytes := nonempty a.remainder

def pushAll : Utf8ChunkAccumulator → List Bytes → List Bytes × Utf8ChunkAccumulator
  | a, [] => ([], a)
  | a, data :: reads =>
    let pushed := a.pushChunk data
    let rest := pushAll pushed.2 reads
    (pushed.1.toList ++ rest.1, rest.2)

def chunks (reads : List Bytes) : List Bytes :=
  (pushAll new reads).1 ++ (pushAll new reads).2.finish.toList

example : chunks [[0xE4], [0xB8, 0xAD, 0xF0, 0x9F], [0x98, 0x80]] =
    [[0xE4, 0xB8, 0xAD], [0xF0, 0x9F, 0x98, 0x80]] := by decide +kernel

theorem isContinuation_eq (b : UInt8) : isContinuation b = Utf8.isTail b := by
  have hall : ∀ i < 256, isContinuation (UInt8.ofNat i) = Utf8.isTail (UInt8.ofNat i) := by
    decide +kernel
  rw [← UInt8.ofNat_toNat (x := b)]
  exact hall _ b.toNat_lt

theorem seqLen_of_lead {b : UInt8} {n : Nat} (h : Utf8.lead b = some n) :
    n ≤ 4 ∧ (b &&& 0x80 = 0 ↔ n = 1) ∧ isContinuation b = false ∧ (n ≠ 1 → seqLen b = some n) := by
  have hall : ∀ i < 256, ∀ n ∈ Utf8.lead (UInt8.ofNat i), n ≤ 4 ∧
      (UInt8.ofNat i &&& 0x80 = 0 ↔ n = 1) ∧ isContinuation (UInt8.ofNat i) = false ∧
      (n ≠ 1 → seqLen (UInt8.ofNat i) = some n) := by
    decide +kernel
  have hb := hall b.toNat b.toNat_lt
  rw [UInt8.ofNat_toNat] at hb
  exact hb n h

theorem not_ascii_of_isContinuation {b : UInt8} (h : isContinuation b = true) : b &&& 0x80 ≠ 0 := by
  have hall : ∀ i < 256, isContinuation (UInt8.ofNat i) = true → UInt8.ofNat i &&& 0x80 ≠ 0 := by
    decide +kernel
  have hb := hall b.toNat b.toNat_lt
  rw [UInt8.ofNat_toNat] at hb
  exact hb h

theorem splitPointLoop_tails (len : Nat) (tails before : Bytes) (behind : Nat)
    (h : ∀ t ∈ tails, isContinuation t = true) :
    splitPointLoop len (tails ++ before) behind =
      splitPointLoop len before (behind + tails.length) := by
  induction tails generalizing behind with
  | nil => rfl
  | cons t tails ih =>
    have ht := h t mem_cons_self
    have hmask : t &&& 0xC0 = 0x80 := by simpa [isContinuation] using ht
    rw [cons_append, splitPointLoop, if_neg (not_ascii_of_isContinuation ht), if_pos hmask,
      ih _ fun u hu => h u (mem_cons_of_mem t hu), length_cons]
    congr 1
    omega

theorem splitPointLoop_bounds (len : Nat) (before : Bytes) (behind : Nat) :
    splitPointLoop len before behind ≤ len ∧
      len ≤ splitPointLoop len before behind + (behind + before.length - 1) := by
  induction before generalizing behind with
  | nil => exact ⟨Nat.le_refl _, Nat.le_add_right _ _⟩
  | cons b before ih =>
    have hnext := ih (behind + 1)
    unfold splitPointLoop
    rw [length_cons]
    split
    · omega
    split
    · omega
    split
    · omega
    · split <;> omega

theorem le_findUtf8SplitPoint (buf : Bytes) : buf.length ≤ findUtf8SplitPoint buf + 3 := by
  have hbounds := (splitPointLoop_bounds buf.length (buf.reverse.take 3) 1).2
  have htaken : (buf.reverse.take 3).length ≤ 3 := length_take_le _ _
  rw [findUtf8SplitPoint]
  omega

theorem findUtf8SplitPoint_eq {front tails : Bytes} {b : UInt8} {n : Nat}
    (hlead : Utf8.lead b = some n) (htails : ∀ t ∈ tails, isContinuation t = true)
    (hle : tails.length + 1 ≤ n) :
    findUtf8SplitPoint (front ++ b :: tails) =
      if tails.length + 1 = n then (front ++ b :: tails).length else front.length := by
  obtain ⟨hfour, hascii, hnot, hseq⟩ := seqLen_of_lead hlead
  have hmask : b &&& 0xC0 ≠ 0x80 := by simpa [isContinuation] using hnot
  have hreverse : (front ++ b :: tails).reverse = tails.reverse ++ b :: front.reverse := by
    simp
  have hback : ∀ t ∈ tails.reverse, isContinuation t = true := fun t ht =>
    htails t (mem_reverse.mp ht)
  have hlength : (front ++ b :: tails).length = front.length + (tails.length + 1) := by
    rw [length_append, length_cons]
  unfold findUtf8SplitPoint
  rw [hreverse]
  by_cases hlong : tails.length = 3
  · -- the loop does not get to the first byte of a character of four bytes
    have htake : (tails.reverse ++ b :: front.reverse).take 3 = tails.reverse ++ [] := by
      rw [append_nil, take_left' (by simpa using hlong)]
    rw [htake, splitPointLoop_tails _ _ _ _ hback, splitPointLoop, if_pos (by omega)]
  · obtain ⟨k, hk⟩ : ∃ k, 3 = tails.reverse.length + (k + 1) :=
      ⟨2 - tails.length, by rw [length_reverse]; omega⟩
    have htake : (tails.reverse ++ b :: front.reverse).take 3 =
        tails.reverse ++ b :: front.reverse.take k := by
      rw [hk, take_length_add_append, take_succ_cons]
    rw [htake, splitPointLoop_tails _ _ _ _ hback, length_reverse, splitPointLoop]
    by_cases hone : n = 1
    · rw [if_pos (hascii.mpr hone), if_pos (by omega)]
    · rw [if_neg (fun h => hone (hascii.mp h)), if_neg hmask, hseq hone]
      dsimp only
      by_cases hwhole : tails.length + 1 = n
      · rw [if_pos (by omega), if_pos hwhole]
      · rw [if_neg (by omega), if_neg hwhole, hlength]
        omega

theorem valid_take_split {data rest : Bytes} (h : Utf8.valid (data ++ rest) = true) :
    Utf8.valid (data.take (findUtf8SplitPoint data)) = true := by
  have htails : ∀ {bs : Bytes}, (∀ t ∈ bs, Utf8.isTail t = true) →
      ∀ t ∈ bs, isContinuation t = true := fun h t ht => (isContinuation_eq t).trans (h t ht)
  obtain ⟨cs, hcs⟩ := Utf8.valid_iff.mp h
  obtain ⟨front, back, p, -, rfl, -, hcut⟩ := Utf8.exists_cut hcs.symm
  have hfront : Utf8.valid (Utf8.bytes front) = true := Utf8.valid_iff.mpr ⟨front, rfl⟩
  cases p with
  | nil =>
    rw [append_nil]
    rcases eq_nil_or_concat' front with rfl | ⟨front, c, rfl⟩
    · exact hfront
    · obtain ⟨b, bs, hc, hlead, hbs⟩ := Utf8.utf8EncodeChar_eq c
      have hbytes : Utf8.bytes (front ++ [c]) = Utf8.bytes front ++ b :: bs := by
        rw [Utf8.bytes_append, Utf8.bytes_cons, hc, Utf8.bytes_nil, append_nil]
      rw [hbytes] at hfront ⊢
      rw [findUtf8SplitPoint_eq hlead (htails hbs) (Nat.le_refl _), if_pos rfl, take_length]
      exact hfront
  | cons a p =>
    rcases hcut with hnil | ⟨c, rest', q, -, hc, hq⟩
    · cases hnil
    · obtain ⟨b, bs, hc', hlead, hbs⟩ := Utf8.utf8EncodeChar_eq c
      rw [cons_append] at hc
      obtain ⟨rfl, rfl⟩ := List.cons.inj (hc.symm.trans hc')
      have hshort : p.length + 1 < (p ++ q).length + 1 := by
        have hpos := length_pos_iff.mpr hq
        rw [length_append]
        omega
      rw [findUtf8SplitPoint_eq hlead (fun t ht => htails hbs t (mem_append_left _ ht))
        (Nat.le_of_lt hshort), if_neg (Nat.ne_of_lt hshort), take_left' rfl]
      exact hfront

variable {a : Utf8ChunkAccumulator} {data rest : Bytes}

theorem flatten_nonempty (data : Bytes) : (nonempty data).toList.flatten = data := by
  unfold nonempty
  split
  · simp_all
  · simp

theorem mem_nonempty {chunk : Bytes} (h : chunk ∈ (nonempty data).toList) : chunk = data := by
  unfold nonempty at h
  split at h
  · cases h
  · exact mem_singleton.mp h

theorem pushChunk_bytes (a : Utf8ChunkAccumulator) (data : Bytes)
    (ha : a.remainder.length ≤ 3) :
    (a.pushChunk data).1.toList.flatten ++ (a.pushChunk data).2.remainder = a.remainder ++ data ∧
      (a.pushChunk data).2.remainder.length ≤ 3 := by
  unfold pushChunk
  split
  · rename_i hempty
    simp [hempty, ha]
  dsimp only
  split
  · simp
  split
  · simp
  · have hle := le_findUtf8SplitPoint (a.remainder ++ data)
    rw [flatten_nonempty]
    refine ⟨take_append_drop _ _, ?_⟩
    rw [length_drop]
    omega

/-- **Of an encoding, what is returned is an encoding**, and so is what is held back together with
what is still to come. -/
theorem pushChunk_valid (h : Utf8.valid (a.remainder ++ data ++ rest) = true) :
    (∀ chunk ∈ (a.pushChunk data).1.toList, Utf8.valid chunk = true) ∧
      Utf8.valid ((a.pushChunk data).2.remainder ++ rest) = true := by
  have htake := valid_take_split h
  unfold pushChunk
  split
  · rename_i hempty
    rw [hempty, append_nil] at h
    exact ⟨nofun, h⟩
  dsimp only
  split
  · rename_i hall
    rw [hall, take_length] at htake
    refine ⟨fun chunk hchunk => ?_, Utf8.valid_of_append htake h⟩
    obtain rfl := mem_singleton.mp hchunk
    exact htake
  split
  · rename_i hheld
    rw [htake, Bool.not_true, Bool.and_false] at hheld
    cases hheld
  · refine ⟨fun chunk hchunk => mem_nonempty hchunk ▸ htake, ?_⟩
    rw [← take_append_drop (findUtf8SplitPoint (a.remainder ++ data)) (a.remainder ++ data),
      append_assoc] at h
    exact Utf8.valid_of_append htake h

theorem pushAll_bytes (reads : List Bytes) (ha : a.remainder.length ≤ 3) :
    (pushAll a reads).1.flatten ++ (pushAll a reads).2.remainder = a.remainder ++ reads.flatten ∧
      (pushAll a reads).2.remainder.length ≤ 3 := by
  induction reads generalizing a with
  | nil => simpa [pushAll] using ha
  | cons data reads ih =>
    obtain ⟨hbytes, hlength⟩ := pushChunk_bytes a data ha
    obtain ⟨hrest, hlength'⟩ := ih hlength
    refine ⟨?_, hlength'⟩
    rw [pushAll, flatten_append, append_assoc, hrest, ← append_assoc, hbytes,
      flatten_cons, append_assoc]

theorem pushAll_valid (reads : List Bytes)
    (h : Utf8.valid (a.remainder ++ reads.flatten) = true) :
    (∀ chunk ∈ (pushAll a reads).1, Utf8.valid chunk = true) ∧
      Utf8.valid (pushAll a reads).2.remainder = true := by
  induction reads generalizing a with
  | nil => exact ⟨nofun, by simpa [pushAll] using h⟩
  | cons data reads ih =>
    rw [flatten_cons, ← append_assoc] at h
    obtain ⟨hchunk, hnext⟩ := pushChunk_valid h
    obtain ⟨hrest, hheld⟩ := ih hnext
    refine ⟨fun chunk hmem => ?_, hheld⟩
    rcases mem_append.mp hmem with hfirst | hlater
    · exact hchunk chunk hfirst
    · exact hrest chunk hlater

theorem chunks_flatten (reads : List Bytes) : (chunks reads).flatten = reads.flatten := by
  have hall := (pushAll_bytes (a := new) reads (Nat.zero_le 3)).1
  rw [chunks, flatten_append, finish, flatten_nonempty, hall]
  rfl

theorem chunks_valid {reads : List Bytes} (h : Utf8.valid reads.flatten = true) :
    ∀ chunk ∈ chunks reads, Utf8.valid chunk = true := by
  obtain ⟨hchunks, hheld⟩ := pushAll_valid (a := new) reads h
  intro chunk hmem
  rcases mem_append.mp hmem with hearly | hlast
  · exact hchunks chunk hearly
  · exact mem_nonempty hlast ▸ hheld

end Utf8ChunkAccumulator

namespace OutputBuffer

def ValidLines (b : OutputBuffer) : Prop := ∀ line ∈ b.lines, Utf8.valid line = true

theorem lead_newline : Utf8.lead newline = some 1 := by decide

theorem valid_newline : Utf8.valid [newline] = true := Utf8.valid_iff.mpr ⟨['\n'], by decide⟩

theorem validLines_append {front lines : List Bytes}
    (hfront : ∀ line ∈ front, Utf8.valid line = true)
    (hlines : ∀ line ∈ lines, Utf8.valid line = true) :
    ∀ line ∈ front ++ lines, Utf8.valid line = true := fun line hline =>
  (mem_append.mp hline).elim (hfront line) (hlines line)

theorem valid_of_intercalate (lines : List Bytes)
    (h : Utf8.valid ([newline].intercalate lines) = true) :
    ∀ line ∈ lines, Utf8.valid line = true := by
  induction lines with
  | nil => exact nofun
  | cons line lines ih =>
    cases lines with
    | nil => exact forall_mem_singleton.mpr (by simpa [List.intercalate] using h)
    | cons next rest =>
      have hsplit : [newline].intercalate (line :: next :: rest) =
          line ++ newline :: [newline].intercalate (next :: rest) := by
        simp [List.intercalate]
      rw [hsplit] at h
      obtain ⟨hline, -, hrest⟩ := Utf8.valid_ascii h lead_newline
      exact forall_mem_cons.mpr ⟨hline, ih hrest⟩

theorem valid_of_findIdx {data : Bytes} {pos : Nat} (h : Utf8.valid data = true)
    (hpos : data.findIdx? (· = newline) = some pos) :
    Utf8.valid (data.take (pos + 1)) = true ∧ Utf8.valid (data.drop (pos + 1)) = true := by
  obtain ⟨hlt, hnewline, -⟩ := List.findIdx?_eq_some_iff_getElem.mp hpos
  have hbyte : data[pos] = newline := by simpa using hnewline
  have hsplit : data.take pos ++ newline :: data.drop (pos + 1) = data := by
    rw [← hbyte, getElem_cons_drop, take_append_drop]
  rw [← hsplit] at h
  obtain ⟨hfront, hmiddle, hback⟩ := Utf8.valid_ascii h lead_newline
  refine ⟨?_, hback⟩
  rw [take_succ_eq_append_getElem hlt, hbyte]
  exact Utf8.valid_append hfront hmiddle

variable {b : OutputBuffer} {data : Bytes}

theorem ValidLines.continueLine (h : b.ValidLines) (hdata : Utf8.valid data = true) :
    (b.continueLine data).1.ValidLines ∧
      ∀ remaining ∈ (b.continueLine data).2, Utf8.valid remaining = true := by
  have hwhole : ∀ remaining ∈ some data, Utf8.valid remaining = true := fun remaining hmem =>
    Option.some.inj hmem ▸ hdata
  have hcontinued : ∀ lastLine, b.lines.getLast? = some lastLine → ∀ more,
      Utf8.valid more = true →
      ∀ line ∈ b.lines.dropLast ++ [lastLine ++ more], Utf8.valid line = true := by
    intro lastLine hlast more hmore
    refine validLines_append (fun line hline => h line (dropLast_subset _ hline)) ?_
    exact forall_mem_singleton.mpr (Utf8.valid_append (h lastLine (mem_of_getLast? hlast)) hmore)
  unfold OutputBuffer.continueLine
  split
  · split
    · rename_i lastLine hlast
      split
      · rename_i newlinePos hpos
        obtain ⟨hfront, hback⟩ := valid_of_findIdx hdata hpos
        exact ⟨hcontinued lastLine hlast _ hfront,
          fun remaining hmem => Option.some.inj hmem ▸ hback⟩
      · exact ⟨hcontinued lastLine hlast data hdata, nofun⟩
    · exact ⟨h, hwhole⟩
  · exact ⟨h, hwhole⟩

theorem ValidLines.pushBack (h : b.ValidLines) {line : Bytes} (hline : Utf8.valid line = true) :
    (b.pushBack line).ValidLines :=
  validLines_append h (forall_mem_singleton.mpr hline)

theorem ValidLines.pushLines {endsWithNewline : Bool} (h : b.ValidLines) {lines : List Bytes}
    (hlines : ∀ line ∈ lines, Utf8.valid line = true) :
    (OutputBuffer.pushLines endsWithNewline b lines).ValidLines := by
  induction lines generalizing b with
  | nil => exact h
  | cons line lines ih =>
    have hline := hlines line mem_cons_self
    cases lines with
    | nil =>
      unfold OutputBuffer.pushLines
      split
      · exact h
      split
      · exact h.pushBack (Utf8.valid_append hline valid_newline)
      · exact h.pushBack hline
    | cons next rest =>
      exact ih (h.pushBack (Utf8.valid_append hline valid_newline))
        fun l hl => hlines l (mem_cons_of_mem line hl)

theorem ValidLines.trim {lines : List Bytes} (h : ∀ line ∈ lines, Utf8.valid line = true)
    (totalSize : Nat) (lastLineIncomplete : Bool) :
    (OutputBuffer.trim lines totalSize lastLineIncomplete).ValidLines := by
  induction lines generalizing totalSize lastLineIncomplete with
  | nil =>
    unfold OutputBuffer.trim
    split <;> simp [OutputBuffer.ValidLines]
  | cons removed lines ih =>
    unfold OutputBuffer.trim
    split
    · exact ih (fun line hline => h line (mem_cons_of_mem removed hline)) _ _
    · exact h

theorem ValidLines.append (h : b.ValidLines) (hdata : Utf8.valid data = true) :
    (b.append data).ValidLines := by
  unfold OutputBuffer.append
  split
  · exact h
  · obtain ⟨hlines, hremaining⟩ := h.continueLine hdata
    rcases hres : b.continueLine data with ⟨b', _ | remaining⟩
    · rw [hres] at hlines
      exact hlines
    · rw [hres] at hlines hremaining
      have hpieces : ∀ line ∈ remaining.splitOn newline, Utf8.valid line = true :=
        valid_of_intercalate _ (by
          rw [intercalate_splitOn]
          exact hremaining remaining rfl)
      exact ValidLines.trim (hlines.pushLines hpieces) _ _

theorem ValidLines.appends (h : b.ValidLines) {chunks : List Bytes}
    (hchunks : ∀ chunk ∈ chunks, Utf8.valid chunk = true) :
    (chunks.foldl OutputBuffer.append b).ValidLines := by
  induction chunks generalizing b with
  | nil => exact h
  | cons chunk chunks ih =>
    exact ih (h.append (hchunks chunk mem_cons_self))
      fun c hc => hchunks c (mem_cons_of_mem chunk hc)

theorem alignOffset_eq (front tails back : Bytes) {skips : Nat} (hskips : tails.length ≤ skips)
    (htails : ∀ t ∈ tails, isContinuation t = true)
    (hback : ∀ b, back.head? = some b → isContinuation b = false) :
    alignOffset (front ++ (tails ++ back)) skips front.length = front.length + tails.length := by
  induction tails generalizing front skips with
  | nil =>
    cases skips with
    | zero => rfl
    | succ skips =>
      have hget : (front ++ ([] ++ back))[front.length]? = back.head? := by
        rw [nil_append, List.getElem?_append_right (Nat.le_refl _), Nat.sub_self,
          List.head?_eq_getElem?]
      unfold alignOffset
      rw [hget]
      cases hhead : back.head? with
      | none => rfl
      | some b =>
        dsimp only
        rw [hback b hhead]
        rfl
  | cons t tails ih =>
    obtain ⟨skips, rfl⟩ : ∃ k, skips = k + 1 := ⟨skips - 1, by simp at hskips; omega⟩
    have hget : (front ++ (t :: tails ++ back))[front.length]? = some t := by
      rw [List.getElem?_append_right (Nat.le_refl _), Nat.sub_self]
      rfl
    have hfewer : tails.length ≤ skips := by simpa using hskips
    have hnext := ih (front ++ [t]) hfewer (fun u hu => htails u (mem_cons_of_mem t hu))
    have hsame : front ++ [t] ++ (tails ++ back) = front ++ (t :: tails ++ back) := by simp
    rw [hsame, length_append, length_singleton] at hnext
    unfold alignOffset
    rw [hget]
    dsimp only
    rw [if_pos (htails t mem_cons_self), hnext, length_cons]
    omega

theorem valid_drop_alignOffset {line : Bytes} (h : Utf8.valid line = true) {offset : Nat}
    (hoffset : offset ≤ line.length) :
    Utf8.valid (line.drop (alignOffset line 3 offset)) = true := by
  obtain ⟨cs, hcs⟩ := Utf8.valid_iff.mp h
  have hcut : line.take offset ++ line.drop offset = Utf8.bytes cs := by
    rw [take_append_drop, hcs]
  have hlength : (line.take offset).length = offset := length_take_of_le hoffset
  have hhead : ∀ {ds : List Char} b, (Utf8.bytes ds).head? = some b → isContinuation b = false :=
    fun b hb => (Utf8ChunkAccumulator.isContinuation_eq b).trans (Utf8.isTail_head hb)
  -- behind the offset stand bytes that continue a character, and then whole characters
  have halign : ∀ (tails : Bytes) (ds : List Char), tails.length ≤ 3 →
      (∀ t ∈ tails, isContinuation t = true) → line.drop offset = tails ++ Utf8.bytes ds →
      Utf8.valid (line.drop (alignOffset line 3 offset)) = true := by
    intro tails ds hshort htails hdrop
    have hline : line = line.take offset ++ (tails ++ Utf8.bytes ds) := by
      rw [← hdrop, take_append_drop]
    have hoff := alignOffset_eq (line.take offset) tails (Utf8.bytes ds) hshort htails hhead
    rw [← hline, hlength] at hoff
    rw [hoff, ← drop_drop, hdrop, drop_left]
    exact Utf8.valid_iff.mpr ⟨ds, rfl⟩
  obtain ⟨front, back, p, -, -, hback, hcase⟩ := Utf8.exists_cut hcut
  cases p with
  | nil => exact halign [] back (Nat.zero_le 3) nofun hback
  | cons a p =>
    rcases hcase with hnil | ⟨c, rest, q, rfl, hc, -⟩
    · cases hnil
    · obtain ⟨b', bs, hc', hlead, hbs⟩ := Utf8.utf8EncodeChar_eq c
      obtain ⟨-, rfl⟩ := List.cons.inj (hc.symm.trans hc')
      have hfour := (Utf8ChunkAccumulator.seqLen_of_lead hlead).1
      rw [Utf8.bytes_cons, hc, append_assoc] at hback
      refine halign q rest ?_ (fun t ht => ?_) (append_cancel_left hback)
      · simp at hfour
        omega
      · rw [Utf8ChunkAccumulator.isContinuation_eq]
        exact hbs t (mem_append_right _ ht)

theorem valid_recentChunks {maxBytes : Nat} (older chunks : List Bytes) (size : Nat)
    (holder : ∀ line ∈ older, Utf8.valid line = true)
    (hchunks : ∀ chunk ∈ chunks, Utf8.valid chunk = true) :
    ∀ chunk ∈ recentChunks maxBytes older chunks size, Utf8.valid chunk = true := by
  induction older generalizing chunks size with
  | nil => exact hchunks
  | cons line older ih =>
    have hline := holder line mem_cons_self
    unfold recentChunks
    split
    · split
      · dsimp only
        split
        · exact forall_mem_cons.mpr
            ⟨valid_drop_alignOffset hline (Nat.sub_le _ _), hchunks⟩
        · exact hchunks
      · exact hchunks
    · exact ih _ _ (fun l hl => holder l (mem_cons_of_mem line hl))
        (forall_mem_cons.mpr ⟨hline, hchunks⟩)

theorem ValidLines.getRecent (h : b.ValidLines) (maxBytes : Nat) :
    Utf8.valid (b.getRecent maxBytes) = true := by
  unfold OutputBuffer.getRecent
  split
  · exact Utf8.valid_nil
  · exact Utf8.valid_flatten (valid_recentChunks _ _ _
      (fun line hline => h line (mem_reverse.mp hline)) nofun)

end OutputBuffer

open Utf8ChunkAccumulator OutputBuffer

/-- **Terminal output is kept, in whole characters.**  However a stream is cut into reads, the
chunks are the stream, and never more than three bytes are held back.  If the stream is the
encoding of a text, so is every chunk.  After some of the chunks have been appended to an output
buffer, what is replayed is a suffix of them, no longer than asked for, and again an encoding. -/
theorem output_in_whole_characters (reads : List Bytes) :
    (chunks reads).flatten = reads.flatten ∧
    (∀ pre, pre <+: reads → (pushAll .new pre).2.remainder.length ≤ 3) ∧
    (Utf8.valid reads.flatten = true → ∀ chunk ∈ chunks reads, Utf8.valid chunk = true) ∧
    ∀ appended, appended <+: chunks reads → ∀ maxBytes,
      let recent := (appended.foldl append .new).getRecent maxBytes
      recent <:+ appended.flatten ∧ recent.length ≤ maxBytes ∧
        (Utf8.valid reads.flatten = true → Utf8.valid recent = true) := by
  have hheld : ∀ pre, (pushAll .new pre).2.remainder.length ≤ 3 :=
    fun pre => (pushAll_bytes (a := Utf8ChunkAccumulator.new) pre (Nat.zero_le 3)).2
  refine ⟨chunks_flatten reads, fun pre _ => hheld pre, chunks_valid,
    fun appended happended maxBytes => ⟨?_, getRecent_length _ _, fun hvalid => ?_⟩⟩
  · exact (getRecent_suffix _ _).trans (appends_suffix OutputBuffer.new appended)
  · have hlines : OutputBuffer.new.ValidLines := nofun
    exact (hlines.appends fun chunk hchunk =>
      chunks_valid hvalid chunk (happended.subset hchunk)).getRecent maxBytes

/-- Two characters in three reads; a replay of five bytes leaves the first one out. -/
theorem output_in_whole_characters_two :
    let reads : List Bytes := [[0xE4], [0xB8, 0xAD, 0xF0, 0x9F], [0x98, 0x80]]
    (∀ chunk ∈ chunks reads, Utf8.valid chunk = true) ∧
      Utf8.valid (((chunks reads).foldl append .new).getRecent 5) = true := by
  intro reads
  have hvalid : Utf8.valid reads.flatten = true := Utf8.valid_iff.mpr ⟨['中', '😀'], by decide⟩
  obtain ⟨-, -, hchunks, hrecent⟩ := output_in_whole_characters reads
  exact ⟨hchunks hvalid, (hrecent _ (prefix_refl _) 5).2.2 hvalid⟩

end RustDesk.Terminal
