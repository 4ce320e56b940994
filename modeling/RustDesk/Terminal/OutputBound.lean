import RustDesk.Lib.Run
import RustDesk.Terminal.OutputBuffer

/-!
# The bound of the output buffer

`append` drops old lines when there are too many lines or bytes, but it returns before that when
it continues an incomplete line without ending it.  So output without a newline grows without
a bound.

`bounded_iff`: the buffer stays within its bounds exactly as long as no chunk of that kind takes
the last line past them.
-/

namespace RustDesk.Terminal.OutputBuffer

open Run List

/-- Within `MAX_OUTPUT_BUFFER_SIZE` and `MAX_BUFFER_LINES`. -/
def Bounded (b : OutputBuffer) : Prop :=
  b.totalSize ≤ maxOutputBufferSize ∧ b.lines.length ≤ maxBufferLines

/-- What continues a line without ending it fits in the buffer. -/
def Fits (b : OutputBuffer) (data : Bytes) : Prop :=
  b.lastLineIncomplete = true → b.lines ≠ [] → newline ∉ data →
    b.totalSize + data.length ≤ maxOutputBufferSize

variable {b : OutputBuffer} {data : Bytes}

theorem bounded_trim (lines : List Bytes) (totalSize : Nat) (lastLineIncomplete : Bool) :
    (trim lines totalSize lastLineIncomplete).Bounded := by
  induction lines generalizing totalSize lastLineIncomplete with
  | nil =>
    unfold trim
    split
    · exact ⟨Nat.zero_le _, Nat.zero_le _⟩
    · exact ⟨Nat.le_of_not_lt ‹_›, Nat.zero_le _⟩
  | cons removed lines ih =>
    unfold trim
    split
    · exact ih _ _
    · rename_i hroom
      exact ⟨Nat.le_of_not_lt fun h => hroom (.inl h), Nat.le_of_not_lt fun h => hroom (.inr h)⟩

theorem continueLine_cases (b : OutputBuffer) (data : Bytes) :
    (b.lastLineIncomplete = true ∧ b.lines ≠ [] ∧ newline ∉ data ∧ ∃ lines,
      b.continueLine data = (⟨lines, b.totalSize + data.length, true⟩, none) ∧
        lines.length = b.lines.length) ∨
    (¬(b.lastLineIncomplete = true ∧ b.lines ≠ [] ∧ newline ∉ data) ∧ ∃ b' remaining,
      b.continueLine data = (b', some remaining)) := by
  unfold continueLine
  by_cases hincomplete : b.lastLineIncomplete = true
  · rw [if_pos hincomplete]
    cases hlast : b.lines.getLast? with
    | none =>
      have hnil : b.lines = [] := List.getLast?_eq_none_iff.mp hlast
      exact .inr ⟨fun h => h.2.1 hnil, _, _, rfl⟩
    | some lastLine =>
      obtain ⟨front, hlines⟩ := List.getLast?_eq_some_iff.mp hlast
      cases hpos : data.findIdx? (· = newline) with
      | none =>
        have hnone : newline ∉ data := fun hmem => by
          have hall := List.findIdx?_eq_none_iff.mp hpos newline hmem
          simp at hall
        refine .inl ⟨hincomplete, by simp [hlines], hnone, front ++ [lastLine ++ data], ?_,
          by simp [hlines]⟩
        rw [hlines, dropLast_concat, hincomplete]
      | some newlinePos =>
        refine .inr ⟨fun h => h.2.2 ?_, _, _, rfl⟩
        obtain ⟨hlt, hnewline, -⟩ := List.findIdx?_eq_some_iff_getElem.mp hpos
        have hbyte : data[newlinePos] = newline := by simpa using hnewline
        exact hbyte ▸ getElem_mem hlt
  · rw [if_neg hincomplete]
    exact .inr ⟨fun h => hincomplete h.1, _, _, rfl⟩

theorem append_cases (b : OutputBuffer) (data : Bytes) :
    (data = [] ∧ b.append data = b) ∨
    (b.lastLineIncomplete = true ∧ b.lines ≠ [] ∧ newline ∉ data ∧ ∃ lines,
      b.append data = ⟨lines, b.totalSize + data.length, true⟩ ∧ lines.length = b.lines.length) ∨
    (¬(b.lastLineIncomplete = true ∧ b.lines ≠ [] ∧ newline ∉ data) ∧ (b.append data).Bounded) := by
  by_cases hempty : data = []
  · exact .inl ⟨hempty, by rw [append, if_pos hempty]⟩
  right
  rcases continueLine_cases b data with ⟨hincomplete, hsome, hnone, lines, heq, hlength⟩ |
    ⟨hother, b', remaining, heq⟩
  · refine .inl ⟨hincomplete, hsome, hnone, lines, ?_, hlength⟩
    rw [append, if_neg hempty, heq]
  · refine .inr ⟨hother, ?_⟩
    rw [append, if_neg hempty, heq]
    exact bounded_trim _ _ _

theorem bounded_append (hb : b.Bounded) : (b.append data).Bounded ↔ b.Fits data := by
  rcases append_cases b data with ⟨hempty, hsame⟩ |
    ⟨hincomplete, hsome, hnone, lines, heq, hlength⟩ | ⟨hother, hbounded⟩
  · rw [hsame]
    refine iff_of_true hb fun _ _ _ => ?_
    rw [hempty]
    exact hb.1
  · rw [heq, Bounded, hlength]
    exact ⟨fun h _ _ _ => h.1, fun h => ⟨h hincomplete hsome hnone, hb.2⟩⟩
  · exact iff_of_true hbounded fun hincomplete hsome hnone =>
      absurd ⟨hincomplete, hsome, hnone⟩ hother

/-- **The buffer stays within its bounds exactly as long as every chunk fits.** -/
theorem bounded_iff (chunks : List Bytes) :
    Always append Bounded new chunks ↔ Along append Fits new chunks :=
  always_iff_along (J := fun _ _ => True) (W := fun _ _ => True) (N := chunks.length) (n := 0)
    (fun _ _ _ _ _ => trivial) (fun _ _ _ _ _ _ hb => bounded_append hb)
    (Nat.le_of_eq (Nat.zero_add _)) trivial ⟨Nat.zero_le _, Nat.zero_le _⟩
    (along_of_forall (fun _ _ => trivial) _ _)

theorem totalSize_of_no_newline {chunks : List Bytes} (hb : b.lastLineIncomplete = true)
    (hlines : b.lines ≠ []) (h : ∀ chunk ∈ chunks, newline ∉ chunk) :
    (exec append b chunks).totalSize = b.totalSize + (chunks.map List.length).sum := by
  induction chunks generalizing b with
  | nil => rfl
  | cons chunk chunks ih =>
    have hchunk := h chunk mem_cons_self
    have hrest : ∀ c ∈ chunks, newline ∉ c := fun c hc => h c (mem_cons_of_mem chunk hc)
    rw [exec_cons, map_cons, sum_cons]
    rcases append_cases b chunk with ⟨hempty, hsame⟩ | ⟨-, -, -, lines, heq, hlength⟩ | ⟨hother, -⟩
    · rw [hsame, ih hb hlines hrest, hempty]
      simp
    · have hsome : lines ≠ [] := fun hnil => by
        rw [hnil] at hlength
        exact hlines (length_eq_zero_iff.mp hlength.symm)
      rw [heq, ih rfl hsome hrest, Nat.add_assoc]
    · exact absurd ⟨hb, hlines, hchunk⟩ hother

/-- **A megabyte of output without a newline**, in reads of 4096 bytes behind a first one. -/
theorem unbounded_without_newline : ¬∀ chunks : List Bytes, Always append Bounded new chunks := by
  intro h
  have hlast := (h ([97] :: List.replicate 256 (List.replicate 4096 97))).last
  have hnone : ∀ chunk ∈ List.replicate 256 (List.replicate 4096 97), newline ∉ chunk := by
    intro chunk hchunk
    rw [eq_of_mem_replicate hchunk]
    exact fun hmem => absurd (eq_of_mem_replicate hmem) (by decide)
  have hsize := totalSize_of_no_newline (b := new.append [97]) rfl (by decide) hnone
  have hbound := hlast.1
  rw [exec_cons, hsize, map_replicate, length_replicate] at hbound
  exact absurd hbound (by decide +kernel)

end RustDesk.Terminal.OutputBuffer
