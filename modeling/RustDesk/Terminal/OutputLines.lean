import RustDesk.Lib.Pieces
import RustDesk.Terminal.OutputBound

/-!
# The lines of the output buffer

`append` keeps the size of all lines and a flag for an incomplete last line beside the lines.
Two branches of its loop that trims only log an error: the line removed is longer than all
lines together, or there is no line left.

`Formed` is what holds of the three fields together.  Continuing a line, each line pushed and
each line removed keep it, in every order (`Formed.append`), and from a buffer of this form
the loop reaches neither branch (`trim_spec`).
-/

namespace RustDesk.Terminal.OutputBuffer

open Run List

/-- What `append` logs as an error. -/
inductive TrimError where
  | underflowAvoided
  | invariantBroken

/-- The errors that the loop of `trim` logs. -/
def trimErrors : List Bytes → Nat → List TrimError
  | [], totalSize => if totalSize > maxOutputBufferSize then [.invariantBroken] else []
  | removed :: lines, totalSize =>
    if totalSize > maxOutputBufferSize ∨ (removed :: lines).length > maxBufferLines then
      if removed.length > totalSize then
        .underflowAvoided :: trimErrors lines (lines.map List.length).sum
      else trimErrors lines (totalSize - removed.length)
    else []

/-- The errors that `append` logs. -/
def appendErrors (b : OutputBuffer) (data : Bytes) : List TrimError :=
  if data = [] then []
  else
    match b.continueLine data with
    | (_, none) => []
    | (b, some remaining) =>
      let b := pushLines (remaining.getLast? = some newline) b (remaining.splitOn newline)
      trimErrors b.lines b.totalSize

/-- **The form of the buffer.** -/
structure Formed (b : OutputBuffer) : Prop where
  totalSize : b.totalSize = (b.lines.map List.length).sum
  newline_last : ∀ line ∈ b.lines, newline ∉ line.dropLast
  complete : ∀ line ∈ b.lines.dropLast, line.getLast? = some newline
  incomplete : b.lastLineIncomplete = true ↔
    ∃ lastLine, b.lines.getLast? = some lastLine ∧ lastLine.getLast? ≠ some newline

variable {b : OutputBuffer} {line : Bytes}

theorem formed_new : new.Formed := ⟨rfl, by simp [new], by simp [new], by simp [new]⟩

theorem Formed.all_complete (h : b.Formed) (hflag : b.lastLineIncomplete = false)
    (hline : line ∈ b.lines) : line.getLast? = some newline := by
  obtain ⟨front, lastLine, hlines⟩ := (eq_nil_or_concat' b.lines).resolve_left (ne_nil_of_mem hline)
  rw [hlines] at hline
  rcases mem_append.mp hline with hfront | hlast
  · exact h.complete line (by rwa [hlines, dropLast_concat])
  · rw [mem_singleton.mp hlast]
    by_contra hopen
    have hset := h.incomplete.mpr ⟨lastLine, by rw [hlines, List.getLast?_concat], hopen⟩
    rw [hflag] at hset
    cases hset

variable {lines : List Bytes} {totalSize : Nat}

theorem Formed.concat (hsize : totalSize = (lines.map List.length).sum)
    (hlast : ∀ l ∈ lines, newline ∉ l.dropLast) (hcomplete : ∀ l ∈ lines, l.getLast? = some newline)
    (hline : newline ∉ line.dropLast) :
    Formed ⟨lines ++ [line], totalSize + line.length, decide (line.getLast? ≠ some newline)⟩ := by
  refine ⟨by simp [hsize], ?_, ?_, ?_⟩
  · intro l hl
    rcases mem_append.mp hl with hl | hl
    · exact hlast l hl
    · rwa [mem_singleton.mp hl]
  · simpa using hcomplete
  · simp

theorem Formed.pushBack (h : b.Formed) (hflag : b.lastLineIncomplete = false)
    (hline : newline ∉ line) : (b.pushBack (line ++ [newline])).Formed := by
  have hnew := Formed.concat h.totalSize h.newline_last (fun _ => h.all_complete hflag)
    (show newline ∉ (line ++ [newline]).dropLast by simpa using hline)
  simpa [OutputBuffer.pushBack, hflag] using hnew

theorem Formed.pushLines (endsWithNewline : Bool) (h : b.Formed)
    (hflag : b.lastLineIncomplete = false) (hlines : ∀ line ∈ lines, newline ∉ line) :
    (OutputBuffer.pushLines endsWithNewline b lines).Formed := by
  induction lines generalizing b with
  | nil => exact h
  | cons line lines ih =>
    have hline := hlines line mem_cons_self
    cases lines with
    | nil =>
      rw [OutputBuffer.pushLines]
      split
      · exact h
      split
      · exact h.pushBack hflag hline
      · have hopen : line.getLast? ≠ some newline := fun hlast =>
          hline (mem_of_getLast? hlast)
        have hnew := Formed.concat h.totalSize h.newline_last (fun _ => h.all_complete hflag)
          fun hmem => hline (dropLast_subset line hmem)
        simpa [OutputBuffer.pushBack, hopen] using hnew
    | cons next rest =>
      rw [OutputBuffer.pushLines]
      exact ih (h.pushBack hflag hline) hflag fun l hl => hlines l (mem_cons_of_mem _ hl)

theorem notMem_of_open (hlast : newline ∉ line.dropLast) (hopen : line.getLast? ≠ some newline) :
    newline ∉ line := by
  intro hmem
  obtain ⟨body, last, rfl⟩ := (eq_nil_or_concat' line).resolve_left (ne_nil_of_mem hmem)
  rw [dropLast_concat] at hlast
  rw [List.getLast?_concat] at hopen
  rcases mem_append.mp hmem with hbody | hend
  · exact hlast hbody
  · exact hopen (by rw [mem_singleton.mp hend])

theorem Formed.extend {front : List Bytes} {lastLine data : Bytes} (h : b.Formed)
    (hlines : b.lines = front ++ [lastLine]) (hopen : lastLine.getLast? ≠ some newline)
    (hdata : newline ∉ data.dropLast) :
    Formed ⟨front ++ [lastLine ++ data], b.totalSize + data.length,
      decide ((lastLine ++ data).getLast? ≠ some newline)⟩ := by
  have hfront : ∀ l ∈ front, l ∈ b.lines := fun l hl => by simp [hlines, hl]
  have hclean : newline ∉ lastLine :=
    notMem_of_open (h.newline_last lastLine (by simp [hlines])) hopen
  have hjoined : newline ∉ (lastLine ++ data).dropLast := by
    rw [dropLast_append]
    split
    · exact fun hin => hclean (dropLast_subset _ hin)
    · simp [hclean, hdata]
  have hnew := Formed.concat rfl (fun l hl => h.newline_last l (hfront l hl))
    (by simpa [hlines] using h.complete) hjoined
  have hsize : b.totalSize + data.length =
      (front.map List.length).sum + (lastLine ++ data).length := by
    rw [h.totalSize, hlines]
    simp [Nat.add_assoc]
  rwa [hsize]

theorem Formed.continueLine (h : b.Formed) (data : Bytes) :
    (b.continueLine data).1.Formed ∧ ((b.continueLine data).2 ≠ none →
      (b.continueLine data).1.lastLineIncomplete = false) := by
  unfold OutputBuffer.continueLine
  split
  · rename_i hflag
    obtain ⟨lastLine, hlast, hopen⟩ := h.incomplete.mp hflag
    obtain ⟨front, hlines⟩ := List.getLast?_eq_some_iff.mp hlast
    rw [hlast, hlines, dropLast_concat]
    cases hpos : data.findIdx? (· = newline) with
    | none =>
      have hnone : newline ∉ data := fun hin => by
        have hall := List.findIdx?_eq_none_iff.mp hpos newline hin
        simp at hall
      have hnew := h.extend hlines hopen fun hin => hnone (dropLast_subset _ hin)
      have hends : (lastLine ++ data).getLast? ≠ some newline := by
        rw [List.getLast?_append]
        cases hdata : data.getLast? with
        | none => exact hopen
        | some last =>
          intro heq
          exact hnone (mem_of_getLast? (hdata.trans heq))
      rw [decide_eq_true hends, ← hflag] at hnew
      exact ⟨hnew, fun hsome => absurd rfl hsome⟩
    | some newlinePos =>
      obtain ⟨hlt, hnewline, hbefore⟩ := List.findIdx?_eq_some_iff_getElem.mp hpos
      have htaken : data.take (newlinePos + 1) = data.take newlinePos ++ [newline] := by
        have hbyte : data[newlinePos] = newline := by simpa using hnewline
        rw [take_succ_eq_append_getElem hlt, hbyte]
      have hclean : newline ∉ data.take newlinePos := fun hin => by
        obtain ⟨i, hi, heq⟩ := mem_take_iff_getElem.mp hin
        have hno := hbefore i (by omega)
        simp [heq] at hno
      have hlast : newline ∉ (data.take (newlinePos + 1)).dropLast := by
        rwa [htaken, dropLast_concat]
      have hnew := h.extend hlines hopen hlast
      have hends : (lastLine ++ data.take (newlinePos + 1)).getLast? = some newline := by
        rw [htaken, ← append_assoc, List.getLast?_concat]
      rw [decide_eq_false (fun hne => hne hends), length_take, Nat.min_eq_left (by omega)] at hnew
      exact ⟨hnew, fun _ => rfl⟩
  · rename_i hflag
    exact ⟨h, fun _ => by simpa using hflag⟩

theorem Formed.tail {lastLineIncomplete : Bool}
    (h : Formed ⟨line :: lines, totalSize, lastLineIncomplete⟩) : line.length ≤ totalSize ∧
      Formed ⟨lines, totalSize - line.length,
        if lines = [] then false else lastLineIncomplete⟩ := by
  have hsize : totalSize = line.length + (lines.map List.length).sum := h.totalSize
  refine ⟨by omega, by dsimp only; omega, fun l hl => h.newline_last l (mem_cons_of_mem _ hl),
    ?_, ?_⟩
  · intro l hl
    refine h.complete l ?_
    have hne : lines ≠ [] := ne_nil_of_mem (dropLast_subset _ hl)
    rw [dropLast_cons_of_ne_nil hne]
    exact mem_cons_of_mem _ hl
  · have hflag := h.incomplete
    split
    · rename_i hnil
      simp [hnil]
    · rename_i hne
      rwa [List.getLast?_cons_of_ne_nil hne] at hflag

theorem trim_spec {lastLineIncomplete : Bool} (h : Formed ⟨lines, totalSize, lastLineIncomplete⟩) :
    Formed (trim lines totalSize lastLineIncomplete) ∧ trimErrors lines totalSize = [] := by
  induction lines generalizing totalSize lastLineIncomplete with
  | nil =>
    obtain rfl : totalSize = 0 := h.totalSize
    exact ⟨h, rfl⟩
  | cons removed lines ih =>
    obtain ⟨hle, htail⟩ := h.tail
    have hrest := ih htail
    rw [trim, trimErrors, if_neg (Nat.not_lt.mpr hle), if_neg (Nat.not_lt.mpr hle)]
    split
    · exact hrest
    · exact ⟨h, rfl⟩

theorem Formed.append (h : b.Formed) (data : Bytes) :
    (b.append data).Formed ∧ b.appendErrors data = [] := by
  unfold OutputBuffer.append appendErrors
  split
  · exact ⟨h, rfl⟩
  · have hcontinued := h.continueLine data
    rcases hres : b.continueLine data with ⟨b', _ | remaining⟩
    · rw [hres] at hcontinued
      exact ⟨hcontinued.1, rfl⟩
    · rw [hres] at hcontinued
      exact trim_spec (hcontinued.1.pushLines _ (hcontinued.2 (Option.some_ne_none _))
        fun l hl => Pieces.notMem_of_mem_splitOn hl)

/-- **The lines after any output.**  The fields of the buffer agree, its lines are the end of what
was appended, and no call of `append` reaches a branch that logs an error. -/
theorem formed_of_appends (chunks : List Bytes) : (exec append new chunks).Formed ∧
    (exec append new chunks).content <:+ chunks.flatten ∧
    ∀ data, (exec append new chunks).appendErrors data = [] := by
  have hformed := (always_of_step (fun b data (h : b.Formed) => (h.append data).1)
    formed_new chunks).last
  exact ⟨hformed, appends_suffix new chunks, fun data => (hformed.append data).2⟩

end RustDesk.Terminal.OutputBuffer
