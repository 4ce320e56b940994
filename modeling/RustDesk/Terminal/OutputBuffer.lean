import Mathlib.Algebra.GroupWithZero.Nat
import RustDesk.Basic

/-!
# The output buffer of a terminal

`OutputBuffer` keeps the recent output of a terminal as lines.  A chunk that does not end
with a newline leaves an incomplete line, which the next chunk continues.  Old lines are
dropped when there are too many lines or bytes.

Whatever is dropped is dropped from the front: the lines are a suffix of what was
appended (`append_suffix`), and what is replayed is a suffix of the lines
(`getRecent_suffix`) that is no longer than asked for (`getRecent_length`).
-/

namespace RustDesk.Terminal

open List

def maxOutputBufferSize : Nat := 1024 * 1024

def maxBufferLines : Nat := 10000

/-- The byte `\n`. -/
def newline : UInt8 := 10

structure OutputBuffer where
  lines : List Bytes
  totalSize : Nat
  lastLineIncomplete : Bool

namespace OutputBuffer

def new : OutputBuffer := ⟨[], 0, false⟩

def content (b : OutputBuffer) : Bytes := b.lines.flatten

/-- The first part of `append`: the incomplete last line is continued.  The data left;
`none` if there was no newline and `append` returns. -/
def continueLine (b : OutputBuffer) (data : Bytes) : OutputBuffer × Option Bytes :=
  if b.lastLineIncomplete then
    match b.lines.getLast? with
    | some lastLine =>
      match data.findIdx? (· = newline) with
      | some newlinePos =>
        ({ lines := b.lines.dropLast ++ [lastLine ++ data.take (newlinePos + 1)]
           totalSize := b.totalSize + (newlinePos + 1)
           lastLineIncomplete := false }, some (data.drop (newlinePos + 1)))
      | none =>
        ({ b with
           lines := b.lines.dropLast ++ [lastLine ++ data]
           totalSize := b.totalSize + data.length }, none)
    | none => (b, some data)
  else (b, some data)

/-- `push_back` of a line. -/
def pushBack (b : OutputBuffer) (line : Bytes) : OutputBuffer :=
  { b with lines := b.lines ++ [line], totalSize := b.totalSize + line.length }

/-- The loop of `append` over the pieces between newlines; only the last piece may be
without its newline. -/
def pushLines (endsWithNewline : Bool) : OutputBuffer → List Bytes → OutputBuffer
  | b, [] => b
  | b, [line] =>
    if line = [] then b
    else if endsWithNewline then b.pushBack (line ++ [newline])
    else { b.pushBack line with lastLineIncomplete := true }
  | b, line :: next :: rest =>
    pushLines endsWithNewline (b.pushBack (line ++ [newline])) (next :: rest)

def trim : List Bytes → Nat → Bool → OutputBuffer
  | [], totalSize, lastLineIncomplete =>
    if totalSize > maxOutputBufferSize then ⟨[], 0, false⟩
    else ⟨[], totalSize, lastLineIncomplete⟩
  | removed :: lines, totalSize, lastLineIncomplete =>
    if totalSize > maxOutputBufferSize ∨ (removed :: lines).length > maxBufferLines then
      trim lines
        (if removed.length > totalSize then (lines.map List.length).sum
          else totalSize - removed.length)
        (if lines = [] then false else lastLineIncomplete)
    else ⟨removed :: lines, totalSize, lastLineIncomplete⟩

def append (b : OutputBuffer) (data : Bytes) : OutputBuffer :=
  if data = [] then b
  else
    match b.continueLine data with
    | (b, none) => b
    | (b, some remaining) =>
      let b := pushLines (remaining.getLast? = some newline) b (remaining.splitOn newline)
      trim b.lines b.totalSize b.lastLineIncomplete

/-- The bytes `0b10xxxxxx`, which continue a UTF-8 character. -/
def isContinuation (b : UInt8) : Bool := b &&& 0xC0 = 0x80

/-- The loop that moves an offset forward past continuation bytes; the first argument is
how many may still be skipped. -/
def alignOffset (bytes : Bytes) : Nat → Nat → Nat
  | 0, offset => offset
  | skips + 1, offset =>
    match bytes[offset]? with
    | some b => if isContinuation b then alignOffset bytes skips (offset + 1) else offset
    | none => offset

/-- The loop of `get_recent` from the newest line on; the chunks are kept in
chronological order. -/
def recentChunks (maxBytes : Nat) : List Bytes → List Bytes → Nat → List Bytes
  | [], chunks, _ => chunks
  | line :: older, chunks, size =>
    if size + line.length > maxBytes then
      if size = 0 ∧ line.length > maxBytes then
        let offset := alignOffset line 3 (line.length - maxBytes)
        if offset < line.length then line.drop offset :: chunks else chunks
      else chunks
    else recentChunks maxBytes older (line :: chunks) (size + line.length)

def getRecent (b : OutputBuffer) (maxBytes : Nat) : Bytes :=
  if maxBytes = 0 then [] else (recentChunks maxBytes b.lines.reverse [] 0).flatten

@[simp] theorem content_pushBack (b : OutputBuffer) (line : Bytes) :
    (b.pushBack line).content = b.content ++ line := by
  simp [content, pushBack]

theorem continueLine_content (b : OutputBuffer) (data : Bytes) :
    (b.continueLine data).1.content ++ (b.continueLine data).2.getD [] = b.content ++ data := by
  unfold continueLine
  split
  · cases hlast : b.lines.getLast? with
    | none => rfl
    | some lastLine =>
      obtain ⟨front, hlines⟩ := List.getLast?_eq_some_iff.mp hlast
      cases data.findIdx? (· = newline) with
      | none => simp [content, hlines]
      | some newlinePos => simp [content, hlines]
  · rfl

theorem pushLines_content (endsWithNewline : Bool) (b : OutputBuffer) (lines : List Bytes)
    (h : endsWithNewline = true → lines.getLast? = some []) :
    (pushLines endsWithNewline b lines).content = b.content ++ [newline].intercalate lines := by
  induction lines generalizing b with
  | nil => simp [pushLines, List.intercalate]
  | cons line lines ih =>
    cases lines with
    | nil =>
      cases endsWithNewline with
      | true =>
        obtain rfl : line = [] := by simpa using h rfl
        simp [pushLines]
      | false =>
        by_cases hempty : line = []
        · simp [pushLines, hempty]
        · have hsame : ({ b.pushBack line with lastLineIncomplete := true } :
              OutputBuffer).content = (b.pushBack line).content := rfl
          simp [pushLines, hempty, hsame]
    | cons next rest =>
      have hnext := ih (b.pushBack (line ++ [newline])) (by simpa using h)
      rw [pushLines, hnext]
      simp [List.intercalate]

theorem trim_suffix (lines : List Bytes) (totalSize : Nat) (lastLineIncomplete : Bool) :
    (trim lines totalSize lastLineIncomplete).content <:+ lines.flatten := by
  induction lines generalizing totalSize lastLineIncomplete with
  | nil =>
    unfold trim
    split <;> simp [content]
  | cons removed lines ih =>
    unfold trim
    split
    · refine (ih _ _).trans ?_
      simp
    · simp [content]

theorem splitOn_getLast {data : Bytes} (h : data.getLast? = some newline) :
    (data.splitOn newline).getLast? = some [] := by
  obtain ⟨front, rfl⟩ := List.getLast?_eq_some_iff.mp h
  rw [splitOn_append_cons_self]
  simp

/-- **Appending.**  What is kept after appending is a suffix of what was kept before,
followed by the data. -/
theorem append_suffix (b : OutputBuffer) (data : Bytes) :
    (b.append data).content <:+ b.content ++ data := by
  unfold append
  split
  · rename_i hempty
    simp [hempty]
  · have hcontinued := continueLine_content b data
    rcases hres : b.continueLine data with ⟨b', _ | remaining⟩
    · rw [← hcontinued, hres]
      simp
    · rw [← hcontinued, hres]
      dsimp only
      refine (trim_suffix _ _ _).trans ?_
      have hpushed := pushLines_content (remaining.getLast? = some newline) b'
        (remaining.splitOn newline) (fun h => splitOn_getLast (by simpa using h))
      rw [content] at hpushed
      rw [hpushed, intercalate_splitOn]
      exact suffix_refl _

theorem appends_suffix (b : OutputBuffer) (chunks : List Bytes) :
    (chunks.foldl append b).content <:+ b.content ++ chunks.flatten := by
  induction chunks generalizing b with
  | nil => simp
  | cons chunk chunks ih =>
    have hone := append_suffix b chunk
    obtain ⟨front, hfront⟩ := hone
    refine (ih (b.append chunk)).trans ⟨front, ?_⟩
    rw [← append_assoc, hfront]
    simp

theorem le_alignOffset (line : Bytes) (skips offset : Nat) :
    offset ≤ alignOffset line skips offset := by
  induction skips generalizing offset with
  | zero => exact Nat.le_refl _
  | succ skips ih =>
    unfold alignOffset
    split
    · split
      · exact Nat.le_trans (Nat.le_succ offset) (ih (offset + 1))
      · exact Nat.le_refl _
    · exact Nat.le_refl _

theorem recentChunks_suffix (maxBytes : Nat) (older chunks : List Bytes)
    (hsize : chunks.flatten.length ≤ maxBytes) :
    (recentChunks maxBytes older chunks chunks.flatten.length).flatten
        <:+ (older.reverse ++ chunks).flatten ∧
      (recentChunks maxBytes older chunks chunks.flatten.length).flatten.length ≤ maxBytes := by
  induction older generalizing chunks with
  | nil => simpa [recentChunks] using hsize
  | cons line older ih =>
    have hkept : chunks.flatten <:+ ((line :: older).reverse ++ chunks).flatten := by
      rw [flatten_append]
      exact suffix_append _ _
    unfold recentChunks
    split
    · split
      · -- the newest line alone is too long, and its tail is taken
        rename_i hlong
        have hnone : chunks.flatten = [] := length_eq_zero_iff.mp hlong.1
        have hoffset := le_alignOffset line 3 (line.length - maxBytes)
        dsimp only
        split
        · refine ⟨?_, ?_⟩
          · have htail : line.drop (alignOffset line 3 (line.length - maxBytes)) <:+ line :=
              drop_suffix _ _
            simpa [hnone] using htail.trans (suffix_append _ _)
          · simp only [flatten_cons, hnone, append_nil, length_drop]
            omega
        · exact ⟨hkept, hsize⟩
      · exact ⟨hkept, hsize⟩
    · rename_i hfits
      have hsum : chunks.flatten.length + line.length = (line :: chunks).flatten.length := by
        simp [Nat.add_comm]
      have hnext := ih (line :: chunks) (by omega)
      rw [hsum]
      simpa using hnext

theorem getRecent_suffix (b : OutputBuffer) (maxBytes : Nat) :
    b.getRecent maxBytes <:+ b.content := by
  unfold getRecent
  split
  · simp
  · simpa [content] using (recentChunks_suffix maxBytes b.lines.reverse [] (by simp)).1

theorem getRecent_length (b : OutputBuffer) (maxBytes : Nat) :
    (b.getRecent maxBytes).length ≤ maxBytes := by
  unfold getRecent
  split
  · simp
  · exact (recentChunks_suffix maxBytes b.lines.reverse [] (by simp)).2

end OutputBuffer
end RustDesk.Terminal
