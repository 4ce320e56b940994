import RustDesk.Basic
import RustDesk.Lib.LittleEndian
import RustDesk.Lib.Text
import RustDesk.Lib.Utf8

/-!
# The package of the portable program

The packer writes the files of a folder one behind the other: the length of the path, the path,
the length of the compressed data, the data, and the MD5 in hexadecimal digits.  In front and at
the end stands the marker `rustdesk`, and behind it the path of the executable.  The reader cuts
the bytes again at absolute offsets, and takes the marker for the end where the next length would
stand.

* `read_writePackageMetadata`: **what is packed is read back**, and no slice is out of range, as
  the paths are shorter than 2^30 bytes.
-/

open LittleEndian

namespace RustDesk.Portable

open List

@[ext]
structure Digest where
  octets : Bytes
  size : octets.length = 16

instance : DecidableEq Digest := fun _ _ => decidable_of_iff _ Digest.ext_iff.symm

def hexDigit (n : Nat) : Char := if n < 10 then Char.ofNat (48 + n) else Char.ofNat (87 + n)

def hexByte (b : UInt8) : Text := [hexDigit (b.toNat / 16), hexDigit (b.toNat % 16)]

/-- `hexdigest` of Python, and `{:x}` of Rust. -/
def Digest.hex (d : Digest) : Text := d.octets.flatMap hexByte

structure Packed where
  path : Text
  compressedData : Bytes
  md5Code : Bytes

section

variable (compress : Bytes → Bytes) (md5 : Bytes → Digest)

/-- `generate_md5_table`, of the files that `os.walk` finds. -/
def generateMd5Table (files : List (Text × Bytes)) : List Packed :=
  files.map fun file => ⟨file.1, compress file.2, Utf8.bytes (md5 file.2).hex⟩

end

/-- `rustdesk`. -/
def identifier : Text := ['r', 'u', 's', 't', 'd', 'e', 's', 'k']

/-- `to_bytes` with four bytes, the highest first. -/
def toBytes (n : Nat) : Option Bytes := if n < 2 ^ 32 then some (leBytes n 4).reverse else none

def Packed.write (row : Packed) : Option Bytes := do
  let pathLength ← toBytes (Utf8.bytes row.path).length
  let dataLength ← toBytes row.compressedData.length
  some (pathLength ++ Utf8.bytes row.path ++ dataLength ++ row.compressedData ++ row.md5Code)

def writePackageMetadata (table : List Packed) (exe : Text) : Option Bytes := do
  let rows ← table.mapM Packed.write
  some (Utf8.bytes identifier ++ rows.flatten ++ Utf8.bytes identifier ++ Utf8.bytes exe)

structure BinaryData where
  md5Code : Bytes
  raw : Bytes
  path : Text

def slice (data : Bytes) (start stop : Nat) : Option Bytes :=
  if start ≤ stop ∧ stop ≤ data.length then some ((data.drop start).take (stop - start)) else none

def fromBeBytes (bs : Bytes) : Nat := leNumber bs.reverse

/-- `LENGTH`. -/
def lengthBytes : Nat := 4

def identifierLength : Nat := 8

def md5Length : Nat := 32

def readFile (data : Bytes) (base : Nat) : Option (BinaryData × Nat) := do
  let pathLength ← slice data base (base + lengthBytes)
  let offset := base + lengthBytes
  let path ← slice data offset (offset + fromBeBytes pathLength)
  let offset := offset + fromBeBytes pathLength
  let fileLength ← slice data offset (offset + lengthBytes)
  let offset := offset + lengthBytes
  let raw ← slice data offset (offset + fromBeBytes fileLength)
  let offset := offset + fromBeBytes fileLength
  let md5 ← slice data offset (offset + md5Length)
  some (⟨md5, raw, Utf8.lossy path⟩, offset + md5Length)

/-- The loop of `BinaryReader::read`, with at most so many rounds. -/
def readFiles (data : Bytes) : Nat → Nat → List BinaryData → Option (List BinaryData × Nat)
  | 0, _, _ => none
  | fuel + 1, base, parsed => do
      let iden ← slice data base (base + identifierLength)
      if Utf8.lossy iden = identifier then some (parsed, base + identifierLength)
      else
        let (file, next) ← readFile data base
        readFiles data fuel next (parsed ++ [file])

/-- `BinaryReader::read`, which panics on what is no package. -/
def read (data : Bytes) : Option (List BinaryData × Text) := do
  if data.length ≤ identifierLength then none
  else
    let iden ← slice data 0 identifierLength
    if Utf8.lossy iden ≠ identifier then none
    else
      let (files, base) ← readFiles data data.length identifierLength []
      let exe ← slice data base data.length
      some (files, Utf8.lossy exe)

structure Packed.Fits (row : Packed) : Prop where
  path : (Utf8.bytes row.path).length < 2 ^ 30
  compressedData : row.compressedData.length < 2 ^ 32
  md5Code : row.md5Code.length = md5Length

def Packed.data (row : Packed) : BinaryData where
  md5Code := row.md5Code
  raw := row.compressedData
  path := row.path

theorem hexDigit_spec : ∀ m < 16, (hexDigit m).toNat < 128 ∧
    ∀ n < 16, hexDigit m = hexDigit n → m = n := by
  decide +kernel

theorem hexByte_injective {a b : UInt8} (h : hexByte a = hexByte b) : a = b := by
  have ha := a.toNat_lt
  have hb := b.toNat_lt
  obtain ⟨hhigh, htail⟩ := List.cons.inj h
  have hq := (hexDigit_spec (a.toNat / 16) (by omega)).2 (b.toNat / 16) (by omega) hhigh
  have hr := (hexDigit_spec (a.toNat % 16) (by omega)).2 (b.toNat % 16) (by omega)
    (List.cons.inj htail).1
  apply UInt8.toNat_inj.mp
  omega

theorem hex_injective {d d' : Digest} (h : d.hex = d'.hex) : d = d' := by
  obtain ⟨octets, size⟩ := d
  obtain ⟨octets', size'⟩ := d'
  have hlists : ∀ {xs ys : Bytes}, xs.flatMap hexByte = ys.flatMap hexByte → xs = ys := by
    intro xs
    induction xs with
    | nil =>
      intro ys heq
      cases ys with
      | nil => rfl
      | cons y ys => exact absurd heq.symm (cons_ne_nil _ _)
    | cons x xs ih =>
      intro ys heq
      cases ys with
      | nil => exact absurd heq (cons_ne_nil _ _)
      | cons y ys =>
        rw [flatMap_cons, flatMap_cons] at heq
        obtain ⟨hfront, hrest⟩ := append_inj heq rfl
        rw [hexByte_injective hfront, ih hrest]
  obtain rfl : octets = octets' := hlists h
  rfl

theorem length_hex (d : Digest) : (Utf8.bytes d.hex).length = md5Length := by
  obtain ⟨octets, size⟩ := d
  have hone : ∀ n < 16, String.utf8EncodeChar (hexDigit n) =
      [UInt8.ofNat (hexDigit n).toNat] := fun n hn =>
    Utf8.utf8EncodeChar_ascii (hexDigit_spec n hn).1
  have hlist : ∀ xs : Bytes, (Utf8.bytes (xs.flatMap hexByte)).length = 2 * xs.length := by
    intro xs
    induction xs with
    | nil => rfl
    | cons x xs ih =>
      have hx := x.toNat_lt
      rw [flatMap_cons, hexByte, cons_append, cons_append, nil_append,
        Utf8.bytes_cons, Utf8.bytes_cons, hone _ (by omega), hone _ (by omega)]
      simp only [length_append, length_cons, length_nil, ih]
      omega
  rw [Digest.hex, hlist, size]
  rfl

theorem slice_append (before mid after : Bytes) {start stop : Nat} (hstart : start = before.length)
    (hstop : stop = start + mid.length) :
    slice (before ++ (mid ++ after)) start stop = some mid := by
  subst hstart hstop
  rw [slice, if_pos (by simp), drop_left, Nat.add_sub_cancel_left, take_left]

theorem toBytes_of_lt {n : Nat} (h : n < 2 ^ 32) :
    ∃ bs, toBytes n = some bs ∧ bs.length = lengthBytes ∧ fromBeBytes bs = n := by
  refine ⟨(leBytes n 4).reverse, if_pos h, by simp [lengthBytes], ?_⟩
  rw [fromBeBytes, reverse_reverse, leNumber_leBytes]
  exact Nat.mod_eq_of_lt h

theorem toBytes_head {n : Nat} {bs : Bytes} (h : n < 2 ^ 30) (hbs : toBytes n = some bs) :
    ∃ b rest, bs = b :: rest ∧ b.toNat < 64 := by
  have hlt : n < 2 ^ 32 := by omega
  rw [toBytes, if_pos hlt, Option.some.injEq] at hbs
  refine ⟨UInt8.ofNat (n >>> 8 >>> 8 >>> 8), _, hbs.symm, ?_⟩
  rw [UInt8.toNat_ofNat', ← Nat.shiftRight_add, ← Nat.shiftRight_add, Nat.shiftRight_eq_div_pow]
  omega

theorem lossy_ne_identifier {b : UInt8} (hb : b.toNat < 64) (rest : Bytes) :
    Utf8.lossy (b :: rest) ≠ identifier := by
  have hall : ∀ n < 64, (Char.ofNat n).toNat = n := by decide
  have hchar := hall b.toNat hb
  have hencode : String.utf8EncodeChar (Char.ofNat b.toNat) = [b] := by
    rw [Utf8.utf8EncodeChar_ascii (by omega), hchar, UInt8.ofNat_toNat]
  have hfront : Utf8.front (b :: rest) = some (Char.ofNat b.toNat) := by
    have h := Utf8.front_bytes (Char.ofNat b.toNat) rest
    rwa [hencode] at h
  intro heq
  rw [Utf8.lossy, length_cons, Utf8.lossyAux, hfront] at heq
  have hhead : Char.ofNat b.toNat = 'r' := (List.cons.inj heq).1
  rw [hhead] at hchar
  have hr : ('r').toNat = 114 := rfl
  omega

variable {row : Packed}

variable {before after data : Bytes}

/-- A row is read as it was written, up to its end. -/
theorem readFile_write (h : row.Fits) {bytes : Bytes} (hwrite : row.write = some bytes)
    (hdata : data = before ++ (bytes ++ after)) :
    readFile data before.length = some (row.data, (before ++ bytes).length) := by
  have hpath : (Utf8.bytes row.path).length < 2 ^ 32 := by
    have := h.path
    omega
  obtain ⟨pathLength, hp, hplen, hpval⟩ := toBytes_of_lt hpath
  obtain ⟨dataLength, hd, hdlen, hdval⟩ := toBytes_of_lt h.compressedData
  have hbytes : pathLength ++ Utf8.bytes row.path ++ dataLength ++ row.compressedData ++
      row.md5Code = bytes := by
    rw [Packed.write, hp, hd] at hwrite
    exact Option.some.inj hwrite
  subst hbytes
  -- each slice is cut behind those before it
  have h1 : slice data before.length (before.length + lengthBytes) = some pathLength := by
    have hsplit : data = before ++ (pathLength ++ (Utf8.bytes row.path ++ dataLength ++
        row.compressedData ++ row.md5Code ++ after)) := by simp [hdata]
    rw [hsplit]
    exact slice_append _ _ _ rfl (by rw [hplen])
  have h2 : slice data (before.length + lengthBytes)
      (before.length + lengthBytes + (Utf8.bytes row.path).length) =
        some (Utf8.bytes row.path) := by
    have hsplit : data = before ++ pathLength ++ (Utf8.bytes row.path ++ (dataLength ++
        row.compressedData ++ row.md5Code ++ after)) := by simp [hdata]
    rw [hsplit]
    exact slice_append _ _ _ (by rw [length_append, hplen]) rfl
  have h3 : slice data (before.length + lengthBytes + (Utf8.bytes row.path).length)
      (before.length + lengthBytes + (Utf8.bytes row.path).length + lengthBytes) =
        some dataLength := by
    have hsplit : data = before ++ pathLength ++ Utf8.bytes row.path ++ (dataLength ++
        (row.compressedData ++ row.md5Code ++ after)) := by simp [hdata]
    rw [hsplit]
    exact slice_append _ _ _ (by simp only [length_append, hplen]) (by rw [hdlen])
  have h4 : slice data (before.length + lengthBytes + (Utf8.bytes row.path).length + lengthBytes)
      (before.length + lengthBytes + (Utf8.bytes row.path).length + lengthBytes +
        row.compressedData.length) = some row.compressedData := by
    have hsplit : data = before ++ pathLength ++ Utf8.bytes row.path ++ dataLength ++
        (row.compressedData ++ (row.md5Code ++ after)) := by simp [hdata]
    rw [hsplit]
    exact slice_append _ _ _ (by simp only [length_append, hplen, hdlen]) rfl
  have h5 : slice data (before.length + lengthBytes + (Utf8.bytes row.path).length + lengthBytes +
        row.compressedData.length)
      (before.length + lengthBytes + (Utf8.bytes row.path).length + lengthBytes +
        row.compressedData.length + md5Length) = some row.md5Code := by
    have hsplit : data = before ++ pathLength ++ Utf8.bytes row.path ++ dataLength ++
        row.compressedData ++ (row.md5Code ++ after) := by simp [hdata]
    rw [hsplit]
    exact slice_append _ _ _ (by simp only [length_append, hplen, hdlen]) (by rw [h.md5Code])
  rw [readFile]
  simp only [h1, hpval, h2, h3, hdval, h4, h5, Option.bind_eq_bind, Option.bind_some,
    Utf8.lossy_bytes]
  simp only [Packed.data, length_append, hplen, hdlen, h.md5Code, Option.some.injEq,
    Prod.mk.injEq, true_and]
  omega

theorem exists_write (h : row.Fits) : ∃ b bytes, row.write = some (b :: bytes) ∧
    b.toNat < 64 ∧ identifierLength ≤ (b :: bytes).length := by
  have hpath : (Utf8.bytes row.path).length < 2 ^ 32 := by
    have := h.path
    omega
  obtain ⟨pathLength, hp, hplen, -⟩ := toBytes_of_lt hpath
  obtain ⟨dataLength, hd, hdlen, -⟩ := toBytes_of_lt h.compressedData
  obtain ⟨b, rest, rfl, hb⟩ := toBytes_head h.path hp
  refine ⟨b, rest ++ Utf8.bytes row.path ++ dataLength ++ row.compressedData ++ row.md5Code, ?_, hb,
    ?_⟩
  · rw [Packed.write, hp, hd]
    rfl
  · simp only [length_cons, length_append, hdlen, h.md5Code] at hplen ⊢
    unfold md5Length identifierLength
    omega

theorem length_identifier : (Utf8.bytes identifier).length = identifierLength := by decide

theorem slice_identifier (hdata : data = before ++ (Utf8.bytes identifier ++ after)) :
    slice data before.length (before.length + identifierLength) = some (Utf8.bytes identifier) := by
  rw [hdata]
  exact slice_append _ _ _ rfl (by rw [length_identifier])

/-- The next row is read, and the rest goes on behind it. -/
theorem readFiles_step (h : row.Fits) {bytes : Bytes}
    (hwrite : row.write = some bytes)
    (hdata : data = before ++ (bytes ++ after)) (fuel : Nat) (parsed : List BinaryData) :
    readFiles data (fuel + 1) before.length parsed =
      readFiles data fuel (before ++ bytes).length (parsed ++ [row.data]) := by
  obtain ⟨b, rest, heq, hb, hlen⟩ := exists_write h
  obtain rfl : b :: rest = bytes := Option.some.inj (heq.symm.trans hwrite)
  obtain ⟨m, hm⟩ : ∃ m, identifierLength = m + 1 := ⟨7, rfl⟩
  have hiden : slice data before.length (before.length + identifierLength) =
      some (b :: rest.take m) := by
    have hsplit : data = before ++ ((b :: rest).take identifierLength ++
        ((b :: rest).drop identifierLength ++ after)) := by
      rw [hdata, ← append_assoc ((b :: rest).take _), take_append_drop]
    have hslice := slice_append before ((b :: rest).take identifierLength)
      ((b :: rest).drop identifierLength ++ after) rfl rfl
    rw [length_take, Nat.min_eq_left hlen, ← hsplit, hm, take_succ_cons, ← hm] at hslice
    exact hslice
  rw [readFiles]
  simp only [hiden, Option.bind_eq_bind, Option.bind_some]
  rw [if_neg (lossy_ne_identifier hb _), readFile_write h hwrite hdata]
  rfl

variable {table : List Packed}

theorem readFiles_write (h : ∀ row ∈ table, row.Fits)
    {rows : List Bytes} (hrows : table.mapM Packed.write = some rows)
    (hdata : data = before ++ (rows.flatten ++ (Utf8.bytes identifier ++ after))) {fuel : Nat}
    (hfuel : table.length < fuel) (parsed : List BinaryData) :
    readFiles data fuel before.length parsed =
      some (parsed ++ table.map Packed.data,
        (before ++ rows.flatten).length + identifierLength) := by
  induction table generalizing rows before fuel parsed with
  | nil =>
    obtain ⟨fuel, rfl⟩ : ∃ n, fuel = n + 1 := ⟨fuel - 1, by simp at hfuel; omega⟩
    obtain rfl : [] = rows := Option.some.inj hrows
    rw [flatten_nil, nil_append] at hdata
    rw [readFiles]
    simp only [slice_identifier hdata, Option.bind_eq_bind, Option.bind_some, Utf8.lossy_bytes,
      if_true, map_nil, append_nil, flatten_nil]
  | cons row table ih =>
    obtain ⟨fuel, rfl⟩ : ∃ n, fuel = n + 1 := ⟨fuel - 1, by simp at hfuel; omega⟩
    rw [mapM_cons] at hrows
    obtain ⟨bytes, hwrite, hrest⟩ := Option.bind_eq_some_iff.mp hrows
    obtain ⟨others, hothers, hpure⟩ := Option.bind_eq_some_iff.mp hrest
    obtain rfl : bytes :: others = rows := Option.some.inj hpure
    rw [flatten_cons, append_assoc] at hdata
    rw [readFiles_step (h row mem_cons_self) hwrite hdata,
      ih (fun row hrow => h row (mem_cons_of_mem _ hrow)) hothers
        (by rw [hdata, append_assoc]) (by simpa using hfuel)]
    simp only [append_assoc, map_cons, cons_append, nil_append, flatten_cons]

theorem length_le_flatten (h : ∀ row ∈ table, row.Fits) :
    ∃ rows, table.mapM Packed.write = some rows ∧ table.length ≤ rows.flatten.length := by
  induction table with
  | nil => exact ⟨[], rfl, Nat.le_refl _⟩
  | cons row table ih =>
    obtain ⟨b, bytes, hwrite, -, -⟩ := exists_write (h row mem_cons_self)
    obtain ⟨rows, hrows, hlen⟩ := ih fun row hrow => h row (mem_cons_of_mem _ hrow)
    refine ⟨(b :: bytes) :: rows, ?_, ?_⟩
    · rw [mapM_cons, hwrite, hrows]
      rfl
    · rw [flatten_cons, length_append, length_cons, length_cons]
      omega

theorem read_writePackageMetadata (h : ∀ row ∈ table, row.Fits)
    (exe : Text) : ∃ data, writePackageMetadata table exe = some data ∧
      read data = some (table.map Packed.data, exe) := by
  obtain ⟨rows, hrows, hlen⟩ := length_le_flatten h
  refine ⟨_, by rw [writePackageMetadata, hrows]; rfl, ?_⟩
  have hsize := length_identifier
  generalize hdata : Utf8.bytes identifier ++ rows.flatten ++ Utf8.bytes identifier ++
    Utf8.bytes exe = data
  have hlength : data.length = identifierLength + rows.flatten.length + identifierLength +
      (Utf8.bytes exe).length := by
    rw [← hdata]
    simp only [length_append, hsize]
  have hfirst : slice data 0 identifierLength = some (Utf8.bytes identifier) := by
    have hsplit : data = [] ++ (Utf8.bytes identifier ++
        (rows.flatten ++ Utf8.bytes identifier ++ Utf8.bytes exe)) := by simp [← hdata]
    have hslice := slice_identifier hsplit
    rwa [length_nil, Nat.zero_add] at hslice
  have hfiles : readFiles data data.length identifierLength [] =
      some (table.map Packed.data, identifierLength + rows.flatten.length + identifierLength) := by
    have hsplit : data = Utf8.bytes identifier ++
        (rows.flatten ++ (Utf8.bytes identifier ++ Utf8.bytes exe)) := by simp [← hdata]
    have hfuel : table.length < data.length := by
      rw [hlength]
      unfold identifierLength
      omega
    have hloop := readFiles_write h hrows hsplit hfuel []
    rwa [length_append, hsize] at hloop
  have hexe : slice data (identifierLength + rows.flatten.length + identifierLength) data.length =
      some (Utf8.bytes exe) := by
    have hstart : identifierLength + rows.flatten.length + identifierLength =
        (Utf8.bytes identifier ++ rows.flatten ++ Utf8.bytes identifier).length := by
      simp only [length_append, hsize]
    have hslice := slice_append _ (Utf8.bytes exe) [] hstart hlength
    rwa [append_nil, hdata] at hslice
  have hlong : ¬data.length ≤ identifierLength := by
    rw [hlength]
    unfold identifierLength
    omega
  rw [read, if_neg hlong]
  simp only [hfirst, Option.bind_eq_bind, Option.bind_some, Utf8.lossy_bytes, ne_eq,
    not_true_eq_false, if_false, hfiles, hexe]

end RustDesk.Portable
