import RustDesk.Server.Config
import RustDesk.Lib.MachineInt

/-!
# Clipboards on the wire

`create_multi_clipboards` makes a `Clipboard` of what was read from the system, and
`from_multi_clipboards` makes it that again on the other side.  Five kinds of data are
compressed where that makes them shorter, and sent as they are otherwise; special data is
compressed in the same case, and otherwise its *name* is sent in its place.

Compression is a parameter: `decompress` gives back what `compress` was given.
-/

namespace RustDesk

open MachineInt

inductive ImageData where
  | rgba (width height : Nat) (bytes : Bytes)
  | png (bytes : Bytes)
  | svg (text : String)
  deriving DecidableEq

/-- `arboard::ClipboardData`; what is not sent is one kind. -/
inductive ClipboardData where
  | text (s : String)
  | rtf (s : String)
  | html (s : String)
  | image (a : ImageData)
  | special (name : String) (data : Bytes)
  | other
  deriving DecidableEq

inductive ClipboardFormat where
  | text
  | rtf
  | html
  | imageRgba
  | imagePng
  | imageSvg
  | special
  deriving DecidableEq

structure Clipboard where
  compress : Bool
  content : Bytes
  width : Int
  height : Int
  format : EnumOrUnknown ClipboardFormat
  specialName : String

def fromUtf8 (data : Bytes) : Option String := String.fromUTF8? ⟨data.toArray⟩

section

variable (compressFunc decompress : Bytes → Bytes)

def compressedOr (data plain : Bytes) : Bool × Bytes :=
  let compressed := compressFunc data
  let compress := decide (compressed.length < data.length)
  (compress, if compress then compressed else plain)

def plainToProto (s : String) (format : ClipboardFormat) : Clipboard :=
  let sent := compressedOr compressFunc (asBytes s) (asBytes s)
  ⟨sent.1, sent.2, 0, 0, .ok format, ""⟩

def imageToProto : ImageData → Clipboard
  | .rgba width height bytes =>
    let sent := compressedOr compressFunc bytes bytes
    ⟨sent.1, sent.2, asI32 width, asI32 height, .ok .imageRgba, ""⟩
  | .png bytes => ⟨false, bytes, 0, 0, .ok .imagePng, ""⟩
  | .svg text =>
    let sent := compressedOr compressFunc (asBytes text) (asBytes text)
    ⟨sent.1, sent.2, 0, 0, .ok .imageSvg, ""⟩

def specialToProto (d : Bytes) (s : String) : Clipboard :=
  let sent := compressedOr compressFunc d (asBytes s)
  ⟨sent.1, sent.2, 0, 0, .ok .special, s⟩

def clipboardDataToProto : ClipboardData → Option Clipboard
  | .text s => some (plainToProto compressFunc s .text)
  | .rtf s => some (plainToProto compressFunc s .rtf)
  | .html s => some (plainToProto compressFunc s .html)
  | .image a => some (imageToProto compressFunc a)
  | .special s d => some (specialToProto compressFunc d s)
  | .other => none

def createMultiClipboards (vecData : List ClipboardData) : List Clipboard :=
  vecData.filterMap (clipboardDataToProto compressFunc)

def clipboardContent (clipboard : Clipboard) : Bytes :=
  if clipboard.compress then decompress clipboard.content else clipboard.content

def fromClipboard (clipboard : Clipboard) : Option ClipboardData :=
  let data := clipboardContent decompress clipboard
  match clipboard.format with
  | .ok .text => (fromUtf8 data).map .text
  | .ok .rtf => (fromUtf8 data).map .rtf
  | .ok .html => (fromUtf8 data).map .html
  | .ok .imageRgba =>
    some (.image (.rgba (asU64 clipboard.width) (asU64 clipboard.height) data))
  | .ok .imagePng => some (.image (.png data))
  | .ok .imageSvg => some (.image (.svg ((fromUtf8 data).getD "")))
  | .ok .special => some (.special clipboard.specialName data)
  | .error _ => none

def fromMultiClipboards (multiClipboards : List Clipboard) : List ClipboardData :=
  multiClipboards.filterMap (fromClipboard decompress)

/-- Data of a kind that is sent; the sides of a picture fit into an `i32`. -/
def Sendable : ClipboardData → Prop
  | .image (.rgba width height _) => width < 2 ^ 31 ∧ height < 2 ^ 31
  | .other => False
  | _ => True

/-- `special_to_proto` writes the data, or what it writes instead is the same. -/
def Intact : ClipboardData → Prop
  | .special name data => (compressFunc data).length < data.length ∨ data = asBytes name
  | _ => True

instance : ∀ d : ClipboardData, Decidable (Sendable d)
  | .image (.rgba _ _ _) => inferInstanceAs (Decidable (_ ∧ _))
  | .other => isFalse id
  | .text _ | .rtf _ | .html _ | .image (.png _) | .image (.svg _) | .special _ _ => isTrue trivial

instance : ∀ d : ClipboardData, Decidable (Intact compressFunc d)
  | .special _ _ => inferInstanceAs (Decidable (_ ∨ _))
  | .text _ | .rtf _ | .html _ | .image _ | .other => isTrue trivial

end

theorem fromUtf8_asBytes (s : String) : fromUtf8 (asBytes s) = some s := by
  have hbytes : (⟨(asBytes s).toArray⟩ : ByteArray) = s.toUTF8 := by
    rw [asBytes, Array.toArray_toList]
  rw [fromUtf8, hbytes, String.toUTF8_eq_toByteArray, String.fromUTF8?, dif_pos s.isValidUTF8]
  rfl

section

variable {compressFunc decompress : Bytes → Bytes}

theorem clipboardContent_sent (hzip : ∀ data, decompress (compressFunc data) = data)
    (data plain : Bytes) (width height : Int) (format : EnumOrUnknown ClipboardFormat)
    (name : String) :
    clipboardContent decompress ⟨(compressedOr compressFunc data plain).1,
      (compressedOr compressFunc data plain).2, width, height, format, name⟩ =
        if (compressFunc data).length < data.length then data else plain := by
  by_cases hshorter : (compressFunc data).length < data.length
  · simp [clipboardContent, compressedOr, hshorter, hzip]
  · simp [clipboardContent, compressedOr, hshorter]

theorem fromClipboard_image (hzip : ∀ data, decompress (compressFunc data) = data)
    (a : ImageData) (hsend : Sendable (.image a)) :
    fromClipboard decompress (imageToProto compressFunc a) = some (.image a) := by
  cases a with
  | rgba width height bytes =>
    obtain ⟨hwidth, hheight⟩ := hsend
    have hback : ∀ n : Nat, n < 2 ^ 31 → asU64 (asI32 n) = n := by
      intro n hn
      rw [asI32_of_lt hn, asU64_natCast (by omega)]
    simp only [imageToProto, fromClipboard, clipboardContent_sent hzip, ite_self,
      hback width hwidth, hback height hheight]
  | png bytes => rfl
  | svg text =>
    simp only [imageToProto, fromClipboard, clipboardContent_sent hzip, ite_self,
      fromUtf8_asBytes, Option.getD_some]

theorem fromClipboard_special (hzip : ∀ data, decompress (compressFunc data) = data)
    (name : String) (data : Bytes) :
    fromClipboard decompress (specialToProto compressFunc data name) =
      some (.special name
        (if (compressFunc data).length < data.length then data else asBytes name)) := by
  simp only [specialToProto, fromClipboard, clipboardContent_sent hzip]

def overWire (compressFunc decompress : Bytes → Bytes) (d : ClipboardData) : Option ClipboardData :=
  (clipboardDataToProto compressFunc d).bind (fromClipboard decompress)

theorem overWire_iff (hzip : ∀ data, decompress (compressFunc data) = data)
    (d : ClipboardData) (hsend : Sendable d) :
    (overWire compressFunc decompress d).isSome = true ∧
      (overWire compressFunc decompress d = some d ↔ Intact compressFunc d) := by
  have hplain : ∀ (s : String) (format : ClipboardFormat) (kind : String → ClipboardData),
      (∀ compress content, fromClipboard decompress ⟨compress, content, 0, 0, .ok format, ""⟩ =
        (fromUtf8 (clipboardContent decompress
          ⟨compress, content, 0, 0, .ok format, ""⟩)).map kind) →
      fromClipboard decompress (plainToProto compressFunc s format) = some (kind s) := by
    intro s format kind hkind
    rw [plainToProto, hkind _ _, clipboardContent_sent hzip, ite_self, fromUtf8_asBytes]
    rfl
  have hsurvives : ∀ d, overWire compressFunc decompress d = some d →
      Intact compressFunc d → (overWire compressFunc decompress d).isSome = true ∧
        (overWire compressFunc decompress d = some d ↔ Intact compressFunc d) := by
    intro d h hintact
    exact ⟨by rw [h]; rfl, iff_of_true h hintact⟩
  cases d with
  | text s => exact hsurvives _ (hplain s .text .text fun _ _ => rfl) trivial
  | rtf s => exact hsurvives _ (hplain s .rtf .rtf fun _ _ => rfl) trivial
  | html s => exact hsurvives _ (hplain s .html .html fun _ _ => rfl) trivial
  | image a => exact hsurvives _ (fromClipboard_image hzip a hsend) trivial
  | special name data =>
    have hback : overWire compressFunc decompress (.special name data) =
        some (.special name
          (if (compressFunc data).length < data.length then data else asBytes name)) :=
      fromClipboard_special hzip name data
    refine ⟨by rw [hback]; rfl, ?_⟩
    rw [hback, Option.some.injEq, ClipboardData.special.injEq, Intact]
    split_ifs with hshorter
    · exact iff_of_true ⟨rfl, rfl⟩ (.inl hshorter)
    · simp only [true_and, hshorter, false_or, eq_comm]
  | other => exact hsend.elim

theorem filterMap_eq_self_iff {α : Type*} {f : α → Option α} {l : List α}
    (h : ∀ a ∈ l, (f a).isSome = true) : l.filterMap f = l ↔ ∀ a ∈ l, f a = some a := by
  induction l with
  | nil => simp
  | cons a l ih =>
    obtain ⟨b, hb⟩ := Option.isSome_iff_exists.mp (h a List.mem_cons_self)
    rw [List.filterMap_cons_some hb, List.cons.injEq,
      ih fun c hc => h c (List.mem_cons_of_mem a hc), List.forall_mem_cons, hb,
      Option.some.injEq]

/-- **Clipboards survive the wire** exactly if no special data was replaced by its name. -/
theorem clipboards_survive_iff (hzip : ∀ data, decompress (compressFunc data) = data)
    (vecData : List ClipboardData) (hsend : ∀ d ∈ vecData, Sendable d) :
    fromMultiClipboards decompress (createMultiClipboards compressFunc vecData) = vecData ↔
      ∀ d ∈ vecData, Intact compressFunc d := by
  have hwire : fromMultiClipboards decompress (createMultiClipboards compressFunc vecData) =
      vecData.filterMap (overWire compressFunc decompress) :=
    List.filterMap_filterMap
  have hsome : ∀ d ∈ vecData, (overWire compressFunc decompress d).isSome = true :=
    fun d hd => (overWire_iff hzip d (hsend d hd)).1
  rw [hwire, filterMap_eq_self_iff hsome]
  exact forall₂_congr fun d hd => (overWire_iff hzip d (hsend d hd)).2

end

/-- Sixty-four times the letter `a`. -/
def manyLetters : String := String.ofList (List.replicate 64 'a')

/-- A compressor like zstd: its frames are longer than what they hold, but for data that
repeats itself; here the only such data is `manyLetters`. -/
def frameCompress (data : Bytes) : Bytes :=
  [0x28, 0xB5, 0x2F, 0xFD] ++ if data = asBytes manyLetters then [3] else 1 :: data

/-- What `frameCompress` has compressed. -/
def frameDecompress (frame : Bytes) : Bytes :=
  match frame.drop 4 with
  | 1 :: data => data
  | _ => asBytes manyLetters

theorem frameDecompress_compress (data : Bytes) : frameDecompress (frameCompress data) = data := by
  unfold frameCompress
  split_ifs with hmany
  · exact hmany.symm
  · rfl

/-- A text that is not compressed, one that is, a picture, and special data that is. -/
theorem text_and_picture_survive :
    let vecData : List ClipboardData := [.text "hi", .html manyLetters,
      .image (.rgba 1 1 [1, 2, 3, 4]), .special "XML Spreadsheet" (asBytes manyLetters)]
    fromMultiClipboards frameDecompress (createMultiClipboards frameCompress vecData) = vecData :=
  (clipboards_survive_iff frameDecompress_compress _ (by decide)).mpr (by decide +kernel)

/-- **Special data comes back as its name**, if it does not get shorter. -/
theorem special_replaced_by_name :
    (∀ data, frameDecompress (frameCompress data) = data) ∧
      fromMultiClipboards frameDecompress
        (createMultiClipboards frameCompress [.special "XML Spreadsheet" [1, 2, 3]]) ≠
          [.special "XML Spreadsheet" [1, 2, 3]] :=
  ⟨frameDecompress_compress, by decide +kernel⟩

end RustDesk
