import RustDesk.Basic

/-!
# Messages about the contents of copied files

`ClipboardFile::FileContentsRequest` and `ClipboardFile::FileContentsResponse`, as they
travel between the two sides, with the connection they belong to.
-/

namespace RustDesk

/-- A part of a file (`dw_flags` 2) or its size (`dw_flags` 1). -/
structure FileContentsRequest where
  connId : Int
  streamId : Int
  listIndex : Int
  dwFlags : Int
  nPositionHigh : Int
  nPositionLow : Int
  cbRequested : Int

structure FileContentsResponse where
  connId : Int
  msgFlags : Int
  streamId : Int
  requestedData : Bytes

end RustDesk
