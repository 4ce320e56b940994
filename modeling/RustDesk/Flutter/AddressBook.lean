import RustDesk.Lib.Upsert

/-!
# Address books

A book has peers, tags, and the colours of the tags.  What is kept of a peer outside of the program
is its custom JSON.
-/

namespace RustDesk

structure Peer where
  id : String
  hash : String := ""
  password : String := ""
  username : String := ""
  hostname : String := ""
  platform : String := ""
  aliasName : String := ""
  tags : List String := []
  forceAlwaysRelay : Bool := false
  rdpPort : String := ""
  rdpUsername : String := ""
  online : Bool := false
  loginName : String := ""
  deviceGroupName : String := ""
  note : String := ""
  sameServer : Option Bool := none
  deriving DecidableEq

/-- The JSON of `toCustomJson`. -/
structure CustomPeer where
  id : String
  username : String
  hostname : String
  platform : String
  aliasName : String
  tags : List String
  hash : Option String
  deriving DecidableEq

def Peer.toCustomJson (includingHash : Bool) (p : Peer) : CustomPeer where
  id := p.id
  username := p.username
  hostname := p.hostname
  platform := p.platform
  aliasName := p.aliasName
  tags := p.tags
  hash := if includingHash then some p.hash else none

structure AbTag where
  name : String
  color : Int

/-- `peers`, `tags` and `tagColors` of a book. -/
structure Book where
  peers : List Peer
  tags : List String
  tagColors : List (String × Int)

end RustDesk
