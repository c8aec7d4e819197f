import XCoin.MetalDag.ColdBudget

/-!
# Cold builds over a run of messages

Three kinds of messages make a node hash headers it did not ask for: `headers`,
`cmpctblock` and an unrequested `block`.  Two of them ask `MayVerifyHeadersNow` first; a
compact block is hashed without asking.  Besides the headers of a message the node hashes
those that it releases from the redownload buffer of the peer's headers sync, and stored
blocks that are read back.  Which of them are hashed, in which order and how often depends
on the rest of the handler, so a message comes with that order.

Three ways lead past the budget.  A compact block of a cold epoch builds its cache without a
grant.  The gate looks at the headers of the message only, and a released header or a stored
block can be of another cold epoch.  And the gate reads which caches are resident before the
first of them is used: a header of another epoch can evict a cold one that was resident.  In
a run without any of these, all cold builds within one interval come from one grant.
-/

namespace XCoin.MetalDag

open Consensus

/-! ## Messages -/

/-- The messages that bring headers nobody asked for.  A compact block that is then processed as a
plain `headers` message is followed by that message. -/
inductive HeaderMessage where
  | headers (headers : List BlockHeader)
  | cmpctblock (header : BlockHeader)
  | block (header : BlockHeader)
deriving DecidableEq

/-- The headers of a message. -/
def HeaderMessage.all : HeaderMessage → List BlockHeader
  | .headers list => list
  | .cmpctblock header => [header]
  | .block header => [header]

/-- A message as it is handled: from which peer, with which best header and clock, and what the
rest of the handler does if it goes on. -/
structure Handled where
  peer : ℕ
  message : HeaderMessage
  bestHeaderTime : UInt32
  now : ℤ
  /-- how many headers `PopHeadersReadyForAcceptance` releases, in the redownload phase of the
  peer's sync -/
  popped : Option ℕ
  /-- the sync with the peer ends -/
  finalized : Bool
  /-- the stored blocks that `ReadBlock` reads -/
  readBack : List BlockHeader
  /-- what is hashed, as positions in `ColdNode.reachable` -/
  order : List ℕ

/-- The caches, the budget and, for every peer, the redownload buffer of the node. -/
structure ColdNode where
  caches : Caches
  budget : CacheBuildBudget
  buffers : ℕ → List BlockHeader

/-- The buffer of the peer with the headers of the message, which only enter it in the redownload
phase. -/
def ColdNode.buffered (node : ColdNode) (event : Handled) : List BlockHeader :=
  node.buffers event.peer ++ if event.popped.isSome then event.message.all else []

/-- The headers that leave the buffer to be accepted, oldest first. -/
def ColdNode.released (node : ColdNode) (event : Handled) : List BlockHeader :=
  (node.buffered event).take (event.popped.getD 0)

/-- Everything that can be hashed when the message is handled. -/
def ColdNode.reachable (node : ColdNode) (event : Handled) : List BlockHeader :=
  event.message.all ++ node.released event ++ event.readBack

/-- The headers that are hashed. -/
def ColdNode.hashed (node : ColdNode) (event : Handled) : List BlockHeader :=
  event.order.filterMap fun i => (node.reachable event)[i]?

variable (params : Params)

/-- What the verdict on a header depends on when the message is handled. -/
def ColdNode.clocks (node : ColdNode) (event : Handled) : Clocks :=
  ⟨params, node.caches, event.bestHeaderTime, event.now⟩

variable {params} {node : ColdNode} {event : Handled}

end XCoin.MetalDag
