import Boxd.Lib.BitSet
import Boxd.Lib.Outcome
import Boxd.Lib.Table
import Boxd.Receipt

/-! The section manager: for 8192 blocks at a time it keeps, for each bit of a filter, the
blocks whose filter has it. A log search reads these sets where they are there, and the
filters of the headers elsewhere. -/

namespace Boxd
open Lib List

def sectionBloomBitLength : Nat := 8192
def sectionBloomByteLength : Nat := 1024
def bloomByteLength : Nat := 256

/-- `BloomBitLength`, as the length of an array. -/
def bloomBits : Nat := 2048

abbrev SectionBits := FixedBytes sectionBloomByteLength

namespace SectionBits

def empty : SectionBits := .zero sectionBloomByteLength

def add (bits : SectionBits) (offset : Nat) : SectionBits :=
  ⟨BitSet.add bits.bytes offset, by rw [BitSet.length_add, bits.length_eq]⟩

def has (bits : SectionBits) (offset : Nat) : Bool := BitSet.has bits.bytes offset

/-- `ANDBytes` -/
def inter (left right : SectionBits) : SectionBits :=
  ⟨BitSet.inter left.bytes right.bytes, by simp [BitSet.inter, left.length_eq, right.length_eq]⟩

/-- `ORBytes` -/
def union (left right : SectionBits) : SectionBits :=
  ⟨BitSet.union left.bytes right.bytes, by simp [BitSet.union, left.length_eq, right.length_eq]⟩

end SectionBits

/-- The table of the sections: `SectionKey`, and `SecBloomBitSetKey` of a section and a
bit. -/
structure SectionDB where
  sectionKey : Option UInt32
  bitSets : Table (UInt32 × Nat) SectionBits

/-- The loop of `commit`. -/
def putBitSets {bits : Nat} (sectionNo : UInt32) (blooms : Fin bits → SectionBits)
    (bitSets : Table (UInt32 × Nat) SectionBits) : Table (UInt32 × Nat) SectionBits :=
  (finRange bits).foldl (fun bitSets i => bitSets.insert (sectionNo, i.val) (blooms i)) bitSets

/-- What happened, for the statements about whole runs: blocks were skipped, the node was
started again with an eternal block, or a section was committed. -/
inductive SectionEntry where
  | skipped (height index : UInt32)
  | restarted (eternal : UInt32)
  | committed (sectionNo : UInt32)

/-- `SectionManager`. The log is not part of the source. -/
structure SectionManager where
  blooms : Fin bloomBits → SectionBits
  sectionNo : UInt32
  height : UInt32
  db : SectionDB
  log : List SectionEntry

/-- Whether a bit of a filter is set, counted from the end of its bytes. -/
def Filter.rotatedBit (bloom : Filter) (i : Nat) : Bool :=
  bloom.filter[bloomByteLength - 1 - i / 8]?.any fun byte => BitSet.bitOf byte (i % 8)

namespace SectionManager

/-- `NewSectionManager`. The section that is read has been counted up already when the
height is computed. -/
def new (db : SectionDB) (log : List SectionEntry) : SectionManager :=
  match db.sectionKey with
  | none => ⟨fun _ => SectionBits.empty, 0, 0, db, log⟩
  | some stored => ⟨fun _ => SectionBits.empty, stored + 1, (stored + 1 + 1) * .ofNat sectionBloomBitLength, db, log⟩

def commit (sm : SectionManager) : SectionManager where
  blooms _ := SectionBits.empty
  sectionNo := sm.sectionNo + 1
  height := sm.height
  db.sectionKey := some sm.sectionNo
  db.bitSets := putBitSets sm.sectionNo sm.blooms sm.db.bitSets
  log := sm.log ++ [.committed sm.sectionNo]

/-- The method `addBloom`. It has no result when it panics: `GetByte` reads a filter that
is too short. -/
def insertBloom (index : UInt32) (bloom : Filter) (sm : SectionManager) : Option SectionManager :=
  if bloom.filter.length < bloomByteLength then none
  else
    let offset := index.toNat % sectionBloomBitLength
    let blooms (i : Fin bloomBits) := if bloom.rotatedBit i then (sm.blooms i).add offset else sm.blooms i
    let sm := { sm with blooms }
    let sm := if offset = sectionBloomBitLength - 1 then sm.commit else sm
    some { sm with height := index }

/-- `AddBloom`, on a chain with the given filters. A skipped height gets the filter of the
block before the last. There is no result when the loop does not end, because the counter
is never above the largest number. -/
def addBloom (chain : UInt32 → Filter) (index : UInt32) (bloom : Filter) (sm : SectionManager) : Option SectionManager :=
  if index ≤ sm.height ∧ sm.height ≠ 0 then some sm
  else if sm.height + 1 < index then
    if index = maxUint32 then none
    else
      (range' (sm.height.toNat + 1) (index.toNat - sm.height.toNat)).foldlM
        (fun sm i => sm.insertBloom (.ofNat i) (chain (index - 1))) { sm with log := sm.log ++ [.skipped sm.height index] }
  else sm.insertBloom index bloom

end SectionManager

/-- A node as far as its sections go: its eternal block, by its height, and the section
manager. -/
structure SectionNode where
  eternal : UInt32
  sectionMgr : SectionManager

inductive SectionEvent where
  | setEternal (height : UInt32)
  | restart

namespace SectionNode

/-- A node that starts for the first time. -/
def fresh : SectionNode := ⟨0, .new ⟨none, ∅⟩ []⟩

/-- `SetEternal` with the block of the main chain at a height, and a restart. It is the last
eternal block that is added, not the new one. The source starts `AddBloom` in a goroutine of its
own; here it ends before the next event. -/
def step (chain : UInt32 → Filter) (node : SectionNode) : SectionEvent → Option SectionNode
  | .setEternal height =>
    if node.eternal < height then
      (node.sectionMgr.addBloom chain node.eternal (chain node.eternal)).map fun sectionMgr => ⟨height, sectionMgr⟩
    else some node
  | .restart => some { node with
      sectionMgr := .new node.sectionMgr.db (node.sectionMgr.log ++ [.restarted node.eternal]) }

def run (chain : UInt32 → Filter) (events : List SectionEvent) : Option SectionNode := events.foldlM (step chain) fresh

end SectionNode

/-- What a log search reads of the main chain: the height of the tail, the filters of the
headers, and the logs of the blocks, if they can be loaded. -/
structure LogChain where
  tail : UInt32
  bloom : UInt32 → Filter
  logs : UInt32 → Option (List Log)

inductive SearchError where
  | invalidBounds | blockIsNil
  deriving DecidableEq

/-- The bits of a filter that holds one topic, counted as `Indexes` does. -/
def topicIndexes (topic : Bytes) : List Nat :=
  ((emptyBloom.add topic).map fun bf => BitSet.indexes bf.filter).getD []

namespace SectionDB

/-- The loop of `indexed` over the bits of a topic. It stops where a set is missing. -/
def matchIndexes (db : SectionDB) (sectionNo : UInt32) : (first : Bool) → List Nat → (tmp : SectionBits) → SectionBits
  | _, [], tmp => tmp
  | first, index :: rest, tmp =>
    match db.bitSets.lookup (sectionNo, bloomBits - 1 - index) with
    | none => tmp
    | some bits => matchIndexes db sectionNo false rest (if first then bits else tmp.inter bits)

def topicBits (db : SectionDB) (sectionNo : UInt32) (topic : Bytes) : SectionBits :=
  db.matchIndexes sectionNo true (topicIndexes topic) .empty

/-- The loop of `indexed` over the alternatives of one position. -/
def topicMatcher (db : SectionDB) (sectionNo : UInt32) : (topics : List Bytes) → SectionBits
  | [] => .empty
  | topic :: rest =>
    rest.foldl (fun matcher topic => matcher.union (db.topicBits sectionNo topic)) (db.topicBits sectionNo topic)

/-- The loop of `indexed` over the positions. An empty set stands for any topic, but not in
the first two positions, those of addresses and first topics. -/
def heightMask (db : SectionDB) (sectionNo : UInt32) (query : LogQuery) : SectionBits :=
  (query.topics.zipIdx 1).foldl (fun mask position =>
    if 1 < position.2 && position.1.isEmpty then mask else mask.inter (db.topicMatcher sectionNo position.1))
    (db.topicMatcher sectionNo query.addrs)

def indexed (db : SectionDB) (sectionNo : UInt32) (query : LogQuery) : List UInt32 :=
  (BitSet.indexes (db.heightMask sectionNo query).bytes).map fun i =>
    UInt32.ofNat i + sectionNo * .ofNat sectionBloomBitLength

end SectionDB

namespace LogChain

/-- The loop of `unIndexed`. Blocks that cannot be loaded are passed over. -/
def unIndexedFrom (chain : LogChain) (query : LogQuery) : (heights : List Nat) → Outcome SearchError (List UInt32)
  | [] => return []
  | height :: rest =>
    if chain.tail < .ofNat height then chain.unIndexedFrom query rest
    else do
      let visited ← Outcome.expect (bloomFilter (chain.bloom (.ofNat height)) query)
      let others ← chain.unIndexedFrom query rest
      return if visited then .ofNat height :: others else others

/-- `unIndexed`. Its loop does not end when the last height is the largest number. -/
def unIndexed (chain : LogChain) (fromHeight toHeight : UInt32) (query : LogQuery) : Outcome SearchError (List UInt32) :=
  if toHeight = maxUint32 then .panicked
  else chain.unIndexedFrom query (range' fromHeight.toNat (toHeight.toNat + 1 - fromHeight.toNat))

/-- The method `getLogs`. Logs that cannot be read are passed over, blocks are not. -/
def logsAt (chain : LogChain) (query : LogQuery) : (heights : List UInt32) → Outcome SearchError (List Log)
  | [] => return []
  | height :: rest =>
    if chain.tail < height then .fail .blockIsNil
    else do
      let others ← chain.logsAt query rest
      return filterLogs ((chain.logs height).getD []) query ++ others

end LogChain

def SectionManager.getLogs (sm : SectionManager) (chain : LogChain) (fromHeight toHeight : UInt32) (query : LogQuery) :
    Outcome SearchError (List Log) :=
  let toHeight := min toHeight chain.tail
  let start := fromHeight / .ofNat sectionBloomBitLength
  let last := toHeight / .ofNat sectionBloomBitLength
  if last < start then .fail .invalidBounds
  else if sm.sectionNo < start then return []
  else
    let last := if sm.sectionNo ≤ last then sm.sectionNo - 1 else last
    let heights := if start < sm.sectionNo then
        (range ((last - start).toNat + 1)).flatMap fun i =>
          let heights := sm.db.indexed (start + .ofNat i) query
          if i = 0 ∨ i = (last - start).toNat then heights.filter fun height => fromHeight ≤ height ∧ height ≤ toHeight
          else heights
      else []
    let boundary := sm.sectionNo * .ofNat sectionBloomBitLength
    if boundary < toHeight then do
      let others ← chain.unIndexed (max boundary fromHeight) toHeight query
      chain.logsAt query (heights ++ others)
    else chain.logsAt query heights

end Boxd
