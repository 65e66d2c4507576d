import Boxd.BlockSync
import Boxd.Chain.Blockchain

/-! What a node answers to a peer that syncs: the hashes after the first of the locators that
is on its main chain. -/

namespace Boxd.BlockChain
open Lib

inductive ServeError where
  | blockIsNil
  deriving DecidableEq

variable {setup : Setup}

/-- The hash of the block that `LoadBlockByHeight` finds. -/
def hashAt (chain : BlockChain setup) (height : UInt32) : Outcome ServeError HashType :=
  Outcome.orFail .blockIsNil ((chain.loadBlockByHeight height).map fun block => setup.blockHash block.header)

/-- The loop up to the tail. It needs a height above the tail to end; without enough fuel
there is no result. -/
def fetchToTail (chain : BlockChain setup) :
    (fuel : Nat) → (currentHeight : UInt32) → Option (Outcome ServeError (List HashType))
  | 0, _ => none
  | fuel + 1, currentHeight =>
    if currentHeight ≤ chain.tail.header.height then
      match chain.hashAt currentHeight with
      | .error fault => some (.error fault)
      | .ok hash => (chain.fetchToTail fuel (currentHeight + 1)).map fun rest => rest.map (hash :: ·)
    else some (.ok [])

def locateForkPointAndFetchHeaders (chain : BlockChain setup) (fuel : Nat) :
    List HashType → Option (Outcome ServeError (List HashType))
  | [] => some (.ok [])
  | hash :: hashes =>
    match chain.loadBlockByHash hash with
    | none => chain.locateForkPointAndFetchHeaders fuel hashes
    | some block =>
      match chain.loadBlockByHeight block.header.height with
      -- The error is dropped, and no block is asked for its hash.
      | none => some .panicked
      | some b =>
        if setup.blockHash b.header ≠ setup.blockHash block.header then chain.locateForkPointAndFetchHeaders fuel hashes
        else
          let currentHeight := block.header.height + 1
          if (chain.tail.header.height - block.header.height + 1).toNat < maxBlocksPerSync then
            chain.fetchToTail fuel currentHeight
          else some ((List.range maxBlocksPerSync).mapM fun idx => chain.hashAt (currentHeight + .ofNat idx))

end Boxd.BlockChain
