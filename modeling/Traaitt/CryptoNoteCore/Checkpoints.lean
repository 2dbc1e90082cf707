import Traaitt.CryptoNote.Types
import Mathlib.Order.Basic

/-! `Checkpoints`: block hashes pinned at given indexes. Below the highest pinned index the
node trusts the chain: `Core` then skips proof of work and the checks of inputs against the
chain, and only a block at a pinned index has to carry the pinned hash. -/

namespace CryptoNote

/-- `std::map<uint32_t, Crypto::Hash> points`. -/
structure Checkpoints where
  points : List (ℕ × Crypto.Hash)
  points_nodup : (points.map Prod.fst).Nodup

namespace Checkpoints

def isInCheckpointZone (checkpoints : Checkpoints) (index : ℕ) : Bool :=
  match (checkpoints.points.map Prod.fst).max? with
  | none => false
  | some last => decide (index ≤ last)

/-- A block at an index without a checkpoint passes. -/
def checkBlock (checkpoints : Checkpoints) (index : ℕ) (h : Crypto.Hash) : Bool :=
  match checkpoints.points.lookup index with
  | none => true
  | some pinned => pinned == h

end Checkpoints

/-- `CryptoNote::CHECKPOINTS` of `CryptoNoteCheckpoints.h`, which the daemon loads by default,
each hash's 32 bytes read as one number. -/
def CHECKPOINTS : Checkpoints :=
  ⟨[(0, ⟨0x613646f8d73de696fef75859972b8801ead95070b7ead04c23f63272f49ffb20#256⟩),
    (2, ⟨0xb35bf9fd15098d3ecf077a1ca973be9766fe9bc2692a671b7de6def149963438#256⟩),
    (100, ⟨0x157404420af8463ce8fa1088267cc7d1a95308b8961881e6e1e4dfc95a3ced6f#256⟩)], by decide⟩

/-- The checkpoints of a node started with a checkpoints file that holds the default checkpoint at
height 100 only. -/
def fileCheckpoints : Checkpoints :=
  ⟨[(100, ⟨0x157404420af8463ce8fa1088267cc7d1a95308b8961881e6e1e4dfc95a3ced6f#256⟩)], by decide⟩

end CryptoNote
