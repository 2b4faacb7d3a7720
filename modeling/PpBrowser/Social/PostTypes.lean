import Mathlib.Data.List.Lex
import Mathlib.Data.Prod.Lex
import PpBrowser.Base.Words

/-!
# PostTypes — entries, refs and head statements

`PostTypes.h`. A `std::string` of a post is its bytes: an author, a text or a
URL read from a peer need not be UTF-8. Lanes and hashes are byte arrays of a
fixed length; they and the integers are ordered as the C++ orders them.
-/

namespace Pbr

/-! ## Orders -/

instance instLinearOrderUInt8 : LinearOrder UInt8 where
  le_refl _ := UInt8.le_refl _
  le_trans _ _ _ := UInt8.le_trans
  le_antisymm _ _ := UInt8.le_antisymm
  le_total := UInt8.le_total
  lt_iff_le_not_ge a b := by
    simp only [UInt8.lt_iff_toNat_lt, UInt8.le_iff_toNat_le]
    omega
  toDecidableEq := inferInstance
  toDecidableLE := inferInstance
  toDecidableLT := inferInstance

instance instLinearOrderUInt64 : LinearOrder UInt64 where
  le_refl _ := UInt64.le_refl _
  le_trans _ _ _ := UInt64.le_trans
  le_antisymm _ _ := UInt64.le_antisymm
  le_total := UInt64.le_total
  lt_iff_le_not_ge a b := by
    simp only [UInt64.lt_iff_toNat_lt, UInt64.le_iff_toNat_le]
    omega
  toDecidableEq := inferInstance
  toDecidableLE := inferInstance
  toDecidableLT := inferInstance

instance instLinearOrderInt64 : LinearOrder Int64 where
  le_refl _ := Int64.le_refl _
  le_trans _ _ _ := Int64.le_trans
  le_antisymm _ _ := Int64.le_antisymm
  le_total := Int64.le_total
  lt_iff_le_not_ge a b := by
    simp only [Int64.lt_iff_toInt_lt, Int64.le_iff_toInt_le]
    omega
  toDecidableEq := inferInstance
  toDecidableLE := inferInstance
  toDecidableLT := inferInstance

instance instMinEqOrByteVector : Std.MinEqOr ByteVector := inferInstance

/-! ## Shapes -/

def kPostLaneBytes : Nat := 16

def kPostHashBytes : Nat := 32

abbrev PostLane := { bytes : ByteVector // bytes.length = kPostLaneBytes }

abbrev PostHash := { bytes : ByteVector // bytes.length = kPostHashBytes }

/-- A lane or hash of one byte repeated. -/
def PostLane.filled (byte : UInt8) : PostLane := ⟨List.replicate kPostLaneBytes byte, List.length_replicate⟩

def PostHash.filled (byte : UInt8) : PostHash := ⟨List.replicate kPostHashBytes byte, List.length_replicate⟩

/-- One exact entry: the hash pins the content. -/
structure PostRef where
  author : ByteVector
  lane : PostLane
  seq : UInt64
  entryHash : PostHash
  deriving DecidableEq, Repr

structure PostExtension where
  tag : UInt16
  value : ByteVector
  deriving DecidableEq, Repr

/-- An entry as it sits in a lane; `body` is the kind's encoding. -/
structure PostEntry where
  author : ByteVector
  lane : PostLane
  seq : UInt64
  prev : PostHash
  claimedAt : Int64
  kind : UInt8
  body : ByteVector
  extensions : List PostExtension := []
  deriving DecidableEq, Repr

/-- Canonical bytes and the account's signature over them. -/
structure SignedPostEntry where
  canonical : ByteVector
  signature : ByteVector
  deriving DecidableEq, Repr

/-- What a head statement says of one lane. -/
structure PostHeadLane where
  lane : PostLane
  seq : UInt64
  entryHash : PostHash
  deriving DecidableEq, Repr

/-- An author's lanes as one device sees them. -/
structure PostHead where
  author : ByteVector
  issuedAt : Int64
  lanes : List PostHeadLane := []
  targets : List ByteVector := []
  deriving DecidableEq, Repr

structure SignedPostHead where
  canonical : ByteVector
  signature : ByteVector
  deriving DecidableEq, Repr

def kMaxPostPageEntries : Nat := 256

end Pbr
