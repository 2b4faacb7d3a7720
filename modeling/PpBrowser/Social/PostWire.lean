import PpBrowser.Base.BigEndian
import PpBrowser.Lib.Codec
import PpBrowser.Social.PostTypes

/-!
# PostWire — the binary profile of posts

`PostWire.h`. The archive is outside: it writes integers big-endian in their
width, a bool as one byte, texts and byte vectors behind a `uint64_t` length,
lanes and hashes as they are, and reads nothing else. A reader that failed
stays failed, so its reads are one reader that fails.
-/

namespace Pbr

open Lib

namespace PostWire

/-! ## Writers -/

def putUint (width n : Nat) : ByteVector := bigEndian width n
def putU8 (value : UInt8) : ByteVector := [value]
def putU16 (value : UInt16) : ByteVector := putUint 2 value.toNat
def putU32 (value : UInt32) : ByteVector := putUint 4 value.toNat
def putU64 (value : UInt64) : ByteVector := putUint 8 value.toNat
def putI64 (value : Int64) : ByteVector := putU64 value.toUInt64
def putBool (value : Bool) : ByteVector := [if value then 1 else 0]

/-- A `size_t`. -/
def putCount (n : Nat) : ByteVector := putUint 8 n

/-- `WireLenBytes`. -/
def putBytes (value : ByteVector) : ByteVector := putCount value.length ++ value

/-- `WireLenUtf8`. -/
def putUtf8 (value : ByteVector) : ByteVector := putBytes value

def putLane (value : PostLane) : ByteVector := value.val
def putHash (value : PostHash) : ByteVector := value.val

def putRef (value : PostRef) : ByteVector :=
  putUtf8 value.author ++ putLane value.lane ++ putU64 value.seq ++ putHash value.entryHash

/-! ## Readers -/

namespace Read

def uint (width : Nat) : Reader UInt8 Nat := do
  let bytes ← Reader.take width
  pure (readBigEndian bytes)

def u8 : Reader UInt8 UInt8 := do
  let n ← uint 1
  pure (UInt8.ofNat n)

def u16 : Reader UInt8 UInt16 := do
  let n ← uint 2
  pure (UInt16.ofNat n)

def u32 : Reader UInt8 UInt32 := do
  let n ← uint 4
  pure (UInt32.ofNat n)

def u64 : Reader UInt8 UInt64 := do
  let n ← uint 8
  pure (UInt64.ofNat n)

def i64 : Reader UInt8 Int64 := do
  let n ← u64
  pure n.toInt64

/-- Any byte but 0 and 1 is refused. -/
def bool : Reader UInt8 Bool := fun bytes =>
  match bytes with
  | byte :: rest => if byte = 0 then some (false, rest) else if byte = 1 then some (true, rest) else none
  | [] => none

def count : Reader UInt8 Nat := uint 8

def bytes : Reader UInt8 ByteVector := do
  let length ← count
  Reader.take length

def utf8 : Reader UInt8 ByteVector := bytes

def fixed (n : Nat) : Reader UInt8 { bytes : ByteVector // bytes.length = n } := fun bytes =>
  if h : n ≤ bytes.length then some (⟨bytes.take n, List.length_take_of_le h⟩, bytes.drop n) else none

def lane : Reader UInt8 PostLane := fixed kPostLaneBytes

def hash : Reader UInt8 PostHash := fixed kPostHashBytes

def ref : Reader UInt8 PostRef := do
  let author ← utf8
  let lane ← lane
  let seq ← u64
  let entryHash ← hash
  pure { author, lane, seq, entryHash }

/-- `Expect`: the next bytes are exactly these. -/
def expect (expected : ByteVector) : Reader UInt8 Unit := do
  let got ← Reader.take expected.length
  if got = expected then pure () else Reader.fail

end Read

/-! ## Codecs -/

/-- A length that a `size_t` holds. -/
def Sized (n : Nat) : Prop := n < 2 ^ 64

abbrev Any {α : Type} : α → Prop := fun _ => True

theorem uint_codec (width : Nat) : Codec (· < 256 ^ width) Any (putUint width) (Read.uint width) where
  get_put {n rest} hfits _ := by
    have htake : Reader.take width (id (bigEndian width n) ++ rest) = some (bigEndian width n, rest) :=
      (Codec.take width).get_put (length_bigEndian width n) trivial
    rw [Read.uint, Reader.bind_apply, putUint]
    rw [id] at htake
    rw [htake, Option.bind_some, readBigEndian_bigEndian, Nat.mod_eq_of_lt hfits]
    rfl
  get_over _ hnot := absurd trivial hnot
  put_get {bytes n rest} hread := by
    obtain ⟨taken, mid, htake, hpure⟩ := Reader.bind_eq_some.mp hread
    obtain ⟨rfl, rfl⟩ := Prod.mk.inj (Option.some.inj hpure)
    obtain ⟨rfl, -, hbytes⟩ := (Codec.take width).put_get htake
    exact ⟨readBigEndian_lt taken, trivial, by rw [putUint, bigEndian_readBigEndian]; exact hbytes⟩

theorem count_codec : Codec Sized Any putCount Read.count := by
  have hwidth : (256 : Nat) ^ 8 = 2 ^ 64 := by decide
  have h := uint_codec 8
  rw [hwidth] at h
  exact h

theorem u16_codec : Codec Any Any putU16 Read.u16 := by
  refine ((uint_codec 2).map UInt16.toNat UInt16.ofNat (fun c => UInt16.ofNat_toNat) ?_).congr ?_ (fun _ _ => Iff.rfl) (fun _ => rfl) rfl
  · intro n hn
    simpa using hn
  · intro c
    simpa using c.toNat_lt

theorem u32_codec : Codec Any Any putU32 Read.u32 := by
  refine ((uint_codec 4).map UInt32.toNat UInt32.ofNat (fun c => UInt32.ofNat_toNat) ?_).congr ?_ (fun _ _ => Iff.rfl) (fun _ => rfl) rfl
  · intro n hn
    simpa using hn
  · intro c
    simpa using c.toNat_lt

theorem u64_codec : Codec Any Any putU64 Read.u64 := by
  refine ((uint_codec 8).map UInt64.toNat UInt64.ofNat (fun c => UInt64.ofNat_toNat) ?_).congr ?_ (fun _ _ => Iff.rfl) (fun _ => rfl) rfl
  · intro n hn
    simpa using hn
  · intro c
    simpa using c.toNat_lt

theorem u8_codec : Codec Any Any putU8 Read.u8 := by
  refine ((uint_codec 1).map UInt8.toNat UInt8.ofNat (fun c => UInt8.ofNat_toNat) ?_).congr ?_ (fun _ _ => Iff.rfl) ?_ rfl
  · intro n hn
    simpa using hn
  · intro c
    simpa using c.toNat_lt
  · intro c
    simp [putUint, bigEndian, putU8]

theorem i64_codec : Codec Any Any putI64 Read.i64 :=
  (u64_codec.map Int64.toUInt64 UInt64.toInt64 (fun c => Int64.toInt64_toUInt64 c) fun a _ => UInt64.toUInt64_toInt64 a).congr
    (fun _ => Iff.rfl) (fun _ _ => Iff.rfl) (fun _ => rfl) rfl

theorem bool_codec : Codec Any Any putBool Read.bool where
  get_put {b rest} _ _ := by cases b <;> rfl
  get_over _ hnot := absurd trivial hnot
  put_get {bytes b rest} hread := by
    refine ⟨trivial, trivial, ?_⟩
    match bytes with
    | [] => cases hread
    | byte :: bytes =>
      rw [Read.bool] at hread
      split at hread
      next hzero =>
        obtain ⟨rfl, rfl⟩ := Prod.mk.inj (Option.some.inj hread)
        simp [putBool, hzero]
      · split at hread
        next hone =>
          obtain ⟨rfl, rfl⟩ := Prod.mk.inj (Option.some.inj hread)
          simp [putBool, hone]
        · cases hread

theorem bytes_codec : Codec (fun value => Sized value.length) Any putBytes Read.bytes := by
  have h := count_codec.bind (P := fun value : ByteVector => Sized value.length) (f := Reader.take) List.length
    (fun _ h => h) fun n hn => (Codec.take n).congr (fun value => ⟨And.right, fun h => ⟨h ▸ hn, h⟩⟩)
      (fun _ _ => Iff.rfl) (fun _ => rfl) rfl
  exact h.congr (fun _ => Iff.rfl) (fun _ _ => by simp) (fun _ => rfl) rfl

theorem utf8_codec : Codec (fun value => Sized value.length) Any putUtf8 Read.utf8 := bytes_codec

theorem fixed_codec (n : Nat) : Codec Any Any (fun value : { bytes : ByteVector // bytes.length = n } => value.val)
    (Read.fixed n) where
  get_put {value rest} _ _ := by
    have hlong : n ≤ (value.val ++ rest).length := by
      rw [List.length_append, value.property]
      omega
    obtain ⟨bytes, rfl⟩ := value
    rw [Read.fixed, dif_pos hlong]
    simp
  get_over _ hnot := absurd trivial hnot
  put_get {bytes value rest} hread := by
    rw [Read.fixed] at hread
    split at hread
    · obtain ⟨rfl, rfl⟩ := Prod.mk.inj (Option.some.inj hread)
      exact ⟨trivial, trivial, List.take_append_drop n bytes⟩
    · cases hread

theorem lane_codec : Codec Any Any putLane Read.lane := fixed_codec kPostLaneBytes

theorem hash_codec : Codec Any Any putHash Read.hash := fixed_codec kPostHashBytes

def RefSized (value : PostRef) : Prop := Sized value.author.length

theorem ref_codec : Codec RefSized Any putRef Read.ref := by
  have h := utf8_codec.bind (P := RefSized) PostRef.author (fun _ h => h) fun author hauthor =>
    lane_codec.bind PostRef.lane (fun _ _ => trivial) fun lane _ =>
    u64_codec.bind PostRef.seq (fun _ _ => trivial) fun seq _ =>
    hash_codec.bind PostRef.entryHash (fun _ _ => trivial) fun entryHash _ =>
    Codec.done (c := (⟨author, lane, seq, entryHash⟩ : PostRef)) (by
      intro c
      constructor
      · rintro ⟨⟨⟨⟨-, rfl⟩, rfl⟩, rfl⟩, rfl⟩
        rfl
      · rintro rfl
        exact ⟨⟨⟨⟨hauthor, rfl⟩, rfl⟩, rfl⟩, rfl⟩)
  exact h.congr (fun _ => Iff.rfl) (fun _ _ => by simp) (fun _ => by simp [putRef]) rfl

end PostWire

end Pbr
