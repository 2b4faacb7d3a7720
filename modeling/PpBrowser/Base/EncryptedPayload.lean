import PpBrowser.Base.Words

/-!
# EncryptedPayload — a nonce and its ciphertext as bytes

`EncryptedPayload.cpp`: what is sealed is written behind a version byte, the
nonce first.
-/

namespace Pbr

def kAeadNonceSize : Nat := 24
def kAeadTagSize : Nat := 16  -- crypto_aead_xchacha20poly1305_ietf_abytes
def kEncryptedPayloadVersion : UInt8 := 1

structure EncryptedBlob where
  nonce : ByteVector
  ciphertext : ByteVector
  deriving DecidableEq, Repr

namespace EncryptedPayload

def encodeBlob (blob : EncryptedBlob) : Roe ByteVector :=
  if blob.nonce.length ≠ kAeadNonceSize then .error "Invalid nonce size"
  else .ok (kEncryptedPayloadVersion :: (blob.nonce ++ blob.ciphertext))

def decodeBlob (bytes : ByteVector) : Roe EncryptedBlob :=
  if bytes.head? ≠ some kEncryptedPayloadVersion then .error "Unsupported encrypted payload version"
  else if bytes.length < 1 + kAeadNonceSize + kAeadTagSize then
    .error "Encrypted payload too short"
  else
    .ok { nonce := (bytes.drop 1).take kAeadNonceSize, ciphertext := bytes.drop (1 + kAeadNonceSize) }

theorem decodeBlob_encodeBlob {blob : EncryptedBlob} (hnonce : blob.nonce.length = kAeadNonceSize)
    (htag : kAeadTagSize ≤ blob.ciphertext.length) :
    ∃ bytes, encodeBlob blob = .ok bytes ∧ bytes ≠ [] ∧ decodeBlob bytes = .ok blob := by
  refine ⟨_, by rw [encodeBlob, if_neg (by simp [hnonce])], by simp, ?_⟩
  have hlong : ¬ (kEncryptedPayloadVersion :: (blob.nonce ++ blob.ciphertext)).length <
      1 + kAeadNonceSize + kAeadTagSize := by
    simp [hnonce]
    omega
  rw [decodeBlob, if_neg (by simp), if_neg hlong]
  have hdrop : ∀ n, (kEncryptedPayloadVersion :: (blob.nonce ++ blob.ciphertext)).drop (1 + n) =
      (blob.nonce ++ blob.ciphertext).drop n := fun n => by rw [Nat.add_comm, List.drop_succ_cons]
  rw [hdrop, ← hnonce, List.drop_left, List.drop_one, List.tail_cons, List.take_left]

end EncryptedPayload

end Pbr
