/-!
# CryptoConstants — sizes

`CryptoConstants.h` and the key sizes of `HybridKem.h`.
-/

namespace Pbr

def kHybridKemPublicKeyBytes : Nat := 1184

def kMlDsa65SignatureBytes : Nat := 3309

def kMasterPskSize : Nat := 32

def kDataEncryptionKeySize : Nat := 32

def kMaxPskBundleBytes : Nat := 4 * 1024

end Pbr
