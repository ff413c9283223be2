import Mathlib.Algebra.Order.Ring.Nat
import Mathlib.Data.List.Dedup
import Mathlib.Data.String.Basic

/-!
# Values, exceptions and cryptographic primitives

The data that `wacryptolib/escrow.py` passes around, in the types of this model:

* `Bytes`, `KeychainUid`, `KeyAlgo`, `Passphrase`, and a `Keypair` of PEM bytestrings;
  `uuidString` is `str(keychain_uid)`, as the module's messages print it;
* `EscrowError`: the exceptions the module raises or lets through, one constructor per Python
  class, with the message where the module writes one;
* `Passphrases`: the `passphrases` argument, which Python allows to be `None`, a list or a tuple,
  with `passphrases or []`, the `isinstance` check and `[None] + passphrases`;
* `Primitives`: the functions of `key_generation`, `signature` and `encryption` that the module
  calls (and the two its tests check results with), taken as parameters, each with the
  exceptions it may raise. `Primitives.IsKeypair` says what it means for a stored pair to be a
  keypair. `lockedPrimitives` and `plainPrimitives` are concrete instances to run the model on.
-/

namespace Wacryptolib

/-- A Python `bytes` value. -/
abbrev Bytes := List UInt8

/-- A `keychain_uid`: a UUID, by its 128-bit integer value `uuid.int`. -/
abbrev KeychainUid := BitVec 128

/-- `str(keychain_uid)`: the 32 hexadecimal digits `'%032x' % uuid.int`, cut 8-4-4-4-12. -/
def uuidString (keychainUid : KeychainUid) : String :=
  let hex := keychainUid.toHex
  hex.take 8 ++ "-" ++ (hex.drop 8).take 4 ++ "-" ++ (hex.drop 12).take 4 ++ "-" ++
    (hex.drop 16).take 4 ++ "-" ++ hex.drop 20

example : uuidString 0x123456789abcdef0fedcba9876543210 =
    "12345678-9abc-def0-fedc-ba9876543210" := rfl

/-- A key algorithm name, such as `"RSA_OAEP"` or `"DSA_DSS"`. -/
abbrev KeyAlgo := String

abbrev Passphrase := String

/-- The `{"public_key": ..., "private_key": ...}` dict of `generate_keypair(serialize=True)`. -/
structure Keypair where
  publicKey : Bytes
  privateKey : Bytes
  deriving DecidableEq, Repr

/-- The exceptions of `escrow.py` and of the calls it makes, one constructor per Python class. -/
inductive EscrowError where
  | keyDoesNotExist (message : String)
  | keyAlreadyExists (message : String)
  | keyLoadingError
  | decryptionError (message : String)
  | authorizationError
  | valueError (message : String)
  | typeError (message : String)
  | assertionError
  deriving DecidableEq, Repr

/-- A generator of keypairs, `generate_keypair(key_algo=..., serialize=True, passphrase=...)`, with
the exception it raises (a `ValueError` for an algorithm it does not know). Generation is random,
so every call that may generate receives the generator it draws from. -/
abbrev KeypairGenerator := KeyAlgo → Option Passphrase → Except EscrowError Keypair

namespace EscrowError

/-- Caught by `except KeyDoesNotExist`. -/
def isKeyDoesNotExist : EscrowError → Bool
  | keyDoesNotExist _ => true
  | _ => false

/-- Caught by `except AuthorizationError`. -/
def isAuthorizationError : EscrowError → Bool
  | authorizationError => true
  | _ => false

/-- Caught by `except DecryptionError`. -/
def isDecryptionError : EscrowError → Bool
  | decryptionError _ => true
  | _ => false

end EscrowError

/-! ## The `passphrases` argument -/

/-- The `passphrases` argument of `request_decryption_authorization` and
`decrypt_with_private_key` (`Optional[Sequence]`): `None`, a list or a tuple. -/
inductive Passphrases where
  | none
  | list (items : List Passphrase)
  | tuple (items : List Passphrase)
  deriving DecidableEq, Repr

/-- The `TypeError` of `[None] + passphrases` when `passphrases` is a tuple. -/
def tupleConcatenationError : EscrowError :=
  .typeError "can only concatenate list (not \"tuple\") to list"

namespace Passphrases

/-- `passphrases or []`: `None` and the empty sequences are falsy. -/
def orEmpty : Passphrases → Passphrases
  | none | list [] | tuple [] => list []
  | passphrases => passphrases

/-- `isinstance(passphrases, (tuple, list))`. -/
def isTupleOrList : Passphrases → Bool
  | none => false
  | _ => true

/-- `len(passphrases)`. -/
def length : Passphrases → Nat
  | none => 0
  | list items | tuple items => items.length

/-- `[None] + passphrases`: a list concatenates, a tuple or `None` raises `TypeError`. -/
def prependNone : Passphrases → Except EscrowError (List (Option Passphrase))
  | list items => .ok (Option.none :: items.map some)
  | tuple _ => .error tupleConcatenationError
  | none => .error (.typeError "can only concatenate list (not \"NoneType\") to list")

@[simp] theorem orEmpty_list (items : List Passphrase) : (list items).orEmpty = list items := by
  cases items <;> rfl

/-- A non-empty tuple is truthy: `passphrases or []` keeps it. -/
theorem orEmpty_tuple {items : List Passphrase} (h : items ≠ []) :
    (tuple items).orEmpty = tuple items := by
  obtain ⟨_, _, rfl⟩ := List.exists_cons_of_ne_nil h
  rfl

@[simp] theorem isTupleOrList_orEmpty (p : Passphrases) : p.orEmpty.isTupleOrList = true := by
  rcases p with _ | ⟨_ | _⟩ | ⟨_ | _⟩ <;> rfl

end Passphrases

/-! ## Primitives -/

/-- The functions of `key_generation`, `signature` and `encryption` that `escrow.py` calls, and
the two that its tests use to check their results. Keys, signatures and cipherdicts are opaque. -/
structure Primitives where
  Key : Type
  Signature : Type
  Cipherdict : Type
  /-- `load_asymmetric_key_from_pem_bytestring(key_pem, key_algo, passphrase)`; `none` is the
  `KeyLoadingError` it raises for a wrong passphrase. -/
  loadAsymmetricKeyFromPemBytestring : Bytes → KeyAlgo → Option Passphrase → Option Key
  /-- `sign_message(message, signature_algo, key)`, with the exceptions it raises (a `ValueError`
  for an algorithm that does not sign, such as `"RSA_OAEP"`). -/
  signMessage : Bytes → KeyAlgo → Key → Except EscrowError Signature
  /-- `_decrypt_via_rsa_oaep(cipherdict, key_dict)`, with the exceptions it raises. -/
  decryptViaRsaOaep : Cipherdict → Key → Except EscrowError Bytes
  /-- Whether `verify_message_signature(message, signature, key, signature_algo)` accepts. -/
  verifyMessageSignature : Bytes → Signature → Key → KeyAlgo → Bool
  /-- `c` is one of the results of the randomised `_encrypt_via_rsa_oaep(plaintext=m, key=k)`. -/
  IsRsaOaepEncryption : Key → Bytes → Cipherdict → Prop

/-- `kp` is a keypair of `keyAlgo`: every signature made with a key loaded from its private half
verifies under the key loaded from its public half, and such a key opens what was encrypted under
that public key. -/
def Primitives.IsKeypair (P : Primitives) (keyAlgo : KeyAlgo) (kp : Keypair) : Prop :=
  ∀ passphrase privateKey,
    P.loadAsymmetricKeyFromPemBytestring kp.privateKey keyAlgo passphrase = some privateKey →
    ∃ publicKey, P.loadAsymmetricKeyFromPemBytestring kp.publicKey keyAlgo none = some publicKey ∧
      (∀ message signature, P.signMessage message keyAlgo privateKey = .ok signature →
        P.verifyMessageSignature message signature publicKey keyAlgo = true) ∧
      ∀ message cipherdict, P.IsRsaOaepEncryption publicKey message cipherdict →
        P.decryptViaRsaOaep cipherdict privateKey = .ok message

/-- The signature algorithms of the repository's tests. -/
def signatureAlgos : List KeyAlgo := ["RSA_PSS", "DSA_DSS", "ECC_DSS"]

/-- Primitives whose keys are their PEM bytes, the PEM `pem` loading with the passphrase
`locks pem` only (`none`: without a passphrase); whose signature of `m` is `m ++ key`, made with
the algorithms of `signatureAlgos` only, `ValueError` otherwise; and whose encryption is the
identity: a concrete instance to run the model on. -/
def lockedPrimitives (locks : Bytes → Option Passphrase) : Primitives where
  Key := Bytes
  Signature := Bytes
  Cipherdict := Bytes
  loadAsymmetricKeyFromPemBytestring pem _ passphrase :=
    if passphrase = locks pem then some pem else none
  signMessage message signatureAlgo key :=
    if signatureAlgo ∈ signatureAlgos then .ok (message ++ key)
    else .error (.valueError ("Unknown signature algorithm " ++ signatureAlgo))
  decryptViaRsaOaep cipherdict _ := .ok cipherdict
  verifyMessageSignature message signature key _ := signature == message ++ key
  IsRsaOaepEncryption _ message cipherdict := cipherdict = message

/-- `lockedPrimitives` with no PEM locked. -/
def plainPrimitives : Primitives := lockedPrimitives fun _ => none

/-- A pair whose halves are equal is a keypair of `plainPrimitives`. -/
theorem plainPrimitives_isKeypair (keyAlgo : KeyAlgo) (key : Bytes) :
    plainPrimitives.IsKeypair keyAlgo ⟨key, key⟩ := by
  intro passphrase privateKey h
  cases passphrase <;> simp [plainPrimitives, lockedPrimitives] at h
  subst h
  refine ⟨key, rfl, fun _ _ h => ?_, fun _ _ h => congrArg Except.ok h⟩
  simp only [plainPrimitives, lockedPrimitives] at h ⊢
  split_ifs at h
  cases h
  simp

end Wacryptolib
