import Wacryptolib.KeyStorage

/-!
# `wacryptolib/escrow.py`

One definition per function and method of the module:

* `generateKeypairForStorage`;
* the `EscrowApi` methods `ensureKeypairExists`, `fetchPublicKey`, `getMessageSignature` (its
  end, after `_ensure_keypair_exists`, is `signWithStoredKey`), `checkKeypairAuthorization`,
  `decryptPrivateKeyPemWithPassphrases`, `requestDecryptionAuthorization` (its loop body is
  `keypairStatus`, its loop `collectKeypairStatuses`) and `decryptWithPrivateKey`;
* `ReadonlyEscrowApi.ensureKeypairExists`, the one method that `ReadonlyEscrowApi` overrides;
* `generateFreeKeypairForLeastProvisionedKeyAlgo`, the task of the free-keys worker.

An `EscrowApi` value is an instance: its class and the verdict of its
`_check_keypair_authorization` hook, the method subclasses override to add a policy. Calls of
`self._ensure_keypair_exists` dispatch on the class (`EscrowApi.callEnsureKeypairExists`).
Logging is left out. A private key that loads is a truthy object, so `assert res` never fires.
The texts of the exceptions the module raises are named once, as the methods write them.
-/

namespace Wacryptolib

/-- `MAX_PAYLOAD_LENGTH_FOR_SIGNATURE`: max 2*SHA512 length. -/
def MAX_PAYLOAD_LENGTH_FOR_SIGNATURE : Nat := 128

/-! ## The texts of the exceptions the module raises -/

/-- The `ValueError` of `get_message_signature` for a message over 128 bytes. -/
def messageTooBigMessage : String := "Message too big for signing, only a hash should be sent"

/-- The `KeyDoesNotExist` of `ReadonlyEscrowApi._ensure_keypair_exists`,
`"Keypair %s/%s not found in escrow api" % (keychain_uid, key_algo)`. -/
def readonlyNotFoundMessage (keychainUid : KeychainUid) (keyAlgo : KeyAlgo) : String :=
  "Keypair " ++ uuidString keychainUid ++ "/" ++ keyAlgo ++ " not found in escrow api"

/-- The `DecryptionError` of `_decrypt_private_key_pem_with_passphrases`. -/
def privateKeyDecryptionMessage (keyAlgo : KeyAlgo) (passphrases : Passphrases) : String :=
  "Could not decrypt private key of type " ++ keyAlgo ++ " (passphrases provided: " ++
    toString passphrases.length ++ ")"

/-- The `ValueError` of `request_decryption_authorization` without identifiers. -/
def emptyIdentifiersMessage : String :=
  "Keypair identifiers must not be empty, when requesting decryption authorization"

/-! ## The methods -/

/-- `generate_keypair_for_storage(key_algo, key_storage=..., keychain_uid=..., passphrase=...)`:
generate a keypair and store it. `escrow.py` always passes `keychain_uid`, so the
`generate_uuid0()` default is not modelled. -/
def generateKeypairForStorage (generateKeypair : KeypairGenerator) (keyAlgo : KeyAlgo)
    (keychainUid : KeychainUid) (passphrase : Option Passphrase) : EscrowM Keypair := do
  let keypair ← liftExcept (generateKeypair keyAlgo passphrase)
  setKeys keychainUid keyAlgo keypair.publicKey keypair.privateKey
  return keypair

/-- The two classes of the module. -/
inductive EscrowApiClass
  | escrowApi
  | readonlyEscrowApi
  deriving DecidableEq, Repr

/-- An instance of `EscrowApi` or of a subclass: its class, and the verdict of its
`_check_keypair_authorization` on each keypair (`false` where the hook raises
`AuthorizationError`). -/
structure EscrowApi where
  kind : EscrowApiClass
  authorizes : KeychainUid → KeyAlgo → Bool

/-- `EscrowApi(key_storage)`: the base implementation always allows decryption. -/
def escrowApi : EscrowApi := ⟨.escrowApi, fun _ _ => true⟩

/-- `ReadonlyEscrowApi(key_storage)`. -/
def readonlyEscrowApi : EscrowApi := ⟨.readonlyEscrowApi, fun _ _ => true⟩

namespace EscrowApi

/-- `EscrowApi._ensure_keypair_exists`: create a keypair if it doesn't exist, preferably by
attaching a free one. -/
def ensureKeypairExists (generateKeypair : KeypairGenerator) (keychainUid : KeychainUid)
    (keyAlgo : KeyAlgo) : EscrowM Unit := do
  let available ← tryExcept (do let _ ← getPublicKey keychainUid keyAlgo; pure true)
    EscrowError.isKeyDoesNotExist (pure false)
  if available then return  -- Ok the key is available!
  tryExcept (attachFreeKeypairToUuid keychainUid keyAlgo) EscrowError.isKeyDoesNotExist do
    let _ ← generateKeypairForStorage generateKeypair keyAlgo keychainUid none

end EscrowApi

/-- `ReadonlyEscrowApi._ensure_keypair_exists`: never generates keys, only tweaks the error
message of a missing keypair. -/
def ReadonlyEscrowApi.ensureKeypairExists (keychainUid : KeychainUid) (keyAlgo : KeyAlgo) :
    EscrowM Unit :=
  tryExcept (do let _ ← getPublicKey keychainUid keyAlgo; pure ()) EscrowError.isKeyDoesNotExist
    (throw (.keyDoesNotExist (readonlyNotFoundMessage keychainUid keyAlgo)))

namespace EscrowApi

/-- `self._ensure_keypair_exists(...)`: the method of the instance's class. -/
def callEnsureKeypairExists (api : EscrowApi) (generateKeypair : KeypairGenerator)
    (keychainUid : KeychainUid) (keyAlgo : KeyAlgo) : EscrowM Unit :=
  match api.kind with
  | .escrowApi => ensureKeypairExists generateKeypair keychainUid keyAlgo
  | .readonlyEscrowApi => ReadonlyEscrowApi.ensureKeypairExists keychainUid keyAlgo

/-- `fetch_public_key(keychain_uid, key_algo, must_exist)`: the public key in PEM format; if
`must_exist` is false the keypair is created when missing. -/
def fetchPublicKey (api : EscrowApi) (generateKeypair : KeypairGenerator)
    (keychainUid : KeychainUid) (keyAlgo : KeyAlgo) (mustExist : Bool) : EscrowM Bytes := do
  if !mustExist then
    api.callEnsureKeypairExists generateKeypair keychainUid keyAlgo
  getPublicKey keychainUid keyAlgo  -- Let the exception flow if any

end EscrowApi

/-- The end of `get_message_signature`, once `_ensure_keypair_exists` has returned: read the
private key, load it without a passphrase, sign. -/
def signWithStoredKey (P : Primitives) (keychainUid : KeychainUid) (message : Bytes)
    (signatureAlgo : KeyAlgo) : EscrowM P.Signature := do
  let privateKeyPem ← getPrivateKey keychainUid signatureAlgo
  let privateKey ← orRaise (P.loadAsymmetricKeyFromPemBytestring privateKeyPem signatureAlgo none)
    .keyLoadingError
  liftExcept (P.signMessage message signatureAlgo privateKey)

namespace EscrowApi

/-- `get_message_signature(keychain_uid, message, signature_algo)`. -/
def getMessageSignature (api : EscrowApi) (P : Primitives) (generateKeypair : KeypairGenerator)
    (keychainUid : KeychainUid) (message : Bytes) (signatureAlgo : KeyAlgo) :
    EscrowM P.Signature := do
  if message.length > MAX_PAYLOAD_LENGTH_FOR_SIGNATURE then  -- SECURITY
    throw (.valueError messageTooBigMessage)
  api.callEnsureKeypairExists generateKeypair keychainUid signatureAlgo
  signWithStoredKey P keychainUid message signatureAlgo

/-- `_check_keypair_authorization`: raises if authorization is not given to decrypt with this
keypair. -/
def checkKeypairAuthorization (api : EscrowApi) (keychainUid : KeychainUid) (keyAlgo : KeyAlgo) :
    EscrowM Unit :=
  if api.authorizes keychainUid keyAlgo then pure () else throw .authorizationError

/-- `_decrypt_private_key_pem_with_passphrases`: the key loaded with the first of
`[None] + passphrases` that works (`for passphrase in ...: try: return load(...) except
KeyLoadingError: pass`), else `DecryptionError`. It reads nothing of the key storage. -/
def decryptPrivateKeyPemWithPassphrases (P : Primitives) (privateKeyPem : Bytes)
    (keyAlgo : KeyAlgo) (passphrases : Passphrases) : Except EscrowError P.Key := do
  let candidates ← passphrases.prependNone
  match candidates.findSome? (P.loadAsymmetricKeyFromPemBytestring privateKeyPem keyAlgo) with
  | some keyObj => return keyObj
  | none => throw (.decryptionError (privateKeyDecryptionMessage keyAlgo passphrases))

end EscrowApi

/-! ## Decryption authorization -/

/-- A keypair identifier, the dict `{"keychain_uid": ..., "key_algo": ...}`. -/
structure KeypairIdentifier where
  keychainUid : KeychainUid
  keyAlgo : KeyAlgo
  deriving DecidableEq, Repr

/-- The list of `keypair_statuses` that an identifier is appended to. -/
inductive KeypairStatus
  | missingPrivateKey
  | authorizationMissing
  | missingPassphrase
  | accepted
  deriving DecidableEq, Repr

/-- The `keypair_statuses` dict, in the order of its keys in the source. -/
structure KeypairStatuses where
  missingPrivateKey : List KeypairIdentifier
  authorizationMissing : List KeypairIdentifier
  missingPassphrase : List KeypairIdentifier
  accepted : List KeypairIdentifier
  deriving DecidableEq, Repr

namespace KeypairStatuses

/-- The four lists before the loop. -/
def empty : KeypairStatuses := ⟨[], [], [], []⟩

/-- `<status>.append(keypair_identifier)`. -/
def append (statuses : KeypairStatuses) : KeypairStatus → KeypairIdentifier → KeypairStatuses
  | .missingPrivateKey, id => { statuses with missingPrivateKey := statuses.missingPrivateKey ++ [id] }
  | .authorizationMissing, id =>
    { statuses with authorizationMissing := statuses.authorizationMissing ++ [id] }
  | .missingPassphrase, id => { statuses with missingPassphrase := statuses.missingPassphrase ++ [id] }
  | .accepted, id => { statuses with accepted := statuses.accepted ++ [id] }

/-- `sum(len(x) for x in keypair_statuses.values())`. -/
def total (statuses : KeypairStatuses) : Nat :=
  statuses.missingPrivateKey.length + statuses.authorizationMissing.length +
    statuses.missingPassphrase.length + statuses.accepted.length

end KeypairStatuses

/-- The dict returned by `request_decryption_authorization`. -/
structure AuthorizationResult where
  responseMessage : String
  hasErrors : Bool
  keypairStatuses : KeypairStatuses
  deriving DecidableEq, Repr

namespace EscrowApi

/-- One pass of `for keypair_identifier in keypair_identifiers`: the list the identifier goes
to, each `except` clause ending the pass with `continue`. -/
def keypairStatus (api : EscrowApi) (P : Primitives) (passphrases : Passphrases)
    (keypairIdentifier : KeypairIdentifier) : EscrowM KeypairStatus := do
  let keychainUid := keypairIdentifier.keychainUid
  let keyAlgo := keypairIdentifier.keyAlgo
  let authorized ← tryExcept (do api.checkKeypairAuthorization keychainUid keyAlgo; pure true)
    EscrowError.isAuthorizationError (pure false)
  if !authorized then return .authorizationMissing
  let privateKeyPem? ← tryExcept (do let pem ← getPrivateKey keychainUid keyAlgo; pure (some pem))
    EscrowError.isKeyDoesNotExist (pure none)
  match privateKeyPem? with
  | none => return .missingPrivateKey
  | some privateKeyPem =>
    let loaded ← tryExcept
      (do
        let _ ← liftExcept (decryptPrivateKeyPemWithPassphrases P privateKeyPem keyAlgo passphrases)
        pure true)
      EscrowError.isDecryptionError (pure false)
    return if loaded then .accepted else .missingPassphrase

/-- The loop of `request_decryption_authorization` over the identifiers left. -/
def collectKeypairStatuses (api : EscrowApi) (P : Primitives) (passphrases : Passphrases) :
    List KeypairIdentifier → KeypairStatuses → EscrowM KeypairStatuses
  | [], statuses => pure statuses
  | keypairIdentifier :: rest, statuses => do
    let status ← api.keypairStatus P passphrases keypairIdentifier
    api.collectKeypairStatuses P passphrases rest (statuses.append status keypairIdentifier)

/-- `request_decryption_authorization(keypair_identifiers, request_message, passphrases)`.
`request_message` is not read, so it is not an argument here. -/
def requestDecryptionAuthorization (api : EscrowApi) (P : Primitives)
    (keypairIdentifiers : List KeypairIdentifier) (passphrases : Passphrases) :
    EscrowM AuthorizationResult := do
  let passphrases := passphrases.orEmpty
  if !passphrases.isTupleOrList then throw .assertionError
  if keypairIdentifiers.isEmpty then
    throw (.valueError emptyIdentifiersMessage)
  let keypairStatuses ←
    api.collectKeypairStatuses P passphrases keypairIdentifiers KeypairStatuses.empty
  let hasErrors := decide (keypairStatuses.accepted.length < keypairIdentifiers.length)
  if keypairStatuses.total ≠ keypairIdentifiers.length then throw .assertionError
  return {
    responseMessage := if hasErrors then "Decryption request denied" else "Decryption request accepted"
    hasErrors := hasErrors
    keypairStatuses := keypairStatuses }

/-- One character under Python's `str.upper`, exactly where the result is ASCII: the ASCII
letters, and the ten other characters whose upper case is ASCII, `ß`, `ı`, `ſ` and the ligatures
`ﬀ` to `ﬆ`. Every other character is kept: Python maps it to a text that is not ASCII, so no
comparison with an ASCII text, such as the assertion on `"RSA_OAEP"`, turns out otherwise. -/
def upperChar : Char → List Char
  | 'ß' => ['S', 'S']
  | 'ı' => ['I']
  | 'ſ' => ['S']
  | 'ﬀ' => ['F', 'F']
  | 'ﬁ' => ['F', 'I']
  | 'ﬂ' => ['F', 'L']
  | 'ﬃ' => ['F', 'F', 'I']
  | 'ﬄ' => ['F', 'F', 'L']
  | 'ﬅ' => ['S', 'T']
  | 'ﬆ' => ['S', 'T']
  | c => [c.toUpper]

/-- Python's `str.upper`, as far as `upperChar` goes. -/
def upper (s : String) : String := ⟨s.data.flatMap upperChar⟩

example : upper "rſa_oaep" = "RSA_OAEP" := rfl

/-- `decrypt_with_private_key(keychain_uid, encryption_algo, cipherdict, passphrases)`. The
method reads nothing of the instance but its key storage: no hook is consulted. -/
def decryptWithPrivateKey (P : Primitives) (keychainUid : KeychainUid) (encryptionAlgo : KeyAlgo)
    (cipherdict : P.Cipherdict) (passphrases : Passphrases) : EscrowM Bytes := do
  if upper encryptionAlgo ≠ "RSA_OAEP" then throw .assertionError
  let passphrases := passphrases.orEmpty
  if !passphrases.isTupleOrList then throw .assertionError
  let privateKeyPem ← getPrivateKey keychainUid encryptionAlgo
  let privateKey ←
    liftExcept (decryptPrivateKeyPemWithPassphrases P privateKeyPem encryptionAlgo passphrases)
  liftExcept (P.decryptViaRsaOaep cipherdict privateKey)

end EscrowApi

/-! ## Free keypairs -/

/-- Python's `<` on `(count, key_algo)` tuples. -/
def countLt (x y : Nat × KeyAlgo) : Bool := x.1 < y.1 || (x.1 = y.1 && x.2 < y.2)

/-- `min(free_keys_counts)`: the first least tuple, `ValueError` on an empty sequence. -/
def minFreeKeysCount : List (Nat × KeyAlgo) → Except EscrowError (Nat × KeyAlgo)
  | [] => .error (.valueError "min() arg is an empty sequence")
  | first :: rest => .ok (rest.foldl (fun least x => if countLt x least then x else least) first)

/-- `generate_free_keypair_for_least_provisioned_key_algo(key_storage, max_free_keys_per_algo,
key_generation_func, key_algos)`: add one free keypair of the least provisioned algorithm,
unless every pool is full; `true` iff a keypair was generated. `key_generation_func` may raise,
and its exception escapes. -/
def generateFreeKeypairForLeastProvisionedKeyAlgo (maxFreeKeysPerAlgo : Int)
    (keyGenerationFunc : KeyAlgo → Except EscrowError Keypair) (keyAlgos : List KeyAlgo) :
    EscrowM Bool := do
  if keyAlgos.isEmpty then throw .assertionError
  let freeKeysCounts ← keyAlgos.mapM fun keyAlgo => do
    let count ← getFreeKeypairsCount keyAlgo
    pure (count, keyAlgo)
  let (count, keyAlgo) ← liftExcept (minFreeKeysCount freeKeysCounts)
  if count ≥ maxFreeKeysPerAlgo then return false
  let keypair ← liftExcept (keyGenerationFunc keyAlgo)
  addFreeKeypair keyAlgo keypair.publicKey keypair.privateKey
  return true

end Wacryptolib
