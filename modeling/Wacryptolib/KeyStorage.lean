import Wacryptolib.Basic

/-!
# The key storage and the escrow monad

`KeyStorageBase` belongs to `wacryptolib.key_storage`, which this repository does not contain:
the storage and its operations are modelled from the spec (§4.A "Keystore", §7):

* a keypair bound to each `(keychain_uid, key_algo)`, written once: `set_keys` raises
  `KeyAlreadyExists` on a bound entry and `get_public_key`/`get_private_key` raise
  `KeyDoesNotExist` on a missing one;
* a pool of free keypairs per `key_algo`: `get_free_keypairs_count`, `add_free_keypair`, and
  `attach_free_keypair_to_uuid`, which moves one free keypair to a keychain and raises
  `KeyDoesNotExist` on an empty pool.

`EscrowM` is `EStateM` over the storage: as in Python, an exception leaves the storage as the
calls before it made it. `tryExcept` is `try: … except <class>: …`. The `run_*` lemmas turn a
program of this monad into its result, so that a proof about a call never unfolds the monad.
-/

namespace Wacryptolib

/-- Modelled from the spec: the contents of a `KeyStorageBase`, the keypair bound to each
`(keychain_uid, key_algo)` and the free keypairs of each `key_algo`. -/
structure KeyStorage where
  keypairs : KeychainUid → KeyAlgo → Option Keypair
  freeKeypairs : KeyAlgo → List Keypair

namespace KeyStorage

/-- A storage with no keypair, bound or free. -/
def empty : KeyStorage := ⟨fun _ _ => none, fun _ => []⟩

/-- `s` with `kp` bound to `(keychainUid, keyAlgo)`. -/
def bindKeypair (s : KeyStorage) (keychainUid : KeychainUid) (keyAlgo : KeyAlgo) (kp : Keypair) :
    KeyStorage :=
  { s with
    keypairs := fun u a => if u = keychainUid ∧ a = keyAlgo then some kp else s.keypairs u a }

/-- `s` with the free pool of `keyAlgo` replaced by `pool`. -/
def setFreeKeypairs (s : KeyStorage) (keyAlgo : KeyAlgo) (pool : List Keypair) : KeyStorage :=
  { s with freeKeypairs := fun a => if a = keyAlgo then pool else s.freeKeypairs a }

variable {s : KeyStorage} {u u' : KeychainUid} {a a' : KeyAlgo} {kp : Keypair} {pool : List Keypair}

@[simp] theorem bindKeypair_keypairs :
    (s.bindKeypair u a kp).keypairs u' a' = if u' = u ∧ a' = a then some kp else s.keypairs u' a' :=
  rfl

@[simp] theorem bindKeypair_freeKeypairs : (s.bindKeypair u a kp).freeKeypairs = s.freeKeypairs :=
  rfl

@[simp] theorem setFreeKeypairs_freeKeypairs :
    (s.setFreeKeypairs a pool).freeKeypairs a' = if a' = a then pool else s.freeKeypairs a' := rfl

@[simp] theorem setFreeKeypairs_keypairs : (s.setFreeKeypairs a pool).keypairs = s.keypairs := rfl

end KeyStorage

/-! ## The escrow monad -/

/-- A call that reads and writes the key storage and may raise. -/
abbrev EscrowM := EStateM EscrowError KeyStorage

/-- The key storage a call leaves, whether it returned or raised. -/
def finalState {α : Type} : EStateM.Result EscrowError KeyStorage α → KeyStorage
  | .ok _ s | .error _ s => s

/-- What a call returned or raised. -/
def outcome {α : Type} : EStateM.Result EscrowError KeyStorage α → Except EscrowError α
  | .ok a _ => .ok a
  | .error e _ => .error e

/-- `try: x` / `except C: handler`, where `catches` tells the exceptions of class `C`; any other
exception propagates. -/
def tryExcept {α : Type} (x : EscrowM α) (catches : EscrowError → Bool) (handler : EscrowM α) :
    EscrowM α :=
  EStateM.tryCatch x fun e => if catches e then handler else throw e

/-- Raise `e` where an `Option`-valued primitive fails. -/
def orRaise {α : Type} (o : Option α) (e : EscrowError) : EscrowM α :=
  match o with
  | some a => pure a
  | none => throw e

/-- A primitive's result, raised if it is an exception. -/
def liftExcept {α : Type} (r : Except EscrowError α) : EscrowM α :=
  match r with
  | .ok a => pure a
  | .error e => throw e

section Run

variable {α β : Type} {s : KeyStorage}

@[simp] theorem run_pure (a : α) : (pure a : EscrowM α).run s = .ok a s := rfl

@[simp] theorem run_throw (e : EscrowError) : (throw e : EscrowM α).run s = .error e s := rfl

@[simp] theorem run_bind (x : EscrowM α) (f : α → EscrowM β) :
    (x >>= f).run s = match x.run s with
      | .ok a s' => (f a).run s'
      | .error e s' => .error e s' := by
  show EStateM.bind x f s = _
  unfold EStateM.bind EStateM.run
  cases x s <;> rfl

@[simp] theorem run_map (f : α → β) (x : EscrowM α) :
    (f <$> x).run s = match x.run s with
      | .ok a s' => .ok (f a) s'
      | .error e s' => .error e s' := by
  show EStateM.map f x s = _
  unfold EStateM.map EStateM.run
  cases x s <;> rfl

@[simp] theorem run_tryExcept (x : EscrowM α) (catches : EscrowError → Bool) (handler : EscrowM α) :
    (tryExcept x catches handler).run s = match x.run s with
      | .ok a s' => .ok a s'
      | .error e s' => if catches e then handler.run s' else .error e s' := by
  show EStateM.tryCatch x _ s = _
  unfold EStateM.tryCatch EStateM.run
  cases x s with
  | ok => rfl
  | error e s' =>
    show (if catches e then handler else throw e) s' = if catches e then handler s' else .error e s'
    cases catches e <;> rfl

@[simp] theorem run_orRaise (o : Option α) (e : EscrowError) :
    (orRaise o e).run s = match o with
      | some a => .ok a s
      | none => .error e s := by
  cases o <;> rfl

@[simp] theorem run_liftExcept (r : Except EscrowError α) :
    (liftExcept r).run s = match r with
      | .ok a => .ok a s
      | .error e => .error e s := by
  cases r <;> rfl

@[simp] theorem run_ite (c : Prop) [Decidable c] (x y : EscrowM α) :
    (if c then x else y).run s = if c then x.run s else y.run s := by
  split <;> rfl

@[simp] theorem finalState_ok (a : α) : finalState (.ok a s : EStateM.Result _ _ α) = s := rfl

@[simp] theorem finalState_error (e : EscrowError) :
    finalState (.error e s : EStateM.Result _ _ α) = s := rfl

theorem finalState_map (f : α → β) (x : EscrowM α) :
    finalState ((f <$> x).run s) = finalState (x.run s) := by
  rw [run_map]
  cases x.run s <;> rfl

/-- A call that leaves the storage as it was, then calls that do, leave it as it was. -/
theorem finalState_bind_of_keeps {x : EscrowM α} {f : α → EscrowM β}
    (hx : finalState (x.run s) = s) (hf : ∀ a, finalState ((f a).run s) = s) :
    finalState ((x >>= f).run s) = s := by
  rw [run_bind]
  cases h : x.run s with
  | ok a s' =>
    obtain rfl : s' = s := by rw [h] at hx; exact hx
    exact hf a
  | error e s' => rw [h] at hx; exact hx

end Run

/-! ## Operations -/

/-- The text of the `KeyDoesNotExist` raised for a missing keypair; the storage's own wording
is not in this repository. -/
def keypairNotFoundMessage (keychainUid : KeychainUid) (keyAlgo : KeyAlgo) : String :=
  "Keypair " ++ uuidString keychainUid ++ "/" ++ keyAlgo ++ " not found in key storage"

/-- The text of the `KeyAlreadyExists` raised for a bound keypair; the storage's own wording is
not in this repository either. -/
def keypairExistsMessage (keychainUid : KeychainUid) (keyAlgo : KeyAlgo) : String :=
  "Keypair " ++ uuidString keychainUid ++ "/" ++ keyAlgo ++ " already exists in key storage"

/-- Modelled from the spec: `get_public_key(keychain_uid, key_algo)`. -/
def getPublicKey (keychainUid : KeychainUid) (keyAlgo : KeyAlgo) : EscrowM Bytes := fun s =>
  match s.keypairs keychainUid keyAlgo with
  | some kp => .ok kp.publicKey s
  | none => .error (.keyDoesNotExist (keypairNotFoundMessage keychainUid keyAlgo)) s

/-- Modelled from the spec: `get_private_key(keychain_uid, key_algo)`. -/
def getPrivateKey (keychainUid : KeychainUid) (keyAlgo : KeyAlgo) : EscrowM Bytes := fun s =>
  match s.keypairs keychainUid keyAlgo with
  | some kp => .ok kp.privateKey s
  | none => .error (.keyDoesNotExist (keypairNotFoundMessage keychainUid keyAlgo)) s

/-- Modelled from the spec: `set_keys(keychain_uid, key_algo, public_key, private_key)`, which
never overwrites a bound keypair. -/
def setKeys (keychainUid : KeychainUid) (keyAlgo : KeyAlgo) (publicKey privateKey : Bytes) :
    EscrowM Unit := fun s =>
  match s.keypairs keychainUid keyAlgo with
  | some _ => .error (.keyAlreadyExists (keypairExistsMessage keychainUid keyAlgo)) s
  | none => .ok () (s.bindKeypair keychainUid keyAlgo ⟨publicKey, privateKey⟩)

/-- Modelled from the spec: `get_free_keypairs_count(key_algo)`. -/
def getFreeKeypairsCount (keyAlgo : KeyAlgo) : EscrowM Nat := fun s =>
  .ok (s.freeKeypairs keyAlgo).length s

/-- Modelled from the spec: `add_free_keypair(key_algo, public_key, private_key)`. -/
def addFreeKeypair (keyAlgo : KeyAlgo) (publicKey privateKey : Bytes) : EscrowM Unit := fun s =>
  .ok () (s.setFreeKeypairs keyAlgo (⟨publicKey, privateKey⟩ :: s.freeKeypairs keyAlgo))

/-- Modelled from the spec: `attach_free_keypair_to_uuid(keychain_uid, key_algo)` consumes one
free keypair of `key_algo` and binds it to `keychain_uid`, under the write-once rule of
`set_keys`. Which free keypair it takes is the storage's choice; this model takes the first. -/
def attachFreeKeypairToUuid (keychainUid : KeychainUid) (keyAlgo : KeyAlgo) : EscrowM Unit :=
  fun s =>
  match s.keypairs keychainUid keyAlgo, s.freeKeypairs keyAlgo with
  | some _, _ => .error (.keyAlreadyExists (keypairExistsMessage keychainUid keyAlgo)) s
  | none, [] => .error (.keyDoesNotExist
      ("No free keypair of type " ++ keyAlgo ++ " available in key storage")) s
  | none, kp :: rest => .ok () ((s.bindKeypair keychainUid keyAlgo kp).setFreeKeypairs keyAlgo rest)

section OperationRuns

variable {s : KeyStorage} {u : KeychainUid} {a : KeyAlgo}

@[simp] theorem getPublicKey_run : (getPublicKey u a).run s = match s.keypairs u a with
    | some kp => .ok kp.publicKey s
    | none => .error (.keyDoesNotExist (keypairNotFoundMessage u a)) s := rfl

@[simp] theorem getPrivateKey_run : (getPrivateKey u a).run s = match s.keypairs u a with
    | some kp => .ok kp.privateKey s
    | none => .error (.keyDoesNotExist (keypairNotFoundMessage u a)) s := rfl

@[simp] theorem setKeys_run (publicKey privateKey : Bytes) :
    (setKeys u a publicKey privateKey).run s = match s.keypairs u a with
    | some _ => .error (.keyAlreadyExists (keypairExistsMessage u a)) s
    | none => .ok () (s.bindKeypair u a ⟨publicKey, privateKey⟩) := rfl

@[simp] theorem getFreeKeypairsCount_run :
    (getFreeKeypairsCount a).run s = .ok (s.freeKeypairs a).length s := rfl

@[simp] theorem addFreeKeypair_run (publicKey privateKey : Bytes) :
    (addFreeKeypair a publicKey privateKey).run s =
      .ok () (s.setFreeKeypairs a (⟨publicKey, privateKey⟩ :: s.freeKeypairs a)) := rfl

@[simp] theorem attachFreeKeypairToUuid_run :
    (attachFreeKeypairToUuid u a).run s = match s.keypairs u a, s.freeKeypairs a with
    | some _, _ => .error (.keyAlreadyExists (keypairExistsMessage u a)) s
    | none, [] => .error (.keyDoesNotExist
        ("No free keypair of type " ++ a ++ " available in key storage")) s
    | none, kp :: rest => .ok () ((s.bindKeypair u a kp).setFreeKeypairs a rest) := rfl

end OperationRuns

end Wacryptolib
