import Wacryptolib.Runs

/-!
# The life of an entry along a run

An entry `(keychain_uid, key_algo)` of the storage is unbound until a provisioning call binds it,
and from then on it is bound to that keypair: no method and no move of the free-keys worker
rebinds or unbinds an entry. What `request_decryption_authorization` reports about an entry, and
what `decrypt_with_private_key` does with it, therefore settle once the entry is bound; only the
hook of the instance, which a subclass may change over time, can still refuse it.

* `runEvents_keepsBindings`: every run keeps every binding, whatever the instance and the
  generators, as each event does (`step_keepsBindings`);
* `bound_of_expectedKeypairStatus`: `accepted` and `missing_passphrase` name a bound entry, and
  whether a candidate passphrase loads its private key;
* `expectedKeypairStatus_later`: to a storage that keeps the bindings, with any hook there, an
  entry is `missing_private_key` only if it was so or refused before, and an `accepted` or
  `missing_passphrase` entry keeps its status unless the hook now refuses it;
* `passesKeyLoading_of_loads`, `decryptWithPrivateKey_of_unloadable`: `decrypt_with_private_key`
  on a bound entry gets past key loading exactly when a candidate loads the private key;
  `decryptWithPrivateKey_of_keypair`: on an entry bound to a keypair it then opens what was
  encrypted under the public half;
* `authorization_settles`: along every run, what a later request reports and what a later
  decryption does, given what an earlier request reported.
-/

namespace Wacryptolib

open EscrowApi KeyStorage

section Bindings

variable {api : EscrowApi} {P : Primitives} {s : KeyStorage}

/-- A run keeps every binding of the storage it starts from. -/
theorem runEvents_keepsBindings (events : List (Event P)) (s : KeyStorage) :
    KeepsBindings s (api.runEvents P events s).2 :=
  (@runEvents_invariant api P (KeepsBindings s) (fun _ _ => True) events
    (fun e _ _ hs' => ⟨hs'.trans (step_keepsBindings e), trivial⟩) s (.refl s)).1

end Bindings

section Statuses

variable {api : EscrowApi} {P : Primitives} {s : KeyStorage} {ps : List Passphrase}

/-- An entry `accepted` or `missing_passphrase` is bound, to a keypair whose private key some
candidate of `[None] + ps` loads exactly when the entry is `accepted`. -/
theorem bound_of_expectedKeypairStatus {id : KeypairIdentifier} {σ : KeypairStatus}
    (h : expectedKeypairStatus api P s ps id = σ) (hσ : σ = .accepted ∨ σ = .missingPassphrase) :
    ∃ kp, s.keypairs id.keychainUid id.keyAlgo = some kp ∧
      ((Option.none :: ps.map some).any fun p =>
        (P.loadAsymmetricKeyFromPemBytestring kp.privateKey id.keyAlgo p).isSome) =
        decide (σ = .accepted) := by
  unfold expectedKeypairStatus at h
  split at h
  · split at h <;> rename_i kp? hk
    · subst h; simp at hσ
    · refine ⟨_, hk, ?_⟩
      split at h <;> subst h <;> simp_all
  · subst h; simp at hσ

/-- From `s` to a storage `s'` that keeps its bindings, with the hook of any instance at `s'`:
an entry missing its private key at `s'` was missing it, or refused, at `s`; an entry `accepted`
or `missing_passphrase` at `s` has the same status at `s'` unless the hook there refuses it. -/
theorem expectedKeypairStatus_later (api' : EscrowApi) {s' : KeyStorage} (h : KeepsBindings s s')
    (ps : List Passphrase) (id : KeypairIdentifier) :
    (expectedKeypairStatus api' P s' ps id = .missingPrivateKey →
      expectedKeypairStatus api P s ps id = .missingPrivateKey ∨
        expectedKeypairStatus api P s ps id = .authorizationMissing) ∧
    (∀ σ, σ = .accepted ∨ σ = .missingPassphrase → expectedKeypairStatus api P s ps id = σ →
      expectedKeypairStatus api' P s' ps id = σ ∨
        expectedKeypairStatus api' P s' ps id = .authorizationMissing) := by
  unfold expectedKeypairStatus
  cases api'.authorizes id.keychainUid id.keyAlgo
  · simp
  cases api.authorizes id.keychainUid id.keyAlgo
  · simp
  cases hk : s.keypairs id.keychainUid id.keyAlgo with
  | none => simp
  | some kp =>
    simp only [h _ _ _ hk, ↓reduceIte]
    split <;> simp

end Statuses

section Decryption

variable {P : Primitives} {s : KeyStorage} {u : KeychainUid} {a : KeyAlgo} {kp : Keypair}
  {ps : List Passphrase}

/-- On an entry bound to `kp`, `decrypt_with_private_key` gets past loading the private key
when a candidate of `[None] + ps` loads it. -/
theorem passesKeyLoading_of_loads (ha : upper a = "RSA_OAEP") (hk : s.keypairs u a = some kp)
    (hl : ((Option.none :: ps.map some).any fun p =>
      (P.loadAsymmetricKeyFromPemBytestring kp.privateKey a p).isSome) = true) (c : P.Cipherdict) :
    PassesKeyLoading P s u a c (.list ps) := by
  rw [← findSome?_isSome_eq_any] at hl
  obtain ⟨key, hkey⟩ := Option.isSome_iff_exists.mp hl
  have hdec : decryptPrivateKeyPemWithPassphrases P kp.privateKey a (.list ps) = .ok key := by
    rw [decryptPrivateKeyPemWithPassphrases_list, hkey]
  refine ⟨kp, key, ha, hk, by rwa [Passphrases.orEmpty_list], ?_⟩
  rw [decryptWithPrivateKey_run, if_pos ha, hk, Passphrases.orEmpty_list]
  dsimp only
  rw [hdec]

/-- On an entry bound to `kp`, when no candidate of `[None] + ps` loads its private key,
`decrypt_with_private_key` raises `DecryptionError`. -/
theorem decryptWithPrivateKey_of_unloadable (ha : upper a = "RSA_OAEP")
    (hk : s.keypairs u a = some kp)
    (hl : ((Option.none :: ps.map some).any fun p =>
      (P.loadAsymmetricKeyFromPemBytestring kp.privateKey a p).isSome) = false) (c : P.Cipherdict) :
    ∃ msg, (decryptWithPrivateKey P u a c (.list ps)).run s = .error (.decryptionError msg) s := by
  rw [← findSome?_isSome_eq_any] at hl
  rw [decryptWithPrivateKey_run, if_pos ha, hk, Passphrases.orEmpty_list]
  dsimp only
  rw [decryptPrivateKeyPemWithPassphrases_list,
    Option.not_isSome_iff_eq_none.mp (Bool.eq_false_iff.mp hl)]
  exact ⟨_, rfl⟩

end Decryption

/-- Along every run of any calls and moves of the worker: take two authorization requests with
the same identifiers and passphrases, one at the start and one at the end, by instances whose hooks
may differ. An identifier reported `missing_private_key` at the end was reported so, or
`authorization_missing`, at the start; one reported `accepted` or `missing_passphrase` at the start
is reported the same at the end, unless the hook at the end refuses it. And at the end,
`decrypt_with_private_key` with those passphrases gets past key loading on every RSA-OAEP entry
accepted at the start, and raises `DecryptionError` on every one missing a passphrase. -/
theorem authorization_settles (api api' : EscrowApi) (P : Primitives) (s : KeyStorage)
    (events : List (Event P)) (ids : List KeypairIdentifier) (ps : List Passphrase)
    (hids : ids ≠ []) :
    let s' := (api.runEvents P events s).2
    ∃ r r', (api.requestDecryptionAuthorization P ids (.list ps)).run s = .ok r s ∧
      (api'.requestDecryptionAuthorization P ids (.list ps)).run s' = .ok r' s' ∧
      (∀ id ∈ r'.keypairStatuses.missingPrivateKey,
        id ∈ r.keypairStatuses.missingPrivateKey ∨ id ∈ r.keypairStatuses.authorizationMissing) ∧
      (∀ id ∈ r.keypairStatuses.accepted,
        id ∈ r'.keypairStatuses.accepted ∨ id ∈ r'.keypairStatuses.authorizationMissing) ∧
      (∀ id ∈ r.keypairStatuses.missingPassphrase,
        id ∈ r'.keypairStatuses.missingPassphrase ∨ id ∈ r'.keypairStatuses.authorizationMissing) ∧
      ∀ u a (c : P.Cipherdict), upper a = "RSA_OAEP" →
        (⟨u, a⟩ ∈ r.keypairStatuses.accepted → PassesKeyLoading P s' u a c (.list ps)) ∧
        (⟨u, a⟩ ∈ r.keypairStatuses.missingPassphrase →
          ∃ msg, (decryptWithPrivateKey P u a c (.list ps)).run s' =
            .error (.decryptionError msg) s') := by
  intro s'
  have hkeep : KeepsBindings s s' := runEvents_keepsBindings events s
  have hlater := @expectedKeypairStatus_later api P s api' s' hkeep ps
  refine ⟨_, _, requestDecryptionAuthorization_list_run ps hids,
    requestDecryptionAuthorization_list_run ps hids, ?_, ?_, ?_, ?_⟩
  all_goals simp only [KeypairStatuses.ofStatus, List.mem_filter, decide_eq_true_eq]
  · rintro id ⟨hid, hσ'⟩
    exact ((hlater id).1 hσ').imp (⟨hid, ·⟩) (⟨hid, ·⟩)
  · rintro id ⟨hid, hσ⟩
    exact ((hlater id).2 _ (.inl rfl) hσ).imp (⟨hid, ·⟩) (⟨hid, ·⟩)
  · rintro id ⟨hid, hσ⟩
    exact ((hlater id).2 _ (.inr rfl) hσ).imp (⟨hid, ·⟩) (⟨hid, ·⟩)
  · intro u a c ha
    constructor
    · rintro ⟨-, hσ⟩
      obtain ⟨kp, hk, hl⟩ := bound_of_expectedKeypairStatus hσ (.inl rfl)
      exact passesKeyLoading_of_loads ha (hkeep _ _ _ hk) (by simpa using hl) c
    · rintro ⟨-, hσ⟩
      obtain ⟨kp, hk, hl⟩ := bound_of_expectedKeypairStatus hσ (.inr rfl)
      exact decryptWithPrivateKey_of_unloadable ha (hkeep _ _ _ hk) (by simpa using hl) c

/-- A storage with an unprotected keypair at `(0, "RSA_OAEP")`, one whose private key loads only
with `"pw"` at `(1, "RSA_OAEP")`, and none at `(2, "RSA_OAEP")`; the run fetches
`(2, "RSA_OAEP")`, which binds a generated keypair. Without passphrases, the request before the
run reports the three entries `accepted`, `missing_passphrase` and `missing_private_key`; the one
after it `accepted`, `missing_passphrase` and `accepted`. -/
theorem authorization_settles_locked_key :
    let P := lockedPrimitives fun pem => if pem = [2] then some "pw" else none
    let s : KeyStorage := ⟨fun u _ => if u = 0 then some ⟨[1], [1]⟩ else
      if u = 1 then some ⟨[2], [2]⟩ else none, fun _ => []⟩
    let events : List (Event P) :=
      [.call (.fetchPublicKey 2 "RSA_OAEP" false fun _ _ => .ok ⟨[3], [3]⟩)]
    let ids : List KeypairIdentifier := [⟨0, "RSA_OAEP"⟩, ⟨1, "RSA_OAEP"⟩, ⟨2, "RSA_OAEP"⟩]
    let s' := (escrowApi.runEvents P events s).2
    (escrowApi.requestDecryptionAuthorization P ids (.list [])).run s =
        .ok ⟨"Decryption request denied", true,
          ⟨[⟨2, "RSA_OAEP"⟩], [], [⟨1, "RSA_OAEP"⟩], [⟨0, "RSA_OAEP"⟩]⟩⟩ s ∧
      (escrowApi.requestDecryptionAuthorization P ids (.list [])).run s' =
        .ok ⟨"Decryption request denied", true,
          ⟨[], [], [⟨1, "RSA_OAEP"⟩], [⟨0, "RSA_OAEP"⟩, ⟨2, "RSA_OAEP"⟩]⟩⟩ s' ∧
      ids ≠ [] ∧
    ∃ r r', (escrowApi.requestDecryptionAuthorization P ids (.list [])).run s = .ok r s ∧
      (escrowApi.requestDecryptionAuthorization P ids (.list [])).run s' = .ok r' s' ∧
      (∀ id ∈ r'.keypairStatuses.missingPrivateKey,
        id ∈ r.keypairStatuses.missingPrivateKey ∨ id ∈ r.keypairStatuses.authorizationMissing) ∧
      (∀ id ∈ r.keypairStatuses.accepted,
        id ∈ r'.keypairStatuses.accepted ∨ id ∈ r'.keypairStatuses.authorizationMissing) ∧
      (∀ id ∈ r.keypairStatuses.missingPassphrase,
        id ∈ r'.keypairStatuses.missingPassphrase ∨ id ∈ r'.keypairStatuses.authorizationMissing) ∧
      ∀ u a (c : P.Cipherdict), upper a = "RSA_OAEP" →
        (⟨u, a⟩ ∈ r.keypairStatuses.accepted → PassesKeyLoading P s' u a c (.list [])) ∧
        (⟨u, a⟩ ∈ r.keypairStatuses.missingPassphrase →
          ∃ msg, (decryptWithPrivateKey P u a c (.list [])).run s' =
            .error (.decryptionError msg) s') :=
  ⟨rfl, rfl, List.cons_ne_nil _ _, authorization_settles escrowApi escrowApi _ _ _ _ []
    (List.cons_ne_nil _ _)⟩

end Wacryptolib
