import Wacryptolib.Exceptions

/-!
# What a raising call leaves

The exceptions that each public method and the free-keys worker's task let escape, with their
texts, and the storage that a raising call leaves. Every call raises before it writes, except
`get_message_signature`: `_ensure_keypair_exists` may bind the entry before loading its private
key raises `KeyLoadingError`, or `sign_message` raises, and the binding stays.

* `Event.RaisesAs`: for each event, the exceptions it may raise from a storage and the storage
  it then leaves;
* `fetchPublicKey_error`, `getMessageSignature_error`, `requestDecryptionAuthorization_error`,
  `decryptWithPrivateKey_error`, `generateFreeKeypair_error`: the error paths of each method,
  through the helpers it calls;
* `raising_call_leaves_storage`: every event, from every storage, raises only as
  `Event.RaisesAs` says, and leaves the storage as it was unless it is that
  `get_message_signature`.
-/

namespace Wacryptolib

open EscrowApi KeyStorage

/-- What an event may raise from `s`, and the storage `s'` it then leaves. A fetch raises
`KeyDoesNotExist` for an unbound entry, when it may not create it, or what key generation raises
when it has to generate. A signature raises `ValueError` for a message over 128 bytes,
`KeyDoesNotExist` on a read-only instance for an unbound entry, what key generation raises, or,
with the private key of the entry, bound before or by this call, `KeyLoadingError` when it does
not load without a passphrase and else what `sign_message` raises. A request raises `ValueError`
without identifiers, or the `TypeError` of a non-empty tuple. Decryption raises `AssertionError`
for another algorithm, `KeyDoesNotExist` for an unbound entry, `DecryptionError` or the
`TypeError` of a tuple when loading the private key, or what `_decrypt_via_rsa_oaep` raises. The
worker's task raises `AssertionError` without algorithms, or what `key_generation_func` raises. -/
def Event.RaisesAs (api : EscrowApi) (P : Primitives) (s : KeyStorage) :
    Event P → EscrowError → KeyStorage → Prop
  | .call (.fetchPublicKey u a mustExist g), e, s' => s' = s ∧ s.keypairs u a = none ∧
    (mustExist = true ∧ e = .keyDoesNotExist (keypairNotFoundMessage u a) ∨
      mustExist = false ∧ api.kind = .readonlyEscrowApi ∧
        e = .keyDoesNotExist (readonlyNotFoundMessage u a) ∨
      mustExist = false ∧ api.kind = .escrowApi ∧ s.freeKeypairs a = [] ∧ g a none = .error e)
  | .call (.getMessageSignature u m a g), e, s' =>
    s' = s ∧ MAX_PAYLOAD_LENGTH_FOR_SIGNATURE < m.length ∧ e = .valueError messageTooBigMessage ∨
    s' = s ∧ api.kind = .readonlyEscrowApi ∧ s.keypairs u a = none ∧
      e = .keyDoesNotExist (readonlyNotFoundMessage u a) ∨
    s' = s ∧ api.kind = .escrowApi ∧ s.keypairs u a = none ∧ s.freeKeypairs a = [] ∧
      g a none = .error e ∨
    (s' = s ∨ api.kind = .escrowApi ∧ s.keypairs u a = none ∧
        ∃ kp, s.provision u a (g a none) = .ok kp s') ∧
      ∃ kp, s'.keypairs u a = some kp ∧
        (P.loadAsymmetricKeyFromPemBytestring kp.privateKey a none = none ∧ e = .keyLoadingError ∨
          ∃ key, P.loadAsymmetricKeyFromPemBytestring kp.privateKey a none = some key ∧
            P.signMessage m a key = .error e)
  | .call (.requestDecryptionAuthorization ids ps), e, s' => s' = s ∧
    (ids = [] ∧ e = .valueError emptyIdentifiersMessage ∨
      e = tupleConcatenationError ∧ ∃ items, items ≠ [] ∧ ps = .tuple items)
  | .call (.decryptWithPrivateKey u a c ps), e, s' => s' = s ∧
    (upper a ≠ "RSA_OAEP" ∧ e = .assertionError ∨
      upper a = "RSA_OAEP" ∧ s.keypairs u a = none ∧
        e = .keyDoesNotExist (keypairNotFoundMessage u a) ∨
      upper a = "RSA_OAEP" ∧ s.keypairs u a ≠ none ∧
        (e = .decryptionError (privateKeyDecryptionMessage a ps.orEmpty) ∨
          e = tupleConcatenationError ∧ (∃ items, items ≠ [] ∧ ps = .tuple items) ∨
          ∃ key, P.decryptViaRsaOaep c key = .error e))
  | .generateFreeKeypair _ f keyAlgos, e, s' => s' = s ∧
    (keyAlgos = [] ∧ e = .assertionError ∨ ∃ a ∈ keyAlgos, f a = .error e)

section Methods

variable {api : EscrowApi} {P : Primitives} {s s' : KeyStorage} {e : EscrowError}
  {u : KeychainUid} {a : KeyAlgo} {g : KeypairGenerator}

theorem run_error_of_map {α β : Type} {f : α → β} {x : EscrowM α}
    (h : (f <$> x).run s = .error e s') : x.run s = .error e s' := by
  rw [run_map] at h
  cases hx : x.run s <;> rw [hx] at h <;> cases h
  rfl

theorem fetchPublicKey_error {mustExist : Bool}
    (h : (api.fetchPublicKey g u a mustExist).run s = .error e s') :
    (Event.call (.fetchPublicKey u a mustExist g)).RaisesAs api P s e s' := by
  obtain ⟨kind, authorizes⟩ := api
  cases kind <;> cases mustExist
  · rw [fetchPublicKey_run] at h
    split at h <;> rename_i hp <;> cases h
    obtain ⟨rfl, hk, hf, hg⟩ := provision_error hp
    exact ⟨rfl, hk, .inr (.inr ⟨rfl, rfl, hf, hg⟩)⟩
  · rw [fetchPublicKey_mustExist_run, getPublicKey_run] at h
    split at h <;> cases h
    exact ⟨rfl, ‹_›, .inl ⟨rfl, rfl⟩⟩
  all_goals
    rw [readonly_fetchPublicKey_run] at h
    split at h <;> cases h
    simp_all [Event.RaisesAs]

/-- Signing with a bound keypair raises `KeyLoadingError` or what `sign_message` raises, and
writes nothing. -/
theorem signWithStoredKey_error {m : Bytes} {kp : Keypair} (hk : s.keypairs u a = some kp)
    (h : (signWithStoredKey P u m a).run s = .error e s') :
    s' = s ∧ (P.loadAsymmetricKeyFromPemBytestring kp.privateKey a none = none ∧
        e = .keyLoadingError ∨
      ∃ key, P.loadAsymmetricKeyFromPemBytestring kp.privateKey a none = some key ∧
        P.signMessage m a key = .error e) := by
  rw [signWithStoredKey_run hk] at h
  split at h <;> rename_i hl
  · split at h <;> rename_i hsig <;> cases h
    exact ⟨rfl, .inr ⟨_, hl, hsig⟩⟩
  · cases h
    exact ⟨rfl, .inl ⟨hl, rfl⟩⟩

theorem getMessageSignature_error {m : Bytes}
    (h : (api.getMessageSignature P g u m a).run s = .error e s') :
    (Event.call (.getMessageSignature u m a g)).RaisesAs api P s e s' := by
  by_cases hm : m.length ≤ MAX_PAYLOAD_LENGTH_FOR_SIGNATURE
  · obtain ⟨kind, authorizes⟩ := api
    cases kind
    · rw [getMessageSignature_run authorizes hm] at h
      rcases hp : s.provision u a (g a none) with ⟨kp, s₁⟩ | ⟨e', s₁⟩ <;> rw [hp] at h
      · -- `_ensure_keypair_exists` bound `kp`, then signing with it raised.
        have hk : s₁.keypairs u a = some kp := by rw [provision_keypairs hp, if_pos ⟨rfl, rfl⟩]
        obtain ⟨rfl, hsign⟩ := signWithStoredKey_error hk h
        refine .inr (.inr (.inr ⟨?_, kp, hk, hsign⟩))
        rcases hb : s.keypairs u a with _ | kp'
        · exact .inr ⟨rfl, rfl, kp, hp⟩
        · rw [provision_of_bound hb] at hp
          cases hp
          exact .inl rfl
      · cases h
        obtain ⟨rfl, hk, hf, hg⟩ := provision_error hp
        exact .inr (.inr (.inl ⟨rfl, rfl, hk, hf, hg⟩))
    · rw [readonly_getMessageSignature_run authorizes hm] at h
      rcases hk : s.keypairs u a with _ | kp <;> rw [hk] at h
      · cases h
        exact .inr (.inl ⟨rfl, rfl, hk, rfl⟩)
      · obtain ⟨rfl, hsign⟩ := signWithStoredKey_error hk h
        exact .inr (.inr (.inr ⟨.inl rfl, kp, hk, hsign⟩))
  · rw [getMessageSignature_too_big api (Nat.lt_of_not_le hm)] at h
    cases h
    exact .inl ⟨rfl, Nat.lt_of_not_le hm, rfl⟩

theorem requestDecryptionAuthorization_error {ids : List KeypairIdentifier} {ps : Passphrases}
    (h : (api.requestDecryptionAuthorization P ids ps).run s = .error e s') :
    (Event.call (.requestDecryptionAuthorization ids ps)).RaisesAs api P s e s' := by
  by_cases hids : ids = []
  · subst hids
    simp only [requestDecryptionAuthorization, Passphrases.isTupleOrList_orEmpty, Bool.not_true,
      Bool.false_eq_true, if_false, List.isEmpty_nil, if_true, pure_bind] at h
    cases h
    exact ⟨rfl, .inl ⟨rfl, rfl⟩⟩
  -- Without a non-empty tuple, the request runs as with a list, and returns.
  have hlist : ∀ items, (api.requestDecryptionAuthorization P ids (.list items)).run s ≠
      .error e s' := fun items hl => by
    rw [requestDecryptionAuthorization_list_run items hids] at hl
    cases hl
  rcases ps with _ | items | items
  · exact absurd h (hlist [])
  · exact absurd h (hlist items)
  · by_cases hitems : items = []
    · subst hitems
      exact absurd h (hlist [])
    · rw [requestDecryptionAuthorization_tuple_run hitems] at h
      split at h
      · cases h
        exact ⟨rfl, .inr ⟨rfl, items, hitems, rfl⟩⟩
      · exact absurd h (hlist items)

/-- `_decrypt_private_key_pem_with_passphrases` on `passphrases or []` raises `DecryptionError`,
or the `TypeError` of a non-empty tuple. -/
theorem decryptPrivateKeyPemWithPassphrases_error {pem : Bytes} {ps : Passphrases}
    (h : decryptPrivateKeyPemWithPassphrases P pem a ps.orEmpty = .error e) :
    e = .decryptionError (privateKeyDecryptionMessage a ps.orEmpty) ∨
      e = tupleConcatenationError ∧ ∃ items, items ≠ [] ∧ ps = .tuple items := by
  have hlist : ∀ items, decryptPrivateKeyPemWithPassphrases P pem a (.list items) = .error e →
      e = .decryptionError (privateKeyDecryptionMessage a (.list items)) := fun items hl => by
    rw [decryptPrivateKeyPemWithPassphrases_list] at hl
    split at hl <;> cases hl
    rfl
  rcases ps with _ | items | ⟨_ | ⟨p, items⟩⟩
  · exact .inl (hlist [] h)
  · rw [Passphrases.orEmpty_list] at h ⊢
    exact .inl (hlist items h)
  · exact .inl (hlist [] h)
  · have h' : (.error tupleConcatenationError : Except EscrowError P.Key) = .error e := h
    exact .inr ⟨(Except.error.inj h').symm, _, List.cons_ne_nil p items, rfl⟩

theorem decryptWithPrivateKey_error {c : P.Cipherdict} {ps : Passphrases}
    (h : (decryptWithPrivateKey P u a c ps).run s = .error e s') :
    (Event.call (.decryptWithPrivateKey u a c ps)).RaisesAs api P s e s' := by
  rw [decryptWithPrivateKey_run] at h
  split_ifs at h with ha
  · split at h <;> rename_i hk
    · cases h
      exact ⟨rfl, .inr (.inl ⟨ha, hk, rfl⟩)⟩
    · have hbound : s.keypairs u a ≠ none := by rw [hk]; exact Option.some_ne_none _
      split at h <;> rename_i hl
      · rw [run_liftExcept] at h
        split at h <;> rename_i hdec <;> cases h
        exact ⟨rfl, .inr (.inr ⟨ha, hbound, .inr (.inr ⟨_, hdec⟩)⟩)⟩
      · cases h
        exact ⟨rfl, .inr (.inr ⟨ha, hbound,
          (decryptPrivateKeyPemWithPassphrases_error hl).imp_right .inl⟩)⟩
  · cases h
    exact ⟨rfl, .inl ⟨ha, rfl⟩⟩

theorem generateFreeKeypair_error {M : Int} {f : KeyAlgo → Except EscrowError Keypair}
    {keyAlgos : List KeyAlgo}
    (h : (generateFreeKeypairForLeastProvisionedKeyAlgo M f keyAlgos).run s = .error e s') :
    (Event.generateFreeKeypair M f keyAlgos : Event P).RaisesAs api P s e s' := by
  by_cases hne : keyAlgos = []
  · subst hne
    rw [generateFreeKeypair_nil_run] at h
    cases h
    exact ⟨rfl, .inl ⟨rfl, rfl⟩⟩
  · obtain ⟨b, hb, -, hrun⟩ := @generateFreeKeypair_cases s M f keyAlgos hne
    rw [hrun] at h
    split_ifs at h
    unfold addGenerated at h
    split at h <;> rename_i hf <;> cases h
    exact ⟨rfl, .inr ⟨b, hb, hf⟩⟩

end Methods

/-- An event raises only as `Event.RaisesAs` says. -/
theorem step_raisesAs {api : EscrowApi} {P : Primitives} (event : Event P) {s s' : KeyStorage}
    {e : EscrowError} (h : (api.step P event).run s = .error e s') :
    event.RaisesAs api P s e s' := by
  rcases event with (⟨u, a, mustExist, g⟩ | ⟨u, m, a, g⟩ | ⟨ids, ps⟩ | ⟨u, a, c, ps⟩) |
    ⟨M, f, keyAlgos⟩
  · exact fetchPublicKey_error (run_error_of_map h)
  · exact getMessageSignature_error (run_error_of_map h)
  · exact requestDecryptionAuthorization_error (run_error_of_map h)
  · exact decryptWithPrivateKey_error (run_error_of_map h)
  · exact generateFreeKeypair_error (run_error_of_map h)

/-- Only a `get_message_signature` of the base class that provisions an entry, and then fails to
load its private key or to sign with it, leaves a storage other than the one it started from. -/
theorem Event.RaisesAs.leaves {api : EscrowApi} {P : Primitives} {event : Event P}
    {s s' : KeyStorage} {e : EscrowError} (h : event.RaisesAs api P s e s') :
    s' = s ∨ ∃ u m a g kp, event = .call (.getMessageSignature u m a g) ∧
      s.keypairs u a = none ∧ s.provision u a (g a none) = .ok kp s' ∧
      (e = .keyLoadingError ∨ ∃ key, P.signMessage m a key = .error e) := by
  rcases event with (⟨u, a, mustExist, g⟩ | ⟨u, m, a, g⟩ | ⟨ids, ps⟩ | ⟨u, a, c, ps⟩) |
    ⟨M, f, keyAlgos⟩
  · exact .inl h.1
  · rcases h with ⟨rfl, -⟩ | ⟨rfl, -⟩ | ⟨rfl, -⟩ |
      ⟨rfl | ⟨-, hk, kp, hp⟩, kp', -, hsign⟩
    · exact .inl rfl
    · exact .inl rfl
    · exact .inl rfl
    · exact .inl rfl
    · exact .inr ⟨u, m, a, g, kp, rfl, hk, hp,
        hsign.imp And.right fun ⟨key, _, hs⟩ => ⟨key, hs⟩⟩
  · exact .inl h.1
  · exact .inl h.1
  · exact .inl h.1

/-- Every event, from every storage, raises only as `Event.RaisesAs` says: apart from what
`_decrypt_via_rsa_oaep`, `sign_message` and key generation raise, no method lets an
`AuthorizationError` of its hook, a `KeyAlreadyExists` or the `ValueError` of `min()` on an empty
sequence escape. A raising event leaves the storage as it was, except a `get_message_signature`
of the base class that provisions an unbound entry and then raises `KeyLoadingError` or what
`sign_message` raises: the entry stays bound. -/
theorem raising_call_leaves_storage (api : EscrowApi) (P : Primitives) (event : Event P)
    (s s' : KeyStorage) (e : EscrowError) (h : (api.step P event).run s = .error e s') :
    event.RaisesAs api P s e s' ∧
      (s' = s ∨ ∃ u m a g kp, event = .call (.getMessageSignature u m a g) ∧
        s.keypairs u a = none ∧ s.provision u a (g a none) = .ok kp s' ∧
        (e = .keyLoadingError ∨ ∃ key, P.signMessage m a key = .error e)) :=
  ⟨step_raisesAs event h, (step_raisesAs event h).leaves⟩

/-- `EscrowApi.get_message_signature` with `"RSA_OAEP"`, which does not sign, on an empty storage:
`_ensure_keypair_exists` binds the generated keypair, then `sign_message` raises `ValueError`, and
the binding stays. -/
theorem raising_call_leaves_storage_unsigning_algo :
    let s' := KeyStorage.empty.bindKeypair 0 "RSA_OAEP" ⟨[1], [1]⟩
    let e := EscrowError.valueError "Unknown signature algorithm RSA_OAEP"
    let event : Event plainPrimitives :=
      .call (.getMessageSignature 0 [5] "RSA_OAEP" fun _ _ => .ok ⟨[1], [1]⟩)
    (escrowApi.step plainPrimitives event).run KeyStorage.empty = .error e s' ∧
      event.RaisesAs escrowApi plainPrimitives KeyStorage.empty e s' ∧
      (s' = KeyStorage.empty ∨ ∃ u m a g kp, event = .call (.getMessageSignature u m a g) ∧
        KeyStorage.empty.keypairs u a = none ∧
        KeyStorage.empty.provision u a (g a none) = .ok kp s' ∧
        (e = .keyLoadingError ∨ ∃ key, plainPrimitives.signMessage m a key = .error e)) :=
  have h : (escrowApi.step plainPrimitives (.call (.getMessageSignature 0 [5] "RSA_OAEP"
      fun _ _ => .ok ⟨[1], [1]⟩))).run KeyStorage.empty =
      .error (.valueError "Unknown signature algorithm RSA_OAEP")
        (KeyStorage.empty.bindKeypair 0 "RSA_OAEP" ⟨[1], [1]⟩) := rfl
  ⟨h, raising_call_leaves_storage escrowApi plainPrimitives _ _ _ _ h⟩

end Wacryptolib
