import Wacryptolib.Escrow

/-!
# Decryption authorization

What `request_decryption_authorization` computes, and how decryption relates to it:

* `decryptPrivateKeyPemWithPassphrases_list`: the key of the first candidate of
  `[None] + passphrases` that loads it; a `DecryptionError` if none does;
* `keypairStatus_run` for the loop body, and `collectKeypairStatuses_list_run` for the loop over a
  list of passphrases: each identifier goes to the list of `expectedKeypairStatus`;
* `requestDecryptionAuthorization_finalState`, `decryptWithPrivateKey_finalState`: both calls
  only read the storage, whatever their arguments;
* `requestDecryptionAuthorization_classifies`: the four lists are the identifiers filtered by
  status, in order; they partition the identifiers, and `has_errors` says some is not accepted;
* `requestDecryptionAuthorization_passphrase_monotone`: more passphrases never take an
  identifier out of `accepted`, and never make private-key loading fail;
* `decryptWithPrivateKey_ignores_refusal`: `decrypt_with_private_key` returns a plaintext for a
  keypair that the hook refuses and that the authorization request reports as
  `authorization_missing`.
-/

namespace Wacryptolib

open EscrowApi

/-- The statuses of `ids`: each list of `keypair_statuses` is `ids` filtered by its status. -/
def KeypairStatuses.ofStatus (status : KeypairIdentifier → KeypairStatus)
    (ids : List KeypairIdentifier) : KeypairStatuses :=
  ⟨ids.filter (status · = .missingPrivateKey), ids.filter (status · = .authorizationMissing),
    ids.filter (status · = .missingPassphrase), ids.filter (status · = .accepted)⟩

/-- The status of an identifier for a hook, a storage and a list of passphrases: refused by the
hook; else without a private key; else with no candidate of `[None] + passphrases` that loads
that key; else accepted. -/
def expectedKeypairStatus (api : EscrowApi) (P : Primitives) (s : KeyStorage)
    (passphrases : List Passphrase) (id : KeypairIdentifier) : KeypairStatus :=
  if api.authorizes id.keychainUid id.keyAlgo then
    match s.keypairs id.keychainUid id.keyAlgo with
    | none => .missingPrivateKey
    | some kp =>
      if (Option.none :: passphrases.map some).any fun p =>
          (P.loadAsymmetricKeyFromPemBytestring kp.privateKey id.keyAlgo p).isSome
      then .accepted else .missingPassphrase
  else .authorizationMissing

section Lemmas

variable {P : Primitives} {s : KeyStorage} {api : EscrowApi}

theorem findSome?_isSome_eq_any {α β : Type} (f : α → Option β) (l : List α) :
    (l.findSome? f).isSome = l.any fun x => (f x).isSome := by
  rw [Bool.eq_iff_iff, List.findSome?_isSome_iff, List.any_eq_true]

/-- `_decrypt_private_key_pem_with_passphrases` with a list: the first candidate that loads. -/
theorem decryptPrivateKeyPemWithPassphrases_list (pem : Bytes) (a : KeyAlgo) (ps : List Passphrase) :
    decryptPrivateKeyPemWithPassphrases P pem a (.list ps) =
      match (Option.none :: ps.map some).findSome? (P.loadAsymmetricKeyFromPemBytestring pem a) with
      | some key => .ok key
      | none => .error (.decryptionError (privateKeyDecryptionMessage a (.list ps))) :=
  rfl

/-- A key that `_decrypt_private_key_pem_with_passphrases` returns is loaded from the PEM with
some passphrase. -/
theorem decryptPrivateKeyPemWithPassphrases_loads {pem : Bytes} {a : KeyAlgo} {ps : Passphrases}
    {key : P.Key} (h : decryptPrivateKeyPemWithPassphrases P pem a ps = .ok key) :
    ∃ passphrase, P.loadAsymmetricKeyFromPemBytestring pem a passphrase = some key := by
  rcases ps with _ | ps | _
  · cases h
  · rw [decryptPrivateKeyPemWithPassphrases_list] at h
    split at h <;> rename_i hfind
    · cases h
      obtain ⟨passphrase, -, hload⟩ := List.exists_of_findSome?_eq_some hfind
      exact ⟨passphrase, hload⟩
    · cases h
  · cases h

/-- One pass of the loop: the hook's verdict, then the private key, then loading it. An
exception of loading other than `DecryptionError` escapes. The storage is only read. -/
theorem keypairStatus_run (ps : Passphrases) (id : KeypairIdentifier) :
    (api.keypairStatus P ps id).run s =
      if api.authorizes id.keychainUid id.keyAlgo then
        match s.keypairs id.keychainUid id.keyAlgo with
        | none => .ok .missingPrivateKey s
        | some kp =>
          match decryptPrivateKeyPemWithPassphrases P kp.privateKey id.keyAlgo ps with
          | .ok _ => .ok .accepted s
          | .error e => if e.isDecryptionError then .ok .missingPassphrase s else .error e s
      else .ok .authorizationMissing s := by
  rcases ha : api.authorizes id.keychainUid id.keyAlgo
  · simp [keypairStatus, checkKeypairAuthorization, ha, EscrowError.isAuthorizationError]
  · rcases hk : s.keypairs id.keychainUid id.keyAlgo with _ | kp
    · simp [keypairStatus, checkKeypairAuthorization, ha, hk, EscrowError.isKeyDoesNotExist]
    · simp only [keypairStatus, checkKeypairAuthorization, ha, hk, run_bind, run_tryExcept,
        run_ite, if_true, run_pure, getPrivateKey_run, Bool.not_true, Bool.false_eq_true, if_false,
        run_liftExcept]
      cases decryptPrivateKeyPemWithPassphrases P kp.privateKey id.keyAlgo ps with
      | ok => rfl
      | error e => dsimp only; cases e.isDecryptionError <;> rfl

theorem keypairStatus_finalState (ps : Passphrases) (id : KeypairIdentifier) :
    finalState ((api.keypairStatus P ps id).run s) = s := by
  rw [keypairStatus_run]
  split
  · split
    · rfl
    · split
      · rfl
      · split <;> rfl
  · rfl

/-- With a list of passphrases, the loop body appends each identifier to the list of its
`expectedKeypairStatus`. -/
theorem keypairStatus_list_run (ps : List Passphrase) (id : KeypairIdentifier) :
    (api.keypairStatus P (.list ps) id).run s = .ok (expectedKeypairStatus api P s ps id) s := by
  rw [keypairStatus_run, expectedKeypairStatus]
  cases api.authorizes id.keychainUid id.keyAlgo
  · rfl
  · rcases s.keypairs id.keychainUid id.keyAlgo with _ | kp
    · rfl
    · simp only [if_true, decryptPrivateKeyPemWithPassphrases_list, ← findSome?_isSome_eq_any]
      cases (Option.none :: ps.map some).findSome?
        (P.loadAsymmetricKeyFromPemBytestring kp.privateKey id.keyAlgo) <;> rfl

/-- The loop only reads. -/
theorem collectKeypairStatuses_finalState (ps : Passphrases) (ids : List KeypairIdentifier)
    (acc : KeypairStatuses) : finalState ((api.collectKeypairStatuses P ps ids acc).run s) = s := by
  induction ids generalizing acc with
  | nil => rfl
  | cons id ids ih => exact finalState_bind_of_keeps (keypairStatus_finalState ps id) fun _ => ih _

/-- The loop over a list of passphrases appends each identifier to the list of its status. -/
theorem collectKeypairStatuses_list_run (ps : List Passphrase) (ids : List KeypairIdentifier)
    (acc : KeypairStatuses) :
    (api.collectKeypairStatuses P (.list ps) ids acc).run s =
      .ok (ids.foldl (fun acc id => acc.append (expectedKeypairStatus api P s ps id) id) acc) s := by
  induction ids generalizing acc with
  | nil => rfl
  | cons id ids ih => simp [collectKeypairStatuses, keypairStatus_list_run, ih]

end Lemmas

namespace KeypairStatuses

variable (status : KeypairIdentifier → KeypairStatus)

/-- Appending identifier after identifier, each to the list of its status, filters them. -/
theorem foldl_append (ids : List KeypairIdentifier) (acc : KeypairStatuses) :
    ids.foldl (fun acc id => acc.append (status id) id) acc =
      ⟨acc.missingPrivateKey ++ (ofStatus status ids).missingPrivateKey,
        acc.authorizationMissing ++ (ofStatus status ids).authorizationMissing,
        acc.missingPassphrase ++ (ofStatus status ids).missingPassphrase,
        acc.accepted ++ (ofStatus status ids).accepted⟩ := by
  induction ids generalizing acc with
  | nil => simp [ofStatus]
  | cons id ids ih =>
    rw [List.foldl_cons, ih]
    cases h : status id <;> simp [append, ofStatus, List.filter_cons, h]

theorem foldl_append_empty (ids : List KeypairIdentifier) :
    ids.foldl (fun acc id => acc.append (status id) id) empty = ofStatus status ids := by
  simp [foldl_append, empty]

/-- The four lists partition the identifiers. -/
theorem ofStatus_perm (ids : List KeypairIdentifier) :
    ((ofStatus status ids).missingPrivateKey ++ (ofStatus status ids).authorizationMissing ++
      (ofStatus status ids).missingPassphrase ++ (ofStatus status ids).accepted).Perm ids := by
  induction ids with
  | nil => simp [ofStatus]
  | cons id ids ih =>
    simp only [ofStatus, List.append_assoc] at ih ⊢
    cases h : status id <;> simp only [List.filter_cons, h, decide_True, decide_False,
      reduceCtorEq, if_true, if_false, List.cons_append]
    · exact ih.cons id
    · exact List.perm_middle.trans (ih.cons id)
    · rw [← List.append_assoc]; exact List.perm_middle.trans (by simpa using ih.cons id)
    · rw [← List.append_assoc, ← List.append_assoc]
      exact List.perm_middle.trans (by simpa using ih.cons id)

theorem total_ofStatus (ids : List KeypairIdentifier) : (ofStatus status ids).total = ids.length := by
  simpa [total, Nat.add_assoc] using (ofStatus_perm status ids).length_eq

end KeypairStatuses

/-- `request_decryption_authorization` with a list of passphrases and some identifiers. -/
theorem requestDecryptionAuthorization_list_run {api : EscrowApi} {P : Primitives} {s : KeyStorage}
    {ids : List KeypairIdentifier} (ps : List Passphrase) (hne : ids ≠ []) :
    (api.requestDecryptionAuthorization P ids (.list ps)).run s =
      let statuses := KeypairStatuses.ofStatus (expectedKeypairStatus api P s ps) ids
      let hasErrors := decide (statuses.accepted.length < ids.length)
      .ok ⟨if hasErrors then "Decryption request denied" else "Decryption request accepted",
        hasErrors, statuses⟩ s := by
  have hloop := @collectKeypairStatuses_list_run P s api ps ids .empty
  rw [KeypairStatuses.foldl_append_empty] at hloop
  simp [requestDecryptionAuthorization, Passphrases.isTupleOrList, hne, hloop,
    KeypairStatuses.total_ofStatus]

/-- `request_decryption_authorization` only reads, whatever its arguments. -/
theorem requestDecryptionAuthorization_finalState {api : EscrowApi} {P : Primitives}
    {s : KeyStorage} (ids : List KeypairIdentifier) (ps : Passphrases) :
    finalState ((api.requestDecryptionAuthorization P ids ps).run s) = s := by
  simp only [requestDecryptionAuthorization, Passphrases.isTupleOrList_orEmpty, Bool.not_true,
    Bool.false_eq_true, if_false, pure_bind]
  split
  · rfl
  · refine finalState_bind_of_keeps (collectKeypairStatuses_finalState _ _ _) fun _ => ?_
    split <;> rfl

/-- `request_decryption_authorization(ids, msg, ps)` for a list `ps`: with no identifier it raises
`ValueError`; else it returns, leaving the storage as it was, a result whose four lists are the
identifiers filtered by `expectedKeypairStatus`, in order. They partition the identifiers (so the
assertion on their lengths holds), and the request is denied, with `has_errors`, exactly when some
identifier is not accepted. -/
theorem requestDecryptionAuthorization_classifies (api : EscrowApi) (P : Primitives)
    (s : KeyStorage) (ids : List KeypairIdentifier) (ps : List Passphrase) :
    (ids = [] → (api.requestDecryptionAuthorization P ids (.list ps)).run s = .error (.valueError
      "Keypair identifiers must not be empty, when requesting decryption authorization") s) ∧
    (ids ≠ [] → ∃ R, (api.requestDecryptionAuthorization P ids (.list ps)).run s = .ok R s ∧
      R.keypairStatuses = .ofStatus (expectedKeypairStatus api P s ps) ids ∧
      (R.keypairStatuses.missingPrivateKey ++ R.keypairStatuses.authorizationMissing ++
        R.keypairStatuses.missingPassphrase ++ R.keypairStatuses.accepted).Perm ids ∧
      (R.hasErrors = true ↔ ∃ id ∈ ids, expectedKeypairStatus api P s ps id ≠ .accepted) ∧
      R.responseMessage =
        if R.hasErrors then "Decryption request denied" else "Decryption request accepted") := by
  refine ⟨fun h => by
    simp [requestDecryptionAuthorization, Passphrases.isTupleOrList, h, emptyIdentifiersMessage],
    fun hne => ⟨_, requestDecryptionAuthorization_list_run ps hne, rfl,
      KeypairStatuses.ofStatus_perm _ ids, ?_, rfl⟩⟩
  simp [KeypairStatuses.ofStatus, List.length_filter_lt_length_iff_exists]

/-! ## More passphrases -/

section Monotone

variable {P : Primitives} {s : KeyStorage} {ps ps' : List Passphrase}

theorem any_candidates_mono (hsub : ∀ p ∈ ps, p ∈ ps') (f : Option Passphrase → Bool)
    (h : (Option.none :: ps.map some).any f = true) : (Option.none :: ps'.map some).any f = true := by
  simp only [List.any_eq_true, List.mem_cons, List.mem_map] at h ⊢
  obtain ⟨x, hx, hf⟩ := h
  refine ⟨x, ?_, hf⟩
  rcases hx with rfl | ⟨p, hp, rfl⟩
  · exact .inl rfl
  · exact .inr ⟨p, hsub p hp, rfl⟩

/-- The hook and the storage decide `authorization_missing` and `missing_private_key`; more
passphrases can only turn `missing_passphrase` into `accepted`. -/
theorem expectedKeypairStatus_mono (api : EscrowApi) (hsub : ∀ p ∈ ps, p ∈ ps')
    (id : KeypairIdentifier) :
    (expectedKeypairStatus api P s ps id = .missingPassphrase ∧
      expectedKeypairStatus api P s ps' id = .accepted) ∨
    expectedKeypairStatus api P s ps' id = expectedKeypairStatus api P s ps id := by
  unfold expectedKeypairStatus
  split
  · split
    · exact .inr rfl
    · split <;> rename_i h
      · exact .inr (if_pos (any_candidates_mono hsub _ h))
      · split <;> simp
  · exact .inr rfl

/-- A key that loads with `[None] + ps` loads with `[None] + ps'`. -/
theorem decryptPrivateKeyPemWithPassphrases_mono (hsub : ∀ p ∈ ps, p ∈ ps') (pem : Bytes)
    (a : KeyAlgo) {key : P.Key}
    (h : decryptPrivateKeyPemWithPassphrases P pem a (.list ps) = .ok key) :
    ∃ key', decryptPrivateKeyPemWithPassphrases P pem a (.list ps') = .ok key' := by
  rw [decryptPrivateKeyPemWithPassphrases_list] at h ⊢
  have hs : ((Option.none :: ps'.map some).findSome?
      (P.loadAsymmetricKeyFromPemBytestring pem a)).isSome := by
    rw [findSome?_isSome_eq_any]
    refine any_candidates_mono hsub _ ?_
    rw [← findSome?_isSome_eq_any]
    split at h
    · simp_all
    · cases h
  obtain ⟨key', hk⟩ := Option.isSome_iff_exists.mp hs
  exact ⟨key', by rw [hk]⟩

end Monotone

/-- `decrypt_with_private_key` in full: the algorithm check, the private key, loading it, then
`_decrypt_via_rsa_oaep`. The storage is only read. -/
theorem decryptWithPrivateKey_run {P : Primitives} {s : KeyStorage} (u : KeychainUid) (a : KeyAlgo)
    (c : P.Cipherdict) (ps : Passphrases) :
    (decryptWithPrivateKey P u a c ps).run s =
      if upper a = "RSA_OAEP" then
        match s.keypairs u a with
        | none => .error (.keyDoesNotExist (keypairNotFoundMessage u a)) s
        | some kp => match decryptPrivateKeyPemWithPassphrases P kp.privateKey a ps.orEmpty with
          | .ok key => (liftExcept (P.decryptViaRsaOaep c key)).run s
          | .error e => .error e s
      else .error .assertionError s := by
  by_cases ha : upper a = "RSA_OAEP"
  · rcases hk : s.keypairs u a with _ | kp
    · simp [decryptWithPrivateKey, ha, hk]
    · simp only [decryptWithPrivateKey, ha, hk, ne_eq, not_true_eq_false, if_false, if_true,
        run_bind, run_ite, run_pure, Passphrases.isTupleOrList_orEmpty, Bool.not_true,
        Bool.false_eq_true, getPrivateKey_run, run_liftExcept]
      cases decryptPrivateKeyPemWithPassphrases P kp.privateKey a ps.orEmpty <;> rfl
  · simp [decryptWithPrivateKey, ha]

theorem decryptWithPrivateKey_finalState {P : Primitives} {s : KeyStorage} (u : KeychainUid)
    (a : KeyAlgo) (c : P.Cipherdict) (ps : Passphrases) :
    finalState ((decryptWithPrivateKey P u a c ps).run s) = s := by
  rw [decryptWithPrivateKey_run]
  split
  · split
    · rfl
    · split
      · rw [run_liftExcept]; split <;> rfl
      · rfl
  · rfl

/-- `decrypt_with_private_key(u, a, c, passphrases)` gets past private-key loading: the algorithm
check passes, `(u, a)` has a private key, `_decrypt_private_key_pem_with_passphrases` loads a key
from it, and the call's outcome is that of `_decrypt_via_rsa_oaep` with that key. -/
def PassesKeyLoading (P : Primitives) (s : KeyStorage) (u : KeychainUid) (a : KeyAlgo)
    (c : P.Cipherdict) (ps : Passphrases) : Prop :=
  ∃ kp key, upper a = "RSA_OAEP" ∧ s.keypairs u a = some kp ∧
    decryptPrivateKeyPemWithPassphrases P kp.privateKey a ps.orEmpty = .ok key ∧
    (decryptWithPrivateKey P u a c ps).run s = (liftExcept (P.decryptViaRsaOaep c key)).run s

/-- Passphrases only help. With `ps'` holding every element of `ps`, and some identifiers, both
requests return; they have the same `authorization_missing` and `missing_private_key` lists,
every identifier accepted with `ps` is accepted with `ps'`, and `missing_passphrase` with `ps'` is
a sublist of `missing_passphrase` with `ps`. A `decrypt_with_private_key` that gets past loading
the private key with `ps` gets past it with `ps'`. -/
theorem requestDecryptionAuthorization_passphrase_monotone (api : EscrowApi) (P : Primitives)
    (s : KeyStorage) (ids : List KeypairIdentifier) (ps ps' : List Passphrase)
    (hsub : ∀ p ∈ ps, p ∈ ps') (hids : ids ≠ []) :
    ∃ R R', (api.requestDecryptionAuthorization P ids (.list ps)).run s = .ok R s ∧
      (api.requestDecryptionAuthorization P ids (.list ps')).run s = .ok R' s ∧
      R'.keypairStatuses.authorizationMissing = R.keypairStatuses.authorizationMissing ∧
      R'.keypairStatuses.missingPrivateKey = R.keypairStatuses.missingPrivateKey ∧
      (∀ id ∈ R.keypairStatuses.accepted, id ∈ R'.keypairStatuses.accepted) ∧
      R'.keypairStatuses.missingPassphrase.Sublist R.keypairStatuses.missingPassphrase ∧
      ∀ u a (c : P.Cipherdict), PassesKeyLoading P s u a c (.list ps) →
        PassesKeyLoading P s u a c (.list ps') := by
  have hmono := @expectedKeypairStatus_mono P s ps ps' api hsub
  refine ⟨_, _, requestDecryptionAuthorization_list_run ps hids,
    requestDecryptionAuthorization_list_run ps' hids, ?_, ?_, ?_, ?_, ?_⟩
  iterate 2
    refine List.filter_congr fun id _ => ?_
    rcases hmono id with ⟨h, h'⟩ | h
    · simp [h, h']
    · rw [h]
  · intro id hid
    simp only [KeypairStatuses.ofStatus, List.mem_filter, decide_eq_true_eq] at hid ⊢
    rcases hmono id with ⟨h, -⟩ | h
    · exact absurd (hid.2.symm.trans h) (by decide)
    · exact ⟨hid.1, h.trans hid.2⟩
  · refine List.monotone_filter_right _ fun id hid => ?_
    simp only [decide_eq_true_eq] at hid ⊢
    rcases hmono id with ⟨h, h'⟩ | h
    · exact absurd (hid.symm.trans h') (by decide)
    · exact h.symm.trans hid
  · rintro u a c ⟨kp, key, ha, hk, hl, -⟩
    rw [Passphrases.orEmpty_list] at hl
    obtain ⟨key', hl'⟩ := decryptPrivateKeyPemWithPassphrases_mono hsub kp.privateKey a hl
    refine ⟨kp, key', ha, hk, by rwa [Passphrases.orEmpty_list], ?_⟩
    simp [decryptWithPrivateKey_run, ha, hk, hl']

/-- Two keypairs, the private PEM `[2]` locked with `"pw"` and `[1]` with none: with no passphrase
the first is `missing_passphrase` and the second `accepted`; with `["pw"]` both are `accepted`. -/
theorem passphrase_monotone_locked_key :
    let P := lockedPrimitives fun pem => if pem = [2] then some "pw" else none
    let s : KeyStorage := ⟨fun u _ => if u = 0 then some ⟨[2], [2]⟩ else
      if u = 1 then some ⟨[1], [1]⟩ else none, fun _ => []⟩
    let ids : List KeypairIdentifier := [⟨0, "RSA_OAEP"⟩, ⟨1, "RSA_OAEP"⟩]
    (escrowApi.requestDecryptionAuthorization P ids (.list [])).run s =
        .ok ⟨"Decryption request denied", true,
          ⟨[], [], [⟨0, "RSA_OAEP"⟩], [⟨1, "RSA_OAEP"⟩]⟩⟩ s ∧
      (escrowApi.requestDecryptionAuthorization P ids (.list ["pw"])).run s =
        .ok ⟨"Decryption request accepted", false,
          ⟨[], [], [], [⟨0, "RSA_OAEP"⟩, ⟨1, "RSA_OAEP"⟩]⟩⟩ s ∧
    (∀ p ∈ ([] : List Passphrase), p ∈ ["pw"]) ∧ ids ≠ [] ∧
    ∃ R R', (escrowApi.requestDecryptionAuthorization P ids (.list [])).run s = .ok R s ∧
      (escrowApi.requestDecryptionAuthorization P ids (.list ["pw"])).run s = .ok R' s ∧
      R'.keypairStatuses.authorizationMissing = R.keypairStatuses.authorizationMissing ∧
      R'.keypairStatuses.missingPrivateKey = R.keypairStatuses.missingPrivateKey ∧
      (∀ id ∈ R.keypairStatuses.accepted, id ∈ R'.keypairStatuses.accepted) ∧
      R'.keypairStatuses.missingPassphrase.Sublist R.keypairStatuses.missingPassphrase ∧
      ∀ u a (c : P.Cipherdict), PassesKeyLoading P s u a c (.list []) →
        PassesKeyLoading P s u a c (.list ["pw"]) :=
  ⟨rfl, rfl, by simp, by simp,
    requestDecryptionAuthorization_passphrase_monotone escrowApi _ _ _ [] ["pw"] (by simp) (by simp)⟩

/-- An instance whose hook refuses every keypair, and a storage with one unprotected keypair at
`(0, "RSA_OAEP")`: the authorization request reports it as `authorization_missing`, but
`decrypt_with_private_key` never consults the hook and returns the plaintext. -/
theorem decryptWithPrivateKey_ignores_refusal :
    let api : EscrowApi := ⟨.escrowApi, fun _ _ => false⟩
    let s : KeyStorage :=
      ⟨fun u a => if u = 0 ∧ a = "RSA_OAEP" then some ⟨[1], [1]⟩ else none, fun _ => []⟩
    (api.requestDecryptionAuthorization plainPrimitives [⟨0, "RSA_OAEP"⟩] (.list [])).run s =
        .ok ⟨"Decryption request denied", true, ⟨[], [⟨0, "RSA_OAEP"⟩], [], []⟩⟩ s ∧
      (decryptWithPrivateKey plainPrimitives 0 "RSA_OAEP" ([7] : Bytes) (.list [])).run s =
        .ok [7] s :=
  ⟨rfl, rfl⟩


end Wacryptolib
