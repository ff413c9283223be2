import Wacryptolib.Runs

/-!
# The `passphrases` argument of the decryption calls

`request_decryption_authorization` and `decrypt_with_private_key` both take `passphrases or []`,
assert `isinstance(passphrases, (tuple, list))`, and hand the value to
`_decrypt_private_key_pem_with_passphrases`, which iterates over `[None] + passphrases`. A list
concatenates. A non-empty tuple passes the assertion, but the concatenation raises `TypeError`,
which no `except` clause of either method catches.

* `ReachesKeyLoading`: the loop of `request_decryption_authorization` calls the helper for an
  identifier;
* `requestDecryptionAuthorization_tuple_run`, `decryptWithPrivateKey_tuple_run`: a non-empty tuple
  is handled as the list of the same elements, except that each call raises `TypeError` once it
  reaches the helper;
* `HandlesPassphrases`: for a `passphrases` value, the request returns its status dict for every
  non-empty list of identifiers, and decryption raises only `KeyDoesNotExist` or
  `DecryptionError` before `_decrypt_via_rsa_oaep`;
* `tuplePassphrases_raise_typeError`: `None`, a list and an empty tuple are handled so; a
  non-empty tuple is not, wherever a keypair that either call loads is stored;
* `runEvents_listPassphrases`: over a whole run, the tuples change nothing but some outcomes into
  `TypeError`: the run with every tuple given as a list leaves the same storage, and every other
  outcome is the same.
-/

namespace Wacryptolib

open EscrowApi

/-- The loop of `request_decryption_authorization` calls `_decrypt_private_key_pem_with_passphrases`
for `id`: the hook authorizes it and the storage holds its private key. -/
def ReachesKeyLoading (api : EscrowApi) (s : KeyStorage) (id : KeypairIdentifier) : Prop :=
  api.authorizes id.keychainUid id.keyAlgo = true ∧ s.keypairs id.keychainUid id.keyAlgo ≠ none

instance (api : EscrowApi) (s : KeyStorage) : DecidablePred (ReachesKeyLoading api s) :=
  fun _ => inferInstanceAs (Decidable (_ ∧ _))

/-- What `request_decryption_authorization` and `decrypt_with_private_key` should do with a
`passphrases` value: for every non-empty list of identifiers the request returns its status dict;
and decryption with the algorithm its assertion admits raises only `KeyDoesNotExist` or
`DecryptionError` before it reaches `_decrypt_via_rsa_oaep`. -/
def HandlesPassphrases (api : EscrowApi) (P : Primitives) (s : KeyStorage) (ps : Passphrases) :
    Prop :=
  (∀ ids : List KeypairIdentifier, ids ≠ [] →
    ∃ R, (api.requestDecryptionAuthorization P ids ps).run s = .ok R s) ∧
  ∀ u a (c : P.Cipherdict), upper a = "RSA_OAEP" →
    (∃ msg, (decryptWithPrivateKey P u a c ps).run s = .error (.keyDoesNotExist msg) s) ∨
    (∃ msg, (decryptWithPrivateKey P u a c ps).run s = .error (.decryptionError msg) s) ∨
    PassesKeyLoading P s u a c ps

section Tuple

variable {P : Primitives} {s : KeyStorage} {api : EscrowApi} {items : List Passphrase}

/-- `_decrypt_private_key_pem_with_passphrases` with a tuple raises before it loads anything. -/
theorem decryptPrivateKeyPemWithPassphrases_tuple (pem : Bytes) (a : KeyAlgo) :
    decryptPrivateKeyPemWithPassphrases P pem a (.tuple items) = .error tupleConcatenationError :=
  rfl

/-- One pass of the loop with a tuple: `TypeError` where the helper is called, else the status
that the list of the same elements gives. -/
theorem keypairStatus_tuple_run (id : KeypairIdentifier) :
    (api.keypairStatus P (.tuple items) id).run s =
      if ReachesKeyLoading api s id then .error tupleConcatenationError s
      else .ok (expectedKeypairStatus api P s items id) s := by
  simp only [keypairStatus_run, expectedKeypairStatus, ReachesKeyLoading]
  cases api.authorizes id.keychainUid id.keyAlgo
  · rfl
  · rcases s.keypairs id.keychainUid id.keyAlgo with _ | kp <;> rfl

/-- The loop with a tuple runs as the loop with the list of the same elements, unless an
identifier reaches the helper. -/
theorem collectKeypairStatuses_tuple_run (ids : List KeypairIdentifier) (acc : KeypairStatuses) :
    (api.collectKeypairStatuses P (.tuple items) ids acc).run s =
      if ∃ id ∈ ids, ReachesKeyLoading api s id then .error tupleConcatenationError s
      else (api.collectKeypairStatuses P (.list items) ids acc).run s := by
  induction ids generalizing acc with
  | nil => rfl
  | cons id ids ih =>
    simp only [collectKeypairStatuses, run_bind, keypairStatus_tuple_run, keypairStatus_list_run,
      List.exists_mem_cons_iff]
    by_cases h : ReachesKeyLoading api s id
    · simp only [h, if_true, true_or]
    · simp only [h, if_false, false_or, ih]

/-- `request_decryption_authorization` with a non-empty tuple: the request with the list of the
same elements, unless an identifier reaches the helper, where `TypeError` escapes. -/
theorem requestDecryptionAuthorization_tuple_run (hitems : items ≠ [])
    (ids : List KeypairIdentifier) :
    (api.requestDecryptionAuthorization P ids (.tuple items)).run s =
      if ∃ id ∈ ids, ReachesKeyLoading api s id then .error tupleConcatenationError s
      else (api.requestDecryptionAuthorization P ids (.list items)).run s := by
  cases ids with
  | nil => simp [requestDecryptionAuthorization, Passphrases.orEmpty_tuple hitems,
      Passphrases.isTupleOrList]
  | cons id ids =>
    simp only [requestDecryptionAuthorization, Passphrases.orEmpty_tuple hitems,
      Passphrases.orEmpty_list, Passphrases.isTupleOrList, Bool.not_true, Bool.false_eq_true,
      if_false, List.isEmpty_cons, run_bind, run_pure, collectKeypairStatuses_tuple_run]
    split_ifs <;> rfl

/-- `decrypt_with_private_key` with a non-empty tuple: the call with the list of the same
elements, unless it gets to load a stored private key, where `TypeError` escapes. -/
theorem decryptWithPrivateKey_tuple_run (hitems : items ≠ []) (u : KeychainUid) (a : KeyAlgo)
    (c : P.Cipherdict) :
    (decryptWithPrivateKey P u a c (.tuple items)).run s =
      if upper a = "RSA_OAEP" ∧ s.keypairs u a ≠ none then .error tupleConcatenationError s
      else (decryptWithPrivateKey P u a c (.list items)).run s := by
  rw [decryptWithPrivateKey_run, decryptWithPrivateKey_run, Passphrases.orEmpty_tuple hitems,
    Passphrases.orEmpty_list]
  by_cases ha : upper a = "RSA_OAEP"
  · rcases s.keypairs u a with _ | kp <;> simp [ha, decryptPrivateKeyPemWithPassphrases_tuple]
  · simp [ha]

end Tuple

/-- A list of passphrases is handled: the request returns, and decryption raises
`KeyDoesNotExist` for a missing keypair, `DecryptionError` when no candidate loads the private
key, or else gets past loading it. -/
theorem handlesPassphrases_list (api : EscrowApi) (P : Primitives) (s : KeyStorage)
    (items : List Passphrase) : HandlesPassphrases api P s (.list items) := by
  refine ⟨fun ids hids => ⟨_, requestDecryptionAuthorization_list_run items hids⟩, ?_⟩
  intro u a c ha
  rw [decryptWithPrivateKey_run, if_pos ha, Passphrases.orEmpty_list]
  rcases hk : s.keypairs u a with _ | kp
  · exact .inl ⟨_, rfl⟩
  · dsimp only
    rcases hl : decryptPrivateKeyPemWithPassphrases P kp.privateKey a (.list items) with e | key
    · rw [decryptPrivateKeyPemWithPassphrases_list] at hl
      split at hl <;> cases hl
      exact .inr (.inl ⟨_, rfl⟩)
    · exact .inr (.inr ⟨kp, key, ha, hk, by rwa [Passphrases.orEmpty_list],
        by simp [decryptWithPrivateKey_run, ha, hk, hl]⟩)

/-- Every `passphrases` value that the methods' assertions admit, taken as the source takes it.
`None`, a list and an empty tuple (`passphrases or []` is then a list) are handled: the request
returns its status dict for every non-empty list of identifiers, and decryption raises only
`KeyDoesNotExist` or `DecryptionError` before `_decrypt_via_rsa_oaep`. A non-empty tuple is
handled as the list of the same elements, except that `[None] + passphrases` raises `TypeError`:
in the request as soon as an identifier is authorized and has a private key, in decryption as
soon as the private key is stored. -/
theorem tuplePassphrases_raise_typeError (api : EscrowApi) (P : Primitives) (s : KeyStorage) :
    (∀ ps : Passphrases, (∀ items, ps = .tuple items → items = []) →
      HandlesPassphrases api P s ps) ∧
    ∀ items : List Passphrase, items ≠ [] →
      (∀ ids, (api.requestDecryptionAuthorization P ids (.tuple items)).run s =
        if ∃ id ∈ ids, ReachesKeyLoading api s id then .error tupleConcatenationError s
        else (api.requestDecryptionAuthorization P ids (.list items)).run s) ∧
      ∀ u a (c : P.Cipherdict), (decryptWithPrivateKey P u a c (.tuple items)).run s =
        if upper a = "RSA_OAEP" ∧ s.keypairs u a ≠ none then .error tupleConcatenationError s
        else (decryptWithPrivateKey P u a c (.list items)).run s := by
  refine ⟨fun ps hps => ?_, fun items hitems =>
    ⟨requestDecryptionAuthorization_tuple_run hitems, decryptWithPrivateKey_tuple_run hitems⟩⟩
  rcases ps with _ | items | items
  · exact handlesPassphrases_list api P s []
  · exact handlesPassphrases_list api P s items
  · obtain rfl := hps items rfl
    exact handlesPassphrases_list api P s []

/-- The base implementation, a storage with an unprotected keypair at `(0, "RSA_OAEP")`, and the
passphrases `("secret",)`: both methods raise `TypeError`, where the list `["secret"]` gives an
accepted request and the plaintext. -/
theorem tuplePassphrases_raise_on_stored_keypair :
    let s : KeyStorage :=
      ⟨fun u a => if u = 0 ∧ a = "RSA_OAEP" then some ⟨[1], [1]⟩ else none, fun _ => []⟩
    (["secret"] : List Passphrase) ≠ [] ∧
    (escrowApi.requestDecryptionAuthorization plainPrimitives [⟨0, "RSA_OAEP"⟩]
        (.tuple ["secret"])).run s = .error tupleConcatenationError s ∧
      (escrowApi.requestDecryptionAuthorization plainPrimitives [⟨0, "RSA_OAEP"⟩]
        (.list ["secret"])).run s =
        .ok ⟨"Decryption request accepted", false, ⟨[], [], [], [⟨0, "RSA_OAEP"⟩]⟩⟩ s ∧
      (decryptWithPrivateKey plainPrimitives 0 "RSA_OAEP" ([7] : Bytes)
        (.tuple ["secret"])).run s = .error tupleConcatenationError s ∧
      (decryptWithPrivateKey plainPrimitives 0 "RSA_OAEP" ([7] : Bytes) (.list ["secret"])).run s =
        .ok [7] s := by
  intro s
  have h := (tuplePassphrases_raise_typeError escrowApi plainPrimitives s).2 ["secret"] (by simp)
  exact ⟨by simp, (h.1 _).trans (if_pos (by decide)), rfl, (h.2 _ _ _).trans (if_pos (by decide)),
    rfl⟩

/-! ## Over a run -/

/-- `list(passphrases)`, as a caller would pass it: a tuple as the list of its elements, `None`
and a list as they are. -/
def Passphrases.asList : Passphrases → Passphrases
  | .tuple items => .list items
  | ps => ps

/-- The request with its passphrases given as a list. -/
def Request.listPassphrases {P : Primitives} : Request P → Request P
  | .requestDecryptionAuthorization ids ps => .requestDecryptionAuthorization ids ps.asList
  | .decryptWithPrivateKey u a c ps => .decryptWithPrivateKey u a c ps.asList
  | r => r

/-- The event with its passphrases given as a list. -/
def Event.listPassphrases {P : Primitives} : Event P → Event P
  | .call r => .call r.listPassphrases
  | e => e

section Run

variable {api : EscrowApi} {P : Primitives}

/-- `r` leaves the storage that `r'` leaves, and has the outcome of `r'` or raises `TypeError`. -/
def SameOrTypeError {α : Type} (r r' : EStateM.Result EscrowError KeyStorage α) : Prop :=
  finalState r = finalState r' ∧
    (outcome r = outcome r' ∨ outcome r = .error tupleConcatenationError)

theorem SameOrTypeError.refl {α : Type} (r : EStateM.Result EscrowError KeyStorage α) :
    SameOrTypeError r r :=
  ⟨rfl, .inl rfl⟩

theorem SameOrTypeError.map {α β : Type} (f : α → β) {x y : EscrowM α} {s : KeyStorage}
    (h : SameOrTypeError (x.run s) (y.run s)) :
    SameOrTypeError ((f <$> x).run s) ((f <$> y).run s) := by
  refine ⟨by rw [finalState_map, finalState_map, h.1], ?_⟩
  rw [outcome_map, outcome_map]
  rcases h.2 with h2 | h2 <;> rw [h2]
  · exact .inl rfl
  · exact .inr rfl

/-- A call that raises `TypeError` under some condition, and is otherwise a call `r` that leaves
the storage as it was. -/
theorem sameOrTypeError_ite {α : Type} {c : Prop} [Decidable c] {s : KeyStorage}
    {r : EStateM.Result EscrowError KeyStorage α} (hr : finalState r = s) :
    SameOrTypeError (if c then .error tupleConcatenationError s else r) r := by
  split
  · exact ⟨hr.symm, .inr rfl⟩
  · exact .refl r

/-- One event and the event with its passphrases given as a list. -/
theorem step_listPassphrases (e : Event P) (s : KeyStorage) :
    SameOrTypeError ((api.step P e).run s) ((api.step P e.listPassphrases).run s) := by
  rcases e with (_ | _ | ⟨ids, _ | _ | _ | ⟨p, rest⟩⟩ | ⟨u, a, c, _ | _ | _ | ⟨p, rest⟩⟩) | _
  -- every event but a call with a non-empty tuple is its own list form
  all_goals try exact .refl _
  · refine .map _ ?_
    rw [requestDecryptionAuthorization_tuple_run (List.cons_ne_nil p rest)]
    exact sameOrTypeError_ite (requestDecryptionAuthorization_finalState ids _)
  · refine .map _ ?_
    rw [decryptWithPrivateKey_tuple_run (List.cons_ne_nil p rest)]
    exact sameOrTypeError_ite (decryptWithPrivateKey_finalState u a c _)

end Run

/-- Over every run of every instance, from every storage, tuples of passphrases change nothing
but the outcome of some calls into `TypeError`: the run with every tuple given as a list leaves
the same storage, and each of its outcomes is the outcome of the run with tuples, unless that one
is `TypeError`. -/
theorem runEvents_listPassphrases (api : EscrowApi) (P : Primitives) (events : List (Event P))
    (s : KeyStorage) :
    (api.runEvents P (events.map Event.listPassphrases) s).2 = (api.runEvents P events s).2 ∧
    List.Forall₂ (fun o o' => o = o' ∨ o = .error tupleConcatenationError)
      (api.runEvents P events s).1 (api.runEvents P (events.map Event.listPassphrases) s).1 := by
  induction events generalizing s with
  | nil => exact ⟨rfl, .nil⟩
  | cons e events ih =>
    obtain ⟨hs, ho⟩ := @step_listPassphrases api P e s
    simp only [List.map_cons, runEvents, ← hs]
    exact ⟨(ih _).1, .cons ho (ih _).2⟩

end Wacryptolib
