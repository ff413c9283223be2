import Wacryptolib.Provisioning
import Wacryptolib.Authorization
import Wacryptolib.FreeKeys

/-!
# Runs of the escrow service

A run is a sequence of calls on one key storage, each running to completion before the next:
calls of one `EscrowApi` instance, and calls of the free-keys worker's task. An exception ends
its call only; the run goes on with the storage the call left.

* `Request`, `EscrowApi.serve`: the four public methods as requests;
* `EscrowApi.runEvents`: the outcomes of a run and the storage it leaves; `runEvents_invariant`
  is induction over a run;
* `readonly_calls_keep_key_storage`: the calls that only read, and every run of a
  `ReadonlyEscrowApi`, leave the storage as it was;
* `step_writes`: what one event writes, from which each event keeps every binding
  (`step_keepsBindings`) and, when its generators make keypairs, keeps every stored pair a
  keypair (`KeypairsValid`, `step_keeps`);
* `fetched_keypair_is_used`: once `fetch_public_key(u, a)` has returned a key, every later call
  about `(u, a)` uses the keypair of that key.
-/

namespace Wacryptolib

open EscrowApi KeyStorage

/-- A call of one of the public methods, with the keypair generator that the provisioning
methods use. -/
inductive Request (P : Primitives) where
  | fetchPublicKey (keychainUid : KeychainUid) (keyAlgo : KeyAlgo) (mustExist : Bool)
      (generateKeypair : KeypairGenerator)
  | getMessageSignature (keychainUid : KeychainUid) (message : Bytes) (signatureAlgo : KeyAlgo)
      (generateKeypair : KeypairGenerator)
  | requestDecryptionAuthorization (keypairIdentifiers : List KeypairIdentifier)
      (passphrases : Passphrases)
  | decryptWithPrivateKey (keychainUid : KeychainUid) (encryptionAlgo : KeyAlgo)
      (cipherdict : P.Cipherdict) (passphrases : Passphrases)

/-- What a call returns. -/
inductive Response (P : Primitives) where
  | publicKey (key : Bytes)
  | signature (signature : P.Signature)
  | authorization (result : AuthorizationResult)
  | plaintext (plaintext : Bytes)
  | freeKeypairGenerated (generated : Bool)

/-- An event of a run: a call of the API, or one call of the free-keys worker's task. -/
inductive Event (P : Primitives) where
  | call (request : Request P)
  | generateFreeKeypair (maxFreeKeysPerAlgo : Int)
      (keyGenerationFunc : KeyAlgo → Except EscrowError Keypair) (keyAlgos : List KeyAlgo)

namespace EscrowApi

/-- The method a request calls. -/
def serve (api : EscrowApi) (P : Primitives) : Request P → EscrowM (Response P)
  | .fetchPublicKey u a mustExist g => .publicKey <$> api.fetchPublicKey g u a mustExist
  | .getMessageSignature u m a g => .signature <$> api.getMessageSignature P g u m a
  | .requestDecryptionAuthorization ids ps =>
    .authorization <$> api.requestDecryptionAuthorization P ids ps
  | .decryptWithPrivateKey u a c ps => .plaintext <$> decryptWithPrivateKey P u a c ps

/-- One event of a run. -/
def step (api : EscrowApi) (P : Primitives) : Event P → EscrowM (Response P)
  | .call request => api.serve P request
  | .generateFreeKeypair M f keyAlgos =>
    .freeKeypairGenerated <$> generateFreeKeypairForLeastProvisionedKeyAlgo M f keyAlgos

/-- The outcomes of the events of a run, in order, and the storage the run leaves. -/
def runEvents (api : EscrowApi) (P : Primitives) :
    List (Event P) → KeyStorage → List (Except EscrowError (Response P)) × KeyStorage
  | [], s => ([], s)
  | e :: es, s =>
    let r := (api.step P e).run s
    let rest := api.runEvents P es (finalState r)
    (outcome r :: rest.1, rest.2)

end EscrowApi

/-! ## Induction over runs -/

section Runs

variable {api : EscrowApi} {P : Primitives}

theorem outcome_map {α β : Type} (f : α → β) (x : EscrowM α) (s : KeyStorage) :
    outcome ((f <$> x).run s) = f <$> outcome (x.run s) := by
  rw [run_map]
  cases x.run s <;> rfl

theorem runEvents_append (xs ys : List (Event P)) (s : KeyStorage) :
    api.runEvents P (xs ++ ys) s =
      ((api.runEvents P xs s).1 ++ (api.runEvents P ys (api.runEvents P xs s).2).1,
        (api.runEvents P ys (api.runEvents P xs s).2).2) := by
  induction xs generalizing s with
  | nil => rfl
  | cons e xs ih => simp [runEvents, ih]

theorem length_runEvents (es : List (Event P)) (s : KeyStorage) :
    (api.runEvents P es s).1.length = es.length := by
  induction es generalizing s with
  | nil => rfl
  | cons e es ih => simp [runEvents, ih]

/-- Induction over a run: a property of the storage that every event keeps holds at the end,
and every outcome relates to its event as every event ensures. -/
theorem runEvents_invariant {Inv : KeyStorage → Prop}
    {Q : Event P → Except EscrowError (Response P) → Prop} {events : List (Event P)}
    (hstep : ∀ e ∈ events, ∀ s, Inv s →
      Inv (finalState ((api.step P e).run s)) ∧ Q e (outcome ((api.step P e).run s)))
    {s : KeyStorage} (hs : Inv s) :
    Inv (api.runEvents P events s).2 ∧ List.Forall₂ Q events (api.runEvents P events s).1 := by
  induction events generalizing s with
  | nil => exact ⟨hs, .nil⟩
  | cons e es ih =>
    obtain ⟨hs', hq⟩ := hstep e (List.mem_cons_self e es) s hs
    obtain ⟨hend, hall⟩ := ih (fun e' he' => hstep e' (List.mem_cons_of_mem e he')) hs'
    exact ⟨hend, .cons hq hall⟩

/-- The outcome of the event after `pre`, and the outcomes after it, from the storage that `pre`
leaves. -/
theorem runEvents_split (pre post : List (Event P)) (e : Event P) (s : KeyStorage) :
    (api.runEvents P (pre ++ e :: post) s).1[pre.length]? =
      some (outcome ((api.step P e).run (api.runEvents P pre s).2)) ∧
    (api.runEvents P (pre ++ e :: post) s).1.drop (pre.length + 1) =
      (api.runEvents P post (finalState ((api.step P e).run (api.runEvents P pre s).2))).1 := by
  rw [runEvents_append, ← @length_runEvents api P pre s]
  refine ⟨?_, by rw [List.drop_append]; rfl⟩
  rw [List.getElem?_append_right le_rfl, Nat.sub_self, runEvents, List.getElem?_cons_zero]

end Runs

/-! ## Calls that only read -/

/-- Every call of a `ReadonlyEscrowApi` leaves the storage as it was. -/
theorem readonly_serve_finalState {P : Primitives} (authorizes : KeychainUid → KeyAlgo → Bool)
    (r : Request P) (s : KeyStorage) :
    finalState (((⟨.readonlyEscrowApi, authorizes⟩ : EscrowApi).serve P r).run s) = s := by
  cases r with
  | fetchPublicKey u a mustExist g =>
    rw [serve, finalState_map, fetchPublicKey_finalState]
  | getMessageSignature u m a g =>
    rw [serve, finalState_map, getMessageSignature_finalState]
  | requestDecryptionAuthorization ids ps =>
    rw [serve, finalState_map, requestDecryptionAuthorization_finalState]
  | decryptWithPrivateKey u a c ps =>
    rw [serve, finalState_map, decryptWithPrivateKey_finalState]

/-- The calls that only read leave the storage exactly as it was, whether they return or raise:
`ReadonlyEscrowApi.fetch_public_key` and `get_message_signature`, `request_decryption_authorization`
on both classes, `decrypt_with_private_key` (which reads nothing of the instance), and
`EscrowApi.fetch_public_key` with `must_exist=True`. So every run of `ReadonlyEscrowApi` calls
leaves it as it was, and `ReadonlyEscrowApi.fetch_public_key(u, a, must_exist)` raises
`KeyDoesNotExist` exactly when `(u, a)` has no keypair, and otherwise returns its public key. -/
theorem readonly_calls_keep_key_storage (P : Primitives)
    (authorizes : KeychainUid → KeyAlgo → Bool) (s : KeyStorage) :
    let readonly : EscrowApi := ⟨.readonlyEscrowApi, authorizes⟩
    (∀ g u a mustExist, finalState ((readonly.fetchPublicKey g u a mustExist).run s) = s) ∧
    (∀ g u message a, finalState ((readonly.getMessageSignature P g u message a).run s) = s) ∧
    (∀ (api : EscrowApi) ids ps,
      finalState ((api.requestDecryptionAuthorization P ids ps).run s) = s) ∧
    (∀ u a c ps, finalState ((decryptWithPrivateKey P u a c ps).run s) = s) ∧
    (∀ (api : EscrowApi) g u a, finalState ((api.fetchPublicKey g u a true).run s) = s) ∧
    (∀ requests : List (Request P), (readonly.runEvents P (requests.map .call) s).2 = s) ∧
    (∀ g u a mustExist,
      (s.keypairs u a = none ↔ ∃ msg,
        (readonly.fetchPublicKey g u a mustExist).run s = .error (.keyDoesNotExist msg) s) ∧
      ∀ kp, s.keypairs u a = some kp →
        (readonly.fetchPublicKey g u a mustExist).run s = .ok kp.publicKey s) := by
  intro readonly
  refine ⟨fun g u a mustExist => fetchPublicKey_finalState readonly mustExist,
    fun g u message a => getMessageSignature_finalState readonly,
    fun api ids ps => requestDecryptionAuthorization_finalState ids ps,
    fun u a c ps => decryptWithPrivateKey_finalState u a c ps,
    fun api g u a => ?_, fun requests => ?_, fun g u a mustExist => ⟨?_, fun kp hk => ?_⟩⟩
  · rw [fetchPublicKey_finalState]
    cases api.kind <;> rfl
  · refine (@runEvents_invariant readonly P (· = s) (fun _ _ => True) _ ?_ s rfl).1
    rintro _ he _ rfl
    obtain ⟨r, -, rfl⟩ := List.mem_map.mp he
    exact ⟨readonly_serve_finalState authorizes r _, trivial⟩
  · rw [readonly_fetchPublicKey_run]
    rcases s.keypairs u a with _ | kp <;> simp
  · rw [readonly_fetchPublicKey_run, hk]

/-! ## Keypairs stay keypairs -/

/-- Every bound entry and every free keypair of the storage is a keypair of its algorithm. -/
structure KeypairsValid (P : Primitives) (s : KeyStorage) : Prop where
  bound : ∀ u a kp, s.keypairs u a = some kp → P.IsKeypair a kp
  free : ∀ a kp, kp ∈ s.freeKeypairs a → P.IsKeypair a kp

/-- The generators an event may call make keypairs, whenever they return. -/
def Event.GeneratesKeypairs (P : Primitives) : Event P → Prop
  | .call (.fetchPublicKey _ _ _ g) | .call (.getMessageSignature _ _ _ g) =>
    ∀ a passphrase kp, g a passphrase = .ok kp → P.IsKeypair a kp
  | .generateFreeKeypair _ f _ => ∀ a kp, f a = .ok kp → P.IsKeypair a kp
  | _ => True

/-- `s'` keeps every binding of `s`. -/
def KeepsBindings (s s' : KeyStorage) : Prop :=
  ∀ u a kp, s.keypairs u a = some kp → s'.keypairs u a = some kp

namespace KeepsBindings

variable {s s' s'' : KeyStorage} {u : KeychainUid} {a : KeyAlgo}

theorem refl (s : KeyStorage) : KeepsBindings s s := fun _ _ _ h => h

theorem trans (h : KeepsBindings s s') (h' : KeepsBindings s' s'') : KeepsBindings s s'' :=
  fun u a kp hk => h' u a kp (h u a kp hk)

/-- Binding an unbound entry keeps every binding. -/
theorem bindKeypair {kp : Keypair} (h : s.keypairs u a = none) :
    KeepsBindings s (s.bindKeypair u a kp) := by
  intro u' a' kp' hk
  rw [bindKeypair_keypairs, if_neg]
  · exact hk
  · rintro ⟨rfl, rfl⟩
    rw [h] at hk
    cases hk

/-- An entry that is unbound once the bindings of `s` are kept was unbound in `s`. -/
theorem unbound (h : KeepsBindings s s') (hk : s'.keypairs u a = none) : s.keypairs u a = none := by
  cases h₀ : s.keypairs u a with
  | none => rfl
  | some kp =>
    rw [h _ _ _ h₀] at hk
    cases hk

end KeepsBindings

namespace KeypairsValid

variable {P : Primitives} {s : KeyStorage} {u : KeychainUid} {a : KeyAlgo} {g : Keypair}


theorem addFree (hv : KeypairsValid P s) (hg : P.IsKeypair a g) :
    KeypairsValid P (s.addFree a g) where
  bound := hv.bound
  free b kp h := by
    by_cases hb : b = a
    · subst hb
      rcases List.mem_cons.mp (by simpa [KeyStorage.addFree] using h) with rfl | h
      · exact hg
      · exact hv.free b kp h
    · exact hv.free b kp (by rwa [addFree_of_ne hb] at h)

theorem bindKeypair (hv : KeypairsValid P s) (hg : P.IsKeypair a g) :
    KeypairsValid P (s.bindKeypair u a g) where
  bound u' a' kp h := by
    rw [bindKeypair_keypairs] at h
    split_ifs at h with hua
    · obtain ⟨rfl, rfl⟩ := hua
      cases h
      exact hg
    · exact hv.bound _ _ _ h
  free := hv.free

theorem setFreeKeypairs {pool : List Keypair} (hv : KeypairsValid P s)
    (hp : ∀ kp ∈ pool, P.IsKeypair a kp) : KeypairsValid P (s.setFreeKeypairs a pool) where
  bound := hv.bound
  free b kp h := by
    rw [setFreeKeypairs_freeKeypairs] at h
    split_ifs at h with hb
    · exact hb ▸ hp kp h
    · exact hv.free b kp h

/-- Attaching the head of a pool keeps every stored pair a keypair. -/
theorem attach {kp : Keypair} {rest : List Keypair} (hv : KeypairsValid P s)
    (hp : s.freeKeypairs a = kp :: rest) :
    KeypairsValid P ((s.bindKeypair u a kp).setFreeKeypairs a rest) :=
  have hpool := fun kp' (h : kp' ∈ kp :: rest) => hv.free a kp' (hp ▸ h)
  (hv.bindKeypair (hpool kp (List.mem_cons_self kp rest))).setFreeKeypairs
    fun kp' h => hpool kp' (List.mem_cons_of_mem kp h)

/-- Provisioning keeps every stored pair a keypair, when generation makes keypairs. -/
theorem provision {gen : Except EscrowError Keypair} (hv : KeypairsValid P s)
    (hg : ∀ kp, gen = .ok kp → P.IsKeypair a kp) :
    KeypairsValid P (finalState (s.provision u a gen)) := by
  rcases provision_cases s u a gen with ⟨_, -, hp⟩ | ⟨-, _, _, hf, hp⟩ |
    ⟨-, -, ⟨kp, hkp, hp⟩ | ⟨_, -, hp⟩⟩ <;> rw [hp]
  · exact hv
  · exact hv.attach hf
  · exact hv.bindKeypair (hg kp hkp)
  · exact hv

end KeypairsValid

section Step

variable {api : EscrowApi} {P : Primitives} {s : KeyStorage}

theorem keepsBindings_provision {u : KeychainUid} {a : KeyAlgo} {gen : Except EscrowError Keypair} :
    KeepsBindings s (finalState (s.provision u a gen)) :=
  fun _ _ _ h => provision_keeps h

/-- What one event writes: nothing; the provisioning of one entry by a fetch or a signature, with
the keypair its generator gives; or a free keypair that the worker's generator gave. -/
theorem step_writes (e : Event P) (s : KeyStorage) :
    finalState ((api.step P e).run s) = s ∨
    (∃ u a g, ((∃ mustExist, e = .call (.fetchPublicKey u a mustExist g)) ∨
        ∃ m, e = .call (.getMessageSignature u m a g)) ∧
      finalState ((api.step P e).run s) = finalState (s.provision u a (g a none))) ∨
    ∃ M f keyAlgos a kp, e = .generateFreeKeypair M f keyAlgos ∧ f a = .ok kp ∧
      finalState ((api.step P e).run s) = s.addFree a kp := by
  rcases e with (⟨u, a, mustExist, g⟩ | ⟨u, m, a, g⟩ | ⟨ids, ps⟩ | ⟨u, a, c, ps⟩) |
    ⟨M, f, keyAlgos⟩
  · rw [step, serve, finalState_map, fetchPublicKey_finalState]
    split
    · exact .inr (.inl ⟨u, a, g, .inl ⟨false, rfl⟩, rfl⟩)
    · exact .inl rfl
  · rw [step, serve, finalState_map, getMessageSignature_finalState]
    split
    · split_ifs
      · exact .inr (.inl ⟨u, a, g, .inr ⟨m, rfl⟩, rfl⟩)
      · exact .inl rfl
    · exact .inl rfl
  · rw [step, serve, finalState_map, requestDecryptionAuthorization_finalState]
    exact .inl rfl
  · rw [step, serve, finalState_map, decryptWithPrivateKey_finalState]
    exact .inl rfl
  · rw [step, finalState_map]
    by_cases hne : keyAlgos = []
    · rw [hne, generateFreeKeypair_nil_run]
      exact .inl rfl
    · obtain ⟨a, -, -, hrun⟩ := @generateFreeKeypair_cases s M f keyAlgos hne
      rw [hrun]
      split_ifs
      · exact .inl rfl
      · rcases hf : f a with e | kp
        · exact .inl rfl
        · exact .inr (.inr ⟨M, f, keyAlgos, a, kp, rfl, hf, rfl⟩)

/-- No event unbinds or rebinds an entry: it only reads, provisions one entry, or adds a free
keypair. -/
theorem step_keepsBindings (e : Event P) : KeepsBindings s (finalState ((api.step P e).run s)) := by
  rcases step_writes e s with h | ⟨_, _, _, -, h⟩ | ⟨_, _, _, _, _, -, -, h⟩ <;> rw [h]
  · exact .refl s
  · exact keepsBindings_provision
  · exact fun _ _ _ h => h

/-- One event keeps every binding and, when its generators make keypairs, the validity of the
storage. -/
theorem step_keeps (e : Event P) (he : e.GeneratesKeypairs P) (hv : KeypairsValid P s) :
    KeypairsValid P (finalState ((api.step P e).run s)) ∧
      KeepsBindings s (finalState ((api.step P e).run s)) := by
  refine ⟨?_, step_keepsBindings e⟩
  rcases step_writes e s with h | ⟨u, a, g, ⟨_, rfl⟩ | ⟨_, rfl⟩, h⟩ |
    ⟨_, f, _, a, kp, rfl, hf, h⟩ <;> rw [h]
  · exact hv
  · exact hv.provision (he a none)
  · exact hv.provision (he a none)
  · exact hv.addFree (he a kp hf)

/-- A fetch that returns `pk` leaves `(u, a)` bound to a keypair whose public half is `pk`. -/
theorem step_fetch_binds {u : KeychainUid} {a : KeyAlgo} {mustExist : Bool} {g : KeypairGenerator}
    {pk : Bytes} (h : outcome ((api.step P (.call (.fetchPublicKey u a mustExist g))).run s) =
      .ok (.publicKey pk)) :
    ∃ kp, (finalState ((api.step P (.call (.fetchPublicKey u a mustExist g))).run s)).keypairs u a =
      some kp ∧ kp.publicKey = pk := by
  rw [step, serve, outcome_map] at h
  rw [step, serve, finalState_map]
  cases hr : (api.fetchPublicKey g u a mustExist).run s with
  | ok pk' s' =>
    rw [hr] at h
    cases h
    exact fetchPublicKey_binds api mustExist hr
  | error e s' =>
    rw [hr] at h
    cases h

end Step

/-! ## One keypair per entry -/

/-- What the outcome `r` of an event about `(u, a)` is when `(u, a)` is bound to `kp`: a fetch
returns its public half; a signature that is returned verifies against that half; a decryption
of an RSA-OAEP encryption of `m` under that half returns `m`, unless the algorithm is not
`RSA_OAEP` (the assertion raises) or loading the private key raised. Other events are not
constrained. -/
def UsesKeypair (P : Primitives) (u : KeychainUid) (a : KeyAlgo) (kp : Keypair) :
    Event P → Except EscrowError (Response P) → Prop
  | .call (.fetchPublicKey u' a' _ _), r => u' = u → a' = a → r = .ok (.publicKey kp.publicKey)
  | .call (.getMessageSignature u' m a' _), r => u' = u → a' = a →
    ∀ sig, r = .ok (.signature sig) →
      ∃ publicKey, P.loadAsymmetricKeyFromPemBytestring kp.publicKey a none = some publicKey ∧
        P.verifyMessageSignature m sig publicKey a = true
  | .call (.decryptWithPrivateKey u' a' c ps), r => u' = u → a' = a →
    ∀ publicKey m, P.loadAsymmetricKeyFromPemBytestring kp.publicKey a none = some publicKey →
      P.IsRsaOaepEncryption publicKey m c →
      r = .ok (.plaintext m) ∨ (upper a ≠ "RSA_OAEP" ∧ r = .error .assertionError) ∨
        ∃ e, decryptPrivateKeyPemWithPassphrases P kp.privateKey a ps.orEmpty = .error e ∧
          r = .error e
  | _, _ => True

section Uses

variable {api : EscrowApi} {P : Primitives} {s : KeyStorage} {u : KeychainUid} {a : KeyAlgo}
  {kp : Keypair}

/-- Every event's outcome uses the keypair bound to `(u, a)`. -/
theorem step_usesKeypair (e : Event P) (hk : s.keypairs u a = some kp) (hkp : P.IsKeypair a kp) :
    UsesKeypair P u a kp e (outcome ((api.step P e).run s)) := by
  rcases e with (⟨u', a', mustExist, g⟩ | ⟨u', m, a', g⟩ | ⟨ids, ps⟩ | ⟨u', a', c, ps⟩) |
    ⟨M, f, keyAlgos⟩
  · rintro rfl rfl
    rw [step, serve, outcome_map, fetchPublicKey_of_bound api mustExist hk]
    rfl
  · rintro rfl rfl sig hsig
    rw [step, serve, outcome_map] at hsig
    by_cases hm : m.length ≤ MAX_PAYLOAD_LENGTH_FOR_SIGNATURE
    · rw [getMessageSignature_of_bound api hm hk, signWithStoredKey_run hk] at hsig
      split at hsig <;> rename_i key hload
      · split at hsig <;> rename_i sig' hs <;> cases hsig
        obtain ⟨publicKey, hpub, hverify, -⟩ := hkp none _ hload
        exact ⟨publicKey, hpub, hverify m _ hs⟩
      · cases hsig
    · rw [getMessageSignature_too_big api (Nat.lt_of_not_le hm)] at hsig
      cases hsig
  · trivial
  · rintro rfl rfl publicKey m hpub henc
    rw [step, serve, outcome_map, decryptWithPrivateKey_run]
    by_cases ha : upper a' = "RSA_OAEP"
    · rw [if_pos ha, hk]
      dsimp only
      cases hl : decryptPrivateKeyPemWithPassphrases P kp.privateKey a' ps.orEmpty with
      | ok key =>
        obtain ⟨passphrase, hload⟩ := decryptPrivateKeyPemWithPassphrases_loads hl
        obtain ⟨publicKey', hpub', -, hdec⟩ := hkp passphrase key hload
        obtain rfl : publicKey' = publicKey := Option.some.inj (hpub'.symm.trans hpub)
        dsimp only
        rw [run_liftExcept, hdec m c henc]
        exact .inl rfl
      | error e => exact .inr (.inr ⟨e, rfl, rfl⟩)
    · rw [if_neg ha]
      exact .inr (.inl ⟨ha, rfl⟩)
  · trivial

end Uses

/-- Once `fetch_public_key(u, a)` has returned `pk` in a run from a storage of keypairs, in which
every generator makes keypairs, `(u, a)` is bound for the rest of the run to one keypair `kp`
whose public half is `pk`, and every later event uses `kp`: every fetch of `(u, a)` returns `pk`,
every signature returned for `(u, a)` verifies against `pk`, and every decryption with `(u, a)`
of an RSA-OAEP encryption of `m` under `pk` returns `m` once loading the private key succeeds, if
`a` is `RSA_OAEP` (for another algorithm the assertion of `decrypt_with_private_key` raises). -/
theorem fetched_keypair_is_used (api : EscrowApi) (P : Primitives) (s : KeyStorage)
    (hv : KeypairsValid P s) (pre post : List (Event P)) (u : KeychainUid) (a : KeyAlgo)
    (mustExist : Bool) (generateKeypair : KeypairGenerator) (pk : Bytes) :
    let events := pre ++ .call (.fetchPublicKey u a mustExist generateKeypair) :: post
    (∀ e ∈ events, e.GeneratesKeypairs P) →
    (api.runEvents P events s).1[pre.length]? = some (.ok (.publicKey pk)) →
    ∃ kp, kp.publicKey = pk ∧ P.IsKeypair a kp ∧
      List.Forall₂ (UsesKeypair P u a kp) post
        ((api.runEvents P events s).1.drop (pre.length + 1)) := by
  intro events hgen hpk
  have hgen' : ∀ e ∈ post, e.GeneratesKeypairs P :=
    fun e he => hgen e (List.mem_append_right _ (List.mem_cons_of_mem _ he))
  obtain ⟨hat, hdrop⟩ := @runEvents_split api P pre post
    (.call (.fetchPublicKey u a mustExist generateKeypair)) s
  rw [hat, Option.some.injEq] at hpk
  rw [hdrop]
  -- The events before the fetch keep the storage valid; the fetch binds `(u, a)` to `kp`.
  have hpre := @runEvents_invariant api P (KeypairsValid P) (fun _ _ => True) pre
    (fun e he _ hs => ⟨(step_keeps e (hgen e (List.mem_append_left _ he)) hs).1, trivial⟩) s hv
  obtain ⟨kp, hk, rfl⟩ := step_fetch_binds hpk
  have hv₂ :=
    (@step_keeps api P _ _ (hgen _ (List.mem_append_right _ (List.mem_cons_self _ _))) hpre.1).1
  refine ⟨kp, rfl, hv₂.bound u a kp hk, ?_⟩
  -- From there on, the binding stays and every event uses it.
  refine (@runEvents_invariant api P (fun s => KeypairsValid P s ∧ s.keypairs u a = some kp)
    (UsesKeypair P u a kp) post (fun e he s' hs' => ?_) _ ⟨hv₂, hk⟩).2
  obtain ⟨hvalid, hkeeps⟩ := @step_keeps api P s' e (hgen' e he) hs'.1
  exact ⟨⟨hvalid, hkeeps u a kp hs'.2⟩, step_usesKeypair e hs'.2 (hs'.1.bound u a kp hs'.2)⟩

/-- A fetch of an `RSA_PSS` keypair from an empty storage, then a signature with it. -/
theorem fetched_keypair_is_used_then_signed :
    let g : KeypairGenerator := fun _ _ => .ok ⟨[1], [1]⟩
    let post : List (Event plainPrimitives) := [.call (.getMessageSignature 0 [7] "RSA_PSS" g)]
    let events := [] ++ .call (.fetchPublicKey 0 "RSA_PSS" false g) :: post
    KeypairsValid plainPrimitives KeyStorage.empty ∧
    (∀ e ∈ events, e.GeneratesKeypairs plainPrimitives) ∧
    (escrowApi.runEvents plainPrimitives events KeyStorage.empty).1[0]? =
      some (.ok (.publicKey [1])) ∧
    ∃ kp, kp.publicKey = [1] ∧ plainPrimitives.IsKeypair "RSA_PSS" kp ∧
      List.Forall₂ (UsesKeypair plainPrimitives 0 "RSA_PSS" kp) post
        ((escrowApi.runEvents plainPrimitives events KeyStorage.empty).1.drop (0 + 1)) :=
  have hv : KeypairsValid plainPrimitives KeyStorage.empty :=
    ⟨fun _ _ _ h => Option.noConfusion h, fun _ _ h => absurd h (List.not_mem_nil _)⟩
  have hgen : ∀ e ∈ ([] ++ [.call (.fetchPublicKey 0 "RSA_PSS" false fun _ _ => .ok ⟨[1], [1]⟩),
      .call (.getMessageSignature 0 [7] "RSA_PSS" fun _ _ => .ok ⟨[1], [1]⟩)] : List (Event _)),
      e.GeneratesKeypairs plainPrimitives := by
    simp only [List.nil_append, List.mem_cons, List.mem_singleton, List.not_mem_nil, or_false]
    rintro e (rfl | rfl) <;>
      exact fun a _ kp h => (Except.ok.inj h) ▸ plainPrimitives_isKeypair a [1]
  ⟨hv, hgen, rfl, fetched_keypair_is_used escrowApi plainPrimitives KeyStorage.empty hv [] _ 0
    "RSA_PSS" false _ [1] hgen rfl⟩

end Wacryptolib
