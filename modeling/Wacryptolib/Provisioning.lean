import Wacryptolib.Escrow

/-!
# Provisioning a keypair

What `_ensure_keypair_exists`, and the two calls built on it, do when they run alone:

* `KeyStorage.provision`: what the base class's `_ensure_keypair_exists` does, in closed form: it
  keeps a bound keypair, else attaches a free one, else binds a generated one, and raises only what
  generation raises (`ensureKeypairExists_run`). `provision_cases` says it case by case;
  `provision_keypairs`, `provision_freeKeypairs`, `provision_keypair` and `provision_error` say
  which binding and which pool it changes, and when it raises;
* `ReadonlyEscrowApi.ensureKeypairExists_run`: the override only reads;
* `fetchPublicKey_run`, `getMessageSignature_run`: the results of both classes' calls, signing
  being `signWithStoredKey_run`; `fetchPublicKey_finalState`, `getMessageSignature_finalState`:
  the storage they leave;
* `fetchPublicKey_of_bound`, `getMessageSignature_of_bound`: on both classes, a bound entry is
  used as it is;
* `fetchPublicKey_changes_one_entry`: fetching a public key with `must_exist=False` raises with
  the storage untouched, or binds at most one entry, from the free pool first; and signing changes
  the storage the same way.
-/

namespace Wacryptolib

namespace KeyStorage

/-- What the base class's `_ensure_keypair_exists(u, a)` does from `s`, `generated` being what
`generate_keypair(key_algo=a, passphrase=None)` gives: nothing if `(u, a)` is bound; else it
attaches the first free keypair of `a`; else it binds the generated keypair, or raises what
generation raised, before any write. It ends with the keypair bound to `(u, a)`. -/
def provision (s : KeyStorage) (u : KeychainUid) (a : KeyAlgo)
    (generated : Except EscrowError Keypair) : EStateM.Result EscrowError KeyStorage Keypair :=
  match s.keypairs u a, s.freeKeypairs a, generated with
  | some kp, _, _ => .ok kp s
  | none, kp :: rest, _ => .ok kp ((s.bindKeypair u a kp).setFreeKeypairs a rest)
  | none, [], .ok kp => .ok kp (s.bindKeypair u a kp)
  | none, [], .error e => .error e s

variable {s s' : KeyStorage} {u u' : KeychainUid} {a a' : KeyAlgo}
  {gen : Except EscrowError Keypair} {kp : Keypair} {e : EscrowError}

/-- Provisioning, case by case. -/
theorem provision_cases (s : KeyStorage) (u : KeychainUid) (a : KeyAlgo)
    (gen : Except EscrowError Keypair) :
    (∃ kp, s.keypairs u a = some kp ∧ s.provision u a gen = .ok kp s) ∨
    (s.keypairs u a = none ∧ ∃ kp rest, s.freeKeypairs a = kp :: rest ∧
      s.provision u a gen = .ok kp ((s.bindKeypair u a kp).setFreeKeypairs a rest)) ∨
    (s.keypairs u a = none ∧ s.freeKeypairs a = [] ∧
      ((∃ kp, gen = .ok kp ∧ s.provision u a gen = .ok kp (s.bindKeypair u a kp)) ∨
        ∃ e, gen = .error e ∧ s.provision u a gen = .error e s)) := by
  unfold provision
  rcases hk : s.keypairs u a with _ | kp
  · rcases hp : s.freeKeypairs a with _ | ⟨kp, rest⟩
    · rcases gen with e | kp
      · exact .inr (.inr ⟨rfl, rfl, .inr ⟨e, rfl, rfl⟩⟩)
      · exact .inr (.inr ⟨rfl, rfl, .inl ⟨kp, rfl, rfl⟩⟩)
    · exact .inr (.inl ⟨rfl, kp, rest, rfl, rfl⟩)
  · exact .inl ⟨kp, rfl, rfl⟩

theorem provision_of_bound (h : s.keypairs u a = some kp) : s.provision u a gen = .ok kp s := by
  simp [provision, h]

/-- Provisioning raises only what generation raised, when it had to generate, and then leaves
the storage as it was. -/
theorem provision_error (h : s.provision u a gen = .error e s') :
    s' = s ∧ s.keypairs u a = none ∧ s.freeKeypairs a = [] ∧ gen = .error e := by
  rcases provision_cases s u a gen with ⟨_, -, hp⟩ | ⟨-, _, _, -, hp⟩ |
    ⟨hk, hf, ⟨_, -, hp⟩ | ⟨e', rfl, hp⟩⟩ <;> rw [hp] at h <;> cases h
  exact ⟨rfl, hk, hf, rfl⟩

/-- Provisioning binds `(u, a)` to the keypair it ends with, and no other entry. -/
theorem provision_keypairs (h : s.provision u a gen = .ok kp s') (u' : KeychainUid)
    (a' : KeyAlgo) : s'.keypairs u' a' = if u' = u ∧ a' = a then some kp else s.keypairs u' a' := by
  rcases provision_cases s u a gen with ⟨_, hk, hp⟩ | ⟨-, _, _, -, hp⟩ | ⟨-, -, ⟨_, -, hp⟩ | ⟨_, -, hp⟩⟩ <;>
    rw [hp] at h <;> cases h
  · split_ifs with hua
    · obtain ⟨rfl, rfl⟩ := hua
      exact hk
    · rfl
  all_goals simp

/-- Provisioning takes the head of the pool of `a` when `(u, a)` was unbound, and touches no
other pool. -/
theorem provision_freeKeypairs (h : s.provision u a gen = .ok kp s') (b : KeyAlgo) :
    s'.freeKeypairs b =
      if b = a ∧ s.keypairs u a = none then (s.freeKeypairs a).tail else s.freeKeypairs b := by
  rcases provision_cases s u a gen with ⟨_, hk, hp⟩ | ⟨hk, _, _, hf, hp⟩ |
    ⟨hk, hf, ⟨_, -, hp⟩ | ⟨_, -, hp⟩⟩ <;> rw [hp] at h <;> cases h
  · simp [hk]
  · by_cases hb : b = a
    · simp [hb, hk, hf]
    · simp [hb]
  · by_cases hb : b = a <;> simp [hb, hk, hf]

/-- The keypair provisioning ends with: the bound one; else the first free keypair of `a`, which
leaves its pool; else the generated one. -/
theorem provision_keypair (h : s.provision u a gen = .ok kp s') :
    s.keypairs u a = some kp ∨
    (s.keypairs u a = none ∧ s.freeKeypairs a = kp :: s'.freeKeypairs a) ∨
    (s.keypairs u a = none ∧ s.freeKeypairs a = [] ∧ gen = .ok kp ∧ s'.freeKeypairs a = []) := by
  rcases provision_cases s u a gen with ⟨_, hk, hp⟩ | ⟨hk, _, _, hf, hp⟩ |
    ⟨hk, hf, ⟨_, hg, hp⟩ | ⟨_, -, hp⟩⟩ <;> rw [hp] at h <;> cases h
  · exact .inl hk
  · exact .inr (.inl ⟨hk, by simp [hf]⟩)
  · exact .inr (.inr ⟨hk, hf, hg, by simp [hf]⟩)

/-- A binding survives provisioning. -/
theorem provision_keeps (h : s.keypairs u' a' = some kp) :
    (finalState (s.provision u a gen)).keypairs u' a' = some kp := by
  rcases hp : s.provision u a gen with ⟨kp', s'⟩ | ⟨e, s'⟩
  · rw [finalState_ok, provision_keypairs hp]
    split_ifs with hua
    · obtain ⟨rfl, rfl⟩ := hua
      rw [provision_of_bound h] at hp
      cases hp
      rfl
    · exact h
  · rw [finalState_error, (provision_error hp).1]
    exact h

end KeyStorage

open KeyStorage

section Runs

variable {s : KeyStorage} {u : KeychainUid} {a : KeyAlgo} {generateKeypair : KeypairGenerator}

/-- The base class's `_ensure_keypair_exists` does what `provision` says. -/
theorem ensureKeypairExists_run :
    (EscrowApi.ensureKeypairExists generateKeypair u a).run s =
      match s.provision u a (generateKeypair a none) with
      | .ok _ s' => .ok () s'
      | .error e s' => .error e s' := by
  rcases provision_cases s u a (generateKeypair a none) with ⟨kp, hk, hp⟩ |
    ⟨hk, kp, rest, hf, hp⟩ | ⟨hk, hf, ⟨kp, hg, hp⟩ | ⟨e, hg, hp⟩⟩ <;> rw [hp] <;>
    simp [EscrowApi.ensureKeypairExists, generateKeypairForStorage, EscrowError.isKeyDoesNotExist,
      *]

/-- `ReadonlyEscrowApi._ensure_keypair_exists` only reads. -/
theorem ReadonlyEscrowApi.ensureKeypairExists_run :
    (ReadonlyEscrowApi.ensureKeypairExists u a).run s = match s.keypairs u a with
      | some _ => .ok () s
      | none => .error (.keyDoesNotExist (readonlyNotFoundMessage u a)) s := by
  simp only [ReadonlyEscrowApi.ensureKeypairExists, run_bind, run_tryExcept, getPublicKey_run]
  cases s.keypairs u a <;> rfl

/-- `fetch_public_key` with `must_exist=True` is `get_public_key`, for every instance. -/
theorem fetchPublicKey_mustExist_run (api : EscrowApi) :
    (api.fetchPublicKey generateKeypair u a true).run s = (getPublicKey u a).run s := rfl

/-- `EscrowApi.fetch_public_key` with `must_exist=False` returns the public half of the keypair
it provisions, or raises what generation raised. -/
theorem fetchPublicKey_run (authorizes : KeychainUid → KeyAlgo → Bool) :
    ((⟨.escrowApi, authorizes⟩ : EscrowApi).fetchPublicKey generateKeypair u a false).run s =
      match s.provision u a (generateKeypair a none) with
      | .ok kp s' => .ok kp.publicKey s'
      | .error e s' => .error e s' := by
  simp only [EscrowApi.fetchPublicKey, EscrowApi.callEnsureKeypairExists, Bool.not_false,
    if_true, run_bind, ensureKeypairExists_run]
  rcases hp : s.provision u a (generateKeypair a none) with ⟨kp, s'⟩ | ⟨e, s'⟩
  · simp [getPublicKey_run, provision_keypairs hp]
  · rfl

/-- `ReadonlyEscrowApi.fetch_public_key` reads the bound key, whatever `must_exist` is. -/
theorem readonly_fetchPublicKey_run (authorizes : KeychainUid → KeyAlgo → Bool)
    (mustExist : Bool) :
    ((⟨.readonlyEscrowApi, authorizes⟩ : EscrowApi).fetchPublicKey generateKeypair u a
      mustExist).run s = match s.keypairs u a with
      | some kp => .ok kp.publicKey s
      | none => .error (.keyDoesNotExist
          (if mustExist then keypairNotFoundMessage u a else readonlyNotFoundMessage u a)) s := by
  cases mustExist <;> rcases hk : s.keypairs u a with _ | kp <;>
    simp [EscrowApi.fetchPublicKey, EscrowApi.callEnsureKeypairExists,
      ReadonlyEscrowApi.ensureKeypairExists_run, hk]

variable {P : Primitives} {message : Bytes}

/-- Signing with a bound keypair: its private half, loaded without a passphrase, signs; a key
that does not load raises `KeyLoadingError`, and `sign_message` may raise. The storage is only
read. -/
theorem signWithStoredKey_run {kp : Keypair} (h : s.keypairs u a = some kp) :
    (signWithStoredKey P u message a).run s =
      match P.loadAsymmetricKeyFromPemBytestring kp.privateKey a none with
      | some key => match P.signMessage message a key with
        | .ok sig => .ok sig s
        | .error e => .error e s
      | none => .error .keyLoadingError s := by
  simp only [signWithStoredKey, run_bind, getPrivateKey_run, h, run_orRaise]
  cases P.loadAsymmetricKeyFromPemBytestring kp.privateKey a none with
  | none => rfl
  | some key =>
    dsimp only
    cases P.signMessage message a key <;> rfl

theorem signWithStoredKey_finalState :
    finalState ((signWithStoredKey P u message a).run s) = s := by
  rcases hk : s.keypairs u a with _ | kp
  · simp [signWithStoredKey, hk]
  · rw [signWithStoredKey_run hk]
    split
    · split <;> rfl
    · rfl

theorem getMessageSignature_too_big (api : EscrowApi)
    (h : MAX_PAYLOAD_LENGTH_FOR_SIGNATURE < message.length) :
    (api.getMessageSignature P generateKeypair u message a).run s =
      .error (.valueError messageTooBigMessage) s := by
  simp [EscrowApi.getMessageSignature, h]

/-- `EscrowApi.get_message_signature` of a small enough message provisions the keypair, then
signs with it. -/
theorem getMessageSignature_run (authorizes : KeychainUid → KeyAlgo → Bool)
    (h : message.length ≤ MAX_PAYLOAD_LENGTH_FOR_SIGNATURE) :
    ((⟨.escrowApi, authorizes⟩ : EscrowApi).getMessageSignature P generateKeypair u message
      a).run s =
      match s.provision u a (generateKeypair a none) with
      | .ok _ s' => (signWithStoredKey P u message a).run s'
      | .error e s' => .error e s' := by
  simp only [EscrowApi.getMessageSignature, EscrowApi.callEnsureKeypairExists, run_bind, run_ite,
    run_pure, if_neg (Nat.not_lt.mpr h), ensureKeypairExists_run]
  cases s.provision u a (generateKeypair a none) <;> rfl

/-- `ReadonlyEscrowApi.get_message_signature` of a small enough message signs with the bound
keypair, or raises. -/
theorem readonly_getMessageSignature_run (authorizes : KeychainUid → KeyAlgo → Bool)
    (h : message.length ≤ MAX_PAYLOAD_LENGTH_FOR_SIGNATURE) :
    ((⟨.readonlyEscrowApi, authorizes⟩ : EscrowApi).getMessageSignature P generateKeypair u
      message a).run s = match s.keypairs u a with
      | none => .error (.keyDoesNotExist (readonlyNotFoundMessage u a)) s
      | some _ => (signWithStoredKey P u message a).run s := by
  simp only [EscrowApi.getMessageSignature, EscrowApi.callEnsureKeypairExists, run_bind, run_ite,
    run_pure, if_neg (Nat.not_lt.mpr h), ReadonlyEscrowApi.ensureKeypairExists_run]
  cases s.keypairs u a <;> rfl

/-- `fetch_public_key` changes the storage only on the base class with `must_exist=False`. -/
theorem fetchPublicKey_finalState (api : EscrowApi) (mustExist : Bool) :
    finalState ((api.fetchPublicKey generateKeypair u a mustExist).run s) =
      match api.kind, mustExist with
      | .escrowApi, false => finalState (s.provision u a (generateKeypair a none))
      | _, _ => s := by
  obtain ⟨kind, authorizes⟩ := api
  cases kind <;> cases mustExist
  · rw [fetchPublicKey_run]; cases s.provision u a (generateKeypair a none) <;> rfl
  · rw [fetchPublicKey_mustExist_run, getPublicKey_run]; split <;> rfl
  all_goals rw [readonly_fetchPublicKey_run]; split <;> rfl

/-- `get_message_signature` changes the storage as `fetch_public_key(must_exist=False)` does on
the base class when the message is small enough, and never on `ReadonlyEscrowApi`. -/
theorem getMessageSignature_finalState (api : EscrowApi) :
    finalState ((api.getMessageSignature P generateKeypair u message a).run s) =
      match api.kind with
      | .escrowApi =>
        if message.length ≤ MAX_PAYLOAD_LENGTH_FOR_SIGNATURE then
          finalState (s.provision u a (generateKeypair a none)) else s
      | .readonlyEscrowApi => s := by
  by_cases h : message.length ≤ MAX_PAYLOAD_LENGTH_FOR_SIGNATURE
  · obtain ⟨kind, authorizes⟩ := api
    cases kind
    · rw [getMessageSignature_run authorizes h]
      dsimp only
      rw [if_pos h]
      cases s.provision u a (generateKeypair a none) with
      | ok _ s' => exact signWithStoredKey_finalState
      | error => rfl
    · rw [readonly_getMessageSignature_run authorizes h]
      dsimp only
      cases s.keypairs u a with
      | none => rfl
      | some _ => exact signWithStoredKey_finalState
  · rw [getMessageSignature_too_big api (Nat.lt_of_not_le h)]
    cases api.kind
    · exact (if_neg h).symm
    · rfl

variable {kp : Keypair}

/-- Once `(u, a)` is bound to `kp`, `fetch_public_key(u, a)` returns its public half and leaves
the storage as it is, on both classes and whatever `must_exist` is. -/
theorem fetchPublicKey_of_bound (api : EscrowApi) (mustExist : Bool)
    (h : s.keypairs u a = some kp) :
    (api.fetchPublicKey generateKeypair u a mustExist).run s = .ok kp.publicKey s := by
  obtain ⟨kind, authorizes⟩ := api
  cases kind <;> cases mustExist
  · rw [fetchPublicKey_run, provision_of_bound h]
  · rw [fetchPublicKey_mustExist_run, getPublicKey_run, h]
  all_goals rw [readonly_fetchPublicKey_run, h]

/-- Once `(u, a)` is bound, `get_message_signature(u, m, a)` of a small enough message signs
with it, on both classes. -/
theorem getMessageSignature_of_bound (api : EscrowApi)
    (hm : message.length ≤ MAX_PAYLOAD_LENGTH_FOR_SIGNATURE) (h : s.keypairs u a = some kp) :
    (api.getMessageSignature P generateKeypair u message a).run s =
      (signWithStoredKey P u message a).run s := by
  obtain ⟨kind, authorizes⟩ := api
  cases kind
  · rw [getMessageSignature_run authorizes hm, provision_of_bound h]
  · rw [readonly_getMessageSignature_run authorizes hm, h]

/-- A public key that `fetch_public_key(u, a)` returns is the public half of the keypair bound to
`(u, a)` in the storage it leaves. -/
theorem fetchPublicKey_binds (api : EscrowApi) (mustExist : Bool) {pk : Bytes} {s' : KeyStorage}
    (h : (api.fetchPublicKey generateKeypair u a mustExist).run s = .ok pk s') :
    ∃ kp, s'.keypairs u a = some kp ∧ kp.publicKey = pk := by
  rcases hk : s.keypairs u a with _ | kp
  · obtain ⟨kind, authorizes⟩ := api
    cases kind <;> cases mustExist
    · rw [fetchPublicKey_run] at h
      split at h <;> rename_i kp s'' hp <;> cases h
      exact ⟨kp, by simp [provision_keypairs hp], rfl⟩
    · simp [fetchPublicKey_mustExist_run, hk] at h
    all_goals simp [readonly_fetchPublicKey_run, hk] at h
  · rw [fetchPublicKey_of_bound api mustExist hk] at h
    cases h
    exact ⟨kp, hk, rfl⟩

end Runs

/-- `EscrowApi.fetch_public_key(u, a, must_exist=False)` either raises, with the storage `s`
unchanged, when `(u, a)` is unbound, the pool of `a` empty and key generation raises; or it
returns the public key of the keypair bound to `(u, a)` in the storage `s'` it leaves. `s'` is
`s` if `(u, a)` was bound; else one free keypair of `a` has moved to `(u, a)`; else, with an empty
pool, the generated keypair is bound. Nothing else differs. `get_message_signature(u, m, a)`
leaves the same storage when `m` has at most 128 bytes, and raises `ValueError` with the storage
untouched when it is longer. -/
theorem fetchPublicKey_changes_one_entry (P : Primitives)
    (authorizes : KeychainUid → KeyAlgo → Bool) (generateKeypair : KeypairGenerator)
    (u : KeychainUid) (a : KeyAlgo) (s : KeyStorage) :
    let api : EscrowApi := ⟨.escrowApi, authorizes⟩
    ((∃ e, s.keypairs u a = none ∧ s.freeKeypairs a = [] ∧ generateKeypair a none = .error e ∧
        (api.fetchPublicKey generateKeypair u a false).run s = .error e s ∧
        ∀ message : Bytes, message.length ≤ MAX_PAYLOAD_LENGTH_FOR_SIGNATURE →
          (api.getMessageSignature P generateKeypair u message a).run s = .error e s) ∨
      ∃ kp s', (api.fetchPublicKey generateKeypair u a false).run s = .ok kp.publicKey s' ∧
        s'.keypairs u a = some kp ∧
        (s.keypairs u a ≠ none → s' = s) ∧
        (s.keypairs u a = none → s.freeKeypairs a ≠ [] →
          (s.freeKeypairs a).Perm (kp :: s'.freeKeypairs a)) ∧
        (s.keypairs u a = none → s.freeKeypairs a = [] →
          generateKeypair a none = .ok kp ∧ s'.freeKeypairs a = []) ∧
        (∀ u' a', u' ≠ u ∨ a' ≠ a → s'.keypairs u' a' = s.keypairs u' a') ∧
        (∀ b, b ≠ a → s'.freeKeypairs b = s.freeKeypairs b) ∧
        (∀ message : Bytes, message.length ≤ MAX_PAYLOAD_LENGTH_FOR_SIGNATURE →
          finalState ((api.getMessageSignature P generateKeypair u message a).run s) = s')) ∧
      ∀ message : Bytes, MAX_PAYLOAD_LENGTH_FOR_SIGNATURE < message.length →
        (api.getMessageSignature P generateKeypair u message a).run s =
          .error (.valueError "Message too big for signing, only a hash should be sent") s := by
  intro api
  refine ⟨?_, fun message h => getMessageSignature_too_big api h⟩
  rcases hp : s.provision u a (generateKeypair a none) with ⟨kp, s'⟩ | ⟨e, s'⟩
  · -- It provisions `kp`, and the call returns its public half.
    have hkeys := provision_keypairs hp
    refine .inr ⟨kp, s', by rw [fetchPublicKey_run, hp], by simp [hkeys], fun hb => ?_,
      fun hn hf => ?_, fun hn hf => ?_, fun u' a' h => ?_, fun b hb => ?_, fun message h => ?_⟩
    · obtain ⟨kp', hkp'⟩ := Option.ne_none_iff_exists'.mp hb
      rw [provision_of_bound hkp'] at hp
      cases hp
      rfl
    · rcases provision_keypair hp with hk | ⟨-, hkr⟩ | ⟨-, hf', -⟩
      · rw [hk] at hn; cases hn
      · rw [hkr]
      · exact absurd hf' hf
    · rcases provision_keypair hp with hk | ⟨-, hkr⟩ | ⟨-, -, hg, hf'⟩
      · rw [hk] at hn; cases hn
      · rw [hkr] at hf; cases hf
      · exact ⟨hg, hf'⟩
    · rw [hkeys, if_neg (by tauto)]
    · rw [provision_freeKeypairs hp, if_neg (by tauto)]
    · rw [getMessageSignature_finalState, if_pos h, hp]
      rfl
  · -- Generation raised: nothing is written.
    obtain ⟨rfl, hk, hf, hg⟩ := provision_error hp
    refine .inl ⟨e, hk, hf, hg, by rw [fetchPublicKey_run, hp], fun message h => ?_⟩
    rw [getMessageSignature_run authorizes h, hp]

end Wacryptolib
