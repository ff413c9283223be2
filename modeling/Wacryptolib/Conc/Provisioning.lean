import Wacryptolib.Runs

/-!
# Two provisioning requests at once

`_ensure_keypair_exists` checks for a keypair, then attaches a free one, else generates one and
stores it: three calls of the key storage, each atomic, with the slow key generation before the
last. Two requests for the same `(keychain_uid, key_algo)` can interleave between them, and
nothing in `escrow.py` orders them.

* `Thread`: a request of the race (`fetch_public_key(must_exist=False)` or
  `get_message_signature`) and the storage call it makes next; `ThreadPc.start` is the length check
  of `get_message_signature`, made before any storage call, and `Thread.step` makes the next call,
  with the `except KeyDoesNotExist` clauses of the source.
* `Race.run`: two requests interleaved as a schedule says.
* `thread_alone_refines`: a request that runs alone returns what `EscrowApi` returns and leaves
  the storage it leaves.
* `provisioning_race_raises`: two fetches from an empty storage, interleaved call by call: the
  second raises `KeyAlreadyExists`.
* `provisioning_race_agrees`: under every schedule, no `KeyDoesNotExist` of the storage escapes;
  a `KeyAlreadyExists`, or what key generation raises, escapes only when the keypair was missing at
  the start; every request that returns uses the keypair bound at the end; and each request ends
  within four of its calls.
-/

namespace Wacryptolib

open EscrowApi KeyStorage

/-- A request of the race on one `(keychain_uid, key_algo)`: `fetch_public_key` with
`must_exist=False`, or `get_message_signature`. -/
inductive ProvisioningCall where
  | fetchPublicKey
  | getMessageSignature (message : Bytes)

namespace ProvisioningCall

variable (P : Primitives) (u : KeychainUid) (a : KeyAlgo)

/-- The request as a call of the API. -/
def toRequest (generateKeypair : KeypairGenerator) : ProvisioningCall → Request P
  | fetchPublicKey => .fetchPublicKey u a false generateKeypair
  | getMessageSignature message => .getMessageSignature u message a generateKeypair

/-- What the request does once `_ensure_keypair_exists` has returned. -/
def afterEnsure : ProvisioningCall → EscrowM (Response P)
  | fetchPublicKey => .publicKey <$> getPublicKey u a
  | getMessageSignature message => .signature <$> signWithStoredKey P u message a

/-- What a request of a race from `s₀` may end with, in a storage `s` the race reaches, when
`generate_keypair` gives it `generated`: the public key of the keypair bound to `(u, a)` in `s`,
or a signature made with its private key; the `ValueError` of a message over 128 bytes; the
`KeyAlreadyExists` of losing the race to bind `(u, a)`, or the exception of key generation, both
of which need `(u, a)` unbound in `s₀`; or, signing with the keypair bound in `s`, the
`KeyLoadingError` of a private key that does not load without a passphrase, or what `sign_message`
raises. -/
def Allowed (s₀ s : KeyStorage) (generated : Except EscrowError Keypair) :
    ProvisioningCall → Except EscrowError (Response P) → Prop
  | fetchPublicKey, .ok r => ∃ kp, s.keypairs u a = some kp ∧ r = .publicKey kp.publicKey
  | getMessageSignature message, .ok r => ∃ kp key sig, s.keypairs u a = some kp ∧
      P.loadAsymmetricKeyFromPemBytestring kp.privateKey a none = some key ∧
      P.signMessage message a key = .ok sig ∧ r = .signature sig
  | fetchPublicKey, .error e => s₀.keypairs u a = none ∧
    (e = .keyAlreadyExists (keypairExistsMessage u a) ∨ generated = .error e)
  | getMessageSignature message, .error e =>
    (MAX_PAYLOAD_LENGTH_FOR_SIGNATURE < message.length ∧ e = .valueError messageTooBigMessage) ∨
    (s₀.keypairs u a = none ∧
      (e = .keyAlreadyExists (keypairExistsMessage u a) ∨ generated = .error e)) ∨
    ∃ kp, s.keypairs u a = some kp ∧
      (P.loadAsymmetricKeyFromPemBytestring kp.privateKey a none = none ∧ e = .keyLoadingError ∨
        ∃ key, P.loadAsymmetricKeyFromPemBytestring kp.privateKey a none = some key ∧
          P.signMessage message a key = .error e)

variable {P u a}

/-- What a request may end with stays allowed as the storage gains bindings. -/
theorem Allowed.mono {s₀ s s' : KeyStorage} (h : KeepsBindings s s')
    {generated : Except EscrowError Keypair} {call : ProvisioningCall}
    {out : Except EscrowError (Response P)} (hout : call.Allowed P u a s₀ s generated out) :
    call.Allowed P u a s₀ s' generated out := by
  rcases call with _ | message <;> rcases out with e | r
  · exact hout
  · obtain ⟨kp, hk, rfl⟩ := hout
    exact ⟨kp, h _ _ _ hk, rfl⟩
  · rcases hout with hbig | hlost | ⟨kp, hk, hsign⟩
    · exact .inl hbig
    · exact .inr (.inl hlost)
    · exact .inr (.inr ⟨kp, h _ _ _ hk, hsign⟩)
  · obtain ⟨kp, key, sig, hk, hload, hsig, rfl⟩ := hout
    exact ⟨kp, key, sig, h _ _ _ hk, hload, hsig, rfl⟩

end ProvisioningCall

/-- The storage call a request of the race makes next. -/
inductive ThreadPc (P : Primitives) where
  /-- `get_public_key`, in `_ensure_keypair_exists`. -/
  | checkKeypair
  /-- `attach_free_keypair_to_uuid`. -/
  | attachFreeKeypair
  /-- `generate_keypair_for_storage`: the keypair is generated (no storage call, but it may
  raise), then `set_keys`. -/
  | setKeys
  /-- The calls after `_ensure_keypair_exists`. -/
  | afterEnsure
  /-- The request has returned or raised. -/
  | done (result : Except EscrowError (Response P))

namespace ThreadPc

variable {P : Primitives}

/-- Where a request starts: `get_message_signature` first checks the length of its message, with
no storage call, and raises `ValueError` for a message over 128 bytes. -/
def start : ProvisioningCall → ThreadPc P
  | .fetchPublicKey => checkKeypair
  | .getMessageSignature message =>
    if message.length > MAX_PAYLOAD_LENGTH_FOR_SIGNATURE then
      done (.error (.valueError messageTooBigMessage))
    else checkKeypair

/-- How many calls a request has left at most. -/
def rank : ThreadPc P → Nat
  | checkKeypair => 4
  | attachFreeKeypair => 3
  | setKeys => 2
  | afterEnsure => 1
  | done _ => 0

theorem exists_done_of_rank_eq_zero {pc : ThreadPc P} (h : pc.rank = 0) : ∃ out, pc = done out := by
  cases pc <;> simp_all [rank]

theorem rank_start (call : ProvisioningCall) : (start call : ThreadPc P).rank ≤ 4 := by
  cases call with
  | fetchPublicKey => exact le_rfl
  | getMessageSignature message => dsimp only [start]; split_ifs <;> simp [rank]

/-- What a request's place says about a race from `s₀` now at `s`: after its check found no
keypair, `(u, a)` was unbound at the start; once `_ensure_keypair_exists` has returned, `(u, a)`
is bound; and what it ended with is allowed. -/
def Inv (P : Primitives) (u : KeychainUid) (a : KeyAlgo) (s₀ s : KeyStorage)
    (call : ProvisioningCall) (generated : Except EscrowError Keypair) : ThreadPc P → Prop
  | checkKeypair => True
  | attachFreeKeypair | setKeys => s₀.keypairs u a = none
  | afterEnsure => s.keypairs u a ≠ none
  | done out => call.Allowed P u a s₀ s generated out

variable {u : KeychainUid} {a : KeyAlgo}

/-- A request's start holds, a message over 128 bytes having raised its `ValueError`. -/
theorem start_inv (s₀ s : KeyStorage) (call : ProvisioningCall)
    (generated : Except EscrowError Keypair) :
    (start call : ThreadPc P).Inv P u a s₀ s call generated := by
  cases call with
  | fetchPublicKey => trivial
  | getMessageSignature message =>
    dsimp only [start]
    split_ifs with h
    · exact .inl ⟨h, rfl⟩
    · trivial

theorem Inv.mono {s₀ s s' : KeyStorage} (h : KeepsBindings s s') {call : ProvisioningCall}
    {generated : Except EscrowError Keypair} {pc : ThreadPc P}
    (hpc : pc.Inv P u a s₀ s call generated) : pc.Inv P u a s₀ s' call generated := by
  cases pc with
  | checkKeypair | attachFreeKeypair | setKeys => exact hpc
  | afterEnsure =>
    obtain ⟨kp, hk⟩ := Option.ne_none_iff_exists'.mp hpc
    show s'.keypairs u a ≠ none
    rw [h _ _ _ hk]
    exact Option.some_ne_none kp
  | done out => exact ProvisioningCall.Allowed.mono h hpc

end ThreadPc

/-- A request of the race: what it is, what `generate_keypair` gives it, and its next storage
call. -/
structure Thread (P : Primitives) where
  call : ProvisioningCall
  generated : Except EscrowError Keypair
  pc : ThreadPc P

namespace Thread

variable {P : Primitives} (u : KeychainUid) (a : KeyAlgo)

/-- A request about to start. -/
def start (call : ProvisioningCall) (generated : Except EscrowError Keypair) : Thread P :=
  ⟨call, generated, .start call⟩

/-- Where a storage call of `_ensure_keypair_exists` leads: to `next` if it returns; if it raises
`KeyDoesNotExist`, to its `except KeyDoesNotExist` clause `handler` when it has one; else the
exception escapes. -/
def resume {α : Type} (r : EStateM.Result EscrowError KeyStorage α) (next : ThreadPc P)
    (handler : Option (ThreadPc P)) : ThreadPc P :=
  match r, handler with
  | .ok _ _, _ => next
  | .error e _, some h => if e.isKeyDoesNotExist then h else .done (.error e)
  | .error e _, none => .done (.error e)

/-- The next storage call of a request, made atomically. -/
def step (t : Thread P) (s : KeyStorage) : Thread P × KeyStorage :=
  match t.pc with
  | .checkKeypair =>
    let r := (getPublicKey u a).run s
    ({ t with pc := resume r .afterEnsure (some .attachFreeKeypair) }, finalState r)
  | .attachFreeKeypair =>
    let r := (attachFreeKeypairToUuid u a).run s
    ({ t with pc := resume r .afterEnsure (some .setKeys) }, finalState r)
  | .setKeys =>
    let r := (generateKeypairForStorage (fun _ _ => t.generated) a u none).run s
    ({ t with pc := resume r .afterEnsure none }, finalState r)
  | .afterEnsure =>
    let r := (t.call.afterEnsure P u a).run s
    ({ t with pc := .done (outcome r) }, finalState r)
  | .done _ => (t, s)

/-- `n` calls of a request that runs alone. -/
def runAlone : Nat → Thread P → KeyStorage → Thread P × KeyStorage
  | 0, t, s => (t, s)
  | n + 1, t, s => runAlone n (t.step u a s).1 (t.step u a s).2

section Lemmas

variable {u a} {t : Thread P} {s : KeyStorage}

@[simp] theorem step_call : (t.step u a s).1.call = t.call := by
  unfold step; split <;> rfl

@[simp] theorem step_generated : (t.step u a s).1.generated = t.generated := by
  unfold step; split <;> rfl

/-- The keypair generation and `set_keys`: the storage gains the generated keypair, or the call
raises what generation raised, or `KeyAlreadyExists`, and the storage stays. -/
theorem generateKeypairForStorage_run {generated : Except EscrowError Keypair} :
    (generateKeypairForStorage (fun _ _ => generated) a u none).run s =
      match generated with
      | .ok kp => match s.keypairs u a with
        | some _ => .error (.keyAlreadyExists (keypairExistsMessage u a)) s
        | none => .ok kp (s.bindKeypair u a kp)
      | .error e => .error e s := by
  rcases generated with e | kp
  · rfl
  · simp only [generateKeypairForStorage, run_bind, run_liftExcept, setKeys_run]
    cases s.keypairs u a <;> rfl

theorem afterEnsure_finalState (call : ProvisioningCall) :
    finalState ((call.afterEnsure P u a).run s) = s := by
  cases call with
  | fetchPublicKey =>
    rw [ProvisioningCall.afterEnsure, finalState_map, getPublicKey_run]
    split <;> rfl
  | getMessageSignature message =>
    rw [ProvisioningCall.afterEnsure, finalState_map]
    exact signWithStoredKey_finalState

/-- A call of a request never unbinds an entry: it reads, or binds an unbound one. -/
theorem step_keepsBindings : KeepsBindings s (t.step u a s).2 := by
  unfold step
  split
  · dsimp only; rw [getPublicKey_run]; split <;> exact .refl s
  · dsimp only; rw [attachFreeKeypairToUuid_run]
    split
    · exact .refl s
    · exact .refl s
    · exact KeepsBindings.bindKeypair ‹_›
  · dsimp only; rw [generateKeypairForStorage_run]
    split
    · split
      · exact .refl s
      · exact KeepsBindings.bindKeypair ‹_›
    · exact .refl s
  · dsimp only; rw [afterEnsure_finalState]; exact .refl s
  · exact .refl s

theorem rank_resume {α : Type} {r : EStateM.Result EscrowError KeyStorage α} {next : ThreadPc P}
    {handler : Option (ThreadPc P)} {k : Nat} (hn : next.rank ≤ k)
    (hh : ∀ h ∈ handler, h.rank ≤ k) : (resume r next handler).rank ≤ k := by
  unfold resume
  split
  · exact hn
  · split
    · exact hh _ rfl
    · exact Nat.zero_le _
  · exact Nat.zero_le _

/-- Every call brings a request one place closer to its end. -/
theorem step_rank : (t.step u a s).1.pc.rank ≤ t.pc.rank - 1 := by
  obtain ⟨call, generated, pc⟩ := t
  cases pc with
  | checkKeypair | attachFreeKeypair =>
    exact rank_resume (by simp [ThreadPc.rank]) (by rintro h ⟨⟩; simp [ThreadPc.rank])
  | setKeys => exact rank_resume (by simp [ThreadPc.rank]) (by rintro h ⟨⟩)
  | afterEnsure | done out => exact Nat.zero_le _

/-- A call keeps what its request's place says. A check that finds no keypair shows that there
was none at the start, as bindings are never removed; `_ensure_keypair_exists` returns only once
`(u, a)` is bound; and an exception escapes only from a lost race or a key generation that raised
(with `(u, a)` unbound at the start), or from signing with the bound keypair. -/
theorem step_inv {s₀ : KeyStorage} (hs : KeepsBindings s₀ s)
    (h : t.pc.Inv P u a s₀ s t.call t.generated) :
    (t.step u a s).1.pc.Inv P u a s₀ (t.step u a s).2 (t.step u a s).1.call
      (t.step u a s).1.generated := by
  rw [step_call, step_generated]
  obtain ⟨call, generated, pc⟩ := t
  cases pc with
  | checkKeypair =>
    rcases hk : s.keypairs u a with _ | kp
    · simpa [step, resume, hk, EscrowError.isKeyDoesNotExist, ThreadPc.Inv] using hs.unbound hk
    · simp [step, resume, hk, ThreadPc.Inv]
  | attachFreeKeypair =>
    replace h : s₀.keypairs u a = none := h
    rcases hk : s.keypairs u a with _ | kp
    · rcases hp : s.freeKeypairs a with _ | ⟨kp, rest⟩
      · simpa [step, resume, hk, hp, EscrowError.isKeyDoesNotExist, ThreadPc.Inv]
      · simp [step, resume, hk, hp, ThreadPc.Inv]
    · cases call <;> simp [step, resume, hk, EscrowError.isKeyDoesNotExist, ThreadPc.Inv,
        ProvisioningCall.Allowed, h]
  | setKeys =>
    replace h : s₀.keypairs u a = none := h
    simp only [step, generateKeypairForStorage_run]
    rcases generated with e | kp
    · cases call <;> simp [resume, ThreadPc.Inv, ProvisioningCall.Allowed, h]
    · rcases hk : s.keypairs u a with _ | kp'
      · simp [resume, ThreadPc.Inv]
      · cases call <;> simp [resume, ThreadPc.Inv, ProvisioningCall.Allowed, h]
  | afterEnsure =>
    obtain ⟨kp, hk⟩ := Option.ne_none_iff_exists'.mp h
    cases call with
    | fetchPublicKey =>
      simp [step, ProvisioningCall.afterEnsure, hk, outcome, ThreadPc.Inv, ProvisioningCall.Allowed]
    | getMessageSignature message =>
      simp only [step, ProvisioningCall.afterEnsure, run_map, signWithStoredKey_run hk]
      rcases hload : P.loadAsymmetricKeyFromPemBytestring kp.privateKey a none with _ | key
      · exact .inr (.inr ⟨kp, hk, .inl ⟨hload, rfl⟩⟩)
      · dsimp only
        rcases hsig : P.signMessage message a key with e | sig
        · exact .inr (.inr ⟨kp, hk, .inr ⟨key, hload, hsig⟩⟩)
        · exact ⟨kp, key, sig, hk, hload, hsig, rfl⟩
  | done out => exact h

end Lemmas

end Thread

/-- Two requests of the race and the storage they share. -/
structure Race (P : Primitives) where
  first : Thread P
  second : Thread P
  storage : KeyStorage

namespace Race

variable {P : Primitives} (u : KeychainUid) (a : KeyAlgo)

/-- Two requests about to start on `s₀`. -/
def start (s₀ : KeyStorage) (call₁ : ProvisioningCall) (generated₁ : Except EscrowError Keypair)
    (call₂ : ProvisioningCall) (generated₂ : Except EscrowError Keypair) : Race P :=
  ⟨.start call₁ generated₁, .start call₂ generated₂, s₀⟩

/-- The first request makes its next call if `firstMoves`, else the second. -/
def step (r : Race P) (firstMoves : Bool) : Race P :=
  if firstMoves then
    { r with first := (r.first.step u a r.storage).1, storage := (r.first.step u a r.storage).2 }
  else
    { r with second := (r.second.step u a r.storage).1, storage := (r.second.step u a r.storage).2 }

/-- The race under a schedule: `true` for a call of the first request, `false` for one of the
second. -/
def run (r : Race P) (schedule : List Bool) : Race P :=
  schedule.foldl (step u a) r

/-- Both requests' places hold of a race from `s₀`, whose storage keeps the bindings of `s₀`. -/
def Inv (s₀ : KeyStorage) (r : Race P) : Prop :=
  KeepsBindings s₀ r.storage ∧
    r.first.pc.Inv P u a s₀ r.storage r.first.call r.first.generated ∧
    r.second.pc.Inv P u a s₀ r.storage r.second.call r.second.generated

variable {u a} {s₀ : KeyStorage}

theorem step_inv {r : Race P} (h : r.Inv u a s₀) (firstMoves : Bool) :
    (r.step u a firstMoves).Inv u a s₀ := by
  obtain ⟨hs, h₁, h₂⟩ := h
  cases firstMoves
  · have hkeep := @Thread.step_keepsBindings P u a r.second r.storage
    exact ⟨hs.trans hkeep, h₁.mono hkeep, Thread.step_inv hs h₂⟩
  · have hkeep := @Thread.step_keepsBindings P u a r.first r.storage
    exact ⟨hs.trans hkeep, Thread.step_inv hs h₁, h₂.mono hkeep⟩

theorem run_inv (schedule : List Bool) {r : Race P} (h : r.Inv u a s₀) :
    (r.run u a schedule).Inv u a s₀ := by
  induction schedule generalizing r with
  | nil => exact h
  | cons b schedule ih => exact ih (step_inv h b)

/-- Over a run, each request stays the same request: only its place changes. -/
theorem run_requests (schedule : List Bool) (r : Race P) :
    (r.run u a schedule).first.call = r.first.call ∧
      (r.run u a schedule).first.generated = r.first.generated ∧
      (r.run u a schedule).second.call = r.second.call ∧
      (r.run u a schedule).second.generated = r.second.generated := by
  induction schedule generalizing r with
  | nil => exact ⟨rfl, rfl, rfl, rfl⟩
  | cons b schedule ih =>
    rw [run, List.foldl_cons, ← run]
    obtain ⟨h₁, h₂, h₃, h₄⟩ := ih (r.step u a b)
    cases b <;> simp_all [step]

/-- Each call of the first request brings it one place closer to its end. -/
theorem rank_run_first (schedule : List Bool) (r : Race P) :
    (r.run u a schedule).first.pc.rank ≤ r.first.pc.rank - schedule.count true := by
  induction schedule generalizing r with
  | nil => exact Nat.le_refl _
  | cons b schedule ih =>
    refine (ih (r.step u a b)).trans ?_
    cases b
    · rw [List.count_cons_of_ne (by decide)]
      exact Nat.le_refl _
    · have := @Thread.step_rank P u a r.first r.storage
      rw [List.count_cons_self]
      exact (Nat.sub_le_sub_right this _).trans_eq (by omega)

/-- Each call of the second request brings it one place closer to its end. -/
theorem rank_run_second (schedule : List Bool) (r : Race P) :
    (r.run u a schedule).second.pc.rank ≤ r.second.pc.rank - schedule.count false := by
  induction schedule generalizing r with
  | nil => exact Nat.le_refl _
  | cons b schedule ih =>
    refine (ih (r.step u a b)).trans ?_
    cases b
    · have := @Thread.step_rank P u a r.second r.storage
      rw [List.count_cons_self]
      exact (Nat.sub_le_sub_right this _).trans_eq (by omega)
    · rw [List.count_cons_of_ne (by decide)]
      exact Nat.le_refl _

end Race

/-! ## A request alone -/

namespace Thread

variable {P : Primitives} (u : KeychainUid) (a : KeyAlgo)

theorem runAlone_add (m n : Nat) (t : Thread P) (s : KeyStorage) :
    runAlone u a (m + n) t s = runAlone u a n (runAlone u a m t s).1 (runAlone u a m t s).2 := by
  induction m generalizing t s with
  | zero => rw [Nat.zero_add]; rfl
  | succ m ih => rw [Nat.succ_add, runAlone, runAlone, ih]

theorem runAlone_done (n : Nat) (call : ProvisioningCall) (generated : Except EscrowError Keypair)
    (out : Except EscrowError (Response P)) (s : KeyStorage) :
    runAlone u a n ⟨call, generated, .done out⟩ s = (⟨call, generated, .done out⟩, s) := by
  induction n with
  | zero => rfl
  | succ n ih => exact ih

/-- Alone, `_ensure_keypair_exists` makes at most three calls and ends as `provision` says: before
the calls after it, in the storage it leaves, or with the exception of key generation. -/
theorem runAlone_ensure (call : ProvisioningCall) (generated : Except EscrowError Keypair)
    (s : KeyStorage) :
    ∃ k ≤ 3, runAlone u a k (⟨call, generated, .checkKeypair⟩ : Thread P) s =
      match s.provision u a generated with
      | .ok _ s' => (⟨call, generated, .afterEnsure⟩, s')
      | .error e s' => (⟨call, generated, .done (.error e)⟩, s') := by
  rcases provision_cases s u a generated with ⟨kp, hk, hp⟩ | ⟨hk, kp, rest, hf, hp⟩ |
    ⟨hk, hf, ⟨kp, rfl, hp⟩ | ⟨e, rfl, hp⟩⟩ <;> rw [hp]
  · exact ⟨1, by omega, by simp [runAlone, step, resume, hk]⟩
  · exact ⟨2, by omega, by simp [runAlone, step, resume, hk, hf, EscrowError.isKeyDoesNotExist]⟩
  all_goals exact ⟨3, le_rfl, by simp [runAlone, step, resume, hk, hf,
    generateKeypairForStorage_run, EscrowError.isKeyDoesNotExist]⟩

end Thread

/-- On `EscrowApi`, a request of the race with a message of at most 128 bytes is
`_ensure_keypair_exists`, then the calls after it. -/
theorem serve_toRequest_run {P : Primitives} {u : KeychainUid} {a : KeyAlgo} {s : KeyStorage}
    (authorizes : KeychainUid → KeyAlgo → Bool) (generateKeypair : KeypairGenerator)
    (call : ProvisioningCall)
    (hm : ∀ message, call = .getMessageSignature message →
      message.length ≤ MAX_PAYLOAD_LENGTH_FOR_SIGNATURE) :
    ((⟨.escrowApi, authorizes⟩ : EscrowApi).serve P
        (call.toRequest P u a generateKeypair)).run s =
      match s.provision u a (generateKeypair a none) with
      | .ok _ s' => (call.afterEnsure P u a).run s'
      | .error e s' => .error e s' := by
  cases call with
  | fetchPublicKey =>
    simp only [ProvisioningCall.toRequest, serve, run_map, fetchPublicKey_run,
      ProvisioningCall.afterEnsure]
    rcases hp : s.provision u a (generateKeypair a none) with ⟨kp, s'⟩ | ⟨e, s'⟩
    · simp [getPublicKey_run, provision_keypairs hp]
    · rfl
  | getMessageSignature message =>
    simp only [ProvisioningCall.toRequest, serve, run_map,
      getMessageSignature_run authorizes (hm message rfl), ProvisioningCall.afterEnsure]
    cases s.provision u a (generateKeypair a none) <;> rfl

/-- A request that runs alone makes at most four calls, and returns or raises what
`EscrowApi.fetch_public_key(must_exist=False)` or `EscrowApi.get_message_signature` does, leaving
the storage they leave. -/
theorem thread_alone_refines (P : Primitives) (authorizes : KeychainUid → KeyAlgo → Bool)
    (generateKeypair : KeypairGenerator) (u : KeychainUid) (a : KeyAlgo) (s : KeyStorage)
    (call : ProvisioningCall) :
    let api : EscrowApi := ⟨.escrowApi, authorizes⟩
    let r := (api.serve P (call.toRequest P u a generateKeypair)).run s
    Thread.runAlone u a 4 (.start call (generateKeypair a none)) s =
      (⟨call, generateKeypair a none, .done (outcome r)⟩, finalState r) := by
  intro api r
  by_cases hm : ∀ message, call = .getMessageSignature message →
      message.length ≤ MAX_PAYLOAD_LENGTH_FOR_SIGNATURE
  · -- The length check passes, and `_ensure_keypair_exists` runs.
    have hstart : (Thread.start call (generateKeypair a none) : Thread P) =
        ⟨call, generateKeypair a none, .checkKeypair⟩ := by
      cases call with
      | fetchPublicKey => rfl
      | getMessageSignature message =>
        simp [Thread.start, ThreadPc.start, Nat.not_lt.mpr (hm message rfl)]
    obtain ⟨k, hk, hrun⟩ := Thread.runAlone_ensure u a call (generateKeypair a none) s
    rw [hstart, show 4 = k + (3 - k + 1) by omega, Thread.runAlone_add, hrun]
    simp only [r, api, serve_toRequest_run authorizes generateKeypair call hm]
    rcases s.provision u a (generateKeypair a none) with ⟨kp, s'⟩ | ⟨e, s'⟩
    · rw [Thread.runAlone]
      dsimp only [Thread.step]
      rw [Thread.runAlone_done]
    · exact Thread.runAlone_done u a _ _ _ _ _
  · -- A message over 128 bytes raises at once, with no storage call.
    push_neg at hm
    obtain ⟨message, rfl, hlong⟩ := hm
    simp only [r, Thread.start, ThreadPc.start, if_pos hlong, Thread.runAlone_done,
      ProvisioningCall.toRequest, serve, run_map, getMessageSignature_too_big api hlong]
    rfl

/-! ## The race -/

/-- Two fetches of a keypair missing from an empty storage, interleaved call by call: both find
no keypair and no free one, the first stores its keypair and returns its public key, and the
second's `set_keys` raises `KeyAlreadyExists`, which `_ensure_keypair_exists` does not catch. -/
theorem provisioning_race_raises :
    let r := (Race.start KeyStorage.empty .fetchPublicKey (.ok ⟨[1], [1]⟩)
      .fetchPublicKey (.ok ⟨[2], [2]⟩) : Race plainPrimitives).run 0 "RSA_OAEP"
        [true, false, true, false, true, false, true]
    r.first.pc = .done (.ok (.publicKey [1])) ∧
      r.second.pc = .done (.error (.keyAlreadyExists (keypairExistsMessage 0 "RSA_OAEP"))) :=
  ⟨rfl, rfl⟩

/-- Under every schedule of two requests for `(u, a)`, from every storage `s₀`: the bindings of
`s₀` stay; what each request ends with is allowed (`ProvisioningCall.Allowed`): no
`KeyDoesNotExist` of the storage escapes, a `KeyAlreadyExists` or an exception of key generation
escapes only if `(u, a)` was unbound in `s₀`, a signature may also raise `ValueError` for a message
over 128 bytes, `KeyLoadingError` or what `sign_message` raises, and a request that returns uses
the keypair bound to `(u, a)` at the end, the same for both; and each request has ended once it
has made four calls. -/
theorem provisioning_race_agrees (P : Primitives) (s₀ : KeyStorage) (u : KeychainUid)
    (a : KeyAlgo) (call₁ call₂ : ProvisioningCall)
    (generated₁ generated₂ : Except EscrowError Keypair) (schedule : List Bool) :
    let r := (Race.start s₀ call₁ generated₁ call₂ generated₂ : Race P).run u a schedule
    KeepsBindings s₀ r.storage ∧
    (∀ out, r.first.pc = .done out → call₁.Allowed P u a s₀ r.storage generated₁ out) ∧
    (∀ out, r.second.pc = .done out → call₂.Allowed P u a s₀ r.storage generated₂ out) ∧
    (4 ≤ schedule.count true → ∃ out, r.first.pc = .done out) ∧
    (4 ≤ schedule.count false → ∃ out, r.second.pc = .done out) := by
  intro r
  let r₀ : Race P := .start s₀ call₁ generated₁ call₂ generated₂
  obtain ⟨hs, h₁, h₂⟩ := @Race.run_inv P u a s₀ schedule r₀
    ⟨.refl s₀, ThreadPc.start_inv s₀ s₀ call₁ generated₁,
      ThreadPc.start_inv s₀ s₀ call₂ generated₂⟩
  obtain ⟨hc₁, hg₁, hc₂, hg₂⟩ := @Race.run_requests P u a schedule r₀
  refine ⟨hs, fun out hout => ?_, fun out hout => ?_, fun hn => ?_, fun hn => ?_⟩
  · rw [hout, hc₁, hg₁] at h₁
    exact h₁
  · rw [hout, hc₂, hg₂] at h₂
    exact h₂
  · -- The first request starts at most four calls from its end.
    have hrank : r.first.pc.rank ≤ 4 - schedule.count true :=
      (@Race.rank_run_first P u a schedule r₀).trans
        (Nat.sub_le_sub_right (ThreadPc.rank_start call₁) _)
    exact ThreadPc.exists_done_of_rank_eq_zero (by omega)
  · have hrank : r.second.pc.rank ≤ 4 - schedule.count false :=
      (@Race.rank_run_second P u a schedule r₀).trans
        (Nat.sub_le_sub_right (ThreadPc.rank_start call₂) _)
    exact ThreadPc.exists_done_of_rank_eq_zero (by omega)

end Wacryptolib
