import Wacryptolib.Conc.Service

/-!
# No keypair is handed out twice

A free keypair waits in its pool for whichever keychain asks first. Were it bound to two
`(keychain_uid, key_algo)` entries, the two would share one private key. `_ensure_keypair_exists`
takes it with `attach_free_keypair_to_uuid`, which binds the first free keypair and removes it from
its pool in one atomic call. So under every schedule of the service, a keypair that is stored once,
free or bound, stays stored at most once, as long as no generator draws it again.

* `StoredOnce`: the keypair is bound to at most one entry, lies in at most one pool and at most
  once there, and is not both bound and free;
* `StoredOnce.bindKeypair`, `StoredOnce.attach`, `StoredOnce.addFree`: the writes of the moves
  keep it; `Thread.step_storedOnce` and `GeneratorPc.step_storedOnce` for the moves;
* `keypair_stored_once`: under every schedule of any requests and the worker, a keypair stored at
  most once at the start, that no request and no call of `key_generation_func` generates, is
  stored at most once at the end; a free keypair is attached to at most one keychain.
-/

namespace Wacryptolib

open KeyStorage

/-- `kp` is stored at most once in `s`: bound to at most one entry, in at most one pool and at most
once there, and not both bound and free. -/
structure StoredOnce (kp : Keypair) (s : KeyStorage) : Prop where
  bound : ∀ u a u' a', s.keypairs u a = some kp → s.keypairs u' a' = some kp → u = u' ∧ a = a'
  free : ∀ a b, kp ∈ s.freeKeypairs a → kp ∈ s.freeKeypairs b → a = b
  count : ∀ a, (s.freeKeypairs a).count kp ≤ 1
  notFree : ∀ u a b, s.keypairs u a = some kp → kp ∉ s.freeKeypairs b

namespace StoredOnce

variable {kp g : Keypair} {s : KeyStorage} {u : KeychainUid} {a : KeyAlgo} {rest : List Keypair}

/-- Binding an entry to another keypair adds no binding to `kp`. -/
theorem bindKeypair_eq_some (hg : g ≠ kp) {u' : KeychainUid} {a' : KeyAlgo}
    (h : (s.bindKeypair u a g).keypairs u' a' = some kp) : s.keypairs u' a' = some kp := by
  rw [bindKeypair_keypairs] at h
  split_ifs at h
  · exact absurd (Option.some.inj h) hg
  · exact h

theorem bindKeypair (h : StoredOnce kp s) (hg : g ≠ kp) : StoredOnce kp (s.bindKeypair u a g) where
  bound _ _ _ _ h₁ h₂ := h.bound _ _ _ _ (bindKeypair_eq_some hg h₁) (bindKeypair_eq_some hg h₂)
  free := h.free
  count := h.count
  notFree _ _ b hk := h.notFree _ _ b (bindKeypair_eq_some hg hk)

/-- Replacing a pool by a sublist of it keeps `kp` stored once. -/
theorem setFreeKeypairs_sublist (h : StoredOnce kp s) {pool : List Keypair}
    (hsub : pool.Sublist (s.freeKeypairs a)) : StoredOnce kp (s.setFreeKeypairs a pool) := by
  have hmem : ∀ b, kp ∈ (s.setFreeKeypairs a pool).freeKeypairs b → kp ∈ s.freeKeypairs b := by
    intro b hb
    rw [setFreeKeypairs_freeKeypairs] at hb
    split_ifs at hb with hba
    · exact hba ▸ hsub.subset hb
    · exact hb
  refine ⟨h.bound, fun b c hb hc => h.free b c (hmem b hb) (hmem c hc), fun b => ?_,
    fun u' a' b hk hb => h.notFree u' a' b hk (hmem b hb)⟩
  rw [setFreeKeypairs_freeKeypairs]
  split_ifs with hba
  · exact (hsub.count_le kp).trans (hba ▸ h.count a)
  · exact h.count b

/-- `attach_free_keypair_to_uuid` binds the first free keypair of `a` and removes it from its
pool. If that keypair is `kp`, it was free and nowhere else; it is then bound to one entry. -/
theorem attach (h : StoredOnce kp s) (hp : s.freeKeypairs a = g :: rest) :
    StoredOnce kp ((s.bindKeypair u a g).setFreeKeypairs a rest) := by
  by_cases hg : g = kp
  · subst hg
    have hmem : g ∈ s.freeKeypairs a := hp ▸ List.mem_cons_self g rest
    have hrest : g ∉ rest := fun hr => by
      have := h.count a
      rw [hp, List.count_cons_self] at this
      have := List.count_pos_iff.mpr hr
      omega
    -- Afterwards `g` is bound at `(u, a)` only, and free nowhere.
    have hbound : ∀ u' a', ((s.bindKeypair u a g).setFreeKeypairs a rest).keypairs u' a' = some g →
        u' = u ∧ a' = a := by
      intro u' a' hk
      rw [setFreeKeypairs_keypairs, bindKeypair_keypairs] at hk
      split_ifs at hk with hua
      · exact hua
      · exact absurd hmem (h.notFree u' a' a hk)
    have hfree : ∀ b, g ∉ ((s.bindKeypair u a g).setFreeKeypairs a rest).freeKeypairs b := by
      intro b hb
      rw [setFreeKeypairs_freeKeypairs, bindKeypair_freeKeypairs] at hb
      split_ifs at hb with hba
      · exact hrest hb
      · exact hba (h.free b a hb hmem)
    refine ⟨fun u₁ a₁ u₂ a₂ h₁ h₂ => ?_, fun b _ hb => absurd hb (hfree b),
      fun b => (List.count_eq_zero.mpr (hfree b)).trans_le (Nat.zero_le 1),
      fun _ _ b _ => hfree b⟩
    obtain ⟨rfl, rfl⟩ := hbound _ _ h₁
    obtain ⟨rfl, rfl⟩ := hbound _ _ h₂
    exact ⟨rfl, rfl⟩
  · refine (h.bindKeypair hg).setFreeKeypairs_sublist ?_
    rw [bindKeypair_freeKeypairs, hp]
    exact List.sublist_cons_self g rest

/-- Adding another keypair to a pool keeps `kp` stored once. -/
theorem addFree (h : StoredOnce kp s) (hg : g ≠ kp) : StoredOnce kp (s.addFree a g) := by
  have hpool : ∀ b, (kp ∈ (s.addFree a g).freeKeypairs b ↔ kp ∈ s.freeKeypairs b) ∧
      ((s.addFree a g).freeKeypairs b).count kp = (s.freeKeypairs b).count kp := by
    intro b
    by_cases hb : b = a
    · subst hb
      simp [KeyStorage.addFree, List.count_cons, hg, Ne.symm hg]
    · rw [addFree_of_ne hb]
      exact ⟨Iff.rfl, rfl⟩
  exact ⟨h.bound, fun b c hb hc => h.free b c ((hpool b).1.mp hb) ((hpool c).1.mp hc),
    fun b => (hpool b).2 ▸ h.count b, fun u' a' b hk hb => h.notFree u' a' b hk ((hpool b).1.mp hb)⟩

end StoredOnce

/-- A request's call keeps `kp` stored once, when it would not generate `kp`. -/
theorem Thread.step_storedOnce {P : Primitives} {u : KeychainUid} {a : KeyAlgo} {t : Thread P}
    {kp : Keypair} {s : KeyStorage} (h : StoredOnce kp s) (hg : t.generated ≠ .ok kp) :
    StoredOnce kp (t.step u a s).2 := by
  rcases t.step_storage s with h' | ⟨-, g, rest, hp, h'⟩ | ⟨-, g, hg', h'⟩ <;> rw [h']
  · exact h
  · exact h.attach hp
  · exact h.bindKeypair fun hgk => hg (hgk ▸ hg')

/-- The worker's move keeps `kp` stored once, when `key_generation_func` does not give `kp`. -/
theorem GeneratorPc.step_storedOnce (M : Int) (keyAlgos : List KeyAlgo)
    {f : KeyAlgo → Except EscrowError Keypair} {kp : Keypair} (hf : ∀ a, f a ≠ .ok kp)
    (pc : GeneratorPc) {s : KeyStorage} (h : StoredOnce kp s) :
    StoredOnce kp (pc.step M keyAlgos f s).2 := by
  rcases GeneratorPc.step_storage M keyAlgos f pc s with h' | ⟨b, g, hfb, h'⟩ <;> rw [h']
  · exact h
  · exact h.addFree fun hgk => hf b (hgk ▸ hfb)

/-- Under every schedule of any provisioning requests and the free-keys worker, from any storage:
a keypair stored at most once at the start (bound to at most one entry, or at most once in one
pool), which no request and no call of `key_generation_func` generates, is stored at most once at
the end. In particular a free keypair of the start is attached to at most one
`(keychain_uid, key_algo)`, however the requests' calls interleave. -/
theorem keypair_stored_once (P : Primitives) (M : Int) (keyAlgos : List KeyAlgo) (s₀ : KeyStorage)
    (requests : List ProvisioningRequest) (events : List ServiceEvent) (kp : Keypair)
    (h₀ : StoredOnce kp s₀) (hgen : ∀ r ∈ requests, r.generated ≠ .ok kp)
    (hf : ∀ f, ServiceEvent.worker f ∈ events → ∀ a, f a ≠ .ok kp) :
    StoredOnce kp
      ((Service.start keyAlgos s₀ requests : Service P).run M keyAlgos events).storage :=
  Service.run_preserves (Q := fun r => r.generated ≠ .ok kp)
    (fun _ _ hg h => Thread.step_storedOnce h hg)
    (fun _ pc _ hf h => GeneratorPc.step_storedOnce M keyAlgos hf pc h) events h₀
    (fun c hc => by obtain ⟨r, hr, rfl⟩ := List.mem_map.mp hc; exact hgen r hr) hf

/-- One free keypair of `"RSA_OAEP"` and two fetches on two keychains, interleaved call by call. -/
theorem keypair_stored_once_two_fetches :
    let s₀ : KeyStorage := ⟨fun _ _ => none, fun a => if a = "RSA_OAEP" then [⟨[5], [5]⟩] else []⟩
    let requests : List ProvisioningRequest :=
      [⟨0, "RSA_OAEP", .fetchPublicKey, .ok ⟨[1], [1]⟩⟩,
        ⟨1, "RSA_OAEP", .fetchPublicKey, .ok ⟨[2], [2]⟩⟩]
    let events : List ServiceEvent := [.client 0, .client 1, .client 0, .client 1, .client 0,
      .client 1, .client 0, .client 1]
    StoredOnce ⟨[5], [5]⟩ s₀ ∧ (∀ r ∈ requests, r.generated ≠ .ok ⟨[5], [5]⟩) ∧
    (∀ f, ServiceEvent.worker f ∈ events → ∀ a, f a ≠ .ok ⟨[5], [5]⟩) ∧
    StoredOnce ⟨[5], [5]⟩
      ((Service.start ["RSA_OAEP"] s₀ requests : Service plainPrimitives).run 1 ["RSA_OAEP"]
        events).storage := by
  intro s₀ requests events
  have h₀ : StoredOnce ⟨[5], [5]⟩ s₀ := by
    refine ⟨fun _ _ _ _ h => Option.noConfusion h, fun a b ha hb => ?_, fun a => ?_,
      fun _ _ _ h => Option.noConfusion h⟩
    · simp only [s₀] at ha hb
      split_ifs at ha hb with h₁ h₂ <;> simp_all
    · simp only [s₀]
      split_ifs <;> decide
  have hgen : ∀ r ∈ requests, r.generated ≠ .ok ⟨[5], [5]⟩ := by
    simp only [requests, List.mem_cons, List.mem_singleton, List.not_mem_nil, or_false]
    rintro r (rfl | rfl) h <;> exact absurd (Except.ok.inj h) (by decide)
  have hf : ∀ f, ServiceEvent.worker f ∈ events → ∀ a, f a ≠ .ok ⟨[5], [5]⟩ := by
    intro f hf
    simp only [events, List.mem_cons, reduceCtorEq, List.mem_singleton, List.not_mem_nil,
      or_false] at hf
  exact ⟨h₀, hgen, hf, keypair_stored_once plainPrimitives 1 ["RSA_OAEP"] s₀ requests events _ h₀
    hgen hf⟩

end Wacryptolib
