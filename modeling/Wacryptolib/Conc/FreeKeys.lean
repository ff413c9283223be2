import Mathlib.Algebra.Order.BigOperators.Group.List
import Wacryptolib.FreeKeys

/-!
# The free-keys worker among consumers

A call of `generate_free_keypair_for_least_provisioned_key_algo` reads the free count of each
algorithm, one `get_free_keypairs_count` after the other, takes the least, and (after a slow key
generation) calls `add_free_keypair`. Requests consume free keypairs with
`attach_free_keypair_to_uuid` meanwhile, so the counts the worker acts on may be stale.

* `GeneratorPc`, `GeneratorPc.step`: the worker's place in a call and its next move;
* `Fill.run`: the worker's moves interleaved with consumptions as a schedule says;
* `generator_alone_refines`: alone, the worker's moves of one call make the change that
  `generate_free_keypair_for_least_provisioned_key_algo` makes;
* `free_pools_bounded`: at the end of every run, hence at every point of one, the pool of every
  algorithm of `key_algos` holds at most `max(M, its first count)` keypairs, and no other pool
  has grown. A consumption only lowers a count, so a stale count is never below the real one;
* `Fill.refill`: from any place the invariant allows, the worker alone ends its call (at most one
  keypair added, to a pool below `M`), then fills every pool of `key_algos` as
  `generate_free_keypair_for_least_provisioned_key_algo` does, within
  `(len(key_algos) + 2)(D + 1)` moves for `D` keypairs missing.
-/

namespace Wacryptolib

open KeyStorage

/-- The tuple `min` gives is one of the tuples. -/
theorem minFreeKeysCount_mem {counts : List (Nat × KeyAlgo)} {m : Nat × KeyAlgo}
    (h : minFreeKeysCount counts = .ok m) : m ∈ counts := by
  cases counts with
  | nil => cases h
  | cons first rest =>
    cases h
    exact leastOf_mem first rest

/-- A consumption never grows a pool. -/
theorem attachFreeKeypairToUuid_length_le (u : KeychainUid) (a b : KeyAlgo) (s : KeyStorage) :
    ((finalState ((attachFreeKeypairToUuid u a).run s)).freeKeypairs b).length ≤
      (s.freeKeypairs b).length := by
  rw [attachFreeKeypairToUuid_run]
  rcases s.keypairs u a with _ | kp₀
  · rcases hp : s.freeKeypairs a with _ | ⟨kp, rest⟩
    · exact le_rfl
    · simp only [finalState, setFreeKeypairs_freeKeypairs, bindKeypair_freeKeypairs]
      split_ifs with hb
      · rw [hb, hp, List.length_cons]
        exact Nat.le_succ _
      · exact le_rfl
  · exact le_rfl

/-- Where the free-keys worker is in a call of its task. -/
inductive GeneratorPc where
  /-- Reading the free counts: the `(count, key_algo)` tuples read so far, and the algorithms
  left to read. -/
  | counting (freeKeysCounts : List (Nat × KeyAlgo)) (rest : List KeyAlgo)
  /-- About to call `add_free_keypair` for `keyAlgo`, whose count was read as `count`. -/
  | adding (count : Nat) (keyAlgo : KeyAlgo)

namespace GeneratorPc

variable (M : Int) (keyAlgos : List KeyAlgo)

/-- The start of a call. -/
def start : GeneratorPc := counting [] keyAlgos

/-- The worker's next move, with `keyGenerationFunc` for the keypair it may add: read one count;
or, all counts read, take the tuple `min` gives, and end the call if its count reaches `M`, else
go on to add a keypair of its algorithm; or generate that keypair and add it, which ends the
call. An exception ends the call: with no algorithm, `min` of no tuple (where the source's
`assert key_algos` fires first, with the same effect), or one that `key_generation_func` raises,
before any write. -/
def step (keyGenerationFunc : KeyAlgo → Except EscrowError Keypair) :
    GeneratorPc → KeyStorage → GeneratorPc × KeyStorage
  | counting counts (keyAlgo :: rest), s =>
    match (getFreeKeypairsCount keyAlgo).run s with
    | .ok count s' => (counting (counts ++ [(count, keyAlgo)]) rest, s')
    | .error _ s' => (start keyAlgos, s')
  | counting counts [], s =>
    match minFreeKeysCount counts with
    | .ok (count, keyAlgo) => if count ≥ M then (start keyAlgos, s) else (adding count keyAlgo, s)
    | .error _ => (start keyAlgos, s)
  | adding _ keyAlgo, s =>
    match keyGenerationFunc keyAlgo with
    | .ok keypair =>
      (start keyAlgos,
        finalState ((addFreeKeypair keyAlgo keypair.publicKey keypair.privateKey).run s))
    | .error _ => (start keyAlgos, s)

/-- What the worker's place says of the storage `s`: it reads only algorithms of `key_algos`;
every count it has read is at least the count now; and the count of the algorithm it is about to
add to is below `M`. -/
def Inv (s : KeyStorage) : GeneratorPc → Prop
  | counting counts rest =>
    (∀ p ∈ counts, (s.freeKeypairs p.2).length ≤ p.1 ∧ p.2 ∈ keyAlgos) ∧ ∀ a ∈ rest, a ∈ keyAlgos
  | adding count keyAlgo => (s.freeKeypairs keyAlgo).length ≤ count ∧ (count : Int) < M ∧
      keyAlgo ∈ keyAlgos

variable {M keyAlgos}

theorem start_inv (s : KeyStorage) : (start keyAlgos).Inv M keyAlgos s :=
  ⟨fun _ h => absurd h (List.not_mem_nil _), fun _ h => h⟩

/-- The place still holds once pools have shrunk. -/
theorem Inv.mono {s s' : KeyStorage}
    (h : ∀ b, (s'.freeKeypairs b).length ≤ (s.freeKeypairs b).length) {pc : GeneratorPc}
    (hpc : pc.Inv M keyAlgos s) : pc.Inv M keyAlgos s' := by
  cases pc with
  | counting counts rest =>
    exact ⟨fun p hp => ⟨(h _).trans (hpc.1 p hp).1, (hpc.1 p hp).2⟩, hpc.2⟩
  | adding count keyAlgo => exact ⟨(h _).trans hpc.1, hpc.2⟩

/-- The worker never touches a binding: it reads counts and adds free keypairs. -/
theorem step_keypairs (M : Int) (keyAlgos : List KeyAlgo)
    (f : KeyAlgo → Except EscrowError Keypair) (pc : GeneratorPc) (s : KeyStorage) :
    (pc.step M keyAlgos f s).2.keypairs = s.keypairs := by
  rcases pc with ⟨counts, _ | ⟨b, rest⟩⟩ | ⟨count, b⟩
  · -- the choice makes no storage call
    simp only [step]
    split
    · split <;> rfl
    · rfl
  · rfl
  · simp only [step]
    split <;> rfl

end GeneratorPc

/-- The worker and the storage. -/
structure Fill where
  pc : GeneratorPc
  storage : KeyStorage

/-- An event of a run: the worker's next move, with what `key_generation_func` returns should it
add a keypair; or a request's `attach_free_keypair_to_uuid(keychain_uid, key_algo)`. -/
inductive FillEvent where
  | generator (keyGenerationFunc : KeyAlgo → Except EscrowError Keypair)
  | attach (keychainUid : KeychainUid) (keyAlgo : KeyAlgo)

namespace Fill

variable (M : Int) (keyAlgos : List KeyAlgo)

/-- One event. -/
def step (st : Fill) : FillEvent → Fill
  | .generator f =>
    ⟨(st.pc.step M keyAlgos f st.storage).1, (st.pc.step M keyAlgos f st.storage).2⟩
  | .attach u a => ⟨st.pc, finalState ((attachFreeKeypairToUuid u a).run st.storage)⟩

/-- A run: the events one after the other. -/
def run (st : Fill) (events : List FillEvent) : Fill :=
  events.foldl (step M keyAlgos) st

/-- The most keypairs the pool of `a` may hold in a run from `s₀`: `max(M, c)` for an algorithm
of `key_algos`, whose first count is `c`, and `c` for any other. -/
def poolBound (s₀ : KeyStorage) (a : KeyAlgo) : Int :=
  if a ∈ keyAlgos then max M (s₀.freeKeypairs a).length else (s₀.freeKeypairs a).length

/-- Every pool is within its bound, and the worker's place holds. -/
def Inv (s₀ : KeyStorage) (st : Fill) : Prop :=
  (∀ a, ((st.storage.freeKeypairs a).length : Int) ≤ poolBound M keyAlgos s₀ a) ∧
    st.pc.Inv M keyAlgos st.storage

variable {M keyAlgos} {s₀ : KeyStorage}

theorem run_append (st : Fill) (events events' : List FillEvent) :
    st.run M keyAlgos (events ++ events') = (st.run M keyAlgos events).run M keyAlgos events' :=
  List.foldl_append _ _ _ _

/-- The invariant survives any change of the storage that grows no pool. -/
theorem Inv.shrink {st : Fill} (h : st.Inv M keyAlgos s₀) {s : KeyStorage}
    (hle : ∀ b, (s.freeKeypairs b).length ≤ (st.storage.freeKeypairs b).length) :
    (Fill.mk st.pc s).Inv M keyAlgos s₀ :=
  ⟨fun b => (Int.ofNat_le.mpr (hle b)).trans (h.1 b), h.2.mono hle⟩

/-- A consumption keeps the invariant: it only shrinks a pool. -/
theorem attach_inv {st : Fill} (h : st.Inv M keyAlgos s₀) (u : KeychainUid) (a : KeyAlgo) :
    (st.step M keyAlgos (.attach u a)).Inv M keyAlgos s₀ := by
  have hle := fun b => attachFreeKeypairToUuid_length_le u a b st.storage
  exact ⟨fun b => (Int.ofNat_le.mpr (hle b)).trans (h.1 b), h.2.mono hle⟩

/-- A move of the worker keeps the invariant. A read records the count as it is; the least tuple
is one of those read, so its count is at least the count now; and a keypair is added only to a
pool whose count was read below `M`, which has not grown since. -/
theorem generator_inv {st : Fill} (h : st.Inv M keyAlgos s₀)
    (f : KeyAlgo → Except EscrowError Keypair) :
    (st.step M keyAlgos (.generator f)).Inv M keyAlgos s₀ := by
  obtain ⟨⟨counts, _ | ⟨b, rest⟩⟩ | ⟨count, b⟩, s⟩ := st <;>
    obtain ⟨hbound, hpc⟩ := h <;> dsimp only at hbound hpc
  · -- All counts read: the choice.
    simp only [step, GeneratorPc.step]
    rcases hmin : minFreeKeysCount counts with _ | ⟨count, b⟩
    · exact ⟨hbound, GeneratorPc.start_inv s⟩
    · dsimp only
      split_ifs with hM
      · exact ⟨hbound, GeneratorPc.start_inv s⟩
      · obtain ⟨hle, hb⟩ := hpc.1 _ (minFreeKeysCount_mem hmin)
        exact ⟨hbound, hle, by omega, hb⟩
  · -- One more read.
    simp only [step, GeneratorPc.step, getFreeKeypairsCount_run]
    refine ⟨hbound, fun p hp => ?_, fun a ha => hpc.2 a (List.mem_cons_of_mem _ ha)⟩
    rcases List.mem_append.mp hp with hp | hp
    · exact hpc.1 p hp
    · rw [List.mem_singleton.mp hp]
      exact ⟨le_rfl, hpc.2 b (List.mem_cons_self _ _)⟩
  · -- The keypair is generated and added, or generation raises.
    simp only [step, GeneratorPc.step]
    obtain ⟨hle, hM, hb⟩ := hpc
    split
    · simp only [addFreeKeypair_run]
      refine ⟨fun c => ?_, GeneratorPc.start_inv _⟩
      simp only [finalState, setFreeKeypairs_freeKeypairs]
      split_ifs with hc
      · subst hc
        have hmax := le_max_left M ((s₀.freeKeypairs c).length : Int)
        simp only [List.length_cons, poolBound, if_pos hb]
        omega
      · exact hbound c
    · exact ⟨hbound, GeneratorPc.start_inv _⟩

theorem run_inv (events : List FillEvent) {st : Fill} (h : st.Inv M keyAlgos s₀) :
    (st.run M keyAlgos events).Inv M keyAlgos s₀ := by
  induction events generalizing st with
  | nil => exact h
  | cons e events ih =>
    refine ih ?_
    cases e with
    | generator f => exact generator_inv h f
    | attach u a => exact attach_inv h u a

end Fill

/-- Alone, the worker reads every count, one move each. -/
theorem Fill.run_counting (M : Int) (keyAlgos : List KeyAlgo)
    (f : KeyAlgo → Except EscrowError Keypair)
    (counts : List (Nat × KeyAlgo)) (rest : List KeyAlgo) (s : KeyStorage) :
    (Fill.mk (.counting counts rest) s).run M keyAlgos (List.replicate rest.length (.generator f)) =
      ⟨.counting (counts ++ freeKeysCounts s rest) [], s⟩ := by
  induction rest generalizing counts with
  | nil => simp [Fill.run, freeKeysCounts]
  | cons b rest ih =>
    rw [List.length_cons, List.replicate_succ, Fill.run, List.foldl_cons, ← Fill.run]
    simp only [Fill.step, GeneratorPc.step, getFreeKeypairsCount_run]
    rw [ih]
    simp [freeKeysCounts]

/-- Alone, the worker makes one call of its task in at most `len(key_algos) + 2` moves, with the
change of the storage that `generate_free_keypair_for_least_provisioned_key_algo` makes. -/
theorem generator_alone_refines (M : Int) (keyAlgos : List KeyAlgo) (hne : keyAlgos ≠ [])
    (f : KeyAlgo → Except EscrowError Keypair) (s : KeyStorage) :
    ∃ n ≤ keyAlgos.length + 2,
      (Fill.mk (.start keyAlgos) s).run M keyAlgos (List.replicate n (.generator f)) =
        ⟨.start keyAlgos,
          finalState ((generateFreeKeypairForLeastProvisionedKeyAlgo M f keyAlgos).run s)⟩ := by
  obtain ⟨⟨count, b⟩, hmin⟩ :
      ∃ m, minFreeKeysCount (freeKeysCounts s keyAlgos) = .ok m := by
    obtain ⟨a₀, rest, rfl⟩ := List.exists_cons_of_ne_nil hne
    exact ⟨_, rfl⟩
  have hreads := Fill.run_counting M keyAlgos f [] keyAlgos s
  rw [List.nil_append] at hreads
  rw [generateFreeKeypair_run hne hmin]
  by_cases hM : M ≤ (count : Int)
  · refine ⟨keyAlgos.length + 1, by omega, ?_⟩
    rw [List.replicate_succ', Fill.run_append, GeneratorPc.start, hreads]
    simp [Fill.run, Fill.step, GeneratorPc.step, GeneratorPc.start, hmin, hM]
  · refine ⟨keyAlgos.length + 1 + 1, le_rfl, ?_⟩
    rw [List.replicate_succ', List.replicate_succ', Fill.run_append, Fill.run_append,
      GeneratorPc.start, hreads]
    rcases hf : f b with e | kp <;> simp [Fill.run, Fill.step, GeneratorPc.step, GeneratorPc.start,
      hmin, hM, hf, KeyStorage.addGenerated, KeyStorage.addFree]

/-- A free-keys worker with fixed `key_algos` and `M`, started on any storage `s₀` and
interleaved in any order with any consumptions: at the end of every run, hence at every point of
one, the pool of every algorithm of `key_algos` holds at most `max(M, its count in s₀)` keypairs,
and no other pool holds more than it did in `s₀`. -/
theorem free_pools_bounded (M : Int) (keyAlgos : List KeyAlgo) (s₀ : KeyStorage)
    (events : List FillEvent) :
    let st := (Fill.mk (.start keyAlgos) s₀).run M keyAlgos events
    (∀ a ∈ keyAlgos, ((st.storage.freeKeypairs a).length : Int) ≤
      max M (s₀.freeKeypairs a).length) ∧
    ∀ a, a ∉ keyAlgos →
      (st.storage.freeKeypairs a).length ≤ (s₀.freeKeypairs a).length := by
  intro st
  have hinit : (Fill.mk (.start keyAlgos) s₀).Inv M keyAlgos s₀ := by
    refine ⟨fun a => ?_, GeneratorPc.start_inv s₀⟩
    unfold Fill.poolBound
    split_ifs
    · exact le_max_right _ _
    · exact le_rfl
  obtain ⟨hbound, -⟩ := Fill.run_inv events hinit
  refine ⟨fun a ha => ?_, fun a ha => ?_⟩
  · simpa only [Fill.poolBound, if_pos ha] using hbound a
  · have := hbound a
    simp only [Fill.poolBound, if_neg ha] at this
    exact_mod_cast this

/-! ## Refilling once consumption stops -/

/-- How many counts the worker has left to read in its call. -/
def GeneratorPc.readsLeft : GeneratorPc → Nat
  | .counting _ rest => rest.length
  | .adding _ _ => 0

/-- A call never has more counts left to read than `key_algos` has algorithms. -/
theorem GeneratorPc.readsLeft_step (M : Int) (keyAlgos : List KeyAlgo)
    (f : KeyAlgo → Except EscrowError Keypair)
    {pc : GeneratorPc} (h : pc.readsLeft ≤ keyAlgos.length) (s : KeyStorage) :
    (pc.step M keyAlgos f s).1.readsLeft ≤ keyAlgos.length := by
  rcases pc with ⟨counts, _ | ⟨b, rest⟩⟩ | ⟨count, b⟩
  · simp only [GeneratorPc.step]
    split
    · split <;> simp [GeneratorPc.readsLeft, GeneratorPc.start]
    · simp [GeneratorPc.readsLeft, GeneratorPc.start]
  · simp only [GeneratorPc.step, getFreeKeypairsCount_run, GeneratorPc.readsLeft,
      List.length_cons] at h ⊢
    omega
  · simp only [GeneratorPc.step]
    split <;> simp [GeneratorPc.readsLeft, GeneratorPc.start]

section Refill

variable {M : Int} {keyAlgos : List KeyAlgo} {s s' : KeyStorage}

/-- Pools that only grow lack no more keypairs. -/
theorem missingFreeKeypairs_le_of_fills (h : Fills M keyAlgos s s') :
    missingFreeKeypairs M keyAlgos s' ≤ missingFreeKeypairs M keyAlgos s :=
  List.sum_le_sum fun a ha => by
    have := (h.2.2 a (List.mem_dedup.mp ha)).1
    omega

/-- About to add to a pool below `M`, the worker ends its call in one move: it adds the keypair
that `key_generation_func` gives, or adds nothing when it raises. -/
theorem Fill.finish_adding (f : KeyAlgo → Except EscrowError Keypair) {count : Nat} {b : KeyAlgo}
    (hle : (s.freeKeypairs b).length ≤ count) (hM : (count : Int) < M) (hb : b ∈ keyAlgos) :
    ∃ s₁, (Fill.mk (.adding count b) s).step M keyAlgos (.generator f) =
      ⟨.start keyAlgos, s₁⟩ ∧ Fills M keyAlgos s s₁ := by
  rcases hf : f b with e | kp
  · exact ⟨s, by simp [Fill.step, GeneratorPc.step, hf], Fills.refl⟩
  · exact ⟨s.addFree b kp, by simp [Fill.step, GeneratorPc.step, hf, KeyStorage.addFree],
      Fills.addFree hb (by omega) kp⟩

/-- From any place the invariant allows, the worker alone ends its call within
`len(key_algos) + 2` moves, having added at most one keypair, to a pool below `M`: a count it read
may be stale, but only ever above the real one. -/
theorem Fill.finish_call (f : KeyAlgo → Except EscrowError Keypair) {pc : GeneratorPc}
    (hpc : pc.Inv M keyAlgos s) (hr : pc.readsLeft ≤ keyAlgos.length) :
    ∃ k ≤ keyAlgos.length + 2, ∃ s₁, (Fill.mk pc s).run M keyAlgos
      (List.replicate k (.generator f)) = ⟨.start keyAlgos, s₁⟩ ∧ Fills M keyAlgos s s₁ := by
  cases pc with
  | adding count b =>
    obtain ⟨hle, hM, hb⟩ := hpc
    obtain ⟨s₁, hstep, hfills⟩ := Fill.finish_adding f hle hM hb
    exact ⟨1, by omega, s₁, hstep, hfills⟩
  | counting counts rest =>
    simp only [GeneratorPc.readsLeft] at hr
    have hreads := Fill.run_counting M keyAlgos f counts rest s
    have hcounts : ∀ p ∈ counts ++ freeKeysCounts s rest,
        (s.freeKeypairs p.2).length ≤ p.1 ∧ p.2 ∈ keyAlgos := by
      intro p hp
      rcases List.mem_append.mp hp with hp | hp
      · exact hpc.1 p hp
      · obtain ⟨a, ha, rfl⟩ := List.mem_map.mp hp
        exact ⟨le_rfl, hpc.2 a ha⟩
    rcases hmin : minFreeKeysCount (counts ++ freeKeysCounts s rest) with _ | ⟨count, b⟩
    · refine ⟨rest.length + 1, by omega, s, ?_, Fills.refl⟩
      rw [List.replicate_succ', Fill.run_append, hreads]
      simp [Fill.run, Fill.step, GeneratorPc.step, hmin]
    · by_cases hM : M ≤ (count : Int)
      · refine ⟨rest.length + 1, by omega, s, ?_, Fills.refl⟩
        rw [List.replicate_succ', Fill.run_append, hreads]
        simp [Fill.run, Fill.step, GeneratorPc.step, hmin, hM]
      · -- The count read for `b` is below `M`, and at least the count now.
        obtain ⟨hle, hb⟩ := hcounts _ (minFreeKeysCount_mem hmin)
        obtain ⟨s₁, hstep, hfills⟩ := Fill.finish_adding f hle (not_le.mp hM) hb
        refine ⟨rest.length + 1 + 1, by omega, s₁, ?_, hfills⟩
        rw [List.replicate_succ', List.replicate_succ', Fill.run_append, Fill.run_append, hreads,
          ← hstep]
        simp [Fill.run, Fill.step, GeneratorPc.step, hmin, hM]

/-- From the start of a call, the worker alone makes `m` calls in at most `(len(key_algos) + 2) m`
moves, with the change of `m` successive calls of
`generate_free_keypair_for_least_provisioned_key_algo`. -/
theorem Fill.run_calls (hne : keyAlgos ≠ []) (f : KeyAlgo → Except EscrowError Keypair)
    (hf : ∀ a ∈ keyAlgos, ∃ kp, f a = .ok kp) (m : Nat) (s : KeyStorage) :
    ∃ k ≤ (keyAlgos.length + 2) * m, (Fill.mk (.start keyAlgos) s).run M keyAlgos
      (List.replicate k (.generator f)) =
        ⟨.start keyAlgos, finalState ((fillRun M keyAlgos (List.replicate m f)).run s)⟩ := by
  induction m generalizing s with
  | zero => exact ⟨0, le_rfl, rfl⟩
  | succ m ih =>
    obtain ⟨n, hn, hcall⟩ := generator_alone_refines M keyAlgos hne f s
    obtain ⟨b, s₁, hok⟩ : ∃ b s₁,
        (generateFreeKeypairForLeastProvisionedKeyAlgo M f keyAlgos).run s = .ok b s₁ := by
      obtain ⟨a, ha, -, hgen⟩ := @generateFreeKeypair_cases s M f keyAlgos hne
      obtain ⟨kp, hkp⟩ := hf a ha
      rw [hgen, hkp]
      split_ifs
      · exact ⟨_, _, rfl⟩
      · exact ⟨_, _, rfl⟩
    obtain ⟨k, hk, hcalls⟩ := ih s₁
    refine ⟨n + k, by rw [Nat.mul_succ]; omega, ?_⟩
    rw [List.replicate_add, Fill.run_append, hcall, hok, finalState_ok, hcalls, List.replicate_succ,
      finalState_fillRun_cons hok]

/-- From any place the invariant allows, the worker alone brings every pool of `key_algos` to
`max(its count, M)` within `(len(key_algos) + 2)(D + 1)` moves, `D` the keypairs then missing,
and is then at the start of a call; no binding and no other pool changes. -/
theorem Fill.refill (hne : keyAlgos ≠ []) (f : KeyAlgo → Except EscrowError Keypair)
    (hf : ∀ a ∈ keyAlgos, ∃ kp, f a = .ok kp) {pc : GeneratorPc}
    (hpc : pc.Inv M keyAlgos s) (hr : pc.readsLeft ≤ keyAlgos.length) :
    ∃ k ≤ (keyAlgos.length + 2) * (missingFreeKeypairs M keyAlgos s + 1), ∃ s',
      (Fill.mk pc s).run M keyAlgos (List.replicate k (.generator f)) = ⟨.start keyAlgos, s'⟩ ∧
      Fills M keyAlgos s s' ∧ ∀ a ∈ keyAlgos, M ≤ (s'.freeKeypairs a).length := by
  obtain ⟨k₁, hk₁, s₁, hrun₁, hfills₁⟩ := Fill.finish_call f hpc hr
  obtain ⟨k₂, hk₂, hrun₂⟩ :=
    @Fill.run_calls M keyAlgos hne f hf (missingFreeKeypairs M keyAlgos s₁) s₁
  obtain ⟨s', hfill, hfills', hmiss, -⟩ :=
    @fillRun_run M keyAlgos hne (List.replicate (missingFreeKeypairs M keyAlgos s₁) f)
      (fun f' hf' => List.eq_of_mem_replicate hf' ▸ hf) s₁
  have hD := missingFreeKeypairs_le_of_fills hfills₁
  refine ⟨k₁ + k₂, ?_, s', ?_, hfills₁.trans hfills', fun a ha =>
    missingFreeKeypairs_eq_zero_iff.mp (by simpa using hmiss) a ha⟩
  · calc k₁ + k₂
          ≤ (keyAlgos.length + 2) + (keyAlgos.length + 2) * missingFreeKeypairs M keyAlgos s :=
          Nat.add_le_add hk₁ (hk₂.trans (Nat.mul_le_mul_left _ hD))
      _ = (keyAlgos.length + 2) * (missingFreeKeypairs M keyAlgos s + 1) := by
          rw [Nat.mul_succ, Nat.add_comm]
  · rw [List.replicate_add, Fill.run_append, hrun₁, hrun₂, hfill, finalState_ok]

end Refill

end Wacryptolib
