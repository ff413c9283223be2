import Wacryptolib.Escrow

/-!
# The free-keys generator

`generate_free_keypair_for_least_provisioned_key_algo`, called again and again by the free-keys
worker's task:

* `generateFreeKeypair_cases`: one call adds a free keypair to an algorithm of least count,
  unless that count reaches `max_free_keys_per_algo`, and otherwise changes nothing; where
  `key_generation_func` raises, the call raises and changes nothing (`KeyStorage.addGenerated`);
* `missingFreeKeypairs`: the keypairs the pools of `key_algos` lack to hold `M` each, which falls
  by exactly one at each call that generates;
* `generateFreeKeypair_converges`: when `key_generation_func` gives keypairs, successive calls
  return `True` exactly as many times as keypairs are missing, then `False` for ever, and leave
  each pool with `max(c, M)` keypairs;
* `generateFreeKeypair_balanced`: a pool that has grown holds at most one keypair more than any
  other pool of `key_algos`.
-/

namespace Wacryptolib

/-- The `(count, key_algo)` tuples that the generator reads, one per algorithm. -/
def freeKeysCounts (s : KeyStorage) (keyAlgos : List KeyAlgo) : List (Nat × KeyAlgo) :=
  keyAlgos.map fun a => ((s.freeKeypairs a).length, a)

theorem mapM_getFreeKeypairsCount_run (s : KeyStorage) (keyAlgos : List KeyAlgo) :
    (keyAlgos.mapM fun keyAlgo => do
      let count ← getFreeKeypairsCount keyAlgo
      pure (count, keyAlgo)).run s = .ok (freeKeysCounts s keyAlgos) s := by
  induction keyAlgos with
  | nil => rfl
  | cons a as ih =>
    rw [List.mapM_cons]
    simp only [run_bind, getFreeKeypairsCount_run, run_pure, ih]
    rfl

/-! ## The least tuple -/

/-- The first least tuple of `first :: rest`, as `min` computes it. -/
def leastOf (first : Nat × KeyAlgo) (rest : List (Nat × KeyAlgo)) : Nat × KeyAlgo :=
  rest.foldl (fun least x => if countLt x least then x else least) first

theorem countMin_le (x y : Nat × KeyAlgo) :
    (if countLt x y then x else y).1 ≤ x.1 ∧ (if countLt x y then x else y).1 ≤ y.1 := by
  unfold countLt
  split <;> rename_i h <;> simp only [Bool.or_eq_true, decide_eq_true_eq, Bool.and_eq_true] at h <;>
    omega

theorem leastOf_mem (first : Nat × KeyAlgo) (rest : List (Nat × KeyAlgo)) :
    leastOf first rest ∈ first :: rest := by
  induction rest generalizing first with
  | nil => exact List.mem_singleton_self _
  | cons x xs ih =>
    show leastOf (if countLt x first then x else first) xs ∈ first :: x :: xs
    split
    · exact List.mem_cons_of_mem _ (ih x)
    · exact (List.Sublist.cons₂ _ (.cons _ (.refl _))).subset (ih first)

theorem leastOf_le (first : Nat × KeyAlgo) (rest : List (Nat × KeyAlgo)) :
    ∀ y ∈ first :: rest, (leastOf first rest).1 ≤ y.1 := by
  induction rest generalizing first with
  | nil => simp [leastOf]
  | cons x xs ih =>
    have h := ih (if countLt x first then x else first)
    have hm := countMin_le x first
    have h0 := h _ (List.mem_cons_self _ _)
    intro y hy
    rcases List.mem_cons.mp hy with rfl | hy
    · exact h0.trans hm.2
    · rcases List.mem_cons.mp hy with rfl | hy
      · exact h0.trans hm.1
      · exact h y (List.mem_cons_of_mem _ hy)

/-! ## One call -/

namespace KeyStorage

/-- `s` with `kp` added to the free pool of `a`, as `add_free_keypair` does. -/
def addFree (s : KeyStorage) (a : KeyAlgo) (kp : Keypair) : KeyStorage :=
  s.setFreeKeypairs a (kp :: s.freeKeypairs a)

variable {s : KeyStorage} {a b : KeyAlgo} {kp : Keypair}

@[simp] theorem addFree_length :
    ((s.addFree a kp).freeKeypairs b).length =
      if b = a then (s.freeKeypairs a).length + 1 else (s.freeKeypairs b).length := by
  simp [addFree, apply_ite List.length]

@[simp] theorem addFree_keypairs : (s.addFree a kp).keypairs = s.keypairs := rfl

theorem addFree_of_ne (h : b ≠ a) : (s.addFree a kp).freeKeypairs b = s.freeKeypairs b := by
  simp [addFree, h]

/-- The end of a call that generates for `a`: add what `key_generation_func` gives and return
`True`, or raise its exception with `s` as it was. -/
def addGenerated (s : KeyStorage) (a : KeyAlgo) (generated : Except EscrowError Keypair) :
    EStateM.Result EscrowError KeyStorage Bool :=
  match generated with
  | .ok kp => .ok true (s.addFree a kp)
  | .error e => .error e s

end KeyStorage

section OneCall

variable {s : KeyStorage} {M : Int} {f : KeyAlgo → Except EscrowError Keypair}
  {keyAlgos : List KeyAlgo}

theorem generateFreeKeypair_nil_run :
    (generateFreeKeypairForLeastProvisionedKeyAlgo M f []).run s = .error .assertionError s := rfl

/-- One call reads the counts and takes the tuple `min` gives; it returns `False` with the storage
unchanged if that tuple's count reaches `M`, and otherwise adds what `f` gives to the pool of its
algorithm `a` and returns `True`, or raises what `f` raises. -/
theorem generateFreeKeypair_run {m : Nat × KeyAlgo} (hne : keyAlgos ≠ [])
    (hm : minFreeKeysCount (freeKeysCounts s keyAlgos) = .ok m) :
    (generateFreeKeypairForLeastProvisionedKeyAlgo M f keyAlgos).run s =
      if M ≤ m.1 then .ok false s else s.addGenerated m.2 (f m.2) := by
  obtain ⟨a₀, rest, rfl⟩ := List.exists_cons_of_ne_nil hne
  simp only [generateFreeKeypairForLeastProvisionedKeyAlgo, List.isEmpty_cons, Bool.false_eq_true,
    if_false, run_bind, run_ite, run_pure, mapM_getFreeKeypairsCount_run, run_liftExcept, hm]
  split_ifs
  · rfl
  · cases f m.2 <;> simp [KeyStorage.addGenerated, KeyStorage.addFree]

/-- One call picks an algorithm `a` of `key_algos` with the least free count; it returns `False`
with the storage unchanged if that count reaches `M`, and otherwise adds what `f a` gives to the
pool of `a` and returns `True`, or raises what `f a` raises. -/
theorem generateFreeKeypair_cases (hne : keyAlgos ≠ []) :
    ∃ a ∈ keyAlgos, (∀ b ∈ keyAlgos, (s.freeKeypairs a).length ≤ (s.freeKeypairs b).length) ∧
      (generateFreeKeypairForLeastProvisionedKeyAlgo M f keyAlgos).run s =
        if M ≤ (s.freeKeypairs a).length then .ok false s else s.addGenerated a (f a) := by
  obtain ⟨a₀, rest, rfl⟩ := List.exists_cons_of_ne_nil hne
  let m := leastOf ((s.freeKeypairs a₀).length, a₀) (freeKeysCounts s rest)
  have hmem := leastOf_mem ((s.freeKeypairs a₀).length, a₀) (freeKeysCounts s rest)
  have hle := leastOf_le ((s.freeKeypairs a₀).length, a₀) (freeKeysCounts s rest)
  change m ∈ freeKeysCounts s (a₀ :: rest) at hmem
  change ∀ y ∈ freeKeysCounts s (a₀ :: rest), m.1 ≤ y.1 at hle
  obtain ⟨a, ha, hma⟩ := List.mem_map.mp hmem
  refine ⟨a, ha, fun b hb => ?_, ?_⟩
  · have h := hle _ (List.mem_map_of_mem (fun a => ((s.freeKeypairs a).length, a)) hb)
    rw [← hma] at h
    exact h
  · rw [generateFreeKeypair_run (List.cons_ne_nil a₀ rest)
      (show minFreeKeysCount (freeKeysCounts s (a₀ :: rest)) = .ok m from rfl), ← hma]

end OneCall

/-! ## Convergence -/

/-- How many free keypairs the pools of the distinct algorithms of `keyAlgos` lack to hold `M`
keypairs each. -/
def missingFreeKeypairs (M : Int) (keyAlgos : List KeyAlgo) (s : KeyStorage) : Nat :=
  (keyAlgos.dedup.map fun a => (M - (s.freeKeypairs a).length).toNat).sum

section Convergence

variable {s : KeyStorage} {M : Int} {f : KeyAlgo → Except EscrowError Keypair}
  {keyAlgos : List KeyAlgo}

theorem missingFreeKeypairs_eq_zero_iff :
    missingFreeKeypairs M keyAlgos s = 0 ↔ ∀ a ∈ keyAlgos, M ≤ (s.freeKeypairs a).length := by
  rw [missingFreeKeypairs, show (∀ a ∈ keyAlgos, M ≤ (s.freeKeypairs a).length) ↔
    ∀ a ∈ keyAlgos.dedup, M ≤ (s.freeKeypairs a).length by simp [List.mem_dedup]]
  induction keyAlgos.dedup with
  | nil => simp
  | cons a l ih =>
    simp only [List.map_cons, List.sum_cons, Nat.add_eq_zero_iff, ih, List.mem_cons,
      forall_eq_or_imp]
    exact and_congr_left fun _ => by omega

/-- Decreasing by one the term of one element of a duplicate-free list decreases the sum by one. -/
theorem sum_map_pred {l : List KeyAlgo} (hl : l.Nodup) {a : KeyAlgo} (ha : a ∈ l)
    {g g' : KeyAlgo → Nat} (hga : g' a + 1 = g a) (hgb : ∀ b, b ≠ a → g' b = g b) :
    (l.map g').sum + 1 = (l.map g).sum := by
  induction l with
  | nil => cases ha
  | cons b l ih =>
    obtain ⟨hb, hl⟩ := List.nodup_cons.mp hl
    simp only [List.map_cons, List.sum_cons]
    by_cases hab : b = a
    · subst hab
      rw [List.map_congr_left fun c hc => hgb c fun h => hb (h ▸ hc)]
      omega
    · rw [hgb b hab, Nat.add_assoc, ih hl ((List.mem_cons.mp ha).resolve_left (Ne.symm hab))]

/-- Adding a keypair to a pool of `keyAlgos` below `M` lowers the missing count by one. -/
theorem missingFreeKeypairs_addFree {a : KeyAlgo} (ha : a ∈ keyAlgos)
    (hlt : (s.freeKeypairs a).length < M) (kp : Keypair) :
    missingFreeKeypairs M keyAlgos (s.addFree a kp) + 1 = missingFreeKeypairs M keyAlgos s :=
  sum_map_pred (List.nodup_dedup _) (List.mem_dedup.mpr ha) (by simp; omega)
    fun b hb => by simp [hb]

/-- A call that generates: some keypair was missing, from a pool below `M`, and `f` gives a
keypair for it. -/
theorem generateFreeKeypair_of_missing (hne : keyAlgos ≠ [])
    (hf : ∀ a ∈ keyAlgos, ∃ kp, f a = .ok kp) (hpos : 0 < missingFreeKeypairs M keyAlgos s) :
    ∃ a ∈ keyAlgos, ∃ kp, (s.freeKeypairs a).length < M ∧
      (generateFreeKeypairForLeastProvisionedKeyAlgo M f keyAlgos).run s =
        .ok true (s.addFree a kp) := by
  obtain ⟨a, ha, hmin, hrun⟩ := @generateFreeKeypair_cases s M f keyAlgos hne
  by_cases hM : M ≤ (s.freeKeypairs a).length
  · refine absurd (missingFreeKeypairs_eq_zero_iff.mpr fun b hb => ?_) hpos.ne'
    exact hM.trans (Int.ofNat_le.mpr (hmin b hb))
  · obtain ⟨kp, hkp⟩ := hf a ha
    exact ⟨a, ha, kp, by omega, by rw [hrun, if_neg hM, hkp]; rfl⟩

/-- Once no keypair is missing, a call returns `False` and changes nothing. -/
theorem generateFreeKeypair_of_full (hne : keyAlgos ≠ [])
    (hfull : missingFreeKeypairs M keyAlgos s = 0) :
    (generateFreeKeypairForLeastProvisionedKeyAlgo M f keyAlgos).run s = .ok false s := by
  obtain ⟨a, ha, -, hrun⟩ := @generateFreeKeypair_cases s M f keyAlgos hne
  rw [hrun, if_pos (missingFreeKeypairs_eq_zero_iff.mp hfull a ha)]

/-- The storage `s'` is `s` with pools of `keyAlgos` grown, each at most to `M` when it was below,
and nothing else changed. -/
def Fills (M : Int) (keyAlgos : List KeyAlgo) (s s' : KeyStorage) : Prop :=
  s'.keypairs = s.keypairs ∧ (∀ a, a ∉ keyAlgos → s'.freeKeypairs a = s.freeKeypairs a) ∧
    ∀ a ∈ keyAlgos, (s.freeKeypairs a).length ≤ (s'.freeKeypairs a).length ∧
      ((s'.freeKeypairs a).length : Int) ≤ max ((s.freeKeypairs a).length : Int) M

theorem Fills.refl : Fills M keyAlgos s s :=
  ⟨rfl, fun _ _ => rfl, fun _ _ => ⟨le_rfl, le_max_left _ _⟩⟩

theorem Fills.trans {s₁ s₂ : KeyStorage} (h₁ : Fills M keyAlgos s s₁)
    (h₂ : Fills M keyAlgos s₁ s₂) :
    Fills M keyAlgos s s₂ := by
  refine ⟨h₂.1.trans h₁.1, fun a ha => (h₂.2.1 a ha).trans (h₁.2.1 a ha), fun a ha => ?_⟩
  have := h₁.2.2 a ha
  have := h₂.2.2 a ha
  omega

theorem Fills.addFree {a : KeyAlgo} (ha : a ∈ keyAlgos) (hlt : (s.freeKeypairs a).length < M)
    (kp : Keypair) : Fills M keyAlgos s (s.addFree a kp) := by
  refine ⟨rfl, fun b hb => KeyStorage.addFree_of_ne fun h => hb (h ▸ ha), fun b _ => ?_⟩
  simp only [KeyStorage.addFree_length]
  split_ifs with h
  · subst h; omega
  · omega

/-- Successive calls, the `i`-th generating with `gens[i]`. -/
abbrev fillRun (M : Int) (keyAlgos : List KeyAlgo)
    (gens : List (KeyAlgo → Except EscrowError Keypair)) : EscrowM (List Bool) :=
  gens.mapM fun f => generateFreeKeypairForLeastProvisionedKeyAlgo M f keyAlgos

theorem fillRun_cons (g : KeyAlgo → Except EscrowError Keypair)
    (gens : List (KeyAlgo → Except EscrowError Keypair)) :
    (fillRun M keyAlgos (g :: gens)).run s =
      match (generateFreeKeypairForLeastProvisionedKeyAlgo M g keyAlgos).run s with
      | .ok b s₁ => match (fillRun M keyAlgos gens).run s₁ with
        | .ok bs s₂ => .ok (b :: bs) s₂
        | .error e s₂ => .error e s₂
      | .error e s₁ => .error e s₁ := by
  rw [fillRun, List.mapM_cons]
  simp only [run_bind, run_pure]
  rcases (generateFreeKeypairForLeastProvisionedKeyAlgo M g keyAlgos).run s with ⟨b, s₁⟩ | ⟨e, s₁⟩
  · dsimp only
    rcases (List.mapM (fun f => generateFreeKeypairForLeastProvisionedKeyAlgo M f keyAlgos)
      gens).run s₁ with _ | _ <;> rfl
  · rfl

/-- The storage successive calls leave, once the first has returned. -/
theorem finalState_fillRun_cons {g : KeyAlgo → Except EscrowError Keypair}
    {gens : List (KeyAlgo → Except EscrowError Keypair)} {b : Bool} {s₁ : KeyStorage}
    (h : (generateFreeKeypairForLeastProvisionedKeyAlgo M g keyAlgos).run s = .ok b s₁) :
    finalState ((fillRun M keyAlgos (g :: gens)).run s) =
      finalState ((fillRun M keyAlgos gens).run s₁) := by
  rw [fillRun_cons, h]
  dsimp only
  cases (fillRun M keyAlgos gens).run s₁ <;> rfl

/-- Successive calls from `s`, with generators that give keypairs, return `True` while keypairs
are missing, then `False`; the storage after the call that fills the last pool is the final one. -/
theorem fillRun_run (hne : keyAlgos ≠ []) (gens : List (KeyAlgo → Except EscrowError Keypair))
    (hgens : ∀ f ∈ gens, ∀ a ∈ keyAlgos, ∃ kp, f a = .ok kp) (s : KeyStorage) :
    ∃ s', (fillRun M keyAlgos gens).run s =
        .ok ((List.range gens.length).map fun i => decide (i < missingFreeKeypairs M keyAlgos s)) s' ∧
      Fills M keyAlgos s s' ∧
      missingFreeKeypairs M keyAlgos s' = missingFreeKeypairs M keyAlgos s - gens.length ∧
      (missingFreeKeypairs M keyAlgos s ≤ gens.length →
        (fillRun M keyAlgos (gens.take (missingFreeKeypairs M keyAlgos s))).run s =
          .ok (List.replicate (missingFreeKeypairs M keyAlgos s) true) s') := by
  induction gens generalizing s with
  | nil => exact ⟨s, rfl, Fills.refl, rfl, fun h => by rw [Nat.le_zero.mp h]; rfl⟩
  | cons g gens ih =>
    have ih := ih fun f hf => hgens f (List.mem_cons_of_mem g hf)
    rcases Nat.eq_zero_or_pos (missingFreeKeypairs M keyAlgos s) with h0 | hpos
    · obtain ⟨s', hrun, hfills, hmiss, htake⟩ := ih s
      refine ⟨s', ?_, hfills, by simpa [h0] using hmiss,
        fun _ => by simpa [h0] using htake (by omega)⟩
      rw [fillRun_cons, generateFreeKeypair_of_full hne h0]
      dsimp only
      rw [hrun, h0]
      simp [List.range_succ_eq_map]
    · obtain ⟨a, ha, kp, hlt, hgen⟩ := @generateFreeKeypair_of_missing s M g keyAlgos hne
        (hgens g (List.mem_cons_self g gens)) hpos
      have hdec := missingFreeKeypairs_addFree ha hlt kp
      obtain ⟨s', hrun, hfills, hmiss, htake⟩ := ih (s.addFree a kp)
      refine ⟨s', ?_, (Fills.addFree ha hlt kp).trans hfills,
        by simp only [List.length_cons]; omega, fun hle => ?_⟩
      · rw [fillRun_cons, hgen]
        dsimp only
        rw [hrun]
        simp only [List.length_cons, List.range_succ_eq_map, List.map_cons, List.map_map]
        congr 2
        · simp [hpos]
        · exact List.map_congr_left fun i _ => by simp; omega
      · obtain ⟨k, hk⟩ : ∃ k, missingFreeKeypairs M keyAlgos s = k + 1 :=
          ⟨_, (Nat.succ_pred_eq_of_pos hpos).symm⟩
        rw [hk, List.take_succ_cons, fillRun_cons, hgen]
        dsimp only
        rw [hk] at hdec
        have hk' : missingFreeKeypairs M keyAlgos (s.addFree a kp) = k := by omega
        rw [hk'] at htake
        rw [htake (by simp at hle; omega)]
        rfl

end Convergence

/-- Successive calls with a non-empty `key_algos`, any `M`, and a `key_generation_func` that gives
a keypair for every algorithm of `key_algos`, as `generate_keypair` does for the algorithms it
supports. With `D` the keypairs missing at the start (the sum over the distinct algorithms `a` of
`max(0, M - c_a)`), the first `D` calls return `True` and every later one `False`. Once `D` calls
are made, the storage is the final one, and every algorithm of `key_algos` has `max(c_a, M)` free
keypairs. The other pools and the bound keypairs never change. -/
theorem generateFreeKeypair_converges (M : Int) (keyAlgos : List KeyAlgo) (hne : keyAlgos ≠ [])
    (gens : List (KeyAlgo → Except EscrowError Keypair))
    (hgens : ∀ f ∈ gens, ∀ a ∈ keyAlgos, ∃ kp, f a = .ok kp) (s : KeyStorage) :
    ∃ s', (gens.mapM fun f => generateFreeKeypairForLeastProvisionedKeyAlgo M f keyAlgos).run s =
        .ok ((List.range gens.length).map fun i => decide (i < missingFreeKeypairs M keyAlgos s)) s' ∧
      (missingFreeKeypairs M keyAlgos s ≤ gens.length →
        ((gens.take (missingFreeKeypairs M keyAlgos s)).mapM fun f =>
          generateFreeKeypairForLeastProvisionedKeyAlgo M f keyAlgos).run s =
            .ok (List.replicate (missingFreeKeypairs M keyAlgos s) true) s' ∧
        ∀ a ∈ keyAlgos,
          ((s'.freeKeypairs a).length : Int) = max ((s.freeKeypairs a).length : Int) M) ∧
      (∀ a, a ∉ keyAlgos → s'.freeKeypairs a = s.freeKeypairs a) ∧ s'.keypairs = s.keypairs := by
  obtain ⟨s', hrun, ⟨hkeys, hout, hbounds⟩, hmiss, htake⟩ :=
    @fillRun_run M keyAlgos hne gens hgens s
  refine ⟨s', hrun, fun hle => ⟨htake hle, fun a ha => ?_⟩, hout, hkeys⟩
  have hfull := missingFreeKeypairs_eq_zero_iff.mp (by omega : missingFreeKeypairs M keyAlgos s' = 0)
  have := hfull a ha
  have := hbounds a ha
  omega

/-- Two empty pools, `M = 1` and three calls: the first two fill one pool each, the third
returns `False`. -/
theorem generateFreeKeypair_converges_two_algos :
    let keyAlgos : List KeyAlgo := ["RSA_OAEP", "DSA_DSS"]
    let gens : List (KeyAlgo → Except EscrowError Keypair) :=
      List.replicate 3 fun _ => .ok ⟨[1], [1]⟩
    keyAlgos ≠ [] ∧ (∀ f ∈ gens, ∀ a ∈ keyAlgos, ∃ kp, f a = .ok kp) ∧
    ∃ s', (gens.mapM fun f =>
        generateFreeKeypairForLeastProvisionedKeyAlgo 1 f keyAlgos).run KeyStorage.empty =
        .ok ((List.range gens.length).map fun i =>
          decide (i < missingFreeKeypairs 1 keyAlgos KeyStorage.empty)) s' ∧
      (missingFreeKeypairs 1 keyAlgos KeyStorage.empty ≤ gens.length →
        ((gens.take (missingFreeKeypairs 1 keyAlgos KeyStorage.empty)).mapM fun f =>
          generateFreeKeypairForLeastProvisionedKeyAlgo 1 f keyAlgos).run KeyStorage.empty =
            .ok (List.replicate (missingFreeKeypairs 1 keyAlgos KeyStorage.empty) true) s' ∧
        ∀ a ∈ keyAlgos, ((s'.freeKeypairs a).length : Int) =
          max ((KeyStorage.empty.freeKeypairs a).length : Int) 1) ∧
      (∀ a, a ∉ keyAlgos → s'.freeKeypairs a = KeyStorage.empty.freeKeypairs a) ∧
      s'.keypairs = KeyStorage.empty.keypairs := by
  intro keyAlgos gens
  have hgens : ∀ f ∈ gens, ∀ a ∈ keyAlgos, ∃ kp, f a = .ok kp := fun f hf a _ =>
    ⟨⟨[1], [1]⟩, by rw [(List.mem_replicate.mp hf).2]⟩
  exact ⟨List.cons_ne_nil _ _, hgens,
    generateFreeKeypair_converges 1 keyAlgos (List.cons_ne_nil _ _) gens hgens _⟩

/-! ## Balance -/

/-- Since `s₀`, the pools of `keyAlgos` have not shrunk, and one that has grown holds at most one
keypair more than any other. -/
def Balanced (keyAlgos : List KeyAlgo) (s₀ s : KeyStorage) : Prop :=
  (∀ a ∈ keyAlgos, (s₀.freeKeypairs a).length ≤ (s.freeKeypairs a).length) ∧
    ∀ a ∈ keyAlgos, (s₀.freeKeypairs a).length < (s.freeKeypairs a).length →
      ∀ b ∈ keyAlgos, (s.freeKeypairs a).length ≤ (s.freeKeypairs b).length + 1

section Balance

variable {keyAlgos : List KeyAlgo} {s₀ s : KeyStorage} {M : Int}

/-- Adding to a pool of least count keeps the balance. -/
theorem Balanced.addFree (h : Balanced keyAlgos s₀ s) {a : KeyAlgo}
    (hmin : ∀ b ∈ keyAlgos, (s.freeKeypairs a).length ≤ (s.freeKeypairs b).length)
    (kp : Keypair) : Balanced keyAlgos s₀ (s.addFree a kp) := by
  obtain ⟨hmono, hbal⟩ := h
  refine ⟨fun b hb => ?_, fun x hx hgrown b hb => ?_⟩
  · have := hmono b hb
    simp only [KeyStorage.addFree_length]
    split_ifs with hba
    · subst hba; omega
    · omega
  · have hb' := hmin b hb
    by_cases hxa : x = a
    · subst hxa
      simp only [KeyStorage.addFree_length, if_true]
      split_ifs <;> omega
    · have := hbal x hx (by simpa [KeyStorage.addFree_length, hxa] using hgrown) b hb
      simp only [KeyStorage.addFree_length, hxa, if_false]
      split_ifs with hba
      · subst hba; omega
      · omega

theorem Balanced.fillRun (gens : List (KeyAlgo → Except EscrowError Keypair))
    (h : Balanced keyAlgos s₀ s) :
    Balanced keyAlgos s₀ (finalState ((fillRun M keyAlgos gens).run s)) := by
  induction gens generalizing s with
  | nil => exact h
  | cons g gens ih =>
    by_cases hnil : keyAlgos = []
    · subst hnil
      simpa [fillRun_cons, generateFreeKeypair_nil_run] using h
    obtain ⟨a, -, hmin, hrun⟩ := @generateFreeKeypair_cases s M g keyAlgos hnil
    split_ifs at hrun
    · rw [finalState_fillRun_cons hrun]
      exact ih h
    · -- The call adds what `g a` gives, or raises and the run stops there.
      rcases hg : g a with e | kp <;> rw [hg] at hrun
      · rw [fillRun_cons, hrun]
        exact h
      · rw [finalState_fillRun_cons hrun]
        exact ih (h.addFree hmin kp)

end Balance

/-- In any run of the generator alone, from any storage, every algorithm of `key_algos` whose free
pool has grown since the start holds at most one free keypair more than every other algorithm of
`key_algos`. -/
theorem generateFreeKeypair_balanced (M : Int) (keyAlgos : List KeyAlgo)
    (gens : List (KeyAlgo → Except EscrowError Keypair)) (s : KeyStorage) :
    let s' := finalState ((gens.mapM fun f =>
      generateFreeKeypairForLeastProvisionedKeyAlgo M f keyAlgos).run s)
    ∀ a ∈ keyAlgos, (s.freeKeypairs a).length < (s'.freeKeypairs a).length →
      ∀ b ∈ keyAlgos, (s'.freeKeypairs a).length ≤ (s'.freeKeypairs b).length + 1 :=
  (Balanced.fillRun gens ⟨fun _ _ => le_rfl, fun _ _ h => absurd h (lt_irrefl _)⟩).2

end Wacryptolib
