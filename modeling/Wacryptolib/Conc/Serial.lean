import Wacryptolib.Conc.Service

/-!
# Serial schedules are the sequential runs

The service of `Wacryptolib.Conc.Service` splits every call into its storage calls. On a schedule
that runs each call to its end before the next one starts, it is the sequential model of
`Wacryptolib.Runs`, where each call of `EscrowApi` and each call of the worker's task is atomic:
it leaves the same storage, and every request ends with what the sequential call returns.

* `ServiceJob`: a call of the service, a provisioning request or one call of the worker's task;
  `ServiceJob.toEvent` is the same call as an event of a sequential run;
* `ServiceJob.Serial`: a schedule made of one block per call, each block made of that call's
  moves only;
* `Service.run_client_alone`, `Service.run_worker_alone`: a block run on the service is the call
  run alone (`thread_alone_refines`, `generator_alone_refines`), the rest of the service as it
  was;
* `serial_schedules_refine`: for every list of calls there is a serial schedule of them on which
  the service ends as the sequential run of the calls does.
-/

namespace Wacryptolib

open EscrowApi KeyStorage

/-- A call of the service: a provisioning request, or one call of the worker's task with what
`key_generation_func` returns. -/
inductive ServiceJob where
  | request (r : ProvisioningRequest)
  | worker (keyGenerationFunc : KeyAlgo → Except EscrowError Keypair)

namespace ServiceJob

variable (P : Primitives) (M : Int) (keyAlgos : List KeyAlgo)

/-- The call as an event of a sequential run; the request's generator gives its keypair. -/
def toEvent : ServiceJob → Event P
  | request r => .call (r.call.toRequest P r.keychainUid r.keyAlgo fun _ _ => r.generated)
  | worker f => .generateFreeKeypair M f keyAlgos

/-- The requests among the calls, in order: the clients of the service. -/
def requests : List ServiceJob → List ProvisioningRequest
  | [] => []
  | request r :: jobs => r :: requests jobs
  | worker _ :: jobs => requests jobs

variable {P}

/-- Each request, ended with its outcome in a sequential run of the calls. -/
def results : List ServiceJob → List (Except EscrowError (Response P)) → List (Client P)
  | request r :: jobs, out :: outs => ⟨r, .done out⟩ :: results jobs outs
  | worker _ :: jobs, _ :: outs => results jobs outs
  | _, _ => []

/-- A serial schedule of the calls, the first request among them being the `j`-th client: four
moves of each request, and some moves of the worker for each call of its task, one call after
the other. -/
inductive Serial : List ServiceJob → Nat → List ServiceEvent → Prop
  | nil (j : Nat) : Serial [] j []
  | request {jobs : List ServiceJob} {j : Nat} {events : List ServiceEvent}
      (r : ProvisioningRequest) :
      Serial jobs (j + 1) events →
      Serial (request r :: jobs) j (List.replicate 4 (.client j) ++ events)
  | worker {jobs : List ServiceJob} {j : Nat} {events : List ServiceEvent}
      (f : KeyAlgo → Except EscrowError Keypair) (n : Nat) :
      Serial jobs j events → Serial (worker f :: jobs) j (List.replicate n (.worker f) ++ events)

end ServiceJob

theorem List.set_of_getElem? {α : Type} {l : List α} {j : Nat} {x : α} (h : l[j]? = some x) :
    l.set j x = l :=
  List.ext_getElem? fun i => by
    by_cases hji : j = i
    · subst hji
      rw [List.getElem?_set_self (List.getElem?_eq_some_iff.mp h).1, h]
    · rw [List.getElem?_set_ne hji]

/-- A move of a request is a move of its thread; its call and keypair stay. -/
theorem Client.step_thread {P : Primitives} (c : Client P) (s : KeyStorage) :
    (c.step s).1.thread = (c.thread.step c.request.keychainUid c.request.keyAlgo s).1 := by
  simp only [Client.step, Client.thread, Thread.step]
  split <;> rfl

namespace Service

variable {P : Primitives} {M : Int} {keyAlgos : List KeyAlgo}

theorem run_append (st : Service P) (xs ys : List ServiceEvent) :
    st.run M keyAlgos (xs ++ ys) = (st.run M keyAlgos xs).run M keyAlgos ys :=
  List.foldl_append _ _ _ _

/-- `n` moves of the `j`-th request and of nothing else: its thread runs alone. -/
theorem run_client_steps (n : Nat) {st : Service P} {j : Nat} {c : Client P}
    (hc : st.clients[j]? = some c) :
    st.run M keyAlgos (List.replicate n (.client j)) =
      ⟨st.clients.set j ⟨c.request,
          (Thread.runAlone c.request.keychainUid c.request.keyAlgo n c.thread st.storage).1.pc⟩,
        st.worker,
        (Thread.runAlone c.request.keychainUid c.request.keyAlgo n c.thread st.storage).2⟩ := by
  induction n generalizing st c with
  | zero => exact congrArg (Service.mk · st.worker st.storage) (List.set_of_getElem? hc).symm
  | succ n ih =>
    rw [List.replicate_succ, run, List.foldl_cons]
    have hstep : st.step M keyAlgos (.client j) =
        ⟨st.clients.set j (c.step st.storage).1, st.worker, (c.step st.storage).2⟩ := by
      simp only [step, hc]
    rw [hstep]
    refine (ih (List.getElem?_set_self (List.getElem?_eq_some_iff.mp hc).1)).trans ?_
    rw [List.set_set, Client.step_thread]
    rfl

/-- A request of the base class that runs alone on the service, from its start, ends within its
four moves with what `EscrowApi` returns, and leaves the storage `EscrowApi` leaves. -/
theorem run_client_alone (authorizes : KeychainUid → KeyAlgo → Bool) {st : Service P} {j : Nat}
    {r : ProvisioningRequest} (hc : st.clients[j]? = some (Client.start r)) :
    let R := ((⟨.escrowApi, authorizes⟩ : EscrowApi).serve P
      (r.call.toRequest P r.keychainUid r.keyAlgo fun _ _ => r.generated)).run st.storage
    st.run M keyAlgos (List.replicate 4 (.client j)) =
      ⟨st.clients.set j ⟨r, .done (outcome R)⟩, st.worker, finalState R⟩ := by
  have halone := thread_alone_refines P authorizes (fun _ _ => r.generated) r.keychainUid
    r.keyAlgo st.storage r.call
  dsimp only at halone
  rw [run_client_steps 4 hc]
  exact congrArg (fun t : Thread P × KeyStorage =>
    (⟨st.clients.set j ⟨r, t.1.pc⟩, st.worker, t.2⟩ : Service P)) halone

/-- A call of the worker's task that runs alone on the service, from the start of a call, ends
within `len(key_algos) + 2` moves with the storage of the atomic call. -/
theorem run_worker_alone (hne : keyAlgos ≠ []) (f : KeyAlgo → Except EscrowError Keypair)
    {st : Service P} (hw : st.worker = .start keyAlgos) :
    ∃ n ≤ keyAlgos.length + 2, st.run M keyAlgos (List.replicate n (.worker f)) =
      ⟨st.clients, .start keyAlgos,
        finalState
          ((generateFreeKeypairForLeastProvisionedKeyAlgo M f keyAlgos).run st.storage)⟩ := by
  obtain ⟨n, hn, hrun⟩ := generator_alone_refines M keyAlgos hne f st.storage
  refine ⟨n, hn, ?_⟩
  rw [run_worker, hw, hrun]

end Service

variable {P : Primitives} {M : Int} {keyAlgos : List KeyAlgo}

/-- Serial schedules from a service whose first requests have ended: the calls run one after the
other as in the sequential run. -/
theorem Service.serial_run (hne : keyAlgos ≠ []) (authorizes : KeychainUid → KeyAlgo → Bool)
    (jobs : List ServiceJob) (done : List (Client P)) (s : KeyStorage) :
    let seq := (⟨.escrowApi, authorizes⟩ : EscrowApi).runEvents P
      (jobs.map (ServiceJob.toEvent P M keyAlgos)) s
    ∃ events, ServiceJob.Serial jobs done.length events ∧
      (⟨done ++ (ServiceJob.requests jobs).map Client.start, .start keyAlgos, s⟩ : Service P).run
          M keyAlgos events =
        ⟨done ++ ServiceJob.results jobs seq.1, .start keyAlgos, seq.2⟩ := by
  induction jobs generalizing done s with
  | nil => exact ⟨[], .nil _, rfl⟩
  | cons job jobs ih =>
    cases job with
    | request r =>
      let st : Service P :=
        ⟨done ++ (ServiceJob.requests (.request r :: jobs)).map Client.start, .start keyAlgos, s⟩
      have hc : st.clients[done.length]? = some (Client.start r) := by
        rw [List.getElem?_append_right le_rfl, Nat.sub_self]
        simp only [ServiceJob.requests, List.map_cons, List.getElem?_cons_zero]
      have hblock := @Service.run_client_alone P M keyAlgos authorizes st _ _ hc
      dsimp only at hblock
      obtain ⟨events, hser, hrun⟩ := ih (done ++ [⟨r, .done (outcome
        (((⟨.escrowApi, authorizes⟩ : EscrowApi).serve P
          (r.call.toRequest P r.keychainUid r.keyAlgo fun _ _ => r.generated)).run s))⟩])
        (finalState (((⟨.escrowApi, authorizes⟩ : EscrowApi).serve P
          (r.call.toRequest P r.keychainUid r.keyAlgo fun _ _ => r.generated)).run s))
      rw [List.length_append, List.length_singleton] at hser
      refine ⟨_, .request r hser, ?_⟩
      rw [Service.run_append, hblock]
      simpa [st, ServiceJob.requests, ServiceJob.results, ServiceJob.toEvent, runEvents,
        EscrowApi.step, List.set_append_right] using hrun
    | worker f =>
      obtain ⟨n, -, hblock⟩ := @Service.run_worker_alone P M keyAlgos hne f
        ⟨done ++ (ServiceJob.requests (.worker f :: jobs)).map Client.start, .start keyAlgos, s⟩ rfl
      obtain ⟨events, hser, hrun⟩ := ih done
        (finalState ((generateFreeKeypairForLeastProvisionedKeyAlgo M f keyAlgos).run s))
      refine ⟨_, .worker f n hser, ?_⟩
      rw [Service.run_append, hblock]
      have hstep : finalState (((⟨.escrowApi, authorizes⟩ : EscrowApi).step P
          (ServiceJob.toEvent P M keyAlgos (.worker f))).run s) =
          finalState ((generateFreeKeypairForLeastProvisionedKeyAlgo M f keyAlgos).run s) :=
        finalState_map _ _
      simpa only [List.map_cons, runEvents, hstep, ServiceJob.results] using hrun

/-- The fine-grained service refines the sequential model. For every list of calls of the base
class's provisioning methods and of the worker's task, there is a serial schedule of them, each
call's moves in one block, on which the service ends as the sequential run of the calls by
`EscrowApi` does: the same storage, every request ended with the outcome of its call, the worker
at the start of a call. -/
theorem serial_schedules_refine (P : Primitives) (M : Int) (keyAlgos : List KeyAlgo)
    (hne : keyAlgos ≠ []) (authorizes : KeychainUid → KeyAlgo → Bool) (s₀ : KeyStorage)
    (jobs : List ServiceJob) :
    let seq := (⟨.escrowApi, authorizes⟩ : EscrowApi).runEvents P
      (jobs.map (ServiceJob.toEvent P M keyAlgos)) s₀
    ∃ events, ServiceJob.Serial jobs 0 events ∧
      (Service.start keyAlgos s₀ (ServiceJob.requests jobs) : Service P).run M keyAlgos events =
        ⟨ServiceJob.results jobs seq.1, .start keyAlgos, seq.2⟩ :=
  Service.serial_run hne authorizes jobs [] s₀

/-- A signature with `"RSA_PSS"` on an empty storage, then a call of the worker's task: the
sequential run returns the signature, and the worker adds a free keypair. -/
theorem serial_schedules_refine_sign_then_refill :
    let jobs := [ServiceJob.request ⟨0, "RSA_PSS", .getMessageSignature [7], .ok ⟨[1], [1]⟩⟩,
      .worker fun _ => .ok ⟨[2], [2]⟩]
    let seq := (⟨.escrowApi, fun _ _ => true⟩ : EscrowApi).runEvents plainPrimitives
      (jobs.map (ServiceJob.toEvent plainPrimitives 1 ["RSA_PSS"])) KeyStorage.empty
    seq.1 = [.ok (.signature ([7, 1] : Bytes)), .ok (.freeKeypairGenerated true)] ∧
    (["RSA_PSS"] : List KeyAlgo) ≠ [] ∧
    ∃ events, ServiceJob.Serial jobs 0 events ∧
      (Service.start ["RSA_PSS"] KeyStorage.empty (ServiceJob.requests jobs) :
          Service plainPrimitives).run 1 ["RSA_PSS"] events =
        ⟨ServiceJob.results jobs seq.1, .start ["RSA_PSS"], seq.2⟩ :=
  ⟨rfl, List.cons_ne_nil _ _, serial_schedules_refine plainPrimitives 1 ["RSA_PSS"]
    (List.cons_ne_nil _ _) (fun _ _ => true) KeyStorage.empty _⟩

end Wacryptolib
