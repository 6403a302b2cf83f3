import LatteRs.Concurrent.Progress
import LatteRs.Concurrent.Sections
import LatteRs.CacheWrites
import LatteRs.Renewals

/-!
# Every call returns, and `check` never waits

What the methods of an Sdk cost, and what follows for all runs of its clones.

* `within_check`, `within_renew`, …: the operations of each method;
* `Sdk.bounds` and `calls_return`: no call goes on for ever or gets stuck;
* `check_never_waits`: a check goes on whatever the other threads do;
* `brief_tasks` and `lock_sections`: nobody keeps the lock for long, or sends a
  request meanwhile.
-/

namespace LatteRs

open Concurrent Act Program

variable {P : Platform} {sdk : Sdk P}

/-! ### What the methods cost -/

section
variable {cost : Task → ℕ}

theorem within_orAbort {ε α : Type} (x : Checked ε α) :
    (orAbort x).Within (S := signature) cost True 0 := by
  match x with
  | .ok a => trivial
  | .error (.err e) => trivial
  | .error .panic => trivial

/-- A program that goes on only if the one before it succeeded. -/
theorem within_ok {ε α β : Type} {m n : ℕ} {p : Act (Except ε α)} {f : Except ε α → Act β}
    (hp : p.Within cost True m) (hok : ∀ a, (f (.ok a)).Within cost True n)
    (herr : ∀ e, (f (.error e)).Within cost True 0) : (p >>= f).Within cost True (m + n) := by
  refine within_bind hp fun result => ?_
  cases result with
  | ok a => exact hok a
  | error e => exact (herr e).mono (Nat.zero_le n)

theorem within_loadCache : (loadCache sdk).Within cost True 1 := by
  unfold loadCache
  cases sdk.cachePath with
  | none => trivial
  | some path => exact within_perform _

theorem within_saveToCache {token : String} {chain : CertChain} :
    (saveToCache sdk token chain).Within cost True 4 := by
  unfold saveToCache
  refine within_seq within_acquire (fun _ => ?_) (le_refl (1 + 3))
  refine within_seq (within_perform _) (fun _ => ?_) (le_refl (1 + 2))
  cases sdk.cachePath with
  | none => exact within_release.mono (by omega)
  | some path => exact within_seq (within_perform _) (fun _ => within_release) (le_refl (1 + 1))

theorem within_clearCache : (clearCache sdk).Within cost True 4 := by
  unfold clearCache
  refine within_seq within_acquire (fun _ => ?_) (le_refl (1 + 3))
  refine within_seq (within_perform _) (fun _ => ?_) (le_refl (1 + 2))
  cases sdk.cachePath with
  | none => exact within_release.mono (by omega)
  | some path => exact within_seq (within_perform _) (fun _ => within_release) (le_refl (1 + 1))

theorem within_holdsActivation {activationId : String} :
    (holdsActivation sdk activationId).Within cost True 2 := by
  unfold holdsActivation
  refine within_seq within_loadCache (fun cached => ?_) (le_refl (1 + 1))
  cases cached with
  | none => trivial
  | some tc =>
    refine within_seq (within_perform _) (fun now => ?_) (le_refl (1 + 0))
    exact within_ok (n := 0) (within_orAbort _) (fun _ => trivial) (fun _ => trivial)

theorem within_noteRenewal {T : Type} {activationId : String} {outcome : Except LatteError T} :
    (noteRenewal sdk activationId outcome).Within cost True 3 := by
  unfold noteRenewal
  refine within_seq within_holdsActivation (fun holds => ?_) (le_refl (2 + 1))
  exact within_seq (within_perform _) (fun _ => trivial) (le_refl (1 + 0))

theorem within_call {T : Type} {client : Client} {path : String} {body : Body}
    {decode : Bytes → Except String T} :
    (call sdk client path body decode).Within cost True 1 :=
  within_seq (within_perform _) (fun _ => trivial) (le_refl (1 + 0))

theorem within_post {client : Client} {path : String} {body : Body} :
    (post sdk client path body).Within cost True 1 := by
  unfold post
  exact within_ok (n := 0) within_call (fun _ => trivial) (fun _ => trivial)

theorem within_postAndHandleInvalidation {path : String} {body : Body} :
    (postAndHandleInvalidation sdk path body).Within cost True 5 := by
  unfold postAndHandleInvalidation
  refine within_seq within_post (fun result => ?_) (le_refl (1 + 4))
  cases result with
  | ok tc => trivial
  | error e =>
    simp only
    split_ifs with he
    · exact within_seq within_clearCache (fun _ => trivial) (le_refl (4 + 0))
    · trivial

theorem within_verifyAndValidate {token : String} {chain : CertChain} :
    (verifyAndValidate sdk token chain).Within cost True 1 := by
  unfold verifyAndValidate
  refine within_seq (within_perform _) (fun now => ?_) (le_refl (1 + 0))
  exact within_ok (n := 0) (within_orAbort _) (fun _ => trivial) (fun _ => trivial)

theorem within_cachedLicense : (cachedLicense sdk).Within cost True 3 := by
  unfold cachedLicense
  refine within_seq within_loadCache (fun cached => ?_) (le_refl (1 + 2))
  cases cached with
  | none => trivial
  | some tc =>
    refine within_seq (within_perform _) (fun now => ?_) (le_refl (1 + 1))
    refine within_ok (n := 1) (within_orAbort _) (fun license => ?_) (fun _ => trivial)
    refine within_ok (n := 1) (within_orAbort _) (fun _ => ?_) (fun _ => trivial)
    exact within_seq (within_perform _) (fun _ => trivial) (le_refl (1 + 0))

theorem within_activate {licenseKey : String} :
    (activate sdk licenseKey).Within cost True 13 := by
  have honline : ∀ normalized, (activateOnline sdk normalized).Within cost True 10 := by
    intro normalized
    unfold activateOnline
    refine within_ok (n := 5) within_postAndHandleInvalidation (fun tc => ?_) (fun _ => trivial)
    refine within_ok (n := 4) within_verifyAndValidate (fun lic => ?_) (fun _ => trivial)
    exact within_seq within_saveToCache (fun _ => trivial) (le_refl (4 + 0))
  unfold activate
  simp only
  cases validateLicenseKey (normalizeKey P.toUppercase licenseKey) with
  | error e => trivial
  | ok u =>
    refine within_seq within_cachedLicense (fun cached => ?_) (le_refl (3 + 10))
    cases cached with
    | none => exact honline _
    | some found =>
      obtain ⟨lic, aliasKey⟩ := found
      simp only
      split_ifs
      · trivial
      · exact honline _

theorem within_renew {activationId licenseKey : String} :
    (renew sdk activationId licenseKey).Within cost True 20 := by
  unfold renew
  refine within_seq (within_perform _) (fun now => ?_) (le_refl (1 + 19))
  refine within_seq within_acquire (fun _ => ?_) (le_refl (1 + 18))
  refine within_seq (within_perform _) (fun state => ?_) (le_refl (1 + 17))
  refine within_seq (within_perform _) (fun _ => ?_) (le_refl (1 + 16))
  refine within_seq within_release (fun _ => ?_) (le_refl (1 + 15))
  refine within_seq within_postAndHandleInvalidation (fun result => ?_) (le_refl (5 + 10))
  refine within_seq within_acquire (fun _ => ?_) (le_refl (1 + 9))
  refine within_seq within_noteRenewal (fun _ => ?_) (le_refl (3 + 6))
  refine within_seq within_release (fun _ => ?_) (le_refl (1 + 5))
  cases result with
  | error e => trivial
  | ok tc =>
    refine within_ok (n := 4) within_verifyAndValidate (fun lic => ?_) (fun _ => trivial)
    exact within_seq within_saveToCache (fun _ => trivial) (le_refl (4 + 0))

theorem within_deactivate {activationId licenseKey : String} :
    (deactivate sdk activationId licenseKey).Within cost True 5 := by
  unfold deactivate
  refine within_ok (n := 4) within_call (fun result => ?_) (fun _ => trivial)
  exact within_seq within_clearCache (fun _ => trivial) (le_refl (4 + 0))

theorem within_dropInFlight {aborts : Prop} {attempt : ℕ} :
    (dropInFlight attempt).Within cost aborts 4 := by
  unfold dropInFlight
  refine within_seq within_acquire (fun _ => ?_) (le_refl (1 + 3))
  refine within_seq (within_perform _) (fun state => ?_) (le_refl (1 + 2))
  split_ifs
  · exact within_seq (within_perform _) (fun _ => within_release) (le_refl (1 + 1))
  · exact within_release.mono (by omega)

theorem within_postVerified {activationId licenseKey : String} :
    (postVerified sdk activationId licenseKey).Within cost True 2 := by
  unfold postVerified
  refine within_ok (n := 1) within_post (fun tc => ?_) (fun _ => trivial)
  exact within_ok (n := 0) within_verifyAndValidate (fun _ => trivial) (fun _ => trivial)

theorem within_storeRenewed {renewed : Except LatteError (String × CertChain)} :
    (storeRenewed renewed).Within cost True 2 := by
  unfold storeRenewed
  cases renewed with
  | ok tc => exact within_seq (within_perform _) (fun _ => within_release) (le_refl (1 + 1))
  | error e =>
    simp only
    split_ifs
    · exact within_seq (within_perform _) (fun _ => within_release) (le_refl (1 + 1))
    · exact within_release.mono (by omega)

theorem within_renewAndStore {attempt : ℕ} {activationId licenseKey : String} :
    (renewAndStore sdk attempt activationId licenseKey).Within cost True 13 := by
  have hleave : (release >>= fun _ => dropInFlight attempt : Act Unit).Within cost True 5 :=
    within_seq within_release (fun _ => within_dropInFlight) (le_refl (1 + 4))
  unfold renewAndStore
  refine within_seq within_postVerified (fun renewed => ?_) (le_refl (2 + 11))
  refine within_seq within_acquire (fun _ => ?_) (le_refl (1 + 10))
  refine within_seq (within_perform _) (fun state => ?_) (le_refl (1 + 9))
  split_ifs
  · exact hleave.mono (by omega)
  · refine within_seq within_noteRenewal (fun holds => ?_) (le_refl (3 + 6))
    split_ifs
    · exact within_seq within_storeRenewed (fun _ => within_dropInFlight) (le_refl (2 + 4))
    · exact hleave.mono (by omega)

/-- A check starts one thread at most; `n` is what that costs. -/
theorem within_renewInBackground {lic : License} {n : ℕ}
    (hcost : ∀ attempt, cost (.background attempt lic.activationId lic.key) ≤ n) :
    (renewInBackground lic).Within cost True (n + 7) := by
  unfold renewInBackground
  refine within_seq (within_perform _) (fun now => ?_) (by omega : 1 + (n + 6) ≤ n + 7)
  split_ifs
  · trivial
  · refine within_seq within_tryAcquire (fun got => ?_) (by omega : 1 + (n + 5) ≤ n + 6)
    cases got with
    | false => trivial
    | true =>
      refine within_seq (within_perform _) (fun state => ?_) (by omega : 1 + (n + 4) ≤ n + 5)
      simp only
      split_ifs
      · exact within_release.mono (by omega)
      · refine within_seq (within_perform _) (fun _ => ?_) (by omega : 1 + (n + 3) ≤ n + 4)
        refine within_seq (m := n + 1) (within_start ?_) (fun started => ?_)
          (by omega : n + 1 + 2 ≤ n + 3)
        · exact Nat.lt_succ_of_le (hcost _)
        · cases started with
          | true => exact within_release.mono (by omega)
          | false =>
            exact within_seq (within_perform _) (fun _ => within_release) (le_refl (1 + 1))
      · trivial

theorem within_check {n : ℕ} (hcost : ∀ attempt activationId licenseKey,
    cost (.background attempt activationId licenseKey) ≤ n) :
    (check sdk).Within cost True (n + 10) := by
  unfold check
  refine within_seq within_loadCache (fun cached => ?_) (by omega : 1 + (n + 9) ≤ n + 10)
  cases cached with
  | none => trivial
  | some tc =>
    refine within_seq (within_perform _) (fun now => ?_) (by omega : 1 + (n + 8) ≤ n + 9)
    refine Within.mono (m := 0 + (n + 8)) ?_ (by omega)
    refine within_ok (within_orAbort _) (fun license => ?_) (fun _ => trivial)
    refine within_seq (within_orAbort _) (fun valid => ?_) (by omega : 0 + (n + 8) ≤ n + 8)
    refine within_seq (m := n + 7) ?_ (fun _ => ?_) (by omega : n + 7 + 1 ≤ n + 8)
    · split_ifs
      · exact within_renewInBackground fun attempt => hcost _ _ _
      · trivial
    · rcases valid with e | u
      · cases e <;> trivial
      · exact within_seq (within_perform _) (fun _ => trivial) (le_refl (1 + 0))

end

/-! ### Every call returns -/

/-- What a call or a background renewal costs in all, with the threads it starts and a panic. -/
def taskCost : Task → ℕ
  | .background .. => 18
  | _ => 29

/-- What unwinding costs: a background renewal drops its mark. -/
def unwindCost : Task → ℕ
  | .background .. => 4
  | _ => 0

theorem taskCost_le (t : Task) : taskCost t ≤ 29 := by
  cases t <;> simp [taskCost]

/-- The bounds of all tasks. -/
def Sdk.bounds (sdk : Sdk P) : Bounds sdk.system where
  cost := taskCost
  unwind := unwindCost
  body t := by
    cases t with
    | activate licenseKey =>
      exact within_seq within_activate (fun _ => trivial) (by decide : 13 + 0 ≤ 29 - 0 - 1)
    | renew activationId licenseKey =>
      exact within_seq within_renew (fun _ => trivial) (by decide : 20 + 0 ≤ 29 - 0 - 1)
    | deactivate activationId licenseKey =>
      exact within_seq within_deactivate (fun _ => trivial) (by decide : 5 + 0 ≤ 29 - 0 - 1)
    | machines activationId licenseKey =>
      exact within_seq within_call (fun _ => trivial) (by decide : 1 + 0 ≤ 29 - 0 - 1)
    | renameMachine activationId licenseKey name =>
      exact within_seq within_call (fun _ => trivial) (by decide : 1 + 0 ≤ 29 - 0 - 1)
    | check =>
      exact within_seq (within_check (n := 18) fun _ _ _ => le_refl 18) (fun _ => trivial)
        (by decide : 28 + 0 ≤ 29 - 0 - 1)
    | background attempt activationId licenseKey =>
      exact within_seq within_renewAndStore (fun _ => trivial) (by decide : 13 + 0 ≤ 18 - 4 - 1)
  handler t := by
    cases t with
    | background attempt activationId licenseKey =>
      exact within_seq within_dropInFlight (fun _ => trivial) (le_refl (4 + 0))
    | _ => trivial
  lt t := by
    cases t <;> simp [taskCost, unwindCost]

/-- Every effect gets some answer. -/
theorem Sdk.exists_admits (sdk : Sdk P) (e : Effect) (s : Shared) (newest : ℤ) :
    ∃ r, sdk.admits e s newest r := by
  cases e with
  | request client url body => exact ⟨⟨(replyDate P (.error "")).getD newest, .error ""⟩, rfl⟩
  | load => exact ⟨none, Or.inr rfl⟩
  | getRenewal => exact ⟨s.renewal, rfl⟩
  | loadFlag => exact ⟨s.renewalFailed, rfl⟩
  | clock => exact ⟨SystemTime.unixEpoch, trivial⟩
  | save token chain => exact ⟨true, trivial⟩
  | clear => exact ⟨true, trivial⟩
  | setRenewal state => exact ⟨(), trivial⟩
  | storeFlag failed => exact ⟨(), trivial⟩
  | noteFlag activationId network failed => exact ⟨(), trivial⟩

/-- What the threads of a configuration still have to do, the finished ones included. -/
theorem owed_step {c c' : Config sdk.system} {l : Label signature}
    (howed : Owed sdk.bounds c.threads (29 * c.threads.length)) (hstep : Step c l c') :
    Owed sdk.bounds c'.threads (29 * c'.threads.length) := by
  have inside : Inside c l c' → Owed sdk.bounds c'.threads (29 * c'.threads.length) := by
    intro hl
    obtain ⟨n, hn, howed'⟩ := howed.step hstep hl
    have hlen := hstep.length_le
    exact howed'.mono (by omega)
  cases l with
  | call t =>
    cases hstep with
    | call ht =>
      refine (howed.append (owes_fresh t)).mono ?_
      have hcost : sdk.bounds.cost t ≤ 29 := taskCost_le t
      have hlen : (c.spawn t).threads.length = c.threads.length + 1 := by simp [Config.spawn]
      omega
  | op i ev => exact inside (by simp [Inside, Label.thread])
  | panic i => exact inside (by simp [Inside, Label.thread])

theorem owed_of_run {cache : Option (String × CertChain)} {newest : ℤ} {c : Config sdk.system}
    (hrun : AnyRun (sdk.start cache newest) c) :
    Owed sdk.bounds c.threads (29 * c.threads.length) :=
  hrun.preserves (I := fun c => Owed sdk.bounds c.threads (29 * c.threads.length))
    (fun _ _ _ howed hstep _ => owed_step howed hstep) trivial

/-- **Every call returns.**  From any configuration that is reached, a run without new calls
takes at most 29 steps for each thread there, and it can go on until every thread has returned:
no order of steps, no answers and no panics leave a thread waiting for a lock for ever. -/
theorem calls_return {cache : Option (String × CertChain)} {newest : ℤ} {c c' : Config sdk.system}
    {n : ℕ} (hrun : AnyRun (sdk.start cache newest) c) (h : Steps n c c') :
    n ≤ 29 * c.threads.length ∧ (c'.Finished ∨ ∃ c'', Steps (n + 1) c c'') ∧
      ∃ m c'', Steps m c' c'' ∧ c''.Finished := by
  have hrun' := hrun.trans h.run
  have howed' := owed_of_run hrun'
  have hk' := kept_of_run hrun'
  obtain ⟨B, hB, -⟩ := (owed_of_run hrun).steps h
  refine ⟨by omega, ?_, exists_finished sdk.sound sdk.exists_admits hk' howed'⟩
  by_cases hfin : c'.Finished
  · exact Or.inl hfin
  · simp only [Config.Finished, ne_eq, not_forall, not_not, exists_prop] at hfin
    obtain ⟨i, th, hi, hleft⟩ := hfin
    obtain ⟨l, c'', hstep, hl⟩ := hk'.exists_step sdk.exists_admits howed' hi hleft
    exact Or.inr ⟨c'', h.succ hstep hl⟩

/-- A renewal that holds the lock, a check that has begun, and one step more. -/
theorem calls_return_sample : ∃ c c' : Config sampleSdk.system, c.holder = some 0 ∧
    Steps 1 c c' ∧ ∃ m c'', Steps m c' c'' ∧ c''.Finished := by
  have hplay : (play (fun _ _ _ => True) (sampleSdk.start (some ("h.t.4t", sampleChain)) 0)
      (.call (.renew "a" "KEY") :: sampleMoves 2 0 sampleNow (sampleReply 117) ++
        [.call .check])).any
      (fun c => (c.next (.go 1 (sampleOracle sampleNow (sampleReply 117)))).any fun s =>
        decide (c.holder = some 0 ∧ s.1.thread ≠ none)) = true := by decide +kernel
  obtain ⟨c, hc, hnext⟩ := (Option.any_eq_true _ _).1 hplay
  obtain ⟨l, c', hrun, hstep, hholder, hl⟩ := play_step (Q := fun c l _ =>
    c.holder = some 0 ∧ l.thread ≠ none) hc hnext
  have hsteps : Steps 1 c c' := (Steps.zero c).succ hstep hl
  exact ⟨c, c', hholder, hsteps, (calls_return hrun hsteps).2.2⟩

/-! ### `check` never waits -/

/-- The operation neither waits for the lock nor for the network. -/
def NonBlocking : Event signature → Prop
  | .locked => False
  | .did (.request ..) _ => False
  | _ => True

theorem nonBlocking_renewInBackground (lic : License) :
    (renewInBackground lic).Uses NonBlocking := by
  unfold renewInBackground
  refine fun now => ⟨trivial, ?_⟩
  show Uses _ (if _ then _ else _)
  split_ifs
  · trivial
  · intro got
    cases got with
    | false => exact ⟨trivial, trivial⟩
    | true =>
      refine ⟨trivial, fun state => ⟨trivial, ?_⟩⟩
      show Uses _ (if _ then _ else _)
      split_ifs
      · exact ⟨trivial, trivial⟩
      · refine fun _ => ⟨trivial, fun started => ⟨trivial, ?_⟩⟩
        cases started with
        | true => exact ⟨trivial, trivial⟩
        | false => exact fun _ => ⟨trivial, trivial, trivial⟩
      · trivial

theorem nonBlocking_check : (check sdk).Uses NonBlocking := by
  have hload : (loadCache sdk).Uses NonBlocking := by
    unfold loadCache
    cases sdk.cachePath with
    | none => trivial
    | some path => exact fun _ => ⟨trivial, trivial⟩
  unfold check
  refine uses_bind hload fun cached => ?_
  cases cached with
  | none => trivial
  | some tc =>
    refine fun now => ⟨trivial, uses_bind_except (uses_orAbort _) (fun _ => trivial) ?_⟩
    refine fun license => uses_bind (uses_orAbort _) fun verdict => ?_
    refine uses_bind ?_ fun _ => ?_
    · split_ifs
      · exact nonBlocking_renewInBackground license
      · trivial
    · rcases verdict with e | u
      · cases e <;> trivial
      · exact fun _ => ⟨trivial, trivial⟩

/-- **A check never waits.**  Whatever the clones and the background renewals do, a check performs
ten operations at most, none of which waits for the lock or for the network, and until it has
returned its next step is possible now. -/
theorem check_never_waits {cache : Option (String × CertChain)} {newest : ℤ}
    {c : Config sdk.system} {i : ℕ} {th : Thread signature}
    (hrun : AnyRun (sdk.start cache newest) c) (hi : c.threads[i]? = some th)
    (hcheck : th.task = .check) :
    th.past.length ≤ 10 ∧ (∀ ev ∈ th.past, NonBlocking ev) ∧
      (th.prog.result? = none → ∃ l c', Step c l c' ∧ l.thread = some i) := by
  have hbody : (sdk.body .check).Uses NonBlocking :=
    uses_bind nonBlocking_check fun _ => trivial
  have hwithin : (sdk.body .check).Within (fun _ => 0) True 10 :=
    within_seq (within_check (n := 0) fun _ _ _ => le_refl 0) (fun _ => trivial)
      (le_refl (10 + 0))
  have hpaced : ∀ (i : ℕ) (th : Thread signature), c.threads[i]? = some th →
      th.task = .check → th.Paced NonBlocking 10 :=
    hrun.preserves (I := fun c => ∀ (i : ℕ) (th : Thread signature), c.threads[i]? = some th →
      th.task = .check → th.Paced NonBlocking 10)
      (fun _ _ _ hc hstep _ => paced_step hbody hwithin rfl hstep hc) (fun i th hi => by cases hi)
  have hth := hpaced i th hi hcheck
  refine ⟨hth.le, hth.past, fun hleft => ?_⟩
  -- the next operation of a check is none that waits for the lock
  have hwait : ∀ next, th.prog ≠ .lock next := by
    intro next hp
    have huses := hth.uses
    rw [hp] at huses
    exact huses.1
  exact (kept_of_run hrun).goes_on sdk.exists_admits (owed_of_run hrun) hi hleft (Or.inr hwait)

/-- A check that goes on while a renewal holds the lock. -/
theorem check_never_waits_sample : ∃ c : Config sampleSdk.system, c.holder = some 0 ∧
    ∃ l c', Step c l c' ∧ l.thread = some 1 := by
  have hplay : (play (fun _ _ _ => True) (sampleSdk.start (some ("h.t.4t", sampleChain)) 0)
      (.call (.renew "a" "KEY") :: sampleMoves 2 0 sampleNow (sampleReply 117) ++
        .call .check :: sampleMoves 3 1 (sampleNow + 3540) (sampleReply 117))).any
      (fun c => decide (c.holder = some 0) && c.threads[1]?.any fun th =>
        decide (th.task = .check) && th.prog.result?.isNone) = true := by decide +kernel
  obtain ⟨c, hc, hlast⟩ := (Option.any_eq_true _ _).1 hplay
  obtain ⟨hholder, hany⟩ := (Bool.and_eq_true_iff).1 hlast
  obtain ⟨th, hi, hth⟩ := (Option.any_eq_true _ _).1 hany
  obtain ⟨hcheck, hleft⟩ := (Bool.and_eq_true_iff).1 hth
  exact ⟨c, of_decide_eq_true hholder, (check_never_waits (play_run hc) hi
    (of_decide_eq_true hcheck)).2.2 (Option.isNone_iff_eq_none.1 hleft)⟩

/-! ### Sections under the lock -/

/-- Not a request. -/
def Local : Event signature → Prop
  | .did (.request ..) _ => False
  | _ => True

section
variable {limit : ℕ}

theorem brief_orAbort {ε α : Type} {x : Checked ε α} {Q : Option ℕ → Except ε α → Prop}
    {g : Option ℕ} (hq : ∀ r, Q g r) : (orAbort x).Brief Local limit Q g := by
  match x with
  | .ok a => exact hq _
  | .error (.err e) => exact hq _
  | .error .panic => cases g <;> trivial

/-- A program that goes on only if the one before it succeeded. -/
theorem brief_ok {ε α β : Type} {p : Act (Except ε α)} {f : Except ε α → Act β}
    {Q : Option ℕ → β → Prop} {g : Option ℕ}
    (hp : ∀ {R : Option ℕ → Except ε α → Prop}, (∀ r, R none r) → p.Brief Local limit R g)
    (hok : ∀ a, (f (.ok a)).Brief Local limit Q none)
    (herr : ∀ e, (f (.error e)).Brief Local limit Q none) : (p >>= f).Brief Local limit Q g := by
  refine brief_bind.2 (hp fun result => ?_)
  cases result with
  | ok a => exact hok a
  | error e => exact herr e

theorem brief_loadCache {Q : Option ℕ → Option (String × CertChain) → Prop}
    (hq : ∀ cached, Q none cached) : (loadCache sdk).Brief Local limit Q none := by
  unfold loadCache
  cases sdk.cachePath with
  | none => exact hq none
  | some path => exact brief_outside hq

theorem brief_holdsActivation {activationId : String} {m : ℕ} {Q : Option ℕ → Bool → Prop}
    (hq : ∀ n holds, m ≤ n → Q (some n) holds) :
    (holdsActivation sdk activationId).Brief Local limit Q (some (m + 2)) := by
  unfold holdsActivation loadCache
  refine brief_bind.2 ?_
  cases sdk.cachePath with
  | none => exact hq _ _ (by omega)
  | some path =>
    refine brief_inside (fun _ => trivial) fun cached => ?_
    cases cached with
    | none => exact hq _ _ (by omega)
    | some tc =>
      refine brief_bind.2 (brief_inside (fun _ => trivial) fun now => ?_)
      refine brief_bind.2 (brief_orAbort fun verdict => ?_)
      cases verdict with
      | error e => exact hq _ _ (le_refl m)
      | ok license => exact hq _ _ (le_refl m)

theorem brief_noteRenewal {T : Type} {activationId : String} {outcome : Except LatteError T}
    {m : ℕ} {Q : Option ℕ → Bool → Prop} (hq : ∀ n holds, m ≤ n → Q (some n) holds) :
    (noteRenewal sdk activationId outcome).Brief Local limit Q (some (m + 3)) := by
  unfold noteRenewal
  refine brief_bind.2 (brief_holdsActivation fun n holds hn => ?_)
  obtain ⟨k, rfl⟩ := Nat.exists_eq_add_of_le hn
  rw [show m + 1 + k = m + k + 1 by omega]
  exact brief_bind.2 (brief_inside (fun _ => trivial) fun _ => hq _ _ (by omega))

theorem brief_saveToCache {token : String} {chain : CertChain} {Q : Option ℕ → Unit → Prop}
    (hq : Q none ()) : (saveToCache sdk token chain).Brief Local 5 Q none := by
  unfold saveToCache
  refine brief_bind.2 (brief_acquire (brief_bind.2 (brief_inside (fun _ => trivial) fun _ => ?_)))
  cases sdk.cachePath with
  | none => exact brief_release hq
  | some path => exact brief_bind.2 (brief_inside (fun _ => trivial) fun _ => brief_release hq)

theorem brief_clearCache {Q : Option ℕ → Unit → Prop} (hq : Q none ()) :
    (clearCache sdk).Brief Local 5 Q none := by
  unfold clearCache
  refine brief_bind.2 (brief_acquire (brief_bind.2 (brief_inside (fun _ => trivial) fun _ => ?_)))
  cases sdk.cachePath with
  | none => exact brief_release hq
  | some path => exact brief_bind.2 (brief_inside (fun _ => trivial) fun _ => brief_release hq)

theorem brief_call {T : Type} {client : Client} {path : String} {body : Body}
    {decode : Bytes → Except String T} {Q : Option ℕ → Except LatteError T → Prop}
    (hq : ∀ r, Q none r) : (call sdk client path body decode).Brief Local limit Q none :=
  brief_bind.2 (brief_outside fun _ => hq _)

theorem brief_post {client : Client} {path : String} {body : Body}
    {Q : Option ℕ → Except LatteError (String × CertChain) → Prop} (hq : ∀ r, Q none r) :
    (post sdk client path body).Brief Local limit Q none :=
  brief_ok brief_call (fun _ => hq _) (fun _ => hq _)

theorem brief_postAndHandleInvalidation {path : String} {body : Body}
    {Q : Option ℕ → Except LatteError (String × CertChain) → Prop} (hq : ∀ r, Q none r) :
    (postAndHandleInvalidation sdk path body).Brief Local 5 Q none := by
  unfold postAndHandleInvalidation
  refine brief_ok brief_post (fun _ => hq _) fun e => ?_
  simp only
  split_ifs
  · exact brief_bind.2 (brief_clearCache (hq _))
  · exact hq _

theorem brief_verifyAndValidate {token : String} {chain : CertChain}
    {Q : Option ℕ → Except LatteError PublicLicense → Prop} (hq : ∀ r, Q none r) :
    (verifyAndValidate sdk token chain).Brief Local limit Q none := by
  unfold verifyAndValidate
  refine brief_bind.2 (brief_outside fun now => ?_)
  exact brief_ok brief_orAbort (fun _ => hq _) (fun _ => hq _)

theorem brief_cachedLicense {Q : Option ℕ → Option (PublicLicense × String) → Prop}
    (hq : ∀ r, Q none r) : (cachedLicense sdk).Brief Local limit Q none := by
  unfold cachedLicense
  refine brief_bind.2 (brief_loadCache fun cached => ?_)
  cases cached with
  | none => exact hq _
  | some tc =>
    refine brief_bind.2 (brief_outside fun now => ?_)
    refine brief_ok brief_orAbort (fun license => ?_) (fun _ => hq _)
    refine brief_ok brief_orAbort (fun _ => ?_) (fun _ => hq _)
    exact brief_bind.2 (brief_outside fun _ => hq _)

theorem brief_activate {licenseKey : String}
    {Q : Option ℕ → Except LatteError PublicLicense → Prop} (hq : ∀ r, Q none r) :
    (activate sdk licenseKey).Brief Local 5 Q none := by
  have honline : ∀ normalized, (activateOnline sdk normalized).Brief Local 5 Q none := by
    intro normalized
    unfold activateOnline
    refine brief_ok brief_postAndHandleInvalidation (fun tc => ?_) (fun _ => hq _)
    refine brief_ok brief_verifyAndValidate (fun lic => ?_) (fun _ => hq _)
    exact brief_bind.2 (brief_saveToCache (hq _))
  unfold activate
  simp only
  cases validateLicenseKey (normalizeKey P.toUppercase licenseKey) with
  | error e => exact hq _
  | ok u =>
    refine brief_bind.2 (brief_cachedLicense fun cached => ?_)
    cases cached with
    | none => exact honline _
    | some found =>
      obtain ⟨lic, aliasKey⟩ := found
      simp only
      split_ifs
      · exact hq _
      · exact honline _

theorem brief_renew {activationId licenseKey : String}
    {Q : Option ℕ → Except LatteError PublicLicense → Prop} (hq : ∀ r, Q none r) :
    (renew sdk activationId licenseKey).Brief Local 5 Q none := by
  unfold renew
  refine brief_bind.2 (brief_outside fun now => brief_bind.2 (brief_acquire ?_))
  refine brief_bind.2 (brief_inside (fun _ => trivial) fun state => ?_)
  refine brief_bind.2 (brief_inside (fun _ => trivial) fun _ => brief_bind.2 (brief_release ?_))
  refine brief_bind.2 (brief_postAndHandleInvalidation fun result => ?_)
  refine brief_bind.2 (brief_acquire (brief_bind.2 (brief_noteRenewal fun n _ _ => ?_)))
  refine brief_bind.2 (brief_release ?_)
  cases result with
  | error e => exact hq _
  | ok tc =>
    refine brief_ok brief_verifyAndValidate (fun lic => ?_) (fun _ => hq _)
    exact brief_bind.2 (brief_saveToCache (hq _))

theorem brief_deactivate {activationId licenseKey : String}
    {Q : Option ℕ → Except LatteError DeactivateResult → Prop} (hq : ∀ r, Q none r) :
    (deactivate sdk activationId licenseKey).Brief Local 5 Q none := by
  unfold deactivate
  refine brief_ok brief_call (fun result => ?_) (fun _ => hq _)
  exact brief_bind.2 (brief_clearCache (hq _))

theorem brief_dropInFlight {attempt : ℕ} {Q : Option ℕ → Unit → Prop} (hq : Q none ()) :
    (dropInFlight attempt).Brief Local 5 Q none := by
  unfold dropInFlight
  refine brief_bind.2 (brief_acquire (brief_bind.2 (brief_inside (fun _ => trivial) fun s => ?_)))
  split_ifs
  · exact brief_bind.2 (brief_inside (fun _ => trivial) fun _ => brief_release hq)
  · exact brief_release hq

theorem brief_storeRenewed {renewed : Except LatteError (String × CertChain)} {m : ℕ}
    {Q : Option ℕ → Unit → Prop} (hq : Q none ()) :
    (storeRenewed renewed).Brief Local limit Q (some (m + 1)) := by
  unfold storeRenewed
  cases renewed with
  | ok tc => exact brief_bind.2 (brief_inside (fun _ => trivial) fun _ => brief_release hq)
  | error e =>
    simp only
    split_ifs
    · exact brief_bind.2 (brief_inside (fun _ => trivial) fun _ => brief_release hq)
    · exact brief_release hq

theorem brief_renewAndStore {attempt : ℕ} {activationId licenseKey : String}
    {Q : Option ℕ → Unit → Prop} (hq : Q none ()) :
    (renewAndStore sdk attempt activationId licenseKey).Brief Local 5 Q none := by
  unfold renewAndStore
  refine brief_bind.2 ?_
  have hpost : ∀ {R : Option ℕ → Except LatteError (String × CertChain) → Prop},
      (∀ r, R none r) →
        (postVerified sdk activationId licenseKey).Brief Local 5 R none := by
    intro R hr
    unfold postVerified
    refine brief_ok brief_post (fun tc => ?_) (fun _ => hr _)
    exact brief_ok brief_verifyAndValidate (fun _ => hr _) (fun _ => hr _)
  refine hpost fun renewed => brief_bind.2 (brief_acquire ?_)
  refine brief_bind.2 (brief_inside (fun _ => trivial) fun state => ?_)
  split_ifs
  · exact brief_bind.2 (brief_release (brief_dropInFlight hq))
  · refine brief_bind.2 (brief_noteRenewal fun n holds hn => ?_)
    split_ifs
    · obtain ⟨k, rfl⟩ := Nat.exists_eq_add_of_le hn
      rw [show 1 + k = k + 1 by omega]
      exact brief_bind.2 (brief_storeRenewed (brief_dropInFlight hq))
    · exact brief_bind.2 (brief_release (brief_dropInFlight hq))

theorem brief_renewInBackground {lic : License} {Q : Option ℕ → Unit → Prop} (hq : Q none ()) :
    (renewInBackground lic).Brief Local 5 Q none := by
  unfold renewInBackground
  refine brief_bind.2 (brief_outside fun now => ?_)
  split_ifs
  · exact hq
  · refine brief_bind.2 (brief_tryAcquire ?_ hq)
    refine brief_bind.2 (brief_inside (fun _ => trivial) fun state => ?_)
    simp only
    split_ifs
    · exact brief_release hq
    · refine brief_bind.2 (brief_inside (fun _ => trivial) fun _ => ?_)
      refine brief_bind.2 (brief_start (fun _ => trivial) fun started => ?_)
      cases started with
      | true => exact brief_release hq
      | false => exact brief_bind.2 (brief_inside (fun _ => trivial) fun _ => brief_release hq)
    · trivial

theorem brief_check {Q : Option ℕ → Except LatteError PublicLicense → Prop}
    (hq : ∀ r, Q none r) : (check sdk).Brief Local 5 Q none := by
  unfold check
  refine brief_bind.2 (brief_loadCache fun cached => ?_)
  cases cached with
  | none => exact hq _
  | some tc =>
    refine brief_bind.2 (brief_outside fun now => ?_)
    refine brief_ok brief_orAbort (fun license => ?_) (fun _ => hq _)
    refine brief_bind.2 (brief_orAbort fun verdict => ?_)
    have hrest : ∀ {R : Option ℕ → Unit → Prop}, R none () →
        (if license.machineId = sdk.machineId ∧ license.activationId ≠ "" ∧ license.key ≠ "" then
          renewInBackground license else .ret ()).Brief Local 5 R none := by
      intro R hr
      split_ifs
      · exact brief_renewInBackground hr
      · exact hr
    refine brief_bind.2 (hrest ?_)
    rcases verdict with e | u
    · cases e <;> exact hq _
    · exact brief_bind.2 (brief_outside fun _ => hq _)

end

theorem Sdk.brief_tasks (sdk : Sdk P) : BriefTasks sdk.system Local 5 where
  body t := by
    show (sdk.body t).Brief Local 5 _ none
    cases t with
    | activate licenseKey => exact brief_bind.2 (brief_activate fun _ => rfl)
    | renew activationId licenseKey => exact brief_bind.2 (brief_renew fun _ => rfl)
    | deactivate activationId licenseKey => exact brief_bind.2 (brief_deactivate fun _ => rfl)
    | machines activationId licenseKey => exact brief_bind.2 (brief_call fun _ => rfl)
    | renameMachine activationId licenseKey name => exact brief_bind.2 (brief_call fun _ => rfl)
    | check => exact brief_bind.2 (brief_check fun _ => rfl)
    | background attempt activationId licenseKey => exact brief_bind.2 (brief_renewAndStore rfl)
  handler t := by
    show (handler t).Brief Local 5 _ none
    cases t with
    | background attempt activationId licenseKey => exact brief_bind.2 (brief_dropInFlight rfl)
    | _ => rfl

/-- **The lock is never held for long, nor across a request.**  The thread that holds it has
performed five operations at most since it took it, and none of them was a request. -/
theorem lock_sections {cache : Option (String × CertChain)} {newest : ℤ}
    {c : Config sdk.system} {i : ℕ} (hrun : AnyRun (sdk.start cache newest) c)
    (hholder : c.holder = some i) :
    ∃ th sec, c.threads[i]? = some th ∧ lockedPast th.past = some sec ∧ sec.length ≤ 5 ∧
      ∀ ev ∈ sec, Local ev := by
  have htimely : sdk.contract.Kept c ∧ ∀ (i : ℕ) (th : Thread signature),
      c.threads[i]? = some th → Timely Local 5 (c.holder = some i) th :=
    hrun.preserves (I := fun c => sdk.contract.Kept c ∧ ∀ (i : ℕ) (th : Thread signature),
      c.threads[i]? = some th → Timely Local 5 (c.holder = some i) th)
      (fun _ _ _ hc hstep _ =>
        ⟨hc.1.step sdk.sound hstep, timely_step sdk.brief_tasks hc.1 hstep hc.2⟩)
      ⟨Contract.Kept.init (invariant_new cache), fun i th hi => by cases hi⟩
  have hi := List.getElem?_eq_getElem (htimely.1.holder i hholder)
  obtain ⟨sec, m, hsec, hlen, hlocal, -⟩ := (htimely.2 i _ hi).inside hholder
  exact ⟨_, sec, hi, hsec, by omega, hlocal⟩

/-- A renewal that has recorded its attempt and still holds the lock. -/
theorem lock_sections_sample : ∃ (c : Config sampleSdk.system) (th : Thread signature)
    (sec : Past signature), c.holder = some 0 ∧ c.threads[0]? = some th ∧
      lockedPast th.past = some sec ∧ sec.length ≤ 5 ∧ ∀ ev ∈ sec, Local ev := by
  have hplay : (play (fun _ _ _ => True) (sampleSdk.start (some ("h.t.4t", sampleChain)) 0)
      (.call (.renew "a" "KEY") :: sampleMoves 4 0 sampleNow (sampleReply 117))).any
      (fun c => decide (c.holder = some 0)) = true := by decide +kernel
  obtain ⟨c, hc, hlast⟩ := (Option.any_eq_true _ _).1 hplay
  have hholder := of_decide_eq_true hlast
  obtain ⟨th, sec, hsec⟩ := lock_sections (play_run hc) hholder
  exact ⟨c, th, sec, hholder, hsec⟩

end LatteRs
