import LatteRs.Concurrent.Sequential
import LatteRs.CacheWrites

/-!
# Calls that run alone while nothing around them changes

The clock stands still, every request gets the same reply and the file
operations succeed.  What a call returns and leaves is then a function of the
state it starts in, and `steady_iff` says that it is what the runs of the
system are.

* `Sdk.steady`, `Sdk.alone`, `steady_iff`;
* `Untouched`, and the programs that only look: `exec_loadCache`,
  `exec_verifyAndValidate`, `exec_holdsActivation`, `exec_cachedLicense`;
* `sent_exec`: a request that was sent stays sent.
-/

namespace LatteRs

open Concurrent Act Program

variable {P : Platform} {sdk : Sdk P}

/-- The clock reads `now`, the server sends `reply`, the file system works, and threads can be
started or not. -/
def Sdk.steady (sdk : Sdk P) (now : SystemTime) (reply : Reply) (starts : Bool) :
    Surroundings sdk.system where
  oracle
    | .clock, _, _ => now
    | .request .., _, newest => ⟨(replyDate P reply).getD newest, reply⟩
    | .load, s, _ => s.cache
    | .save .., _, _ => true
    | .clear, _, _ => true
    | .getRenewal, s, _ => s.renewal
    | .setRenewal _, _, _ => ()
    | .loadFlag, s, _ => s.renewalFailed
    | .storeFlag _, _, _ => ()
    | .noteFlag .., _, _ => ()
  starts := starts

variable {now : SystemTime} {reply : Reply} {starts : Bool}

theorem steady_admits (e : Effect) (s : Shared) (newest : ℤ) :
    sdk.system.admits e s newest ((sdk.steady now reply starts).oracle e s newest) := by
  cases e with
  | load => exact Or.inl rfl
  | request client url body => rfl
  | getRenewal => rfl
  | loadFlag => rfl
  | _ => trivial

/-- What a call that runs alone in a state returns and leaves. -/
abbrev Sdk.alone (sdk : Sdk P) (now : SystemTime) (reply : Reply) (starts : Bool) (t : Task)
    (s : Shared) (newest : ℤ) : Option Outcome × Solo sdk.system :=
  sdk.system.alone (sdk.steady now reply starts) t s newest

/-- **What a call that runs alone does.**  In any configuration that is reached and in which no
thread holds the lock, the runs of a further call to its return are what `Sdk.alone` computes. -/
theorem steady_iff {cache : Option (String × CertChain)} {newest : ℤ} {c : Config sdk.system}
    (hrun : AnyRun (sdk.start cache newest) c) (hfree : c.holder = none) {t : Task}
    {out : Outcome} {z : Solo sdk.system} :
    (∃ c' th', Run (Follows (sdk.steady now reply starts) c.threads.length) (c.spawn t) c' ∧
      c'.threads[c.threads.length]? = some th' ∧ th'.prog = .ret out ∧ c'.solo th' = z) ↔
      sdk.alone now reply starts t c.shared c.world = (some out, z) :=
  alone_iff sdk.sound (fun e s w => steady_admits e s w) (kept_of_run hrun) hfree

/-- A call whose method returns. -/
theorem alone_returns {α : Type} {t : Task} {p : Act α} (out : α → Outcome)
    (hbody : sdk.body t = p >>= fun a => ret (out a)) {s : Shared} {newest : ℤ} {a : α}
    {z : Solo sdk.system}
    (h : p.exec (sdk.steady now reply starts) ⟨[], s, newest⟩ = (some a, z)) :
    sdk.alone now reply starts t s newest = (some (out a), z) := by
  refine alone_of_some ?_
  show (sdk.body t).exec _ _ = _
  rw [hbody, exec_bind_of_some h]
  rfl

/-- A call whose method panics. -/
theorem alone_panics {α : Type} {t : Task} {p : Act α} (out : α → Outcome)
    (hbody : sdk.body t = p >>= fun a => ret (out a)) {s : Shared} {newest : ℤ}
    {z : Solo sdk.system}
    (h : p.exec (sdk.steady now reply starts) ⟨[], s, newest⟩ = (none, z)) :
    sdk.alone now reply starts t s newest =
      (handler t).exec (sdk.steady now reply starts) z := by
  refine alone_of_none ?_
  show (sdk.body t).exec _ _ = _
  rw [hbody, exec_bind_of_none h]

/-! ### Single operations -/

section
variable (z : Solo sdk.system)

theorem exec_clock : clock.exec (sdk.steady now reply starts) z =
    (some now, z.did .clock now) := rfl

theorem exec_loadFlag : loadFlag.exec (sdk.steady now reply starts) z =
    (some z.shared.renewalFailed, z.did .loadFlag z.shared.renewalFailed) := rfl

theorem exec_getRenewal : getRenewal.exec (sdk.steady now reply starts) z =
    (some z.shared.renewal, z.did .getRenewal z.shared.renewal) := rfl

theorem exec_setRenewal (state : Renewal) :
    (setRenewal state).exec (sdk.steady now reply starts) z =
      (some (), z.did (.setRenewal state) ()) := rfl

theorem exec_noteFlag (activationId : String) (network failed : Bool) :
    (noteFlag activationId network failed).exec (sdk.steady now reply starts) z =
      (some (), z.did (.noteFlag activationId network failed) ()) := rfl

theorem exec_acquire : (acquire (S := signature)).exec (sdk.steady now reply starts) z =
    (some (), z.saw .locked) := rfl

theorem exec_tryAcquire : (tryAcquire (S := signature)).exec (sdk.steady now reply starts) z =
    (some true, z.saw (.triedLock true)) := rfl

theorem exec_release : (release (S := signature)).exec (sdk.steady now reply starts) z =
    (some (), z.saw .unlocked) := rfl

theorem exec_start (t : Task) : (start (S := signature) t).exec (sdk.steady now reply starts) z =
    (some starts, z.forked t starts) := rfl

end

/-! ### Programs that only look -/

/-- A program that left everything as it was and sent nothing. -/
structure Untouched (z z' : Solo sdk.system) : Prop where
  shared : z'.shared = z.shared
  world : z'.world = z.world
  sent : sent z'.past = sent z.past

theorem Untouched.refl (z : Solo sdk.system) : Untouched z z := ⟨rfl, rfl, rfl⟩

theorem Untouched.trans {z z₁ z₂ : Solo sdk.system} (h₁ : Untouched z z₁) (h₂ : Untouched z₁ z₂) :
    Untouched z z₂ where
  shared := h₂.shared.trans h₁.shared
  world := h₂.world.trans h₁.world
  sent := h₂.sent.trans h₁.sent

theorem untouched_clock (now : SystemTime) (z : Solo sdk.system) :
    Untouched z (z.did .clock now) := ⟨rfl, rfl, rfl⟩

theorem untouched_loadFlag (z : Solo sdk.system) (failed : Bool) :
    Untouched z (z.did .loadFlag failed) := ⟨rfl, rfl, rfl⟩

/-- What `loadCache` finds. -/
def Sdk.cached (sdk : Sdk P) (s : Shared) : Option (String × CertChain) :=
  match sdk.cachePath with
  | none => none
  | some _ => s.cache

theorem cached_eq_some {s : Shared} {token : String} {chain : CertChain} :
    sdk.cached s = some (token, chain) ↔
      sdk.cachePath ≠ none ∧ s.cache = some (token, chain) := by
  unfold Sdk.cached
  cases sdk.cachePath with
  | none => simp
  | some path => simp

variable (now reply starts) in
theorem exec_loadCache (z : Solo sdk.system) : ∃ z',
    (loadCache sdk).exec (sdk.steady now reply starts) z = (some (sdk.cached z.shared), z') ∧
      Untouched z z' := by
  unfold loadCache Sdk.cached
  cases sdk.cachePath with
  | none => exact ⟨z, rfl, .refl z⟩
  | some path => exact ⟨z.did .load z.shared.cache, rfl, rfl, rfl, rfl⟩

/-- What becomes of a computation in a method, `none` for a panic. -/
def settle {ε α : Type} : Checked ε α → Option (Except ε α)
  | .ok a => some (.ok a)
  | .error (.err e) => some (.error e)
  | .error .panic => none

theorem settle_eq_ok {ε α : Type} {x : Checked ε α} {a : α} :
    settle x = some (.ok a) ↔ x = .ok a := by
  match x with
  | .ok b => simp [settle]
  | .error (.err e) => simp [settle]
  | .error .panic => simp [settle]

theorem settle_eq_none {ε α : Type} {x : Checked ε α} : settle x = none ↔ x = .error .panic := by
  match x with
  | .ok b => simp [settle]
  | .error (.err e) => simp [settle]
  | .error .panic => simp [settle]

theorem settle_eq_error {ε α : Type} {x : Checked ε α} {e : ε} :
    settle x = some (.error e) ↔ x = .error (.err e) := by
  match x with
  | .ok b => simp [settle]
  | .error (.err e) => simp [settle]
  | .error .panic => simp [settle]

theorem exec_orAbort {ε α : Type} (env : Surroundings sdk.system) (x : Checked ε α)
    (z : Solo sdk.system) : (orAbort x).exec env z = (settle x, z) := by
  match x with
  | .ok a => rfl
  | .error (.err e) => rfl
  | .error .panic => rfl

/-- A program that goes on with a computation in a method. -/
theorem exec_orAbort_bind {ε α β : Type} {env : Surroundings sdk.system} {x : Checked ε α}
    {f : Except ε α → Act β} {z : Solo sdk.system} {r : Except ε α} (h : settle x = some r) :
    (orAbort x >>= f).exec env z = (f r).exec env z :=
  exec_bind_of_some (by rw [exec_orAbort, h])

theorem exec_orAbort_panic {ε α β : Type} {env : Surroundings sdk.system} {x : Checked ε α}
    {f : Except ε α → Act β} {z : Solo sdk.system} (h : settle x = none) :
    (orAbort x >>= f).exec env z = (none, z) :=
  exec_bind_of_none (by rw [exec_orAbort, h])

/-- The outcome of `verifyAndValidate`. -/
def Sdk.verdict (sdk : Sdk P) (token : String) (chain : CertChain) (now : SystemTime) :
    Option (Except LatteError PublicLicense) :=
  match settle (checkLicenseAnyAtWithRenewalFailed P.toCrypto sdk.masterPubs token chain
      sdk.machineId now false) with
  | none => none
  | some (.error e) => some (.error (.server s!"server returned invalid token: {e.display}"))
  | some (.ok lic) => some (.ok lic)

variable (now reply starts) in
theorem exec_verifyAndValidate (token : String) (chain : CertChain) (z : Solo sdk.system) :
    ∃ z', (verifyAndValidate sdk token chain).exec (sdk.steady now reply starts) z =
      (sdk.verdict token chain now, z') ∧ Untouched z z' := by
  refine ⟨z.did .clock now, ?_, untouched_clock now z⟩
  unfold verifyAndValidate Sdk.verdict
  rw [exec_bind_of_some (exec_clock z)]
  rcases hcheck : settle (checkLicenseAnyAtWithRenewalFailed P.toCrypto sdk.masterPubs token chain
      sdk.machineId now false) with _ | ⟨e | lic⟩
  · exact exec_orAbort_panic hcheck
  · exact exec_orAbort_bind hcheck
  · exact exec_orAbort_bind hcheck

variable (reply starts) in
/-- Whether a cache content holds a token for `activationId` that verifies at `now`. -/
theorem exec_holdsActivation {activationId : String} {z : Solo sdk.system}
    (hcached : ∀ token chain, sdk.cached z.shared = some (token, chain) → ∃ license,
      verifyActivationAnyAt P.toCrypto sdk.masterPubs token chain now = .ok license ∧
        license.activationId = activationId) :
    ∃ z', (holdsActivation sdk activationId).exec (sdk.steady now reply starts) z =
      (some (sdk.cached z.shared).isSome, z') ∧ Untouched z z' := by
  obtain ⟨z₁, hload, hq₁⟩ := exec_loadCache now reply starts z
  unfold holdsActivation
  rw [exec_bind_of_some hload]
  rcases hfound : sdk.cached z.shared with _ | ⟨token, chain⟩
  · exact ⟨z₁, rfl, hq₁⟩
  · obtain ⟨license, hverify, haid⟩ := hcached token chain hfound
    refine ⟨z₁.did .clock now, ?_, hq₁.trans (untouched_clock now z₁)⟩
    simp only
    rw [exec_bind_of_some (exec_clock z₁), exec_orAbort_bind (settle_eq_ok.2 hverify)]
    simp [exec, haid]

/-- The licence that `cachedLicense` finds, with its alias. -/
def Sdk.Finds (sdk : Sdk P) (s : Shared) (now : SystemTime) (lic : PublicLicense)
    (aliasKey : String) : Prop :=
  ∃ token chain license, sdk.cached s = some (token, chain) ∧
    verifyActivationAnyAt P.toCrypto sdk.masterPubs token chain now = .ok license ∧
    validateAt license sdk.machineId now = .ok () ∧
    lic = toPublicLicense license (inGracePeriod license now s.renewalFailed) ∧
    aliasKey = license.aliasKey

variable (now reply starts) in
theorem exec_cachedLicense (z : Solo sdk.system) : ∃ found z',
    (cachedLicense sdk).exec (sdk.steady now reply starts) z = (found, z') ∧ Untouched z z' ∧
      ∀ lic aliasKey, found = some (some (lic, aliasKey)) ↔
        sdk.Finds z.shared now lic aliasKey := by
  obtain ⟨z₁, hload, hq₁⟩ := exec_loadCache now reply starts z
  unfold cachedLicense Sdk.Finds
  rw [exec_bind_of_some hload]
  rcases hfound : sdk.cached z.shared with _ | ⟨token, chain⟩
  · exact ⟨_, z₁, rfl, hq₁, by simp⟩
  have hq₂ := hq₁.trans (untouched_clock now z₁)
  simp only
  rw [exec_bind_of_some (exec_clock z₁)]
  rcases hverify : settle (verifyActivationAnyAt P.toCrypto sdk.masterPubs token chain now)
    with _ | ⟨e | license⟩
  · refine ⟨_, _, exec_orAbort_panic hverify, hq₂, ?_⟩
    simp [settle_eq_none.1 hverify]
  · refine ⟨_, _, exec_orAbort_bind hverify, hq₂, ?_⟩
    simp [settle_eq_error.1 hverify, exec]
  rw [exec_orAbort_bind hverify]
  have hok := settle_eq_ok.1 hverify
  rcases hvalidate : settle (validateAt license sdk.machineId now) with _ | ⟨e | ⟨⟩⟩
  · refine ⟨_, _, exec_orAbort_panic hvalidate, hq₂, ?_⟩
    simp [hok, settle_eq_none.1 hvalidate]
  · refine ⟨_, _, exec_orAbort_bind hvalidate, hq₂, ?_⟩
    simp [hok, settle_eq_error.1 hvalidate, exec]
  · refine ⟨some (some (toPublicLicense license (inGracePeriod license now
      z₁.shared.renewalFailed), license.aliasKey)), _, ?_,
      hq₂.trans (untouched_loadFlag _ z₁.shared.renewalFailed), fun lic aliasKey => ?_⟩
    · rw [exec_orAbort_bind hvalidate, exec_bind_of_some (exec_loadFlag _)]
      rfl
    · rw [hq₁.shared]
      simp [hok, settle_eq_ok.1 hvalidate, eq_comm]

/-! ### Requests -/

/-- A request that was sent stays sent. -/
theorem sent_exec {α : Type} {env : Surroundings sdk.system} (p : Act α) {z : Solo sdk.system}
    (hz : sent z.past ≠ none) : sent (p.exec env z).2.past ≠ none := by
  have later : ∀ {h : Past signature} (ev : Event signature), sent h ≠ none →
      sent (ev :: h) ≠ none := by
    intro h ev hh
    cases ev with
    | did e r => cases e <;> first | exact hh | exact Option.some_ne_none _
    | _ => exact hh
  induction p generalizing z with
  | ret a => exact hz
  | act e next ih => exact ih _ (later _ hz)
  | lock next ih => exact ih (later _ hz)
  | tryLock next ih => exact ih true (later _ hz)
  | unlock next ih => exact ih (later _ hz)
  | fork t next ih => exact ih _ (later _ hz)
  | abort => exact hz

/-- A program that starts with one that sends a request sends it. -/
theorem sent_exec_bind {α β : Type} {env : Surroundings sdk.system} {p : Act α} {f : α → Act β}
    {z : Solo sdk.system} (hp : sent (p.exec env z).2.past ≠ none) :
    sent ((p >>= f).exec env z).2.past ≠ none := by
  rcases hexec : p.exec env z with ⟨_ | a, z'⟩
  · rw [exec_bind_of_none hexec]
    rwa [hexec] at hp
  · rw [exec_bind_of_some hexec]
    rw [hexec] at hp
    exact sent_exec _ hp

theorem sent_activateOnline (env : Surroundings sdk.system) (normalized : String)
    (z : Solo sdk.system) : sent ((activateOnline sdk normalized).exec env z).2.past ≠ none := by
  have hcall : sent ((call sdk .http "/v1/activate"
      (.activate ⟨sdk.appId, normalized, sdk.machineId, sdk.machineName, sdkInfo⟩)
      P.tokenResponse).exec env z).2.past ≠ none := by
    intro hnone
    cases hnone
  exact sent_exec_bind (sent_exec_bind (sent_exec_bind hcall))

end LatteRs
