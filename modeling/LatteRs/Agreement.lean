import LatteRs.Steady

/-!
# Manual and background renewals

`renew` and `renew_and_store` are written separately: the first drops the cache
before it records the outcome and verifies the token after it, the second
verifies first and folds the failure into the outcome.  On one state and one
reply they leave the same cache and the same flag, except that a check of the
new token that panics leaves the flag of a background renewal as it was.

* `Sdk.renewalLeaves`: the cache and the flag after a renewal;
* `renew_leaves`, `background_leaves`: what the two leave;
* `renewals_agree_iff`, and `renewals_disagree` with a token at the end of time.
-/

namespace LatteRs

open Concurrent Act Program

/-- The cache and the flag. -/
def Shared.kept (s : Shared) : Option (String × CertChain) × Bool := (s.cache, s.renewalFailed)

variable {P : Platform} {sdk : Sdk P} {now : SystemTime} {reply : Reply} {starts : Bool}

/-- The cache and the flag after a renewal that gets `reply`, when the cache held `cached`. -/
def Sdk.renewalLeaves (sdk : Sdk P) (now : SystemTime) (reply : Reply)
    (cached : Option (String × CertChain)) : Option (String × CertChain) × Bool :=
  match readToken P "/v1/renew" reply with
  | .error e =>
    if e.invalidates then (none, false)
    else (cached, isNetwork (.error e : Except LatteError (String × CertChain)))
  | .ok (token, chain) =>
    match checkLicenseAnyAtWithRenewalFailed P.toCrypto sdk.masterPubs token chain sdk.machineId
        now false with
    | .ok _ => (some (token, chain), false)
    | .error _ => (cached, false)

/-! ### The parts of a renewal -/

variable (now reply starts) in
theorem exec_post (client : Client) (path : String) (body : Body) (z : Solo sdk.system) :
    ∃ z', (post sdk client path body).exec (sdk.steady now reply starts) z =
      (some (readToken P path reply), z') ∧ z'.shared = z.shared := by
  refine ⟨z.did (.request client (sdk.baseUrl ++ path) body)
    ⟨(replyDate P reply).getD z.world, reply⟩, ?_, rfl⟩
  have hcall : (call sdk client path body P.tokenResponse).exec (sdk.steady now reply starts) z =
      (some (readReply P path P.tokenResponse reply),
        z.did (.request client (sdk.baseUrl ++ path) body)
          ⟨(replyDate P reply).getD z.world, reply⟩) := rfl
  unfold post readToken
  rw [exec_bind_of_some hcall]
  cases readReply P path P.tokenResponse reply with
  | error e => rfl
  | ok result => rfl

variable (now reply starts) in
theorem exec_clearCache (hpath : sdk.cachePath ≠ none) (z : Solo sdk.system) :
    ∃ z', (clearCache sdk).exec (sdk.steady now reply starts) z = (some (), z') ∧
      z'.shared = { z.shared with cache := none, renewalFailed := false } := by
  obtain ⟨path, hpath⟩ := Option.ne_none_iff_exists'.1 hpath
  unfold clearCache
  rw [hpath]
  exact ⟨_, rfl, rfl⟩

variable (now reply starts) in
theorem exec_saveToCache (hpath : sdk.cachePath ≠ none) (token : String) (chain : CertChain)
    (z : Solo sdk.system) :
    ∃ z', (saveToCache sdk token chain).exec (sdk.steady now reply starts) z = (some (), z') ∧
      z'.shared = { z.shared with cache := some (token, chain), renewalFailed := false } := by
  obtain ⟨path, hpath⟩ := Option.ne_none_iff_exists'.1 hpath
  unfold saveToCache
  rw [hpath]
  exact ⟨_, rfl, rfl⟩

/-- The shared state after the reply to a manual renewal, before its outcome is recorded. -/
def Shared.afterReply (s : Shared) (outcome : Except LatteError (String × CertChain)) : Shared :=
  match outcome with
  | .ok _ => s
  | .error e => if e.invalidates then { s with cache := none, renewalFailed := false } else s

variable (now reply starts) in
theorem exec_postAndHandleInvalidation (hpath : sdk.cachePath ≠ none) (path : String) (body : Body)
    (z : Solo sdk.system) :
    ∃ z', (postAndHandleInvalidation sdk path body).exec (sdk.steady now reply starts) z =
      (some (readToken P path reply), z') ∧
      z'.shared = z.shared.afterReply (readToken P path reply) := by
  obtain ⟨z₁, hpost, hz₁⟩ := exec_post now reply starts .http path body z
  unfold postAndHandleInvalidation Shared.afterReply
  rw [exec_bind_of_some hpost]
  cases readToken P path reply with
  | ok tc => exact ⟨z₁, rfl, hz₁⟩
  | error e =>
    cases he : e.invalidates with
    | false => exact ⟨z₁, by simp [he, exec], by simp [hz₁, he]⟩
    | true =>
      obtain ⟨z₂, hclear, hz₂⟩ := exec_clearCache now reply starts hpath z₁
      refine ⟨z₂, ?_, by simp [hz₂, hz₁, he]⟩
      simp only [he, if_true]
      rw [exec_bind_of_some hclear]
      rfl

variable (reply starts) in
/-- Recording the outcome of a renewal of the cached activation. -/
theorem exec_noteRenewal {T : Type} {activationId : String} (outcome : Except LatteError T)
    {z : Solo sdk.system}
    (hcached : ∀ token chain, sdk.cached z.shared = some (token, chain) → ∃ license,
      verifyActivationAnyAt P.toCrypto sdk.masterPubs token chain now = .ok license ∧
        license.activationId = activationId) :
    ∃ z', (noteRenewal sdk activationId outcome).exec (sdk.steady now reply starts) z =
      (some (sdk.cached z.shared).isSome, z') ∧
      z'.shared = { z.shared with
        renewalFailed := isNetwork outcome && (sdk.cached z.shared).isSome } := by
  obtain ⟨z₁, hholds, hq⟩ := exec_holdsActivation reply starts hcached
  unfold noteRenewal
  rw [exec_bind_of_some hholds, exec_bind_of_some (exec_noteFlag _ _ _ _)]
  exact ⟨_, rfl, congrArg (fun s : Shared => { s with
    renewalFailed := isNetwork outcome && (sdk.cached z.shared).isSome }) hq.shared⟩

/-! ### What the two renewals leave -/

variable {activationId licenseKey : String}

/-- The cache is one that is used, and its activation is known when an outcome is recorded. -/
theorem holds_after {s : Shared} (hholds : HoldsAt sdk (sdk.cached s) activationId now)
    {s' : Shared} (hcache : s'.cache = s.cache ∨ s'.cache = none) (token : String)
    (chain : CertChain) (hcached : sdk.cached s' = some (token, chain)) : ∃ license,
      verifyActivationAnyAt P.toCrypto sdk.masterPubs token chain now = .ok license ∧
        license.activationId = activationId := by
  obtain ⟨token₀, chain₀, license, hcached₀, hverify, haid⟩ := hholds
  rw [cached_eq_some] at hcached hcached₀
  rcases hcache with hcache | hcache
  · rw [hcache, hcached₀.2] at hcached
    cases hcached.2
    exact ⟨license, hverify, haid⟩
  · rw [hcache] at hcached
    cases hcached.2

/-- The cache and the flag when a manual renewal has recorded its outcome. -/
def Sdk.noted (outcome : Except LatteError (String × CertChain))
    (cached : Option (String × CertChain)) : Option (String × CertChain) × Bool :=
  match outcome with
  | .ok _ => (cached, false)
  | .error e => if e.invalidates then (none, false) else (cached, isNetwork outcome)

variable (reply starts) in
/-- A manual renewal up to the point where it has recorded its outcome. -/
theorem exec_noteReply {outcome : Except LatteError (String × CertChain)} {s : Shared}
    {z : Solo sdk.system} (hholds : HoldsAt sdk (sdk.cached s) activationId now)
    (hz : z.shared = s.afterReply outcome) :
    ∃ z', (noteRenewal sdk activationId outcome).exec (sdk.steady now reply starts) z =
      (some (sdk.cached z.shared).isSome, z') ∧
        z'.shared.kept = Sdk.noted outcome s.cache := by
  obtain ⟨token₀, chain₀, license₀, hcached₀, -, -⟩ := id hholds
  obtain ⟨hpath, hcache₀⟩ := cached_eq_some.1 hcached₀
  have hcache : z.shared.cache = s.cache ∨ z.shared.cache = none := by
    rw [hz]
    unfold Shared.afterReply
    cases outcome with
    | ok tc => exact Or.inl rfl
    | error e => cases he : e.invalidates <;> simp [he]
  obtain ⟨z', hnote, hz'⟩ := exec_noteRenewal reply starts outcome
    (holds_after hholds hcache)
  refine ⟨z', hnote, ?_⟩
  rw [hz', hz]
  unfold Shared.kept Sdk.noted Shared.afterReply
  cases outcome with
  | ok tc => rfl
  | error e =>
    cases he : e.invalidates with
    | true =>
      have hnone : sdk.cached { s with cache := none, renewalFailed := false } = none := by
        unfold Sdk.cached
        cases sdk.cachePath <;> rfl
      simp [he, hnone]
    | false => simp [he, hcached₀]

variable (reply starts licenseKey) in
theorem exec_renew {z : Solo sdk.system}
    (hholds : HoldsAt sdk (sdk.cached z.shared) activationId now) :
    ((renew sdk activationId licenseKey).exec (sdk.steady now reply starts) z).2.shared.kept =
      sdk.renewalLeaves now reply z.shared.cache := by
  obtain ⟨token₀, chain₀, license₀, hcached₀, -, -⟩ := id hholds
  obtain ⟨hpath, -⟩ := cached_eq_some.1 hcached₀
  unfold renew
  rw [exec_bind_of_some (exec_clock z), exec_bind_of_some (exec_acquire _),
    exec_bind_of_some (exec_getRenewal _), exec_bind_of_some (exec_setRenewal _ _),
    exec_bind_of_some (exec_release _)]
  generalize hz₁ : Solo.saw _ _ = z₁
  have hcache₁ : z₁.shared.cache = z.shared.cache := by
    rw [← hz₁]
    rfl
  obtain ⟨z₂, hpost, hz₂⟩ := exec_postAndHandleInvalidation now reply starts hpath "/v1/renew"
    (credentials sdk activationId licenseKey none) z₁
  have hholds₁ : HoldsAt sdk (sdk.cached z₁.shared) activationId now := by
    unfold Sdk.cached
    rw [hcache₁]
    exact hholds
  obtain ⟨z₃, hnote, hz₃⟩ := exec_noteReply reply starts
    (z := z₂.saw .locked) hholds₁ hz₂
  rw [exec_bind_of_some hpost, exec_bind_of_some (exec_acquire _), exec_bind_of_some hnote,
    exec_bind_of_some (exec_release _), ← hcache₁]
  unfold Sdk.renewalLeaves
  unfold Sdk.noted at hz₃
  cases hread : readToken P "/v1/renew" reply with
  | error e =>
    rw [hread] at hz₃
    exact hz₃
  | ok tc =>
    obtain ⟨token, chain⟩ := tc
    rw [hread] at hz₃
    simp only at hz₃ ⊢
    obtain ⟨z₄, hverify, hq₄⟩ :=
      exec_verifyAndValidate now reply starts token chain (z₃.saw .unlocked)
    have hkept₄ : z₄.shared.kept = (z₁.shared.cache, false) := by
      rw [hq₄.shared]
      exact hz₃
    unfold Sdk.verdict at hverify
    match hcheck : checkLicenseAnyAtWithRenewalFailed P.toCrypto sdk.masterPubs token chain
        sdk.machineId now false with
    | .error .panic =>
      rw [hcheck] at hverify
      rw [exec_bind_of_none hverify]
      exact hkept₄
    | .error (.err e) =>
      rw [hcheck] at hverify
      rw [exec_bind_of_some hverify]
      exact hkept₄
    | .ok lic =>
      rw [hcheck] at hverify
      obtain ⟨z₅, hsave, hz₅⟩ := exec_saveToCache now reply starts hpath token chain z₄
      rw [exec_bind_of_some hverify]
      simp only
      rw [exec_bind_of_some hsave]
      show z₅.shared.kept = _
      rw [hz₅]
      rfl

variable (now reply starts) in
/-- A background renewal drops its mark without touching the cache or the flag. -/
theorem exec_dropInFlight (attempt : ℕ) (z : Solo sdk.system) :
    ∃ z', (dropInFlight attempt).exec (sdk.steady now reply starts) z = (some (), z') ∧
      z'.shared.kept = z.shared.kept := by
  unfold dropInFlight
  rw [exec_bind_of_some (exec_acquire z), exec_bind_of_some (exec_getRenewal _)]
  by_cases hlatest : (z.saw .locked).shared.renewal.attempt = attempt
  · rw [if_pos hlatest, exec_bind_of_some (exec_setRenewal _ _)]
    exact ⟨_, rfl, rfl⟩
  · rw [if_neg hlatest]
    exact ⟨_, rfl, rfl⟩

/-- The outcome of the request of a background renewal, `none` when the check of the token
panics. -/
def Sdk.renewed (sdk : Sdk P) (now : SystemTime) (reply : Reply) :
    Option (Except LatteError (String × CertChain)) :=
  match readToken P "/v1/renew" reply with
  | .error e => some (.error e)
  | .ok (token, chain) => (sdk.verdict token chain now).map fun r => r.map fun _ => (token, chain)

variable (now reply starts activationId licenseKey) in
theorem exec_postVerified (z : Solo sdk.system) :
    ∃ z', (postVerified sdk activationId licenseKey).exec (sdk.steady now reply starts) z =
      (sdk.renewed now reply, z') ∧ z'.shared = z.shared := by
  obtain ⟨z₁, hpost, hz₁⟩ := exec_post now reply starts .backgroundHttp "/v1/renew"
    (credentials sdk activationId licenseKey none) z
  unfold postVerified Sdk.renewed
  rw [exec_bind_of_some hpost]
  cases readToken P "/v1/renew" reply with
  | error e => exact ⟨z₁, rfl, hz₁⟩
  | ok tc =>
    obtain ⟨token, chain⟩ := tc
    obtain ⟨z₂, hverify, hq₂⟩ := exec_verifyAndValidate now reply starts token chain z₁
    refine ⟨z₂, ?_, hq₂.shared.trans hz₁⟩
    simp only
    rcases hv : sdk.verdict token chain now with _ | ⟨e | lic⟩
    · rw [hv] at hverify
      rw [exec_bind_of_none hverify]
      rfl
    · rw [hv] at hverify
      rw [exec_bind_of_some hverify]
      rfl
    · rw [hv] at hverify
      rw [exec_bind_of_some hverify]
      rfl

/-- What the write of a background renewal leaves. -/
def Shared.stored (s : Shared) (renewed : Except LatteError (String × CertChain)) : Shared :=
  match renewed with
  | .ok (token, chain) => { s with cache := some (token, chain) }
  | .error e => if e.invalidates then { s with cache := none } else s

variable (now reply starts) in
theorem exec_storeRenewed (renewed : Except LatteError (String × CertChain))
    (z : Solo sdk.system) :
    ∃ z', (storeRenewed renewed).exec (sdk.steady now reply starts) z = (some (), z') ∧
      z'.shared = z.shared.stored renewed := by
  unfold storeRenewed Shared.stored
  cases renewed with
  | ok tc => exact ⟨_, rfl, rfl⟩
  | error e =>
    cases he : e.invalidates with
    | true =>
      refine ⟨(z.did .clear true).saw .unlocked, ?_, by simp [he]; rfl⟩
      simp only [he, if_true]
      rfl
    | false => exact ⟨z.saw .unlocked, by simp [he]; rfl, by simp [he]; rfl⟩

variable (starts licenseKey) in
/-- A background renewal that is the latest attempt, once its request has an outcome. -/
theorem exec_renewAndStore {attempt : ℕ} {z : Solo sdk.system}
    (hholds : HoldsAt sdk (sdk.cached z.shared) activationId now)
    (hlatest : z.shared.renewal.attempt = attempt)
    {renewed : Except LatteError (String × CertChain)}
    (hrenewed : sdk.renewed now reply = some renewed) :
    ∃ z', (renewAndStore sdk attempt activationId licenseKey).exec (sdk.steady now reply starts) z =
      (some (), z') ∧ z'.shared.kept = ((z.shared.stored renewed).cache, isNetwork renewed) := by
  obtain ⟨token₀, chain₀, license₀, hcached₀, -, -⟩ := id hholds
  obtain ⟨hpath, -⟩ := cached_eq_some.1 hcached₀
  obtain ⟨z₁, hpost, hz₁⟩ := exec_postVerified now reply starts activationId licenseKey z
  rw [hrenewed] at hpost
  obtain ⟨z₂, hget, hz₂⟩ : ∃ z₂, getRenewal.exec (sdk.steady now reply starts) (z₁.saw .locked) =
      (some z.shared.renewal, z₂) ∧ z₂.shared = z.shared := by
    refine ⟨(z₁.saw .locked).did .getRenewal z.shared.renewal, ?_, hz₁⟩
    rw [exec_getRenewal, show (z₁.saw .locked).shared = z.shared from hz₁]
  obtain ⟨z₃, hnote, hz₃⟩ := exec_noteRenewal reply starts
    renewed (z := z₂) (holds_after hholds (Or.inl (congrArg Shared.cache hz₂)))
  obtain ⟨z₄, hstore, hz₄⟩ := exec_storeRenewed now reply starts
    renewed z₃
  obtain ⟨z₅, hdrop, hz₅⟩ := exec_dropInFlight now reply starts
    attempt z₄
  rw [hz₂, hcached₀] at hnote hz₃
  refine ⟨z₅, ?_, ?_⟩
  · unfold renewAndStore
    rw [exec_bind_of_some hpost, exec_bind_of_some (exec_acquire _), exec_bind_of_some hget,
      if_neg (not_not.2 hlatest), exec_bind_of_some hnote, if_pos, exec_bind_of_some hstore, hdrop]
    simp [Option.isSome_iff_ne_none, hpath]
  · rw [hz₅, hz₄, hz₃]
    unfold Shared.kept Shared.stored
    cases renewed with
    | ok tc => rfl
    | error e => cases he : e.invalidates <;> simp [he]

/-- The outcome of a background renewal and what a manual one leaves say the same. -/
theorem renewalLeaves_of_renewed {cached : Option (String × CertChain)}
    {renewed : Except LatteError (String × CertChain)}
    (h : sdk.renewed now reply = some renewed) {s : Shared} (hcache : s.cache = cached) :
    ((s.stored renewed).cache, isNetwork renewed) = sdk.renewalLeaves now reply cached := by
  unfold Sdk.renewed at h
  unfold Sdk.renewalLeaves Shared.stored
  cases hread : readToken P "/v1/renew" reply with
  | error e =>
    rw [hread] at h
    cases h
    cases he : e.invalidates with
    | true => simp [he, isNetwork_of_invalidates he]
    | false => simp [he, hcache]
  | ok tc =>
    obtain ⟨token, chain⟩ := tc
    rw [hread] at h
    unfold Sdk.verdict at h
    simp only at h ⊢
    match hcheck : checkLicenseAnyAtWithRenewalFailed P.toCrypto sdk.masterPubs token chain
        sdk.machineId now false with
    | .error .panic =>
      rw [hcheck] at h
      cases h
    | .error (.err e) =>
      rw [hcheck] at h
      cases h
      rw [← hcache]
      rfl
    | .ok lic =>
      rw [hcheck] at h
      cases h
      rfl

/-- The check of the token in a reply panics. -/
def Sdk.ReplyPanics (sdk : Sdk P) (now : SystemTime) (reply : Reply) : Prop :=
  ∃ token chain, readToken P "/v1/renew" reply = .ok (token, chain) ∧
    checkLicenseAnyAtWithRenewalFailed P.toCrypto sdk.masterPubs token chain sdk.machineId now
      false = .error .panic

theorem renewed_eq_none : sdk.renewed now reply = none ↔ sdk.ReplyPanics now reply := by
  unfold Sdk.renewed Sdk.ReplyPanics Sdk.verdict
  cases hread : readToken P "/v1/renew" reply with
  | error e => simp
  | ok tc =>
    obtain ⟨token, chain⟩ := tc
    simp only [Option.map_eq_none_iff, Except.ok.injEq, Prod.mk.injEq]
    match hcheck : checkLicenseAnyAtWithRenewalFailed P.toCrypto sdk.masterPubs token chain
        sdk.machineId now false with
    | .error .panic => simp [settle, hcheck]
    | .error (.err e) => simp [settle, hcheck]
    | .ok lic => simp [settle, hcheck]

theorem renewalLeaves_of_panics (h : sdk.ReplyPanics now reply)
    (cached : Option (String × CertChain)) :
    sdk.renewalLeaves now reply cached = (cached, false) := by
  obtain ⟨token, chain, hread, hcheck⟩ := h
  unfold Sdk.renewalLeaves
  rw [hread]
  simp only [hcheck]

/-! ### The two calls -/

variable (reply starts licenseKey) in
/-- What a manual renewal of the cached activation leaves. -/
theorem renew_leaves {s : Shared} (hholds : HoldsAt sdk (sdk.cached s) activationId now)
    (newest : ℤ) :
    (sdk.alone now reply starts (.renew activationId licenseKey) s newest).2.shared.kept =
      sdk.renewalLeaves now reply s.cache := by
  have hkept := exec_renew reply starts licenseKey
    (z := ⟨[], s, newest⟩) hholds
  rcases hexec : (renew sdk activationId licenseKey).exec (sdk.steady now reply starts)
    ⟨[], s, newest⟩ with ⟨_ | r, z⟩
  · rw [alone_panics Outcome.license rfl hexec]
    rwa [hexec] at hkept
  · rw [alone_returns Outcome.license rfl hexec]
    rwa [hexec] at hkept

variable (reply starts licenseKey) in
/-- What the latest background renewal of the cached activation leaves. -/
theorem background_leaves {s : Shared} (hholds : HoldsAt sdk (sdk.cached s) activationId now)
    {attempt : ℕ} (hlatest : s.renewal.attempt = attempt) (newest : ℤ) :
    (sdk.ReplyPanics now reply →
      (sdk.alone now reply starts (.background attempt activationId licenseKey) s
        newest).2.shared.kept = s.kept) ∧
    (¬ sdk.ReplyPanics now reply →
      (sdk.alone now reply starts (.background attempt activationId licenseKey) s
        newest).2.shared.kept = sdk.renewalLeaves now reply s.cache) := by
  constructor
  · intro hpanics
    obtain ⟨z₁, hpost, hz₁⟩ := exec_postVerified now reply starts activationId licenseKey
      (z := (⟨[], s, newest⟩ : Solo sdk.system))
    obtain ⟨z₂, hdrop, hz₂⟩ := exec_dropInFlight now reply starts
      attempt z₁
    rw [renewed_eq_none.2 hpanics] at hpost
    have hexec : (renewAndStore sdk attempt activationId licenseKey).exec
        (sdk.steady now reply starts) ⟨[], s, newest⟩ = (none, z₁) := exec_bind_of_none hpost
    rw [alone_panics (fun _ => Outcome.renewed) rfl hexec]
    show ((dropInFlight attempt >>= fun _ => ret Outcome.panicked).exec _ z₁).2.shared.kept = _
    rw [exec_bind_of_some hdrop]
    exact hz₂.trans (congrArg Shared.kept hz₁)
  · intro hquiet
    obtain ⟨renewed, hrenewed⟩ := Option.ne_none_iff_exists'.1 (mt renewed_eq_none.1 hquiet)
    obtain ⟨z₁, hexec, hz₁⟩ := exec_renewAndStore starts licenseKey
      (z := ⟨[], s, newest⟩) hholds hlatest hrenewed
    rw [alone_returns (fun _ => Outcome.renewed) rfl hexec]
    exact hz₁.trans (renewalLeaves_of_renewed hrenewed rfl)

/-- **Manual and background renewals agree, unless the check of the new token panics while the
flag is set.**  In a state whose cache holds `activationId` at `now`, whatever the server replies
to `/v1/renew`, a manual renewal and the latest background renewal leave the same cache and the
same flag exactly when the flag was not set or the check of the token in the reply does not
panic. -/
theorem renewals_agree_iff (sdk : Sdk P) (s : Shared) (newest : ℤ) (now : SystemTime)
    (reply : Reply) (starts : Bool) (activationId licenseKey : String) (attempt : ℕ)
    (hholds : HoldsAt sdk (sdk.cached s) activationId now)
    (hlatest : s.renewal.attempt = attempt) :
    ((sdk.alone now reply starts (.renew activationId licenseKey) s newest).2.shared.cache =
        (sdk.alone now reply starts (.background attempt activationId licenseKey) s
          newest).2.shared.cache ∧
      (sdk.alone now reply starts (.renew activationId licenseKey) s
          newest).2.shared.renewalFailed =
        (sdk.alone now reply starts (.background attempt activationId licenseKey) s
          newest).2.shared.renewalFailed) ↔
      ¬ (s.renewalFailed = true ∧ sdk.ReplyPanics now reply) := by
  have hmanual := renew_leaves reply starts licenseKey
    hholds newest
  obtain ⟨hpanics, hquiet⟩ := background_leaves reply starts licenseKey hholds hlatest newest
  rw [← Prod.mk.injEq]
  show Shared.kept _ = Shared.kept _ ↔ _
  rw [hmanual]
  by_cases h : sdk.ReplyPanics now reply
  · rw [hpanics h, renewalLeaves_of_panics h]
    simp [Shared.kept, h]
  · rw [hquiet h]
    simp [h]

/-! ### A token at the end of time

The daily certificate `e` lasts, and the token `w` is issued, at the last second of an `i64`;
its grace period ends one second later, which no `SystemTime` is. -/

def lateJson : Bytes → Except String Value
  | [101] => .ok (.object
      [("iss", .string "licenselatte"), ("iat", sampleSecs (sampleNow - 3600)),
        ("exp", sampleSecs (2 ^ 63 - 1)), ("pid", .string "p"), ("dpk", .string "04")])
  | [119] => .ok (.object
      [("iss", .string "licenselatte"), ("sub", .string "KEY"), ("aid", .string "a"),
        ("pid", .string "p"), ("mid", .string "m"), ("ltype", .string "perpetual"),
        ("iat", sampleSecs (2 ^ 63 - 1)), ("exp", sampleSecs (2 ^ 63 - 1)), ("grc", sampleSecs 1)])
  | bytes => sampleJson bytes

def latePlatform : Platform := { samplePlatform with
  jsonFromSlice := lateJson
  tokenResponse := fun _ => .ok ⟨"h.w.4w", ⟨"h.s.1s", "h.p.2p", "h.e.3e"⟩⟩ }

def lateSdk : Sdk latePlatform where
  baseUrl := ""
  appId := "p"
  machineId := "m"
  machineName := none
  masterPubs := ([9, 1] : List UInt8)
  cachePath := some "cache"

/-- The cache holds a token, and the renewal that is running follows one that failed. -/
def lateShared : Shared := ⟨some ("h.t.4t", sampleChain), ⟨1, none, none⟩, true, 1⟩

theorem lateShared_holds :
    HoldsAt lateSdk (lateSdk.cached lateShared) "a" (sampleAt sampleNow) := by
  refine ⟨_, _, sampleLicense "KEY" "a" (sampleAt (sampleNow - 60)), rfl, ?_, rfl⟩
  decide +kernel

/-- The manual renewal clears the flag and the background renewal keeps it. -/
theorem renewals_disagree :
    HoldsAt lateSdk (lateSdk.cached lateShared) "a" (sampleAt sampleNow) ∧
    lateShared.renewal.attempt = 1 ∧
    (lateSdk.alone (sampleAt sampleNow) (sampleReply 119) true (.renew "a" "KEY") lateShared
      0).2.shared.renewalFailed = false ∧
    (lateSdk.alone (sampleAt sampleNow) (sampleReply 119) true (.background 1 "a" "KEY") lateShared
      0).2.shared.renewalFailed = true := by
  refine ⟨lateShared_holds, rfl, ?_, ?_⟩
  · decide +kernel
  · decide +kernel

/-- After a network failure both set the flag and keep the cache. -/
theorem renewals_agree_sample :
    (lateSdk.alone (sampleAt sampleNow) (.error "no route") true (.renew "a" "KEY") lateShared
        0).2.shared.cache =
      (lateSdk.alone (sampleAt sampleNow) (.error "no route") true (.background 1 "a" "KEY")
        lateShared 0).2.shared.cache ∧
    (lateSdk.alone (sampleAt sampleNow) (.error "no route") true (.renew "a" "KEY") lateShared
        0).2.shared.renewalFailed =
      (lateSdk.alone (sampleAt sampleNow) (.error "no route") true (.background 1 "a" "KEY")
        lateShared 0).2.shared.renewalFailed := by
  refine (renewals_agree_iff lateSdk lateShared 0 (sampleAt sampleNow) (.error "no route") true
    "a" "KEY" 1 lateShared_holds rfl).2 ?_
  rintro ⟨-, token, chain, hread, -⟩
  cases hread

end LatteRs
