import LatteRs.Concurrent.Alone
import LatteRs.Deactivation

/-!
# What a single call deletes

A manual call that runs alone, from any state of the Sdk.  On an answer that
means that an activation no longer exists, or that it was released, the cached
token goes, whichever activation it is of; on every other answer it stays unless
a new verified one replaces it.

* `Settled`: the cache after a call;
* `alone_activate`, `alone_renew`, `alone_deactivate`, `alone_check`: the
  methods, one rule for each helper before them;
* `manual_calls`: the result for a call and the check after it;
* `mistyped_activation`: an activation with one key that deletes that of another.
-/

namespace LatteRs

open Concurrent Act Program

variable {P : Platform} {sdk : Sdk P}

/-! ### What the answer says -/

section
variable {h : Past signature} {token : String} {chain : CertChain}

/-- The server said that the activation is gone or has been released. -/
def Dropped (sdk : Sdk P) (h : Past signature) : Prop := Rejected sdk h ∨ Released sdk h

theorem Dropped.congr {h' : Past signature} (hs : sent h' = sent h) :
    Dropped sdk h' ↔ Dropped sdk h := by
  unfold Dropped Rejected Released TokenReply
  rw [hs]

theorem not_dropped_of_unsent (hs : sent h = none) : ¬ Dropped sdk h := by
  rintro (⟨_, _, ⟨q, hq, -⟩, -⟩ | ⟨q, _, _, _, hq, -⟩)
  · rw [hs] at hq
    cases hq
  · rw [hs] at hq
    cases hq

theorem url_ne_deactivate {path : String} (hpath : TokenPath path) :
    sdk.baseUrl ++ path ≠ sdk.baseUrl ++ "/v1/deactivate" := by
  intro heq
  have hp := (String.append_right_inj _).1 heq
  rcases hpath with rfl | rfl
  · revert hp
    decide
  · revert hp
    decide

/-- A token request is dropped exactly when its error invalidates the activation. -/
theorem dropped_iff_of_token {client : Client} {path : String} {body : Body}
    {answered : Answered} (hpath : TokenPath path)
    (hs : sent h = some ⟨client, sdk.baseUrl ++ path, body, answered⟩) :
    Dropped sdk h ↔ ∃ e, readToken P path answered.reply = .error e ∧ e.invalidates = true := by
  constructor
  · rintro (⟨status, body', ⟨q, hq, hreply, -⟩, hstatus⟩ | ⟨q, _, _, _, hq, hurl, -⟩)
    · rw [hs] at hq
      cases hq
      exact readToken_invalidates.2 ⟨status, body', hreply, hstatus⟩
    · rw [hs] at hq
      cases hq
      exact absurd hurl (url_ne_deactivate hpath)
  · rintro ⟨e, hr, he⟩
    exact Or.inl (rejected_of_sent hpath hs hr he)

/-- A deactivation is dropped exactly when its answer decodes. -/
theorem dropped_iff_of_deactivate {client : Client} {body : Body} {answered : Answered}
    (hs : sent h = some ⟨client, sdk.baseUrl ++ "/v1/deactivate", body, answered⟩) :
    Dropped sdk h ↔ ∃ result,
      readReply P "/v1/deactivate" P.deactivateResult answered.reply = .ok result := by
  constructor
  · rintro (⟨_, _, ⟨q, hq, -, hurl⟩, -⟩ | ⟨q, status, bytes, result, hq, -, hreply, hsucc, hdec⟩)
    · rw [hs] at hq
      cases hq
      rcases hurl with hurl | hurl
      · exact absurd hurl.symm (url_ne_deactivate (Or.inl rfl))
      · exact absurd hurl.symm (url_ne_deactivate (Or.inr rfl))
    · rw [hs] at hq
      cases hq
      exact ⟨result, readReply_eq_ok.2 ⟨status, bytes, hreply, hsucc, hdec⟩⟩
  · rintro ⟨result, hr⟩
    obtain ⟨status, bytes, hreply, hsucc, hdec⟩ := readReply_eq_ok.1 hr
    exact Or.inr ⟨_, status, bytes, result, hs, rfl, hreply, hsucc, hdec⟩

/-- What the cache is after a call that had `cached` in it at first. -/
structure Settled (sdk : Sdk P) (cached : Option (String × CertChain)) (h : Past signature)
    (s : Shared) : Prop where
  dropped : Dropped sdk h → s.cache = none
  kept : ¬ Dropped sdk h → s.cache = cached ∨ ∃ token chain, s.cache = some (token, chain) ∧
    Returned sdk h token chain ∧ Verified sdk h token chain

variable {cached : Option (String × CertChain)} {s : Shared}

theorem settled_of_unsent (hs : sent h = none) (hcache : s.cache = cached) :
    Settled sdk cached h s :=
  ⟨fun hd => absurd hd (not_dropped_of_unsent hs), fun _ => Or.inl hcache⟩

theorem Settled.later {h' : Past signature} {s' : Shared} (hset : Settled sdk cached h s)
    (hl : Later h h') (hcache : s'.cache = s.cache) : Settled sdk cached h' s' where
  dropped hd := by
    rw [hcache]
    exact hset.dropped ((Dropped.congr hl.sent_eq).1 hd)
  kept hd := by
    rw [hcache]
    rcases hset.kept fun hd' => hd ((Dropped.congr hl.sent_eq).2 hd') with hsame | hnew
    · exact Or.inl hsame
    · obtain ⟨token, chain, hsaved, hret, hver⟩ := hnew
      exact Or.inr ⟨token, chain, hsaved, hret.later sdk hl, hver.later sdk hl⟩

theorem Returned.not_dropped (hret : Returned sdk h token chain) : ¬ Dropped sdk h := by
  obtain ⟨status, bytes, ⟨q, hq, hreply, hurl⟩, hsucc, -⟩ := hret
  rintro (⟨status', body, ⟨q', hq', hreply', -⟩, hstatus⟩ | ⟨q', _, _, _, hq', hurl', -⟩)
  · rw [hq] at hq'
    cases hq'
    rw [hreply] at hreply'
    cases hreply'
    unfold isSuccess at hsucc
    omega
  · rw [hq] at hq'
    cases hq'
    rw [hurl'] at hurl
    rcases hurl with hurl | hurl
    · exact absurd hurl.symm (url_ne_deactivate (Or.inl rfl))
    · exact absurd hurl.symm (url_ne_deactivate (Or.inr rfl))

end

/-! ### The helpers, alone -/

/-- `p` alone, with file operations that succeed. -/
abbrev alone (A : Solo sdk.system → Prop) {α : Type} (p : Act α)
    (Q : Solo sdk.system → α → Prop) (z : Solo sdk.system) : Prop :=
  wpAlone (fun ev => Worked ev = true) A p Q z

/-- Nothing was requested, and the cache stayed. -/
structure Quiet (z z' : Solo sdk.system) : Prop where
  cache : z'.shared.cache = z.shared.cache
  later : Later z.past z'.past

theorem Quiet.refl (z : Solo sdk.system) : Quiet z z := ⟨rfl, Later.refl _⟩

theorem Quiet.trans {z z' z'' : Solo sdk.system} (h₁ : Quiet z z') (h₂ : Quiet z' z'') :
    Quiet z z'' := ⟨h₂.cache.trans h₁.cache, h₁.later.trans h₂.later⟩

theorem Quiet.did {z z' : Solo sdk.system} (hz : Quiet z z') {e : Effect} {r : Answer e}
    (hcache : (Shared.write e r z'.shared).cache = z'.shared.cache)
    (hsent : sent (.did e r :: z'.past) = sent z'.past) : Quiet z (z'.did e r) :=
  ⟨hcache.trans hz.cache, hz.later.cons hsent⟩

theorem Quiet.saw {z z' : Solo sdk.system} (hz : Quiet z z') {ev : Event signature}
    (hsent : sent (ev :: z'.past) = sent z'.past) : Quiet z (z'.saw ev) :=
  ⟨hz.cache, hz.later.cons hsent⟩

section
variable {A : Solo sdk.system → Prop} {z : Solo sdk.system}

theorem alone_orAbort {ε α : Type} {x : Checked ε α} {Q : Solo sdk.system → Except ε α → Prop}
    (hA : A z) (hok : ∀ a, x = .ok a → Q z (.ok a))
    (herr : ∀ e, x = .error (.err e) → Q z (.error e)) : alone A (orAbort x) Q z := by
  match x with
  | .ok a => exact hok a rfl
  | .error (.err e) => exact herr e rfl
  | .error .panic => exact hA

theorem alone_clock {Q : Solo sdk.system → SystemTime → Prop}
    (hq : ∀ now, Q (z.did Effect.clock now) now) : alone A clock Q z :=
  fun now _ _ => hq now

theorem alone_loadCache {Q : Solo sdk.system → Option (String × CertChain) → Prop}
    (hq : ∀ z' cached, Quiet z z' → cached = z.shared.cache ∨ cached = none → Q z' cached) :
    alone A (loadCache sdk) Q z := by
  unfold loadCache
  cases sdk.cachePath with
  | none => exact hq z none (Quiet.refl z) (Or.inr rfl)
  | some path => exact fun cached hr _ => hq _ cached ((Quiet.refl z).did rfl rfl) hr

theorem alone_verifyAndValidate {token : String} {chain : CertChain}
    {Q : Solo sdk.system → Except LatteError PublicLicense → Prop}
    (hA : ∀ z', Quiet z z' → A z')
    (hok : ∀ z' lic, Quiet z z' → Verified sdk z'.past token chain → Q z' (.ok lic))
    (herr : ∀ z' e, Quiet z z' → Q z' (.error e)) :
    alone A (verifyAndValidate sdk token chain) Q z := by
  unfold verifyAndValidate
  refine wpAlone_bind.2 (alone_clock fun now => ?_)
  have hz : Quiet z (z.did Effect.clock now) := (Quiet.refl z).did rfl rfl
  refine wpAlone_bind.2 (alone_orAbort (hA _ hz) ?_ ?_)
  · intro lic hlic
    exact hok _ lic hz ⟨now, lic, List.mem_cons_self, hlic⟩
  · intro e _
    exact herr _ _ hz

theorem alone_cachedLicense {Q : Solo sdk.system → Option (PublicLicense × String) → Prop}
    (hA : ∀ z', Quiet z z' → A z') (hq : ∀ z' found, Quiet z z' → Q z' found) :
    alone A (cachedLicense sdk) Q z := by
  unfold cachedLicense
  refine wpAlone_bind.2 (alone_loadCache fun z₁ cached hz₁ _ => ?_)
  cases cached with
  | none => exact hq _ _ hz₁
  | some tc =>
    obtain ⟨token, chain⟩ := tc
    refine wpAlone_bind.2 (alone_clock fun now => ?_)
    have hz₂ : Quiet z (z₁.did Effect.clock now) := hz₁.did rfl rfl
    refine wpAlone_bind.2 (alone_orAbort (hA _ hz₂) ?_ ?_)
    · intro license _
      refine wpAlone_bind.2 (alone_orAbort (hA _ hz₂) ?_ ?_)
      · intro u _ failed _ _
        exact hq _ _ (hz₂.did rfl rfl)
      · intro e _
        exact hq _ _ hz₂
    · intro e _
      exact hq _ _ hz₂

theorem alone_noteRenewal {T : Type} {activationId : String} {outcome : Except LatteError T}
    {Q : Solo sdk.system → Bool → Prop} (hA : ∀ z', Quiet z z' → A z')
    (hq : ∀ z' holds, Quiet z z' → Q z' holds) :
    alone A (noteRenewal sdk activationId outcome) Q z := by
  unfold noteRenewal holdsActivation
  have hnote : ∀ z' holds, Quiet z z' → alone A (do
      noteFlag activationId (isNetwork outcome) (isNetwork outcome && holds)
      .ret holds) Q z' :=
    fun z' holds hz _ _ _ => hq _ _ (hz.did rfl rfl)
  refine wpAlone_bind.2 (wpAlone_bind.2 (alone_loadCache fun z₁ cached hz₁ _ => ?_))
  cases cached with
  | none => exact hnote _ _ hz₁
  | some tc =>
    obtain ⟨token, chain⟩ := tc
    refine wpAlone_bind.2 (alone_clock fun now => ?_)
    have hz₂ : Quiet z (z₁.did Effect.clock now) := hz₁.did rfl rfl
    refine wpAlone_bind.2 (alone_orAbort (hA _ hz₂) ?_ ?_)
    · exact fun license _ => hnote _ _ hz₂
    · exact fun e _ => hnote _ _ hz₂

theorem alone_saveToCache {token : String} {chain : CertChain} {Q : Solo sdk.system → Unit → Prop}
    (hpath : sdk.cachePath ≠ none)
    (hq : ∀ z', Later z.past z'.past → z'.shared.cache = some (token, chain) → Q z' ()) :
    alone A (saveToCache sdk token chain) Q z := by
  unfold saveToCache
  cases hp : sdk.cachePath with
  | none => exact absurd hp hpath
  | some path =>
    intro _ _ _ done _ hdone
    have hdone' : done = true := hdone
    subst hdone'
    exact hq _ (((((Later.refl _).cons rfl).cons rfl).cons rfl).cons rfl) rfl

theorem alone_clearCache {Q : Solo sdk.system → Unit → Prop} (hpath : sdk.cachePath ≠ none)
    (hq : ∀ z', Later z.past z'.past → z'.shared.cache = none → Q z' ()) :
    alone A (clearCache sdk) Q z := by
  unfold clearCache
  cases hp : sdk.cachePath with
  | none => exact absurd hp hpath
  | some path =>
    intro _ _ _ done _ hdone
    have hdone' : done = true := hdone
    subst hdone'
    exact hq _ (((((Later.refl _).cons rfl).cons rfl).cons rfl).cons rfl) rfl

theorem alone_call {T : Type} {client : Client} {path : String} {body : Body}
    {decode : Bytes → Except String T} {Q : Solo sdk.system → Except LatteError T → Prop}
    (hq : ∀ z' answered, sent z'.past = some ⟨client, sdk.baseUrl ++ path, body, answered⟩ →
      z'.shared.cache = z.shared.cache → Q z' (readReply P path decode answered.reply)) :
    alone A (call sdk client path body decode) Q z := by
  unfold call
  exact fun answered _ _ => hq _ answered rfl rfl

theorem alone_post {client : Client} {path : String} {body : Body}
    {Q : Solo sdk.system → Except LatteError (String × CertChain) → Prop}
    (hq : ∀ z' answered, sent z'.past = some ⟨client, sdk.baseUrl ++ path, body, answered⟩ →
      z'.shared.cache = z.shared.cache → Q z' (readToken P path answered.reply)) :
    alone A (post sdk client path body) Q z := by
  unfold post
  refine wpAlone_bind.2 (alone_call fun z' answered hs hcache => ?_)
  have hq' := hq z' answered hs hcache
  unfold readToken at hq'
  cases hr : readReply P path P.tokenResponse answered.reply with
  | error e =>
    rw [hr] at hq'
    exact hq'
  | ok result =>
    rw [hr] at hq'
    exact hq'

theorem alone_postAndHandleInvalidation {path : String} {body : Body}
    {Q : Solo sdk.system → Except LatteError (String × CertChain) → Prop}
    (hpath : sdk.cachePath ≠ none) (htoken : TokenPath path)
    (hq : ∀ z' result, Settled sdk z.shared.cache z'.past z'.shared →
      (∀ token chain, result = .ok (token, chain) → Returned sdk z'.past token chain) →
      Q z' result) :
    alone A (postAndHandleInvalidation sdk path body) Q z := by
  unfold postAndHandleInvalidation
  refine wpAlone_bind.2 (alone_post fun z₁ answered hs hcache => ?_)
  have hiff := dropped_iff_of_token htoken hs
  cases hr : readToken P path answered.reply with
  | ok tc =>
    refine hq z₁ _ ⟨fun hd => ?_, fun _ => Or.inl hcache⟩ ?_
    · obtain ⟨e, hr', -⟩ := hiff.1 hd
      rw [hr] at hr'
      cases hr'
    · rintro token chain heq
      cases heq
      exact returned_of_sent htoken hs hr
  | error e =>
    show alone A (if e.invalidates then _ else _) Q z₁
    split_ifs with he
    · -- the answer drops the activation, and the cache goes
      have hd : Dropped sdk z₁.past := hiff.2 ⟨e, hr, he⟩
      refine wpAlone_bind.2 (alone_clearCache hpath fun z₂ hl hempty => ?_)
      have hd₂ : Dropped sdk z₂.past := (Dropped.congr hl.sent_eq).2 hd
      exact hq z₂ _ ⟨fun _ => hempty, fun hno => absurd hd₂ hno⟩ fun _ _ heq => by cases heq
    · refine hq z₁ _ ⟨fun hd => ?_, fun _ => Or.inl hcache⟩ fun _ _ heq => by cases heq
      obtain ⟨e', hr', he'⟩ := hiff.1 hd
      rw [hr] at hr'
      cases hr'
      exact absurd he' he

end

/-! ### The methods, alone -/

section
variable {cached : Option (String × CertChain)} {z : Solo sdk.system}

/-- The thread's cache is settled. -/
abbrev SettledAt (cached : Option (String × CertChain)) (z : Solo sdk.system) : Prop :=
  Settled sdk cached z.past z.shared

theorem Settled.quiet {z' : Solo sdk.system} (h : Settled sdk cached z.past z.shared)
    (hz : Quiet z z') : Settled sdk cached z'.past z'.shared := h.later hz.later hz.cache

/-- A verified token that was saved. -/
theorem settledAt_saved {z' : Solo sdk.system} {token : String} {chain : CertChain}
    (hl : Later z.past z'.past) (hret : Returned sdk z.past token chain)
    (hver : Verified sdk z.past token chain) (hcache : z'.shared.cache = some (token, chain)) :
    SettledAt cached z' :=
  ⟨fun hd => absurd hd (hret.later sdk hl).not_dropped,
    fun _ => Or.inr ⟨token, chain, hcache, hret.later sdk hl, hver.later sdk hl⟩⟩

theorem alone_activateOnline (hpath : sdk.cachePath ≠ none) (normalized : String)
    (hcache : z.shared.cache = cached) :
    alone (SettledAt cached) (activateOnline sdk normalized)
      (fun z' _ => SettledAt cached z') z := by
  subst hcache
  unfold activateOnline
  refine wpAlone_bind.2 (alone_postAndHandleInvalidation hpath (Or.inl rfl) ?_)
  intro z₁ result hset hret
  cases result with
  | error e => exact hset
  | ok tc =>
    obtain ⟨token, chain⟩ := tc
    refine wpAlone_bind.2 (alone_verifyAndValidate (fun z' => hset.quiet) ?_ ?_)
    · intro z₂ lic hz hver
      refine wpAlone_bind.2 (alone_saveToCache hpath fun z₃ hl hsaved => ?_)
      exact settledAt_saved hl ((hret _ _ rfl).later sdk hz.later) hver hsaved
    · exact fun z₂ e hz => hset.quiet hz

theorem alone_activate (hpath : sdk.cachePath ≠ none) (licenseKey : String)
    (hcache : z.shared.cache = cached) (hs : sent z.past = none) :
    alone (SettledAt cached) (activate sdk licenseKey) (fun z' _ => SettledAt cached z') z := by
  subst hcache
  unfold activate
  simp only
  have hstart : Settled sdk z.shared.cache z.past z.shared := settled_of_unsent hs rfl
  cases hvalid : validateLicenseKey (normalizeKey P.toUppercase licenseKey) with
  | error e => exact hstart
  | ok u =>
    refine wpAlone_bind.2 (alone_cachedLicense (fun z' => hstart.quiet) fun z₁ found hz => ?_)
    cases found with
    | none => exact alone_activateOnline hpath _ hz.cache
    | some la =>
      obtain ⟨lic, aliasKey⟩ := la
      simp only
      split_ifs with hsame
      · exact hstart.quiet hz
      · exact alone_activateOnline hpath _ hz.cache

theorem alone_renew (hpath : sdk.cachePath ≠ none) (activationId licenseKey : String)
    (hcache : z.shared.cache = cached) :
    alone (SettledAt cached) (renew sdk activationId licenseKey)
      (fun z' _ => SettledAt cached z') z := by
  subst hcache
  unfold renew
  -- the attempt is recorded under the lock
  intro now _ _ state _ _ _ _ _
  show alone _ (postAndHandleInvalidation sdk _ _ >>= _) _ _
  refine wpAlone_bind.2 (alone_postAndHandleInvalidation hpath (Or.inr rfl) ?_)
  intro z₁ result hset hret
  show alone _ (noteRenewal sdk activationId result >>= _) _ (z₁.saw .locked)
  have hlock : Quiet z₁ (z₁.saw .locked) := (Quiet.refl z₁).saw rfl
  refine wpAlone_bind.2 (alone_noteRenewal (fun z' hz => ?_) fun z₂ holds hz => ?_)
  · exact hset.quiet (hlock.trans hz)
  · have hz' : Quiet z₁ (z₂.saw .unlocked) := (hlock.trans hz).saw rfl
    have hset' := hset.quiet hz'
    cases result with
    | error e => exact hset'
    | ok tc =>
      obtain ⟨token, chain⟩ := tc
      show alone _ (verifyAndValidate sdk token chain >>= _) _ (z₂.saw .unlocked)
      refine wpAlone_bind.2 (alone_verifyAndValidate (fun z' => hset'.quiet) ?_ ?_)
      · intro z₃ lic hz₃ hver
        refine wpAlone_bind.2 (alone_saveToCache hpath fun z₄ hl hsaved => ?_)
        exact settledAt_saved hl ((hret _ _ rfl).later sdk (hz'.trans hz₃).later) hver hsaved
      · exact fun z₃ e hz₃ => hset'.quiet hz₃

theorem alone_deactivate (hpath : sdk.cachePath ≠ none) (activationId licenseKey : String)
    (hcache : z.shared.cache = cached) :
    alone (SettledAt cached) (deactivate sdk activationId licenseKey)
      (fun z' _ => SettledAt cached z') z := by
  subst hcache
  unfold deactivate
  refine wpAlone_bind.2 (alone_call fun z₁ answered hs hcache => ?_)
  have hiff := dropped_iff_of_deactivate hs
  cases hr : readReply P "/v1/deactivate" P.deactivateResult answered.reply with
  | error e =>
    refine ⟨fun hd => ?_, fun _ => Or.inl hcache⟩
    obtain ⟨result, hr'⟩ := hiff.1 hd
    rw [hr] at hr'
    cases hr'
  | ok result =>
    refine wpAlone_bind.2 (alone_clearCache hpath fun z₂ hl hempty => ?_)
    have hd₂ : Dropped sdk z₂.past := (Dropped.congr hl.sent_eq).2 (hiff.2 ⟨result, hr⟩)
    exact ⟨fun _ => hempty, fun hno => absurd hd₂ hno⟩

/-- A check of an empty cache. -/
theorem alone_check (hcache : z.shared.cache = none) :
    alone (fun _ => False) (check sdk)
      (fun _ result => result = .error .notActivated) z := by
  unfold check
  refine wpAlone_bind.2 (alone_loadCache fun z₁ cached _ hload => ?_)
  have hnone : cached = none := by
    rcases hload with hload | hload
    · exact hload.trans hcache
    · exact hload
  subst hnone
  exact rfl

end

/-! ### A call and the check after it -/

/-- A call of `t` runs alone from `c`, with file operations that succeed, and returns `out` in
`c'`; `h` is what it did. -/
structure Calls (c : Config sdk.system) (t : Task) (h : Past signature) (out : Outcome)
    (c' : Config sdk.system) : Prop where
  run : Run (Alone (fun ev => Worked ev = true) c.threads.length) (c.spawn t) c'
  thread : ∃ th, c'.threads[c.threads.length]? = some th ∧ th.past = h ∧ th.prog = .ret out

/-- The calls that may change the cache. -/
def Task.changes : Task → Bool
  | .activate _ | .renew .. | .deactivate .. => true
  | _ => false

theorem Calls.settled {c c' : Config sdk.system} {t : Task} {h : Past signature} {out : Outcome}
    (hcall : Calls c t h out c') (ht : t.changes = true) (hpath : sdk.cachePath ≠ none) :
    Settled sdk c.shared.cache h c'.shared := by
  obtain ⟨hrun, th, hi, rfl, hout⟩ := hcall
  have hsafe : ¬ t.isBackground = true := by
    cases t with
    | background attempt activationId licenseKey => cases ht
    | _ => exact Bool.noConfusion
  refine wpAlone_run (A := SettledAt c.shared.cache)
    (Q := fun z _ => SettledAt c.shared.cache z) hsafe ?_ ?_ hrun hi hout
  · intro z hz
    cases t with
    | background attempt activationId licenseKey => cases ht
    | _ => exact hz
  · show alone (SettledAt c.shared.cache) (sdk.body t) _ _
    cases t with
    | activate licenseKey => exact wpAlone_bind.2 (alone_activate hpath licenseKey rfl rfl)
    | renew activationId licenseKey =>
      exact wpAlone_bind.2 (alone_renew hpath activationId licenseKey rfl)
    | deactivate activationId licenseKey =>
      exact wpAlone_bind.2 (alone_deactivate hpath activationId licenseKey rfl)
    | _ => cases ht

theorem Calls.check_empty {c c' : Config sdk.system} {h : Past signature} {out : Outcome}
    (hcall : Calls c .check h out c') (hcache : c.shared.cache = none) :
    out = .license (.error .notActivated) := by
  obtain ⟨hrun, th, hi, -, hout⟩ := hcall
  refine wpAlone_run (A := fun _ => False)
    (Q := fun _ out => out = Outcome.license (.error .notActivated)) Bool.noConfusion
    (fun _ hf => hf.elim) ?_ hrun hi hout
  refine wpAlone_bind.2 (wpAlone_mono ?_ (alone_check hcache))
  rintro z result rfl
  exact rfl

/-- **What a single call deletes.**  After a call of `activate`, `renew` or `deactivate` that
runs alone, the cache is as it was or holds a new verified token, unless the server rejected the
activation that the call is about or answered the release.  Then the cache is empty, whatever it
held, and the next check finds no activation. -/
theorem manual_calls {c c' : Config sdk.system} {t : Task} {h : Past signature} {out : Outcome}
    (ht : t.changes = true) (hpath : sdk.cachePath ≠ none) (hcall : Calls c t h out c') :
    Settled sdk c.shared.cache h c'.shared ∧
      (Dropped sdk h → ∀ h' out' c'', Calls c' .check h' out' c'' →
        out' = .license (.error .notActivated)) := by
  have hset := hcall.settled ht hpath
  exact ⟨hset, fun hd _ _ _ hcheck => hcheck.check_empty (hset.dropped hd)⟩

/-- `n` moves of a call of the sample. -/
def sampleCall (c : Config sampleSdk.system) (t : Task) (n : ℕ) (reply : Reply) :
    Option (Config sampleSdk.system) :=
  play (Alone (fun ev => Worked ev = true) c.threads.length) (c.spawn t)
    (sampleMoves n c.threads.length sampleNow reply)

theorem calls_of_sampleCall {c c' : Config sampleSdk.system} {t : Task} {n : ℕ} {reply : Reply}
    {out : Outcome} (h : sampleCall c t n reply = some c')
    (hout : c'.returned c.threads.length = some out) : ∃ h, Calls c t h out c' := by
  obtain ⟨th, hi, hres⟩ := Option.bind_eq_some_iff.1 hout
  exact ⟨th.past, play_run h, th, hi, rfl, Program.result?_eq_some.1 hres⟩

/-- The sample Sdk with the token of activation `a` in its cache. -/
def sampleActivated : Config sampleSdk.system :=
  sampleSdk.start (some ("h.t.4t", sampleChain)) 0

/-- A renewal of `a` that the server answers with a newer token. -/
theorem manual_calls_sample : ∃ (c' : Config sampleSdk.system) (h : Past signature)
    (out : Outcome), Calls sampleActivated (.renew "a" "KEY") h out c' ∧
      c'.shared.cache = some ("h.u.4u", sampleChain) ∧
      Settled sampleSdk (some ("h.t.4t", sampleChain)) h c'.shared := by
  have hplay : (sampleCall sampleActivated (.renew "a" "KEY") 16 (sampleReply 117)).any
      (fun c' => decide ((c'.returned 0).isSome ∧
        c'.shared.cache = some ("h.u.4u", sampleChain))) = true := by decide +kernel
  obtain ⟨c', hc', hlast⟩ := (Option.any_eq_true _ _).1 hplay
  obtain ⟨hsome, hcache⟩ := of_decide_eq_true hlast
  obtain ⟨out, hout⟩ := Option.isSome_iff_exists.1 hsome
  obtain ⟨h, hcall⟩ := calls_of_sampleCall hc' hout
  have hpath : sampleSdk.cachePath ≠ none := by decide
  exact ⟨c', h, out, hcall, hcache, (manual_calls rfl hpath hcall).1⟩

/-- With a valid activation of another key in the cache, an activation with a mistyped key that
the server does not know deletes it, and the next check does not find it. -/
theorem mistyped_activation : ∃ lic : License,
    sampleActivated.shared.cache = some ("h.t.4t", sampleChain) ∧
    verifyActivationAnyAt sampleCrypto sampleKeys "h.t.4t" sampleChain (sampleAt sampleNow) =
      .ok lic ∧ validateAt lic "m" (sampleAt sampleNow) = .ok () ∧
    sanitizeKey samplePlatform.toUppercase "KEX" ≠ lic.key ∧
    normalizeKey samplePlatform.toUppercase "KEX" ≠ lic.aliasKey ∧
    ∃ (c' c'' : Config sampleSdk.system) (h h' : Past signature),
      Calls sampleActivated (.activate "KEX") h (.license (.error .licenseNotFound)) c' ∧
      c'.shared.cache = none ∧
      Calls c' .check h' (.license (.error .notActivated)) c'' := by
  have hplay : (sampleCall sampleActivated (.activate "KEX") 8 (.ok (404, .ok []))).any
      (fun c' => decide (c'.returned 0 = some (Outcome.license (.error .licenseNotFound)) ∧
        c'.shared.cache = none ∧ c'.threads.length = 1) &&
        (sampleCall c' .check 1 (.error "timeout")).any fun c'' =>
          decide (c''.returned 1 = some (Outcome.license (.error .notActivated)))) = true := by
    decide +kernel
  obtain ⟨c', hc', hlast⟩ := (Option.any_eq_true _ _).1 hplay
  rw [Bool.and_eq_true, decide_eq_true_eq] at hlast
  obtain ⟨⟨hout, hcache, hlen⟩, hcheck⟩ := hlast
  obtain ⟨c'', hc'', hout'⟩ := (Option.any_eq_true _ _).1 hcheck
  obtain ⟨h, hcall⟩ := calls_of_sampleCall hc' hout
  obtain ⟨h', hcall'⟩ := calls_of_sampleCall hc'' (hlen ▸ of_decide_eq_true hout')
  exact ⟨_, rfl, verify_sample, by decide +kernel, by decide +kernel, by decide +kernel, c', c'',
    h, h', hcall, hcache, hcall'⟩

end LatteRs
