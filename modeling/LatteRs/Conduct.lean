import LatteRs.Guarantees

/-!
# Every method keeps the contract

One rule for each operation and each helper of the Sdk, and from them that every
method, and every thread that unwinds, keeps `Sdk.contract`.

* `wp_clock`, …, `wp_release`: the operations;
* `wp_post`, `wp_clearCache`, `wp_saveToCache`, `wp_noteRenewal` and the other
  helpers;
* `Sdk.sound`: the contract is kept by all.
-/

namespace LatteRs

open Concurrent Act Program

variable {P : Platform} {sdk : Sdk P} {t : Task} {h : Past signature}

/-! ### Operations -/

section
variable {g : Option Shared} {s : Shared}

theorem wp_ret {α : Type} {a : α} {Q : Past signature → Option Shared → α → Prop}
    (hq : Q h g a) : wp sdk.contract t (.ret a) Q h g := hq

theorem wp_clock {Q : Past signature → Option Shared → SystemTime → Prop}
    (hq : ∀ now, Q (.did .clock now :: h) g now) : wp sdk.contract t clock Q h g := by
  cases g with
  | none => exact ⟨Bool.false_ne_true, fun _ _ now _ _ => ⟨trivial, hq now⟩⟩
  | some s => exact fun _ now _ => ⟨trivial, hq now⟩

theorem wp_loadFlag {Q : Past signature → Option Shared → Bool → Prop}
    (hq : ∀ failed, Q (.did .loadFlag failed :: h) g failed) :
    wp sdk.contract t loadFlag Q h g := by
  cases g with
  | none => exact ⟨Bool.false_ne_true, fun _ _ failed _ _ => ⟨trivial, hq failed⟩⟩
  | some s => exact fun _ failed _ => ⟨trivial, hq failed⟩

theorem wp_load {Q : Past signature → Option Shared → Option (String × CertChain) → Prop}
    (hpath : sdk.cachePath ≠ none)
    (hq : ∀ cached, (∀ s, g = some s → cached = s.cache ∨ cached = none) →
      Q (.did .load cached :: h) g cached) : wp sdk.contract t load Q h g := by
  cases g with
  | none =>
    refine ⟨Bool.false_ne_true, fun _ _ cached _ _ => ⟨hpath, hq cached ?_⟩⟩
    intro s hs
    cases hs
  | some s =>
    intro _ cached hcached
    refine ⟨hpath, hq cached ?_⟩
    intro s' hs'
    cases hs'
    exact hcached

theorem wp_loadCache {Q : Past signature → Option Shared → Option (String × CertChain) → Prop}
    (hnone : Q h g none)
    (hq : ∀ cached, (∀ s, g = some s → cached = s.cache ∨ cached = none) →
      Q (.did .load cached :: h) g cached) : wp sdk.contract t (loadCache sdk) Q h g := by
  unfold loadCache
  cases hpath : sdk.cachePath with
  | none => exact hnone
  | some path => exact wp_load (by simp [hpath]) hq

theorem wp_request {Q : Past signature → Option Shared → Answered → Prop} {client : Client}
    {url : String} {body : Body} (hsent : sent h = none)
    (hq : ∀ answered, Q (.did (.request client url body) answered :: h) none answered) :
    wp sdk.contract t (request client url body) Q h none :=
  ⟨Bool.false_ne_true, fun _ _ answered _ _ => ⟨hsent, hq answered⟩⟩

theorem wp_acquire {Q : Past signature → Option Shared → Unit → Prop}
    (hq : ∀ s, Invariant s → Q (.locked :: h) (some s) ()) :
    wp sdk.contract t acquire Q h none := hq

theorem wp_release {Q : Past signature → Option Shared → Unit → Prop} (hs : AtUnlock h s)
    (hq : Q (.unlocked :: h) none ()) : wp sdk.contract t release Q h (some s) := ⟨hs, hq⟩

theorem wp_getRenewal {Q : Past signature → Option Shared → Renewal → Prop}
    (hq : Q (.did .getRenewal s.renewal :: h) (some s) s.renewal) :
    wp sdk.contract t getRenewal Q h (some s) := by
  intro _ state hstate
  cases hstate
  exact ⟨trivial, hq⟩

theorem wp_setRenewal {Q : Past signature → Option Shared → Unit → Prop} {state : Renewal}
    (hlatest : Latest t s) (hle : s.renewal.attempt ≤ state.attempt)
    (hq : Q (.did (.setRenewal state) () :: h) (some { s with renewal := state }) ()) :
    wp sdk.contract t (setRenewal state) Q h (some s) :=
  fun _ _ _ => ⟨⟨hlatest, hle⟩, hq⟩

theorem wp_storeFlag {Q : Past signature → Option Shared → Unit → Prop}
    (ht : t.isBackground = false)
    (hq : Q (.did (.storeFlag false) () :: h) (some { s with renewalFailed := false }) ()) :
    wp sdk.contract t (storeFlag false) Q h (some s) :=
  fun _ _ _ => ⟨⟨rfl, ht⟩, hq⟩

theorem wp_save {Q : Past signature → Option Shared → Bool → Prop} {token : String}
    {chain : CertChain} (hst : t.stores = true) (hflag : s.renewalFailed = false)
    (hfenced : Fenced sdk t h s)
    (hret : Returned sdk h token chain) (hver : Verified sdk h token chain)
    (hq : ∀ done s', s'.cache = (if done then some (token, chain) else s.cache) →
      Q (.did (.save token chain) done :: h) (some s') done) :
    wp sdk.contract t (save token chain) Q h (some s) := by
  intro _ done _
  refine ⟨⟨hst, hflag, hfenced, hret, hver⟩, hq done _ ?_⟩
  cases done <;> rfl

theorem wp_clear {Q : Past signature → Option Shared → Bool → Prop}
    (hflag : s.renewalFailed = false) (hfenced : Fenced sdk t h s)
    (hrej : Rejected sdk h ∨ Released sdk h)
    (hq : ∀ done s', s'.cache = (if done then none else s.cache) →
      Q (.did .clear done :: h) (some s') done) :
    wp sdk.contract t clear Q h (some s) := by
  intro _ done _
  refine ⟨⟨hflag, hfenced, hrej⟩, hq done _ ?_⟩
  cases done <;> rfl

theorem wp_orAbort {ε α : Type} {x : Checked ε α}
    {Q : Past signature → Option Shared → Except ε α → Prop}
    (hpanic : AtPanic h t) (hok : ∀ a, x = .ok a → Q h g (.ok a))
    (herr : ∀ e, x = .error (.err e) → Q h g (.error e)) :
    wp sdk.contract t (orAbort x) Q h g := by
  match x with
  | .ok a => exact hok a rfl
  | .error (.err e) => exact herr e rfl
  | .error .panic => cases g <;> exact hpanic

end

/-! ### The cache and the flag -/

theorem fenced_of_manual (ht : t.isBackground = false) (s : Shared) : Fenced sdk t h s := by
  rintro attempt activationId licenseKey rfl
  cases ht

theorem latest_of_manual (ht : t.isBackground = false) (s : Shared) : Latest t s := by
  rintro attempt activationId licenseKey rfl
  cases ht

/-- No deletion in the section that is running. -/
def NoClear (h : Past signature) : Prop := ∀ done, Event.did Effect.clear done ∉ currentSection h

theorem NoClear.atUnlock (hn : NoClear h) (s : Shared) : AtUnlock h s :=
  fun hmem => absurd hmem (hn true)

theorem noClear_locked (h : Past signature) : NoClear (.locked :: h) := by
  intro done
  simp [currentSection]

theorem NoClear.did {e : Effect} {r : Answer e} (hn : NoClear h) (he : e ≠ .clear) :
    NoClear (.did e r :: h) := by
  intro done hmem
  rcases List.mem_cons.1 hmem with heq | hmem
  · cases heq
    exact he rfl
  · exact hn done hmem

theorem wp_clearCache {Q : Past signature → Option Shared → Unit → Prop}
    (ht : t.isBackground = false) (hrej : Rejected sdk h ∨ Released sdk h)
    (hq : ∀ h', Later h (.unlocked :: h') →
      (sdk.cachePath ≠ none → ∃ done, Event.did Effect.clear done ∈ currentSection h') →
      Q (.unlocked :: h') none ()) : wp sdk.contract t (clearCache sdk) Q h none := by
  unfold clearCache
  refine wp_bind.2 (wp_acquire fun s hs => ?_)
  refine wp_bind.2 (wp_storeFlag ht ?_)
  have hl : Later h (.did (.storeFlag false) () :: .locked :: h) :=
    ((Later.refl h).cons rfl).cons rfl
  cases hpath : sdk.cachePath with
  | none =>
    refine wp_release ?_ (hq _ (hl.cons rfl) fun hne => absurd hpath hne)
    intro hmem
    simp [currentSection] at hmem
  | some path =>
    refine wp_bind.2 (wp_clear rfl (fenced_of_manual ht _) ?_ ?_)
    · exact hrej.imp (fun h => h.later sdk hl) (fun h => h.later sdk hl)
    · intro done s' hcache
      refine wp_release ?_ (hq _ ((hl.cons rfl).cons rfl) fun _ => ⟨done, ?_⟩)
      · intro hmem
        simp only [currentSection, List.mem_cons, List.not_mem_nil, or_false, reduceCtorEq,
          Event.did.injEq, heq_eq_eq, true_and, false_and] at hmem
        subst hmem
        exact hcache
      · simp [currentSection]

theorem wp_saveToCache {Q : Past signature → Option Shared → Unit → Prop} {token : String}
    {chain : CertChain} (ht : t.isBackground = false) (hst : t.stores = true)
    (hret : Returned sdk h token chain) (hver : Verified sdk h token chain)
    (hq : ∀ h', Later h h' → Q h' none ()) :
    wp sdk.contract t (saveToCache sdk token chain) Q h none := by
  unfold saveToCache
  refine wp_bind.2 (wp_acquire fun s hs => ?_)
  refine wp_bind.2 (wp_storeFlag ht ?_)
  have hl : Later h (.did (.storeFlag false) () :: .locked :: h) :=
    ((Later.refl h).cons rfl).cons rfl
  cases sdk.cachePath with
  | none =>
    refine wp_release ?_ (hq _ (hl.cons rfl))
    intro hmem
    simp [currentSection] at hmem
  | some path =>
    refine wp_bind.2 (wp_save hst rfl (fenced_of_manual ht _) (hret.later sdk hl)
      (hver.later sdk hl) ?_)
    intro done s' _
    refine wp_release ?_ (hq _ ((hl.cons rfl).cons rfl))
    intro hmem
    simp [currentSection] at hmem

theorem wp_holdsActivation {Q : Past signature → Option Shared → Bool → Prop} {s : Shared}
    {activationId : String} (hn : NoClear h)
    (hq : ∀ h' holds, Later h h' → NoClear h' →
      (holds = true → HoldsNow sdk h' s activationId) → Q h' (some s) holds) :
    wp sdk.contract t (holdsActivation sdk activationId) Q h (some s) := by
  unfold holdsActivation
  refine wp_bind.2 (wp_loadCache ?_ ?_)
  · exact wp_ret (hq _ _ (Later.refl h) hn fun hf => by cases hf)
  · intro cached hcached
    have hn1 : NoClear (.did .load cached :: h) := hn.did Effect.noConfusion
    have hl1 : Later h (.did .load cached :: h) := (Later.refl h).cons rfl
    cases cached with
    | none => exact wp_ret (hq _ _ hl1 hn1 fun hf => by cases hf)
    | some tc =>
      obtain ⟨token, chain⟩ := tc
      refine wp_bind.2 (wp_clock fun now => ?_)
      have hn2 : NoClear (.did .clock now :: .did .load (some (token, chain)) :: h) :=
        hn1.did Effect.noConfusion
      refine wp_bind.2 (wp_orAbort ?_ ?_ ?_)
      · exact fun _ => ⟨(token, chain), by simp⟩
      · intro license hlic
        refine wp_ret (hq _ _ (hl1.cons rfl) hn2 fun hholds => ⟨now, ?_, ?_⟩)
        · simp [currentSection]
        · have hs : s.cache = some (token, chain) := by
            rcases hcached s rfl with heq | heq
            · exact heq.symm
            · cases heq
          exact ⟨token, chain, license, hs, hlic, by simpa using hholds⟩
      · intro e _
        exact wp_ret (hq _ _ (hl1.cons rfl) hn2 fun hf => by cases hf)

theorem wp_noteRenewal {Q : Past signature → Option Shared → Bool → Prop} {s : Shared}
    {activationId : String} {T : Type} {outcome : Except LatteError T} (hn : NoClear h)
    (ht : t.Renews activationId) (hlatest : Latest t s)
    (hq : ∀ h' s' holds, Later h h' → NoClear h' → s'.cache = s.cache →
      s'.renewal = s.renewal → s'.renewalFailed = (isNetwork outcome && holds) →
      (holds = true → HoldsNow sdk h' s' activationId) → Q h' (some s') holds) :
    wp sdk.contract t (noteRenewal sdk activationId outcome) Q h (some s) := by
  unfold noteRenewal
  refine wp_bind.2 (wp_holdsActivation hn fun h' holds hl hn' hholds => ?_)
  intro _ _ _
  refine ⟨⟨ht, hlatest, ?_⟩, ?_⟩
  · intro hf
    obtain ⟨hnet, hh⟩ := Bool.and_eq_true_iff.1 hf
    exact ⟨hnet, hholds hh⟩
  · refine wp_ret (hq _ _ _ (hl.cons rfl) (hn'.did Effect.noConfusion) rfl rfl rfl
      fun hh => ?_)
    obtain ⟨now, hnow, hat⟩ := hholds hh
    exact ⟨now, List.mem_cons_of_mem _ hnow, hat⟩

/-! ### The network -/

theorem wp_call {T : Type} {client : Client} {path : String} {body : Body}
    {decode : Bytes → Except String T}
    {Q : Past signature → Option Shared → Except LatteError T → Prop}
    (hsent : sent h = none)
    (hq : ∀ answered, Q (.did (.request client (sdk.baseUrl ++ path) body) answered :: h) none
      (readReply P path decode answered.reply)) :
    wp sdk.contract t (call sdk client path body decode) Q h none := by
  unfold call
  exact wp_bind.2 (wp_request hsent fun answered => wp_ret (hq answered))

theorem wp_post {client : Client} {path : String} {body : Body}
    {Q : Past signature → Option Shared → Except LatteError (String × CertChain) → Prop}
    (hsent : sent h = none)
    (hq : ∀ answered, Q (.did (.request client (sdk.baseUrl ++ path) body) answered :: h) none
      (readToken P path answered.reply)) :
    wp sdk.contract t (post sdk client path body) Q h none := by
  unfold post
  refine wp_bind.2 (wp_call hsent fun answered => ?_)
  have hq' := hq answered
  unfold readToken at hq'
  cases hr : readReply P path P.tokenResponse answered.reply with
  | error e =>
    rw [hr] at hq'
    exact wp_ret hq'
  | ok result =>
    rw [hr] at hq'
    exact wp_ret hq'

/-- The paths whose answers carry a token. -/
def TokenPath (path : String) : Prop := path = "/v1/activate" ∨ path = "/v1/renew"

theorem returned_of_sent {client : Client} {path : String} {body : Body} {answered : Answered}
    {token : String} {chain : CertChain} (hpath : TokenPath path)
    (hs : sent h = some ⟨client, sdk.baseUrl ++ path, body, answered⟩)
    (hr : readToken P path answered.reply = .ok (token, chain)) : Returned sdk h token chain := by
  obtain ⟨status, bytes, hreply, hsucc, hdec⟩ := readToken_ok hr
  refine ⟨status, bytes, ⟨_, hs, hreply, ?_⟩, hsucc, hdec⟩
  rcases hpath with rfl | rfl
  · exact Or.inl rfl
  · exact Or.inr rfl

theorem rejected_of_sent {client : Client} {path : String} {body : Body} {answered : Answered}
    {e : LatteError} (hpath : TokenPath path)
    (hs : sent h = some ⟨client, sdk.baseUrl ++ path, body, answered⟩)
    (hr : readToken P path answered.reply = .error e) (he : e.invalidates = true) :
    Rejected sdk h := by
  obtain ⟨status, body, hreply, hstatus⟩ := readToken_invalidates.1 ⟨e, hr, he⟩
  refine ⟨status, body, ⟨_, hs, hreply, ?_⟩, hstatus⟩
  rcases hpath with rfl | rfl
  · exact Or.inl rfl
  · exact Or.inr rfl

theorem wp_postAndHandleInvalidation {path : String} {body : Body}
    {Q : Past signature → Option Shared → Except LatteError (String × CertChain) → Prop}
    (ht : t.isBackground = false) (hpath : TokenPath path) (hsent : sent h = none)
    (hq : ∀ h' answered, sent h' = some ⟨.http, sdk.baseUrl ++ path, body, answered⟩ →
      Q h' none (readToken P path answered.reply)) :
    wp sdk.contract t (postAndHandleInvalidation sdk path body) Q h none := by
  unfold postAndHandleInvalidation
  refine wp_bind.2 (wp_post hsent fun answered => ?_)
  have hq' : ∀ h', Later (.did (.request .http (sdk.baseUrl ++ path) body) answered :: h) h' →
      Q h' none (readToken P path answered.reply) :=
    fun h' hl => hq h' answered hl.sent_eq
  cases hr : readToken P path answered.reply with
  | ok tc =>
    rw [hr] at hq'
    exact wp_ret (hq' _ (Later.refl _))
  | error e =>
    rw [hr] at hq'
    simp only
    by_cases he : e.invalidates = true
    · rw [if_pos he]
      refine wp_bind.2 (wp_clearCache ht (Or.inl (rejected_of_sent hpath rfl hr he)) ?_)
      intro h' hl _
      exact wp_ret (hq' _ hl)
    · rw [if_neg he]
      exact wp_ret (hq' _ (Later.refl _))

theorem wp_verifyAndValidate {token : String} {chain : CertChain} {g : Option Shared}
    {Q : Past signature → Option Shared → Except LatteError PublicLicense → Prop}
    (hst : t.stores = true)
    (hok : ∀ h' lic, Later h h' → Verified sdk h' token chain → Q h' g (.ok lic))
    (herr : ∀ h' e, Later h h' → e.invalidates = false → Q h' g (.error e)) :
    wp sdk.contract t (verifyAndValidate sdk token chain) Q h g := by
  unfold verifyAndValidate
  refine wp_bind.2 (wp_clock fun now => wp_bind.2 (wp_orAbort ?_ ?_ ?_))
  · rintro rfl
    cases hst
  · intro lic hlic
    exact wp_ret (hok _ _ ((Later.refl h).cons rfl) ⟨now, lic, List.mem_cons_self, hlic⟩)
  · intro e _
    exact wp_ret (herr _ _ ((Later.refl h).cons rfl) rfl)

/-! ### The methods -/

/-- The end of `activate` and of `renew`: verify what the server returned, and save it. -/
theorem wp_verifyAndSave {token : String} {chain : CertChain}
    {Q : Past signature → Option Shared → Except LatteError PublicLicense → Prop}
    (ht : t.isBackground = false) (hst : t.stores = true) (hret : Returned sdk h token chain)
    (hq : ∀ h' result, Q h' none result) :
    wp sdk.contract t (verifyAndValidate sdk token chain >>= fun verified =>
      match verified with
      | .error e => .ret (.error e)
      | .ok lic => do
        saveToCache sdk token chain
        .ret (.ok lic)) Q h none := by
  refine wp_bind.2 (wp_verifyAndValidate hst ?_ ?_)
  · intro h' lic hl hver
    refine wp_bind.2 (wp_saveToCache ht hst (hret.later sdk hl) hver ?_)
    intro h'' _
    exact wp_ret (hq _ _)
  · intro h' e _ _
    exact wp_ret (hq _ _)

theorem wp_activateOnline {normalized : String}
    {Q : Past signature → Option Shared → Except LatteError PublicLicense → Prop}
    (ht : t.isBackground = false) (hst : t.stores = true) (hsent : sent h = none)
    (hq : ∀ h' result, Q h' none result) :
    wp sdk.contract t (activateOnline sdk normalized) Q h none := by
  unfold activateOnline
  refine wp_bind.2 (wp_postAndHandleInvalidation ht (Or.inl rfl) hsent fun h' answered hs => ?_)
  cases hr : readToken P "/v1/activate" answered.reply with
  | error e => exact wp_ret (hq _ _)
  | ok tc =>
    obtain ⟨token, chain⟩ := tc
    exact wp_verifyAndSave ht hst (returned_of_sent (Or.inl rfl) hs hr) hq

theorem wp_cachedLicense
    {Q : Past signature → Option Shared → Option (PublicLicense × String) → Prop}
    (hq : ∀ h' cached, Later h h' → Q h' none cached) :
    wp sdk.contract t (cachedLicense sdk) Q h none := by
  unfold cachedLicense
  refine wp_bind.2 (wp_loadCache (wp_ret (hq _ _ (Later.refl h))) fun cached _ => ?_)
  have hl : Later h (.did .load cached :: h) := (Later.refl h).cons rfl
  cases cached with
  | none => exact wp_ret (hq _ _ hl)
  | some tc =>
    obtain ⟨token, chain⟩ := tc
    refine wp_bind.2 (wp_clock fun now => wp_bind.2 (wp_orAbort ?_ ?_ ?_))
    · exact fun _ => ⟨(token, chain), by simp⟩
    · intro license _
      refine wp_bind.2 (wp_orAbort ?_ ?_ ?_)
      · exact fun _ => ⟨(token, chain), by simp⟩
      · intro _ _
        refine wp_bind.2 (wp_loadFlag fun failed => wp_ret (hq _ _ ?_))
        exact (hl.cons rfl).cons rfl
      · intro e _
        exact wp_ret (hq _ _ (hl.cons rfl))
    · intro e _
      exact wp_ret (hq _ _ (hl.cons rfl))

theorem wp_activate {licenseKey : String}
    {Q : Past signature → Option Shared → Except LatteError PublicLicense → Prop}
    (ht : t.isBackground = false) (hst : t.stores = true) (hsent : sent h = none)
    (hq : ∀ h' result, Q h' none result) :
    wp sdk.contract t (activate sdk licenseKey) Q h none := by
  unfold activate
  simp only
  cases validateLicenseKey (normalizeKey P.toUppercase licenseKey) with
  | error e => exact wp_ret (hq _ _)
  | ok u =>
    refine wp_bind.2 (wp_cachedLicense fun h' cached hl => ?_)
    have hsent' : sent h' = none := hl.sent_eq.trans hsent
    cases cached with
    | none => exact wp_activateOnline ht hst hsent' hq
    | some pair =>
      obtain ⟨lic, aliasKey⟩ := pair
      simp only
      split_ifs with hmatch
      · exact wp_ret (hq _ _)
      · exact wp_activateOnline ht hst hsent' hq

theorem wp_renew {activationId licenseKey : String}
    {Q : Past signature → Option Shared → Except LatteError PublicLicense → Prop}
    (hsent : sent h = none) (hq : ∀ h' result, Q h' none result) :
    wp sdk.contract (.renew activationId licenseKey) (renew sdk activationId licenseKey) Q h
      none := by
  have ht : (Task.renew activationId licenseKey).isBackground = false := rfl
  unfold renew
  refine wp_bind.2 (wp_clock fun now => ?_)
  refine wp_bind.2 (wp_acquire fun s _ => ?_)
  refine wp_bind.2 (wp_getRenewal ?_)
  refine wp_bind.2 (wp_setRenewal (latest_of_manual ht _) (le_refl _) ?_)
  refine wp_bind.2 (wp_release ?_ ?_)
  · intro hmem
    simp [currentSection] at hmem
  · refine wp_bind.2 (wp_postAndHandleInvalidation ht (Or.inr rfl) hsent
      fun h' answered hs => ?_)
    refine wp_bind.2 (wp_acquire fun s _ => ?_)
    refine wp_bind.2 (wp_noteRenewal (noClear_locked h') (Or.inl ⟨licenseKey, rfl⟩)
      (latest_of_manual ht _) ?_)
    intro h'' s' holds hl hn _ _ _ _
    refine wp_bind.2 (wp_release (hn.atUnlock _) ?_)
    cases hr : readToken P "/v1/renew" answered.reply with
    | error e => exact wp_ret (hq _ _)
    | ok tc =>
      obtain ⟨token, chain⟩ := tc
      have hret : Returned sdk h'' token chain :=
        (returned_of_sent (Or.inr rfl) hs hr).later sdk
          (((Later.refl h').cons rfl).trans hl)
      exact wp_verifyAndSave ht rfl (hret.later sdk ((Later.refl h'').cons rfl)) hq

theorem wp_deactivate {activationId licenseKey : String}
    {Q : Past signature → Option Shared → Except LatteError DeactivateResult → Prop}
    (ht : t.isBackground = false) (hsent : sent h = none)
    (hok : ∀ h' result, (sdk.cachePath ≠ none →
      ∃ done, Event.did Effect.clear done ∈ currentSection h') →
      Q (.unlocked :: h') none (.ok result))
    (herr : ∀ h' e, Q h' none (.error e)) :
    wp sdk.contract t (deactivate sdk activationId licenseKey) Q h none := by
  unfold deactivate
  refine wp_bind.2 (wp_call hsent fun answered => ?_)
  cases hr : readReply P "/v1/deactivate" P.deactivateResult answered.reply with
  | error e => exact wp_ret (herr _ _)
  | ok result =>
    obtain ⟨status, bytes, hreply, hsucc, hdec⟩ := readReply_eq_ok.1 hr
    refine wp_bind.2 (wp_clearCache ht (Or.inr ?_) ?_)
    · exact ⟨_, status, bytes, result, rfl, rfl, hreply, hsucc, hdec⟩
    · intro h' _ hclear
      exact wp_ret (hok _ _ hclear)

theorem due_of_not_running {state : Renewal} {now : SystemTime}
    (hnot : ¬ ((state.inFlight.any fun t => since now t ≤ 2 * renewRetry) ||
      state.lastAttempt.any fun t => since now t < renewRetry) = true) : Due state now := by
  rw [Bool.or_eq_true, not_or] at hnot
  obtain ⟨hrun, hrecent⟩ := hnot
  simp only [Option.any_eq_true, decide_eq_true_eq, not_exists, not_and, not_le,
    not_lt] at hrun hrecent
  exact ⟨hrun, hrecent⟩

/-- `renewInBackground` for a token that was loaded, verified and is this machine's. -/
theorem wp_renewInBackground {token : String} {chain : CertChain} {checked : SystemTime}
    {license : License} {Q : Past signature → Option Shared → Unit → Prop}
    (ht : t.isBackground = false) (hload : Event.did Effect.load (some (token, chain)) ∈ h)
    (hclock : Event.did Effect.clock checked ∈ h)
    (hver : verifyActivationAnyAt P.toCrypto sdk.masterPubs token chain checked = .ok license)
    (hmid : license.machineId = sdk.machineId) (haid : license.activationId ≠ "")
    (hkey : license.key ≠ "") (hq : ∀ h', Later h h' → Q h' none ()) :
    wp sdk.contract t (renewInBackground license) Q h none := by
  unfold renewInBackground
  refine wp_bind.2 (wp_clock fun now => ?_)
  have hl : Later h (.did .clock now :: h) := (Later.refl h).cons rfl
  split_ifs with hage
  · exact wp_ret (hq _ hl)
  · refine wp_bind.2 ⟨fun s hs => ?_, wp_ret (hq _ (hl.cons rfl))⟩
    refine wp_bind.2 (wp_getRenewal ?_)
    have hl' : Later h (.did .getRenewal s.renewal :: .triedLock true :: .did .clock now :: h) :=
      (hl.cons rfl).cons rfl
    have hn : NoClear (.did .getRenewal s.renewal :: .triedLock true :: .did .clock now :: h) := by
      intro done
      simp [currentSection]
    dsimp only
    split_ifs with hrunning hfull
    · exact wp_release (hn.atUnlock s) (hq _ (hl'.cons rfl))
    · have hstart : AtStart sdk
          (.did (.setRenewal ⟨s.renewal.attempt + 1, some now, some now⟩) () ::
            .did .getRenewal s.renewal :: .triedLock true :: .did .clock now :: h)
          (.background (s.renewal.attempt + 1) license.activationId license.key)
          { s with renewal := ⟨s.renewal.attempt + 1, some now, some now⟩ } := by
        refine ⟨token, chain, checked, license, now, s.renewal, ?_, ?_, hver, hmid, haid, hkey, ?_,
          not_lt.1 hage, ?_, due_of_not_running hrunning, rfl, Nat.lt_succ_of_le hs, rfl⟩
        · simp [hload]
        · simp [hclock]
        · simp
        · simp
      refine wp_bind.2 (wp_setRenewal (latest_of_manual ht _) (Nat.le_succ _) ?_)
      refine wp_bind.2 ⟨hstart, ?_, ?_⟩
      · refine wp_release (NoClear.atUnlock ?_ _) (hq _ (((hl'.cons rfl).cons rfl).cons rfl))
        intro done hmem
        simp [currentSection] at hmem
      · refine wp_bind.2 (wp_setRenewal (latest_of_manual ht _) (le_refl _) ?_)
        refine wp_release (NoClear.atUnlock ?_ _)
          (hq _ ((((hl'.cons rfl).cons rfl).cons rfl).cons rfl))
        intro done hmem
        simp [currentSection] at hmem
    · intro _
      exact ⟨(token, chain), hl'.subset hload⟩

theorem wp_check {Q : Past signature → Option Shared → Except LatteError PublicLicense → Prop}
    (ht : t.isBackground = false)
    (hq : ∀ h' result, (result = .error .notActivated ∨
      ∃ loaded, Event.did Effect.load (some loaded) ∈ h') → Q h' none result) :
    wp sdk.contract t (check sdk) Q h none := by
  unfold check
  refine wp_bind.2 (wp_loadCache (wp_ret (hq _ _ (Or.inl rfl))) fun cached _ => ?_)
  cases cached with
  | none => exact wp_ret (hq _ _ (Or.inl rfl))
  | some tc =>
    obtain ⟨token, chain⟩ := tc
    have hpanic : ∀ now : SystemTime,
        AtPanic (.did .clock now :: .did .load (some (token, chain)) :: h) t :=
      fun _ _ => ⟨(token, chain), by simp⟩
    refine wp_bind.2 (wp_clock fun now => wp_bind.2 (wp_orAbort (hpanic now) ?_ ?_))
    · intro license hlic
      -- from here on the past has the load of the token
      have hq' : ∀ h' result, Later (.did .clock now :: .did .load (some (token, chain)) :: h) h' →
          Q h' none result := by
        intro h' result hl
        refine hq _ _ (Or.inr ⟨(token, chain), hl.subset ?_⟩)
        exact List.mem_cons_of_mem _ List.mem_cons_self
      -- whatever comes after the start of the background renewal
      have hrenew : ∀ p : Act (Except LatteError PublicLicense),
          (∀ h', Later (.did .clock now :: .did .load (some (token, chain)) :: h) h' →
            wp sdk.contract t p Q h' none) →
          wp sdk.contract t ((if license.machineId = sdk.machineId ∧ license.activationId ≠ "" ∧
              license.key ≠ "" then renewInBackground license else .ret ()) >>= fun _ => p) Q
            (.did .clock now :: .did .load (some (token, chain)) :: h) none := by
        intro p hp
        split_ifs with hmine
        · obtain ⟨hmid, haid, hkey⟩ := hmine
          refine wp_bind.2 (wp_renewInBackground ht ?_ List.mem_cons_self hlic hmid haid hkey hp)
          exact List.mem_cons_of_mem _ List.mem_cons_self
        · exact hp _ (Later.refl _)
      refine wp_bind.2 (wp_orAbort (hpanic now) ?_ ?_)
      · intro u _
        refine hrenew _ fun h' hl => ?_
        exact wp_bind.2 (wp_loadFlag fun failed => wp_ret (hq' _ _ (hl.cons rfl)))
      · intro e _
        refine hrenew _ fun h' hl => ?_
        cases e <;> exact wp_ret (hq' _ _ hl)
    · intro e _
      exact wp_ret (hq _ _ (Or.inl rfl))

/-! ### Background renewals -/

theorem wp_dropInFlight {attempt : ℕ} {Q : Past signature → Option Shared → Unit → Prop}
    (hlatest : ∀ s : Shared, s.renewal.attempt = attempt → Latest t s)
    (hq : ∀ h', Q h' none ()) : wp sdk.contract t (dropInFlight attempt) Q h none := by
  unfold dropInFlight
  refine wp_bind.2 (wp_acquire fun s _ => wp_bind.2 (wp_getRenewal ?_))
  have hn : NoClear (.did .getRenewal s.renewal :: .locked :: h) :=
    (noClear_locked h).did Effect.noConfusion
  split_ifs with hmine
  · refine wp_bind.2 (wp_setRenewal (hlatest s hmine) (le_refl _) ?_)
    exact wp_release ((hn.did Effect.noConfusion).atUnlock _) (hq _)
  · exact wp_release (hn.atUnlock s) (hq _)

/-- What a background renewal knows of its outcome. -/
structure Earned (sdk : Sdk P) (h : Past signature)
    (renewed : Except LatteError (String × CertChain)) : Prop where
  ok : ∀ token chain, renewed = .ok (token, chain) →
    Returned sdk h token chain ∧ Verified sdk h token chain
  error : ∀ e, renewed = .error e → e.invalidates = true → Rejected sdk h

theorem Earned.later {h' : Past signature} {renewed : Except LatteError (String × CertChain)}
    (he : Earned sdk h renewed) (hl : Later h h') : Earned sdk h' renewed where
  ok token chain hr := by
    obtain ⟨hret, hver⟩ := he.ok token chain hr
    exact ⟨hret.later sdk hl, hver.later sdk hl⟩
  error e hr hinv := (he.error e hr hinv).later sdk hl

theorem wp_postVerified {activationId licenseKey : String}
    {Q : Past signature → Option Shared → Except LatteError (String × CertChain) → Prop}
    (hst : t.stores = true) (hsent : sent h = none)
    (hq : ∀ h' renewed, Earned sdk h' renewed → Q h' none renewed) :
    wp sdk.contract t (postVerified sdk activationId licenseKey) Q h none := by
  unfold postVerified
  refine wp_bind.2 (wp_post hsent fun answered => ?_)
  cases hr : readToken P "/v1/renew" answered.reply with
  | error e =>
    refine wp_ret (hq _ _ ⟨fun _ _ heq => (by cases heq), fun e' heq he => ?_⟩)
    cases heq
    exact rejected_of_sent (Or.inr rfl) rfl hr he
  | ok tc =>
    obtain ⟨token, chain⟩ := tc
    refine wp_bind.2 (wp_verifyAndValidate hst ?_ ?_)
    · intro h' lic hl hver
      refine wp_ret (hq _ _ ⟨fun token' chain' heq => ?_, fun _ heq => (by cases heq)⟩)
      cases heq
      exact ⟨(returned_of_sent (Or.inr rfl) rfl hr).later sdk hl, hver⟩
    · -- a token that does not verify is a server error, which deletes nothing
      intro h' e _ he
      refine wp_ret (hq _ _ ⟨fun _ _ heq => (by cases heq), fun e' heq he' => ?_⟩)
      cases heq
      rw [he] at he'
      cases he'

theorem isNetwork_of_invalidates {T : Type} {e : LatteError} (he : e.invalidates = true) :
    isNetwork (.error e : Except LatteError T) = false := by
  cases e <;> first | rfl | cases he

theorem wp_storeRenewed {s : Shared} {renewed : Except LatteError (String × CertChain)}
    {Q : Past signature → Option Shared → Unit → Prop} (hn : NoClear h)
    (hst : t.stores = true) (hflag : isNetwork renewed = false → s.renewalFailed = false)
    (hfenced : Fenced sdk t h s) (hearned : Earned sdk h renewed) (hq : ∀ h', Q h' none ()) :
    wp sdk.contract t (storeRenewed renewed) Q h (some s) := by
  unfold storeRenewed
  cases renewed with
  | ok tc =>
    obtain ⟨token, chain⟩ := tc
    obtain ⟨hret, hver⟩ := hearned.ok token chain rfl
    refine wp_bind.2 (wp_save hst (hflag rfl) hfenced hret hver fun done s' _ => ?_)
    exact wp_release ((hn.did Effect.noConfusion).atUnlock _) (hq _)
  | error e =>
    simp only
    split_ifs with he
    · refine wp_bind.2 (wp_clear (hflag (isNetwork_of_invalidates he)) hfenced
        (Or.inl (hearned.error e rfl he)) fun done s' hcache => ?_)
      refine wp_release ?_ (hq _)
      intro hmem
      rcases List.mem_cons.1 hmem with heq | hmem
      · cases heq
        exact hcache
      · exact absurd hmem (hn true)
    · exact wp_release (hn.atUnlock s) (hq _)

theorem wp_renewAndStore {attempt : ℕ} {activationId licenseKey : String}
    {Q : Past signature → Option Shared → Unit → Prop} (hsent : sent h = none)
    (hq : ∀ h', Q h' none ()) :
    wp sdk.contract (.background attempt activationId licenseKey)
      (renewAndStore sdk attempt activationId licenseKey) Q h none := by
  have hlatest : ∀ s : Shared, s.renewal.attempt = attempt →
      Latest (.background attempt activationId licenseKey) s := by
    rintro s hs _ _ _ heq
    cases heq
    exact hs
  have hdrop : ∀ h', wp sdk.contract (.background attempt activationId licenseKey)
      (dropInFlight attempt) Q h' none := fun h' => wp_dropInFlight hlatest hq
  unfold renewAndStore
  refine wp_bind.2 (wp_postVerified rfl hsent fun h' renewed hearned => ?_)
  refine wp_bind.2 (wp_acquire fun s _ => wp_bind.2 (wp_getRenewal ?_))
  have hn : NoClear (.did .getRenewal s.renewal :: .locked :: h') :=
    (noClear_locked h').did Effect.noConfusion
  have hl : Later h' (.did .getRenewal s.renewal :: .locked :: h') :=
    ((Later.refl h').cons rfl).cons rfl
  split_ifs with hatt
  · -- a newer renewal has taken over
    exact wp_bind.2 (wp_release (hn.atUnlock s) (hdrop _))
  · have hmine : s.renewal.attempt = attempt := not_not.1 hatt
    refine wp_bind.2 (wp_noteRenewal hn (Or.inr ⟨attempt, licenseKey, rfl⟩) (hlatest s hmine) ?_)
    intro h'' s' holds hl' hn' hcache hrenewal hflag hholds
    split_ifs with hstore
    · rw [Bool.and_eq_true] at hstore
      refine wp_bind.2 (wp_storeRenewed hn' rfl ?_ ?_ (hearned.later (hl.trans hl')) hdrop)
      · intro hnet
        rw [hflag, hnet, Bool.false_and]
      · rintro _ _ _ heq
        cases heq
        exact ⟨by rw [hrenewal, hmine], hholds hstore.1⟩
    · exact wp_bind.2 (wp_release (hn'.atUnlock s') (hdrop _))

/-! ### All tasks -/

/-- Every method, and every thread that unwinds, keeps the contract. -/
theorem Sdk.sound (sdk : Sdk P) : sdk.contract.Sound where
  quiet e r s he := write_quiet he
  act t h e r s w hs _ hg := invariant_write sdk hs hg
  start t h c s _ hg := invariant_forked sdk hg
  body t := by
    show wp sdk.contract t (sdk.body t) _ [] none
    cases t with
    | activate licenseKey =>
      exact wp_bind.2 (wp_activate rfl rfl rfl fun _ _ => ⟨rfl, trivial⟩)
    | renew activationId licenseKey =>
      exact wp_bind.2 (wp_renew rfl fun _ _ => ⟨rfl, trivial⟩)
    | deactivate activationId licenseKey =>
      refine wp_bind.2 (wp_deactivate rfl rfl ?_ ?_)
      · intro h' result hclear
        exact ⟨rfl, h', rfl, hclear⟩
      · intro h' e
        exact ⟨rfl, trivial⟩
    | machines activationId licenseKey =>
      exact wp_bind.2 (wp_call rfl fun _ => ⟨rfl, trivial⟩)
    | renameMachine activationId licenseKey name =>
      exact wp_bind.2 (wp_call rfl fun _ => ⟨rfl, trivial⟩)
    | check =>
      refine wp_bind.2 (wp_check rfl ?_)
      rintro h' result (rfl | hload)
      · exact ⟨rfl, Or.inl rfl⟩
      · exact ⟨rfl, Or.inr hload⟩
    | background attempt activationId licenseKey =>
      exact wp_bind.2 (wp_renewAndStore rfl fun _ => ⟨rfl, trivial⟩)
  handler t h habort := by
    show wp sdk.contract t (handler t) _ h none
    cases t with
    | background attempt activationId licenseKey =>
      refine wp_bind.2 (wp_dropInFlight ?_ fun _ => ⟨rfl, trivial⟩)
      rintro s hs _ _ _ heq
      cases heq
      exact hs
    | check =>
      rcases habort with hbackground | habort
      · cases hbackground
      · exact ⟨rfl, Or.inr (habort rfl)⟩
    | _ => exact ⟨rfl, trivial⟩

end LatteRs
