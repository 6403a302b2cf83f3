import LatteRs.Conduct

/-!
# Who may change the cache

Over every run of an Sdk and its clones, whatever the clock, the server and the
file system do:

* `shared_cases`: the steps that change the shared state;
* `cache_changes`: a step that changes the cache stores a token that its thread
  got and verified, or empties it on an answer that says so;
* `background_writes`: a background renewal writes only while it is the latest
  one and the cache holds the activation it renewed.
-/

namespace LatteRs

open Concurrent

variable {P : Platform} {sdk : Sdk P}

/-- Any run. -/
abbrev AnyRun {sdk : Sdk P} (c c' : Config sdk.system) : Prop := Run (fun _ _ _ => True) c c'

theorem kept_of_run {cache : Option (String × CertChain)} {newest : ℤ} {c : Config sdk.system}
    (h : AnyRun (sdk.start cache newest) c) : sdk.contract.Kept c :=
  (Contract.Kept.init (invariant_new cache)).run sdk.sound h

/-! ### Steps that change the shared state -/

/-- How a step labelled so changes the shared state from `s` to `s'`. -/
inductive Changes (s s' : Shared) : Label signature → Prop
  | save (i : ℕ) (token : String) (chain : CertChain)
      (h : s' = { s with cache := some (token, chain) }) :
      Changes s s' (.op i (.did (.save token chain) true))
  | clear (i : ℕ) (h : s' = { s with cache := none }) : Changes s s' (.op i (.did .clear true))
  | setRenewal (i : ℕ) (state : Renewal) (h : s' = { s with renewal := state }) :
      Changes s s' (.op i (.did (.setRenewal state) ()))
  | storeFlag (i : ℕ) (failed : Bool) (h : s' = { s with renewalFailed := failed }) :
      Changes s s' (.op i (.did (.storeFlag failed) ()))
  | noteFlag (i : ℕ) (activationId : String) (network failed : Bool)
      (h : s' = { s with renewalFailed := failed }) :
      Changes s s' (.op i (.did (.noteFlag activationId network failed) ()))
  | fork (i attempt : ℕ) (activationId licenseKey : String)
      (h : s' = { s with spawned := attempt }) :
      Changes s s' (.op i (.forked (.background attempt activationId licenseKey) true))

/-- A step leaves the shared state alone or is one of those that change it. -/
theorem shared_cases {c c' : Config sdk.system} {l : Label signature} (hstep : Step c l c') :
    c'.shared = c.shared ∨ Changes c.shared c'.shared l := by
  have hshared := hstep.shared
  cases l with
  | call t => exact Or.inl hshared
  | panic i => exact Or.inl hshared
  | op i ev =>
    cases ev with
    | did e r =>
      cases e with
      | save token chain =>
        cases r with
        | false => exact Or.inl hshared
        | true => exact Or.inr (.save i token chain hshared)
      | clear =>
        cases r with
        | false => exact Or.inl hshared
        | true => exact Or.inr (.clear i hshared)
      | setRenewal state => exact Or.inr (.setRenewal i state hshared)
      | storeFlag failed => exact Or.inr (.storeFlag i failed hshared)
      | noteFlag activationId network failed =>
        exact Or.inr (.noteFlag i activationId network failed hshared)
      | _ => exact Or.inl hshared
    | forked t started =>
      cases started with
      | false => exact Or.inl hshared
      | true =>
        cases t with
        | background attempt activationId licenseKey =>
          exact Or.inr (.fork i attempt activationId licenseKey hshared)
        | _ => exact Or.inl hshared
    | _ => exact Or.inl hshared

/-- A step that changes the cache is a successful save or a successful deletion. -/
theorem cache_change_cases {c c' : Config sdk.system} {l : Label signature}
    (hstep : Step c l c') (hchange : c'.shared.cache ≠ c.shared.cache) :
    ∃ i, (∃ token chain, l = .op i (.did (.save token chain) true) ∧
        c'.shared.cache = some (token, chain)) ∨
      l = .op i (.did .clear true) ∧ c'.shared.cache = none := by
  rcases shared_cases hstep with hsame | hcases
  · rw [hsame] at hchange
    exact absurd rfl hchange
  · cases hcases with
    | save i token chain h => exact ⟨i, Or.inl ⟨token, chain, rfl, by rw [h]⟩⟩
    | clear i h => exact ⟨i, Or.inr ⟨rfl, by rw [h]⟩⟩
    | setRenewal i state h => exact absurd (by rw [h]) hchange
    | storeFlag i failed h => exact absurd (by rw [h]) hchange
    | noteFlag i activationId network failed h => exact absurd (by rw [h]) hchange
    | fork i attempt activationId licenseKey h => exact absurd (by rw [h]) hchange

/-- A thread makes only one request: past it, its events only grow. -/
theorem later_of_step {c c' : Config sdk.system} {l : Label signature}
    (hk : sdk.contract.Kept c) (hstep : Step c l c') {i : ℕ} {th : Thread signature}
    (hi : c.threads[i]? = some th) (hs : sent th.past ≠ none) :
    ∃ th', c'.threads[i]? = some th' ∧ Later th.past th'.past := by
  obtain ⟨hlt, -⟩ := List.getElem?_eq_some_iff.1 hi
  have hlt' := Nat.lt_of_lt_of_le hlt hstep.length_le
  obtain ⟨th', hi'⟩ : ∃ th', c'.threads[i]? = some th' := ⟨_, List.getElem?_eq_getElem hlt'⟩
  refine ⟨th', hi', ?_⟩
  rcases hstep.thread_cases hi' with ⟨t, hlen, -⟩ | ⟨th₀, hi₀, h⟩
  · omega
  · rw [hi] at hi₀
    cases hi₀
    rcases h with rfl | ⟨ev, p, rfl, rfl⟩ | ⟨-, rfl⟩
    · exact Later.refl _
    · refine (Later.refl _).cons ?_
      cases ev with
      | did e r =>
        cases e with
        | request client url body =>
          obtain ⟨th', hi', hguar⟩ := hk.guar sdk.sound hstep
          rw [hi] at hi'
          cases hi'
          exact absurd hguar hs
        | _ => rfl
      | _ => rfl
    · exact Later.refl _

/-- The cached token and chain were returned to some thread, which verified them. -/
def CacheOrigin (c : Config sdk.system) : Prop :=
  ∀ token chain, c.shared.cache = some (token, chain) → ∃ (i : ℕ) (th : Thread signature),
    c.threads[i]? = some th ∧ Returned sdk th.past token chain ∧ Verified sdk th.past token chain

theorem cacheOrigin_step {c c' : Config sdk.system} {l : Label signature}
    (hk : sdk.contract.Kept c) (ho : CacheOrigin c) (hstep : Step c l c') : CacheOrigin c' := by
  -- a thread that got and verified the token keeps that in its past
  have keep : ∀ token chain, (∃ (i : ℕ) (th : Thread signature), c.threads[i]? = some th ∧
      Returned sdk th.past token chain ∧ Verified sdk th.past token chain) →
      ∃ (i : ℕ) (th : Thread signature), c'.threads[i]? = some th ∧
        Returned sdk th.past token chain ∧ Verified sdk th.past token chain := by
    rintro token chain ⟨i, th, hi, hret, hver⟩
    have hs : sent th.past ≠ none := by
      obtain ⟨_, _, ⟨q, hq, -⟩, -⟩ := hret
      simp [hq]
    obtain ⟨th', hi', hl⟩ := later_of_step hk hstep hi hs
    exact ⟨i, th', hi', hret.later sdk hl, hver.later sdk hl⟩
  intro token chain hcache
  by_cases hchange : c'.shared.cache = c.shared.cache
  · rw [hchange] at hcache
    exact keep token chain (ho token chain hcache)
  · rcases cache_change_cases hstep hchange with ⟨i, ⟨token', chain', rfl, hsaved⟩ | ⟨-, hnone⟩⟩
    · rw [hsaved] at hcache
      cases hcache
      obtain ⟨th, hi, -, -, -, hret, hver⟩ := hk.guar sdk.sound hstep
      exact keep token chain ⟨i, th, hi, hret, hver⟩
    · rw [hnone] at hcache
      cases hcache

/-- **What may change the cache.**  A step that changes it stores a token and chain that the
server returned to its thread for an `activate` or a `renew` and that the thread verified and
validated, or empties it when the server rejected such a request or answered a `deactivate`.
A cache that starts empty holds only such tokens. -/
theorem cache_changes {cache : Option (String × CertChain)} {newest : ℤ}
    {c : Config sdk.system} (hrun : AnyRun (sdk.start cache newest) c) :
    (∀ l c', Step c l c' → c'.shared.cache ≠ c.shared.cache →
      ∃ (i : ℕ) (th : Thread signature), c.threads[i]? = some th ∧
        ((∃ token chain, l = .op i (.did (.save token chain) true) ∧
            c'.shared.cache = some (token, chain) ∧ Returned sdk th.past token chain ∧
            Verified sdk th.past token chain) ∨
          l = .op i (.did .clear true) ∧ c'.shared.cache = none ∧
            (Rejected sdk th.past ∨ Released sdk th.past))) ∧
    (cache = none → ∀ token chain, c.shared.cache = some (token, chain) →
      ∃ (i : ℕ) (th : Thread signature), c.threads[i]? = some th ∧
        Returned sdk th.past token chain ∧ Verified sdk th.past token chain) := by
  have hk := kept_of_run hrun
  constructor
  · intro l c' hstep hchange
    rcases cache_change_cases hstep hchange with ⟨i, ⟨token, chain, rfl, hsaved⟩ | ⟨rfl, hnone⟩⟩
    · obtain ⟨th, hi, -, -, -, hret, hver⟩ := hk.guar sdk.sound hstep
      exact ⟨i, th, hi, Or.inl ⟨token, chain, rfl, hsaved, hret, hver⟩⟩
    · obtain ⟨th, hi, -, -, hrej⟩ := hk.guar sdk.sound hstep
      exact ⟨i, th, hi, Or.inr ⟨rfl, hnone, hrej⟩⟩
  · rintro rfl
    have horigin : sdk.contract.Kept c ∧ CacheOrigin c := by
      refine hrun.preserves (I := fun c => sdk.contract.Kept c ∧ CacheOrigin c) ?_ ⟨?_, ?_⟩
      · rintro c l c' ⟨hk, ho⟩ hstep -
        exact ⟨hk.step sdk.sound hstep, cacheOrigin_step hk ho hstep⟩
      · exact Contract.Kept.init (invariant_new none)
      · rintro token chain hcache
        cases hcache
    exact horigin.2

/-- An activation on an empty cache, up to the write and with it. -/
theorem cache_changes_sample : ∃ (c c' : Config sampleSdk.system) (th : Thread signature),
    AnyRun (sampleSdk.start none 0) c ∧ c'.shared.cache = some ("h.t.4t", sampleChain) ∧
      c.threads[0]? = some th ∧ Returned sampleSdk th.past "h.t.4t" sampleChain ∧
      Verified sampleSdk th.past "h.t.4t" sampleChain := by
  have hplay : (play (fun _ _ _ => True) (sampleSdk.start none 0)
      (.call (.activate "KEY") :: sampleMoves 5 0 sampleNow (sampleReply 116))).any
      (fun c => (c.next (.go 0 (sampleOracle sampleNow (sampleReply 116)))).any fun s =>
        decide (s.2.shared.cache ≠ c.shared.cache ∧ s.1.thread = some 0 ∧
          s.2.shared.cache = some ("h.t.4t", sampleChain))) = true := by decide +kernel
  obtain ⟨c, hc, hnext⟩ := (Option.any_eq_true _ _).1 hplay
  obtain ⟨l, c', hrun, hstep, hchange, hl, hcache⟩ := play_step (Q := fun c l c' =>
    c'.shared.cache ≠ c.shared.cache ∧ l.thread = some 0 ∧
      c'.shared.cache = some ("h.t.4t", sampleChain)) hc hnext
  obtain ⟨i, th, hi, ⟨token, chain, rfl, hsaved, hret, hver⟩ | ⟨rfl, hnone, -⟩⟩ :=
    (cache_changes hrun).1 l c' hstep hchange
  · cases hl
    rw [hcache] at hsaved
    cases hsaved
    exact ⟨c, c', th, hrun, hcache, hi, hret, hver⟩
  · rw [hcache] at hnone
    cases hnone

/-! ### Background renewals -/

/-- **A background renewal touches only the activation it renewed.**  When it writes the cache
it is the latest one and the cache holds that activation, by a clock reading of the same lock
section; one that is not the latest changes nothing that the Sdk or its other renewals look
at. -/
theorem background_writes {cache : Option (String × CertChain)} {newest : ℤ}
    {c c' : Config sdk.system} {l : Label signature} (hrun : AnyRun (sdk.start cache newest) c)
    (hstep : Step c l c') {i : ℕ} {th : Thread signature} (hi : c.threads[i]? = some th)
    {attempt : ℕ} {activationId licenseKey : String}
    (ht : th.task = .background attempt activationId licenseKey) (hl : l.thread = some i) :
    ((∃ token chain done, l = .op i (.did (.save token chain) done)) ∨
        (∃ done, l = .op i (.did .clear done)) →
      c.shared.renewal.attempt = attempt ∧ HoldsNow sdk th.past c.shared activationId) ∧
    (c.shared.renewal.attempt ≠ attempt →
      c'.shared.cache = c.shared.cache ∧ c'.shared.renewalFailed = c.shared.renewalFailed ∧
        c'.shared.renewal = c.shared.renewal) := by
  have hk := kept_of_run hrun
  -- the guarantee of whatever effect this thread performs
  have guar : ∀ (e : Effect) (r : Answer e), l = .op i (.did e r) →
      Guarantee sdk (.background attempt activationId licenseKey) th.past e r c.shared := by
    rintro e r rfl
    obtain ⟨th', hi', hguar⟩ := hk.guar sdk.sound hstep
    rw [hi] at hi'
    cases hi'
    rwa [ht] at hguar
  constructor
  · rintro (⟨token, chain, done, rfl⟩ | ⟨done, rfl⟩)
    · exact (guar _ _ rfl).2.2.1 _ _ _ rfl
    · exact (guar _ _ rfl).2.1 _ _ _ rfl
  · intro hstale
    rcases shared_cases hstep with hsame | hcases
    · rw [hsame]
      exact ⟨rfl, rfl, rfl⟩
    · cases hcases with
      | save j token chain h =>
        cases hl
        exact absurd ((guar _ _ rfl).2.2.1 _ _ _ rfl).1 hstale
      | clear j h =>
        cases hl
        exact absurd ((guar _ _ rfl).2.1 _ _ _ rfl).1 hstale
      | setRenewal j state h =>
        cases hl
        exact absurd ((guar _ _ rfl).1 _ _ _ rfl) hstale
      | storeFlag j failed h =>
        cases hl
        exact absurd (guar _ _ rfl).2 (by simp [Task.isBackground])
      | noteFlag j activationId' network failed h =>
        cases hl
        exact absurd ((guar _ _ rfl).2.1 _ _ _ rfl) hstale
      | fork j attempt' a k h =>
        rw [h]
        exact ⟨rfl, rfl, rfl⟩

/-- A check of a token of an hour and its background renewal, up to the write and with it. -/
theorem background_writes_sample : ∃ (c c' : Config sampleSdk.system) (th : Thread signature),
    AnyRun (sampleSdk.start (some ("h.t.4t", sampleChain)) 0) c ∧
      c'.shared.cache = some ("h.u.4u", sampleChain) ∧ c.threads[1]? = some th ∧
      c.shared.renewal.attempt = 1 ∧ HoldsNow sampleSdk th.past c.shared "a" := by
  have hplay : (play (fun _ _ _ => True) (sampleSdk.start (some ("h.t.4t", sampleChain)) 0)
      (.call .check :: sampleMoves 8 0 (sampleNow + 3540) (sampleReply 117) ++
        sampleMoves 7 1 (sampleNow + 3540) (sampleReply 117))).any
      (fun c => decide (c.threads[1]?.map Thread.task = some (Task.background 1 "a" "KEY")) &&
        (c.next (.go 1 (sampleOracle sampleNow (sampleReply 117)))).any fun s =>
          decide (s.2.shared.cache ≠ c.shared.cache ∧ s.1.thread = some 1 ∧
            s.2.shared.cache = some ("h.u.4u", sampleChain))) = true := by decide +kernel
  obtain ⟨c, hc, hnext⟩ := (Option.any_eq_true _ _).1 hplay
  rw [Bool.and_eq_true, decide_eq_true_eq] at hnext
  obtain ⟨th, hi, ht⟩ := Option.map_eq_some_iff.1 hnext.1
  obtain ⟨l, c', hrun, hstep, hchange, hl, hcache⟩ := play_step (Q := fun c l c' =>
    c'.shared.cache ≠ c.shared.cache ∧ l.thread = some 1 ∧
      c'.shared.cache = some ("h.u.4u", sampleChain)) hc hnext.2
  obtain ⟨i, ⟨token, chain, rfl, -⟩ | ⟨rfl, hnone⟩⟩ := cache_change_cases hstep hchange
  · cases hl
    obtain ⟨hlatest, hholds⟩ :=
      (background_writes hrun hstep hi ht rfl).1 (Or.inl ⟨token, chain, true, rfl⟩)
    exact ⟨c, c', th, hrun, hcache, hi, hlatest, hholds⟩
  · rw [hcache] at hnone
    cases hnone

end LatteRs
