import LatteRs.CacheWrites
import LatteRs.Renewals

/-!
# Answers applied out of order

The server handles requests one after another and dates its tokens in that
order; the threads apply what they got in any order.  Background renewals are
numbered, and only the latest one is applied.  Nothing numbers manual calls, so
none of them may hold an answer on which it may still write the cache while
another manual call, or the latest background renewal, holds one too.

* `Dated`, `Pending`, `Apart`: what is asked of the server and of the callers;
* `Ordered`: the invariant;
* `stale_answers`: no applied answer is older than the cached token;
* `stale_renewal`: two overlapping renewals after which it is.
-/

namespace LatteRs

open Concurrent

variable {P : Platform} {sdk : Sdk P}

/-! ### The server and the callers -/

/-- The date of the cached token, the number of seconds in its `iat`. -/
def cachedDate (P : Platform) (s : Shared) : Option ℤ := s.cache.bind fun tc => tokenDate P tc.1

/-- A token in an answer is newer than all before. -/
def Dated (c : Config sdk.system) : Label signature → Prop
  | .op _ (.did (.request ..) answered) => ∀ d ∈ replyDate P answered.reply, c.world < d
  | _ => True

instance (c : Config sdk.system) (l : Label signature) : Decidable (Dated c l) := by
  cases l with
  | op i ev =>
    cases ev with
    | did e r => cases e <;> unfold Dated <;> infer_instance
    | _ => exact isTrue trivial
  | _ => exact isTrue trivial

/-- The thread has got an answer on which the cache is written: a token, a rejection or a
release. -/
def Decided (sdk : Sdk P) (h : Past signature) : Prop :=
  (∃ token chain, Returned sdk h token chain) ∨ Rejected sdk h ∨ Released sdk h

/-- Neither a save nor a deletion. -/
def Unwriting : Event signature → Prop
  | .did (.save ..) _ => False
  | .did .clear _ => False
  | _ => True

/-- The thread has got an answer on which the cache is written, and what is left of its program
may still write it. -/
def Pending (sdk : Sdk P) (th : Thread signature) : Prop :=
  Decided sdk th.past ∧ ¬ th.prog.Uses Unwriting

/-- Whatever is pending together with a manual call is a superseded background renewal. -/
def Apart (c : Config sdk.system) : Prop :=
  ∀ (i j : ℕ) (th th' : Thread signature), i ≠ j → c.threads[i]? = some th →
    c.threads[j]? = some th' → Pending sdk th → Pending sdk th' →
    th.task.isBackground = false → ¬ Latest th'.task c.shared

/-- A step under both. -/
def Orderly (c : Config sdk.system) (l : Label signature) (c' : Config sdk.system) : Prop :=
  Dated c l ∧ Apart c'

/-! ### Pending answers -/

theorem Decided.sent_ne_none {h : Past signature} (hd : Decided sdk h) : sent h ≠ none := by
  rcases hd with ⟨_, _, _, _, ⟨q, hq, -⟩, -⟩ | ⟨_, _, ⟨q, hq, -⟩, -⟩ | ⟨q, _, _, _, hq, -⟩ <;>
    simp [hq]

theorem decided_congr {h h' : Past signature} (hsent : sent h' = sent h) :
    Decided sdk h' ↔ Decided sdk h := by
  unfold Decided Returned Rejected Released TokenReply
  rw [hsent]

/-- A thread that unwinds does not write the cache. -/
theorem unwriting_handler (t : Task) : (handler t).Uses Unwriting := by
  cases t with
  | background attempt activationId licenseKey =>
    have hdrop : (dropInFlight attempt).Uses Unwriting :=
      uses_dropInFlight trivial trivial (fun _ => trivial) (fun _ => trivial) attempt
    exact Program.uses_bind hdrop fun _ => trivial
  | _ => trivial

/-- A thread that is pending after a step was so before with the same answer, or has just got
it. -/
theorem pending_step {c c' : Config sdk.system} {l : Label signature} (hstep : Step c l c') {i : ℕ}
    {th' : Thread signature} (hi' : c'.threads[i]? = some th') (hp : Pending sdk th') :
    ∃ th, c.threads[i]? = some th ∧ th'.task = th.task ∧
      ((∃ client url body answered, l = .op i (.did (.request client url body) answered) ∧
          sent th'.past = some ⟨client, url, body, answered⟩) ∨
        sent th'.past = sent th.past ∧ Pending sdk th) := by
  obtain ⟨hdecided, hwrites⟩ := hp
  rcases hstep.thread_cases hi' with ⟨t, -, rfl, -⟩ | ⟨th, hi, rfl | ⟨ev, p, rfl, rfl⟩ | ⟨-, rfl⟩⟩
  · exact absurd rfl hdecided.sent_ne_none
  · exact ⟨th', hi, rfl, Or.inr ⟨rfl, hdecided, hwrites⟩⟩
  · refine ⟨th, hi, rfl, ?_⟩
    -- what was left before the operation could write the cache if what is left now can
    have hbefore : ¬ th.prog.Uses Unwriting := by
      intro huses
      obtain ⟨th₀, p₀, hi₀, hgoes, hi₁⟩ := hstep.op_inv
      cases Option.some.inj (hi.symm.trans hi₀)
      have hsame := Option.some.inj (hi'.symm.trans hi₁)
      rw [hsame] at hwrites
      exact hwrites (huses.goes hgoes).2
    have hold : sent (ev :: th.past) = sent th.past →
        sent (th.did ev p).past = sent th.past ∧ Pending sdk th := fun hsent =>
      ⟨hsent, (decided_congr hsent).1 hdecided, hbefore⟩
    cases ev with
    | did e r =>
      cases e with
      | request client url body => exact Or.inl ⟨client, url, body, r, rfl, rfl⟩
      | _ => exact Or.inr (hold rfl)
    | _ => exact Or.inr (hold rfl)
  · exact absurd (unwriting_handler th.task) hwrites

/-! ### What a step does to the requests, the dates and the numbers -/

/-- The request of a thread after a step: it was there, or the step is the request. -/
theorem sent_step {c c' : Config sdk.system} {l : Label signature} (hstep : Step c l c') {i : ℕ}
    {th' : Thread signature} (hi' : c'.threads[i]? = some th') {q : Sent}
    (hq : sent th'.past = some q) :
    ∃ th, c.threads[i]? = some th ∧
      ((∃ client url body answered, l = .op i (.did (.request client url body) answered) ∧
          q = ⟨client, url, body, answered⟩) ∨ sent th.past = some q) := by
  rcases hstep.thread_cases hi' with ⟨t, -, rfl, -⟩ | ⟨th, hi, rfl | ⟨ev, p, rfl, rfl⟩ | ⟨-, rfl⟩⟩
  · cases hq
  · exact ⟨_, hi, Or.inr hq⟩
  · refine ⟨th, hi, ?_⟩
    cases ev with
    | did e r =>
      cases e with
      | request client url body =>
        cases hq
        exact Or.inl ⟨client, url, body, r, rfl, rfl⟩
      | _ => exact Or.inr hq
    | _ => exact Or.inr hq
  · exact ⟨th, hi, Or.inr hq⟩

/-- The task of a thread after a step: the same, or the thread is new. -/
theorem task_step {c c' : Config sdk.system} {l : Label signature} (hstep : Step c l c') {i : ℕ}
    {th' : Thread signature} (hi' : c'.threads[i]? = some th') :
    (∃ th, c.threads[i]? = some th ∧ th'.task = th.task) ∨
      i = c.threads.length ∧ (th'.task.isBackground = false ∨
        ∃ j, l = .op j (.forked th'.task true)) := by
  rcases hstep.thread_cases hi' with ⟨t, hlen, rfl, h⟩ | ⟨th, hi, h⟩
  · refine Or.inr ⟨hlen, ?_⟩
    rcases h with ⟨-, hcall⟩ | ⟨j, hfork⟩
    · exact Or.inl hcall
    · exact Or.inr ⟨j, hfork⟩
  · refine Or.inl ⟨th, hi, ?_⟩
    rcases h with rfl | ⟨ev, p, -, rfl⟩ | ⟨-, rfl⟩ <;> rfl

/-- The server's newest token gets newer only. -/
theorem world_step {c c' : Config sdk.system} {l : Label signature} (hstep : Step c l c')
    (hdated : Dated c l) : c.world ≤ c'.world := by
  rw [hstep.world]
  cases l with
  | op i ev =>
    cases ev with
    | did e r =>
      cases e with
      | request client url body =>
        obtain ⟨th, next, -, -, hstamp, -⟩ := hstep.did_inv
        show c.world ≤ r.stamp
        have hstamp' : r.stamp = (replyDate P r.reply).getD c.world := hstamp
        rw [hstamp']
        cases hd : replyDate P r.reply with
        | none => exact le_refl _
        | some d => exact le_of_lt (hdated d hd)
      | _ => exact le_refl _
    | _ => exact le_refl _
  | _ => exact le_refl _

/-- The attempts are counted up. -/
theorem attempt_step {c c' : Config sdk.system} {l : Label signature}
    (hk : sdk.contract.Kept c) (hstep : Step c l c') :
    c.shared.renewal.attempt ≤ c'.shared.renewal.attempt := by
  rcases shared_cases hstep with hsame | hcases
  · rw [hsame]
  · cases hcases with
    | setRenewal i state h =>
      obtain ⟨th, -, -, hle⟩ := hk.guar sdk.sound hstep
      rw [h]
      exact hle
    | save i token chain h => rw [h]
    | clear i h => rw [h]
    | storeFlag i failed h => rw [h]
    | noteFlag i activationId network failed h => rw [h]
    | fork i attempt activationId licenseKey h => rw [h]

/-- A background renewal that starts has a number above all before. -/
theorem number_of_fork {c c' : Config sdk.system} (hk : sdk.contract.Kept c) {j attempt : ℕ}
    {activationId licenseKey : String}
    (hstep : Step c (.op j (.forked (.background attempt activationId licenseKey) true)) c') :
    c.shared.spawned < attempt ∧ c'.shared.spawned = attempt := by
  obtain ⟨th, -, hstart⟩ := hk.started hstep
  obtain ⟨_, _, _, _, _, _, -, -, -, -, -, -, -, -, -, -, -, hlt, hchild⟩ := hstart
  rw [hstep.shared]
  cases hchild
  exact ⟨hlt, rfl⟩

theorem spawned_step {c c' : Config sdk.system} {l : Label signature}
    (hk : sdk.contract.Kept c) (hstep : Step c l c') : c.shared.spawned ≤ c'.shared.spawned := by
  rcases shared_cases hstep with hsame | hcases
  · rw [hsame]
  · cases hcases with
    | fork i attempt activationId licenseKey h =>
      obtain ⟨hlt, heq⟩ := number_of_fork hk hstep
      rw [heq]
      exact le_of_lt hlt
    | save i token chain h => rw [h]
    | clear i h => rw [h]
    | setRenewal i state h => rw [h]
    | storeFlag i failed h => rw [h]
    | noteFlag i activationId network failed h => rw [h]

/-! ### The invariant -/

/-- What holds in every configuration of an orderly run. -/
structure Ordered (c : Config sdk.system) : Prop where
  /-- The server issued the cached token. -/
  cached : ∀ d, cachedDate P c.shared = some d → d ≤ c.world
  stamp_le : ∀ (i : ℕ) (th : Thread signature) (q : Sent), c.threads[i]? = some th →
    sent th.past = some q → q.answered.stamp ≤ c.world
  /-- The stamp of an answer with a token is the date of the token. -/
  stamped : ∀ (i : ℕ) (th : Thread signature) (q : Sent) (d : ℤ), c.threads[i]? = some th →
    sent th.past = some q → replyDate P q.answered.reply = some d → q.answered.stamp = d
  apart : Apart c
  /-- The numbers of the background renewals. -/
  numbers : ∀ (i : ℕ) (th : Thread signature) (attempt : ℕ) (activationId licenseKey : String),
    c.threads[i]? = some th → th.task = .background attempt activationId licenseKey →
    attempt ≤ c.shared.spawned
  distinct : ∀ (i j : ℕ) (th th' : Thread signature) (attempt : ℕ) (a k a' k' : String),
    c.threads[i]? = some th → c.threads[j]? = some th' → th.task = .background attempt a k →
    th'.task = .background attempt a' k' → i = j
  /-- No pending answer that may still be applied is older than the cached token. -/
  behind : ∀ (i : ℕ) (th : Thread signature) (q : Sent) (d : ℤ), c.threads[i]? = some th →
    sent th.past = some q → Pending sdk th → Latest th.task c.shared →
    cachedDate P c.shared = some d → d ≤ q.answered.stamp

/-- A token that verified has a date, which is the second it was issued at. -/
theorem tokenDate_of_verified {token : String} {chain : CertChain} {now : SystemTime}
    {lic : License}
    (h : verifyActivationAnyAt P.toCrypto sdk.masterPubs token chain now = .ok lic) :
    ∃ d, tokenDate P token = some d ∧ lic.issuedAt.nanos = d * 10 ^ 9 := by
  obtain ⟨m, -, l, hsigned, -, -, -, -, hdesc⟩ := verifyActivationAnyAt_eq_ok.1 h
  refine ⟨issuedSecs l.token, ?_, hdesc.issuedAt⟩
  unfold tokenDate
  rw [hsigned.payloads.2.2.2]
  rfl

/-- The answer that a saved token came in. -/
theorem sent_of_returned {h : Past signature} {token : String} {chain : CertChain}
    (hret : Returned sdk h token chain) :
    ∃ q, sent h = some q ∧ replyDate P q.answered.reply = tokenDate P token := by
  obtain ⟨status, bytes, ⟨q, hq, hreply, -⟩, hsucc, hdec⟩ := hret
  refine ⟨q, hq, ?_⟩
  rw [hreply]
  unfold replyDate
  simp only [if_pos hsucc, hdec]

theorem Fenced.latest {t : Task} {h : Past signature} {s : Shared} (hf : Fenced sdk t h s) :
    Latest t s := fun _ _ _ ht => (hf _ _ _ ht).1

/-- The next operation of a thread, which has got an answer on which the cache is written. -/
theorem pending_of_did {c c' : Config sdk.system} {i : ℕ} {th : Thread signature} {e : Effect}
    {r : Answer e} (hstep : Step c (.op i (.did e r)) c') (hi : c.threads[i]? = some th)
    (he : ¬ Unwriting (.did e r)) (hdecided : Decided sdk th.past) : Pending sdk th := by
  refine ⟨hdecided, fun huses => ?_⟩
  obtain ⟨th₀, p, hi₀, hgoes, -⟩ := hstep.op_inv
  cases Option.some.inj (hi.symm.trans hi₀)
  exact he (huses.goes hgoes).1

/-- A thread that saves a token: its answer is the latest one it may apply, and the token is of
that date. -/
theorem save_dated {c c' : Config sdk.system} (hk : sdk.contract.Kept c) (ho : Ordered c)
    {i : ℕ} {token : String} {chain : CertChain} {done : Bool}
    (hstep : Step c (.op i (.did (.save token chain) done)) c') :
    ∃ th q, c.threads[i]? = some th ∧ sent th.past = some q ∧ Pending sdk th ∧
      Latest th.task c.shared ∧ tokenDate P token = some q.answered.stamp := by
  obtain ⟨th, hi, -, -, hfenced, hret, now, lic, -, hlic⟩ := hk.guar sdk.sound hstep
  obtain ⟨q, hq, hdate⟩ := sent_of_returned hret
  obtain ⟨license, hver, -⟩ := checkLicenseAnyAtWithRenewalFailed_eq_ok.1 hlic
  obtain ⟨d, hd, -⟩ := tokenDate_of_verified hver
  refine ⟨th, q, hi, hq, pending_of_did hstep hi id (Or.inl ⟨_, _, hret⟩), hfenced.latest, ?_⟩
  rw [hd, ho.stamped i th q d hi hq (hdate.trans hd)]

/-- A thread that empties the cache. -/
theorem clear_sent {c c' : Config sdk.system} (hk : sdk.contract.Kept c) {i : ℕ} {done : Bool}
    (hstep : Step c (.op i (.did .clear done)) c') :
    ∃ th q, c.threads[i]? = some th ∧ sent th.past = some q ∧ Pending sdk th ∧
      Latest th.task c.shared := by
  obtain ⟨th, hi, -, hfenced, hdropped⟩ := hk.guar sdk.sound hstep
  have hdecided : Decided sdk th.past := Or.inr hdropped
  obtain ⟨q, hq⟩ := Option.ne_none_iff_exists'.1 hdecided.sent_ne_none
  exact ⟨th, q, hi, hq, pending_of_did hstep hi id hdecided, hfenced.latest⟩

/-- A task that is the latest after a step was so before. -/
theorem latest_before {c c' : Config sdk.system} {l : Label signature}
    (hk : sdk.contract.Kept c) (ho : Ordered c) (hstep : Step c l c') {i : ℕ}
    {th : Thread signature} (hi : c.threads[i]? = some th) (hlatest : Latest th.task c'.shared) :
    Latest th.task c.shared := by
  intro attempt activationId licenseKey ht
  have h1 := ho.numbers i th attempt activationId licenseKey hi ht
  have h2 : c.shared.spawned ≤ c.shared.renewal.attempt := hk.inv
  have h3 := attempt_step hk hstep
  have h4 := hlatest attempt activationId licenseKey ht
  omega

/-- Two pending threads whose answers may be applied are the same. -/
theorem Ordered.same {c : Config sdk.system} (ho : Ordered c) {i j : ℕ}
    {th th' : Thread signature} (hi : c.threads[i]? = some th) (hj : c.threads[j]? = some th')
    (hp : Pending sdk th) (hp' : Pending sdk th') (hl : Latest th.task c.shared)
    (hl' : Latest th'.task c.shared) : i = j := by
  by_contra hij
  have hmanual : th.task.isBackground ≠ false := fun h =>
    ho.apart i j th th' hij hi hj hp hp' h hl'
  have hmanual' : th'.task.isBackground ≠ false := fun h =>
    ho.apart j i th' th (Ne.symm hij) hj hi hp' hp h hl
  -- both are background renewals with the latest number
  cases ht : th.task with
  | background attempt a k =>
    cases ht' : th'.task with
    | background attempt' a' k' =>
      have h := hl attempt a k ht
      have h' := hl' attempt' a' k' ht'
      have heq : attempt' = attempt := h'.symm.trans h
      rw [heq] at ht'
      exact hij (ho.distinct i j th th' attempt a k a' k' hi hj ht ht')
    | _ => exact hmanual' (by rw [ht']; rfl)
  | _ => exact hmanual (by rw [ht]; rfl)

/-! ### Steps keep the invariant -/

section
variable {c c' : Config sdk.system} {l : Label signature}

/-- The date of the cached token after a step: as before, or that of an answer. -/
theorem cachedDate_step (hk : sdk.contract.Kept c) (ho : Ordered c) (hstep : Step c l c') {d : ℤ}
    (hd : cachedDate P c'.shared = some d) :
    (c'.shared.cache = c.shared.cache ∧ cachedDate P c.shared = some d) ∨
      ∃ i token chain, l = .op i (.did (.save token chain) true) ∧
        ∃ th q, c.threads[i]? = some th ∧ sent th.past = some q ∧ Pending sdk th ∧
          Latest th.task c.shared ∧ q.answered.stamp = d := by
  by_cases hchange : c'.shared.cache = c.shared.cache
  · refine Or.inl ⟨hchange, ?_⟩
    unfold cachedDate at hd ⊢
    rw [← hchange]
    exact hd
  · obtain ⟨i, ⟨token, chain, rfl, hsaved⟩ | ⟨-, hnone⟩⟩ := cache_change_cases hstep hchange
    · obtain ⟨th, q, hi, hq, hp, hlatest, hdate⟩ := save_dated hk ho hstep
      refine Or.inr ⟨i, token, chain, rfl, th, q, hi, hq, hp, hlatest, ?_⟩
      rw [cachedDate, hsaved] at hd
      exact Option.some.inj (hdate.symm.trans hd)
    · rw [cachedDate, hnone] at hd
      cases hd

/-- The stamp of a request that is being answered. -/
theorem request_step {i : ℕ} {client : Client} {url : String} {body : Body} {answered : Answered}
    (hstep : Step c (.op i (.did (.request client url body) answered)) c') :
    c'.world = answered.stamp ∧ c'.shared = c.shared ∧
      ∀ d, replyDate P answered.reply = some d → answered.stamp = d := by
  obtain ⟨th, next, -, -, hstamp, -⟩ := hstep.did_inv
  refine ⟨hstep.world, hstep.shared, fun d hd => ?_⟩
  have hstamp' : answered.stamp = (replyDate P answered.reply).getD c.world := hstamp
  rw [hstamp', hd]
  rfl

/-- The number of a background renewal after a step: it was there before, or is new and above
all others. -/
theorem number_step (hk : sdk.contract.Kept c) (ho : Ordered c) (hstep : Step c l c') {i : ℕ}
    {th : Thread signature} {attempt : ℕ} {a k : String} (hi : c'.threads[i]? = some th)
    (ht : th.task = .background attempt a k) :
    (∃ th₀, c.threads[i]? = some th₀ ∧ th₀.task = .background attempt a k ∧
        attempt ≤ c.shared.spawned) ∨
      i = c.threads.length ∧ c.shared.spawned < attempt ∧ c'.shared.spawned = attempt := by
  rcases task_step hstep hi with ⟨th₀, hi₀, htask⟩ | ⟨hlen, hmanual | ⟨j, hfork⟩⟩
  · have ht₀ : th₀.task = .background attempt a k := htask.symm.trans ht
    exact Or.inl ⟨th₀, hi₀, ht₀, ho.numbers i th₀ attempt a k hi₀ ht₀⟩
  · rw [ht] at hmanual
    cases hmanual
  · rw [ht] at hfork
    subst hfork
    exact Or.inr ⟨hlen, number_of_fork hk hstep⟩

theorem behind_step (hk : sdk.contract.Kept c) (ho : Ordered c) (hstep : Step c l c')
    (hdated : Dated c l) {i : ℕ} {th' : Thread signature} {q : Sent} {d : ℤ}
    (hi' : c'.threads[i]? = some th') (hq : sent th'.past = some q) (hp : Pending sdk th')
    (hlatest : Latest th'.task c'.shared) (hd : cachedDate P c'.shared = some d) :
    d ≤ q.answered.stamp := by
  obtain ⟨th, hi, htask, ⟨client, url, body, answered, rfl, hnew⟩ | ⟨hsent, hp₀⟩⟩ :=
    pending_step hstep hi' hp
  · -- the answer that just came is at least as new as all tokens
    cases Option.some.inj (hnew.symm.trans hq)
    obtain ⟨hworld, hshared, -⟩ := request_step hstep
    rw [hshared] at hd
    have hworld' := world_step hstep hdated
    rw [hworld] at hworld'
    exact le_trans (ho.cached d hd) hworld'
  · rw [hsent] at hq
    rw [htask] at hlatest
    have hlatest₀ := latest_before hk ho hstep hi hlatest
    rcases cachedDate_step hk ho hstep hd with
      ⟨-, hd₀⟩ | ⟨j, token, chain, -, th₁, q₁, hj, hq₁, hp₁, hlatest₁, rfl⟩
    · exact ho.behind i th q d hi hq hp₀ hlatest₀ hd₀
    · -- the thread that saved is this one
      have hsame := ho.same hi hj hp₀ hp₁ hlatest₀ hlatest₁
      subst hsame
      cases Option.some.inj (hi.symm.trans hj)
      cases Option.some.inj (hq.symm.trans hq₁)
      exact le_refl _

theorem ordered_step (hk : sdk.contract.Kept c) (ho : Ordered c) (hstep : Step c l c')
    (hord : Orderly c l c') : Ordered c' where
  cached d hd := by
    have hworld := world_step hstep hord.1
    rcases cachedDate_step hk ho hstep hd with
      ⟨-, hd₀⟩ | ⟨j, token, chain, -, th, q, hj, hq, -, -, rfl⟩
    · exact le_trans (ho.cached d hd₀) hworld
    · exact le_trans (ho.stamp_le j th q hj hq) hworld
  stamp_le i th' q hi' hq := by
    obtain ⟨th, hi, ⟨client, url, body, answered, rfl, rfl⟩ | hold⟩ := sent_step hstep hi' hq
    · exact le_of_eq (request_step hstep).1.symm
    · exact le_trans (ho.stamp_le i th q hi hold) (world_step hstep hord.1)
  stamped i th' q d hi' hq hd := by
    obtain ⟨th, hi, ⟨client, url, body, answered, rfl, rfl⟩ | hold⟩ := sent_step hstep hi' hq
    · exact (request_step hstep).2.2 d hd
    · exact ho.stamped i th q d hi hold hd
  apart := hord.2
  numbers i th attempt a k hi ht := by
    rcases number_step hk ho hstep hi ht with ⟨th₀, -, -, hle⟩ | ⟨-, -, heq⟩
    · exact le_trans hle (spawned_step hk hstep)
    · exact le_of_eq heq.symm
  distinct i j th th' attempt a k a' k' hi hj ht ht' := by
    rcases number_step hk ho hstep hi ht with ⟨th₀, hi₀, ht₀, hle⟩ | ⟨hlen, hlt, -⟩
    · rcases number_step hk ho hstep hj ht' with ⟨th₁, hj₁, ht₁, -⟩ | ⟨-, hlt, -⟩
      · exact ho.distinct i j th₀ th₁ attempt a k a' k' hi₀ hj₁ ht₀ ht₁
      · omega
    · rcases number_step hk ho hstep hj ht' with ⟨th₁, -, -, hle⟩ | ⟨hlen', -, -⟩
      · omega
      · exact hlen.trans hlen'.symm
  behind i th q d hi hq hp hlatest hd := behind_step hk ho hstep hord.1 hi hq hp hlatest hd

/-- A step that leaves a token in the cache leaves one that is no older. -/
theorem cachedDate_le_step (hk : sdk.contract.Kept c) (ho : Ordered c) (hstep : Step c l c')
    (hfull : c'.shared.cache ≠ none) {d : ℤ} (hd : cachedDate P c.shared = some d) :
    ∃ d', cachedDate P c'.shared = some d' ∧ d ≤ d' := by
  by_cases hchange : c'.shared.cache = c.shared.cache
  · refine ⟨d, ?_, le_refl d⟩
    rw [cachedDate, hchange]
    exact hd
  · obtain ⟨i, ⟨token, chain, rfl, hsaved⟩ | ⟨-, hnone⟩⟩ := cache_change_cases hstep hchange
    · obtain ⟨th, q, hi, hq, hp, hlatest, hdate⟩ := save_dated hk ho hstep
      refine ⟨q.answered.stamp, ?_, ho.behind i th q d hi hq hp hlatest hd⟩
      rw [cachedDate, hsaved]
      exact hdate
    · exact absurd hnone hfull

end

/-! ### Orderly runs -/

theorem ordered_start {cache : Option (String × CertChain)} {newest : ℤ}
    (hcache : ∀ d, cachedDate P (Shared.new cache) = some d → d ≤ newest) :
    Ordered (sdk.start cache newest) where
  cached := hcache
  stamp_le i th q hi := by cases hi
  stamped i th q d hi := by cases hi
  apart i j th th' _ hi := by cases hi
  numbers i th attempt a k hi := by cases hi
  distinct i j th th' attempt a k a' k' hi := by cases hi
  behind i th q d hi := by cases hi

theorem ordered_run {c c' : Config sdk.system}
    {P' : Config sdk.system → Label signature → Config sdk.system → Prop}
    (hP : ∀ c l c', P' c l c' → Orderly c l c') (hrun : Run P' c c')
    (h : sdk.contract.Kept c ∧ Ordered c) : sdk.contract.Kept c' ∧ Ordered c' := by
  refine hrun.preserves (I := fun c => sdk.contract.Kept c ∧ Ordered c) ?_ h
  rintro c l c' ⟨hk, ho⟩ hstep hp
  exact ⟨hk.step sdk.sound hstep, ordered_step hk ho hstep (hP c l c' hp)⟩

/-- **No stale answer undoes a newer one**, as long as no manual call is pending together with
another call that is not superseded.  While the cache is not emptied, the date of its token never decreases, and a thread
that empties it does so on an answer that the server gave after it issued the cached token. -/
theorem stale_answers {cache : Option (String × CertChain)} {newest : ℤ} {c : Config sdk.system}
    (hcache : ∀ d, cachedDate P (Shared.new cache) = some d → d ≤ newest)
    (hrun : Run Orderly (sdk.start cache newest) c) :
    (∀ c', Run (fun c l c' => Orderly c l c' ∧ c'.shared.cache ≠ none) c c' →
      ∀ d, cachedDate P c.shared = some d →
        ∃ d', cachedDate P c'.shared = some d' ∧ d ≤ d') ∧
    (∀ i done c', Step c (.op i (.did .clear done)) c' → ∀ d, cachedDate P c.shared = some d →
      ∃ th q, c.threads[i]? = some th ∧ sent th.past = some q ∧ d ≤ q.answered.stamp) := by
  have hstart : sdk.contract.Kept (sdk.start cache newest) ∧ Ordered (sdk.start cache newest) :=
    ⟨Contract.Kept.init (invariant_new cache), ordered_start hcache⟩
  obtain ⟨hk, ho⟩ := ordered_run (fun _ _ _ h => h) hrun hstart
  constructor
  · intro c' hrun' d hd
    have hend : (sdk.contract.Kept c' ∧ Ordered c') ∧
        ∃ d', cachedDate P c'.shared = some d' ∧ d ≤ d' := by
      refine hrun'.preserves (I := fun c' => (sdk.contract.Kept c' ∧ Ordered c') ∧
        ∃ d', cachedDate P c'.shared = some d' ∧ d ≤ d') ?_ ⟨⟨hk, ho⟩, d, hd, le_refl d⟩
      rintro c₁ l c₂ ⟨⟨hk₁, ho₁⟩, d₁, hd₁, hle⟩ hstep ⟨hord, hfull⟩
      obtain ⟨d₂, hd₂, hle₂⟩ := cachedDate_le_step hk₁ ho₁ hstep hfull hd₁
      exact ⟨⟨hk₁.step sdk.sound hstep, ordered_step hk₁ ho₁ hstep hord⟩, d₂, hd₂,
        le_trans hle hle₂⟩
    exact hend.2
  · intro i done c' hstep d hd
    obtain ⟨th, q, hi, hq, hp, hlatest⟩ := clear_sent hk hstep
    exact ⟨th, q, hi, hq, ho.behind i th q d hi hq hp hlatest hd⟩

/-- The thread has got some answer and has not returned. -/
def Answering (th : Thread signature) : Prop :=
  (∃ q ∈ sent th.past, q.answered.reply.isOk = true) ∧ th.prog.result? = none

theorem Pending.answering {th : Thread signature} (hp : Pending sdk th) : Answering th := by
  obtain ⟨hdecided, hwrites⟩ := hp
  constructor
  · rcases hdecided with ⟨_, _, _, _, ⟨q, hq, hreply, -⟩, -⟩ | ⟨_, _, ⟨q, hq, hreply, -⟩, -⟩ |
      ⟨q, _, _, _, hq, -, hreply, -⟩
    all_goals exact ⟨q, hq, by rw [hreply]; rfl⟩
  · cases hprog : th.prog with
    | ret a =>
      rw [hprog] at hwrites
      exact absurd trivial hwrites
    | _ => rfl

instance (th : Thread signature) : Decidable (Answering th) := inferInstanceAs (Decidable (_ ∧ _))

/-- No thread but this one has got some answer and has not returned. -/
def OnlyAnswering (c : Config sdk.system) (i : ℕ) : Prop :=
  ∀ j < c.threads.length, j ≠ i → ∀ th ∈ c.threads[j]?, ¬ Answering th

instance (c : Config sdk.system) (i : ℕ) : Decidable (OnlyAnswering c i) := by
  unfold OnlyAnswering
  infer_instance

/-- Nothing that has got an answer is there together with a manual call that has. -/
def Unmixed (c : Config sdk.system) : Prop :=
  ∀ i < c.threads.length, ∀ th ∈ c.threads[i]?, Answering th ∧ th.task.isBackground = false →
    OnlyAnswering c i

instance (c : Config sdk.system) : Decidable (Unmixed c) := by
  unfold Unmixed
  infer_instance

theorem Unmixed.apart {c : Config sdk.system} (h : Unmixed c) : Apart c := by
  intro i j th th' hij hi hj hp hp' hmanual
  have hlt := (List.getElem?_eq_some_iff.1 hi).1
  have hlt' := (List.getElem?_eq_some_iff.1 hj).1
  exact absurd hp'.answering (h i hlt th hi ⟨hp.answering, hmanual⟩ j hlt' (Ne.symm hij) th' hj)

/-- A background renewal takes over from one that hangs.  The older one was rejected before the
newer one was answered with a token, which stays in the cache; meanwhile a manual renewal that got
no response goes on. -/
theorem stale_answers_sample : ∃ c' : Config sampleSdk.system,
    c'.returned 1 = some .renewed ∧ c'.returned 4 = none ∧
      c'.shared.cache = some ("h.u.4u", sampleChain) ∧
      ∃ d', cachedDate samplePlatform c'.shared = some d' ∧ (sampleNow : ℤ) - 60 ≤ d' := by
  have hplay : (play (fun c l c' => (Dated c l ∧ Unmixed c') ∧ c'.shared.cache ≠ none)
      (sampleSdk.start (some ("h.t.4t", sampleChain)) ((sampleNow : ℤ) - 60))
      (.call .check :: sampleMoves 2 0 sampleNow (.error "timeout") ++
        sampleMoves 7 0 (sampleNow + 3540) (.error "timeout") ++
        sampleMoves 1 1 sampleNow (.ok (404, .ok [])) ++
        .call .check :: sampleMoves 2 2 sampleNow (.error "timeout") ++
        sampleMoves 7 2 (sampleNow + 4141) (.error "timeout") ++
        .call (.renew "a" "KEY") :: sampleMoves 6 4 sampleNow (.error "timeout") ++
        sampleMoves 9 3 sampleNow (sampleReply 117) ++
        sampleMoves 6 1 sampleNow (.error "timeout"))).any
      (fun c' => decide (c'.returned 1 = some Outcome.renewed ∧ c'.returned 4 = none ∧
        c'.shared.cache = some ("h.u.4u", sampleChain))) = true := by decide +kernel
  obtain ⟨c', hc', hlast⟩ := (Option.any_eq_true _ _).1 hplay
  obtain ⟨hout, hrunning, hcache⟩ := of_decide_eq_true hlast
  have hrun := (play_run hc').mono fun c l c' h => (⟨⟨h.1.1, h.1.2.apart⟩, h.2⟩ :
    Orderly c l c' ∧ c'.shared.cache ≠ none)
  have hdate : cachedDate samplePlatform (Shared.new (some ("h.t.4t", sampleChain))) =
      some ((sampleNow : ℤ) - 60) := by decide +kernel
  refine ⟨c', hout, hrunning, hcache, (stale_answers ?_ (Run.refl _)).1 c' hrun _ hdate⟩
  intro d hd
  rw [hdate] at hd
  cases hd
  exact le_refl _

/-- Two manual renewals overlap.  The server answers the first one and then the second one; the
second one saves its token, and then the first one replaces it by its older one. -/
theorem stale_renewal : ∃ (c c' : Config sampleSdk.system) (l : Label signature),
    Run (fun c l _ => Dated c l) (sampleSdk.start none 0) c ∧ Step c l c' ∧
      c.threads.map Thread.task = [Task.renew "a" "KEY", Task.renew "a" "KEY"] ∧
      cachedDate samplePlatform c.shared = some ((sampleNow : ℤ) - 30) ∧
      cachedDate samplePlatform c'.shared = some ((sampleNow : ℤ) - 60) := by
  have hplay : (play (fun c l _ => Dated c l) (sampleSdk.start none 0)
      (.call (.renew "a" "KEY") :: sampleMoves 6 0 sampleNow (sampleReply 116) ++
        .call (.renew "a" "KEY") :: sampleMoves 15 1 sampleNow (sampleReply 117) ++
        sampleMoves 8 0 sampleNow (.error "timeout"))).any
      (fun c => decide (c.threads.map Thread.task =
          [Task.renew "a" "KEY", Task.renew "a" "KEY"] ∧
          cachedDate samplePlatform c.shared = some ((sampleNow : ℤ) - 30)) &&
        (c.next (.go 0 (sampleOracle sampleNow (.error "timeout")))).any fun s =>
          decide (cachedDate samplePlatform s.2.shared = some ((sampleNow : ℤ) - 60))) = true := by
    decide +kernel
  obtain ⟨c, hc, hlast⟩ := (Option.any_eq_true _ _).1 hplay
  rw [Bool.and_eq_true, decide_eq_true_eq] at hlast
  obtain ⟨⟨htasks, hdate⟩, hnext⟩ := hlast
  obtain ⟨l, c', hrun, hstep, hdate'⟩ := play_step (Q := fun _ _ c' =>
    cachedDate samplePlatform c'.shared = some ((sampleNow : ℤ) - 60)) hc hnext
  exact ⟨c, c', l, hrun, hstep, htasks, hdate, hdate'⟩

end LatteRs
