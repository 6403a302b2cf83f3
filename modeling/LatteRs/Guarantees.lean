import LatteRs.Concurrent.Contract
import LatteRs.Runtime

/-!
# What each thread of an Sdk guarantees

The contract of the methods and of the background renewals: what a thread has
received and checked when it writes the cache, what a background renewal has
compared before it writes, and when the flag may be set.

* `Returned`, `Verified`, `Rejected`, `Released`: what the past of a thread says
  about its request;
* `HoldsNow`: the cache holds a verifiable token of an activation;
* `Guarantee`, `AtStart`, `AtUnlock`, `AtPanic`, `AtReturn`: the parts of
  `Sdk.contract`.
-/

namespace LatteRs

open Concurrent

/-! ### The past of a thread -/

/-- A request and what it got. -/
structure Sent where
  client : Client
  url : String
  body : Body
  answered : Answered

/-- The latest request of a thread. -/
def sent : Past signature → Option Sent
  | [] => none
  | .did (.request client url body) answered :: _ => some ⟨client, url, body, answered⟩
  | _ :: h => sent h

/-- The events since the thread took the lock. -/
def currentSection : Past signature → Past signature
  | [] => []
  | .locked :: _ => []
  | .triedLock true :: _ => []
  | ev :: h => ev :: currentSection h

variable {P : Platform} (sdk : Sdk P)

/-- The reply to an `activate` or a `renew` request. -/
def TokenReply (h : Past signature) (reply : Reply) : Prop :=
  ∃ q, sent h = some q ∧ q.answered.reply = reply ∧
    (q.url = sdk.baseUrl ++ "/v1/activate" ∨ q.url = sdk.baseUrl ++ "/v1/renew")

/-- The server returned this token and chain in a 2xx answer to an `activate` or `renew`
request. -/
def Returned (h : Past signature) (token : String) (chain : CertChain) : Prop :=
  ∃ status bytes, TokenReply sdk h (.ok (status, .ok bytes)) ∧ isSuccess status ∧
    P.tokenResponse bytes = .ok ⟨token, chain⟩

/-- The thread verified and validated this token and chain at a time that it read. -/
def Verified (h : Past signature) (token : String) (chain : CertChain) : Prop :=
  ∃ now lic, Event.did Effect.clock now ∈ h ∧
    checkLicenseAnyAtWithRenewalFailed P.toCrypto sdk.masterPubs token chain sdk.machineId now
      false = .ok lic

/-- The server answered 404, 403 or 401 to an `activate` or `renew` request. -/
def Rejected (h : Past signature) : Prop :=
  ∃ status body, TokenReply sdk h (.ok (status, body)) ∧
    (status = 404 ∨ status = 403 ∨ status = 401)

/-- The server answered a `deactivate` request with a 2xx that decodes. -/
def Released (h : Past signature) : Prop :=
  ∃ q status bytes result, sent h = some q ∧ q.url = sdk.baseUrl ++ "/v1/deactivate" ∧
    q.answered.reply = .ok (status, .ok bytes) ∧ isSuccess status ∧
    P.deactivateResult bytes = .ok result

/-- The cached token and chain verify at `now` and belong to `activationId`. -/
def HoldsAt (cache : Option (String × CertChain)) (activationId : String) (now : SystemTime) :
    Prop :=
  ∃ token chain license, cache = some (token, chain) ∧
    verifyActivationAnyAt P.toCrypto sdk.masterPubs token chain now = .ok license ∧
    license.activationId = activationId

/-- The cache holds `activationId`, by a clock reading of the section that is running. -/
def HoldsNow (h : Past signature) (s : Shared) (activationId : String) : Prop :=
  ∃ now, Event.did Effect.clock now ∈ currentSection h ∧ HoldsAt sdk s.cache activationId now

/-! ### The contract -/

/-- What always holds of the shared state. -/
def Invariant (s : Shared) : Prop := s.spawned ≤ s.renewal.attempt

/-- A task renews `activationId`. -/
def Task.Renews (t : Task) (activationId : String) : Prop :=
  (∃ licenseKey, t = .renew activationId licenseKey) ∨
    ∃ attempt licenseKey, t = .background attempt activationId licenseKey

/-- A background renewal is the latest one. -/
def Latest (t : Task) (s : Shared) : Prop :=
  ∀ attempt activationId licenseKey, t = .background attempt activationId licenseKey →
    s.renewal.attempt = attempt

/-- A background renewal is the latest one, and the cache holds its activation. -/
def Fenced (t : Task) (h : Past signature) (s : Shared) : Prop :=
  ∀ attempt activationId licenseKey, t = .background attempt activationId licenseKey →
    s.renewal.attempt = attempt ∧ HoldsNow sdk h s activationId

/-- The tasks that store a token. -/
def Task.stores : Task → Bool
  | .activate _ | .renew .. | .background .. => true
  | _ => false

/-- What a thread guarantees when it performs an effect. -/
@[reducible] def Guarantee (t : Task) (h : Past signature) :
    (e : Effect) → Answer e → Shared → Prop
  | .request .., _, _ => sent h = none
  | .load, _, _ => sdk.cachePath ≠ none
  | .save token chain, _, s =>
    t.stores = true ∧ s.renewalFailed = false ∧ Fenced sdk t h s ∧ Returned sdk h token chain ∧
      Verified sdk h token chain
  | .clear, _, s => s.renewalFailed = false ∧ Fenced sdk t h s ∧ (Rejected sdk h ∨ Released sdk h)
  | .setRenewal state, _, s => Latest t s ∧ s.renewal.attempt ≤ state.attempt
  | .storeFlag failed, _, _ => failed = false ∧ t.isBackground = false
  | .noteFlag activationId network failed, _, s =>
    t.Renews activationId ∧ Latest t s ∧
      (failed = true → network = true ∧ HoldsNow sdk h s activationId)
  | _, _, _ => True

/-- A background renewal is due: none is running, counting ten minutes at most, and none was
attempted in the last five. -/
def Due (state : Renewal) (now : SystemTime) : Prop :=
  (∀ t ∈ state.inFlight, 2 * renewRetry < since now t) ∧
    ∀ t ∈ state.lastAttempt, renewRetry ≤ since now t

/-- What a thread guarantees when it starts a background renewal: it loaded a token that
verified and names this machine, read a time at which the token was old enough, and found a
renewal due under the lock. -/
def AtStart (h : Past signature) (child : Task) (s : Shared) : Prop :=
  ∃ token chain checked license now state,
    Event.did Effect.load (some (token, chain)) ∈ h ∧ Event.did Effect.clock checked ∈ h ∧
    verifyActivationAnyAt P.toCrypto sdk.masterPubs token chain checked = .ok license ∧
    license.machineId = sdk.machineId ∧ license.activationId ≠ "" ∧ license.key ≠ "" ∧
    Event.did Effect.clock now ∈ h ∧ renewAfter ≤ since now license.issuedAt ∧
    Event.did Effect.getRenewal state ∈ h ∧ Due state now ∧
    s.renewal = ⟨state.attempt + 1, some now, some now⟩ ∧ s.spawned < s.renewal.attempt ∧
    child = .background s.renewal.attempt license.activationId license.key

/-- What is known when a thread releases the lock: a deletion that succeeded left the cache
empty. -/
def AtUnlock (h : Past signature) (s : Shared) : Prop :=
  Event.did Effect.clear true ∈ currentSection h → s.cache = none

/-- What is known when a thread panics in a computation: a check has loaded a token. -/
def AtPanic (h : Past signature) (t : Task) : Prop :=
  t = .check → ∃ loaded, Event.did Effect.load (some loaded) ∈ h

/-- What is known when a thread returns: a check that loaded nothing found no activation, and a
successful `deactivate` ended with the deletion of the cache. -/
def AtReturn (h : Past signature) : Task → Outcome → Prop
  | .check, result =>
    result = .license (.error .notActivated) ∨ ∃ loaded, Event.did Effect.load (some loaded) ∈ h
  | .deactivate .., .deactivated (.ok _) =>
    ∃ h', h = .unlocked :: h' ∧
      (sdk.cachePath ≠ none → ∃ done, Event.did Effect.clear done ∈ currentSection h')
  | _, _ => True

/-- The effects that change what the clones share. -/
def Effect.writes : Effect → Bool
  | .save .. | .clear | .setRenewal _ | .storeFlag _ | .noteFlag .. => true
  | _ => false

/-- The contract of an Sdk. -/
@[reducible] def Sdk.contract : Contract sdk.system where
  writes e := e.writes = true
  Inv := Invariant
  Guar := Guarantee sdk
  Start _ := AtStart sdk
  Release _ := AtUnlock
  Abort t h := AtPanic h t
  Post t h := AtReturn sdk h t

/-! ### Lemmas about the past -/

section
variable {h h' : Past signature} {token : String} {chain : CertChain}

/-- A past that grew without a request. -/
structure Later (h h' : Past signature) : Prop where
  sent_eq : sent h' = sent h
  subset : h ⊆ h'

theorem Later.refl (h : Past signature) : Later h h := ⟨rfl, List.Subset.refl h⟩

theorem Later.trans {h'' : Past signature} (h₁ : Later h h') (h₂ : Later h' h'') : Later h h'' :=
  ⟨h₂.sent_eq.trans h₁.sent_eq, List.Subset.trans h₁.subset h₂.subset⟩

theorem Later.cons {ev : Event signature} (hl : Later h h') (hev : sent (ev :: h') = sent h') :
    Later h (ev :: h') :=
  ⟨hev.trans hl.sent_eq, fun _ hmem => List.mem_cons_of_mem _ (hl.subset hmem)⟩

theorem Returned.later (hr : Returned sdk h token chain) (hl : Later h h') :
    Returned sdk h' token chain := by
  unfold Returned TokenReply at hr ⊢
  rw [hl.sent_eq]
  exact hr

theorem Rejected.later (hr : Rejected sdk h) (hl : Later h h') : Rejected sdk h' := by
  unfold Rejected TokenReply at hr ⊢
  rw [hl.sent_eq]
  exact hr

theorem Released.later (hr : Released sdk h) (hl : Later h h') : Released sdk h' := by
  unfold Released at hr ⊢
  rw [hl.sent_eq]
  exact hr

theorem Verified.later (hv : Verified sdk h token chain) (hl : Later h h') :
    Verified sdk h' token chain := by
  obtain ⟨now, lic, hnow, hlic⟩ := hv
  exact ⟨now, lic, hl.subset hnow, hlic⟩

end

/-! ### The shared state under the contract -/

/-- Effects that do not write leave the shared state alone. -/
theorem write_quiet {e : Effect} {r : Answer e} {s : Shared} (h : ¬ e.writes = true) :
    Shared.write e r s = s := by
  cases e <;> first | rfl | exact absurd rfl h

/-- Every effect that keeps the contract keeps the invariant. -/
theorem invariant_write {t : Task} {h : Past signature} {e : Effect} {r : Answer e} {s : Shared}
    (hs : Invariant s) (hg : Guarantee sdk t h e r s) : Invariant (Shared.write e r s) := by
  cases e with
  | setRenewal state => exact le_trans hs hg.2
  | save token chain => cases r <;> exact hs
  | clear => cases r <;> exact hs
  | _ => exact hs

/-- Starting a thread keeps the invariant. -/
theorem invariant_forked {h : Past signature} {child : Task} {s : Shared}
    (hg : AtStart sdk h child s) : Invariant (Shared.forked child s) := by
  obtain ⟨_, _, _, _, _, _, -, -, -, -, -, -, -, -, -, -, -, -, rfl⟩ := hg
  exact le_refl _

theorem invariant_new (cache : Option (String × CertChain)) : Invariant (Shared.new cache) :=
  le_refl _

end LatteRs
