import LatteRs.CacheWrites
import LatteRs.Renewals

/-!
# Failures to reach the server and the flag

`note_renewal` stores whether the request got no response, but only together
with whether the cache still holds the renewed activation.  So a renewal that
does not reach the server keeps the flag up exactly when the cache holds its
activation, and takes it down otherwise.

* `NoResponse`, `NoteHolds`: what the past of a thread says about its request and
  about the read of the cache that comes before the record;
* `Sdk.noteHabits`: what is recorded, told from that past;
* `flag_meaning`: what is known while the flag is up;
* `network_failure_keeps_flag`: the flag over runs in which no other outcome is
  recorded, and `other_activation_clears_flag`, a run that loses it.
-/

namespace LatteRs

open Concurrent Act Program

/-! ### What is recorded -/

/-- The latest request of the thread got no response. -/
def NoResponse (h : Past signature) : Prop := ∃ q ∈ sent h, q.answered.reply.isOk = false

instance (h : Past signature) : Decidable (NoResponse h) :=
  inferInstanceAs (Decidable (∃ q ∈ sent h, q.answered.reply.isOk = false))

variable {P : Platform} (sdk : Sdk P)

/-- The thread has just read a token from the cache, and then a time at which that token verifies
and belongs to `activationId`. -/
def NoteHolds (h : Past signature) (activationId : String) : Prop :=
  ∃ now token chain h', h = .did .clock now :: .did .load (some (token, chain)) :: h' ∧
    HoldsAt sdk (some (token, chain)) activationId now

/-- A renewal of `activationId` records a failure when it got no response and found its
activation in the cache. -/
@[reducible] def RecordsAfter (t : Task) (h : Past signature) : Event signature → Prop
  | .did (.noteFlag activationId _ failed) _ =>
    t.Renews activationId → (failed = true ↔ NoResponse h ∧ NoteHolds sdk h activationId)
  | _ => True

@[reducible] def Sdk.noteHabits : Habits signature where
  Does := RecordsAfter sdk
  Aborts _ _ := True
  Returns _ _ _ := True

section
variable {sdk} {t : Task} {h : Past signature}

/-- No record of an outcome. -/
def Unrecording : Event signature → Prop
  | .did (.noteFlag ..) _ => False
  | _ => True

theorem unrecording_of_ordinary (ev : Event signature) (hev : Ordinary ev) : Unrecording ev := by
  cases ev with
  | did e r => cases e <;> first | exact trivial | exact hev
  | _ => trivial

theorem traced_of_unrecording {α : Type} {p : Act α} (hp : p.Uses Unrecording)
    {Q : Past signature → α → Prop} (hQ : ∀ h a, Q h a) (h : Past signature) :
    traced sdk.noteHabits t p Q h := by
  refine traced_of_uses (fun h ev hev => ?_) (fun _ => trivial) hp hQ h
  cases ev with
  | did e r => cases e <;> first | exact trivial | exact hev.elim
  | _ => trivial

theorem isNetwork_decodeBody {T : Type} (decode : Bytes → Except String T)
    (body : Except String Bytes) : isNetwork (decodeBody decode body) = false := by
  unfold decodeBody
  cases body with
  | error e => rfl
  | ok bytes =>
    simp only
    cases decode bytes <;> rfl

theorem isNetwork_statusError {T : Type} (path : String) (status : ℕ) (err : ErrorResponse) :
    isNetwork (.error (statusError P path status err) : Except LatteError T) = false := by
  unfold statusError
  split_ifs <;> rfl

theorem isNetwork_checkTokenResponse (result : TokenResponse) :
    isNetwork (checkTokenResponse result) = false := by
  unfold checkTokenResponse
  split_ifs <;> rfl

/-- A request fails for the network exactly when it gets no response. -/
theorem isNetwork_readReply {T : Type} (path : String) (decode : Bytes → Except String T)
    (reply : Reply) : isNetwork (readReply P path decode reply) = true ↔ reply.isOk = false := by
  unfold readReply
  cases reply with
  | error e => exact iff_of_true rfl rfl
  | ok sb =>
    obtain ⟨status, body⟩ := sb
    refine iff_of_false ?_ (by simp [Except.isOk, Except.toBool])
    simp only
    split_ifs
    · simp [isNetwork_decodeBody]
    · simp [isNetwork_statusError]

/-! ### The record of an outcome -/

/-- Recording the outcome of a renewal, once the past tells how its request ended. -/
theorem traced_noteRenewal {T : Type} {activationId : String} {outcome : Except LatteError T}
    (hnet : isNetwork outcome = true ↔ NoResponse h) (hclock : ∀ now h', h ≠ .did .clock now :: h')
    {Q : Past signature → Bool → Prop} (hQ : ∀ h a, Q h a) :
    traced sdk.noteHabits t (noteRenewal sdk activationId outcome) Q h := by
  -- the record that follows a read of the cache with the answer `holds`
  have note : ∀ {h' : Past signature} {holds : Bool}, sent h' = sent h →
      (holds = true ↔ NoteHolds sdk h' activationId) →
      traced sdk.noteHabits t (noteFlag activationId (isNetwork outcome)
        (isNetwork outcome && holds) >>= fun _ => Program.ret holds) Q h' := by
    intro h' holds hsent hholds
    refine traced_bind.2 fun _ => ⟨fun _ => ?_, hQ _ _⟩
    rw [Bool.and_eq_true, hnet, hholds]
    unfold NoResponse
    rw [hsent]
  -- where nothing was read, or no time after it, the activation was not found
  have notHeld : ∀ {h' : Past signature}, (∀ now h'', h' ≠ .did .clock now :: h'') →
      (false = true ↔ NoteHolds sdk h' activationId) := by
    intro h' hne
    refine iff_of_false Bool.false_ne_true ?_
    rintro ⟨now, token, chain, h'', heq, -⟩
    exact hne _ _ heq
  unfold noteRenewal holdsActivation loadCache
  refine traced_bind.2 (traced_bind.2 ?_)
  cases sdk.cachePath with
  | none => exact note rfl (notHeld hclock)
  | some path =>
    refine fun cached => ⟨trivial, ?_⟩
    cases cached with
    | none => exact note rfl (notHeld (by simp))
    | some tc =>
      obtain ⟨token, chain⟩ := tc
      refine traced_bind.2 fun now => ⟨trivial, traced_bind.2 ?_⟩
      -- what was read holds the activation as the verification says
      have held : ∀ {holds : Bool}, (holds = true ↔ ∃ license,
          verifyActivationAnyAt P.toCrypto sdk.masterPubs token chain now = .ok license ∧
            license.activationId = activationId) → (holds = true ↔ NoteHolds sdk
            (.did .clock now :: .did .load (some (token, chain)) :: h) activationId) := by
        intro holds hholds
        rw [hholds]
        constructor
        · rintro ⟨license, hver, haid⟩
          exact ⟨now, token, chain, h, rfl, token, chain, license, rfl, hver, haid⟩
        · rintro ⟨now', token', chain', h', heq, token'', chain'', license, hcached, hver, haid⟩
          cases heq
          cases hcached
          exact ⟨license, hver, haid⟩
      match hver : verifyActivationAnyAt P.toCrypto sdk.masterPubs token chain now with
      | .error .panic => trivial
      | .error (.err e) => exact note rfl (held (by simp [hver]))
      | .ok license => exact note rfl (held (by simp [hver]))

/-! ### Renewals -/

theorem notes_post (client : Client) (path : String) (body : Body)
    {Q : Past signature → Except LatteError (String × CertChain) → Prop}
    (hQ : ∀ answered outcome, (isNetwork outcome = true ↔ answered.reply.isOk = false) →
      Q (.did (.request client (sdk.baseUrl ++ path) body) answered :: h) outcome) :
    traced sdk.noteHabits t (post sdk client path body) Q h := by
  unfold post call
  refine traced_bind.2 (traced_bind.2 fun answered => ⟨trivial, ?_⟩)
  have hnet := isNetwork_readReply (P := P) path P.tokenResponse answered.reply
  simp only [traced]
  generalize readReply P path P.tokenResponse answered.reply = read at hnet ⊢
  cases read with
  | error e =>
    refine hQ answered _ (Iff.trans ?_ hnet)
    cases e <;> exact Iff.rfl
  | ok result =>
    refine hQ answered _ ?_
    rw [isNetwork_checkTokenResponse]
    exact hnet

theorem noResponse_request {client : Client} {url : String} {body : Body} {answered : Answered} :
    NoResponse (.did (.request client url body) answered :: h) ↔ answered.reply.isOk = false := by
  simp [NoResponse, sent]

theorem noResponse_congr {h' : Past signature} (hsent : sent h' = sent h) :
    NoResponse h' ↔ NoResponse h := by
  unfold NoResponse
  rw [hsent]

theorem notes_postAndHandleInvalidation (path : String) (body : Body)
    {Q : Past signature → Except LatteError (String × CertChain) → Prop}
    (hQ : ∀ h' outcome, (isNetwork outcome = true ↔ NoResponse h') → Q h' outcome) :
    traced sdk.noteHabits t (postAndHandleInvalidation sdk path body) Q h := by
  unfold postAndHandleInvalidation
  refine traced_bind.2 (notes_post _ _ _ fun answered outcome hnet => ?_)
  rw [← noResponse_request (h := h)] at hnet
  cases outcome with
  | ok tc => exact hQ _ _ hnet
  | error e =>
    simp only
    split_ifs with he
    · -- the cache is dropped: no further request, and the error is not one of the network
      rw [isNetwork_of_invalidates he] at hnet
      have hQ' : ∀ h', sent h' = sent (.did (.request .http (sdk.baseUrl ++ path) body) answered ::
          h) → Q h' (.error e) := fun h' hsent => by
        refine hQ h' _ ?_
        rw [isNetwork_of_invalidates he, noResponse_congr hsent]
        exact hnet
      unfold clearCache
      refine traced_bind.2 ⟨trivial, fun _ => ⟨trivial, ?_⟩⟩
      cases sdk.cachePath with
      | none => exact ⟨trivial, hQ' _ rfl⟩
      | some path => exact fun _ => ⟨trivial, trivial, hQ' _ rfl⟩
    · exact hQ _ _ hnet

theorem unrecording_dropInFlight (attempt : ℕ) : (dropInFlight attempt).Uses Unrecording :=
  uses_dropInFlight trivial trivial (fun _ => trivial) (fun _ => trivial) attempt

theorem notes_renew (activationId licenseKey : String)
    {Q : Past signature → Except LatteError PublicLicense → Prop} (hQ : ∀ h a, Q h a) :
    traced sdk.noteHabits t (renew sdk activationId licenseKey) Q h := by
  unfold renew
  refine traced_bind.2 fun now => ⟨trivial, traced_bind.2 ⟨trivial, ?_⟩⟩
  refine traced_bind.2 fun state => ⟨trivial, traced_bind.2 fun _ => ⟨trivial, ?_⟩⟩
  refine traced_bind.2 ⟨trivial, ?_⟩
  refine traced_bind.2 (notes_postAndHandleInvalidation _ _ fun h' renewed hnet => ?_)
  refine traced_bind.2 ⟨trivial, ?_⟩
  have hnet' : isNetwork renewed = true ↔ NoResponse (.locked :: h') := hnet
  refine traced_bind.2 (traced_noteRenewal hnet' (by simp) fun h'' _ =>
    traced_of_unrecording ?_ hQ _)
  -- nothing is recorded after that
  have hok := unrecording_of_ordinary
  refine uses_release_bind hok ?_
  cases renewed with
  | error e => trivial
  | ok tc =>
    refine uses_bind_except (uses_verifyAndValidate hok tc.1 tc.2) (fun _ => trivial) fun lic => ?_
    exact uses_bind (uses_saveToCache hok tc.1 tc.2) fun _ => trivial

theorem notes_postVerified (activationId licenseKey : String)
    {Q : Past signature → Except LatteError (String × CertChain) → Prop}
    (hQ : ∀ h' outcome, (isNetwork outcome = true ↔ NoResponse h') → Q h' outcome) :
    traced sdk.noteHabits t (postVerified sdk activationId licenseKey) Q h := by
  unfold postVerified
  refine traced_bind.2 (notes_post _ _ _ fun answered outcome hnet => ?_)
  rw [← noResponse_request (h := h)] at hnet
  cases outcome with
  | error e => exact hQ _ _ hnet
  | ok tc =>
    obtain ⟨token, chain⟩ := tc
    unfold verifyAndValidate
    refine traced_bind.2 (traced_bind.2 fun now => ⟨trivial, traced_bind.2 ?_⟩)
    match checkLicenseAnyAtWithRenewalFailed P.toCrypto sdk.masterPubs token chain sdk.machineId
        now false with
    | .error .panic => trivial
    | .error (.err e) => exact hQ _ _ (hnet.trans (noResponse_congr rfl).symm)
    | .ok lic => exact hQ _ _ (hnet.trans (noResponse_congr rfl).symm)

theorem notes_renewAndStore (attempt : ℕ) (activationId licenseKey : String)
    {Q : Past signature → Unit → Prop} (hQ : ∀ h a, Q h a) :
    traced sdk.noteHabits t (renewAndStore sdk attempt activationId licenseKey) Q h := by
  have hok := unrecording_of_ordinary
  unfold renewAndStore
  refine traced_bind.2 (notes_postVerified _ _ fun h' renewed hnet => ?_)
  refine traced_bind.2 ⟨trivial, traced_bind.2 fun state => ⟨trivial, ?_⟩⟩
  show traced sdk.noteHabits _ (if state.attempt ≠ attempt then _ else _) Q _
  split_ifs
  · exact traced_of_unrecording (uses_release_bind hok (unrecording_dropInFlight attempt)) hQ _
  · have hnet' : isNetwork renewed = true ↔ NoResponse (.did .getRenewal state :: .locked :: h') :=
      hnet
    refine traced_bind.2 (traced_noteRenewal hnet' (by simp) fun h'' holds =>
      traced_of_unrecording ?_ hQ _)
    split_ifs
    · exact uses_bind (uses_storeRenewed hok _) fun _ => unrecording_dropInFlight attempt
    · exact uses_release_bind hok (unrecording_dropInFlight attempt)

/-- Every method, and every thread that unwinds, records what it learned. -/
theorem Sdk.noteHabits_sound (sdk : Sdk P) : sdk.noteHabits.Sound sdk.system where
  body t := by
    show traced sdk.noteHabits t (sdk.body t) (fun _ _ => True) []
    -- the tasks that renew nothing may record what they like
    have other : (∀ activationId, ¬ t.Renews activationId) →
        traced sdk.noteHabits t (sdk.body t) (fun _ _ => True) [] := by
      intro ht
      have huses : (sdk.body t).Uses (S := signature) fun _ => True := uses_true _
      refine traced_of_uses (fun h ev _ => ?_) (fun _ => trivial) huses (fun _ _ => trivial) []
      cases ev with
      | did e r => cases e <;> first | exact trivial | exact fun hr => absurd hr (ht _)
      | _ => trivial
    cases t with
    | renew activationId licenseKey =>
      exact traced_bind.2 (notes_renew activationId licenseKey fun _ _ => trivial)
    | background attempt activationId licenseKey =>
      exact traced_bind.2 (notes_renewAndStore attempt activationId licenseKey fun _ _ => trivial)
    | _ => exact other fun _ => by simp [Task.Renews]
  handler t h _ := by
    show traced sdk.noteHabits t (handler t) (fun _ _ => True) h
    cases t with
    | background attempt activationId licenseKey =>
      exact traced_bind.2 (traced_of_unrecording (unrecording_dropInFlight attempt)
        (fun _ _ => trivial) h)
    | _ => trivial

end

/-! ### The meaning of the flag -/

section
variable {sdk}

/-- The flag after an outcome is recorded. -/
theorem flag_of_record {c c' : Config sdk.system} (hk : sdk.contract.Kept c)
    (hn : sdk.noteHabits.Kept c) {i : ℕ} {activationId : String} {network failed : Bool}
    (hstep : Step c (.op i (.did (.noteFlag activationId network failed) ())) c')
    {th : Thread signature} (hi : c.threads[i]? = some th) :
    c'.shared.renewalFailed = true ↔ NoResponse th.past ∧ NoteHolds sdk th.past activationId := by
  obtain ⟨th₁, hi₁, hrenews, -⟩ := hk.guar sdk.sound hstep
  obtain ⟨th₂, hi₂, hrecords⟩ := hn.does hstep
  cases Option.some.inj (hi.symm.trans hi₁)
  cases Option.some.inj (hi.symm.trans hi₂)
  have hflag : c'.shared.renewalFailed = failed := by
    rw [hstep.shared]
    rfl
  rw [hflag]
  exact hrecords hrenews

/-- A step that records no renewal outcome and does not change the cache. -/
def Unnoted (c : Config sdk.system) (l : Label signature) (c' : Config sdk.system) : Prop :=
  (∀ i activationId network failed,
    l ≠ .op i (.did (.noteFlag activationId network failed) ())) ∧
    c'.shared.cache = c.shared.cache

/-- The renewal ended in `LatteError::Network`. -/
def NetworkFailure (P : Platform) (h : Past signature) : Prop :=
  ∃ q ∈ sent h, ∃ reason, readToken P "/v1/renew" q.answered.reply = .error (.network reason)

/-- The last renewal outcome recorded before `c`, in a run that starts in `c₀`, was that the
renewal of an activation which the cache held got no response, and the cache has not changed
since. -/
def LastUnreachable (c₀ c : Config sdk.system) : Prop :=
  ∃ (c₁ c₂ : Config sdk.system) (i : ℕ) (th : Thread signature) (activationId : String),
    AnyRun c₀ c₁ ∧ c₁.threads[i]? = some th ∧
    Step c₁ (.op i (.did (.noteFlag activationId true true) ())) c₂ ∧
    th.task.Renews activationId ∧ NoResponse th.past ∧ NetworkFailure P th.past ∧
    Latest th.task c₁.shared ∧ HoldsNow sdk th.past c₁.shared activationId ∧
    c₂.shared.cache = c₁.shared.cache ∧ Run Unnoted c₂ c

theorem NoResponse.networkFailure {h : Past signature} (hno : NoResponse h) :
    NetworkFailure P h := by
  obtain ⟨q, hq, hreply⟩ := hno
  cases hr : q.answered.reply with
  | error reason => exact ⟨q, hq, reason, by rw [hr]; rfl⟩
  | ok response =>
    rw [hr] at hreply
    cases hreply

/-- The step is the record of a renewal outcome. -/
def Notes (l : Label signature) : Prop :=
  ∃ i activationId network failed, l = .op i (.did (.noteFlag activationId network failed) ())

/-- An outcome that raises the flag. -/
theorem lastUnreachable_note {c₀ c c' : Config sdk.system} {i : ℕ} {activationId : String}
    {network failed : Bool} (hrun : AnyRun c₀ c) (hk : sdk.contract.Kept c)
    (hn : sdk.noteHabits.Kept c)
    (hstep : Step c (.op i (.did (.noteFlag activationId network failed) ())) c')
    (hf : c'.shared.renewalFailed = true) : LastUnreachable c₀ c' := by
  obtain ⟨th, hi, hrenews, hlatest, hnet⟩ := hk.guar sdk.sound hstep
  have hno := ((flag_of_record hk hn hstep hi).1 hf).1
  have hshared := hstep.shared
  rw [hshared] at hf
  have hup : failed = true := hf
  subst hup
  obtain ⟨rfl, hholds⟩ := hnet rfl
  refine ⟨c, c', i, th, activationId, hrun, hi, hstep, hrenews, hno, hno.networkFailure, hlatest,
    hholds, ?_, Run.refl _⟩
  rw [hshared]
  rfl

/-- A step that records nothing and leaves the flag up leaves the cache alone, and the flag was
up before. -/
theorem up_before {c c' : Config sdk.system} {l : Label signature} (hk : sdk.contract.Kept c)
    (hstep : Step c l c') (hl : ¬ Notes l) (hf : c'.shared.renewalFailed = true) :
    c'.shared.cache = c.shared.cache ∧ c.shared.renewalFailed = true := by
  rcases shared_cases hstep with hsame | hcases
  · rw [hsame] at hf ⊢
    exact ⟨rfl, hf⟩
  · cases hcases with
    | save i token chain h =>
      obtain ⟨th, -, -, hdown, -⟩ := hk.guar sdk.sound hstep
      rw [h] at hf
      exact Bool.noConfusion (hf.symm.trans hdown)
    | clear i h =>
      obtain ⟨th, -, hdown, -⟩ := hk.guar sdk.sound hstep
      rw [h] at hf
      exact Bool.noConfusion (hf.symm.trans hdown)
    | setRenewal i state h =>
      rw [h] at hf ⊢
      exact ⟨rfl, hf⟩
    | storeFlag i failed h =>
      obtain ⟨th, -, hdown, -⟩ := hk.guar sdk.sound hstep
      rw [h] at hf
      exact Bool.noConfusion (hf.symm.trans hdown)
    | noteFlag i activationId network failed h => exact absurd ⟨i, _, _, _, rfl⟩ hl
    | fork i attempt activationId licenseKey h =>
      rw [h] at hf ⊢
      exact ⟨rfl, hf⟩

theorem lastUnreachable_step {c₀ c c' : Config sdk.system} {l : Label signature}
    (hrun : AnyRun c₀ c) (hk : sdk.contract.Kept c) (hn : sdk.noteHabits.Kept c)
    (hstep : Step c l c') (ih : c.shared.renewalFailed = true → LastUnreachable c₀ c)
    (hf : c'.shared.renewalFailed = true) : LastUnreachable c₀ c' := by
  by_cases hnote : Notes l
  · obtain ⟨i, activationId, network, failed, rfl⟩ := hnote
    exact lastUnreachable_note hrun hk hn hstep hf
  · obtain ⟨hcache, hflag⟩ := up_before hk hstep hnote hf
    obtain ⟨c₁, c₂, i, th, a, h1, h2, h3, h4, h5, h6, h7, h8, h9, hsince⟩ := ih hflag
    refine ⟨c₁, c₂, i, th, a, h1, h2, h3, h4, h5, h6, h7, h8, h9, hsince.tail hstep ⟨?_, hcache⟩⟩
    intro j a' n f heq
    exact hnote ⟨j, a', n, f, heq⟩

/-- **The meaning of the flag.**  A new Sdk starts with the flag down.  While it is up, the last
recorded outcome is that a renewal, manual or the latest background one, got no response while
the cache held its activation, and the cache has not changed since. -/
theorem flag_meaning {cache : Option (String × CertChain)} {newest : ℤ}
    {c : Config sdk.system} (hrun : AnyRun (sdk.start cache newest) c) :
    (sdk.start cache newest).shared.renewalFailed = false ∧
      (c.shared.renewalFailed = true → LastUnreachable (sdk.start cache newest) c) := by
  refine ⟨rfl, ?_⟩
  have hI : AnyRun (sdk.start cache newest) c ∧
      (c.shared.renewalFailed = true → LastUnreachable (sdk.start cache newest) c) := by
    refine hrun.preserves (I := fun c => AnyRun (sdk.start cache newest) c ∧
      (c.shared.renewalFailed = true → LastUnreachable (sdk.start cache newest) c)) ?_ ?_
    · rintro c l c' ⟨hrun, ih⟩ hstep -
      have hn : sdk.noteHabits.Kept c :=
        (Habits.Kept.init (Shared.new cache) newest).run sdk.noteHabits_sound hrun
      exact ⟨hrun.tail hstep trivial, lastUnreachable_step hrun (kept_of_run hrun) hn hstep ih⟩
    · refine ⟨Run.refl _, ?_⟩
      intro hf
      cases hf
  exact hI.2

/-- A manual renewal that does not reach the server. -/
theorem flag_meaning_sample : ∃ c : Config sampleSdk.system, c.shared.renewalFailed = true ∧
    LastUnreachable (sampleSdk.start (some ("h.t.4t", sampleChain)) 0) c := by
  have hplay : (play (fun _ _ _ => True) (sampleSdk.start (some ("h.t.4t", sampleChain)) 0)
      (.call (.renew "a" "KEY") :: sampleMoves 10 0 sampleNow (.error "timeout"))).any
      (fun c => decide (c.shared.renewalFailed = true)) = true := by decide +kernel
  obtain ⟨c, hc, hflag⟩ := (Option.any_eq_true _ _).1 hplay
  have hup : c.shared.renewalFailed = true := of_decide_eq_true hflag
  exact ⟨c, hup, (flag_meaning (play_run hc)).2 hup⟩

end

/-! ### Failures in a row -/

/-- Nothing is recorded but failures to get a response: no activation, deactivation, rejection
or answered renewal. -/
def Unanswered (c : Config sdk.system) : Label signature → Config sdk.system → Prop
  | .op _ (.did (.storeFlag _) _), _ => False
  | .op i (.did (.noteFlag ..) _), _ => ∀ th ∈ c.threads[i]?, NoResponse th.past
  | _, _ => True

/-- What is recorded is recorded while the cache holds the activation. -/
def RecordedHeld (c : Config sdk.system) : Label signature → Config sdk.system → Prop
  | .op i (.did (.noteFlag activationId _ _) _), _ =>
    ∀ th ∈ c.threads[i]?, NoteHolds sdk th.past activationId
  | _, _ => True

instance (c : Config sdk.system) (l : Label signature) (c' : Config sdk.system) :
    Decidable (Unanswered sdk c l c') :=
  match l with
  | .op _ (.did (.storeFlag _) _) => isFalse id
  | .op i (.did (.noteFlag ..) _) =>
    inferInstanceAs (Decidable (∀ th ∈ c.threads[i]?, NoResponse th.past))
  | .call _ | .panic _ | .op _ .locked | .op _ (.triedLock _) | .op _ .unlocked
  | .op _ (.forked ..) | .op _ (.did .clock _) | .op _ (.did (.request ..) _)
  | .op _ (.did .load _) | .op _ (.did (.save ..) _) | .op _ (.did .clear _)
  | .op _ (.did .loadFlag _) | .op _ (.did .getRenewal _) | .op _ (.did (.setRenewal _) _) =>
    isTrue trivial

variable {sdk}

/-- A step that records only a failure whose activation is held keeps the flag up. -/
theorem flag_stays_up {c c' : Config sdk.system} {l : Label signature}
    (hk : sdk.contract.Kept c) (hn : sdk.noteHabits.Kept c) (hstep : Step c l c')
    (hl : Unanswered sdk c l c') (hheld : RecordedHeld sdk c l c')
    (hup : c.shared.renewalFailed = true) : c'.shared.renewalFailed = true := by
  rcases shared_cases hstep with hsame | hcases
  · rw [hsame]
    exact hup
  · cases hcases with
    | storeFlag i failed h => exact hl.elim
    | noteFlag i activationId network failed h =>
      obtain ⟨th, hi, -⟩ := hk.guar sdk.sound hstep
      exact (flag_of_record hk hn hstep hi).2 ⟨hl th hi, hheld th hi⟩
    | save i token chain h => rw [h]; exact hup
    | clear i h => rw [h]; exact hup
    | setRenewal i state h => rw [h]; exact hup
    | fork i attempt activationId licenseKey h => rw [h]; exact hup

/-- **When a failure to reach the server keeps the flag.**  From a state in which the flag is up,
it stays up over every run in which nothing is recorded but renewals that got no response, as
long as each of them finds its activation in the cache; and one that does not find it there
takes the flag down. -/
theorem network_failure_keeps_flag {cache : Option (String × CertChain)} {newest : ℤ}
    {c₀ : Config sdk.system} (hrun₀ : AnyRun (sdk.start cache newest) c₀)
    (hup : c₀.shared.renewalFailed = true) :
    (∀ c, Run (fun c l c' => Unanswered sdk c l c' ∧ RecordedHeld sdk c l c') c₀ c →
      c.shared.renewalFailed = true) ∧
    ∀ c, Run (Unanswered sdk) c₀ c → ∀ i th activationId network failed c',
      c.threads[i]? = some th → NoResponse th.past →
      Step c (.op i (.did (.noteFlag activationId network failed) ())) c' →
      (c'.shared.renewalFailed = true ↔ NoteHolds sdk th.past activationId) := by
  have hn₀ : sdk.noteHabits.Kept c₀ :=
    (Habits.Kept.init (Shared.new cache) newest).run sdk.noteHabits_sound hrun₀
  constructor
  · intro c hrun
    have hI : sdk.contract.Kept c ∧ sdk.noteHabits.Kept c ∧ c.shared.renewalFailed = true := by
      refine hrun.preserves (I := fun c => sdk.contract.Kept c ∧ sdk.noteHabits.Kept c ∧
        c.shared.renewalFailed = true) ?_ ⟨kept_of_run hrun₀, hn₀, hup⟩
      rintro c l c' ⟨hk, hn, hflag⟩ hstep ⟨hl, hheld⟩
      exact ⟨hk.step sdk.sound hstep, hn.step sdk.noteHabits_sound hstep,
        flag_stays_up hk hn hstep hl hheld hflag⟩
    exact hI.2.2
  · intro c hrun i th activationId network failed c' hi hreply hstep
    rw [flag_of_record ((kept_of_run hrun₀).run sdk.sound hrun) (hn₀.run sdk.noteHabits_sound hrun)
      hstep hi]
    exact and_iff_right hreply

/-- The thread that records an outcome in a step, and the activation it renewed. -/
def recorder : Label signature → Option (ℕ × String)
  | .op i (.did (.noteFlag activationId _ _) _) => some (i, activationId)
  | _ => none

theorem recorder_eq_some {l : Label signature} {i : ℕ} {activationId : String} :
    recorder l = some (i, activationId) ↔
      ∃ network failed, l = .op i (.did (.noteFlag activationId network failed) ()) := by
  constructor
  · intro h
    unfold recorder at h
    split at h
    · cases h
      exact ⟨_, _, rfl⟩
    · cases h
  · rintro ⟨network, failed, rfl⟩
    rfl

/-- Two renewals of the cached activation, neither of which is answered. -/
theorem network_failure_keeps_flag_sample : ∃ (c c' : Config sampleSdk.system)
    (th : Thread signature), c.threads[1]? = some th ∧ c'.shared.renewalFailed = true ∧
      NoteHolds sampleSdk th.past "a" := by
  have hplay : (play (fun _ _ _ => True) (sampleSdk.start (some ("h.t.4t", sampleChain)) 0)
      (.call (.renew "a" "KEY") :: sampleMoves 11 0 sampleNow (.error "timeout"))).any
      (fun c₀ => decide (c₀.shared.renewalFailed = true) &&
        (play (Unanswered sampleSdk) c₀
          (.call (.renew "a" "KEY") :: sampleMoves 9 1 sampleNow (.error "timeout"))).any
          fun c => decide (∀ th ∈ c.threads[1]?, NoResponse th.past) &&
            (c.next (.go 1 (sampleOracle sampleNow (.error "timeout")))).any fun s =>
              decide (recorder s.1 = some (1, "a") ∧ s.2.shared.renewalFailed = true)) = true := by
    decide +kernel
  obtain ⟨c₀, hc₀, h⟩ := (Option.any_eq_true _ _).1 hplay
  obtain ⟨hup, h⟩ := Bool.and_eq_true_iff.1 h
  obtain ⟨c, hc, h⟩ := (Option.any_eq_true _ _).1 h
  obtain ⟨hreply, hnext⟩ := Bool.and_eq_true_iff.1 h
  obtain ⟨l, c', hrun, hstep, hl, hflag⟩ := play_step (Q := fun _ l c' =>
    recorder l = some (1, "a") ∧ c'.shared.renewalFailed = true) hc hnext
  obtain ⟨network, failed, rfl⟩ := recorder_eq_some.1 hl
  obtain ⟨th, p, hi, -, -⟩ := hstep.op_inv
  have hholds := ((network_failure_keeps_flag (play_run hc₀) (of_decide_eq_true hup)).2 c hrun 1 th
    "a" network failed c' hi (of_decide_eq_true hreply th hi) hstep).1 hflag
  exact ⟨c, c', th, hi, hflag, hholds⟩

/-- The cache holds the activation `a`, whose renewal could not reach the server.  The renewal of
another activation cannot reach it either, and the flag is down. -/
theorem other_activation_clears_flag : ∃ c₀ c : Config sampleSdk.system,
    AnyRun (sampleSdk.start (some ("h.t.4t", sampleChain)) 0) c₀ ∧
      c₀.shared.renewalFailed = true ∧ Run (Unanswered sampleSdk) c₀ c ∧
      c.returned 1 = some (.license (.error (.network "timeout"))) ∧
      c.shared.cache = c₀.shared.cache ∧ c.shared.renewalFailed = false := by
  have hplay : (play (fun _ _ _ => True) (sampleSdk.start (some ("h.t.4t", sampleChain)) 0)
      (.call (.renew "a" "KEY") :: sampleMoves 11 0 sampleNow (.error "timeout"))).any
      (fun c₀ => decide (c₀.shared.renewalFailed = true) &&
        (play (Unanswered sampleSdk) c₀
          (.call (.renew "b" "KEY") :: sampleMoves 11 1 sampleNow (.error "timeout"))).any
          fun c => decide (c.returned 1 = some (.license (.error (.network "timeout"))) ∧
            c.shared.cache = c₀.shared.cache ∧ c.shared.renewalFailed = false)) = true := by
    decide +kernel
  obtain ⟨c₀, hc₀, h⟩ := (Option.any_eq_true _ _).1 hplay
  obtain ⟨hup, h⟩ := Bool.and_eq_true_iff.1 h
  obtain ⟨c, hc, h⟩ := (Option.any_eq_true _ _).1 h
  exact ⟨c₀, c, play_run hc₀, of_decide_eq_true hup, play_run hc, of_decide_eq_true h⟩

end LatteRs
