import LatteRs.Concurrent.Events
import LatteRs.Liveness
import LatteRs.Renewals

/-!
# What is sent

The requests of the methods over whole runs: which ones a call may send, how
often, and where the credentials of a background renewal come from.

* `Sdk.requestOf`: the request of a task;
* `sending`: the habits of the methods, as far as requests go;
* `requests_sent`: in every run a call sends its request once at most and no
  other, and a background renewal sends what a verified token names.
-/

namespace LatteRs

open Concurrent Act Program

variable {P : Platform} (sdk : Sdk P)

/-! ### Requests -/

/-- The request that a task sends, if it may send one. -/
def Sdk.requestOf : Task → Option (Client × String × Body)
  | .activate licenseKey =>
    let normalized := normalizeKey P.toUppercase licenseKey
    match validateLicenseKey normalized with
    | .error _ => none
    | .ok () => some (.http, sdk.baseUrl ++ "/v1/activate",
      .activate ⟨sdk.appId, normalized, sdk.machineId, sdk.machineName, sdkInfo⟩)
  | .renew activationId licenseKey =>
    some (.http, sdk.baseUrl ++ "/v1/renew", credentials sdk activationId licenseKey none)
  | .deactivate activationId licenseKey =>
    some (.http, sdk.baseUrl ++ "/v1/deactivate", credentials sdk activationId licenseKey none)
  | .machines activationId licenseKey =>
    some (.http, sdk.baseUrl ++ "/v1/machines", credentials sdk activationId licenseKey none)
  | .renameMachine activationId licenseKey name =>
    some (.http, sdk.baseUrl ++ "/v1/machines/rename",
      credentials sdk activationId licenseKey (some name))
  | .check => none
  | .background _ activationId licenseKey =>
    some (.backgroundHttp, sdk.baseUrl ++ "/v1/renew",
      credentials sdk activationId licenseKey none)

def isRequest : Event signature → Bool
  | .did (.request ..) _ => true
  | _ => false

/-- The requests among the events are those of the task. -/
def Sends (t : Task) (ev : Event signature) : Prop :=
  ∀ client url body answered, ev = .did (.request client url body) answered →
    sdk.requestOf t = some (client, url, body)

/-- A thread sends the request of its task, and sends it once. -/
@[reducible] def sending : Habits signature where
  Does t h ev := isRequest ev = true → h.countP isRequest = 0 ∧ Sends sdk t ev
  Aborts _ _ := True
  Returns _ _ _ := True

variable {sdk}

/-! ### Programs that send nothing -/

/-- No request. -/
def Silent (ev : Event signature) : Prop := isRequest ev = false

theorem silent_of_ordinary (ev : Event signature) (hev : Ordinary ev) : Silent ev := by
  cases ev with
  | did e r =>
    cases e with
    | request client url body => exact hev.elim
    | _ => rfl
  | _ => rfl

section
variable {α β : Type} {t : Task} {h : Past signature}

theorem does_of_silent {ev : Event signature} (hev : Silent ev) : (sending sdk).Does t h ev := by
  intro hreq
  rw [show isRequest ev = false from hev] at hreq
  cases hreq

theorem traced_of_silent {p : Act α} (hp : p.Uses Silent) {Q : Past signature → α → Prop}
    (hQ : ∀ h a, Q h a) : traced (sending sdk) t p Q h := by
  refine traced_of_uses (fun h ev hev hreq => ?_) (fun _ => trivial) hp hQ h
  rw [show isRequest ev = false from hev] at hreq
  cases hreq

/-- What sends nothing leaves a past without requests. -/
theorem traced_silent {p : Act α} (hp : p.Uses Silent) (hh : h.countP isRequest = 0)
    {Q : Past signature → α → Prop} (hQ : ∀ h a, h.countP isRequest = 0 → Q h a) :
    traced (sending sdk) t p Q h := by
  have hcons : ∀ {ev : Event signature} {h : Past signature}, Silent ev →
      h.countP isRequest = 0 → (ev :: h).countP isRequest = 0 := by
    intro ev h hev hh
    rw [List.countP_cons_of_neg (by rw [show isRequest ev = false from hev]; decide)]
    exact hh
  induction p generalizing h with
  | ret a => exact hQ h a hh
  | act e next ih => exact fun r => ⟨does_of_silent (hp r).1, ih r (hp r).2 (hcons (hp r).1 hh)⟩
  | lock next ih => exact ⟨does_of_silent hp.1, ih hp.2 (hcons hp.1 hh)⟩
  | tryLock next ih =>
    exact fun got => ⟨does_of_silent (hp got).1, ih got (hp got).2 (hcons (hp got).1 hh)⟩
  | unlock next ih => exact ⟨does_of_silent hp.1, ih hp.2 (hcons hp.1 hh)⟩
  | fork c next ih =>
    exact fun started =>
      ⟨does_of_silent (hp started).1, ih started (hp started).2 (hcons (hp started).1 hh)⟩
  | abort => trivial

/-- A call of the server, and what follows without another one. -/
theorem traced_call_bind {T : Type} {client : Client} {path : String} {body : Body}
    {decode : Bytes → Except String T} {f : Except LatteError T → Act β}
    (hreq : sdk.requestOf t = some (client, sdk.baseUrl ++ path, body))
    (hh : h.countP isRequest = 0) (hf : ∀ result, (f result).Uses Silent)
    {Q : Past signature → β → Prop} (hQ : ∀ h a, Q h a) :
    traced (sending sdk) t (call sdk client path body decode >>= f) Q h := by
  refine fun answered => ⟨fun _ => ⟨hh, fun client' url' body' answered' heq => ?_⟩,
    traced_of_silent (hf _) hQ⟩
  cases heq
  exact hreq

end

theorem silent_noteRenewal {T : Type} (activationId : String) (outcome : Except LatteError T) :
    (noteRenewal sdk activationId outcome).Uses Silent :=
  uses_bind (uses_holdsActivation silent_of_ordinary activationId) fun _ _ => ⟨rfl, trivial⟩

theorem silent_cachedLicense : (cachedLicense sdk).Uses Silent := by
  unfold cachedLicense
  refine uses_loadCache_bind silent_of_ordinary trivial fun tc => ?_
  refine uses_clock_bind silent_of_ordinary fun now => ?_
  refine uses_bind_except (uses_orAbort _) (fun _ => trivial) fun license => ?_
  exact uses_bind_except (uses_orAbort _) (fun _ => trivial) fun _ _ => ⟨rfl, trivial⟩

theorem silent_check : (check sdk).Uses Silent := by
  refine nonBlocking_check.mono fun ev hev => ?_
  cases ev with
  | did e r =>
    cases e with
    | request client url body => exact hev.elim
    | _ => rfl
  | _ => rfl

theorem silent_dropInFlight (attempt : ℕ) : (dropInFlight attempt).Uses Silent :=
  uses_dropInFlight (show Silent .locked from rfl) rfl (fun _ => rfl) (fun _ => rfl) attempt

/-! ### The methods -/

theorem traced_postAndHandleInvalidation_bind {β : Type} {t : Task} {h : Past signature}
    {path : String} {body : Body} {f : Except LatteError (String × CertChain) → Act β}
    (hreq : sdk.requestOf t = some (.http, sdk.baseUrl ++ path, body))
    (hh : h.countP isRequest = 0) (hf : ∀ result, (f result).Uses Silent)
    {Q : Past signature → β → Prop} (hQ : ∀ h a, Q h a) :
    traced (sending sdk) t (postAndHandleInvalidation sdk path body >>= f) Q h := by
  unfold postAndHandleInvalidation post
  rw [Program.bind_bind, Program.bind_bind]
  refine traced_call_bind hreq hh (fun result => ?_) hQ
  refine uses_bind ?_ fun posted => ?_
  · cases result <;> trivial
  · refine uses_bind ?_ hf
    cases posted with
    | ok tc => trivial
    | error e =>
      simp only
      split_ifs
      · exact uses_bind (uses_clearCache silent_of_ordinary) fun _ => trivial
      · trivial

theorem traced_activateOnline {licenseKey : String} {h : Past signature}
    {Q : Past signature → Except LatteError PublicLicense → Prop}
    (hvalid : validateLicenseKey (normalizeKey P.toUppercase licenseKey) = .ok ())
    (hh : h.countP isRequest = 0) (hQ : ∀ h a, Q h a) :
    traced (sending sdk) (.activate licenseKey)
      (activateOnline sdk (normalizeKey P.toUppercase licenseKey)) Q h := by
  have hreq : sdk.requestOf (.activate licenseKey) = some (.http, sdk.baseUrl ++ "/v1/activate",
      .activate ⟨sdk.appId, normalizeKey P.toUppercase licenseKey, sdk.machineId,
        sdk.machineName, sdkInfo⟩) := by
    unfold Sdk.requestOf
    simp only [hvalid]
  refine traced_postAndHandleInvalidation_bind hreq hh (fun result => ?_) hQ
  cases result with
  | error e => trivial
  | ok tc =>
    refine uses_bind_except (uses_verifyAndValidate silent_of_ordinary tc.1 tc.2)
      (fun _ => trivial) fun lic => ?_
    exact uses_bind (uses_saveToCache silent_of_ordinary tc.1 tc.2) fun _ => trivial

theorem sending_activate (licenseKey : String) {Q : Past signature → _ → Prop}
    (hQ : ∀ h a, Q h a) :
    traced (sending sdk) (.activate licenseKey) (activate sdk licenseKey) Q [] := by
  unfold activate
  simp only
  cases hvalid : validateLicenseKey (normalizeKey P.toUppercase licenseKey) with
  | error e => exact hQ _ _
  | ok u =>
    refine traced_bind.2 (traced_silent silent_cachedLicense rfl fun h cached hh => ?_)
    cases cached with
    | none => exact traced_activateOnline hvalid hh hQ
    | some la =>
      simp only
      split_ifs
      · exact hQ _ _
      · exact traced_activateOnline hvalid hh hQ

theorem sending_renew (activationId licenseKey : String) {Q : Past signature → _ → Prop}
    (hQ : ∀ h a, Q h a) :
    traced (sending sdk) (.renew activationId licenseKey) (renew sdk activationId licenseKey)
      Q [] := by
  refine fun now => ⟨does_of_silent rfl, does_of_silent rfl, fun state => ⟨does_of_silent rfl,
    fun _ => ⟨does_of_silent rfl, does_of_silent rfl, ?_⟩⟩⟩
  refine traced_postAndHandleInvalidation_bind rfl rfl ?_ hQ
  refine fun renewed => uses_acquire_bind silent_of_ordinary ?_
  refine uses_bind (silent_noteRenewal activationId renewed) fun _ => ?_
  refine uses_release_bind silent_of_ordinary ?_
  cases renewed with
  | error e => trivial
  | ok tc =>
    refine uses_bind_except (uses_verifyAndValidate silent_of_ordinary tc.1 tc.2)
      (fun _ => trivial) fun lic => ?_
    exact uses_bind (uses_saveToCache silent_of_ordinary tc.1 tc.2) fun _ => trivial

theorem sending_background (attempt : ℕ) (activationId licenseKey : String)
    {Q : Past signature → _ → Prop} (hQ : ∀ h a, Q h a) :
    traced (sending sdk) (.background attempt activationId licenseKey)
      (renewAndStore sdk attempt activationId licenseKey) Q [] := by
  unfold renewAndStore postVerified post
  rw [Program.bind_bind, Program.bind_bind]
  refine traced_call_bind rfl rfl (fun result => ?_) hQ
  refine uses_bind ?_ fun posted => ?_
  · cases result <;> trivial
  refine uses_bind ?_ fun renewed => ⟨rfl, fun state => ⟨rfl, ?_⟩⟩
  · cases posted with
    | error e => trivial
    | ok tc =>
      exact uses_bind_except (uses_verifyAndValidate silent_of_ordinary tc.1 tc.2)
        (fun _ => trivial) fun _ => trivial
  show (if state.attempt ≠ attempt then _ else _ : Act Unit).Uses Silent
  split_ifs
  · exact ⟨rfl, silent_dropInFlight attempt⟩
  · refine uses_bind (silent_noteRenewal activationId renewed) fun holds => ?_
    split_ifs
    · exact uses_bind (uses_storeRenewed silent_of_ordinary renewed)
        fun _ => silent_dropInFlight attempt
    · exact ⟨rfl, silent_dropInFlight attempt⟩

/-- Every thread sends the request of its task at most, and once at most. -/
theorem sending_sound (sdk : Sdk P) : (sending sdk).Sound sdk.system where
  body t := by
    show traced (sending sdk) t (sdk.body t) _ []
    cases t with
    | activate licenseKey =>
      exact traced_bind.2 (sending_activate licenseKey fun _ _ => trivial)
    | renew activationId licenseKey =>
      exact traced_bind.2 (sending_renew activationId licenseKey fun _ _ => trivial)
    | deactivate activationId licenseKey =>
      refine traced_bind.2 (traced_call_bind rfl rfl (fun result => ?_) fun _ _ => trivial)
      cases result with
      | error e => trivial
      | ok r => exact uses_bind (uses_clearCache silent_of_ordinary) fun _ => trivial
    | machines activationId licenseKey =>
      refine traced_call_bind rfl rfl ?_ fun _ _ => trivial
      exact fun _ => trivial
    | renameMachine activationId licenseKey name =>
      refine traced_call_bind rfl rfl ?_ fun _ _ => trivial
      exact fun _ => trivial
    | check => exact traced_bind.2 (traced_of_silent silent_check fun _ _ => trivial)
    | background attempt activationId licenseKey =>
      exact traced_bind.2
        (sending_background attempt activationId licenseKey fun _ _ => trivial)
  handler t h _ := by
    show traced (sending sdk) t (handler t) _ h
    cases t with
    | background attempt activationId licenseKey =>
      exact traced_bind.2 (traced_of_silent (silent_dropInFlight attempt) fun _ _ => trivial)
    | _ => trivial

/-! ### Whole runs -/

/-- Where the credentials of a background renewal come from: a check loaded a token of theirs from
the cache, which verified and names this machine and them. -/
def FromCheck (sdk : Sdk P) (c : Config sdk.system) (activationId licenseKey : String) : Prop :=
  ∃ (i : ℕ) (th : Thread signature) (o : Opening), c.threads[i]? = some th ∧ th.task = .check ∧
    o.Justified sdk ∧ o.license.activationId = activationId ∧ o.license.key = licenseKey ∧
      Event.did Effect.load (some (o.token, o.chain)) ∈ th.past ∧
        Event.did Effect.clock o.checked ∈ th.past

/-- The threads that a check has started are for tokens that it has loaded. -/
theorem opened_of_forked {cache : Option (String × CertChain)} {newest : ℤ}
    {c : Config sdk.system} (hrun : AnyRun (sdk.start cache newest) c) {i : ℕ}
    {th : Thread signature} (hi : c.threads[i]? = some th) {child : Task} {started : Bool}
    (hforked : Event.forked child started ∈ th.past) :
    th.task = .check ∧ ∃ o : Opening, o.Justified sdk ∧ child = o.child ∧
      Event.did Effect.load (some (o.token, o.chain)) ∈ th.past ∧
        Event.did Effect.clock o.checked ∈ th.past := by
  refine Habits.past_run (I := fun t h => ∀ child started, Event.forked child started ∈ h →
    t = .check ∧ ∃ o : Opening, o.Justified sdk ∧ child = o.child ∧
      Event.did Effect.load (some (o.token, o.chain)) ∈ h ∧ Event.did Effect.clock o.checked ∈ h)
    sdk.habits_sound hrun (fun t child started hmem => ?_)
    (fun t h ev hdoes ih child started hmem => ?_) hi child started hforked
  · cases hmem
  · rcases List.mem_cons.1 hmem with rfl | hold
    · obtain ⟨ht, o, ho, hrecorded, hchild⟩ := hdoes
      have hpast : ∀ ev ∈ o.past, ev ∈ Event.forked child started :: h := by
        intro ev hev
        rw [hrecorded]
        exact List.mem_cons_of_mem _ (List.mem_cons_of_mem _ hev)
      exact ⟨ht, o, ho, hchild, hpast _ (by simp [Opening.past]),
        hpast _ (by simp [Opening.past])⟩
    · obtain ⟨ht, o, ho, hchild, hload, hclock⟩ := ih child started hold
      exact ⟨ht, o, ho, hchild, List.mem_cons_of_mem _ hload, List.mem_cons_of_mem _ hclock⟩

/-- **What is sent.**  In every run a call sends one request at most, which is the one of its method
and its arguments, a check none, an activation none for a key that is empty or too long; and a
background renewal sends the activation id and the key of a token of this machine that a check
loaded from the cache and verified. -/
theorem requests_sent {cache : Option (String × CertChain)} {newest : ℤ}
    {c : Config sdk.system} (hrun : AnyRun (sdk.start cache newest) c) {i : ℕ}
    {th : Thread signature} (hi : c.threads[i]? = some th) :
    th.past.countP isRequest ≤ 1 ∧
      (∀ client url body answered,
        Event.did (Effect.request client url body) answered ∈ th.past →
          sdk.requestOf th.task = some (client, url, body)) ∧
      ∀ attempt activationId licenseKey,
        th.task = .background attempt activationId licenseKey →
          FromCheck sdk c activationId licenseKey := by
  have hsent : th.past.countP isRequest ≤ 1 ∧ ∀ ev ∈ th.past, Sends sdk th.task ev := by
    refine Habits.past_run (I := fun t h => h.countP isRequest ≤ 1 ∧ ∀ ev ∈ h, Sends sdk t ev)
      (sending_sound sdk) hrun (fun t => ⟨Nat.zero_le 1, fun ev hev => ?_⟩)
      (fun t h ev hdoes ih => ?_) hi
    · cases hev
    · by_cases hreq : isRequest ev = true
      · obtain ⟨hzero, hsends⟩ := hdoes hreq
        refine ⟨?_, fun ev' hev' => ?_⟩
        · rw [List.countP_cons_of_pos hreq, hzero]
        · rcases List.mem_cons.1 hev' with rfl | hold
          · exact hsends
          · exact ih.2 ev' hold
      · refine ⟨?_, fun ev' hev' => ?_⟩
        · rw [List.countP_cons_of_neg hreq]
          exact ih.1
        · rcases List.mem_cons.1 hev' with rfl | hold
          · rintro client url body answered rfl
            exact absurd rfl hreq
          · exact ih.2 ev' hold
  refine ⟨hsent.1, fun client url body answered hev => hsent.2 _ hev _ _ _ _ rfl, ?_⟩
  intro attempt activationId licenseKey htask
  have hcall : ¬ sdk.system.callable (.background attempt activationId licenseKey) := by
    intro h
    cases h
  obtain ⟨j, th', hj, hforked⟩ := forked_of_runs hrun hcall ⟨th, hi, htask⟩
  obtain ⟨hcheck, o, ho, hchild, hload, hclock⟩ := opened_of_forked hrun hj hforked
  unfold Opening.child at hchild
  cases hchild
  exact ⟨j, th', o, hj, hcheck, ho, rfl, rfl, hload, hclock⟩

/-- A background renewal that has sent its request. -/
theorem requests_sent_sample : ∃ (c : Config sampleSdk.system) (th : Thread signature),
    c.threads[1]? = some th ∧ th.past.countP isRequest = 1 ∧ FromCheck sampleSdk c "a" "KEY" := by
  have hplay : (play (fun _ _ _ => True) (sampleSdk.start (some ("h.t.4t", sampleChain)) 0)
      (.call .check :: sampleMoves 8 0 (sampleNow + 3540) (sampleReply 117) ++
        sampleMoves 1 1 (sampleNow + 3540) (sampleReply 117))).any
      (fun c => c.threads[1]?.any fun th =>
        decide (th.task = .background 1 "a" "KEY") && decide (th.past.countP isRequest = 1)) =
        true := by decide +kernel
  obtain ⟨c, hc, hany⟩ := (Option.any_eq_true _ _).1 hplay
  obtain ⟨th, hi, hth⟩ := (Option.any_eq_true _ _).1 hany
  obtain ⟨htask, hone⟩ := (Bool.and_eq_true_iff).1 hth
  exact ⟨c, th, hi, of_decide_eq_true hone,
    (requests_sent (play_run hc) hi).2.2 1 "a" "KEY" (of_decide_eq_true htask)⟩

end LatteRs
