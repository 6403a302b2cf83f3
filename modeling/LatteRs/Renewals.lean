import LatteRs.Concurrent.Traces
import LatteRs.Conduct

/-!
# What renewals do

The habits of the Sdk: on which past a thread writes the renewal state, starts a
background renewal, and returns a licence from `check`.  A check that opens a
renewal has one past only, which `Opening` spells out.

* `Opening`, `Opening.Justified`, `RenewalWrite`, `Unsettled`;
* `CheckedOk`, what `check` has done when it returns a licence;
* `Sdk.habits`, and `Sdk.habits_sound`: every task has them.
-/

namespace LatteRs

open Concurrent Act Program

/-! ### Openings of background renewals -/

/-- What a check that opens a background renewal has loaded, computed and read. -/
structure Opening where
  token : String
  chain : CertChain
  /-- The clock reading at which the token was verified. -/
  checked : SystemTime
  license : License
  /-- The recorded start time. -/
  now : SystemTime
  before : Renewal

namespace Opening

/-- The events of the check up to the opening. -/
def past (o : Opening) : Past signature :=
  [.did .getRenewal o.before, .triedLock true, .did .clock o.now, .did .clock o.checked,
    .did .load (some (o.token, o.chain))]

/-- The state that it records. -/
def started (o : Opening) : Renewal := ⟨o.before.attempt + 1, some o.now, some o.now⟩

/-- The background renewal that it starts. -/
def child (o : Opening) : Task :=
  .background (o.before.attempt + 1) o.license.activationId o.license.key

/-- The events of the check once the state is recorded. -/
def recorded (o : Opening) : Past signature := .did (.setRenewal o.started) () :: o.past

/-- The events of the check when no thread could be started. -/
def failed (o : Opening) : Past signature := .forked o.child false :: o.recorded

end Opening

variable {P : Platform} (sdk : Sdk P)

/-- The token verified and names this machine and an activation, it is old enough, and a renewal
is due. -/
structure Opening.Justified (o : Opening) : Prop where
  verified : verifyActivationAnyAt P.toCrypto sdk.masterPubs o.token o.chain o.checked =
    .ok o.license
  machineId : o.license.machineId = sdk.machineId
  activationId : o.license.activationId ≠ ""
  key : o.license.key ≠ ""
  age : renewAfter ≤ since o.now o.license.issuedAt
  due : Due o.before o.now

/-! ### Habits -/

/-- Which task writes which renewal state, after which past. -/
inductive RenewalWrite : Task → Past signature → Renewal → Prop
  /-- A manual renewal notes that it was attempted. -/
  | manual (activationId licenseKey : String) (now : SystemTime) (state : Renewal) :
    RenewalWrite (.renew activationId licenseKey)
      [.did .getRenewal state, .locked, .did .clock now] { state with lastAttempt := some now }
  | opening (o : Opening) (ho : o.Justified sdk) : RenewalWrite .check o.past o.started
  | spawnFailed (o : Opening) :
    RenewalWrite .check o.failed { o.started with inFlight := none }
  /-- A background renewal drops its mark. -/
  | drop (attempt : ℕ) (activationId licenseKey : String) (state : Renewal)
    (h : Past signature) (hs : state.attempt = attempt) :
    RenewalWrite (.background attempt activationId licenseKey)
      (.did .getRenewal state :: .locked :: h) { state with inFlight := none }

/-- The past of a check that has recorded a renewal and has not yet learned that its thread was
started, or taken the mark back. -/
def Unsettled (h : Past signature) : Prop := ∃ o : Opening, h = o.recorded ∨ h = o.failed

/-- A background renewal sends the credentials it was started with. -/
def SendsCredentials (url : String) (body : Body) : Task → Prop
  | .background _ activationId licenseKey =>
    url = sdk.baseUrl ++ "/v1/renew" ∧ body = credentials sdk activationId licenseKey none
  | _ => True

/-- What `check` has done when it returns a licence. -/
def CheckedOk (h : Past signature) (lic : PublicLicense) : Prop :=
  ∃ token chain now license failed,
    (∀ cached, Event.did Effect.load cached ∈ h ↔ cached = some (token, chain)) ∧
      Event.did Effect.clock now ∈ h ∧
      verifyActivationAnyAt P.toCrypto sdk.masterPubs token chain now = .ok license ∧
      validateAt license sdk.machineId now = .ok () ∧
      lic = toPublicLicense license (inGracePeriod license now failed)

/-- A background renewal that has returned has dropped its mark, or found a newer renewal. -/
def Dropping (attempt : ℕ) (h : Past signature) : Prop :=
  (∃ state h', h = .unlocked :: .did (.setRenewal state) () :: h') ∨
    ∃ state h', h = .unlocked :: .did .getRenewal state :: .locked :: h' ∧ state.attempt ≠ attempt

@[reducible] def Does (t : Task) (h : Past signature) : Event signature → Prop
  | .did (.setRenewal state) _ => RenewalWrite sdk t h state
  | .did (.request _ url body) _ => SendsCredentials sdk url body t ∧ (t = .check → ¬ Unsettled h)
  | .forked child _ => t = .check ∧ ∃ o : Opening, o.Justified sdk ∧ h = o.recorded ∧
      child = o.child
  | _ => t = .check → ¬ Unsettled h

def ReturnsAfter (t : Task) (h : Past signature) (out : Outcome) : Prop :=
  (∀ lic, t = .check → out = .license (.ok lic) → CheckedOk sdk h lic) ∧
    ∀ attempt activationId licenseKey, t = .background attempt activationId licenseKey →
      Dropping attempt h

@[reducible] def Sdk.habits : Habits signature where
  Does := Does sdk
  Aborts t h := t = .check → ¬ Unsettled h
  Returns := ReturnsAfter sdk

/-! ### Tasks other than checks -/

/-- Neither a write of the renewal state, nor the start of a thread, a request or the record of
an outcome. -/
def Ordinary : Event signature → Prop
  | .did (.setRenewal _) _ => False
  | .did (.request ..) _ => False
  | .did (.noteFlag ..) _ => False
  | .forked .. => False
  | _ => True

section
variable {sdk} {ok : Event signature → Prop}

theorem uses_orAbort {ε α : Type} (x : Checked ε α) : (orAbort x).Uses ok := by
  match x with
  | .ok a => trivial
  | .error (.err e) => trivial
  | .error .panic => trivial

/-- A computation that may fail, and what follows it. -/
theorem uses_bind_except {ε α β : Type} {p : Act (Except ε α)} {f : Except ε α → Act β}
    (hp : p.Uses ok) (herr : ∀ e, (f (.error e)).Uses ok) (hf : ∀ a, (f (.ok a)).Uses ok) :
    (p >>= f).Uses ok := by
  refine uses_bind hp fun result => ?_
  cases result with
  | error e => exact herr e
  | ok a => exact hf a

/-- The drop of a mark locks, reads and writes the renewal state, and unlocks. -/
theorem uses_dropInFlight (hlocked : ok .locked) (hunlocked : ok .unlocked)
    (hget : ∀ state, ok (.did .getRenewal state))
    (hset : ∀ state, ok (.did (.setRenewal state) ())) (attempt : ℕ) :
    (dropInFlight attempt).Uses ok := by
  unfold dropInFlight
  refine ⟨hlocked, fun state => ⟨hget state, ?_⟩⟩
  show Program.Uses _ (if state.attempt = attempt then _ else _)
  split_ifs
  · exact fun _ => ⟨hset _, hunlocked, trivial⟩
  · exact ⟨hunlocked, trivial⟩

variable (hok : ∀ ev, Ordinary ev → ok ev)
include hok

/-- A read of the cache, and what follows it. -/
theorem uses_loadCache_bind {β : Type} {f : Option (String × CertChain) → Act β}
    (hnone : (f none).Uses ok) (hsome : ∀ tc, (f (some tc)).Uses ok) :
    (loadCache sdk >>= f).Uses ok := by
  have hload : (loadCache sdk).Uses ok := by
    unfold loadCache
    cases sdk.cachePath with
    | none => trivial
    | some path => exact fun _ => ⟨hok _ trivial, trivial⟩
  refine uses_bind hload fun cached => ?_
  cases cached with
  | none => exact hnone
  | some tc => exact hsome tc

theorem uses_clock_bind {β : Type} {f : SystemTime → Act β} (hf : ∀ now, (f now).Uses ok) :
    (clock >>= f).Uses ok :=
  fun now => ⟨hok _ trivial, hf now⟩

theorem uses_acquire_bind {β : Type} {f : Unit → Act β} (hf : (f ()).Uses ok) :
    (acquire >>= f).Uses ok :=
  ⟨hok _ trivial, hf⟩

theorem uses_release : (release : Act Unit).Uses ok :=
  ⟨hok _ trivial, trivial⟩

theorem uses_release_bind {β : Type} {f : Unit → Act β} (hf : (f ()).Uses ok) :
    (release >>= f).Uses ok :=
  ⟨hok _ trivial, hf⟩

theorem uses_saveToCache (token : String) (chain : CertChain) :
    (saveToCache sdk token chain).Uses ok := by
  unfold saveToCache
  refine ⟨hok _ trivial, fun _ => ⟨hok _ trivial, ?_⟩⟩
  cases sdk.cachePath with
  | none => exact uses_release hok
  | some path => exact fun _ => ⟨hok _ trivial, uses_release hok⟩

theorem uses_clearCache : (clearCache sdk).Uses ok := by
  unfold clearCache
  refine ⟨hok _ trivial, fun _ => ⟨hok _ trivial, ?_⟩⟩
  cases sdk.cachePath with
  | none => exact uses_release hok
  | some path => exact fun _ => ⟨hok _ trivial, uses_release hok⟩

theorem uses_holdsActivation (activationId : String) :
    (holdsActivation sdk activationId).Uses ok := by
  unfold holdsActivation
  refine uses_loadCache_bind hok trivial fun tc => uses_clock_bind hok fun now => ?_
  exact uses_bind_except (uses_orAbort _) (fun _ => trivial) fun _ => trivial

theorem uses_verifyAndValidate (token : String) (chain : CertChain) :
    (verifyAndValidate sdk token chain).Uses ok := by
  unfold verifyAndValidate
  refine uses_clock_bind hok fun now => ?_
  exact uses_bind_except (uses_orAbort _) (fun _ => trivial) fun _ => trivial

theorem uses_storeRenewed (renewed : Except LatteError (String × CertChain)) :
    (storeRenewed renewed).Uses ok := by
  unfold storeRenewed
  cases renewed with
  | ok tc => exact fun _ => ⟨hok _ trivial, uses_release hok⟩
  | error e =>
    simp only
    split_ifs
    · exact fun _ => ⟨hok _ trivial, uses_release hok⟩
    · exact uses_release hok

end

/-- Neither a write of the renewal state nor the start of a thread, and no request but one that
the task may send. -/
def Plain (t : Task) : Event signature → Prop
  | .did (.setRenewal _) _ => False
  | .did (.request _ url body) _ => SendsCredentials sdk url body t
  | .forked .. => False
  | _ => True

section
variable {sdk} {t : Task}

theorem plain_of_ordinary (ev : Event signature) (hev : Ordinary ev) : Plain sdk t ev := by
  cases ev with
  | did e r =>
    cases e with
    | setRenewal state => exact hev
    | request client url body => exact hev.elim
    | _ => trivial
  | forked child started => exact hev
  | _ => trivial

theorem does_of_plain (ht : t ≠ .check) (h : Past signature) (ev : Event signature)
    (hev : Plain sdk t ev) : Does sdk t h ev := by
  cases ev with
  | did e r =>
    cases e with
    | setRenewal state => exact hev.elim
    | request client url body => exact ⟨hev, fun h => absurd h ht⟩
    | _ => exact fun h => absurd h ht
  | forked child started => exact hev.elim
  | _ => exact fun h => absurd h ht

theorem traced_of_plain {α : Type} (ht : t ≠ .check) {p : Act α} (hp : p.Uses (Plain sdk t))
    {Q : Past signature → α → Prop} (hQ : ∀ h a, Q h a) (h : Past signature) :
    traced sdk.habits t p Q h :=
  traced_of_uses (does_of_plain ht) (fun _ heq => absurd heq ht) hp hQ h

theorem uses_noteRenewal {T : Type} (activationId : String) (outcome : Except LatteError T) :
    (noteRenewal sdk activationId outcome).Uses (Plain sdk t) :=
  uses_bind (uses_holdsActivation plain_of_ordinary activationId) fun _ _ => ⟨trivial, trivial⟩

theorem uses_call {T : Type} {client : Client} {path : String} {body : Body}
    (hsends : SendsCredentials sdk (sdk.baseUrl ++ path) body t)
    (decode : Bytes → Except String T) :
    (call sdk client path body decode).Uses (Plain sdk t) :=
  fun _ => ⟨hsends, trivial⟩

theorem uses_post {client : Client} {path : String} {body : Body}
    (hsends : SendsCredentials sdk (sdk.baseUrl ++ path) body t) :
    (post sdk client path body).Uses (Plain sdk t) := by
  unfold post
  exact uses_bind_except (uses_call hsends _) (fun _ => trivial) fun _ => trivial

theorem uses_postAndHandleInvalidation {path : String} {body : Body}
    (hsends : SendsCredentials sdk (sdk.baseUrl ++ path) body t) :
    (postAndHandleInvalidation sdk path body).Uses (Plain sdk t) := by
  unfold postAndHandleInvalidation
  refine uses_bind_except (uses_post hsends) (fun e => ?_) fun _ => trivial
  simp only
  split_ifs
  · exact uses_bind (uses_clearCache plain_of_ordinary) fun _ => trivial
  · trivial

theorem uses_activateOnline (normalized licenseKey : String) :
    (activateOnline sdk normalized).Uses (Plain sdk (.activate licenseKey)) := by
  unfold activateOnline
  refine uses_bind_except (uses_postAndHandleInvalidation trivial) (fun _ => trivial) fun tc => ?_
  refine uses_bind_except (uses_verifyAndValidate plain_of_ordinary tc.1 tc.2)
    (fun _ => trivial) fun lic => ?_
  exact uses_bind (uses_saveToCache plain_of_ordinary tc.1 tc.2) fun _ => trivial

theorem uses_cachedLicense : (cachedLicense sdk).Uses (Plain sdk t) := by
  unfold cachedLicense
  refine uses_loadCache_bind plain_of_ordinary trivial fun tc => ?_
  refine uses_clock_bind plain_of_ordinary fun now => ?_
  refine uses_bind_except (uses_orAbort _) (fun _ => trivial) fun license => ?_
  exact uses_bind_except (uses_orAbort _) (fun _ => trivial) fun _ _ => ⟨trivial, trivial⟩

theorem uses_activate (licenseKey : String) :
    (activate sdk licenseKey).Uses (Plain sdk (.activate licenseKey)) := by
  unfold activate
  simp only
  cases validateLicenseKey (normalizeKey P.toUppercase licenseKey) with
  | error e => trivial
  | ok u =>
    refine uses_bind uses_cachedLicense fun cached => ?_
    cases cached with
    | none => exact uses_activateOnline _ _
    | some la =>
      simp only
      split_ifs
      · trivial
      · exact uses_activateOnline _ _

theorem uses_deactivate (activationId licenseKey : String) :
    (deactivate sdk activationId licenseKey).Uses
      (Plain sdk (.deactivate activationId licenseKey)) := by
  unfold deactivate
  refine uses_bind_except (uses_call ?_ _) (fun _ => trivial) fun _ => ?_
  · trivial
  · exact uses_bind (uses_clearCache plain_of_ordinary) fun _ => trivial

theorem traced_renew (activationId licenseKey : String)
    {Q : Past signature → Except LatteError PublicLicense → Prop} (hQ : ∀ h a, Q h a) :
    traced sdk.habits (.renew activationId licenseKey) (renew sdk activationId licenseKey) Q
      [] := by
  have ht : Task.renew activationId licenseKey ≠ .check := by simp
  unfold renew
  refine traced_bind.2 fun now => ⟨fun h => absurd h ht, ?_⟩
  refine traced_bind.2 ⟨fun h => absurd h ht, ?_⟩
  refine traced_bind.2 fun state => ⟨fun h => absurd h ht, ?_⟩
  refine traced_bind.2 fun _ => ⟨.manual activationId licenseKey now state, ?_⟩
  -- the renewal state is not written after that
  refine traced_of_plain ht ?_ hQ _
  refine uses_release_bind plain_of_ordinary ?_
  refine uses_bind (uses_postAndHandleInvalidation trivial) fun renewed => ?_
  refine uses_acquire_bind plain_of_ordinary (uses_bind (uses_noteRenewal _ _) fun _ => ?_)
  refine uses_release_bind plain_of_ordinary ?_
  cases renewed with
  | error e => trivial
  | ok tc =>
    refine uses_bind_except (uses_verifyAndValidate plain_of_ordinary tc.1 tc.2)
      (fun _ => trivial) fun lic => ?_
    exact uses_bind (uses_saveToCache plain_of_ordinary tc.1 tc.2) fun _ => trivial

/-! ### Background renewals -/

theorem traced_dropInFlight {attempt : ℕ} {activationId licenseKey : String}
    {Q : Past signature → Unit → Prop} (hQ : ∀ h, Dropping attempt h → Q h ())
    (h : Past signature) :
    traced sdk.habits (.background attempt activationId licenseKey) (dropInFlight attempt) Q h := by
  have ht : Task.background attempt activationId licenseKey ≠ .check := by simp
  unfold dropInFlight
  refine traced_bind.2 ⟨fun h => absurd h ht, ?_⟩
  refine traced_bind.2 fun state => ⟨fun h => absurd h ht, ?_⟩
  show traced sdk.habits _ (if state.attempt = attempt then _ else _) Q _
  split_ifs with hmine
  · refine traced_bind.2 fun _ => ⟨.drop attempt activationId licenseKey state h hmine, ?_⟩
    exact ⟨fun h => absurd h ht, hQ _ (Or.inl ⟨_, _, rfl⟩)⟩
  · exact ⟨fun h => absurd h ht, hQ _ (Or.inr ⟨_, _, rfl, hmine⟩)⟩

theorem uses_postVerified (attempt : ℕ) (activationId licenseKey : String) :
    (postVerified sdk activationId licenseKey).Uses
      (Plain sdk (.background attempt activationId licenseKey)) := by
  unfold postVerified
  refine uses_bind_except (uses_post ⟨rfl, rfl⟩) (fun _ => trivial) fun tc => ?_
  exact uses_bind_except (uses_verifyAndValidate plain_of_ordinary tc.1 tc.2)
    (fun _ => trivial) fun _ => trivial

theorem traced_renewAndStore {attempt : ℕ} {activationId licenseKey : String}
    {Q : Past signature → Unit → Prop} (hQ : ∀ h, Dropping attempt h → Q h ())
    (h : Past signature) :
    traced sdk.habits (.background attempt activationId licenseKey)
      (renewAndStore sdk attempt activationId licenseKey) Q h := by
  have ht : Task.background attempt activationId licenseKey ≠ .check := by simp
  have hdrop : ∀ h, traced sdk.habits (.background attempt activationId licenseKey)
      (dropInFlight attempt) Q h := traced_dropInFlight hQ
  unfold renewAndStore
  refine traced_bind.2 (traced_of_plain ht (uses_postVerified _ _ _) (fun h' renewed => ?_) h)
  refine traced_bind.2 ⟨fun h => absurd h ht, ?_⟩
  refine traced_bind.2 fun state => ⟨fun h => absurd h ht, ?_⟩
  show traced sdk.habits _ (if state.attempt ≠ attempt then _ else _) Q _
  split_ifs with hstale
  · exact traced_bind.2 ⟨fun h => absurd h ht, hdrop _⟩
  · refine traced_bind.2 (traced_of_plain ht (uses_noteRenewal _ _) (fun h'' holds => ?_) _)
    split_ifs
    · exact traced_bind.2 (traced_of_plain ht (uses_storeRenewed plain_of_ordinary _)
        (fun h _ => hdrop h) _)
    · exact traced_bind.2 ⟨fun h => absurd h ht, hdrop _⟩

/-! ### Checks -/

/-- The operations that may leave a check unsettled. -/
def Unsettling : Event signature → Prop
  | .did (.setRenewal _) _ => True
  | .forked _ false => True
  | _ => False

theorem settled_of {ev : Event signature} {h : Past signature} (hev : ¬ Unsettling ev) :
    ¬ Unsettled (ev :: h) := by
  rintro ⟨o, heq | heq⟩
  · obtain ⟨rfl, -⟩ := List.cons.inj heq
    exact hev trivial
  · obtain ⟨rfl, -⟩ := List.cons.inj heq
    exact hev trivial

theorem settled_nil : ¬ Unsettled [] := by
  rintro ⟨o, heq | heq⟩ <;> cases heq

/-- The past of a check that has loaded and verified this token: it has not read the cache again,
and it is not between the two writes of an opening. -/
structure Proceeded (token : String) (chain : CertChain) (checked : SystemTime)
    (h : Past signature) : Prop where
  load : ∀ cached, Event.did Effect.load cached ∈ h ↔ cached = some (token, chain)
  clock : Event.did Effect.clock checked ∈ h
  settled : ¬ Unsettled h

theorem proceeded_append {token : String} {chain : CertChain} {checked : SystemTime}
    (new : Past signature) (hload : ∀ cached, Event.did Effect.load cached ∉ new)
    (hsettled : ¬ Unsettled (new ++ [.did .clock checked, .did .load (some (token, chain))])) :
    Proceeded token chain checked
      (new ++ [.did .clock checked, .did .load (some (token, chain))]) where
  load cached := by simp [hload]
  clock := by simp
  settled := hsettled

theorem traced_renewInBackground {token : String} {chain : CertChain} {checked : SystemTime}
    {license : License} {Q : Past signature → Unit → Prop}
    (hver : verifyActivationAnyAt P.toCrypto sdk.masterPubs token chain checked = .ok license)
    (hmid : license.machineId = sdk.machineId) (haid : license.activationId ≠ "")
    (hkey : license.key ≠ "") (hQ : ∀ h, Proceeded token chain checked h → Q h ()) :
    traced sdk.habits .check (renewInBackground license) Q
      [.did .clock checked, .did .load (some (token, chain))] := by
  have hnew : ∀ (ev : Event signature) (new : Past signature), ¬ Unsettling ev →
      (∀ cached, Event.did Effect.load cached ∉ ev :: new) →
      Q (ev :: new ++ [.did .clock checked, .did .load (some (token, chain))]) () :=
    fun ev new hev hload => hQ _ (proceeded_append _ hload (settled_of hev))
  unfold renewInBackground
  refine traced_bind.2 fun now => ⟨fun _ => settled_of id, ?_⟩
  show traced sdk.habits _ (if since now license.issuedAt < renewAfter then _ else _) Q _
  split_ifs with hage
  · exact hnew (.did .clock now) [] id (by simp)
  · refine traced_bind.2 fun got => ⟨fun _ => settled_of id, ?_⟩
    cases got with
    | false => exact hnew (.triedLock false) [.did .clock now] id (by simp)
    | true =>
      refine traced_bind.2 fun state => ⟨fun _ => settled_of id, ?_⟩
      -- from here on the past is that of an opening
      let o : Opening := ⟨token, chain, checked, license, now, state⟩
      show traced sdk.habits _ (if _ then _ else _) Q o.past
      split_ifs with hrunning hfull
      · exact ⟨fun _ => settled_of id, hnew .unlocked [.did .getRenewal state, .triedLock true,
          .did .clock now] id (by simp)⟩
      · have ho : o.Justified sdk := ⟨hver, hmid, haid, hkey, not_lt.1 hage,
          due_of_not_running hrunning⟩
        refine traced_bind.2 fun _ => ⟨.opening o ho, ?_⟩
        refine traced_bind.2 fun started => ⟨⟨rfl, o, ho, rfl, rfl⟩, ?_⟩
        cases started with
        | true =>
          exact ⟨fun _ => settled_of id, hnew .unlocked [.forked o.child true,
            .did (.setRenewal o.started) (), .did .getRenewal state, .triedLock true,
            .did .clock now] id (by simp)⟩
        | false =>
          refine traced_bind.2 fun _ => ⟨.spawnFailed o, ?_⟩
          refine ⟨fun _ => ?_, hnew .unlocked [
            .did (.setRenewal { o.started with inFlight := none }) (), .forked o.child false,
            .did (.setRenewal o.started) (), .did .getRenewal state, .triedLock true,
            .did .clock now] id (by simp)⟩
          -- the state written last has no mark
          rintro ⟨o', heq | heq⟩
          · have hev := (Event.did.inj (List.cons.inj heq).1).1
            have hmark := congrArg Renewal.inFlight (Effect.setRenewal.inj hev)
            cases hmark
          · cases (List.cons.inj heq).1
      · exact fun _ => settled_of id

theorem traced_orAbort {ε α : Type} {x : Checked ε α} {Q : Past signature → Except ε α → Prop}
    {h : Past signature} (hh : ¬ Unsettled h) (hok : ∀ a, x = .ok a → Q h (.ok a))
    (herr : ∀ e, x = .error (.err e) → Q h (.error e)) :
    traced sdk.habits t (orAbort x) Q h := by
  match hx : x with
  | .ok a => exact hok a rfl
  | .error (.err e) => exact herr e rfl
  | .error .panic => exact fun _ => hh

theorem traced_check {Q : Past signature → Except LatteError PublicLicense → Prop}
    (hQ : ∀ h a, (∀ lic, a = .ok lic → CheckedOk sdk h lic) → Q h a) :
    traced sdk.habits .check (check sdk) Q [] := by
  have herr : ∀ h e, Q h (.error e) := fun h e => hQ h _ fun _ heq => by cases heq
  unfold check loadCache
  cases sdk.cachePath with
  | none => exact herr _ _
  | some path =>
    refine traced_bind.2 fun cached => ⟨fun _ => settled_nil, ?_⟩
    cases cached with
    | none => exact herr _ _
    | some tc =>
      obtain ⟨token, chain⟩ := tc
      refine traced_bind.2 fun now => ⟨fun _ => settled_of id, traced_bind.2 ?_⟩
      refine traced_orAbort (settled_of id) (fun license hver => traced_bind.2 ?_)
        fun _ _ => herr _ _
      -- whatever follows the start of a background renewal
      have hrenew : ∀ p : Act (Except LatteError PublicLicense),
          (∀ h, Proceeded token chain now h → traced sdk.habits .check p Q h) →
          traced sdk.habits .check
            ((if license.machineId = sdk.machineId ∧ license.activationId ≠ "" ∧
              license.key ≠ "" then renewInBackground license else .ret ()) >>= fun _ => p) Q
            [.did .clock now, .did .load (some (token, chain))] := by
        intro p hp
        refine traced_bind.2 ?_
        split_ifs with hmine
        · exact traced_renewInBackground hver hmine.1 hmine.2.1 hmine.2.2 hp
        · exact hp _ (proceeded_append [] (by simp) (settled_of id))
      refine traced_orAbort (settled_of id) (fun _ hvalid => ?_) fun e _ => ?_
      · refine hrenew _ fun h hh => traced_bind.2 fun failed => ⟨fun _ => hh.settled, ?_⟩
        refine hQ _ _ fun lic hlic => ?_
        cases hlic
        refine ⟨token, chain, now, license, failed, ?_, by simp [hh.clock], hver, hvalid, rfl⟩
        intro cached
        simp [hh.load]
      · refine hrenew _ fun h _ => ?_
        cases e <;> exact herr _ _

end

/-! ### All tasks -/

theorem returnsAfter_of {t : Task} (ht : t ≠ .check) (hb : t.isBackground = false)
    (h : Past signature) (out : Outcome) : ReturnsAfter sdk t h out := by
  refine ⟨fun _ heq => absurd heq ht, ?_⟩
  rintro attempt activationId licenseKey rfl
  cases hb

/-- A task that does not touch the renewal state. -/
theorem traced_body_of_plain {t : Task} (ht : t ≠ .check) (hb : t.isBackground = false) {α : Type}
    {p : Act α} (hp : p.Uses (Plain sdk t)) (f : α → Outcome) :
    traced sdk.habits t (p >>= fun a => .ret (f a)) (ReturnsAfter sdk t) [] :=
  traced_bind.2 (traced_of_plain ht hp (fun h a => returnsAfter_of sdk ht hb h (f a)) [])

theorem returnsAfter_background {attempt : ℕ} {activationId licenseKey : String}
    {h : Past signature} (hd : Dropping attempt h) (out : Outcome) :
    ReturnsAfter sdk (.background attempt activationId licenseKey) h out := by
  refine ⟨fun _ heq => (by cases heq), ?_⟩
  rintro _ _ _ heq
  cases heq
  exact hd

/-- Every method, and every thread that unwinds, has the habits. -/
theorem Sdk.habits_sound (sdk : Sdk P) : sdk.habits.Sound sdk.system where
  body t := by
    show traced sdk.habits t (sdk.body t) (ReturnsAfter sdk t) []
    cases t with
    | activate licenseKey =>
      exact traced_body_of_plain sdk (by simp) rfl (uses_activate licenseKey) _
    | renew activationId licenseKey =>
      exact traced_bind.2 (traced_renew _ _ fun _ _ => returnsAfter_of sdk (by simp) rfl _ _)
    | deactivate activationId licenseKey =>
      exact traced_body_of_plain sdk (by simp) rfl (uses_deactivate activationId licenseKey) _
    | machines activationId licenseKey =>
      refine traced_body_of_plain sdk (by simp) rfl (uses_call ?_ _) _
      trivial
    | renameMachine activationId licenseKey name =>
      refine traced_body_of_plain sdk (by simp) rfl (uses_call ?_ _) _
      trivial
    | check =>
      refine traced_bind.2 (traced_check fun h a ha => ⟨fun lic _ hlic => ?_, ?_⟩)
      · exact ha lic (Outcome.license.inj hlic)
      · rintro _ _ _ heq
        cases heq
    | background attempt activationId licenseKey =>
      exact traced_bind.2 (traced_renewAndStore (fun h hd => returnsAfter_background sdk hd _) _)
  handler t h _ := by
    show traced sdk.habits t (handler t) (ReturnsAfter sdk t) h
    cases t with
    | background attempt activationId licenseKey =>
      exact traced_bind.2 (traced_dropInFlight (fun h hd => returnsAfter_background sdk hd _) _)
    | check =>
      refine ⟨?_, ?_⟩
      · rintro _ _ heq
        cases heq
      · rintro _ _ _ heq
        cases heq
    | _ => exact returnsAfter_of sdk (by simp) rfl _ _

end LatteRs
