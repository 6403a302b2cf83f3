import LatteRs.InFlight

/-!
# Renewal attempts

When background renewals start.

* `Records`, `MayStart`: a check that starts one, and what it has to have seen;
* `AttemptedSince`, `starts_apart`: two starts are `renewRetry` apart;
* `background_starts_when_due`;
* `Spread`, `attempts_spread`: how many renewals there can have been, and that their number
  does not overflow.
-/

namespace LatteRs

open Concurrent

variable {P : Platform} {sdk : Sdk P}

/-! ### When background renewals start -/

/-- A step in which a check records `start` as the start time of a background renewal. -/
def Records (c : Config sdk.system) (l : Label signature) (start : SystemTime) : Prop :=
  ∃ (i : ℕ) (th : Thread signature) (state : Renewal), l = .op i (.did (.setRenewal state) ()) ∧
    c.threads[i]? = some th ∧ th.task = .check ∧ state.inFlight = some start

/-- A check with the past `h` may start a renewal of `license` at `start`, on the renewal state
`before`. -/
structure MayStart (sdk : Sdk P) (h : Past signature) (before : Renewal) (license : License)
    (start : SystemTime) : Prop where
  /-- The cache content that was loaded verified at the reading that followed. -/
  verified : ∃ token chain checked new,
    h = new ++ [.did .clock checked, .did .load (some (token, chain))] ∧
      (∀ cached, Event.did Effect.load cached ∉ new) ∧
      verifyActivationAnyAt P.toCrypto sdk.masterPubs token chain checked = .ok license
  machineId : license.machineId = sdk.machineId
  activationId : license.activationId ≠ ""
  key : license.key ≠ ""
  age : license.issuedAt.nanos + renewAfter ≤ start.nanos
  inFlight : ∀ t, before.inFlight = some t → t.nanos + 2 * renewRetry < start.nanos
  lastAttempt : ∀ t, before.lastAttempt = some t → t.nanos + renewRetry ≤ start.nanos

/-- A manual renewal does not move `last_attempt` backwards. -/
def Forward (c : Config sdk.system) (l : Label signature) (_ : Config sdk.system) : Prop :=
  ∀ (i : ℕ) (th : Thread signature) (state : Renewal), l = .op i (.did (.setRenewal state) ()) →
    c.threads[i]? = some th →
      (∃ activationId licenseKey, th.task = .renew activationId licenseKey) →
      ∀ t, c.shared.renewal.lastAttempt = some t → ∃ t', state.lastAttempt = some t' ∧ t ≤ t'

/-- No manual renewal writes the renewal state. -/
def NoManual (c : Config sdk.system) (l : Label signature) (_ : Config sdk.system) : Prop :=
  ∀ (i : ℕ) (th : Thread signature) (state : Renewal), l = .op i (.did (.setRenewal state) ()) →
    c.threads[i]? = some th → ¬ ∃ activationId licenseKey, th.task = .renew activationId licenseKey

theorem le_since (now t : SystemTime) {d : ℕ} (hd : 0 < d) :
    d ≤ since now t ↔ t.nanos + d ≤ now.nanos := by
  unfold since
  rw [SystemTime.durationSince_getD]
  constructor
  · intro h
    have : (d : ℤ) ≤ ((now.nanos - t.nanos).toNat : ℕ) := Int.ofNat_le.2 h
    omega
  · intro h
    exact Int.le_toNat (by omega) |>.2 (by omega)

theorem lt_since {now t : SystemTime} {d : ℕ} : d < since now t ↔ t.nanos + d < now.nanos := by
  have h := le_since now t (Nat.succ_pos d)
  constructor
  · intro hlt
    have := h.1 hlt
    omega
  · intro hlt
    exact h.2 (by omega)

theorem Opening.Justified.mayStart {o : Opening} (ho : o.Justified sdk) (new : Past signature)
    (hnew : ∀ cached, Event.did Effect.load cached ∉ new) :
    MayStart sdk (new ++ o.past) o.before o.license o.now where
  verified := by
    refine ⟨o.token, o.chain, o.checked,
      new ++ [.did .getRenewal o.before, .triedLock true, .did .clock o.now], ?_, ?_, ho.verified⟩
    · simp [Opening.past]
    · intro cached
      simp [hnew]
  machineId := ho.machineId
  activationId := ho.activationId
  key := ho.key
  age := (le_since _ _ (by decide)).1 ho.age
  inFlight t ht := lt_since.1 (ho.due.1 t ht)
  lastAttempt t ht := (le_since _ _ (by decide)).1 (ho.due.2 t ht)

/-- The opening behind a step that records a start time. -/
theorem records_cases {c c' : Config sdk.system} {l : Label signature} {start : SystemTime}
    (hk : Tracked sdk c) (hstep : Step c l c') (hrec : Records c l start) :
    ∃ (i : ℕ) (th : Thread signature) (o : Opening), l = .op i (.did (.setRenewal o.started) ()) ∧
      c.threads[i]? = some th ∧ o.Justified sdk ∧ th.past = o.past ∧ o.now = start ∧
        c.shared.renewal = o.before ∧ c'.shared.renewal = o.started := by
  obtain ⟨i, th, state, rfl, hi, ht, hstart⟩ := hrec
  obtain ⟨⟨task, past, prog, dead⟩, hi₀, -, hnew, hwrite, hseen⟩ := write_cases hk hstep
  cases Option.some.inj (hi.symm.trans hi₀)
  simp only at ht hwrite hseen
  subst ht
  cases hwrite with
  | opening o ho =>
    exact ⟨i, _, o, rfl, hi, ho, rfl, Option.some.inj hstart, hseen o.before rfl, hnew⟩
  | spawnFailed o => cases hstart

/-- Only a check that records a start time sets the in-flight mark anew. -/
theorem records_of_mark {c c' : Config sdk.system} {l : Label signature} {start : SystemTime}
    (hk : Tracked sdk c) (hstep : Step c l c') (hmark : c'.shared.renewal.inFlight = some start)
    (hne : c.shared.renewal.inFlight ≠ some start) : Records c l start := by
  rcases renewal_cases hk.contract hstep with hsame | ⟨i, state, rfl, -⟩
  · rw [hsame] at hmark
    exact absurd hmark hne
  · obtain ⟨⟨task, past, prog, dead⟩, hi, -, hnew, hwrite, hseen⟩ := write_cases hk hstep
    rw [hnew] at hmark
    simp only at hwrite hseen
    cases hwrite with
    | manual activationId licenseKey now before =>
      rw [hseen before rfl] at hne
      exact absurd hmark hne
    | opening o ho => exact ⟨i, _, o.started, rfl, hi, rfl, hmark⟩
    | spawnFailed o => cases hmark
    | drop attempt activationId licenseKey before h hs => cases hmark

/-- The last renewal attempt was made at `start` or later. -/
def AttemptedSince (start : SystemTime) (c : Config sdk.system) : Prop :=
  ∃ t, c.shared.renewal.lastAttempt = some t ∧ start ≤ t

theorem attemptedSince_step {start : SystemTime} {c c' : Config sdk.system}
    {l : Label signature} (hk : Tracked sdk c) (hc : AttemptedSince start c) (hstep : Step c l c')
    (hforward : Forward c l c') : AttemptedSince start c' := by
  rcases renewal_cases hk.contract hstep with hsame | ⟨i, state, rfl, -⟩
  · unfold AttemptedSince
    rw [hsame]
    exact hc
  · obtain ⟨⟨task, past, prog, dead⟩, hi, -, hnew, hwrite, hseen⟩ := write_cases hk hstep
    obtain ⟨t, hlast, hle⟩ := hc
    unfold AttemptedSince
    rw [hnew]
    simp only at hwrite hseen
    cases hwrite with
    | manual activationId licenseKey now before =>
      obtain ⟨t', ht', hle'⟩ := hforward i _ _ rfl hi ⟨_, _, rfl⟩ t hlast
      exact ⟨t', ht', le_trans hle hle'⟩
    | opening o ho =>
      rw [hseen o.before rfl] at hlast
      have hdue := (ho.mayStart [] (by simp)).lastAttempt t hlast
      refine ⟨o.now, rfl, le_trans hle (SystemTime.le_def.2 ?_)⟩
      omega
    | spawnFailed o =>
      rw [hseen o.started rfl] at hlast
      exact ⟨t, hlast, hle⟩
    | drop attempt activationId licenseKey before h hs =>
      rw [hseen before rfl] at hlast
      exact ⟨t, hlast, hle⟩

/-- Two starts of background renewals are five minutes apart while no manual renewal moves
`last_attempt` backwards. -/
theorem starts_apart {c₀ c₁ c₂ c₃ : Config sdk.system} {l l' : Label signature}
    {start start' : SystemTime} (hk : Tracked sdk c₀) (hstep : Step c₀ l c₁)
    (hrec : Records c₀ l start) (hrun : Run Forward c₁ c₂) (hstep' : Step c₂ l' c₃)
    (hrec' : Records c₂ l' start') : start.nanos + renewRetry ≤ start'.nanos := by
  have hk₁ := tracked_step hk hstep
  have hsince : AttemptedSince start c₁ := by
    obtain ⟨i, th, o, -, -, -, -, rfl, -, hnew⟩ := records_cases hk hstep hrec
    exact ⟨o.now, by rw [hnew]; rfl, le_refl _⟩
  obtain ⟨hk₂, t, hlast, hle⟩ : Tracked sdk c₂ ∧ AttemptedSince start c₂ := by
    refine hrun.preserves (I := fun c => Tracked sdk c ∧ AttemptedSince start c) ?_ ⟨hk₁, hsince⟩
    rintro c l c' ⟨hk, hc⟩ hstep hforward
    exact ⟨tracked_step hk hstep, attemptedSince_step hk hc hstep hforward⟩
  obtain ⟨i, th, o, -, -, ho, -, rfl, hbefore, -⟩ := records_cases hk₂ hstep' hrec'
  rw [hbefore] at hlast
  have hdue := (ho.mayStart [] (by simp)).lastAttempt t hlast
  rw [SystemTime.le_def] at hle
  omega

theorem forward_of_noManual {c c' : Config sdk.system} {l : Label signature}
    (h : NoManual c l c') : Forward c l c' :=
  fun i th state hl hi ht => absurd ht (h i th state hl hi)

/-- **Background renewals are started only when due.**  A check records a start time only on a
cache content that verified at its reading, that is this machine's and names an activation and a
key, when the token is an hour old, no renewal is in flight for ten minutes or less, and none was
attempted in the last five minutes; a thread is started only right after such a record, with the
credentials of that licence, and sends these.  Two starts with no manual renewal between them are
five minutes apart, and so are any two in a run in which manual renewals do not move
`last_attempt` backwards. -/
theorem background_starts_when_due {cache : Option (String × CertChain)} {newest : ℤ}
    {c : Config sdk.system} (hrun : AnyRun (sdk.start cache newest) c) :
    (∀ l c' start, Step c l c' → Records c l start →
      ∃ (i : ℕ) (th : Thread signature) (license : License), l.thread = some i ∧
        c.threads[i]? = some th ∧ MayStart sdk th.past c.shared.renewal license start ∧
        c'.shared.renewal = ⟨c.shared.renewal.attempt + 1, some start, some start⟩) ∧
    (∀ i child started c', Step c (.op i (.forked child started)) c' →
      ∃ (th : Thread signature) (h : Past signature) (before : Renewal) (license : License)
        (start : SystemTime), c.threads[i]? = some th ∧ th.task = .check ∧
        th.past = .did (.setRenewal c.shared.renewal) () :: h ∧
        c.shared.renewal = ⟨before.attempt + 1, some start, some start⟩ ∧
        MayStart sdk h before license start ∧
        child = .background c.shared.renewal.attempt license.activationId license.key) ∧
    (∀ (i : ℕ) (th : Thread signature) attempt activationId licenseKey client url body answered c',
      c.threads[i]? = some th → th.task = .background attempt activationId licenseKey →
      Step c (.op i (.did (.request client url body) answered)) c' →
        url = sdk.baseUrl ++ "/v1/renew" ∧ body = credentials sdk activationId licenseKey none) ∧
    (∀ l l' c₁ c₂ c₃ start start', Step c l c₁ → Records c l start →
      Run NoManual c₁ c₂ ∨ Run Forward c₁ c₂ → Step c₂ l' c₃ → Records c₂ l' start' →
        start.nanos + renewRetry ≤ start'.nanos) := by
  have hk := tracked_of_run hrun
  refine ⟨?_, ?_, ?_, ?_⟩
  · intro l c' start hstep hrec
    obtain ⟨i, th, o, rfl, hi, ho, hpast, rfl, hbefore, hnew⟩ := records_cases hk hstep hrec
    refine ⟨i, th, o.license, rfl, hi, ?_, ?_⟩
    · rw [hpast, hbefore]
      exact ho.mayStart [] (by simp)
    · rw [hnew, hbefore]
      rfl
  · intro i child started c' hstep
    obtain ⟨th, o, hi, -, ht, ho, hpast, rfl, hnow⟩ := start_cases hk hstep
    refine ⟨th, o.past, o.before, o.license, o.now, hi, ht, ?_, hnow,
      ho.mayStart [] (by simp), ?_⟩
    · rw [hpast, hnow]
      rfl
    · rw [hnow]
      rfl
  · intro i th attempt activationId licenseKey client url body answered c' hi ht hstep
    obtain ⟨th₀, hi₀, hsends, -⟩ := hk.habits.does hstep
    cases Option.some.inj (hi.symm.trans hi₀)
    rw [ht] at hsends
    exact hsends
  · rintro l l' c₁ c₂ c₃ start start' hstep hrec (hrun' | hrun') hstep' hrec'
    · exact starts_apart hk hstep hrec (hrun'.mono fun _ _ _ => forward_of_noManual) hstep' hrec'
    · exact starts_apart hk hstep hrec hrun' hstep' hrec'

/-- The step does not write the renewal state. -/
def Unwritten : Label signature → Bool
  | .op _ (.did (.setRenewal _) _) => false
  | _ => true

/-- Two checks that each start a background renewal, the second one when the first has been
running for eleven minutes. -/
theorem background_starts_when_due_sample :
    ∃ (c c₁ c₂ c₃ : Config sampleSdk.system) (l l' : Label signature) (start start' : SystemTime),
      AnyRun (sampleSdk.start (some ("h.t.4t", sampleChain)) 0) c ∧ Step c l c₁ ∧
        Records c l start ∧ Run NoManual c₁ c₂ ∧ Step c₂ l' c₃ ∧ Records c₂ l' start' ∧
        start.nanos + renewRetry ≤ start'.nanos := by
  have hplay : (play (fun _ _ _ => True) (sampleSdk.start (some ("h.t.4t", sampleChain)) 0)
      (.call .check :: sampleMoves 5 0 (sampleNow + 3540) (sampleReply 117))).any
      (fun c => (c.next (.go 0 (sampleOracle (sampleNow + 3540) (sampleReply 117)))).any fun s =>
        decide (c.shared.renewal.inFlight ≠ some (sampleAt (sampleNow + 3540)) ∧
          s.2.shared.renewal.inFlight = some (sampleAt (sampleNow + 3540))) &&
        (play (fun _ l _ => Unwritten l = true) s.2
          (sampleMoves 2 0 (sampleNow + 3540) (sampleReply 117) ++
            .call .check :: sampleMoves 2 2 (sampleNow + 3540) (sampleReply 117) ++
            sampleMoves 3 2 (sampleNow + 4200) (sampleReply 117))).any fun c₂ =>
          (c₂.next (.go 2 (sampleOracle (sampleNow + 4200) (sampleReply 117)))).any fun s' =>
            decide (c₂.shared.renewal.inFlight ≠ some (sampleAt (sampleNow + 4200)) ∧
              s'.2.shared.renewal.inFlight = some (sampleAt (sampleNow + 4200)))) = true := by
    decide +kernel
  obtain ⟨c, hc, hplay⟩ := (Option.any_eq_true _ _).1 hplay
  obtain ⟨⟨l, c₁⟩, hnext, hplay⟩ := (Option.any_eq_true _ _).1 hplay
  rw [Bool.and_eq_true, decide_eq_true_eq] at hplay
  obtain ⟨⟨hne, hmark⟩, hplay⟩ := hplay
  obtain ⟨c₂, hc₂, hplay⟩ := (Option.any_eq_true _ _).1 hplay
  obtain ⟨⟨l', c₃⟩, hnext', hlast⟩ := (Option.any_eq_true _ _).1 hplay
  obtain ⟨hne', hmark'⟩ := of_decide_eq_true hlast
  have hstep := Config.next_step hnext
  have hstep' := Config.next_step hnext'
  have hk := tracked_of_run (play_run hc)
  have hk₂ := (tracked_step hk hstep).run (play_run hc₂)
  have hrec := records_of_mark hk hstep hmark hne
  have hrec' := records_of_mark hk₂ hstep' hmark' hne'
  have hrun : Run NoManual c₁ c₂ := by
    refine (play_run hc₂).mono ?_
    rintro c l c' hl i th state rfl
    cases hl
  exact ⟨c, c₁, c₂, c₃, l, l', _, _, play_run hc, hstep, hrec, hrun, hstep', hrec',
    (background_starts_when_due (play_run hc)).2.2.2 _ _ _ _ _ _ _ hstep hrec (Or.inl hrun)
      hstep' hrec'⟩

/-! ### How many background renewals there are -/

/-- The attempts after number `base`, which was made at `first`, are `renewRetry` apart. -/
def Spread (base : ℕ) (first : SystemTime) (c : Config sdk.system) : Prop :=
  base ≤ c.shared.renewal.attempt ∧ ∃ t, c.shared.renewal.lastAttempt = some t ∧
    first.nanos + ((c.shared.renewal.attempt - base : ℕ) : ℤ) * renewRetry ≤ t.nanos

theorem spread_step {base : ℕ} {first : SystemTime} {c c' : Config sdk.system}
    {l : Label signature} (hk : Tracked sdk c) (hc : Spread base first c) (hstep : Step c l c')
    (hforward : Forward c l c') : Spread base first c' := by
  rcases renewal_cases hk.contract hstep with hsame | ⟨i, state, rfl, -⟩
  · unfold Spread
    rw [hsame]
    exact hc
  · obtain ⟨⟨task, past, prog, dead⟩, hi, -, hnew, hwrite, hseen⟩ := write_cases hk hstep
    obtain ⟨hbase, t, hlast, hle⟩ := hc
    unfold Spread
    rw [hnew]
    simp only at hwrite hseen
    cases hwrite with
    | manual activationId licenseKey now before =>
      obtain ⟨t', ht', hle'⟩ := hforward i _ _ rfl hi ⟨_, _, rfl⟩ t hlast
      rw [hseen before rfl] at hbase hle
      exact ⟨hbase, t', ht', le_trans hle hle'⟩
    | opening o ho =>
      rw [hseen o.before rfl] at hlast hbase hle
      have hdue := (ho.mayStart [] (by simp)).lastAttempt t hlast
      refine ⟨Nat.le_succ_of_le hbase, o.now, rfl, ?_⟩
      -- one attempt more, and `renewRetry` more on the clock
      have hcount : ((o.before.attempt + 1 - base : ℕ) : ℤ) =
          ((o.before.attempt - base : ℕ) : ℤ) + 1 := by omega
      show first.nanos + ((o.before.attempt + 1 - base : ℕ) : ℤ) * renewRetry ≤ o.now.nanos
      rw [hcount, add_mul, one_mul]
      omega
    | spawnFailed o =>
      rw [hseen o.started rfl] at hlast hbase hle
      exact ⟨hbase, t, hlast, hle⟩
    | drop attempt activationId licenseKey before h hs =>
      rw [hseen before rfl] at hlast hbase hle
      exact ⟨hbase, t, hlast, hle⟩

/-- The attempt that a step records is the first of those that follow. -/
theorem spread_of_records {c c' : Config sdk.system} {l : Label signature} {start : SystemTime}
    (hk : Tracked sdk c) (hstep : Step c l c') (hrec : Records c l start) :
    Spread c'.shared.renewal.attempt start c' := by
  obtain ⟨i, th, o, -, -, -, -, rfl, -, hnew⟩ := records_cases hk hstep hrec
  refine ⟨le_refl _, o.now, by rw [hnew]; rfl, ?_⟩
  simp

/-- No background renewal has been attempted, or the attempts after the first are spread. -/
def Counted (c : Config sdk.system) : Prop :=
  c.shared.renewal.attempt = 0 ∨ ∃ first, Spread 1 first c

theorem counted_step {c c' : Config sdk.system} {l : Label signature} (hk : Tracked sdk c)
    (hc : Counted c) (hstep : Step c l c') (hforward : Forward c l c') : Counted c' := by
  rcases hc with hzero | ⟨first, hspread⟩
  · rcases renewal_cases hk.contract hstep with hsame | ⟨i, state, rfl, -⟩
    · exact Or.inl (by rw [hsame, hzero])
    · obtain ⟨⟨task, past, prog, dead⟩, hi, -, hnew, hwrite, hseen⟩ := write_cases hk hstep
      simp only at hwrite hseen
      cases hwrite with
      | manual activationId licenseKey now before =>
        rw [hseen before rfl] at hzero
        exact Or.inl (by rw [hnew]; exact hzero)
      | opening o ho =>
        have hspread := spread_of_records hk hstep ⟨i, _, o.started, rfl, hi, rfl, rfl⟩
        rw [hseen o.before rfl] at hzero
        have hone : c'.shared.renewal.attempt = 1 := by
          rw [hnew]
          show o.before.attempt + 1 = 1
          rw [hzero]
        rw [hone] at hspread
        exact Or.inr ⟨o.now, hspread⟩
      | spawnFailed o =>
        rw [hseen o.started rfl] at hzero
        cases hzero
      | drop attempt activationId licenseKey before h hs =>
        rw [hseen before rfl] at hzero
        exact Or.inl (by rw [hnew]; exact hzero)
  · exact Or.inr ⟨first, spread_step hk hspread hstep hforward⟩

/-- The clock is too short for the number of attempts to overflow. -/
theorem Counted.attempt_lt {c : Config sdk.system} (hc : Counted c) :
    c.shared.renewal.attempt + 1 < 2 ^ 64 := by
  rcases hc with hzero | ⟨first, -, t, -, hle⟩
  · omega
  · have hfirst := first.le_nanos
    have ht := t.nanos_lt
    have hretry : (renewRetry : ℤ) = 300 * 10 ^ 9 := by decide
    rw [hretry] at hle
    omega

/-- **Background renewals are at most one in five minutes, and their number never overflows**, in
every run in which manual renewals do not move `last_attempt` backwards: after a start at `first`
the clock has advanced by five minutes for each one since. -/
theorem attempts_spread {cache : Option (String × CertChain)} {newest : ℤ}
    {c : Config sdk.system} (hrun : Run Forward (sdk.start cache newest) c) :
    c.shared.renewal.attempt + 1 < 2 ^ 64 ∧
      ∀ l c₁ c₂ first, Step c l c₁ → Records c l first → Run Forward c₁ c₂ →
        ∃ t, c₂.shared.renewal.lastAttempt = some t ∧
          first.nanos + ((c₂.shared.renewal.attempt - c₁.shared.renewal.attempt : ℕ) : ℤ) *
            renewRetry ≤ t.nanos := by
  have hk := (tracked_start cache newest).run hrun
  have hcounted : Tracked sdk c ∧ Counted c :=
    hrun.preserves (I := fun c => Tracked sdk c ∧ Counted c)
      (fun _ _ _ hc hstep hforward =>
        ⟨tracked_step hc.1 hstep, counted_step hc.1 hc.2 hstep hforward⟩)
      ⟨tracked_start cache newest, Or.inl rfl⟩
  refine ⟨hcounted.2.attempt_lt, fun l c₁ c₂ first hstep hrec hrun' => ?_⟩
  have hspread : Tracked sdk c₂ ∧ Spread c₁.shared.renewal.attempt first c₂ :=
    hrun'.preserves (I := fun c => Tracked sdk c ∧ Spread c₁.shared.renewal.attempt first c)
      (fun _ _ _ hc hstep hforward =>
        ⟨tracked_step hc.1 hstep, spread_step hc.1 hc.2 hstep hforward⟩)
      ⟨tracked_step hk hstep, spread_of_records hk hstep hrec⟩
  exact hspread.2.2

/-- The renewal state is written by a check, if at all. -/
def writtenByCheck (c : Config sdk.system) : Label signature → Bool
  | .op i (.did (.setRenewal _) _) => c.threads[i]?.any fun th => decide (th.task = .check)
  | _ => true

theorem forward_of_writtenByCheck {c c' : Config sdk.system} {l : Label signature}
    (h : writtenByCheck c l = true) : Forward c l c' := by
  refine forward_of_noManual ?_
  rintro i th state rfl hi ⟨activationId, licenseKey, htask⟩
  have hany : (c.threads[i]?.any fun th => decide (th.task = .check)) = true := h
  rw [hi] at hany
  simp [htask] at hany

/-- Two checks that each start a background renewal, eleven minutes apart. -/
theorem attempts_spread_sample : ∃ (c₁ c₂ : Config sampleSdk.system) (t : SystemTime),
    c₁.shared.renewal.attempt = 1 ∧ c₂.shared.renewal.attempt = 2 ∧
      c₂.shared.renewal.lastAttempt = some t ∧
      (sampleAt (sampleNow + 3540)).nanos + ((2 - 1 : ℕ) : ℤ) * renewRetry ≤ t.nanos := by
  have hplay : (play (fun c l _ => writtenByCheck c l = true)
      (sampleSdk.start (some ("h.t.4t", sampleChain)) 0)
      (.call .check :: sampleMoves 5 0 (sampleNow + 3540) (sampleReply 117))).any
      (fun c => (c.next (.go 0 (sampleOracle (sampleNow + 3540) (sampleReply 117)))).any fun s =>
        decide (c.shared.renewal.inFlight ≠ some (sampleAt (sampleNow + 3540)) ∧
          s.2.shared.renewal.inFlight = some (sampleAt (sampleNow + 3540))) &&
        (decide (s.2.shared.renewal.attempt = 1) &&
        (play (fun c l _ => writtenByCheck c l = true) s.2
          (sampleMoves 2 0 (sampleNow + 3540) (sampleReply 117) ++
            .call .check :: sampleMoves 2 2 (sampleNow + 3540) (sampleReply 117) ++
            sampleMoves 4 2 (sampleNow + 4200) (sampleReply 117))).any fun c₂ =>
          decide (c₂.shared.renewal.attempt = 2))) = true := by
    decide +kernel
  obtain ⟨c, hc, hplay⟩ := (Option.any_eq_true _ _).1 hplay
  obtain ⟨⟨l, c₁⟩, hnext, hplay⟩ := (Option.any_eq_true _ _).1 hplay
  rw [Bool.and_eq_true, Bool.and_eq_true, decide_eq_true_eq, decide_eq_true_eq] at hplay
  obtain ⟨⟨hne, hmark⟩, hone, hplay⟩ := hplay
  obtain ⟨c₂, hc₂, htwo⟩ := (Option.any_eq_true _ _).1 hplay
  have hrun : Run Forward (sampleSdk.start (some ("h.t.4t", sampleChain)) 0) c :=
    (play_run hc).mono fun _ _ _ => forward_of_writtenByCheck
  have hstep := Config.next_step hnext
  have hrec := records_of_mark ((tracked_start _ _).run hrun) hstep hmark hne
  obtain ⟨t, hlast, hle⟩ := (attempts_spread hrun).2 _ _ _ _ hstep hrec
    ((play_run hc₂).mono fun _ _ _ => forward_of_writtenByCheck)
  rw [of_decide_eq_true htwo, hone] at hle
  exact ⟨c₁, c₂, t, hone, of_decide_eq_true htwo, hlast, hle⟩

end LatteRs
