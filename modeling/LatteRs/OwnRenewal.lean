import LatteRs.GraceFlag

/-!
# A check and the renewal it starts

`check` reads the flag as the last thing it does, after it has started a thread
that may set or clear it.  A thread that is fast enough therefore changes
`in_grace_period` in the answer of the very check that started it.

* `Sdk.readHabits`: how a check goes on once it has started a thread, and how its
  answer depends on the flag;
* `exists_alone`: every check with a running renewal has a twin without one;
* `check_uninfluenced`: when the two answer the same.
-/

namespace LatteRs

open Concurrent Act Program

variable {P : Platform} (sdk : Sdk P)

/-! ### The end of a check -/

/-- A check that has started a thread, or has read the flag. -/
def Closing : Past signature → Prop
  | .forked _ true :: _ => True
  | .unlocked :: .forked _ true :: _ => True
  | .did .loadFlag _ :: _ => True
  | _ => False

/-- No store to the flag. -/
def Unflagging : Event signature → Prop
  | .did (.storeFlag _) _ => False
  | .did (.noteFlag ..) _ => False
  | _ => True

/-- What a check may do: it stores no flag, and after the start of a thread it releases the lock,
reads the flag at most, and does nothing more. -/
def ChecksNext : Past signature → Event signature → Prop
  | .forked _ true :: _, ev => ev = .unlocked
  | .unlocked :: .forked _ true :: _, ev => ∃ read, ev = .did .loadFlag read
  | .did .loadFlag _ :: _, _ => False
  | _, ev => Unflagging ev

/-- The past of a check begins with the read of this token and the time at which it verified. -/
def CheckBegan (token : String) (chain : CertChain) (now : SystemTime) (h : Past signature) :
    Prop := [.did .clock now, .did .load (some (token, chain))] <:+ h

/-- What a check that returned has done: if it read the flag, that came last, on a token that
verifies and validates, and only `in_grace_period` depends on it. -/
structure CheckAnswers (h : Past signature) (out : Outcome) : Prop where
  settled : ∀ t h', h ≠ .forked t true :: h'
  license : ∀ read h', h = .did .loadFlag read :: h' → ∃ token chain now license,
    CheckBegan token chain now h' ∧ (∀ read', .did .loadFlag read' ∉ h') ∧
      verifyActivationAnyAt P.toCrypto sdk.masterPubs token chain now = .ok license ∧
      validateAt license sdk.machineId now = .ok () ∧
      out = .license (.ok (toPublicLicense license (inGracePeriod license now read)))

@[reducible] def Sdk.readHabits : Habits signature where
  Does t h ev := t = .check → ChecksNext h ev
  Aborts t h := t = .check → ¬ Closing h
  Returns t h out := t = .check → CheckAnswers sdk h out

section
variable {sdk}

theorem checkAnswers_of_not_closing {h : Past signature} (hh : ¬ Closing h) (out : Outcome) :
    CheckAnswers sdk h out where
  settled := by
    rintro t h' rfl
    exact hh trivial
  license := by
    rintro read h' rfl
    exact absurd trivial hh

/-- Between the verification of the token and the answer. -/
structure BeforeAnswer (token : String) (chain : CertChain) (now : SystemTime)
    (h : Past signature) : Prop where
  began : CheckBegan token chain now h
  unread : ∀ read, Event.did Effect.loadFlag read ∉ h
  next : ∀ read, ChecksNext h (.did .loadFlag read)

theorem BeforeAnswer.error {token : String} {chain : CertChain} {now : SystemTime}
    {h : Past signature} (hh : BeforeAnswer token chain now h) (out : Outcome) :
    CheckAnswers sdk h out where
  settled := by
    rintro t h' rfl
    cases hh.next true
  license := by
    rintro read h' rfl
    exact absurd (by simp) (hh.unread read)

/-- What the check does between the two. -/
theorem reads_renewInBackground {token : String} {chain : CertChain} {checked : SystemTime}
    {license : License} {Q : Past signature → Unit → Prop}
    (hQ : ∀ h, BeforeAnswer token chain checked h → Q h ()) :
    traced sdk.readHabits .check (renewInBackground license) Q
      [.did .clock checked, .did .load (some (token, chain))] := by
  have hnew : ∀ new : Past signature, (∀ read, Event.did Effect.loadFlag read ∉ new) →
      (∀ read, ChecksNext (new ++ [.did .clock checked, .did .load (some (token, chain))])
        (.did .loadFlag read)) →
      Q (new ++ [.did .clock checked, .did .load (some (token, chain))]) () := by
    intro new hunread hnext
    exact hQ _ ⟨List.suffix_append _ _, by simp [hunread], hnext⟩
  unfold renewInBackground
  refine traced_bind.2 fun now => ⟨fun _ => trivial, ?_⟩
  show traced sdk.readHabits _ (if since now license.issuedAt < renewAfter then _ else _) Q _
  split_ifs
  · exact hnew [.did .clock now] (by simp) fun _ => trivial
  · refine traced_bind.2 fun got => ⟨fun _ => trivial, ?_⟩
    cases got with
    | false => exact hnew [.triedLock false, .did .clock now] (by simp) fun _ => trivial
    | true =>
      refine traced_bind.2 fun state => ⟨fun _ => trivial, ?_⟩
      show traced sdk.readHabits _ (if _ then _ else _) Q _
      split_ifs
      · exact ⟨fun _ => trivial, hnew [.unlocked, .did .getRenewal state, .triedLock true,
          .did .clock now] (by simp) fun _ => trivial⟩
      · refine traced_bind.2 fun _ => ⟨fun _ => trivial, ?_⟩
        refine traced_bind.2 fun started => ⟨fun _ => trivial, ?_⟩
        cases started with
        | true => exact ⟨fun _ => rfl, hnew [.unlocked, .forked _ true, .did (.setRenewal _) (),
            .did .getRenewal state, .triedLock true, .did .clock now] (by simp)
            fun read => ⟨read, rfl⟩⟩
        | false =>
          refine traced_bind.2 fun _ => ⟨fun _ => trivial, ?_⟩
          exact ⟨fun _ => trivial, hnew [.unlocked, .did (.setRenewal _) (), .forked _ false,
            .did (.setRenewal _) (), .did .getRenewal state, .triedLock true, .did .clock now]
            (by simp) fun _ => trivial⟩
      · exact fun _ => id

theorem reads_orAbort {ε α : Type} {x : Checked ε α} {Q : Past signature → Except ε α → Prop}
    {h : Past signature} (hh : ¬ Closing h) (hok : ∀ a, x = .ok a → Q h (.ok a))
    (herr : ∀ e, x = .error (.err e) → Q h (.error e)) :
    traced sdk.readHabits .check (orAbort x) Q h := by
  match hx : x with
  | .ok a => exact hok a rfl
  | .error (.err e) => exact herr e rfl
  | .error .panic => exact fun _ => hh

theorem reads_check {Q : Past signature → Except LatteError PublicLicense → Prop}
    (hQ : ∀ h a, CheckAnswers sdk h (.license a) → Q h a) :
    traced sdk.readHabits .check (check sdk) Q [] := by
  have herr : ∀ h e, ¬ Closing h → Q h (.error e) := fun h e hh =>
    hQ h _ (checkAnswers_of_not_closing hh _)
  unfold check loadCache
  cases sdk.cachePath with
  | none => exact herr _ _ id
  | some path =>
    refine traced_bind.2 fun cached => ⟨fun _ => trivial, ?_⟩
    cases cached with
    | none => exact herr _ _ id
    | some tc =>
      obtain ⟨token, chain⟩ := tc
      refine traced_bind.2 fun now => ⟨fun _ => trivial, traced_bind.2 ?_⟩
      refine reads_orAbort id (fun license hver => traced_bind.2 ?_) fun _ _ => herr _ _ id
      -- whatever follows the start of a background renewal
      have hrenew : ∀ p : Act (Except LatteError PublicLicense),
          (∀ h, BeforeAnswer token chain now h → traced sdk.readHabits .check p Q h) →
          traced sdk.readHabits .check
            ((if license.machineId = sdk.machineId ∧ license.activationId ≠ "" ∧
              license.key ≠ "" then renewInBackground license else .ret ()) >>= fun _ => p) Q
            [.did .clock now, .did .load (some (token, chain))] := by
        intro p hp
        refine traced_bind.2 ?_
        split_ifs
        · exact reads_renewInBackground hp
        · exact hp _ ⟨List.suffix_refl _, by simp, fun _ => trivial⟩
      refine reads_orAbort id (fun _ hvalid => ?_) fun e _ => ?_
      · refine hrenew _ fun h hh => traced_bind.2 fun read => ⟨fun _ => hh.next read, ?_⟩
        refine hQ _ _ ⟨by simp, ?_⟩
        rintro read' h' heq
        cases heq
        exact ⟨token, chain, now, license, hh.began, hh.unread, hver, hvalid, rfl⟩
      · refine hrenew _ fun h hh => ?_
        cases e <;> exact hQ _ _ (hh.error _)

end

theorem Sdk.readHabits_sound (sdk : Sdk P) : sdk.readHabits.Sound sdk.system where
  body t := by
    show traced sdk.readHabits t (sdk.body t) (fun h out => t = .check → CheckAnswers sdk h out) []
    by_cases ht : t = .check
    · subst ht
      exact traced_bind.2 (reads_check fun h a ha _ => ha)
    · have huses : (sdk.body t).Uses (S := signature) fun _ => True := uses_true _
      exact traced_of_uses (fun _ _ _ h => absurd h ht) (fun _ h => absurd h ht) huses
        (fun _ _ h => absurd h ht) []
  handler t h hpanic := by
    show traced sdk.readHabits t (handler t) (fun h out => t = .check → CheckAnswers sdk h out) h
    by_cases ht : t = .check
    · subst ht
      intro _
      rcases hpanic with hpanic | hpanic
      · cases hpanic
      · exact checkAnswers_of_not_closing (hpanic rfl) _
    · have huses : (handler t).Uses (S := signature) fun _ => True := uses_true _
      exact traced_of_uses (fun _ _ _ h => absurd h ht) (fun _ h => absurd h ht) huses
        (fun _ _ h => absurd h ht) h

/-! ### The threads around a check -/

/-- No thread is running. -/
def Idle (c : Config sdk.system) : Prop := ∀ th ∈ c.threads, th.prog.result? ≠ none

/-- No further call is made. -/
def NoCall (_ : Config sdk.system) (l : Label signature) (_ : Config sdk.system) : Prop :=
  ∀ t, l ≠ .call t

/-- The step is made by thread `i`. -/
def Solely (i : ℕ) (_ : Config sdk.system) (l : Label signature) (_ : Config sdk.system) : Prop :=
  l.thread = some i

variable {sdk}

/-- Thread `i` is a check, the threads before it have returned, and those after it are background
renewals. -/
structure Accompanied (i : ℕ) (c : Config sdk.system) : Prop where
  check : ∃ th, c.threads[i]? = some th ∧ th.task = .check
  before : ∀ j th, j < i → c.threads[j]? = some th → th.prog.result? ≠ none
  after : ∀ j th, i < j → c.threads[j]? = some th → th.task.isBackground = true

theorem Accompanied.spawn {c₀ : Config sdk.system} (hidle : Idle sdk c₀) :
    Accompanied c₀.threads.length (c₀.spawn .check) where
  check := ⟨_, Config.spawn_threads.2 (Or.inr ⟨rfl, rfl⟩), rfl⟩
  before j th hj hjth := by
    rcases Config.spawn_threads.1 hjth with hold | ⟨hlen, -⟩
    · exact hidle th (List.mem_of_getElem? hold)
    · omega
  after j th hj hjth := by
    rcases Config.spawn_threads.1 hjth with hold | ⟨hlen, -⟩
    · obtain ⟨hlt, -⟩ := List.getElem?_eq_some_iff.1 hold
      omega
    · omega

/-- The threads before the check make no step. -/
theorem Accompanied.not_before {i j : ℕ} {c c' : Config sdk.system} {l : Label signature}
    (ha : Accompanied i c) (hstep : Step c l c') (hl : l.thread = some j) : i ≤ j := by
  obtain ⟨th, hj⟩ := hstep.exists_thread hl
  by_contra hlt
  exact ha.before j th (not_le.1 hlt) hj (hstep.running hl hj)

theorem Accompanied.step {i : ℕ} {c c' : Config sdk.system} {l : Label signature}
    (hk : sdk.contract.Kept c) (ha : Accompanied i c) (hstep : Step c l c')
    (hl : NoCall sdk c l c') : Accompanied i c' where
  check := by
    obtain ⟨th, hi, ht⟩ := ha.check
    obtain ⟨th', hi', ht'⟩ := hstep.persists hi
    exact ⟨th', hi', ht'.trans ht⟩
  before j th hj hjth := by
    obtain ⟨thi, hi, -⟩ := ha.check
    obtain ⟨hlt, -⟩ := List.getElem?_eq_some_iff.1 hi
    have hne : l.thread ≠ some j := fun h => absurd (ha.not_before hstep h) (not_le.2 hj)
    have hold := hstep.keeps_thread hne (List.getElem?_eq_getElem (hj.trans hlt))
    cases Option.some.inj (hold.symm.trans hjth)
    exact ha.before j _ hj (List.getElem?_eq_getElem (hj.trans hlt))
  after j th hj hjth := by
    rcases hstep.thread_cases hjth with ⟨t, -, rfl, ⟨rfl, -⟩ | ⟨k, rfl⟩⟩ | ⟨th₀, hj₀, heq⟩
    · exact absurd rfl (hl t)
    · -- only background renewals are started
      obtain ⟨_, _, _, _, _, _, _, _, -, -, -, -, -, -, -, -, -, -, -, -, hchild⟩ :=
        hk.started hstep
      show Task.isBackground t = true
      rw [hchild]
      rfl
    · have hbg := ha.after j th₀ hj hj₀
      rcases heq with rfl | ⟨ev, p, -, rfl⟩ | ⟨-, rfl⟩
      · exact hbg
      · exact hbg
      · exact hbg

/-! ### The twin of a check -/

instance (e : Effect) : Nonempty (Answer e) := by
  cases e
  case clock => exact ⟨SystemTime.unixEpoch⟩
  case request => exact ⟨⟨0, .error ""⟩⟩
  case getRenewal => exact ⟨⟨0, none, none⟩⟩
  all_goals exact ⟨default⟩

/-- A check that has read the flag has returned. -/
theorem ret_of_read {p : Act Outcome} {Q : Past signature → Outcome → Prop} {read : Bool}
    {h : Past signature} (hp : traced sdk.readHabits .check p Q (.did .loadFlag read :: h)) :
    ∃ out, p = .ret out := by
  cases p with
  | ret out => exact ⟨out, rfl⟩
  | act e next =>
    obtain ⟨r⟩ : Nonempty (Answer e) := inferInstance
    exact ((hp r).1 rfl).elim
  | lock next => exact (hp.1 rfl).elim
  | tryLock next => exact ((hp true).1 rfl).elim
  | unlock next => exact (hp.1 rfl).elim
  | fork t next => exact ((hp true).1 rfl).elim
  | abort => exact absurd trivial (hp rfl)

/-- Beside a configuration `c` there is one that is reached by steps of thread `i` alone, in which
the thread has got to the same point, or would have read another flag. -/
inductive Twin (i : ℕ) (c₁ c : Config sdk.system) : Prop
  | same (hrun : Run (Solely sdk i) c₁ c) (hlen : c.threads.length = i + 1)
  | closing (d : Config sdk.system) (th : Thread signature)
      (hrun : Run (Solely sdk i) c₁ d) (hi : c.threads[i]? = some th)
      (hi' : d.threads[i]? = some th) (hholder : c.holder = some i ↔ d.holder = some i)
      (hpast : (∃ t h, th.past = .forked t true :: h) ∨
        ∃ t h, th.past = .unlocked :: .forked t true :: h)
  | read (d : Config sdk.system) (th th' : Thread signature) (flag : Bool) (h : Past signature)
      (hrun : Run (Solely sdk i) c₁ d) (hi : c.threads[i]? = some th)
      (hi' : d.threads[i]? = some th') (hpast : th.past = .did .loadFlag flag :: h)
      (hpast' : th'.past = .did .loadFlag d.shared.renewalFailed :: h)

/-- A check that is closing does not panic. -/
theorem not_panics {i : ℕ} {c c' : Config sdk.system} {th : Thread signature}
    (hr : sdk.readHabits.Kept c) (hi : c.threads[i]? = some th) (ht : th.task = .check)
    (hh : Closing th.past) : ¬ Step c (.panic i) c' := by
  intro hstep
  cases hstep with
  | @panic _ th₀ hi₀ hlive hrun hp =>
    cases Option.some.inj (hi.symm.trans hi₀)
    rcases hp with habort | hmay
    · exact hr.aborts hi habort ht hh
    · rw [ht] at hmay
      cases hmay

/-- A check that has read the flag makes no further step. -/
theorem no_step_after_read {i : ℕ} {c c' : Config sdk.system} {l : Label signature}
    {th : Thread signature} {flag : Bool} {h : Past signature} (hr : sdk.readHabits.Kept c)
    (hi : c.threads[i]? = some th) (ht : th.task = .check)
    (hpast : th.past = .did .loadFlag flag :: h)
    (hstep : Step c l c') : l.thread ≠ some i := by
  intro hthread
  cases l with
  | call t => cases hthread
  | panic j =>
    cases hthread
    exact not_panics hr hi ht (by rw [hpast]; trivial) hstep
  | op j ev =>
    cases hthread
    obtain ⟨th₀, hi₀, hnext⟩ := hr.does hstep
    cases Option.some.inj (hi.symm.trans hi₀)
    have := hnext ht
    rw [hpast] at this
    exact this

/-- A closing check does what it does, and its twin the same. -/
theorem twin_closing {i : ℕ} {c₁ c c' d : Config sdk.system} {l : Label signature}
    {th : Thread signature} (hr : sdk.readHabits.Kept c) (ht : th.task = .check)
    (hrun : Run (Solely sdk i) c₁ d) (hi : c.threads[i]? = some th)
    (hi' : d.threads[i]? = some th) (hholder : c.holder = some i ↔ d.holder = some i)
    (hpast : (∃ t h, th.past = .forked t true :: h) ∨
      ∃ t h, th.past = .unlocked :: .forked t true :: h)
    (hstep : Step c l c') (hl : l.thread = some i) : Twin i c₁ c' := by
  cases l with
  | call t => cases hl
  | panic j =>
    cases hl
    refine absurd hstep (not_panics hr hi ht ?_)
    rcases hpast with ⟨t, h, hpast⟩ | ⟨t, h, hpast⟩ <;> rw [hpast] <;> trivial
  | op j ev =>
    cases hl
    obtain ⟨th₀, hi₀, hnext⟩ := hr.does hstep
    cases Option.some.inj (hi.symm.trans hi₀)
    replace hnext := hnext ht
    rcases hpast with ⟨t, h, hpast⟩ | ⟨t, h, hpast⟩
    · rw [hpast] at hnext
      cases hnext
      cases hstep with
      | @unlock _ _ next hj hp hmine =>
        cases Option.some.inj (hi.symm.trans hj)
        have hstep' : Step d _ _ := .unlock hi' hp (hholder.1 hmine)
        refine .closing _ _ (hrun.tail hstep' rfl) (Config.set_threads_self hi _)
          (Config.set_threads_self hi' _) (by simp) (Or.inr ⟨t, h, ?_⟩)
        rw [← hpast]
        rfl
    · rw [hpast] at hnext
      obtain ⟨flag, rfl⟩ := hnext
      obtain ⟨th₁, next, hj, hp, -, rfl⟩ := hstep.did_inv
      cases Option.some.inj (hi.symm.trans hj)
      have hflag : sdk.admits .loadFlag d.shared d.world d.shared.renewalFailed := rfl
      have hstep' : Step d _ _ := .act hi' hp hflag
      exact .read _ _ _ flag th.past (hrun.tail hstep' rfl)
        (Config.set_threads_self hi _) (Config.set_threads_self hi' _) rfl rfl

theorem Twin.step {i : ℕ} {c₁ c c' : Config sdk.system} {l : Label signature}
    (hr : sdk.readHabits.Kept c) (ha : Accompanied i c) (htwin : Twin i c₁ c)
    (hstep : Step c l c') (hl : NoCall sdk c l c') : Twin i c₁ c' := by
  obtain ⟨thi, hithi, ht⟩ := ha.check
  cases htwin with
  | same hrun hlen =>
    -- there is no thread after the check, and those before it have returned
    have hthread : l.thread = some i := by
      cases hthread : l.thread with
      | none =>
        cases l with
        | call t => exact absurd rfl (hl t)
        | op j ev => cases hthread
        | panic j => cases hthread
      | some j =>
        obtain ⟨th, hj⟩ := hstep.exists_thread hthread
        obtain ⟨hlt, -⟩ := List.getElem?_eq_some_iff.1 hj
        have hle := ha.not_before hstep hthread
        rw [show j = i by omega]
    have hrun' := hrun.tail hstep hthread
    cases hstep with
    | call htask => cases hthread
    | @fork j th t next hj hp =>
      cases hthread
      have hi' := Config.set_threads_self hj (th.did (.forked t true) (next true))
      exact .closing _ _ hrun' (Config.spawn_threads.2 (Or.inl hi'))
        (Config.spawn_threads.2 (Or.inl hi')) Iff.rfl (Or.inl ⟨t, th.past, rfl⟩)
    | _ => exact .same hrun' (by simpa [Config.set] using hlen)
  | closing d th hrun hi hi' hholder hpast =>
    cases Option.some.inj (hithi.symm.trans hi)
    by_cases hthread : l.thread = some i
    · exact twin_closing hr ht hrun hi hi' hholder hpast hstep hthread
    · exact .closing d thi hrun (hstep.keeps_thread hthread hi) hi'
        ((hstep.holder_of_ne hthread).trans hholder) hpast
  | read d th th' flag h hrun hi hi' hpast hpast' =>
    cases Option.some.inj (hithi.symm.trans hi)
    have hthread := no_step_after_read hr hi ht hpast hstep
    exact .read d thi th' flag h hrun (hstep.keeps_thread hthread hi) hi' hpast hpast'

/-! ### The flag while a check runs -/

variable (sdk) in
/-- What is recorded before thread `i` has read the flag leaves the flag as it is: the renewal got
no response and found its activation in the cache exactly when the flag is up. -/
def Unchanging (i : ℕ) (c : Config sdk.system) : Label signature → Config sdk.system → Prop
  | .op j (.did (.noteFlag activationId _ _) _), _ =>
    (∀ th ∈ c.threads[i]?, ∀ read, .did .loadFlag read ∉ th.past) → ∀ th ∈ c.threads[j]?,
      (NoResponse th.past ∧ NoteHolds sdk th.past activationId ↔ c.shared.renewalFailed = true)
  | _, _ => True

/-- Thread `i` has not read the flag, which still is `flag`, or that is what it has read. -/
def FlagKept (i : ℕ) (flag : Bool) (c : Config sdk.system) : Prop :=
  ∃ th, c.threads[i]? = some th ∧
    ((∀ read, .did .loadFlag read ∉ th.past) ∧ c.shared.renewalFailed = flag ∨
      ∃ h, th.past = .did .loadFlag flag :: h)

theorem unflagging_of_checksNext {h : Past signature} {ev : Event signature}
    (hnext : ChecksNext h ev) : Unflagging ev := by
  unfold ChecksNext at hnext
  split at hnext
  · rw [hnext]
    trivial
  · obtain ⟨read, rfl⟩ := hnext
    trivial
  · exact hnext.elim
  · exact hnext

/-- A step of the threads around a check leaves the flag as it is while the check has not read
it. -/
theorem flag_unchanged {i : ℕ} {c c' : Config sdk.system} {l : Label signature}
    (hk : sdk.contract.Kept c) (hn : sdk.noteHabits.Kept c) (hr : sdk.readHabits.Kept c)
    (ha : Accompanied i c) (hstep : Step c l c') (hl : Unchanging sdk i c l c')
    {th : Thread signature} (hi : c.threads[i]? = some th)
    (hunread : ∀ read, .did .loadFlag read ∉ th.past) :
    c'.shared.renewalFailed = c.shared.renewalFailed := by
  -- a check stores no flag
  have unflagging : ∀ ev, l = .op i ev → Unflagging ev := by
    rintro ev rfl
    obtain ⟨th₁, hi₁, ht₁⟩ := ha.check
    obtain ⟨th₂, hi₂, hnext⟩ := hr.does hstep
    cases Option.some.inj (hi₁.symm.trans hi₂)
    exact unflagging_of_checksNext (hnext ht₁)
  rcases shared_cases hstep with hsame | hcases
  · rw [hsame]
  · cases hcases with
    | storeFlag j flag h =>
      obtain ⟨thj, hj, -, hbg⟩ := hk.guar sdk.sound hstep
      rcases (ha.not_before hstep rfl).eq_or_lt with rfl | hlt
      · exact (unflagging _ rfl).elim
      · rw [ha.after j thj hlt hj] at hbg
        cases hbg
    | noteFlag j activationId network failed h =>
      obtain ⟨thj, hj, -⟩ := hk.guar sdk.sound hstep
      have hflag := flag_of_record hk hn hstep hj
      have hl' := hl (fun th' hth' => by
        cases Option.some.inj (hi.symm.trans hth')
        exact hunread) thj hj
      exact Bool.eq_iff_iff.2 (hflag.trans hl')
    | save j token chain h => rw [h]
    | clear j h => rw [h]
    | setRenewal j state h => rw [h]
    | fork j attempt activationId licenseKey h => rw [h]

theorem FlagKept.step {i : ℕ} {flag : Bool} {c c' : Config sdk.system} {l : Label signature}
    (hk : sdk.contract.Kept c) (hn : sdk.noteHabits.Kept c) (hr : sdk.readHabits.Kept c)
    (ha : Accompanied i c) (hf : FlagKept i flag c) (hstep : Step c l c')
    (hl : Unchanging sdk i c l c') : FlagKept i flag c' := by
  obtain ⟨th, hi, hcases⟩ := hf
  obtain ⟨th', hi', ht'⟩ := ha.check
  cases Option.some.inj (hi.symm.trans hi')
  by_cases hthread : l.thread = some i
  · rcases hcases with ⟨hunread, hflag⟩ | ⟨h, hpast⟩
    · have hsame := flag_unchanged hk hn hr ha hstep hl hi hunread
      cases l with
      | call t => cases hthread
      | panic j =>
        cases hthread
        cases hstep with
        | @panic _ th₀ hj hlive hrun hp =>
          cases Option.some.inj (hi.symm.trans hj)
          exact ⟨_, Config.set_threads_self hi _, Or.inl ⟨hunread, hsame.trans hflag⟩⟩
      | op j ev =>
        cases hthread
        obtain ⟨th₀, p, hj, -, hi''⟩ := hstep.op_inv
        cases Option.some.inj (hi.symm.trans hj)
        refine ⟨_, hi'', ?_⟩
        by_cases hread : ∃ read, ev = .did .loadFlag read
        · obtain ⟨read, rfl⟩ := hread
          obtain ⟨-, -, -, -, hadmits, -⟩ := hstep.did_inv
          have hval : read = c.shared.renewalFailed := hadmits
          rw [hval, hflag]
          exact Or.inr ⟨th.past, rfl⟩
        · refine Or.inl ⟨fun read hmem => ?_, hsame.trans hflag⟩
          rcases List.mem_cons.1 hmem with rfl | hold
          · exact hread ⟨read, rfl⟩
          · exact hunread read hold
    · exact absurd hthread (no_step_after_read hr hi ht' hpast hstep)
  · refine ⟨th, hstep.keeps_thread hthread hi, ?_⟩
    rcases hcases with ⟨hunread, hflag⟩ | hpast
    · exact Or.inl ⟨hunread, (flag_unchanged hk hn hr ha hstep hl hi hunread).trans hflag⟩
    · exact Or.inr hpast

/-! ### What a check answers -/

/-- What is known around a check. -/
structure Around (i : ℕ) (c : Config sdk.system) : Prop where
  kept : sdk.contract.Kept c
  notes : sdk.noteHabits.Kept c
  reads : sdk.readHabits.Kept c
  accompanied : Accompanied i c

theorem Around.step {i : ℕ} {c c' : Config sdk.system} {l : Label signature} (h : Around i c)
    (hstep : Step c l c') (hl : NoCall sdk c l c') : Around i c' where
  kept := h.kept.step sdk.sound hstep
  notes := h.notes.step sdk.noteHabits_sound hstep
  reads := h.reads.step sdk.readHabits_sound hstep
  accompanied := h.accompanied.step h.kept hstep hl

theorem Around.spawn {cache : Option (String × CertChain)} {newest : ℤ} {c₀ : Config sdk.system}
    (hrun₀ : AnyRun (sdk.start cache newest) c₀) (hidle : Idle sdk c₀) :
    Around c₀.threads.length (c₀.spawn .check) := by
  have hstep : Step c₀ (.call .check) (c₀.spawn .check) := .call rfl
  have hrun : AnyRun (sdk.start cache newest) (c₀.spawn .check) := hrun₀.tail hstep trivial
  exact ⟨kept_of_run hrun, (Habits.Kept.init _ newest).run sdk.noteHabits_sound hrun,
    (Habits.Kept.init _ newest).run sdk.readHabits_sound hrun, Accompanied.spawn hidle⟩

/-- A run with what is known around the check. -/
theorem Around.run {i : ℕ} {c c' : Config sdk.system} (h : Around i c)
    (hrun : Run (NoCall sdk) c c') : Around i c' :=
  hrun.preserves (fun _ _ _ h hstep hl => h.step hstep hl) h

/-- Steps of one thread are no calls. -/
theorem noCall_of_solely {i : ℕ} (c : Config sdk.system) (l : Label signature)
    (c' : Config sdk.system) (hl : Solely sdk i c l c') : NoCall sdk c l c' := by
  rintro t rfl
  cases hl

/-- A check that runs alone records nothing. -/
theorem unchanging_of_solely {i : ℕ} {c c' : Config sdk.system} {l : Label signature}
    (h : Around i c) (hstep : Step c l c') (hl : Solely sdk i c l c') :
    Unchanging sdk i c l c' := by
  unfold Unchanging
  split
  · next j activationId network failed =>
    cases hl
    obtain ⟨th₁, hi₁, ht₁⟩ := h.accompanied.check
    obtain ⟨th₂, hi₂, hnext⟩ := h.reads.does hstep
    cases Option.some.inj (hi₁.symm.trans hi₂)
    exact (unflagging_of_checksNext (hnext ht₁)).elim
  · trivial

theorem flagKept_run {i : ℕ} {flag : Bool} {c c' : Config sdk.system} (h : Around i c)
    (hf : FlagKept i flag c)
    (hrun : Run (fun c l c' => NoCall sdk c l c' ∧ Unchanging sdk i c l c') c c') :
    FlagKept i flag c' := by
  have hI : Around i c' ∧ FlagKept i flag c' := by
    refine hrun.preserves (I := fun c => Around i c ∧ FlagKept i flag c) ?_ ⟨h, hf⟩
    rintro c l c' ⟨h, hf⟩ hstep ⟨hcall, hl⟩
    exact ⟨h.step hstep hcall, hf.step h.kept h.notes h.reads h.accompanied hstep hl⟩
  exact hI.2

theorem flagKept_solely {i : ℕ} {flag : Bool} {c c' : Config sdk.system} (h : Around i c)
    (hf : FlagKept i flag c) (hrun : Run (Solely sdk i) c c') : FlagKept i flag c' := by
  have hI : Around i c' ∧ FlagKept i flag c' := by
    refine hrun.preserves (I := fun c => Around i c ∧ FlagKept i flag c) ?_ ⟨h, hf⟩
    rintro c l c' ⟨h, hf⟩ hstep hl
    exact ⟨h.step hstep (noCall_of_solely c l c' hl), hf.step h.kept h.notes h.reads h.accompanied
      hstep (unchanging_of_solely h hstep hl)⟩
  exact hI.2

theorem flagKept_spawn (c₀ : Config sdk.system) :
    FlagKept c₀.threads.length c₀.shared.renewalFailed (c₀.spawn .check) :=
  ⟨_, Config.spawn_threads.2 (Or.inr ⟨rfl, rfl⟩), Or.inl ⟨by simp [System.fresh], rfl⟩⟩

/-- Two events that differ at most in the value of the flag that was read. -/
def Alike (ev ev' : Event signature) : Prop :=
  ev = ev' ∨ ∃ flag flag', ev = .did .loadFlag flag ∧ ev' = .did .loadFlag flag'

variable (sdk) in
/-- By steps of thread `i` alone, on the same clock readings and file contents, it returns this
too. -/
def ReturnsAlone (i : ℕ) (c₁ : Config sdk.system) (h : Past signature) (out : Outcome) : Prop :=
  ∃ d th, Run (Solely sdk i) c₁ d ∧ d.threads[i]? = some th ∧ th.prog = .ret out ∧
    List.Forall₂ Alike h th.past

variable (sdk) in
/-- The check has loaded a valid token that is more than an hour old and not yet as old as its
grace period. -/
def InGraceWindow (h : Past signature) : Prop :=
  ∃ token chain now license, CheckBegan token chain now h ∧
    verifyActivationAnyAt P.toCrypto sdk.masterPubs token chain now = .ok license ∧
    validateAt license sdk.machineId now = .ok () ∧ inGracePeriod license now true = true

section
variable {h h' : Past signature}

theorem alike_refl (h : Past signature) : List.Forall₂ Alike h h :=
  List.forall₂_same.2 fun _ _ => Or.inl rfl

theorem eq_of_alike (hh : List.Forall₂ Alike h h')
    (hunread : ∀ read, .did .loadFlag read ∉ h') : h = h' := by
  induction hh with
  | nil => rfl
  | @cons ev ev' h h' hev _ ih =>
    rcases hev with rfl | ⟨flag, flag', -, rfl⟩
    · rw [ih fun read hmem => hunread read (List.mem_cons_of_mem _ hmem)]
    · exact absurd List.mem_cons_self (hunread flag')

/-- A past begins in one way. -/
theorem CheckBegan.unique {token token' : String} {chain chain' : CertChain}
    {now now' : SystemTime} (hb : CheckBegan token chain now h)
    (hb' : CheckBegan token' chain' now' h) : token = token' ∧ chain = chain' ∧ now = now' := by
  have heq := (List.suffix_of_suffix_length_le hb hb' le_rfl).eq_of_length rfl
  simp only [List.cons.injEq, Event.did.injEq, heq_eq_eq, true_and, Option.some.injEq,
    Prod.mk.injEq, and_true] at heq
  exact ⟨heq.2.1, heq.2.2, heq.1⟩

/-- The answer depends on the flag exactly in the window. -/
theorem inGracePeriod_eq_iff {license : License} {now : SystemTime} {flag flag' : Bool} :
    inGracePeriod license now flag = inGracePeriod license now flag' ↔
      (inGracePeriod license now true = true → flag = flag') := by
  cases flag <;> cases flag' <;> simp [inGracePeriod_false]

/-- Two checks that differ in the flag they read answer the same outside the window. -/
theorem answers_eq_iff {flag flag' : Bool} {out out' : Outcome}
    (ha : CheckAnswers sdk (.did .loadFlag flag :: h) out)
    (ha' : CheckAnswers sdk (.did .loadFlag flag' :: h) out') :
    out = out' ↔ (InGraceWindow sdk (.did .loadFlag flag :: h) → flag = flag') := by
  obtain ⟨token, chain, now, license, hbegan, -, hver, hval, rfl⟩ := ha.license flag h rfl
  obtain ⟨_, _, _, license', hbegan', -, hver', -, rfl⟩ := ha'.license flag' h rfl
  obtain ⟨rfl, rfl, rfl⟩ := hbegan.unique hbegan'
  cases Except.ok.inj (hver.symm.trans hver')
  have hlic : Outcome.license (.ok (toPublicLicense license (inGracePeriod license now flag))) =
      .license (.ok (toPublicLicense license (inGracePeriod license now flag'))) ↔
      inGracePeriod license now flag = inGracePeriod license now flag' := by
    simp [toPublicLicense]
  rw [hlic, inGracePeriod_eq_iff]
  refine imp_congr_left ⟨fun hin => ?_, ?_⟩
  · exact ⟨token, chain, now, license, hbegan.trans (List.suffix_cons _ _), hver, hval, hin⟩
  · rintro ⟨_, _, _, license', hbegan', hver', -, hin⟩
    obtain ⟨rfl, rfl, rfl⟩ :=
      CheckBegan.unique (hbegan.trans (List.suffix_cons _ _)) hbegan'
    cases Except.ok.inj (hver.symm.trans hver')
    exact hin

end

/-- Every check that returned has a twin that ran alone. -/
theorem exists_alone {i : ℕ} {c₁ c : Config sdk.system} {th : Thread signature} {out : Outcome}
    (h₁ : Around i c₁) (htwin : Twin i c₁ c) (hi : c.threads[i]? = some th)
    (hret : th.prog = .ret out) :
    ReturnsAlone sdk i c₁ th.past out ∨ ∃ d th' out' flag h, Run (Solely sdk i) c₁ d ∧
      d.threads[i]? = some th' ∧ th'.prog = .ret out' ∧ th.past = .did .loadFlag flag :: h ∧
      th'.past = .did .loadFlag d.shared.renewalFailed :: h := by
  cases htwin with
  | same hrun hlen => exact Or.inl ⟨c, th, hrun, hi, hret, alike_refl _⟩
  | closing d th₀ hrun hi₀ hi' hholder hpast =>
    cases Option.some.inj (hi.symm.trans hi₀)
    exact Or.inl ⟨d, th, hrun, hi', hret, alike_refl _⟩
  | read d th₀ th' flag h hrun hi₀ hi' hpast hpast' =>
    cases Option.some.inj (hi.symm.trans hi₀)
    have hd : Around i d := h₁.run (hrun.mono noCall_of_solely)
    obtain ⟨th₁, hi₁, ht₁⟩ := hd.accompanied.check
    cases Option.some.inj (hi'.symm.trans hi₁)
    have htraced := hd.reads i th' hi'
    unfold Habits.Holds at htraced
    rw [ht₁, hpast'] at htraced
    obtain ⟨out', hret'⟩ := ret_of_read htraced
    exact Or.inr ⟨d, th', out', flag, h, hrun, hi', hret', hpast, hpast'⟩

/-- What a check that returned has done. -/
theorem Around.answers {i : ℕ} {c : Config sdk.system} {th : Thread signature} {out : Outcome}
    (h : Around i c) (hi : c.threads[i]? = some th) (hret : th.prog = .ret out) :
    CheckAnswers sdk th.past out := by
  obtain ⟨th₁, hi₁, ht₁⟩ := h.accompanied.check
  cases Option.some.inj (hi.symm.trans hi₁)
  exact h.reads.returns hi (Program.result?_eq_some.2 hret) ht₁

/-- The flag that a check has read, when it was kept as it was. -/
theorem FlagKept.eq {i : ℕ} {flag : Bool} {c : Config sdk.system} {th : Thread signature}
    (hf : FlagKept i flag c) (hi : c.threads[i]? = some th) {read : Bool} {h : Past signature}
    (hpast : th.past = .did .loadFlag read :: h) : read = flag := by
  obtain ⟨th', hi', hunread | ⟨h', hpast'⟩⟩ := hf
  · cases Option.some.inj (hi.symm.trans hi')
    exact absurd (by rw [hpast]; exact List.mem_cons_self) (hunread.1 read)
  · cases Option.some.inj (hi.symm.trans hi')
    rw [hpast] at hpast'
    cases hpast'
    rfl

/-- A check answers as it would alone exactly if it is not in the window, or read the flag from
the start. -/
theorem returnsAlone_iff {i : ℕ} {flag : Bool} {c₁ c : Config sdk.system} {th : Thread signature}
    {out : Outcome} (h₁ : Around i c₁) (hf₁ : FlagKept i flag c₁) (hlen : c₁.threads.length = i + 1)
    (hrun : Run (NoCall sdk) c₁ c) (hi : c.threads[i]? = some th) (hret : th.prog = .ret out) :
    ReturnsAlone sdk i c₁ th.past out ↔
      (InGraceWindow sdk th.past → ∀ read, .did .loadFlag read ∈ th.past → read = flag) := by
  have hc := h₁.run hrun
  have answers := hc.answers hi hret
  constructor
  · rintro ⟨d, th', hrun', hi', hret', halike⟩ hin read hmem
    have hd := h₁.run (hrun'.mono noCall_of_solely)
    obtain ⟨th₂, hi₂, ⟨hunread, -⟩ | ⟨h', hpast'⟩⟩ := flagKept_solely h₁ hf₁ hrun'
    · -- the twin has read no flag, so neither has the check
      cases Option.some.inj (hi'.symm.trans hi₂)
      rw [eq_of_alike halike hunread] at hmem
      exact absurd hmem (hunread read)
    · cases Option.some.inj (hi'.symm.trans hi₂)
      have answers' := hd.answers hi' hret'
      rw [hpast'] at answers' halike
      obtain ⟨_, _, _, _, -, hunread, -⟩ := answers'.license flag h' rfl
      generalize th.past = h at answers hin hmem halike
      cases halike with
      | @cons ev _ h _ hev htail =>
        cases eq_of_alike htail hunread
        have hread : ∃ x, ev = .did .loadFlag x := by
          rcases hev with rfl | ⟨x, x', rfl, -⟩
          · exact ⟨flag, rfl⟩
          · exact ⟨x, rfl⟩
        obtain ⟨x, rfl⟩ := hread
        have hx : x = flag := (answers_eq_iff answers answers').1 rfl hin
        rcases List.mem_cons.1 hmem with heq | hold
        · cases heq
          exact hx
        · exact absurd hold (hunread read)
  · intro hcond
    have htwin : Around i c ∧ Twin i c₁ c := by
      refine hrun.preserves (I := fun c => Around i c ∧ Twin i c₁ c) ?_ ⟨h₁, .same (.refl _) hlen⟩
      rintro c l c' ⟨h, htwin⟩ hstep hl
      exact ⟨h.step hstep hl, htwin.step h.reads h.accompanied hstep hl⟩
    obtain hdone | ⟨d, th', out', read, h, hrun', hi', hret', hpast, hpast'⟩ :=
      exists_alone h₁ htwin.2 hi hret
    · exact hdone
    · have hd := h₁.run (hrun'.mono noCall_of_solely)
      have hflag := (flagKept_solely h₁ hf₁ hrun').eq hi' hpast'
      have answers' := hd.answers hi' hret'
      rw [hpast] at answers hcond ⊢
      rw [hpast', hflag] at answers'
      have hout : out = out' := (answers_eq_iff answers answers').2 fun hin =>
        hcond hin read List.mem_cons_self
      refine ⟨d, th', hrun', hi', hout ▸ hret', ?_⟩
      rw [hpast']
      exact .cons (Or.inr ⟨_, _, rfl, rfl⟩) (alike_refl h)

/-- **When a check is not influenced by the renewal it starts.**  No other call is running.  If
what the background renewal records before the check has read the flag leaves the flag as it is,
the check returns what it returns on the same clock readings and file contents without a step
of the renewal.  In every run it does so exactly if the token is not in its grace window, or the
flag that is read is the one from the start. -/
theorem check_uninfluenced {cache : Option (String × CertChain)} {newest : ℤ}
    {c₀ : Config sdk.system} (hrun₀ : AnyRun (sdk.start cache newest) c₀) (hidle : Idle sdk c₀)
    {c : Config sdk.system} {th : Thread signature} {out : Outcome}
    (hi : c.threads[c₀.threads.length]? = some th) (hret : th.prog = .ret out) :
    (Run (fun c l c' => NoCall sdk c l c' ∧ Unchanging sdk c₀.threads.length c l c')
        (c₀.spawn .check) c →
      ReturnsAlone sdk c₀.threads.length (c₀.spawn .check) th.past out) ∧
    (Run (NoCall sdk) (c₀.spawn .check) c →
      (ReturnsAlone sdk c₀.threads.length (c₀.spawn .check) th.past out ↔
        (InGraceWindow sdk th.past → ∀ flag, .did .loadFlag flag ∈ th.past →
          flag = c₀.shared.renewalFailed))) := by
  have h₁ := Around.spawn hrun₀ hidle
  have hf₁ := flagKept_spawn c₀
  have hlen : (c₀.spawn .check).threads.length = c₀.threads.length + 1 := by simp [Config.spawn]
  refine ⟨fun hrun => ?_, fun hrun => returnsAlone_iff h₁ hf₁ hlen hrun hi hret⟩
  have hcall : Run (NoCall sdk) (c₀.spawn .check) c := hrun.mono fun _ _ _ h => h.1
  refine (returnsAlone_iff h₁ hf₁ hlen hcall hi hret).2 fun _ read hmem => ?_
  -- the flag that was read came last, and it had been kept
  obtain ⟨th', hi', hunread | ⟨h, hpast⟩⟩ := flagKept_run h₁ hf₁ hrun
  · cases Option.some.inj (hi.symm.trans hi')
    exact absurd hmem (hunread.1 read)
  · cases Option.some.inj (hi.symm.trans hi')
    have answers := (h₁.run hcall).answers hi hret
    obtain ⟨_, _, _, _, -, hunread, -⟩ := answers.license _ h hpast
    rw [hpast] at hmem
    rcases List.mem_cons.1 hmem with heq | hold
    · cases heq
      rfl
    · exact absurd hold (hunread read)

/-! ### A fast renewal and a slow one -/

/-- The flag that a check has read last. -/
def lastRead : Past signature → Option Bool
  | .did .loadFlag read :: _ => some read
  | _ => none

theorem lastRead_eq_some {h : Past signature} {read : Bool} :
    lastRead h = some read ↔ ∃ h', h = .did .loadFlag read :: h' := by
  constructor
  · intro hread
    unfold lastRead at hread
    split at hread
    · cases hread
      exact ⟨_, rfl⟩
    · cases hread
  · rintro ⟨h', rfl⟩
    rfl

/-- A licence in its grace period was returned. -/
def Outcome.isInGrace : Outcome → Bool
  | .license (.ok lic) => lic.inGracePeriod
  | _ => false

/-- Neither a call nor the record of an outcome. -/
def quietStep : Label signature → Bool
  | .call _ => false
  | .op _ (.did (.noteFlag ..) _) => false
  | _ => true

theorem unchanging_of_quietStep {i : ℕ} {c c' : Config sdk.system} {l : Label signature}
    (hl : quietStep l = true) : NoCall sdk c l c' ∧ Unchanging sdk i c l c' := by
  constructor
  · rintro t rfl
    cases hl
  · unfold Unchanging
    split
    · cases hl
    · trivial

instance (c : Config sdk.system) (l : Label signature) (c' : Config sdk.system) :
    Decidable (NoCall sdk c l c') :=
  match l with
  | .call t => isFalse fun h => h t rfl
  | .op .. => isTrue fun _ h => nomatch h
  | .panic _ => isTrue fun _ h => nomatch h

/-- A token of the sample chain in the cache, and a check of it when it is over an hour old. -/
def sampleChecked : Config sampleSdk.system :=
  (sampleSdk.start (some ("h.t.4t", sampleChain)) 0).spawn .check

def sampleSlow (n i : ℕ) : List (Move sampleSdk.system) :=
  sampleMoves n i (sampleNow + 3541) (.error "timeout")

/-- The renewal has sent its request when the check reads the flag. -/
theorem check_uninfluenced_sample : ∃ (c : Config sampleSdk.system) (th : Thread signature)
    (out : Outcome), c.threads[0]? = some th ∧ c.threads.length = 2 ∧
      ReturnsAlone sampleSdk 0 sampleChecked th.past out := by
  have hplay : (play (fun _ l _ => quietStep l = true) sampleChecked
      (sampleSlow 8 0 ++ sampleSlow 1 1 ++ sampleSlow 1 0)).any
      (fun c => decide (c.threads.length = 2 ∧ (c.returned 0).isSome = true)) = true := by
    decide +kernel
  obtain ⟨c, hc, h⟩ := (Option.any_eq_true _ _).1 hplay
  obtain ⟨hlen, hret⟩ := of_decide_eq_true h
  obtain ⟨out, hret⟩ := Option.isSome_iff_exists.1 hret
  obtain ⟨th, hi, hret⟩ := Option.bind_eq_some_iff.1 hret
  have hidle : Idle sampleSdk (sampleSdk.start (some ("h.t.4t", sampleChain)) 0) := by
    intro th hmem
    cases hmem
  exact ⟨c, th, out, hi, hlen, (check_uninfluenced (Run.refl _) hidle hi
    (Program.result?_eq_some.1 hret)).1
      ((play_run hc).mono fun _ _ _ => unchanging_of_quietStep)⟩

/-- The renewal has recorded its failure when the check that started it reads the flag: the check
reports a grace period of which, alone, it would not have known. -/
theorem fast_renewal_influences_check : ∃ (c : Config sampleSdk.system) (th : Thread signature)
    (lic : PublicLicense), Run (NoCall sampleSdk) sampleChecked c ∧ c.threads[0]? = some th ∧
      th.prog = .ret (.license (.ok lic)) ∧ lic.inGracePeriod = true ∧
      ¬ ReturnsAlone sampleSdk 0 sampleChecked th.past (.license (.ok lic)) := by
  have hplay : (play (NoCall sampleSdk) sampleChecked
      (sampleSlow 8 0 ++ sampleSlow 6 1 ++ sampleSlow 1 0)).any
      (fun c => decide ((c.threads[0]?.bind fun th => lastRead th.past) = some true ∧
        (c.returned 0).any Outcome.isInGrace = true)) = true := by
    decide +kernel
  obtain ⟨c, hc, h⟩ := (Option.any_eq_true _ _).1 hplay
  obtain ⟨hread, hgrace⟩ := of_decide_eq_true h
  obtain ⟨th, hi, hread⟩ := Option.bind_eq_some_iff.1 hread
  obtain ⟨h', hpast⟩ := lastRead_eq_some.1 hread
  obtain ⟨out, hret, hgrace⟩ := (Option.any_eq_true _ _).1 hgrace
  obtain ⟨th', hi', hret⟩ := Option.bind_eq_some_iff.1 hret
  cases Option.some.inj (hi.symm.trans hi')
  have hret := Program.result?_eq_some.1 hret
  have hrun := play_run hc
  have h₁ : Around 0 sampleChecked := Around.spawn (Run.refl _) (by rintro th ⟨⟩)
  obtain ⟨token, chain, now, license, hbegan, -, hver, hval, rfl⟩ :=
    ((h₁.run hrun).answers hi hret).license true h' hpast
  refine ⟨c, th, _, hrun, hi, hret, hgrace, fun halone => ?_⟩
  have hin : InGraceWindow sampleSdk th.past := by
    rw [hpast]
    exact ⟨token, chain, now, license, hbegan.trans (List.suffix_cons _ _), hver, hval, hgrace⟩
  have hflag := (returnsAlone_iff h₁ (flagKept_spawn _) rfl hrun hi hret).1 halone hin true
    (by rw [hpast]; exact List.mem_cons_self)
  cases hflag

end LatteRs
