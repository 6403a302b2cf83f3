import LatteRs.CacheWrites
import LatteRs.Renewals

/-!
# The in-flight mark

Who owns the mark that a background renewal is in flight.

* `Tracked`: the contract, the habits, and that the holder of the lock knows the
  renewal state as it last read or wrote it;
* `write_cases`, `start_cases`: who writes the renewal state and starts threads;
* `Marked`, `marked_step`: the attempt numbers and the mark, with the state
  between the two writes of an opening;
* `in_flight_mark`.
-/

namespace LatteRs

open Concurrent

variable {P : Platform} {sdk : Sdk P}

/-! ### What the holder of the lock knows -/

/-- The renewal state as a thread has read or written it in the section that is running. -/
def seen : Past signature → Option Renewal
  | [] => none
  | .did .getRenewal state :: _ => some state
  | .did (.setRenewal state) _ :: _ => some state
  | .locked :: _ => none
  | .triedLock _ :: _ => none
  | .unlocked :: _ => none
  | _ :: h => seen h

structure Tracked (sdk : Sdk P) (c : Config sdk.system) : Prop where
  contract : sdk.contract.Kept c
  habits : sdk.habits.Kept c
  known : ∀ (i : ℕ) (th : Thread signature) (state : Renewal), c.holder = some i →
    c.threads[i]? = some th → seen th.past = some state → c.shared.renewal = state

/-- Only a write of the holder of the lock changes the renewal state. -/
theorem renewal_cases {c c' : Config sdk.system} {l : Label signature}
    (hk : sdk.contract.Kept c) (hstep : Step c l c') :
    c'.shared.renewal = c.shared.renewal ∨ ∃ i state,
      l = .op i (.did (.setRenewal state) ()) ∧ c.holder = some i ∧
        c'.shared.renewal = state := by
  rcases shared_cases hstep with hsame | hcases
  · exact Or.inl (by rw [hsame])
  · cases hcases with
    | setRenewal i state h => exact Or.inr ⟨i, state, rfl, hk.writer hstep rfl, by rw [h]⟩
    | save i token chain h => exact Or.inl (by rw [h])
    | clear i h => exact Or.inl (by rw [h])
    | storeFlag i failed h => exact Or.inl (by rw [h])
    | noteFlag i activationId network failed h => exact Or.inl (by rw [h])
    | fork i attempt activationId licenseKey h => exact Or.inl (by rw [h])

/-- An operation lengthens the past of its thread. -/
theorem op_changes_past {c c' : Config sdk.system} {i : ℕ} {ev : Event signature}
    (hstep : Step c (.op i ev) c') {th th' : Thread signature} (hi : c.threads[i]? = some th)
    (hi' : c'.threads[i]? = some th') : th'.past = ev :: th.past := by
  obtain ⟨th₀, p, hi₀, -, hnew⟩ := hstep.op_inv
  cases Option.some.inj (hi.symm.trans hi₀)
  cases Option.some.inj (hi'.symm.trans hnew)
  rfl

theorem tracked_step {c c' : Config sdk.system} {l : Label signature} (hk : Tracked sdk c)
    (hstep : Step c l c') : Tracked sdk c' where
  contract := hk.contract.step sdk.sound hstep
  habits := hk.habits.step sdk.habits_sound hstep
  known := by
    intro i th' state hholder hi' hseen
    rcases hstep.thread_cases hi' with ⟨t, -, rfl, -⟩ | ⟨th, hi, hth⟩
    · cases hseen
    · -- an operation of thread `i` that is not a lock leaves it the holder
      rcases hstep.holder_cases hholder with ⟨hmine, hpanic⟩ | rfl | rfl
      · rcases hth with rfl | ⟨ev, p, rfl, rfl⟩ | ⟨rfl, -⟩
        · rw [← hk.known i _ state hmine hi hseen]
          rcases renewal_cases hk.contract hstep with hsame | ⟨j, state', rfl, hj, -⟩
          · exact hsame
          · cases Option.some.inj (hmine.symm.trans hj)
            have hpast := congrArg List.length (op_changes_past hstep hi hi')
            simp at hpast
        · have hbefore : seen th.past = some state → c.shared.renewal = state :=
            hk.known i th state hmine hi
          cases ev with
          | did e r =>
            rw [hstep.shared]
            cases e with
            | getRenewal =>
              obtain ⟨-, -, -, -, hr, -⟩ := hstep.did_inv
              exact hr.symm.trans (Option.some.inj hseen)
            | setRenewal state' => exact Option.some.inj hseen
            | save token chain => cases r <;> exact hbefore hseen
            | clear => cases r <;> exact hbefore hseen
            | _ => exact hbefore hseen
          | forked t started =>
            rw [hstep.shared]
            cases started with
            | false => exact hbefore hseen
            | true => cases t <;> exact hbefore hseen
          | _ => cases hseen
        · exact absurd rfl hpanic
      · have hpast := op_changes_past hstep hi hi'
        rw [hpast] at hseen
        cases hseen
      · have hpast := op_changes_past hstep hi hi'
        rw [hpast] at hseen
        cases hseen

theorem tracked_start (cache : Option (String × CertChain)) (newest : ℤ) :
    Tracked sdk (sdk.start cache newest) where
  contract := Contract.Kept.init (invariant_new cache)
  habits := Habits.Kept.init _ _
  known := by
    intro i th state hholder
    cases hholder

theorem Tracked.run {Q : Config sdk.system → Label signature → Config sdk.system → Prop}
    {c c' : Config sdk.system} (hk : Tracked sdk c) (hrun : Run Q c c') : Tracked sdk c' :=
  hrun.preserves (fun _ _ _ hk hstep _ => tracked_step hk hstep) hk

theorem tracked_of_run {cache : Option (String × CertChain)} {newest : ℤ} {c : Config sdk.system}
    (hrun : AnyRun (sdk.start cache newest) c) : Tracked sdk c :=
  (tracked_start cache newest).run hrun

/-! ### Writes of the renewal state -/

/-- What a step that writes the renewal state writes, and on which state. -/
theorem write_cases {c c' : Config sdk.system} {i : ℕ} {state : Renewal} (hk : Tracked sdk c)
    (hstep : Step c (.op i (.did (.setRenewal state) ())) c') :
    ∃ th, c.threads[i]? = some th ∧ c.holder = some i ∧ c'.shared.renewal = state ∧
      RenewalWrite sdk th.task th.past state ∧
      ∀ before, seen th.past = some before → c.shared.renewal = before := by
  obtain ⟨th, hi, hdoes⟩ := hk.habits.does hstep
  have hmine := hk.contract.writer hstep rfl
  refine ⟨th, hi, hmine, ?_, hdoes, fun before => hk.known i th before hmine hi⟩
  rw [hstep.shared]
  rfl

/-- What a step that starts a thread, or fails to, starts. -/
theorem start_cases {c c' : Config sdk.system} {i : ℕ} {child : Task} {started : Bool}
    (hk : Tracked sdk c) (hstep : Step c (.op i (.forked child started)) c') :
    ∃ th, ∃ o : Opening, c.threads[i]? = some th ∧ c.holder = some i ∧ th.task = .check ∧
      o.Justified sdk ∧ th.past = o.recorded ∧ child = o.child ∧
      c.shared.renewal = o.started := by
  obtain ⟨th, hi, ht, o, ho, hpast, hchild⟩ := hk.habits.does hstep
  have hmine := hk.contract.starter hstep
  refine ⟨th, o, hi, hmine, ht, ho, hpast, hchild, hk.known i th _ hmine hi ?_⟩
  rw [hpast]
  rfl

/-! ### The in-flight mark -/

/-- Thread `i` is background renewal number `attempt`. -/
def Numbered (c : Config sdk.system) (i attempt : ℕ) : Prop :=
  ∃ th activationId licenseKey, c.threads[i]? = some th ∧
    th.task = .background attempt activationId licenseKey

/-- A background renewal has run the drop of its guard: it has taken its mark back, or has
nothing left to do. -/
def GuardDropped (th : Thread signature) : Prop :=
  (∃ state, Event.did (Effect.setRenewal state) () ∈ th.past) ∨ th.prog.result? ≠ none

/-- Background renewal number `attempt` was started and has not run the drop of its guard. -/
def InProgress (c : Config sdk.system) (attempt : ℕ) : Prop :=
  ∃ (i : ℕ) (th : Thread signature) (activationId licenseKey : String),
    c.threads[i]? = some th ∧ th.task = .background attempt activationId licenseKey ∧
      ¬ GuardDropped th

/-- A check is between the two writes of an opening. -/
def OpeningNow (c : Config sdk.system) : Prop :=
  ∃ i th, c.holder = some i ∧ c.threads[i]? = some th ∧ th.task = .check ∧ Unsettled th.past

structure Marked (c : Config sdk.system) : Prop where
  distinct : ∀ i j attempt, Numbered c i attempt → Numbered c j attempt → i = j
  le : ∀ i attempt, Numbered c i attempt → attempt ≤ c.shared.renewal.attempt
  /-- The number of a renewal that is being opened is new. -/
  lt : OpeningNow c → ∀ i attempt, Numbered c i attempt → attempt < c.shared.renewal.attempt
  mark : ¬ OpeningNow c →
    (c.shared.renewal.inFlight.isSome = true ↔ InProgress c c.shared.renewal.attempt)

/-- A thread with a number had it before the step, or was started by it. -/
theorem numbered_step {c c' : Config sdk.system} {l : Label signature} (hstep : Step c l c')
    {i attempt : ℕ} (hn : Numbered c' i attempt) : Numbered c i attempt ∨
      i = c.threads.length ∧ ∃ j activationId licenseKey,
        l = .op j (.forked (.background attempt activationId licenseKey) true) := by
  obtain ⟨th', activationId, licenseKey, hi', ht⟩ := hn
  rcases hstep.thread_cases hi' with ⟨t, hlen, rfl, ⟨rfl, hcall⟩ | ⟨j, rfl⟩⟩ | ⟨th, hi, hth⟩
  · rw [show t = .background attempt activationId licenseKey from ht] at hcall
    cases hcall
  · rw [show t = .background attempt activationId licenseKey from ht]
    exact Or.inr ⟨hlen, j, activationId, licenseKey, rfl⟩
  · refine Or.inl ⟨th, activationId, licenseKey, hi, ?_⟩
    rcases hth with rfl | ⟨ev, p, -, rfl⟩ | ⟨-, rfl⟩ <;> exact ht

/-- Only dropping its guard makes the latest renewal one that has. -/
theorem dropped_step {c c' : Config sdk.system} {l : Label signature} (hk : Tracked sdk c)
    (hstep : Step c l c') {i : ℕ} {th th' : Thread signature} {activationId licenseKey : String}
    (hi : c.threads[i]? = some th) (hi' : c'.threads[i]? = some th')
    (ht : th.task = .background c.shared.renewal.attempt activationId licenseKey)
    (hl : ∀ state, l ≠ .op i (.did (.setRenewal state) ())) :
    GuardDropped th' ↔ GuardDropped th := by
  rcases hstep.thread_cases hi' with ⟨t, hlen, -⟩ | ⟨th₀, hi₀, hth⟩
  · have := (List.getElem?_eq_some_iff.1 hi).1
    omega
  · cases Option.some.inj (hi.symm.trans hi₀)
    rcases hth with rfl | ⟨ev, p, rfl, rfl⟩ | ⟨rfl, rfl⟩
    · exact Iff.rfl
    · have hrunning : th.prog.result? = none := hstep.running rfl hi
      have hev : ∀ state, ev ≠ .did (.setRenewal state) () := fun state heq =>
        hl state (by rw [heq])
      have hpast : ∀ state, Event.did (Effect.setRenewal state) () ∈ ev :: th.past ↔
          Event.did (Effect.setRenewal state) () ∈ th.past := by
        intro state
        simp [(hev state).symm]
      have hdropped : GuardDropped th ↔
          ∃ state, Event.did (Effect.setRenewal state) () ∈ th.past := by
        simp [GuardDropped, hrunning]
      rw [hdropped]
      constructor
      · rintro (⟨state, hmem⟩ | hret)
        · exact ⟨state, (hpast state).1 hmem⟩
        · -- a renewal that returns has taken its mark back, or found a newer one
          obtain ⟨out, hout⟩ := Option.ne_none_iff_exists'.1 hret
          have hret' := (hk.habits.step sdk.habits_sound hstep).returns hi' hout
          rcases hret'.2 _ _ _ ht with ⟨state, h, heq⟩ | ⟨state, h, heq, hne⟩
          · obtain ⟨-, hth⟩ := List.cons.inj heq
            exact ⟨state, by simp [hth]⟩
          · obtain ⟨rfl, hth⟩ := List.cons.inj heq
            have hmine : c.holder = some i := by
              cases hstep with
              | unlock _ _ hmine => exact hmine
            have hnow := hk.known i th state hmine hi (by rw [hth]; rfl)
            exact absurd (congrArg Renewal.attempt hnow).symm hne
      · rintro ⟨state, hmem⟩
        exact Or.inl ⟨state, (hpast state).2 hmem⟩
    · have hrunning : th.prog.result? = none := hstep.running rfl hi
      have hhandler : (handler th.task).result? = none := by
        rw [ht]
        rfl
      simp [GuardDropped, hrunning, hhandler]

/-- A step that neither starts a background renewal nor is the drop of one leaves the progress of
the latest alone. -/
theorem inProgress_step {c c' : Config sdk.system} {l : Label signature} (hk : Tracked sdk c)
    (hstep : Step c l c')
    (hfork : ∀ j t, l ≠ .op j (.forked t true))
    (hdrop : ∀ i state, l = .op i (.did (.setRenewal state) ()) →
      ¬ Numbered c i c.shared.renewal.attempt) :
    InProgress c' c.shared.renewal.attempt ↔ InProgress c c.shared.renewal.attempt := by
  constructor
  · rintro ⟨i, th', activationId, licenseKey, hi', ht', hnot⟩
    rcases numbered_step hstep ⟨th', _, _, hi', ht'⟩ with hn | ⟨-, j, _, _, rfl⟩
    · obtain ⟨th, activationId', licenseKey', hi, ht⟩ := hn
      refine ⟨i, th, activationId', licenseKey', hi, ht, ?_⟩
      rw [← dropped_step hk hstep hi hi' ht]
      · exact hnot
      · rintro state rfl
        exact hdrop i state rfl ⟨th, _, _, hi, ht⟩
    · exact absurd rfl (hfork j _)
  · rintro ⟨i, th, activationId, licenseKey, hi, ht, hnot⟩
    obtain ⟨th', hi', ht'⟩ := hstep.persists hi
    refine ⟨i, th', activationId, licenseKey, hi', ht'.trans ht, ?_⟩
    rw [dropped_step hk hstep hi hi' ht]
    · exact hnot
    · rintro state rfl
      exact hdrop i state rfl ⟨th, _, _, hi, ht⟩

/-- What a check does next while it is unsettled. -/
theorem unsettled_next {h : Past signature} {ev : Event signature} (hd : Does sdk .check h ev)
    (hu : Unsettled h) : (∃ state, ev = .did (.setRenewal state) ()) ∨
      ∃ o : Opening, ∃ started, ev = .forked o.child started ∧ h = o.recorded := by
  cases ev with
  | did e r =>
    cases e with
    | setRenewal state => exact Or.inl ⟨state, rfl⟩
    | request client url body => exact absurd hu (hd.2 rfl)
    | _ => exact absurd hu (hd rfl)
  | forked child started =>
    obtain ⟨-, o, -, hpast, rfl⟩ := hd
    exact Or.inr ⟨o, started, rfl, hpast⟩
  | _ => exact absurd hu (hd rfl)

/-- Whether a check is opening a renewal changes only when it writes the renewal state or has
started the thread. -/
theorem openingNow_step {c c' : Config sdk.system} {l : Label signature} (hk : Tracked sdk c)
    (hstep : Step c l c') (hfork : ∀ j t, l ≠ .op j (.forked t true))
    (hwrite : ∀ i state, l ≠ .op i (.did (.setRenewal state) ())) :
    OpeningNow c' ↔ OpeningNow c := by
  constructor
  · rintro ⟨i, th', hholder, hi', ht, hu⟩
    rcases hstep.holder_cases hholder with ⟨hmine, hpanic⟩ | rfl | rfl
    · rcases hstep.thread_cases hi' with
        ⟨t, -, rfl, -⟩ | ⟨th, hi, rfl | ⟨ev, p, rfl, rfl⟩ | ⟨rfl, -⟩⟩
      · exact absurd hu settled_nil
      · exact ⟨i, _, hmine, hi, ht, hu⟩
      · obtain ⟨o, heq | heq⟩ := hu
        · cases (List.cons.inj heq).1
          exact absurd rfl (hwrite i _)
        · exact ⟨i, th, hmine, hi, ht, o, Or.inl (List.cons.inj heq).2⟩
      · exact absurd rfl hpanic
    · obtain ⟨th, p, -, -, hnew⟩ := hstep.op_inv
      cases Option.some.inj (hi'.symm.trans hnew)
      exact absurd hu (settled_of id)
    · obtain ⟨th, p, -, -, hnew⟩ := hstep.op_inv
      cases Option.some.inj (hi'.symm.trans hnew)
      exact absurd hu (settled_of id)
  · rintro ⟨i, th, hmine, hi, ht, hu⟩
    have hnext : ∀ ev, l = .op i ev → ∃ o : Opening, ev = .forked o.child false ∧
        th.past = o.recorded := by
      rintro ev rfl
      obtain ⟨th₀, hi₀, hdoes⟩ := hk.habits.does hstep
      cases Option.some.inj (hi.symm.trans hi₀)
      rw [ht] at hdoes
      rcases unsettled_next hdoes hu with ⟨state, rfl⟩ | ⟨o, started, rfl, hpast⟩
      · exact absurd rfl (hwrite i state)
      · cases started with
        | false => exact ⟨o, rfl, hpast⟩
        | true => exact absurd rfl (hfork i _)
    have hnopanic : l ≠ .panic i := by
      rintro rfl
      cases hstep with
      | panic hi₀ _ _ hp =>
        cases Option.some.inj (hi.symm.trans hi₀)
        rcases hp with habort | hmay
        · exact hk.habits.aborts hi habort ht hu
        · rw [ht] at hmay
          cases hmay
    have hholder : c'.holder = some i := by
      rcases hstep.holder_keeps hmine with hkeep | rfl | rfl
      · exact hkeep
      · obtain ⟨o, heq, -⟩ := hnext _ rfl
        cases heq
      · exact absurd rfl hnopanic
    obtain ⟨th', hi', ht'⟩ := hstep.persists hi
    refine ⟨i, th', hholder, hi', ht'.trans ht, ?_⟩
    rcases hstep.thread_cases hi' with ⟨t, hlen, -⟩ | ⟨th₀, hi₀, hth⟩
    · have := (List.getElem?_eq_some_iff.1 hi).1
      omega
    · cases Option.some.inj (hi.symm.trans hi₀)
      rcases hth with rfl | ⟨ev, p, rfl, rfl⟩ | ⟨rfl, -⟩
      · exact hu
      · obtain ⟨o, rfl, hpast⟩ := hnext ev rfl
        exact ⟨o, Or.inr (congrArg _ hpast)⟩
      · exact absurd rfl hnopanic

/-- The holder of the lock is not opening a renewal. -/
theorem not_openingNow {c : Config sdk.system} {i : ℕ} {th : Thread signature}
    (hmine : c.holder = some i) (hi : c.threads[i]? = some th)
    (hth : th.task = .check → ¬ Unsettled th.past) : ¬ OpeningNow c := by
  rintro ⟨j, thj, hj, hjth, ht, hu⟩
  cases Option.some.inj (hmine.symm.trans hj)
  cases Option.some.inj (hi.symm.trans hjth)
  exact hth ht hu

theorem marked_other {c c' : Config sdk.system} {l : Label signature} (hk : Tracked sdk c)
    (hm : Marked c) (hstep : Step c l c') (hfork : ∀ j t, l ≠ .op j (.forked t true))
    (hwrite : ∀ i state, l ≠ .op i (.did (.setRenewal state) ())) : Marked c' := by
  have hold : ∀ {i n}, Numbered c' i n → Numbered c i n := by
    intro i n hn
    rcases numbered_step hstep hn with hn | ⟨-, j, _, _, rfl⟩
    · exact hn
    · exact absurd rfl (hfork j _)
  have hsame : c'.shared.renewal = c.shared.renewal := by
    rcases renewal_cases hk.contract hstep with hsame | ⟨i, state, rfl, -⟩
    · exact hsame
    · exact absurd rfl (hwrite i state)
  have hopen := openingNow_step hk hstep hfork hwrite
  constructor
  · exact fun i j n hi hj => hm.distinct i j n (hold hi) (hold hj)
  · exact fun i n hi => hsame ▸ hm.le i n (hold hi)
  · exact fun ho i n hi => hsame ▸ hm.lt (hopen.1 ho) i n (hold hi)
  · intro hno
    rw [hsame, inProgress_step hk hstep hfork fun i state heq => absurd heq (hwrite i state)]
    exact hm.mark fun ho => hno (hopen.2 ho)

theorem marked_write {c c' : Config sdk.system} {i : ℕ} {state : Renewal} (hk : Tracked sdk c)
    (hm : Marked c) (hstep : Step c (.op i (.did (.setRenewal state) ())) c') : Marked c' := by
  obtain ⟨⟨task, past, prog, dead⟩, hi, hmine, hnew, hwrite, hseen⟩ := write_cases hk hstep
  obtain ⟨th', hi', ht'⟩ := hstep.persists hi
  have hpast' : th'.past = .did (.setRenewal state) () :: past := op_changes_past hstep hi hi'
  have hmine' : c'.holder = some i := by
    rcases hstep.holder_keeps hmine with hkeep | heq | heq
    · exact hkeep
    · cases heq
    · cases heq
  have hold : ∀ {j n}, Numbered c' j n → Numbered c j n := by
    intro j n hn
    rcases numbered_step hstep hn with hn | ⟨-, _, _, _, heq⟩
    · exact hn
    · cases heq
  have hdistinct : ∀ j j' n, Numbered c' j n → Numbered c' j' n → j = j' :=
    fun j j' n hj hj' => hm.distinct j j' n (hold hj) (hold hj')
  simp only at hwrite hseen ht'
  cases hwrite with
  | manual activationId licenseKey now before =>
    have hbefore := hseen before rfl
    have hno : ∀ {d : Config sdk.system} {thd : Thread signature}, d.holder = some i →
        d.threads[i]? = some thd → thd.task = .renew activationId licenseKey →
        ¬ OpeningNow d := by
      intro d thd hd hdi htask
      refine not_openingNow hd hdi fun heq => ?_
      rw [htask] at heq
      cases heq
    have hprog := inProgress_step hk hstep (by simp) (by
      rintro j state' heq ⟨thj, a, k, hj, htj⟩
      cases heq
      cases Option.some.inj (hi.symm.trans hj)
      cases htj)
    have hmark := hm.mark (hno hmine hi rfl)
    rw [hbefore] at hprog hmark
    refine ⟨hdistinct, fun j n hj => ?_, fun ho => absurd ho (hno hmine' hi' ht'), fun _ => ?_⟩
    · rw [hnew]
      exact hbefore ▸ hm.le j n (hold hj)
    · rw [hnew]
      exact hmark.trans hprog.symm
  | opening o ho =>
    have hbefore := hseen o.before rfl
    have hlt : ∀ j n, Numbered c' j n → n < c'.shared.renewal.attempt := by
      intro j n hj
      have hle := hm.le j n (hold hj)
      rw [hbefore] at hle
      rw [hnew]
      exact Nat.lt_succ_of_le hle
    refine ⟨hdistinct, fun j n hj => Nat.le_of_lt (hlt j n hj), fun _ => hlt, fun hno => ?_⟩
    exact absurd ⟨i, th', hmine', hi', ht', o, Or.inl hpast'⟩ hno
  | spawnFailed o =>
    have hbefore := hseen o.started rfl
    have hlt : ∀ j n, Numbered c' j n → n < c'.shared.renewal.attempt := by
      intro j n hj
      have hlt := hm.lt ⟨i, _, hmine, hi, rfl, o, Or.inr rfl⟩ j n (hold hj)
      rw [hbefore] at hlt
      rw [hnew]
      exact hlt
    refine ⟨hdistinct, fun j n hj => Nat.le_of_lt (hlt j n hj), fun _ => hlt, fun _ => ?_⟩
    -- the mark is taken back, and no thread has the number
    constructor
    · intro hsome
      rw [hnew] at hsome
      cases hsome
    · rintro ⟨j, thj, a, k, hj, htj, -⟩
      exact absurd (hlt j _ ⟨thj, a, k, hj, htj⟩) (Nat.lt_irrefl _)
  | drop attempt activationId licenseKey before h hs =>
    have hbefore := hseen before rfl
    refine ⟨hdistinct, fun j n hj => ?_, fun ho => ?_, fun _ => ?_⟩
    · rw [hnew]
      exact hbefore ▸ hm.le j n (hold hj)
    · refine absurd ho (not_openingNow hmine' hi' fun heq => ?_)
      rw [ht'] at heq
      cases heq
    · -- the thread that drops its guard is the one with the number
      constructor
      · intro hsome
        rw [hnew] at hsome
        cases hsome
      · rintro ⟨j, thj, a, k, hj, htj, hnot⟩
        have hnj : Numbered c' j attempt := by
          refine ⟨thj, a, k, hj, htj.trans ?_⟩
          rw [hnew, ← hs]
        cases hdistinct j i attempt hnj ⟨th', _, _, hi', ht'⟩
        cases Option.some.inj (hi'.symm.trans hj)
        exact absurd (Or.inl ⟨_, by rw [hpast']; exact List.mem_cons_self⟩) hnot

theorem marked_fork {c c' : Config sdk.system} {i : ℕ} {child : Task} (hk : Tracked sdk c)
    (hm : Marked c) (hstep : Step c (.op i (.forked child true)) c') : Marked c' := by
  obtain ⟨th, o, hi, hmine, ht, -, hpast, rfl, hnow⟩ := start_cases hk hstep
  have hlt := hm.lt ⟨i, th, hmine, hi, ht, o, Or.inl hpast⟩
  obtain ⟨th', hi', ht'⟩ := hstep.persists hi
  have hpast' := op_changes_past hstep hi hi'
  have hsame : c'.shared.renewal = c.shared.renewal := by
    rcases renewal_cases hk.contract hstep with hsame | ⟨_, _, heq, -⟩
    · exact hsame
    · cases heq
  have hmine' : c'.holder = some i := by
    rcases hstep.holder_keeps hmine with hkeep | heq | heq
    · exact hkeep
    · cases heq
    · cases heq
  have hno : ¬ OpeningNow c' := not_openingNow hmine' hi' fun _ => by
    rw [hpast']
    exact settled_of id
  have hattempt : o.before.attempt + 1 = c.shared.renewal.attempt := by rw [hnow]; rfl
  -- the thread started is the only one with the number
  have hcases : ∀ {j n}, Numbered c' j n → Numbered c j n ∧ n < c.shared.renewal.attempt ∨
      j = c.threads.length ∧ n = c.shared.renewal.attempt := by
    intro j n hn
    rcases numbered_step hstep hn with hn | ⟨rfl, _, a, k, heq⟩
    · exact Or.inl ⟨hn, hlt j n hn⟩
    · obtain ⟨-, heq⟩ := Label.op.inj heq
      obtain ⟨heq, -⟩ := Event.forked.inj heq
      obtain ⟨hn, -, -⟩ := Task.background.inj heq
      exact Or.inr ⟨rfl, hn ▸ hattempt⟩
  refine ⟨?_, ?_, fun ho => absurd ho hno, fun _ => ?_⟩
  · intro j j' n hj hj'
    rcases hcases hj with ⟨hj, hn⟩ | ⟨rfl, hn⟩ <;> rcases hcases hj' with ⟨hj', hn'⟩ | ⟨rfl, hn'⟩
    · exact hm.distinct j j' n hj hj'
    · omega
    · omega
    · rfl
  · intro j n hj
    rw [hsame]
    rcases hcases hj with ⟨-, hn⟩ | ⟨-, hn⟩ <;> omega
  · rw [hsame, hnow]
    refine iff_of_true rfl ⟨c.threads.length, sdk.system.fresh o.child, o.license.activationId,
      o.license.key, ?_, rfl, ?_⟩
    · cases hstep with
      | fork hi₀ hp =>
        refine Config.spawn_threads.2 (Or.inr ⟨?_, rfl⟩)
        exact List.length_set.symm
    · rintro (⟨state, hmem⟩ | hret)
      · cases hmem
      · exact hret rfl

theorem marked_step {c c' : Config sdk.system} {l : Label signature} (hk : Tracked sdk c)
    (hm : Marked c) (hstep : Step c l c') : Marked c' := by
  by_cases hwrite : ∃ i state, l = .op i (.did (.setRenewal state) ())
  · obtain ⟨i, state, rfl⟩ := hwrite
    exact marked_write hk hm hstep
  · by_cases hfork : ∃ j t, l = .op j (.forked t true)
    · obtain ⟨j, t, rfl⟩ := hfork
      exact marked_fork hk hm hstep
    · exact marked_other hk hm hstep (fun j t heq => hfork ⟨j, t, heq⟩)
        fun i state heq => hwrite ⟨i, state, heq⟩

theorem marked_start (cache : Option (String × CertChain)) (newest : ℤ) :
    Marked (sdk.start cache newest) := by
  have hnone : ∀ i n, ¬ Numbered (sdk.start cache newest) i n := by
    rintro i n ⟨th, a, k, hi, -⟩
    cases hi
  refine ⟨fun i j n hi => absurd hi (hnone i n), fun i n hi => absurd hi (hnone i n),
    fun _ i n hi => absurd hi (hnone i n), fun _ => ?_⟩
  constructor
  · intro hsome
    cases hsome
  · rintro ⟨i, th, a, k, hi, -⟩
    cases hi

/-- **The in-flight mark is owned by the latest attempt.**  In every reachable state the numbers
of the background renewals that were started are pairwise different and at most `attempt`, and
a step of one that is not the latest leaves the renewal state alone.  Outside a lock section the
mark is there if and only if renewal number `attempt` was started and has not run the drop of
its guard, so one that died or could not be started blocks no later one. -/
theorem in_flight_mark {cache : Option (String × CertChain)} {newest : ℤ}
    {c : Config sdk.system} (hrun : AnyRun (sdk.start cache newest) c) :
    (∀ i j attempt, Numbered c i attempt → Numbered c j attempt → i = j) ∧
      (∀ i attempt, Numbered c i attempt → attempt ≤ c.shared.renewal.attempt) ∧
      (c.holder = none → (c.shared.renewal.inFlight.isSome = true ↔
        InProgress c c.shared.renewal.attempt)) ∧
      ∀ l c' i attempt, Step c l c' → l.thread = some i → Numbered c i attempt →
        attempt ≠ c.shared.renewal.attempt → c'.shared.renewal = c.shared.renewal := by
  have hk := tracked_of_run hrun
  have hm : Tracked sdk c ∧ Marked c := by
    refine hrun.preserves (I := fun c => Tracked sdk c ∧ Marked c) ?_
      ⟨tracked_start cache newest, marked_start cache newest⟩
    rintro c l c' ⟨hk, hm⟩ hstep -
    exact ⟨tracked_step hk hstep, marked_step hk hm hstep⟩
  obtain ⟨-, hm⟩ := hm
  refine ⟨hm.distinct, hm.le, fun hfree => hm.mark ?_, ?_⟩
  · rintro ⟨i, th, hholder, -⟩
    rw [hfree] at hholder
    cases hholder
  · rintro l c' i attempt hstep hl ⟨th, a, k, hi, ht⟩ hstale
    rcases renewal_cases hk.contract hstep with hsame | ⟨j, state, rfl, -⟩
    · exact hsame
    · cases hl
      obtain ⟨th₀, hi₀, hlatest, -⟩ := hk.contract.guar sdk.sound hstep
      cases Option.some.inj (hi.symm.trans hi₀)
      exact absurd (hlatest _ _ _ ht).symm hstale

/-- A check that has started a background renewal, whose thread has not run yet. -/
theorem in_flight_mark_sample : ∃ c : Config sampleSdk.system,
    AnyRun (sampleSdk.start (some ("h.t.4t", sampleChain)) 0) c ∧
      c.shared.renewal.inFlight.isSome = true ∧ InProgress c c.shared.renewal.attempt := by
  have hplay : (play (fun _ _ _ => True) (sampleSdk.start (some ("h.t.4t", sampleChain)) 0)
      (.call .check :: sampleMoves 8 0 (sampleNow + 3540) (sampleReply 117))).any
      (fun c => decide (c.holder = none ∧ c.shared.renewal.inFlight.isSome = true)) = true := by
    decide +kernel
  obtain ⟨c, hc, hlast⟩ := (Option.any_eq_true _ _).1 hplay
  obtain ⟨hfree, hmark⟩ := of_decide_eq_true hlast
  exact ⟨c, play_run hc, hmark, ((in_flight_mark (play_run hc)).2.2.1 hfree).1 hmark⟩

end LatteRs
