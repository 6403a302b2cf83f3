import LatteRs.Concurrent.Sequential
import LatteRs.Concurrent.Traces

/-!
# Progress

When every program is bounded, the threads of a system that keeps a contract all
come to their end: no run without calls from outside goes on for ever, and while
a thread has something left to do, some thread can go on.

* `Program.Within`, how much work a program has left at most, and `within_bind`;
* `Bounds`, `Owed`: the bounds of all tasks, and what the threads of a
  configuration have left to do together;
* `Owed.step`: every step takes from it;
* `Contract.Kept.goes_on`, `Contract.Kept.exists_step`: the lock is no obstacle;
* `Steps`, `Bounds.steps_le`, `Bounds.finished`: runs are short, and end with
  every thread finished;
* `Thread.Paced`: how many operations of its own a thread performs.
-/

namespace Concurrent

variable {S : Signature}

namespace Program

variable {α β : Type} {cost : S.Task → ℕ} {aborts : Prop} {m n : ℕ}

/-- The program has at most `n` units of work left: one for each operation, and `cost t` more for
each thread of task `t` that it starts.  It may panic only if `aborts`. -/
def Within (cost : S.Task → ℕ) (aborts : Prop) : Program S α → ℕ → Prop
  | ret _, _ => True
  | act _ next, n => 0 < n ∧ ∀ r, (next r).Within cost aborts (n - 1)
  | lock next, n => 0 < n ∧ next.Within cost aborts (n - 1)
  | tryLock next, n => 0 < n ∧ ∀ got, (next got).Within cost aborts (n - 1)
  | unlock next, n => 0 < n ∧ next.Within cost aborts (n - 1)
  | fork t next, n => cost t < n ∧ (next true).Within cost aborts (n - 1 - cost t) ∧
      (next false).Within cost aborts (n - 1)
  | abort, _ => aborts

theorem Within.mono {p : Program S α} (hp : p.Within cost aborts m) (hmn : m ≤ n) :
    p.Within cost aborts n := by
  induction p generalizing m n with
  | ret a => trivial
  | act e next ih =>
    exact ⟨Nat.lt_of_lt_of_le hp.1 hmn, fun r => ih r (hp.2 r) (Nat.sub_le_sub_right hmn 1)⟩
  | lock next ih => exact ⟨Nat.lt_of_lt_of_le hp.1 hmn, ih hp.2 (Nat.sub_le_sub_right hmn 1)⟩
  | tryLock next ih =>
    exact ⟨Nat.lt_of_lt_of_le hp.1 hmn, fun got => ih got (hp.2 got) (Nat.sub_le_sub_right hmn 1)⟩
  | unlock next ih => exact ⟨Nat.lt_of_lt_of_le hp.1 hmn, ih hp.2 (Nat.sub_le_sub_right hmn 1)⟩
  | fork t next ih =>
    exact ⟨Nat.lt_of_lt_of_le hp.1 hmn, ih true hp.2.1 (by omega), ih false hp.2.2 (by omega)⟩
  | abort => exact hp

/-- The rule for a sequence of two programs. -/
theorem within_bind {p : Program S α} {f : α → Program S β} (hp : p.Within cost aborts m)
    (hf : ∀ a, (f a).Within cost aborts n) : (p >>= f).Within cost aborts (m + n) := by
  induction p generalizing m with
  | ret a => exact (hf a).mono (Nat.le_add_left n m)
  | act e next ih =>
    obtain ⟨hpos, hnext⟩ := hp
    exact ⟨Nat.add_pos_left hpos n, fun r => (ih r (hnext r)).mono (by omega)⟩
  | lock next ih =>
    obtain ⟨hpos, hnext⟩ := hp
    exact ⟨Nat.add_pos_left hpos n, (ih hnext).mono (by omega)⟩
  | tryLock next ih =>
    obtain ⟨hpos, hnext⟩ := hp
    exact ⟨Nat.add_pos_left hpos n, fun got => (ih got (hnext got)).mono (by omega)⟩
  | unlock next ih =>
    obtain ⟨hpos, hnext⟩ := hp
    exact ⟨Nat.add_pos_left hpos n, (ih hnext).mono (by omega)⟩
  | fork t next ih =>
    obtain ⟨hlt, hstarted, hfailed⟩ := hp
    refine ⟨Nat.lt_add_right n hlt, (ih true hstarted).mono ?_, (ih false hfailed).mono ?_⟩
    · omega
    · omega
  | abort => exact hp

/-- The same, with the sum on the right already known. -/
theorem within_seq {k : ℕ} {p : Program S α} {f : α → Program S β}
    (hp : p.Within cost aborts m) (hf : ∀ a, (f a).Within cost aborts n) (hk : m + n ≤ k) :
    (p >>= f).Within cost aborts k := (within_bind hp hf).mono hk

theorem within_perform (e : S.Effect) : (perform e).Within cost aborts 1 :=
  ⟨Nat.one_pos, fun _ => trivial⟩

theorem within_acquire : (acquire : Program S Unit).Within cost aborts 1 := ⟨Nat.one_pos, trivial⟩

theorem within_tryAcquire : (tryAcquire : Program S Bool).Within cost aborts 1 :=
  ⟨Nat.one_pos, fun _ => trivial⟩

theorem within_release : (release : Program S Unit).Within cost aborts 1 := ⟨Nat.one_pos, trivial⟩

theorem within_start {t : S.Task} (h : cost t < n) :
    (start t : Program S Bool).Within cost aborts n := ⟨h, trivial, trivial⟩

end Program

open Program

/-! ### The work of all threads -/

/-- Bounds for the tasks of a system: what a thread, the threads it starts, and unwinding from
its panic cost together, and what unwinding alone costs. -/
structure Bounds (sys : System S) where
  cost : S.Task → ℕ
  unwind : S.Task → ℕ
  body : ∀ t, (sys.body t).Within cost True (cost t - unwind t - 1)
  /-- Unwinding ends without a second panic. -/
  handler : ∀ t, (sys.handler t).Within cost False (unwind t)
  lt : ∀ t, unwind t < cost t

variable {sys : System S} (b : Bounds sys)

/-- The thread has at most `n` units of work left, unwinding and the panic before it included. -/
def Thread.Owes (th : Thread S) (n : ℕ) : Prop :=
  (th.dead = true ∧ th.prog.Within b.cost False n) ∨
    (th.dead = false ∧ ∃ m, th.prog.Within b.cost True m ∧ m + b.unwind th.task + 1 ≤ n)

/-- The threads of the list have at most `n` units of work left together. -/
def Owed : List (Thread S) → ℕ → Prop
  | [], _ => True
  | th :: ths, n => ∃ m ≤ n, th.Owes b m ∧ Owed ths (n - m)

variable {b}

theorem Owed.mono {ths : List (Thread S)} {m n : ℕ} (h : Owed b ths m) (hmn : m ≤ n) :
    Owed b ths n := by
  induction ths generalizing m n with
  | nil => trivial
  | cons th ths ih =>
    obtain ⟨k, hk, hth, hrest⟩ := h
    exact ⟨k, Nat.le_trans hk hmn, hth, ih hrest (Nat.sub_le_sub_right hmn k)⟩

/-- A new thread owes what its task costs. -/
theorem owes_fresh (t : S.Task) : (sys.fresh t).Owes b (b.cost t) := by
  have hlt := b.lt t
  refine Or.inr ⟨rfl, b.cost t - b.unwind t - 1, b.body t, ?_⟩
  show b.cost t - b.unwind t - 1 + b.unwind t + 1 ≤ b.cost t
  omega

theorem Owed.append {ths : List (Thread S)} {n k : ℕ} {th : Thread S} (h : Owed b ths n)
    (hth : th.Owes b k) : Owed b (ths ++ [th]) (n + k) := by
  induction ths generalizing n with
  | nil => exact ⟨k, Nat.le_add_left k n, hth, trivial⟩
  | cons th₀ ths ih =>
    obtain ⟨m, hm, hth₀, hrest⟩ := h
    refine ⟨m, Nat.le_trans hm (Nat.le_add_right n k), hth₀, ?_⟩
    exact (ih hrest).mono (by omega)

/-- A thread that owes `d` less than before makes all of them owe `d` less. -/
theorem Owed.set {ths : List (Thread S)} {n d i : ℕ} {th th' : Thread S} (h : Owed b ths n)
    (hi : ths[i]? = some th) (hth : ∀ m, th.Owes b m → ∃ m', m' + d ≤ m ∧ th'.Owes b m') :
    ∃ n', n' + d ≤ n ∧ Owed b (ths.set i th') n' := by
  induction ths generalizing n i with
  | nil => cases hi
  | cons th₀ ths ih =>
    obtain ⟨m, hm, hth₀, hrest⟩ := h
    cases i with
    | zero =>
      cases hi
      obtain ⟨m', hm', howes⟩ := hth m hth₀
      refine ⟨n - d, by omega, m', by omega, howes, hrest.mono ?_⟩
      omega
    | succ i =>
      obtain ⟨n', hn', howed⟩ := ih hrest hi
      refine ⟨n' + m, by omega, m, Nat.le_add_left m n', hth₀, ?_⟩
      rw [Nat.add_sub_cancel]
      exact howed

/-- A thread whose program goes on to one with `d` units less owes `d` less. -/
theorem Thread.Owes.did {th : Thread S} {ev : Event S} {p : Program S S.Out} {d m : ℕ}
    (h : th.Owes b m)
    (hp : ∀ aborts k, th.prog.Within b.cost aborts k →
      ∃ k', k' + d ≤ k ∧ p.Within b.cost aborts k') :
    ∃ m', m' + d ≤ m ∧ (th.did ev p).Owes b m' := by
  rcases h with ⟨hdead, hwithin⟩ | ⟨hlive, k, hwithin, hk⟩
  · obtain ⟨m', hm', hp'⟩ := hp False m hwithin
    exact ⟨m', hm', Or.inl ⟨hdead, hp'⟩⟩
  · obtain ⟨k', hk', hp'⟩ := hp True k hwithin
    refine ⟨k' + b.unwind th.task + 1, by omega, Or.inr ⟨hlive, k', hp', Nat.le_refl _⟩⟩

/-- The step is no call from outside. -/
def Inside (_ : Config sys) (l : Label S) (_ : Config sys) : Prop := l.thread ≠ none

/-- **Every step takes from the work that is left.** -/
theorem Owed.step {c c' : Config sys} {l : Label S} {n : ℕ} (h : Owed b c.threads n)
    (hstep : Step c l c') (hl : Inside c l c') : ∃ n', n' + 1 ≤ n ∧ Owed b c'.threads n' := by
  -- what an operation of thread `i` leaves
  have goes : ∀ {i : ℕ} {th : Thread S} (ev : Event S) (p : Program S S.Out) (d : ℕ),
      c.threads[i]? = some th →
      (∀ aborts k, th.prog.Within b.cost aborts k →
        ∃ k', k' + d ≤ k ∧ p.Within b.cost aborts k') →
      ∃ n', n' + d ≤ n ∧ Owed b (c.threads.set i (th.did ev p)) n' :=
    fun ev p d hi hp => h.set hi fun m hm => hm.did hp
  cases hstep with
  | call ht => exact absurd rfl hl
  | @act i th e next r hi hp hr =>
    refine goes _ _ 1 hi fun aborts k hk => ⟨k - 1, ?_, ?_⟩ <;> rw [hp] at hk
    · exact Nat.le_of_eq (Nat.sub_add_cancel hk.1)
    · exact hk.2 r
  | @lock i th next hi hp hfree =>
    refine goes _ _ 1 hi fun aborts k hk => ⟨k - 1, ?_, ?_⟩ <;> rw [hp] at hk
    · exact Nat.le_of_eq (Nat.sub_add_cancel hk.1)
    · exact hk.2
  | @tryLockFree i th next hi hp hfree =>
    refine goes _ _ 1 hi fun aborts k hk => ⟨k - 1, ?_, ?_⟩ <;> rw [hp] at hk
    · exact Nat.le_of_eq (Nat.sub_add_cancel hk.1)
    · exact hk.2 true
  | @tryLockHeld i th next hi hp hheld =>
    refine goes _ _ 1 hi fun aborts k hk => ⟨k - 1, ?_, ?_⟩ <;> rw [hp] at hk
    · exact Nat.le_of_eq (Nat.sub_add_cancel hk.1)
    · exact hk.2 false
  | @unlock i th next hi hp hmine =>
    refine goes _ _ 1 hi fun aborts k hk => ⟨k - 1, ?_, ?_⟩ <;> rw [hp] at hk
    · exact Nat.le_of_eq (Nat.sub_add_cancel hk.1)
    · exact hk.2
  | @fork i th t next hi hp =>
    obtain ⟨n', hn', howed⟩ := goes (.forked t true) (next true) (1 + b.cost t) hi
      fun aborts k hk => by
        rw [hp] at hk
        obtain ⟨hlt, hstarted, -⟩ := hk
        exact ⟨k - 1 - b.cost t, by omega, hstarted⟩
    exact ⟨n' + b.cost t, by omega, howed.append (owes_fresh t)⟩
  | @forkFail i th t next hi hp =>
    refine goes _ _ 1 hi fun aborts k hk => ⟨k - 1, ?_, ?_⟩ <;> rw [hp] at hk
    · have := hk.1
      omega
    · exact hk.2.2
  | @panic i th hi hlive hrun hp =>
    refine h.set hi fun m hm => ?_
    rcases hm with ⟨hdead, -⟩ | ⟨-, k, -, hk⟩
    · rw [hlive] at hdead
      cases hdead
    · exact ⟨b.unwind th.task, by omega, Or.inl ⟨rfl, b.handler th.task⟩⟩

/-- A thread that unwinds does not panic a second time. -/
theorem Owed.ne_abort {ths : List (Thread S)} {n i : ℕ} {th : Thread S} (h : Owed b ths n)
    (hi : ths[i]? = some th) (hdead : th.dead = true) : th.prog ≠ .abort := by
  induction ths generalizing n i with
  | nil => cases hi
  | cons th₀ ths ih =>
    obtain ⟨m, -, hth₀, hrest⟩ := h
    cases i with
    | zero =>
      cases hi
      intro habort
      rcases hth₀ with ⟨-, hwithin⟩ | ⟨hlive, -⟩
      · rw [habort] at hwithin
        exact hwithin
      · rw [hlive] at hdead
        cases hdead
    | succ i => exact ih hrest hi

/-! ### The lock is no obstacle -/

variable {k : Contract sys}

/-- A thread that has something left to do can do it, if it does not wait for a lock that is
held. -/
theorem Contract.Kept.goes_on {c : Config sys} {n i : ℕ} {th : Thread S} (hk : k.Kept c)
    (hadmits : ∀ e s w, ∃ r, sys.admits e s w r) (howed : Owed b c.threads n)
    (hi : c.threads[i]? = some th) (hrun : th.prog.result? = none)
    (hwait : c.holder = none ∨ ∀ next, th.prog ≠ .lock next) :
    ∃ l c', Step c l c' ∧ l.thread = some i := by
  cases hp : th.prog with
  | ret a =>
    rw [hp] at hrun
    cases hrun
  | act e next =>
    obtain ⟨r, hr⟩ := hadmits e c.shared c.world
    exact ⟨_, _, .act hi hp hr, rfl⟩
  | lock next =>
    have hfree := hwait.resolve_right fun hne => hne next hp
    exact ⟨_, _, .lock hi hp hfree, rfl⟩
  | tryLock next =>
    by_cases hfree : c.holder = none
    · exact ⟨_, _, .tryLockFree hi hp hfree, rfl⟩
    · exact ⟨_, _, .tryLockHeld hi hp hfree, rfl⟩
  | unlock next => exact ⟨_, _, .unlock hi hp (holder_of_releases hk hi hp), rfl⟩
  | fork t next => exact ⟨_, _, .fork hi hp, rfl⟩
  | abort =>
    cases hdead : th.dead with
    | false => exact ⟨_, _, .panic hi hdead hrun (Or.inl hp), rfl⟩
    | true => exact absurd hp (howed.ne_abort hi hdead)

/-- The holder of the lock has not returned. -/
theorem Contract.Kept.holder_runs {c : Config sys} {i : ℕ} (hk : k.Kept c)
    (hmine : c.holder = some i) :
    ∃ th, c.threads[i]? = some th ∧ th.prog.result? = none := by
  obtain ⟨th, hi⟩ : ∃ th, c.threads[i]? = some th :=
    ⟨_, List.getElem?_eq_getElem (hk.holder i hmine)⟩
  refine ⟨th, hi, ?_⟩
  have hth := hk.holds i th hi
  unfold Contract.Holds at hth
  rw [Contract.Config.known_eq_some.2 ⟨hmine, rfl⟩] at hth
  cases hp : th.prog with
  | ret a =>
    rw [hp] at hth
    cases hth.1
  | _ => rfl

/-- **While a thread has something left to do, some thread can go on.** -/
theorem Contract.Kept.exists_step {c : Config sys} {n i : ℕ} {th : Thread S} (hk : k.Kept c)
    (hadmits : ∀ e s w, ∃ r, sys.admits e s w r) (howed : Owed b c.threads n)
    (hi : c.threads[i]? = some th) (hrun : th.prog.result? = none) :
    ∃ l c', Step c l c' ∧ Inside c l c' := by
  have inside : ∀ {l : Label S} {j : ℕ} {c' : Config sys}, l.thread = some j → Inside c l c' :=
    fun hl hnone => by rw [hl] at hnone; cases hnone
  cases hholder : c.holder with
  | none =>
    obtain ⟨l, c', hstep, hl⟩ := hk.goes_on hadmits howed hi hrun (Or.inl hholder)
    exact ⟨l, c', hstep, inside hl⟩
  | some j =>
    -- the holder does not wait for the lock
    obtain ⟨thj, hj, hrunj⟩ := hk.holder_runs hholder
    have hwait : ∀ next, thj.prog ≠ .lock next :=
      fun next hp => not_holder_of_waits hk hj (Or.inl ⟨next, hp⟩) hholder
    obtain ⟨l, c', hstep, hl⟩ := hk.goes_on hadmits howed hj hrunj (Or.inr hwait)
    exact ⟨l, c', hstep, inside hl⟩

/-! ### Runs without calls -/

/-- A run of `n` steps, none of them a call from outside. -/
inductive Steps : ℕ → Config sys → Config sys → Prop
  | zero (c : Config sys) : Steps 0 c c
  | succ {n : ℕ} {c c' c'' : Config sys} {l : Label S} (h : Steps n c c') (hstep : Step c' l c'')
      (hl : Inside c' l c'') : Steps (n + 1) c c''

theorem Steps.run {n : ℕ} {c c' : Config sys} (h : Steps n c c') :
    Run (fun _ _ _ => True) c c' := by
  induction h with
  | zero => exact .refl _
  | succ _ hstep _ ih => exact ih.tail hstep trivial

theorem Steps.head {n : ℕ} {c c' c'' : Config sys} {l : Label S} (hstep : Step c l c')
    (hl : Inside c l c') (h : Steps n c' c'') : Steps (n + 1) c c'' := by
  induction h with
  | zero => exact .succ (.zero c) hstep hl
  | succ _ hstep' hl' ih => exact .succ (ih hstep hl) hstep' hl'

/-- A run takes at least one unit of work a step. -/
theorem Owed.steps {n B : ℕ} {c c' : Config sys} (howed : Owed b c.threads B)
    (h : Steps n c c') : ∃ B', B' + n ≤ B ∧ Owed b c'.threads B' := by
  induction h with
  | zero => exact ⟨B, Nat.le_refl B, howed⟩
  | succ _ hstep hl ih =>
    obtain ⟨B₁, hB₁, howed₁⟩ := ih howed
    obtain ⟨B₂, hB₂, howed₂⟩ := howed₁.step hstep hl
    exact ⟨B₂, by omega, howed₂⟩

/-- Every thread of the configuration has returned. -/
def Config.Finished (c : Config sys) : Prop :=
  ∀ (i : ℕ) (th : Thread S), c.threads[i]? = some th → th.prog.result? ≠ none

/-- Whatever has run so far can be continued until every thread has returned. -/
theorem exists_finished (hs : k.Sound) (hadmits : ∀ e s w, ∃ r, sys.admits e s w r) {B : ℕ}
    {c : Config sys} (hk : k.Kept c) (howed : Owed b c.threads B) :
    ∃ n c', Steps n c c' ∧ c'.Finished := by
  induction B using Nat.strongRecOn generalizing c with
  | _ B ih =>
    rcases Classical.em (∃ (i : ℕ) (th : Thread S), c.threads[i]? = some th ∧
      th.prog.result? = none) with ⟨i, th, hi, hrun⟩ | hfin
    · obtain ⟨l, c₁, hstep, hl⟩ := hk.exists_step hadmits howed hi hrun
      obtain ⟨B₁, hB₁, howed₁⟩ := howed.step hstep hl
      obtain ⟨n, c', hsteps, hfin'⟩ := ih B₁ (by omega) (hk.step hs hstep) howed₁
      exact ⟨n + 1, c', Steps.head hstep hl hsteps, hfin'⟩
    · exact ⟨0, c, .zero c, fun i th hi hret => hfin ⟨i, th, hi, hret⟩⟩

/-! ### The operations of one thread -/

namespace Program

variable {α : Type} {admits : (e : S.Effect) → S.Answer e → Prop} {p p' : Program S α}
  {ev : Event S}

/-- Of its own operations alone, a program has one less left after each. -/
theorem Within.goes {aborts : Prop} {n : ℕ} (hp : p.Within (fun _ => 0) aborts n)
    (h : p.Goes admits ev p') : 0 < n ∧ p'.Within (fun _ => 0) aborts (n - 1) := by
  cases h with
  | act e next r _ => exact ⟨hp.1, hp.2 r⟩
  | lock next => exact hp
  | tryLock next got => exact ⟨hp.1, hp.2 got⟩
  | unlock next => exact hp
  | fork c next started =>
    cases started with
    | true => exact ⟨hp.1, hp.2.1⟩
    | false => exact ⟨hp.1, hp.2.2⟩

end Program

/-- The thread performs at most `n` operations, and all of them satisfy `ok`. -/
structure Thread.Paced (ok : Event S → Prop) (n : ℕ) (th : Thread S) : Prop where
  le : th.past.length ≤ n
  past : ∀ ev ∈ th.past, ok ev
  uses : th.prog.Uses ok
  within : th.prog.Within (fun _ => 0) True (n - th.past.length)

/-- One task keeps its pace, if unwinding from its panics is no operation. -/
theorem paced_step {ok : Event S → Prop} {n : ℕ} {t : S.Task} (hbody : (sys.body t).Uses ok)
    (hwithin : (sys.body t).Within (fun _ => 0) True n) {out : S.Out}
    (hhandler : sys.handler t = .ret out) {c c' : Config sys} {l : Label S}
    (hstep : Step c l c')
    (hc : ∀ (i : ℕ) (th : Thread S), c.threads[i]? = some th → th.task = t → th.Paced ok n) :
    ∀ (i : ℕ) (th : Thread S), c'.threads[i]? = some th → th.task = t → th.Paced ok n := by
  intro i th' hi' htask
  rcases hstep.thread_cases hi' with
    ⟨t', -, rfl, -⟩ | ⟨th, hi, rfl | ⟨ev, p, rfl, rfl⟩ | ⟨rfl, rfl⟩⟩
  · cases htask
    exact ⟨Nat.zero_le n, fun ev hev => absurd hev List.not_mem_nil, hbody, hwithin⟩
  · exact hc i _ hi htask
  · obtain ⟨th₀, p', hi₀, hgoes, hnew⟩ := hstep.op_inv
    cases Option.some.inj (hi.symm.trans hi₀)
    cases Option.some.inj (hi'.symm.trans hnew)
    have hth := hc i th hi htask
    obtain ⟨hev, huses⟩ := hth.uses.goes hgoes
    obtain ⟨hpos, hrest⟩ := hth.within.goes hgoes
    refine ⟨?_, ?_, huses, ?_⟩
    · show th.past.length + 1 ≤ n
      omega
    · intro ev' hev'
      rcases List.mem_cons.1 hev' with rfl | hold
      · exact hev
      · exact hth.past ev' hold
    · exact hrest
  · have hth := hc i th hi htask
    have hret : sys.handler th.task = .ret out := by
      rw [show th.task = t from htask]
      exact hhandler
    refine ⟨hth.le, hth.past, ?_, ?_⟩
    · show (sys.handler th.task).Uses ok
      rw [hret]
      trivial
    · show (sys.handler th.task).Within _ True _
      rw [hret]
      trivial

end Concurrent
