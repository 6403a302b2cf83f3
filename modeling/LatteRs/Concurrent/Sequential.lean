import LatteRs.Concurrent.Alone
import LatteRs.Concurrent.Contract
import LatteRs.Concurrent.Schedule

/-!
# Calls that run alone under one oracle

A program whose every question one oracle answers computes a result.  A call
that runs alone in a pool, with these answers, ends with that result and with
no other.

* `Surroundings`, `Program.exec`, `System.alone`;
* `exec_bind_of_some`, `exec_bind_of_none`;
* `Follows env i`, the steps of thread `i` under the oracle;
* `alone_iff`: the runs of a call are what `System.alone` computes.
-/

namespace Concurrent

variable {S : Signature} {sys : System S}

/-- The answers to effects, and whether threads can be started. -/
structure Surroundings (sys : System S) where
  oracle : Oracle sys
  starts : Bool

/-- After an attempt to start a thread. -/
def Solo.forked (z : Solo sys) (t : S.Task) (started : Bool) : Solo sys :=
  { z.saw (.forked t started) with
    shared := if started then sys.forked t z.shared else z.shared }

namespace Program

variable (env : Surroundings sys) {α β : Type}

/-- What `p` returns when it runs alone, `none` when it panics, and what it leaves. -/
def exec : Program S α → Solo sys → Option α × Solo sys
  | ret a, z => (some a, z)
  | act e next, z =>
    let r := env.oracle e z.shared z.world
    (next r).exec (z.did e r)
  | lock next, z => next.exec (z.saw .locked)
  | tryLock next, z => (next true).exec (z.saw (.triedLock true))
  | unlock next, z => next.exec (z.saw .unlocked)
  | fork t next, z => (next env.starts).exec (z.forked t env.starts)
  | abort, z => (none, z)

variable {env}

theorem exec_bind_of_some {p : Program S α} {f : α → Program S β} {z z' : Solo sys} {a : α}
    (h : p.exec env z = (some a, z')) : (p >>= f).exec env z = (f a).exec env z' := by
  induction p generalizing z with
  | ret a => cases h; rfl
  | act e next ih => exact ih _ h
  | lock next ih => exact ih h
  | tryLock next ih => exact ih true h
  | unlock next ih => exact ih h
  | fork t next ih => exact ih _ h
  | abort => cases h

theorem exec_bind_of_none {p : Program S α} {f : α → Program S β} {z z' : Solo sys}
    (h : p.exec env z = (none, z')) : (p >>= f).exec env z = (none, z') := by
  induction p generalizing z with
  | ret a => cases h
  | act e next ih => exact ih _ h
  | lock next ih => exact ih h
  | tryLock next ih => exact ih true h
  | unlock next ih => exact ih h
  | fork t next ih => exact ih _ h
  | abort => cases h; rfl

end Program

/-- What a call returns when it runs alone, `none` when the handler of a panic panics, and what
it leaves. -/
def System.alone (sys : System S) (env : Surroundings sys) (t : S.Task) (shared : sys.Shared)
    (world : sys.World) : Option S.Out × Solo sys :=
  match (sys.body t).exec env ⟨[], shared, world⟩ with
  | (some out, z) => (some out, z)
  | (none, z) => (sys.handler t).exec env z

theorem alone_of_some {env : Surroundings sys} {t : S.Task} {shared : sys.Shared}
    {world : sys.World} {out : S.Out} {z : Solo sys}
    (h : (sys.body t).exec env ⟨[], shared, world⟩ = (some out, z)) :
    sys.alone env t shared world = (some out, z) := by
  unfold System.alone
  rw [h]

theorem alone_of_none {env : Surroundings sys} {t : S.Task} {shared : sys.Shared}
    {world : sys.World} {z : Solo sys}
    (h : (sys.body t).exec env ⟨[], shared, world⟩ = (none, z)) :
    sys.alone env t shared world = (sys.handler t).exec env z := by
  unfold System.alone
  rw [h]

/-! ### Runs under the oracle -/

/-- A step of thread `i` that is answered by the oracle; it panics only by itself. -/
def Follows (env : Surroundings sys) (i : ℕ) (c : Config sys) : Label S → Config sys → Prop
  | .call _, _ => False
  | .op j (.did e r), _ => j = i ∧ r = env.oracle e c.shared c.world
  | .op j (.triedLock got), _ => j = i ∧ got = true
  | .op j (.forked _ started), _ => j = i ∧ started = env.starts
  | .op j _, _ => j = i
  | .panic j, _ => j = i ∧ ∀ th, c.threads[i]? = some th → th.prog = .abort

/-- What a thread is going to return and leave. -/
def Config.outcome (env : Surroundings sys) (c : Config sys) (th : Thread S) :
    Option S.Out × Solo sys :=
  match th.prog.exec env (c.solo th) with
  | (some out, z) => (some out, z)
  | (none, z) => if th.dead then (none, z) else (sys.handler th.task).exec env z

variable {env : Surroundings sys}

/-- A step under the oracle does not change what the thread is going to return and leave. -/
theorem outcome_step {c c' : Config sys} {l : Label S} {i : ℕ} {th : Thread S}
    (hstep : Step c l c') (hl : Follows env i c l c') (hi : c.threads[i]? = some th) :
    ∃ th', c'.threads[i]? = some th' ∧ c'.outcome env th' = c.outcome env th := by
  -- it is enough that the program that is left goes on with what its first operation left
  have goes : ∀ {ev : Event S} {p : Program S S.Out}, c'.threads[i]? = some (th.did ev p) →
      p.exec env (c'.solo (th.did ev p)) = th.prog.exec env (c.solo th) →
      ∃ th', c'.threads[i]? = some th' ∧ c'.outcome env th' = c.outcome env th := by
    intro ev p hi' hexec
    refine ⟨_, hi', ?_⟩
    unfold Config.outcome
    rw [show (th.did ev p).prog = p from rfl, hexec]
    rfl
  cases hstep with
  | call ht => exact hl.elim
  | @act j thj e next r hj hp hr =>
    obtain ⟨rfl, hr'⟩ := hl
    cases Option.some.inj (hi.symm.trans hj)
    refine goes (Config.set_threads_self hi _) ?_
    rw [hp, hr']
    rfl
  | @lock j thj next hj hp hfree =>
    cases hl
    cases Option.some.inj (hi.symm.trans hj)
    refine goes (Config.set_threads_self hi _) ?_
    rw [hp]
    rfl
  | @tryLockFree j thj next hj hp hfree =>
    obtain ⟨rfl, -⟩ := hl
    cases Option.some.inj (hi.symm.trans hj)
    refine goes (Config.set_threads_self hi _) ?_
    rw [hp]
    rfl
  | tryLockHeld hj hp hheld => exact Bool.noConfusion hl.2
  | @unlock j thj next hj hp hmine =>
    cases hl
    cases Option.some.inj (hi.symm.trans hj)
    refine goes (Config.set_threads_self hi _) ?_
    rw [hp]
    rfl
  | @fork j thj t next hj hp =>
    obtain ⟨rfl, hstarts⟩ := hl
    cases Option.some.inj (hi.symm.trans hj)
    refine goes (Config.spawn_threads.2 (Or.inl (Config.set_threads_self hi _))) ?_
    rw [hp]
    simp only [Program.exec, ← hstarts]
    rfl
  | @forkFail j thj t next hj hp =>
    obtain ⟨rfl, hstarts⟩ := hl
    cases Option.some.inj (hi.symm.trans hj)
    refine goes (Config.set_threads_self hi _) ?_
    rw [hp]
    simp only [Program.exec, ← hstarts]
    rfl
  | @panic j thj hj hlive hrun hp =>
    obtain ⟨rfl, habort⟩ := hl
    cases Option.some.inj (hi.symm.trans hj)
    refine ⟨_, Config.set_threads_self hi _, ?_⟩
    unfold Config.outcome
    rw [habort th hi, hlive]
    simp only [Program.exec, Bool.false_eq_true, if_false, if_true]
    have hsolo : ∀ holder, Config.solo
        { c.set j { th with prog := sys.handler th.task, dead := true } with holder := holder }
        { th with prog := sys.handler th.task, dead := true } = c.solo th := fun _ => rfl
    rw [hsolo]
    rcases (sys.handler th.task).exec env (c.solo th) with ⟨_ | out, z⟩ <;> rfl

/-- Where a thread that follows the oracle gets to. -/
structure Reached (env : Surroundings sys) (i : ℕ) (c : Config sys) (th : Thread S)
    (c' : Config sys) (th' : Thread S) : Prop where
  run : Run (Follows env i) c c'
  thread : c'.threads[i]? = some th'
  task : th'.task = th.task
  dead : th'.dead = th.dead
  holder : c'.holder = none ∨ c'.holder = some i
  solo : c'.solo th' = (th.prog.exec env (c.solo th)).2
  returned : ∀ a, (th.prog.exec env (c.solo th)).1 = some a → th'.prog = .ret a
  panicked : (th.prog.exec env (c.solo th)).1 = none → th'.prog = .abort

/-- One step more at the front. -/
theorem Reached.head {i : ℕ} {c c₁ c' : Config sys} {l : Label S} {th th' : Thread S} {ev : Event S}
    {p : Program S S.Out} (hstep : Step c l c₁) (hl : Follows env i c l c₁)
    (hexec : th.prog.exec env (c.solo th) = p.exec env (c₁.solo (th.did ev p)))
    (h : Reached env i c₁ (th.did ev p) c' th') : Reached env i c th c' th' where
  run := .head hstep hl h.run
  thread := h.thread
  task := h.task
  dead := h.dead
  holder := h.holder
  solo := by
    rw [hexec]
    exact h.solo
  returned := by
    rw [hexec]
    exact h.returned
  panicked := by
    rw [hexec]
    exact h.panicked

variable {k : Contract sys}

/-- A thread that waits for the lock does not hold it. -/
theorem not_holder_of_waits {c : Config sys} {i : ℕ} {th : Thread S} (hk : k.Kept c)
    (hi : c.threads[i]? = some th)
    (hp : (∃ next, th.prog = .lock next) ∨ ∃ next, th.prog = .tryLock next) :
    c.holder ≠ some i := by
  intro hmine
  have hth := hk.holds i th hi
  unfold Contract.Holds at hth
  rcases hp with ⟨next, hp⟩ | ⟨next, hp⟩
  · rw [hp, Contract.Config.known_eq_some.2 ⟨hmine, rfl⟩] at hth
    exact hth
  · rw [hp, Contract.Config.known_eq_some.2 ⟨hmine, rfl⟩] at hth
    exact hth

/-- A thread that releases the lock holds it. -/
theorem holder_of_releases {c : Config sys} {i : ℕ} {th : Thread S} {next : Program S S.Out}
    (hk : k.Kept c) (hi : c.threads[i]? = some th) (hp : th.prog = .unlock next) :
    c.holder = some i := by
  refine Decidable.byContradiction fun hmine => ?_
  have hth := hk.holds i th hi
  unfold Contract.Holds at hth
  rw [hp, Config.known, if_neg hmine] at hth
  exact hth

/-- A thread that keeps the contract can follow an oracle to the end. -/
theorem exists_reached (hs : k.Sound) (hadmits : ∀ e s w, sys.admits e s w (env.oracle e s w))
    {i : ℕ} (p : Program S S.Out) {c : Config sys} {th : Thread S} (hp : th.prog = p)
    (hk : k.Kept c) (hi : c.threads[i]? = some th) (hholder : c.holder = none ∨ c.holder = some i) :
    ∃ c' th', Reached env i c th c' th' := by
  induction p generalizing c th with
  | ret a =>
    refine ⟨c, th, .refl c, hi, rfl, rfl, hholder, ?_, ?_, ?_⟩ <;> simp [hp, Program.exec]
  | act e next ih =>
    have hstep : Step c _ _ := .act hi hp (hadmits e c.shared c.world)
    obtain ⟨c', th', h⟩ := ih _ rfl (hk.step hs hstep) (Config.set_threads_self hi _) hholder
    exact ⟨c', th', h.head hstep ⟨rfl, rfl⟩ (by rw [hp]; rfl)⟩
  | lock next ih =>
    have hfree := hholder.resolve_right (not_holder_of_waits hk hi (Or.inl ⟨next, hp⟩))
    have hstep : Step c _ _ := .lock hi hp hfree
    obtain ⟨c', th', h⟩ := ih rfl (hk.step hs hstep) (Config.set_threads_self hi _) (Or.inr rfl)
    exact ⟨c', th', h.head hstep rfl (by rw [hp]; rfl)⟩
  | tryLock next ih =>
    have hfree := hholder.resolve_right (not_holder_of_waits hk hi (Or.inr ⟨next, hp⟩))
    have hstep : Step c _ _ := .tryLockFree hi hp hfree
    obtain ⟨c', th', h⟩ :=
      ih true rfl (hk.step hs hstep) (Config.set_threads_self hi _) (Or.inr rfl)
    exact ⟨c', th', h.head hstep ⟨rfl, rfl⟩ (by rw [hp]; rfl)⟩
  | unlock next ih =>
    have hstep : Step c _ _ := .unlock hi hp (holder_of_releases hk hi hp)
    obtain ⟨c', th', h⟩ := ih rfl (hk.step hs hstep) (Config.set_threads_self hi _) (Or.inl rfl)
    exact ⟨c', th', h.head hstep rfl (by rw [hp]; rfl)⟩
  | fork t next ih =>
    cases hstarts : env.starts with
    | true =>
      have hstep : Step c _ _ := .fork hi hp
      obtain ⟨c', th', h⟩ := ih true rfl (hk.step hs hstep)
        (Config.spawn_threads.2 (Or.inl (Config.set_threads_self hi _))) hholder
      exact ⟨c', th', h.head hstep ⟨rfl, hstarts.symm⟩ (by rw [hp, Program.exec, hstarts]; rfl)⟩
    | false =>
      have hstep : Step c _ _ := .forkFail hi hp
      obtain ⟨c', th', h⟩ := ih false rfl (hk.step hs hstep) (Config.set_threads_self hi _) hholder
      exact ⟨c', th', h.head hstep ⟨rfl, hstarts.symm⟩ (by rw [hp, Program.exec, hstarts]; rfl)⟩
  | abort =>
    refine ⟨c, th, .refl c, hi, rfl, rfl, hholder, ?_, ?_, ?_⟩ <;> simp [hp, Program.exec]

/-- **A call that runs alone under an oracle ends as `System.alone` says, and can.** -/
theorem alone_iff (hs : k.Sound) (hadmits : ∀ e s w, sys.admits e s w (env.oracle e s w))
    {c : Config sys} (hk : k.Kept c) (hfree : c.holder = none) {t : S.Task} {out : S.Out}
    {z : Solo sys} :
    (∃ c' th', Run (Follows env c.threads.length) (c.spawn t) c' ∧
      c'.threads[c.threads.length]? = some th' ∧ th'.prog = .ret out ∧ c'.solo th' = z) ↔
      sys.alone env t c.shared c.world = (some out, z) := by
  have hi : (c.spawn t).threads[c.threads.length]? = some (sys.fresh t) :=
    Config.spawn_threads.2 (Or.inr ⟨rfl, rfl⟩)
  have houtcome : (c.spawn t).outcome env (sys.fresh t) = sys.alone env t c.shared c.world := rfl
  constructor
  · rintro ⟨c', th', hrun, hi', hret, rfl⟩
    obtain ⟨th'', hi'', hsame⟩ : ∃ th'', c'.threads[c.threads.length]? = some th'' ∧
        c'.outcome env th'' = sys.alone env t c.shared c.world := by
      refine hrun.preserves (I := fun c' => ∃ th'', c'.threads[c.threads.length]? = some th'' ∧
        c'.outcome env th'' = sys.alone env t c.shared c.world) ?_ ⟨_, hi, houtcome⟩
      rintro c₁ l c₂ ⟨th₁, hi₁, h₁⟩ hstep hl
      obtain ⟨th₂, hi₂, h₂⟩ := outcome_step hstep hl hi₁
      exact ⟨th₂, hi₂, h₂.trans h₁⟩
    cases Option.some.inj (hi'.symm.trans hi'')
    rw [← hsame]
    unfold Config.outcome
    rw [hret]
    rfl
  · intro halone
    obtain ⟨c₁, th₁, h₁⟩ := exists_reached hs hadmits _ rfl (hk.spawn hs t) hi (Or.inl hfree)
    have hstart : (c.spawn t).solo (sys.fresh t) = ⟨[], c.shared, c.world⟩ := rfl
    have hbody : (sys.fresh t).prog = sys.body t := rfl
    rw [← houtcome] at halone
    unfold Config.outcome at halone
    rcases hexec : (sys.fresh t).prog.exec env ((c.spawn t).solo (sys.fresh t)) with ⟨_ | a, z₁⟩
    · -- the body panics: the thread unwinds, and the handler ends the call
      have hsolo := h₁.solo
      have habort := h₁.panicked (by rw [hexec])
      rw [hexec] at halone hsolo
      simp only [Bool.false_eq_true, if_false, System.fresh] at halone
      have hk₁ : k.Kept c₁ := (hk.spawn hs t).run hs h₁.run
      have hlive : th₁.dead = false := h₁.dead
      have hstep : Step c₁ _ _ := .panic h₁.thread hlive (by rw [habort]; rfl) (Or.inl habort)
      obtain ⟨c₂, th₂, h₂⟩ := exists_reached hs hadmits _ rfl (hk₁.step hs hstep)
        (Config.set_threads_self h₁.thread _) (by
          rcases h₁.holder with hnone | hmine
          · exact Or.inl (by simp [hnone])
          · exact Or.inl (by simp [hmine]))
      have hz : z₁ = c₁.solo th₁ := hsolo.symm
      have htask : th₁.task = t := h₁.task
      have hexec₂ : (sys.handler th₁.task).exec env (c₁.solo th₁) = (some out, z) := by
        rw [htask, ← hz]
        exact halone
      refine ⟨c₂, th₂, (h₁.run.tail hstep ⟨rfl, ?_⟩).trans h₂.run, h₂.thread,
        h₂.returned out (congrArg Prod.fst hexec₂),
        h₂.solo.trans (congrArg Prod.snd hexec₂)⟩
      intro th hth
      cases Option.some.inj (h₁.thread.symm.trans hth)
      exact habort
    · rw [hexec] at halone
      cases halone
      exact ⟨c₁, th₁, h₁.run, h₁.thread, h₁.returned _ (by rw [hexec]),
        h₁.solo.trans (by rw [hexec])⟩

end Concurrent
