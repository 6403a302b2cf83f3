import LatteRs.Concurrent.Pool

/-!
# Threads that run alone

What a program does when no other thread makes a step between its own: the
weakest precondition over the whole state, without locks to account for.

* `Solo`, `wpAlone`, `wpAlone_bind`, `wpAlone_mono`;
* `Alone i`, the steps of thread `i`;
* `wpAlone_run`: a thread that runs alone from a call to its return ends as its
  weakest precondition says.
-/

namespace Concurrent

variable {S : Signature} {sys : System S}

/-- What a thread that runs alone works on. -/
structure Solo (sys : System S) where
  past : Past S
  shared : sys.Shared
  world : sys.World

namespace Solo

/-- After an operation that is not an effect. -/
def saw (z : Solo sys) (ev : Event S) : Solo sys := { z with past := ev :: z.past }

/-- After an effect. -/
def did (z : Solo sys) (e : S.Effect) (r : S.Answer e) : Solo sys :=
  ⟨.did e r :: z.past, sys.write e r z.shared, sys.advance e r z.world⟩

end Solo

/-- Every way in which `p` runs alone, with events that `ok` allows, ends in `Q`, or in `A` where
`p` panics by itself. -/
def wpAlone (ok : Event S → Prop) (A : Solo sys → Prop) {α : Type} :
    Program S α → (Solo sys → α → Prop) → Solo sys → Prop
  | .ret a, Q, z => Q z a
  | .act e next, Q, z => ∀ r, sys.admits e z.shared z.world r → ok (.did e r) →
      wpAlone ok A (next r) Q (z.did e r)
  | .lock next, Q, z => wpAlone ok A next Q (z.saw .locked)
  | .tryLock next, Q, z => ∀ got, wpAlone ok A (next got) Q (z.saw (.triedLock got))
  | .unlock next, Q, z => wpAlone ok A next Q (z.saw .unlocked)
  | .fork t next, Q, z =>
      wpAlone ok A (next true) Q
        { z.saw (.forked t true) with shared := sys.forked t z.shared } ∧
      wpAlone ok A (next false) Q (z.saw (.forked t false))
  | .abort, _, z => A z

section
variable {ok : Event S → Prop} {A : Solo sys → Prop} {α β : Type}

theorem wpAlone_mono {p : Program S α} {Q Q' : Solo sys → α → Prop} (hQ : ∀ z a, Q z a → Q' z a)
    {z : Solo sys} (hp : wpAlone ok A p Q z) : wpAlone ok A p Q' z := by
  induction p generalizing z with
  | ret a => exact hQ z a hp
  | act e next ih => exact fun r hr hok => ih r (hp r hr hok)
  | lock next ih => exact ih hp
  | tryLock next ih => exact fun got => ih got (hp got)
  | unlock next ih => exact ih hp
  | fork t next ih => exact ⟨ih true hp.1, ih false hp.2⟩
  | abort => exact hp

/-- The rule for a sequence of two programs. -/
theorem wpAlone_bind {p : Program S α} {f : α → Program S β} {Q : Solo sys → β → Prop}
    {z : Solo sys} : wpAlone ok A (p >>= f) Q z ↔
      wpAlone ok A p (fun z' a => wpAlone ok A (f a) Q z') z := by
  induction p generalizing z with
  | ret a => exact Iff.rfl
  | act e next ih => simp only [Program.act_bind, wpAlone, ih]
  | lock next ih => simp only [Program.lock_bind, wpAlone, ih]
  | tryLock next ih => simp only [Program.tryLock_bind, wpAlone, ih]
  | unlock next ih => simp only [Program.unlock_bind, wpAlone, ih]
  | fork t next ih => simp only [Program.fork_bind, wpAlone, ih]
  | abort => exact Iff.rfl

end

/-! ### Runs of one thread -/

/-- A step of thread `i`, of which `ok` holds. -/
def Alone (ok : Event S → Prop) (i : ℕ) (_ : Config sys) (l : Label S) (_ : Config sys) : Prop :=
  l.thread = some i ∧ l.Sat ok

instance (ok : Event S → Prop) [DecidablePred ok] (i : ℕ) (c c' : Config sys) (l : Label S) :
    Decidable (Alone ok i c l c') := inferInstanceAs (Decidable (_ ∧ _))

/-- What thread `th` works on in a configuration. -/
def Config.solo (c : Config sys) (th : Thread S) : Solo sys := ⟨th.past, c.shared, c.world⟩

variable {ok : Event S → Prop} {A : Solo sys → Prop} {Q : Solo sys → S.Out → Prop} {t : S.Task}

/-- The program that a thread has left ends in `Q`. -/
def EndsIn (ok : Event S → Prop) (A : Solo sys → Prop) (Q : Solo sys → S.Out → Prop)
    (c : Config sys) (th : Thread S) : Prop :=
  (th.dead = false → wpAlone ok A th.prog Q (c.solo th)) ∧
    (th.dead = true → wpAlone ok (fun _ => True) th.prog Q (c.solo th))

/-- A step of a thread that runs alone. -/
theorem endsIn_step (hsafe : ¬ sys.mayPanic t)
    (hhandler : ∀ z, A z → wpAlone ok (fun _ => True) (sys.handler t) Q z)
    {c c' : Config sys} {l : Label S} {i : ℕ} (hstep : Step c l c') (hl : Alone ok i c l c')
    {th : Thread S} (hi : c.threads[i]? = some th) (ht : th.task = t)
    (hth : EndsIn ok A Q c th) :
    ∃ th', c'.threads[i]? = some th' ∧ th'.task = t ∧ EndsIn ok A Q c' th' := by
  obtain ⟨hthread, hok⟩ := hl
  cases l with
  | call t' => cases hthread
  | op j ev =>
    cases hthread
    obtain ⟨th₀, p, hj, hgoes, hi'⟩ := hstep.op_inv
    cases Option.some.inj (hi.symm.trans hj)
    have hsolo : c'.solo (th.did ev p) = ⟨ev :: th.past, sys.after (.op i ev) c.shared,
        sys.afterWorld (.op i ev) c.world⟩ := by
      unfold Config.solo
      rw [hstep.shared, hstep.world]
      rfl
    -- whatever a panic has to establish, the rest of the program still ends in `Q`
    have hnext : ∀ A' : Solo sys → Prop, wpAlone ok A' th.prog Q (c.solo th) →
        wpAlone ok A' p Q (c'.solo (th.did ev p)) := by
      intro A' h
      rw [hsolo]
      generalize th.prog = q at h hgoes
      cases hgoes with
      | act e next r hr => exact h r hr hok
      | lock next => exact h
      | tryLock next got => exact h got
      | unlock next => exact h
      | fork t' next started =>
        cases started with
        | true => exact h.1
        | false => exact h.2
    exact ⟨_, hi', ht, fun hd => hnext A (hth.1 hd), fun hd => hnext _ (hth.2 hd)⟩
  | panic j =>
    cases hthread
    cases hstep with
    | @panic _ th₀ hj hlive hrun hp =>
      cases Option.some.inj (hi.symm.trans hj)
      refine ⟨_, Config.set_threads_self hi _, ht, ⟨fun hd => Bool.noConfusion hd, fun _ => ?_⟩⟩
      rcases hp with hp | hp
      · have habort := hth.1 hlive
        rw [hp] at habort
        show wpAlone ok _ (sys.handler th.task) Q _
        rw [ht]
        exact hhandler _ habort
      · exact absurd (ht ▸ hp) hsafe

/-- **A call that runs alone to its return ends as its weakest precondition says.** -/
theorem wpAlone_run (hsafe : ¬ sys.mayPanic t)
    (hhandler : ∀ z, A z → wpAlone ok (fun _ => True) (sys.handler t) Q z)
    {c c' : Config sys} (hbody : wpAlone ok A (sys.body t) Q ⟨[], c.shared, c.world⟩)
    (hrun : Run (Alone ok c.threads.length) (c.spawn t) c') {th : Thread S}
    (hi : c'.threads[c.threads.length]? = some th) {out : S.Out} (hout : th.prog = .ret out) :
    Q (c'.solo th) out := by
  have hinv : ∃ th', c'.threads[c.threads.length]? = some th' ∧ th'.task = t ∧
      EndsIn ok A Q c' th' := by
    refine hrun.preserves (I := fun c' => ∃ th', c'.threads[c.threads.length]? = some th' ∧
      th'.task = t ∧ EndsIn ok A Q c' th') ?_ ?_
    · rintro c₁ l c₂ ⟨th₁, hi₁, ht, hth⟩ hstep hl
      exact endsIn_step hsafe hhandler hstep hl hi₁ ht hth
    · exact ⟨_, Config.spawn_threads.2 (Or.inr ⟨rfl, rfl⟩), rfl, fun _ => hbody,
        fun hd => Bool.noConfusion hd⟩
  obtain ⟨th', hi', -, hlive, hdead⟩ := hinv
  cases Option.some.inj (hi.symm.trans hi')
  cases hd : th.dead with
  | false =>
    have := hlive hd
    rw [hout] at this
    exact this
  | true =>
    have := hdead hd
    rw [hout] at this
    exact this

end Concurrent
