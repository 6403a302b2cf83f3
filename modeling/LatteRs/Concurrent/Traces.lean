import LatteRs.Concurrent.Pool

/-!
# Habits

What can be said of the operations of a thread from its own events alone,
whatever the others do and whatever the shared state is: which operation it
performs after which past, and what its past is when it panics by itself or
returns.

* `Habits`, `traced`, `traced_bind`, `traced_mono`;
* `Program.Uses`: a program all of whose operations are of one kind;
* `Habits.Sound`, and then `Habits.Kept.step`: every step of every thread is
  according to its habits, which `Habits.Kept.does`, `Habits.Kept.past_cases`,
  `Habits.Kept.aborts` and `Habits.Kept.returns` read off.
-/

namespace Concurrent

variable {S : Signature}

/-- What the threads of a signature do. -/
structure Habits (S : Signature) where
  /-- A thread with the given task and past may perform the operation. -/
  Does : S.Task → Past S → Event S → Prop
  /-- Such a thread may panic by itself. -/
  Aborts : S.Task → Past S → Prop
  /-- Such a thread may return. -/
  Returns : S.Task → Past S → S.Out → Prop

variable (k : Habits S)

/-- Program `p` of a thread that runs `t`, after the past that is the last argument, has the
habits and ends in `Q`. -/
def traced {α : Type} (t : S.Task) : Program S α → (Past S → α → Prop) → Past S → Prop
  | .ret a, Q, h => Q h a
  | .act e next, Q, h => ∀ r, k.Does t h (.did e r) ∧ traced t (next r) Q (.did e r :: h)
  | .lock next, Q, h => k.Does t h .locked ∧ traced t next Q (.locked :: h)
  | .tryLock next, Q, h => ∀ got,
      k.Does t h (.triedLock got) ∧ traced t (next got) Q (.triedLock got :: h)
  | .unlock next, Q, h => k.Does t h .unlocked ∧ traced t next Q (.unlocked :: h)
  | .fork c next, Q, h => ∀ started,
      k.Does t h (.forked c started) ∧ traced t (next started) Q (.forked c started :: h)
  | .abort, _, h => k.Aborts t h

section
variable {k}
variable {α β : Type} {t : S.Task}

theorem traced_mono {p : Program S α} {Q Q' : Past S → α → Prop} (hQ : ∀ h a, Q h a → Q' h a)
    {h : Past S} (hp : traced k t p Q h) : traced k t p Q' h := by
  induction p generalizing h with
  | ret a => exact hQ h a hp
  | act e next ih => exact fun r => ⟨(hp r).1, ih r (hp r).2⟩
  | lock next ih => exact ⟨hp.1, ih hp.2⟩
  | tryLock next ih => exact fun got => ⟨(hp got).1, ih got (hp got).2⟩
  | unlock next ih => exact ⟨hp.1, ih hp.2⟩
  | fork c next ih => exact fun started => ⟨(hp started).1, ih started (hp started).2⟩
  | abort => exact hp

/-- The rule for a sequence of two programs. -/
theorem traced_bind {p : Program S α} {f : α → Program S β} {Q : Past S → β → Prop}
    {h : Past S} :
    traced k t (p >>= f) Q h ↔ traced k t p (fun h' a => traced k t (f a) Q h') h := by
  induction p generalizing h with
  | ret a => exact Iff.rfl
  | act e next ih => simp only [Program.act_bind, traced, ih]
  | lock next ih => simp only [Program.lock_bind, traced, ih]
  | tryLock next ih => simp only [Program.tryLock_bind, traced, ih]
  | unlock next ih => simp only [Program.unlock_bind, traced, ih]
  | fork c next ih => simp only [Program.fork_bind, traced, ih]
  | abort => exact Iff.rfl

/-- What a thread does next and is left with, when its program has the habits. -/
theorem traced_goes {p p' : Program S α} {Q : Past S → α → Prop} {h : Past S} {ev : Event S}
    {admits : (e : S.Effect) → S.Answer e → Prop} (hp : traced k t p Q h)
    (hgoes : p.Goes admits ev p') : k.Does t h ev ∧ traced k t p' Q (ev :: h) := by
  cases hgoes with
  | act e next r _ => exact hp r
  | lock next => exact hp
  | tryLock next got => exact hp got
  | unlock next => exact hp
  | fork c next started => exact hp started

end

/-! ### Operations of one kind -/

namespace Program

variable {α β : Type} {ok : Event S → Prop}

/-- All operations of the program satisfy `ok`. -/
def Uses (ok : Event S → Prop) : Program S α → Prop
  | ret _ => True
  | act e next => ∀ r, ok (.did e r) ∧ (next r).Uses ok
  | lock next => ok .locked ∧ next.Uses ok
  | tryLock next => ∀ got, ok (.triedLock got) ∧ (next got).Uses ok
  | unlock next => ok .unlocked ∧ next.Uses ok
  | fork c next => ∀ started, ok (.forked c started) ∧ (next started).Uses ok
  | abort => True

theorem uses_bind {p : Program S α} {f : α → Program S β} (hp : p.Uses ok)
    (hf : ∀ a, (f a).Uses ok) : (p >>= f).Uses ok := by
  induction p with
  | ret a => exact hf a
  | act e next ih => exact fun r => ⟨(hp r).1, ih r (hp r).2⟩
  | lock next ih => exact ⟨hp.1, ih hp.2⟩
  | tryLock next ih => exact fun got => ⟨(hp got).1, ih got (hp got).2⟩
  | unlock next ih => exact ⟨hp.1, ih hp.2⟩
  | fork c next ih => exact fun started => ⟨(hp started).1, ih started (hp started).2⟩
  | abort => trivial

theorem Uses.mono {ok' : Event S → Prop} (hok : ∀ ev, ok ev → ok' ev) {p : Program S α}
    (hp : p.Uses ok) : p.Uses ok' := by
  induction p with
  | ret a => trivial
  | act e next ih => exact fun r => ⟨hok _ (hp r).1, ih r (hp r).2⟩
  | lock next ih => exact ⟨hok _ hp.1, ih hp.2⟩
  | tryLock next ih => exact fun got => ⟨hok _ (hp got).1, ih got (hp got).2⟩
  | unlock next ih => exact ⟨hok _ hp.1, ih hp.2⟩
  | fork c next ih => exact fun started => ⟨hok _ (hp started).1, ih started (hp started).2⟩
  | abort => trivial

/-- An operation of the program satisfies `ok`, and so do those after it. -/
theorem Uses.goes {admits : (e : S.Effect) → S.Answer e → Prop} {p p' : Program S α}
    {ev : Event S} (hp : p.Uses ok) (h : p.Goes admits ev p') : ok ev ∧ p'.Uses ok := by
  cases h with
  | act e next r _ => exact hp r
  | lock next => exact hp
  | tryLock next got => exact hp got
  | unlock next => exact hp
  | fork c next started => exact hp started

/-- Nothing is asked of the operations. -/
theorem uses_true (p : Program S α) : p.Uses fun _ => True := by
  induction p with
  | ret a => trivial
  | act e next ih => exact fun r => ⟨trivial, ih r⟩
  | lock next ih => exact ⟨trivial, ih⟩
  | tryLock next ih => exact fun got => ⟨trivial, ih got⟩
  | unlock next ih => exact ⟨trivial, ih⟩
  | fork c next ih => exact fun started => ⟨trivial, ih started⟩
  | abort => trivial

end Program

/-- A program whose operations a thread may perform after any past. -/
theorem traced_of_uses {k : Habits S} {α : Type} {t : S.Task} {ok : Event S → Prop}
    (hok : ∀ h ev, ok ev → k.Does t h ev) (habort : ∀ h, k.Aborts t h) {p : Program S α}
    (hp : p.Uses ok) {Q : Past S → α → Prop} (hQ : ∀ h a, Q h a) (h : Past S) :
    traced k t p Q h := by
  induction p generalizing h with
  | ret a => exact hQ h a
  | act e next ih => exact fun r => ⟨hok h _ (hp r).1, ih r (hp r).2 _⟩
  | lock next ih => exact ⟨hok h _ hp.1, ih hp.2 _⟩
  | tryLock next ih => exact fun got => ⟨hok h _ (hp got).1, ih got (hp got).2 _⟩
  | unlock next ih => exact ⟨hok h _ hp.1, ih hp.2 _⟩
  | fork c next ih => exact fun started => ⟨hok h _ (hp started).1, ih started (hp started).2 _⟩
  | abort => exact habort h

/-! ### Soundness -/

namespace Habits

variable {k} {sys : System S}

/-- The thread has the habits to its end. -/
def Holds (k : Habits S) (th : Thread S) : Prop :=
  traced k th.task th.prog (k.Returns th.task) th.past

/-- Every task has the habits. -/
structure Sound (k : Habits S) (sys : System S) : Prop where
  body : ∀ t, k.Holds (sys.fresh t)
  handler : ∀ t h, sys.mayPanic t ∨ k.Aborts t h → k.Holds ⟨t, h, sys.handler t, true⟩

/-- Every thread of the configuration has the habits from here on. -/
def Kept (k : Habits S) (c : Config sys) : Prop :=
  ∀ (i : ℕ) (th : Thread S), c.threads[i]? = some th → k.Holds th

theorem Kept.init (shared : sys.Shared) (world : sys.World) :
    k.Kept (Config.init shared world) := by
  intro i th hi
  cases hi

/-- **Every step of every thread is according to the habits.** -/
theorem Kept.step {c c' : Config sys} {l : Label S} (hs : k.Sound sys) (hk : k.Kept c)
    (hstep : Step c l c') : k.Kept c' := by
  intro i th' hi'
  rcases hstep.thread_cases hi' with ⟨t, -, rfl, -⟩ | ⟨th, hi, rfl | ⟨ev, p, rfl, rfl⟩ | ⟨rfl, rfl⟩⟩
  · exact hs.body t
  · exact hk i _ hi
  · obtain ⟨th₀, p', hi₀, hgoes, hnew⟩ := hstep.op_inv
    cases Option.some.inj (hi.symm.trans hi₀)
    cases Option.some.inj (hi'.symm.trans hnew)
    exact (traced_goes (hk i th hi) hgoes).2
  · refine hs.handler th.task th.past ?_
    cases hstep with
    | panic hi₀ hlive hrun hp =>
      cases Option.some.inj (hi.symm.trans hi₀)
      refine hp.symm.imp_right fun habort => ?_
      have hth := hk i th hi
      unfold Holds at hth
      rwa [habort] at hth

theorem Kept.run {P : Config sys → Label S → Config sys → Prop} {c c' : Config sys}
    (hs : k.Sound sys) (hk : k.Kept c) (hrun : Run P c c') : k.Kept c' :=
  hrun.preserves (fun _ _ _ hk hstep _ => hk.step hs hstep) hk

/-- What a thread that performs an operation was in a position to do. -/
theorem Kept.does {c c' : Config sys} {i : ℕ} {ev : Event S} (hk : k.Kept c)
    (hstep : Step c (.op i ev) c') :
    ∃ th, c.threads[i]? = some th ∧ k.Does th.task th.past ev := by
  obtain ⟨th, p, hi, hgoes, -⟩ := hstep.op_inv
  exact ⟨th, hi, (traced_goes (hk i th hi) hgoes).1⟩

theorem Kept.aborts {c : Config sys} {i : ℕ} {th : Thread S} (hk : k.Kept c)
    (hi : c.threads[i]? = some th) (hp : th.prog = .abort) : k.Aborts th.task th.past := by
  have hth := hk i th hi
  unfold Holds at hth
  rwa [hp] at hth

/-- Threads that may not panic do not. -/
theorem Kept.ne_panic {c c' : Config sys} {l : Label S} (hk : k.Kept c)
    (haborts : ∀ t h, ¬ k.Aborts t h) (hmay : ∀ t, ¬ sys.mayPanic t) (hstep : Step c l c')
    (i : ℕ) : l ≠ .panic i := by
  rintro rfl
  cases hstep with
  | panic hi hlive hrun hp =>
    rcases hp with habort | hpanic
    · exact haborts _ _ (hk.aborts hi habort)
    · exact hmay _ hpanic

/-- Where the past of a thread comes from, if the step is not a panic. -/
theorem Kept.past_cases {c c' : Config sys} {l : Label S} (hk : k.Kept c) (hstep : Step c l c')
    (hl : ∀ j, l ≠ .panic j) {i : ℕ} {th' : Thread S} (hi' : c'.threads[i]? = some th') :
    th'.past = [] ∨ (c.threads[i]? = some th' ∧ l.thread ≠ some i) ∨
      ∃ th ev, l = .op i ev ∧ c.threads[i]? = some th ∧ th'.task = th.task ∧
        th'.past = ev :: th.past ∧ k.Does th.task th.past ev := by
  by_cases hthread : l.thread = some i
  · cases l with
    | call t => cases hthread
    | panic j => exact absurd rfl (hl j)
    | op j ev =>
      cases hthread
      obtain ⟨th, p, hi, hgoes, hnew⟩ := hstep.op_inv
      cases Option.some.inj (hi'.symm.trans hnew)
      exact Or.inr (Or.inr ⟨th, ev, rfl, hi, rfl, rfl, (traced_goes (hk i th hi) hgoes).1⟩)
  · rcases hstep.thread_cases hi' with ⟨t, -, rfl, -⟩ | ⟨th, hi, rfl | ⟨ev, p, rfl, -⟩ | ⟨rfl, -⟩⟩
    · exact Or.inl rfl
    · exact Or.inr (Or.inl ⟨hi, hthread⟩)
    · exact absurd rfl hthread
    · exact absurd rfl hthread

theorem Kept.returns {c : Config sys} {i : ℕ} {th : Thread S} {out : S.Out} (hk : k.Kept c)
    (hi : c.threads[i]? = some th) (hret : th.prog.result? = some out) :
    k.Returns th.task th.past out := by
  have hth := hk i th hi
  unfold Holds at hth
  rwa [Program.result?_eq_some.1 hret] at hth

end Habits

end Concurrent
