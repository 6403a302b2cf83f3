import LatteRs.Concurrent.Program

/-!
# Pools of threads

The interleaving semantics of programs: a configuration is a shared state, the
state of the world outside, the holder of the lock and the threads, and a step
is one operation of one thread.  Anyone may start a callable task at any time.
A panic releases the lock and runs the task's handler, as unwinding does.

* `System`, `Thread`, `Config`, `Label`, `Step`;
* `Step.op_inv`, `Step.shared`, `Step.thread_cases`: what a step does;
* `Run P`, the runs all of whose steps satisfy `P`, and `Run.preserves`, the
  induction over them.
-/

namespace Concurrent

/-- What the programs of a signature run on. -/
structure System (S : Signature) where
  /-- The state that the threads share. -/
  Shared : Type
  /-- Everything else that answers may depend on. -/
  World : Type
  /-- The answers an effect may get. -/
  admits : (e : S.Effect) → Shared → World → S.Answer e → Prop
  write : (e : S.Effect) → S.Answer e → Shared → Shared
  advance : (e : S.Effect) → S.Answer e → World → World
  /-- What the shared state records of a thread that was started by another one. -/
  forked : S.Task → Shared → Shared
  body : S.Task → Program S S.Out
  /-- What a thread runs while it unwinds from a panic. -/
  handler : S.Task → Program S S.Out
  /-- The tasks that may be called from outside. -/
  callable : S.Task → Prop
  /-- The tasks that may panic at any point. -/
  mayPanic : S.Task → Prop

variable {S : Signature}

/-- A thread: its task, its events so far and what it has left to do. -/
structure Thread (S : Signature) where
  task : S.Task
  past : Past S
  prog : Program S S.Out
  dead : Bool

/-- A thread that has not done anything yet. -/
def System.fresh (sys : System S) (t : S.Task) : Thread S := ⟨t, [], sys.body t, false⟩

/-- A configuration. -/
structure Config (sys : System S) where
  shared : sys.Shared
  world : sys.World
  holder : Option ℕ
  /-- The threads in the order in which they were started, the finished ones included. -/
  threads : List (Thread S)

variable {sys : System S}

namespace Config

/-- A configuration without threads. -/
def init (shared : sys.Shared) (world : sys.World) : Config sys := ⟨shared, world, none, []⟩

/-- The configuration with `th` as thread `i`. -/
def set (c : Config sys) (i : ℕ) (th : Thread S) : Config sys :=
  { c with threads := c.threads.set i th }

/-- The configuration with one more thread. -/
def spawn (c : Config sys) (t : S.Task) : Config sys :=
  { c with threads := c.threads ++ [sys.fresh t] }

@[simp] theorem set_holder (c : Config sys) (i : ℕ) (th : Thread S) :
    (c.set i th).holder = c.holder := rfl

theorem set_threads_self {c : Config sys} {i : ℕ} {th : Thread S} (hi : c.threads[i]? = some th)
    (th' : Thread S) : (c.set i th').threads[i]? = some th' := by
  obtain ⟨hlt, -⟩ := List.getElem?_eq_some_iff.1 hi
  unfold set
  rw [List.getElem?_set_self hlt]

theorem set_threads_of_ne (c : Config sys) {i j : ℕ} (th : Thread S) (h : j ≠ i) :
    (c.set i th).threads[j]? = c.threads[j]? := by
  unfold set
  rw [List.getElem?_set_ne (Ne.symm h)]

/-- The threads after thread `i` was replaced. -/
theorem set_threads {c : Config sys} {i : ℕ} {th : Thread S} (hi : c.threads[i]? = some th)
    {th' x : Thread S} {j : ℕ} : (c.set i th').threads[j]? = some x ↔
      j = i ∧ x = th' ∨ j ≠ i ∧ c.threads[j]? = some x := by
  by_cases hji : j = i
  · subst hji
    rw [set_threads_self hi]
    simp [eq_comm]
  · rw [c.set_threads_of_ne _ hji]
    simp [hji]

/-- The threads after one more was started. -/
theorem spawn_threads {c : Config sys} {t : S.Task} {j : ℕ} {th : Thread S} :
    (c.spawn t).threads[j]? = some th ↔
      c.threads[j]? = some th ∨ j = c.threads.length ∧ th = sys.fresh t := by
  unfold spawn
  rcases Nat.lt_trichotomy j c.threads.length with h | h | h
  · simp [List.getElem?_append_left h, Nat.ne_of_lt h]
  · subst h
    simp [eq_comm]
  · have hnone : c.threads[j]? = none := List.getElem?_eq_none (Nat.le_of_lt h)
    have hnone' : (c.threads ++ [sys.fresh t])[j]? = none :=
      List.getElem?_eq_none (by simp; omega)
    rw [hnone, hnone']
    simp [Nat.ne_of_gt h]

/-- What thread `i` returned, once it has nothing left to do. -/
def returned (c : Config sys) (i : ℕ) : Option S.Out := c.threads[i]?.bind (·.prog.result?)

end Config

/-- What a step was: a call from outside, an operation of thread `i`, or its panic. -/
inductive Label (S : Signature)
  | call (task : S.Task)
  | op (i : ℕ) (event : Event S)
  | panic (i : ℕ)

/-- The thread that made the step. -/
def Label.thread : Label S → Option ℕ
  | .call _ => none
  | .op i _ => some i
  | .panic i => some i

/-- The operation of the step, if it was one, satisfies `ok`. -/
def Label.Sat (ok : Event S → Prop) : Label S → Prop
  | .op _ ev => ok ev
  | _ => True

theorem Label.Sat.imp {ok ok' : Event S → Prop} {l : Label S} (h : l.Sat ok)
    (himp : ∀ ev, ok ev → ok' ev) : l.Sat ok' := by
  cases l with
  | op i ev => exact himp ev h
  | _ => trivial

instance (ok : Event S → Prop) [DecidablePred ok] (l : Label S) : Decidable (l.Sat ok) := by
  cases l <;> unfold Label.Sat <;> infer_instance

/-- The thread after one of its operations. -/
def Thread.did (th : Thread S) (event : Event S) (prog : Program S S.Out) : Thread S :=
  { th with past := event :: th.past, prog := prog }

/-- One step of one thread, or a call from outside. -/
inductive Step : Config sys → Label S → Config sys → Prop
  | call {c : Config sys} {t : S.Task} (ht : sys.callable t) : Step c (.call t) (c.spawn t)
  | act {c : Config sys} {i : ℕ} {th : Thread S} {e : S.Effect}
      {next : S.Answer e → Program S S.Out} {r : S.Answer e} (hi : c.threads[i]? = some th)
      (hp : th.prog = .act e next) (hr : sys.admits e c.shared c.world r) :
      Step c (.op i (.did e r))
        { c.set i (th.did (.did e r) (next r)) with
          shared := sys.write e r c.shared
          world := sys.advance e r c.world }
  | lock {c : Config sys} {i : ℕ} {th : Thread S} {next : Program S S.Out}
      (hi : c.threads[i]? = some th) (hp : th.prog = .lock next) (hfree : c.holder = none) :
      Step c (.op i .locked) { c.set i (th.did .locked next) with holder := some i }
  | tryLockFree {c : Config sys} {i : ℕ} {th : Thread S} {next : Bool → Program S S.Out}
      (hi : c.threads[i]? = some th) (hp : th.prog = .tryLock next) (hfree : c.holder = none) :
      Step c (.op i (.triedLock true))
        { c.set i (th.did (.triedLock true) (next true)) with holder := some i }
  | tryLockHeld {c : Config sys} {i : ℕ} {th : Thread S} {next : Bool → Program S S.Out}
      (hi : c.threads[i]? = some th) (hp : th.prog = .tryLock next) (hheld : c.holder ≠ none) :
      Step c (.op i (.triedLock false)) (c.set i (th.did (.triedLock false) (next false)))
  | unlock {c : Config sys} {i : ℕ} {th : Thread S} {next : Program S S.Out}
      (hi : c.threads[i]? = some th) (hp : th.prog = .unlock next) (hmine : c.holder = some i) :
      Step c (.op i .unlocked) { c.set i (th.did .unlocked next) with holder := none }
  | fork {c : Config sys} {i : ℕ} {th : Thread S} {t : S.Task}
      {next : Bool → Program S S.Out} (hi : c.threads[i]? = some th)
      (hp : th.prog = .fork t next) :
      Step c (.op i (.forked t true))
        { (c.set i (th.did (.forked t true) (next true))).spawn t with
          shared := sys.forked t c.shared }
  | forkFail {c : Config sys} {i : ℕ} {th : Thread S} {t : S.Task}
      {next : Bool → Program S S.Out} (hi : c.threads[i]? = some th)
      (hp : th.prog = .fork t next) :
      Step c (.op i (.forked t false)) (c.set i (th.did (.forked t false) (next false)))
  | panic {c : Config sys} {i : ℕ} {th : Thread S} (hi : c.threads[i]? = some th)
      (hlive : th.dead = false) (hrun : th.prog.result? = none)
      (hp : th.prog = .abort ∨ sys.mayPanic th.task) :
      Step c (.panic i)
        { c.set i { th with prog := sys.handler th.task, dead := true } with
          holder := if c.holder = some i then none else c.holder }

/-- A step in which thread `i` performs an effect. -/
theorem Step.did_inv {c c' : Config sys} {i : ℕ} {e : S.Effect} {r : S.Answer e}
    (h : Step c (.op i (.did e r)) c') : ∃ th next, c.threads[i]? = some th ∧
      th.prog = .act e next ∧ sys.admits e c.shared c.world r ∧
      c' = { c.set i (th.did (.did e r) (next r)) with
        shared := sys.write e r c.shared
        world := sys.advance e r c.world } := by
  cases h with
  | act hi hp hr => exact ⟨_, _, hi, hp, hr, rfl⟩

/-- A step in which thread `i` performs an operation. -/
theorem Step.op_inv {c c' : Config sys} {i : ℕ} {ev : Event S} (h : Step c (.op i ev) c') :
    ∃ th p, c.threads[i]? = some th ∧
      th.prog.Goes (fun e r => sys.admits e c.shared c.world r) ev p ∧
      c'.threads[i]? = some (th.did ev p) := by
  cases h with
  | @act _ th e next r hi hp hr =>
    exact ⟨th, next r, hi, hp ▸ .act e next r hr, Config.set_threads_self hi _⟩
  | @lock _ th next hi hp hfree =>
    exact ⟨th, next, hi, hp ▸ .lock next, Config.set_threads_self hi _⟩
  | @tryLockFree _ th next hi hp hfree =>
    exact ⟨th, next true, hi, hp ▸ .tryLock next true, Config.set_threads_self hi _⟩
  | @tryLockHeld _ th next hi hp hheld =>
    exact ⟨th, next false, hi, hp ▸ .tryLock next false, Config.set_threads_self hi _⟩
  | @unlock _ th next hi hp hmine =>
    exact ⟨th, next, hi, hp ▸ .unlock next, Config.set_threads_self hi _⟩
  | @fork _ th t next hi hp =>
    exact ⟨th, next true, hi, hp ▸ .fork t next true,
      Config.spawn_threads.2 (Or.inl (Config.set_threads_self hi _))⟩
  | @forkFail _ th t next hi hp =>
    exact ⟨th, next false, hi, hp ▸ .fork t next false, Config.set_threads_self hi _⟩

/-- The shared state after a step. -/
def System.after (sys : System S) : Label S → sys.Shared → sys.Shared
  | .op _ (.did e r), s => sys.write e r s
  | .op _ (.forked t true), s => sys.forked t s
  | _, s => s

theorem Step.shared {c c' : Config sys} {l : Label S} (h : Step c l c') :
    c'.shared = sys.after l c.shared := by
  cases h <;> rfl

/-- The world after a step. -/
def System.afterWorld (sys : System S) : Label S → sys.World → sys.World
  | .op _ (.did e r), w => sys.advance e r w
  | _, w => w

theorem Step.world {c c' : Config sys} {l : Label S} (h : Step c l c') :
    c'.world = sys.afterWorld l c.world := by
  cases h <;> rfl

/-- What a step leaves of thread `i`: a new thread, the thread as it was, after one operation, or
unwinding from a panic. -/
def ThreadStep (c : Config sys) (l : Label S) (i : ℕ) (th' : Thread S) : Prop :=
  (∃ t, i = c.threads.length ∧ th' = sys.fresh t ∧
      (l = .call t ∧ sys.callable t ∨ ∃ j, l = .op j (.forked t true))) ∨
    ∃ th, c.threads[i]? = some th ∧
      (th' = th ∨ (∃ ev p, l = .op i ev ∧ th' = th.did ev p) ∨
        l = .panic i ∧ th' = { th with prog := sys.handler th.task, dead := true })

theorem Step.thread_cases {c c' : Config sys} {l : Label S} (h : Step c l c') {i : ℕ}
    {th' : Thread S} (hi' : c'.threads[i]? = some th') : ThreadStep c l i th' := by
  -- all steps but a call and a fork replace one thread
  have replaced : ∀ {j : ℕ} {th : Thread S} {x : Thread S}, c.threads[j]? = some th →
      (c.set j x).threads[i]? = some th' →
      ((∃ ev p, l = .op j ev ∧ x = th.did ev p) ∨
        l = .panic j ∧ x = { th with prog := sys.handler th.task, dead := true }) →
      ThreadStep c l i th' := by
    intro j th x hj hset hx
    rcases (Config.set_threads hj).1 hset with ⟨rfl, rfl⟩ | ⟨-, hold⟩
    · exact Or.inr ⟨th, hj, Or.inr hx⟩
    · exact Or.inr ⟨th', hold, Or.inl rfl⟩
  cases h with
  | @call t ht =>
    rcases Config.spawn_threads.1 hi' with hold | ⟨hlen, hfresh⟩
    · exact Or.inr ⟨th', hold, Or.inl rfl⟩
    · exact Or.inl ⟨t, hlen, hfresh, Or.inl ⟨rfl, ht⟩⟩
  | act hj hp hr => exact replaced hj hi' (Or.inl ⟨_, _, rfl, rfl⟩)
  | lock hj hp hfree => exact replaced hj hi' (Or.inl ⟨_, _, rfl, rfl⟩)
  | tryLockFree hj hp hfree => exact replaced hj hi' (Or.inl ⟨_, _, rfl, rfl⟩)
  | tryLockHeld hj hp hheld => exact replaced hj hi' (Or.inl ⟨_, _, rfl, rfl⟩)
  | unlock hj hp hmine => exact replaced hj hi' (Or.inl ⟨_, _, rfl, rfl⟩)
  | @fork j th t next hj hp =>
    rcases Config.spawn_threads.1 hi' with hold | ⟨hlen, hfresh⟩
    · exact replaced hj hold (Or.inl ⟨_, _, rfl, rfl⟩)
    · refine Or.inl ⟨t, ?_, hfresh, Or.inr ⟨j, rfl⟩⟩
      rw [hlen]
      exact List.length_set
  | forkFail hj hp => exact replaced hj hi' (Or.inl ⟨_, _, rfl, rfl⟩)
  | panic hj hlive hrun hp => exact replaced hj hi' (Or.inr ⟨rfl, rfl⟩)

/-- A thread that makes a step has not returned. -/
theorem Step.running {c c' : Config sys} {l : Label S} (h : Step c l c') {i : ℕ}
    {th : Thread S} (hl : l.thread = some i) (hi : c.threads[i]? = some th) :
    th.prog.result? = none := by
  cases l with
  | call t => cases hl
  | op j ev =>
    cases hl
    obtain ⟨th', p, hj, hgoes, -⟩ := h.op_inv
    cases Option.some.inj (hi.symm.trans hj)
    exact hgoes.result?
  | panic j =>
    cases hl
    cases h with
    | panic hj hlive hrun hp =>
      cases Option.some.inj (hi.symm.trans hj)
      exact hrun

/-- The thread that makes a step is there. -/
theorem Step.exists_thread {c c' : Config sys} {l : Label S} (h : Step c l c') {i : ℕ}
    (hl : l.thread = some i) : ∃ th, c.threads[i]? = some th := by
  cases l with
  | call t => cases hl
  | op j ev =>
    cases hl
    obtain ⟨th, -, hi, -, -⟩ := h.op_inv
    exact ⟨th, hi⟩
  | panic j =>
    cases hl
    cases h with
    | panic hi hlive hrun hp => exact ⟨_, hi⟩

/-- No thread is ever forgotten. -/
theorem Step.length_le {c c' : Config sys} {l : Label S} (h : Step c l c') :
    c.threads.length ≤ c'.threads.length := by
  cases h <;> simp [Config.set, Config.spawn]

/-- A thread keeps its place and its task, and remembers what it has done. -/
theorem Step.remembers {c c' : Config sys} {l : Label S} (h : Step c l c') {i : ℕ}
    {th : Thread S} (hi : c.threads[i]? = some th) :
    ∃ th', c'.threads[i]? = some th' ∧ th'.task = th.task ∧ th.past <:+ th'.past := by
  obtain ⟨hlt, -⟩ := List.getElem?_eq_some_iff.1 hi
  have hi' := List.getElem?_eq_getElem (Nat.lt_of_lt_of_le hlt h.length_le)
  refine ⟨_, hi', ?_⟩
  rcases h.thread_cases hi' with ⟨t, hlen, -⟩ | ⟨th₀, hi₀, heq⟩
  · omega
  · cases Option.some.inj (hi.symm.trans hi₀)
    rcases heq with heq | ⟨ev, p, -, heq⟩ | ⟨-, heq⟩ <;> rw [heq]
    · exact ⟨rfl, List.suffix_refl _⟩
    · exact ⟨rfl, List.suffix_cons _ _⟩
    · exact ⟨rfl, List.suffix_refl _⟩

theorem Step.persists {c c' : Config sys} {l : Label S} (h : Step c l c') {i : ℕ}
    {th : Thread S} (hi : c.threads[i]? = some th) :
    ∃ th', c'.threads[i]? = some th' ∧ th'.task = th.task := by
  obtain ⟨th', hi', htask, -⟩ := h.remembers hi
  exact ⟨th', hi', htask⟩

/-- Who holds the lock after a step held it before, or has just taken it. -/
theorem Step.holder_cases {c c' : Config sys} {l : Label S} (h : Step c l c') {i : ℕ}
    (hi : c'.holder = some i) :
    c.holder = some i ∧ l ≠ .panic i ∨ l = .op i .locked ∨ l = .op i (.triedLock true) := by
  cases h with
  | lock hj hp hfree =>
    cases hi
    exact Or.inr (Or.inl rfl)
  | tryLockFree hj hp hfree =>
    cases hi
    exact Or.inr (Or.inr rfl)
  | unlock hj hp hmine => cases hi
  | @panic j th hj hlive hrun hp =>
    by_cases hmine : c.holder = some j
    · simp [hmine] at hi
    · simp only [hmine, if_false] at hi
      refine Or.inl ⟨hi, ?_⟩
      rintro heq
      cases heq
      exact hmine hi
  | _ => exact Or.inl ⟨hi, by simp⟩

/-- The holder of the lock keeps it until it releases it or panics. -/
theorem Step.holder_keeps {c c' : Config sys} {l : Label S} (h : Step c l c') {i : ℕ}
    (hi : c.holder = some i) :
    c'.holder = some i ∨ l = .op i .unlocked ∨ l = .panic i := by
  cases h with
  | lock hj hp hfree =>
    rw [hfree] at hi
    cases hi
  | tryLockFree hj hp hfree =>
    rw [hfree] at hi
    cases hi
  | unlock hj hp hmine =>
    cases Option.some.inj (hi.symm.trans hmine)
    exact Or.inr (Or.inl rfl)
  | @panic j th hj hlive hrun hp =>
    by_cases hmine : c.holder = some j
    · cases Option.some.inj (hi.symm.trans hmine)
      exact Or.inr (Or.inr rfl)
    · exact Or.inl (by simpa [hmine] using hi)
  | _ => exact Or.inl hi

/-- A step of another thread leaves this one alone. -/
theorem Step.keeps_thread {c c' : Config sys} {l : Label S} (h : Step c l c') {i : ℕ}
    {th : Thread S} (hl : l.thread ≠ some i) (hi : c.threads[i]? = some th) :
    c'.threads[i]? = some th := by
  obtain ⟨hlt, -⟩ := List.getElem?_eq_some_iff.1 hi
  obtain ⟨th', hi', -⟩ := h.remembers hi
  rcases h.thread_cases hi' with ⟨t, hlen, -⟩ | ⟨th₀, hi₀, heq⟩
  · omega
  · cases Option.some.inj (hi.symm.trans hi₀)
    rcases heq with rfl | ⟨ev, p, rfl, -⟩ | ⟨rfl, -⟩
    · exact hi'
    · exact absurd rfl hl
    · exact absurd rfl hl

/-- A step of another thread neither takes the lock from this one nor gives it to it. -/
theorem Step.holder_of_ne {c c' : Config sys} {l : Label S} (h : Step c l c') {i : ℕ}
    (hl : l.thread ≠ some i) : c'.holder = some i ↔ c.holder = some i := by
  constructor
  · intro hi
    rcases h.holder_cases hi with ⟨hbefore, -⟩ | rfl | rfl
    · exact hbefore
    · exact absurd rfl hl
    · exact absurd rfl hl
  · intro hi
    rcases h.holder_keeps hi with hafter | rfl | rfl
    · exact hafter
    · exact absurd rfl hl
    · exact absurd rfl hl

/-! ### Runs -/

/-- A run all of whose steps satisfy `P`. -/
def Run (P : Config sys → Label S → Config sys → Prop) : Config sys → Config sys → Prop :=
  Relation.ReflTransGen fun c c' => ∃ l, Step c l c' ∧ P c l c'

namespace Run

variable {P Q : Config sys → Label S → Config sys → Prop} {c c' c'' : Config sys}

theorem refl (c : Config sys) : Run P c c := Relation.ReflTransGen.refl

theorem trans (h : Run P c c') (h' : Run P c' c'') : Run P c c'' :=
  Relation.ReflTransGen.trans h h'

theorem tail {l : Label S} (h : Run P c c') (hs : Step c' l c'') (hp : P c' l c'') :
    Run P c c'' := Relation.ReflTransGen.tail h ⟨l, hs, hp⟩

theorem head {l : Label S} (hs : Step c l c') (hp : P c l c') (h : Run P c' c'') :
    Run P c c'' := Relation.ReflTransGen.head ⟨l, hs, hp⟩ h

theorem mono (hPQ : ∀ c l c', P c l c' → Q c l c') (h : Run P c c') : Run Q c c' := by
  induction h with
  | refl => exact refl _
  | tail _ hs ih =>
    obtain ⟨l, hs, hp⟩ := hs
    exact ih.tail hs (hPQ _ _ _ hp)

/-- What every step preserves holds along every run. -/
theorem preserves {I : Config sys → Prop} (hstep : ∀ c l c', I c → Step c l c' → P c l c' → I c')
    (h : Run P c c') (hc : I c) : I c' := by
  induction h with
  | refl => exact hc
  | tail _ hs ih =>
    obtain ⟨l, hs, hp⟩ := hs
    exact hstep _ _ _ ih hs hp

/-- Threads stay, with their tasks. -/
theorem persists (h : Run P c c') {i : ℕ} {th : Thread S} (hi : c.threads[i]? = some th) :
    ∃ th', c'.threads[i]? = some th' ∧ th'.task = th.task := by
  induction h with
  | refl => exact ⟨th, hi, rfl⟩
  | tail _ hs ih =>
    obtain ⟨l, hs, -⟩ := hs
    obtain ⟨th₁, hi₁, htask₁⟩ := ih
    obtain ⟨th₂, hi₂, htask₂⟩ := hs.persists hi₁
    exact ⟨th₂, hi₂, htask₂.trans htask₁⟩

end Run

end Concurrent
