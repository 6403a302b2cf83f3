import LatteRs.Concurrent.Contract

/-!
# Refinement of effects by programs

Two systems with the same tasks.  The lower one performs each effect of the
upper one by a program of its own, in several operations that others may come
between.  To everyone else such a program looks like the one effect if, whatever
happens, exactly one of its operations does what the effect does and the others
do nothing that the upper level can see.

* `Program.expand`: a program with its effects replaced by programs;
* `Levels`, `Levels.Refines`: the lower program as a weakest precondition over
  the upper one, where a thread that holds the lock knows the lower state;
* `Levels.Sound`, `Related.step`: then every step of the lower system is one of
  the upper system, or none, and `Related.run` says the same of runs;
* `Atomic`, `refines_expand`, `sound_expand`: effects that are replaced one by
  one, by programs each of which is atomic, under a contract of the upper system.
-/

namespace Concurrent

/-- A signature with the same tasks and other effects. -/
@[reducible] def Signature.over (S : Signature) (Effect : Type) (Answer : Effect → Type) :
    Signature := ⟨Effect, Answer, S.Task, S.Out⟩

variable {S : Signature} {E : Type} {A : E → Type}

/-- A program with every effect performed by a program. -/
def Program.expand (impl : (e : S.Effect) → Program (S.over E A) (S.Answer e)) {α : Type} :
    Program S α → Program (S.over E A) α
  | .ret a => .ret a
  | .act e next => impl e >>= fun r => (next r).expand impl
  | .lock next => .lock (next.expand impl)
  | .tryLock next => .tryLock fun got => (next got).expand impl
  | .unlock next => .unlock (next.expand impl)
  | .fork t next => .fork t fun started => (next started).expand impl
  | .abort => .abort

/-! ### Two levels -/

/-- What is seen of the effects in the past of a thread. -/
def view {S : Signature} {V : Type} (see : (e : S.Effect) → S.Answer e → Option V) :
    Past S → List V :=
  List.filterMap fun
    | .did e r => see e r
    | _ => none

/-- What the state of the lower system stands for. -/
structure Levels (lo : System (S.over E A)) (up : System S) where
  abs : lo.Shared → up.Shared
  absWorld : lo.World → up.World
  /-- The effects that may change the lower state. -/
  writes : E → Prop
  /-- What always holds of the lower state. -/
  Inv : lo.Shared → Prop
  /-- What is seen of the effects of a thread, on both levels alike. -/
  Seen : Type
  seen : (e : E) → A e → Option Seen
  seenUp : (e : S.Effect) → S.Answer e → Option Seen

namespace Levels

variable {lo : System (S.over E A)} {up : System S} (m : Levels lo up)

/-- An operation of the lower level, of which `v` is seen, from the first state and world to the
second ones does nothing that the upper level sees, or does what the next effect of the upper
program `p` does; what `p` has left then satisfies `Q`. -/
def Matched (p : Program S S.Out) (v : Option m.Seen) (s : lo.Shared) (w : lo.World)
    (s' : lo.Shared) (w' : lo.World) (Q : Program S S.Out → Prop) : Prop :=
  (v = none ∧ m.abs s' = m.abs s ∧ m.absWorld w' = m.absWorld w ∧ Q p) ∨
    ∃ e next r, p = .act e next ∧ v = m.seenUp e r ∧
      up.admits e (m.abs s) (m.absWorld w) r ∧ m.abs s' = up.write e r (m.abs s) ∧
      m.absWorld w' = up.advance e r (m.absWorld w) ∧ Q (next r)

/-- The lower program does what the upper one does.  The last argument is the lower state, `none`
while the thread does not hold the lock. -/
def Refines : Program (S.over E A) S.Out → Program S S.Out → Option lo.Shared → Prop
  | .ret a, p, _ => p = .ret a
  | .act e next, p, none => p.result? = none ∧ ¬ m.writes e ∧
      ∀ s w r, m.Inv s → lo.admits e s w r →
        m.Matched p (m.seen e r) s w s (lo.advance e r w) fun p' => Refines (next r) p' none
  | .act e next, p, some s => p.result? = none ∧
      ∀ w r, lo.admits e s w r → m.Inv (lo.write e r s) ∧
        m.Matched p (m.seen e r) s w (lo.write e r s) (lo.advance e r w) fun p' =>
          Refines (next r) p' (some (lo.write e r s))
  | .lock q, p, none => ∃ p', p = .lock p' ∧ ∀ s, m.Inv s → Refines q p' (some s)
  | .tryLock q, p, none => ∃ p', p = .tryLock p' ∧
      (∀ s, m.Inv s → Refines (q true) (p' true) (some s)) ∧ Refines (q false) (p' false) none
  | .unlock q, p, some _ => ∃ p', p = .unlock p' ∧ Refines q p' none
  | .fork t q, p, some s => ∃ p', p = .fork t p' ∧
      (m.Inv (lo.forked t s) ∧ m.abs (lo.forked t s) = up.forked t (m.abs s)) ∧
      Refines (q true) (p' true) (some (lo.forked t s)) ∧ Refines (q false) (p' false) (some s)
  | .abort, p, _ => p = .abort
  | _, _, _ => False

/-- Every task does on the lower level what it does on the upper one. -/
structure Sound (m : Levels lo up) : Prop where
  quiet : ∀ e r s, ¬ m.writes e → lo.write e r s = s
  callable : ∀ t, lo.callable t → up.callable t
  mayPanic : ∀ t, lo.mayPanic t → up.mayPanic t
  body : ∀ t, m.Refines (lo.body t) (up.body t) none
  handler : ∀ t, m.Refines (lo.handler t) (up.handler t) none

theorem view_cons {T : Signature} {V : Type} {see : (e : S.Effect) → S.Answer e → Option V}
    {see' : (e : T.Effect) → T.Answer e → Option V} {h : Past S} {h' : Past T} {e : S.Effect}
    {r : S.Answer e} {e' : T.Effect} {r' : T.Answer e'} (hview : view see h = view see' h')
    (hsee : see e r = see' e' r') :
    view see (.did e r :: h) = view see' (.did e' r' :: h') := by
  unfold view at hview ⊢
  simp only [List.filterMap_cons, hsee, hview]

theorem view_unseen {V : Type} {see : (e : S.Effect) → S.Answer e → Option V} {h : Past S}
    {e : S.Effect} {r : S.Answer e} (hsee : see e r = none) :
    view see (.did e r :: h) = view see h := by
  unfold view
  simp only [List.filterMap_cons, hsee]

/-- Two threads with the same task that have seen the same. -/
structure Alike (m : Levels lo up) (th : Thread (S.over E A)) (th' : Thread S) : Prop where
  task : th'.task = th.task
  dead : th'.dead = th.dead
  view : view m.seenUp th'.past = view m.seen th.past

/-- A configuration of the lower level and one of the upper level that look the same. -/
structure Related (m : Levels lo up) (c : Config lo) (a : Config up) : Prop where
  inv : m.Inv c.shared
  shared : a.shared = m.abs c.shared
  world : a.world = m.absWorld c.world
  holder : a.holder = c.holder
  length : a.threads.length = c.threads.length
  present : ∀ i, c.holder = some i → i < c.threads.length
  thread : ∀ (i : ℕ) (th : Thread (S.over E A)), c.threads[i]? = some th →
    ∃ th' : Thread S, a.threads[i]? = some th' ∧ m.Alike th th' ∧
      m.Refines th.prog th'.prog (c.known i)

/-- A step of the upper level that a step of the lower level stands for. -/
def Mirrors : Label (S.over E A) → Label S → Prop
  | .call t, .call t' => t = t'
  | .op i _, .op j _ => i = j
  | .panic i, .panic j => i = j
  | _, _ => False

variable {m}

theorem Related.init {shared : lo.Shared} (world : lo.World) (h : m.Inv shared) :
    m.Related (Config.init shared world)
      (Config.init (m.abs shared) (m.absWorld world)) where
  inv := h
  shared := rfl
  world := rfl
  holder := rfl
  length := rfl
  present i hi := by cases hi
  thread i th hi := by cases hi

/-- The lower program has returned exactly when the upper one has. -/
theorem Refines.result? {q : Program (S.over E A) S.Out} {p : Program S S.Out}
    {g : Option lo.Shared} (h : m.Refines q p g) : p.result? = q.result? := by
  cases q with
  | ret a =>
    cases h
    rfl
  | act e next => cases g <;> exact h.1
  | lock q =>
    cases g with
    | none =>
      obtain ⟨p', rfl, -⟩ := h
      rfl
    | some s => exact h.elim
  | tryLock q =>
    cases g with
    | none =>
      obtain ⟨p', rfl, -⟩ := h
      rfl
    | some s => exact h.elim
  | unlock q =>
    cases g with
    | none => exact h.elim
    | some s =>
      obtain ⟨p', rfl, -⟩ := h
      rfl
  | fork t q =>
    cases g with
    | none => exact h.elim
    | some s =>
      obtain ⟨p', rfl, -⟩ := h
      rfl
  | abort =>
    cases h
    rfl

/-- **Calls have returned on the lower level exactly when they have on the upper one, and the
same.** -/
theorem Related.returned {c : Config lo} {a : Config up} (h : m.Related c a) (i : ℕ) :
    a.returned i = c.returned i := by
  unfold Config.returned
  cases hi : c.threads[i]? with
  | none =>
    have hnone : a.threads[i]? = none := by
      rw [List.getElem?_eq_none_iff] at hi ⊢
      rw [h.length]
      exact hi
    rw [hnone]
    rfl
  | some th =>
    obtain ⟨th', hi', -, href⟩ := h.thread i th hi
    rw [hi']
    exact href.result?

/-- Thread `i` makes a step on the lower level, and one or none on the upper one. -/
theorem Related.update {c c' : Config lo} {a a' : Config up} (h : m.Related c a) {i : ℕ}
    {th x : Thread (S.over E A)} {th' x' : Thread S} (hi : c.threads[i]? = some th)
    (hi' : a.threads[i]? = some th') (hthreads : c'.threads = (c.set i x).threads)
    (hthreads' : a'.threads = (a.set i x').threads) (hinv : m.Inv c'.shared)
    (hshared : a'.shared = m.abs c'.shared) (hworld : a'.world = m.absWorld c'.world)
    (hholder : a'.holder = c'.holder) (halike : m.Alike x x')
    (href : m.Refines x.prog x'.prog (c'.known i))
    (hknown : ∀ j, j ≠ i → c'.known j = c.known j)
    (hpresent : ∀ j, j ≠ i → c'.holder = some j → c.holder = some j) : m.Related c' a' where
  inv := hinv
  shared := hshared
  world := hworld
  holder := hholder
  length := by
    rw [hthreads, hthreads']
    unfold Config.set
    rw [List.length_set, List.length_set]
    exact h.length
  present j hj := by
    rw [hthreads]
    unfold Config.set
    rw [List.length_set]
    by_cases hji : j = i
    · subst hji
      exact (List.getElem?_eq_some_iff.1 hi).1
    · exact h.present j (hpresent j hji hj)
  thread j y hj := by
    rw [hthreads] at hj
    rw [hthreads']
    rcases (Config.set_threads hi).1 hj with ⟨rfl, rfl⟩ | ⟨hji, hold⟩
    · exact ⟨x', Config.set_threads_self hi' _, halike, href⟩
    · rw [a.set_threads_of_ne _ hji, hknown j hji]
      exact h.thread j y hold

/-- A thread is started on both levels. -/
theorem Related.spawn {c : Config lo} {a : Config up} (hs : m.Sound) (h : m.Related c a)
    (t : S.Task) : m.Related (c.spawn t) (a.spawn t) where
  inv := h.inv
  shared := h.shared
  world := h.world
  holder := h.holder
  length := by
    unfold Config.spawn
    simp [h.length]
  present j hj := by
    have := h.present j hj
    unfold Config.spawn
    simp only [List.length_append, List.length_singleton]
    omega
  thread j y hj := by
    have hknown : (c.spawn t).known j = c.known j := rfl
    rw [hknown]
    rcases Config.spawn_threads.1 hj with hold | ⟨rfl, rfl⟩
    · obtain ⟨y', hy', halike, href⟩ := h.thread j y hold
      exact ⟨y', Config.spawn_threads.2 (Or.inl hy'), halike, href⟩
    · have hfree : c.known c.threads.length = none :=
        if_neg fun hmine => absurd (h.present _ hmine) (Nat.lt_irrefl _)
      rw [hfree]
      exact ⟨_, Config.spawn_threads.2 (Or.inr ⟨h.length.symm, rfl⟩), ⟨rfl, rfl, rfl⟩, hs.body t⟩

/-- What a step of the lower level is on the upper one: nothing, if it is an effect, or a step of
the same thread. -/
def Simulated (m : Levels lo up) (a : Config up) (l : Label (S.over E A)) (c' : Config lo) : Prop :=
  ∃ a', m.Related c' a' ∧
    ((a' = a ∧ ∃ i e r, l = .op i (.did e r)) ∨ ∃ l', Step a l' a' ∧ Mirrors l l')

/-- A step in which thread `i` performs an effect of the lower level. -/
theorem Related.act {c : Config lo} {a : Config up} (hs : m.Sound) (h : m.Related c a) {i : ℕ}
    {th : Thread (S.over E A)} {e : E} {next : A e → Program (S.over E A) S.Out} {r : A e}
    (hi : c.threads[i]? = some th) (hp : th.prog = .act e next)
    (hr : lo.admits e c.shared c.world r) :
    Simulated m a (.op i (.did e r)) { c.set i (th.did (.did e r) (next r)) with
      shared := lo.write e r c.shared
      world := lo.advance e r c.world } := by
  obtain ⟨th', hi', halike, href⟩ := h.thread i th hi
  rw [hp] at href
  let c' : Config lo := { c.set i (th.did (.did e r) (next r)) with
    shared := lo.write e r c.shared
    world := lo.advance e r c.world }
  -- the state that thread `i` knows afterwards, and what the others know
  obtain ⟨hinv, hothers, hmatched⟩ : m.Inv (lo.write e r c.shared) ∧
      (∀ j, j ≠ i → c'.known j = c.known j) ∧
      m.Matched th'.prog (m.seen e r) c.shared c.world (lo.write e r c.shared)
        (lo.advance e r c.world) fun p' => m.Refines (next r) p' (c'.known i) := by
    by_cases hmine : c.holder = some i
    · have hknown : c'.known i = some (lo.write e r c.shared) := if_pos hmine
      rw [Config.known, if_pos hmine] at href
      obtain ⟨hinv, hmatched⟩ := href.2 c.world r hr
      refine ⟨hinv, fun j hj => ?_, hknown ▸ hmatched⟩
      rw [Contract.Config.known_of_ne hmine hj]
      exact Contract.Config.known_of_ne hmine hj
    · have hknown : c'.known i = none := if_neg hmine
      rw [Config.known, if_neg hmine] at href
      obtain ⟨-, hquiet, hmatched⟩ := href
      have hsame := hs.quiet e r c.shared hquiet
      rw [hsame, hknown]
      refine ⟨h.inv, fun j _ => ?_, hmatched c.shared c.world r h.inv hr⟩
      show (if c.holder = some j then some (lo.write e r c.shared) else none) = _
      rw [hsame]
      rfl
  rcases hmatched with ⟨hunseen, hshared, hworld, hq⟩ |
    ⟨e', next', r', hprog, hseen, hadmits, hshared, hworld, hq⟩
  · refine ⟨a, ?_, Or.inl ⟨rfl, i, e, r, rfl⟩⟩
    have hstays : a.threads = (a.set i th').threads := by
      obtain ⟨hlt, rfl⟩ := List.getElem?_eq_some_iff.1 hi'
      exact (List.set_getElem_self hlt).symm
    refine h.update (x := th.did (.did e r) (next r)) hi hi' rfl hstays hinv
      (h.shared.trans hshared.symm) (h.world.trans hworld.symm) h.holder
      ⟨halike.task, halike.dead, ?_⟩ hq hothers fun _ _ hj => hj
    rw [halike.view]
    exact (view_unseen hunseen).symm
  · rw [← h.shared, ← h.world] at hadmits
    have hstep : Step a (.op i (.did e' r')) _ := .act hi' hprog hadmits
    refine ⟨_, ?_, Or.inr ⟨_, hstep, rfl⟩⟩
    refine h.update (x := th.did (.did e r) (next r)) hi hi' rfl rfl hinv ?_ ?_ h.holder
      ⟨halike.task, halike.dead, ?_⟩ hq hothers fun _ _ hj => hj
    · show up.write e' r' a.shared = _
      rw [h.shared]
      exact hshared.symm
    · show up.advance e' r' a.world = _
      rw [h.world]
      exact hworld.symm
    · exact view_cons halike.view hseen.symm

/-- **Every step of the lower level is one of the upper level, or none.** -/
theorem Related.step {c c' : Config lo} {a : Config up} {l : Label (S.over E A)} (hs : m.Sound)
    (h : m.Related c a) (hstep : Step c l c') : Simulated m a l c' := by
  cases hstep with
  | @call t ht =>
    exact ⟨a.spawn t, h.spawn hs t, Or.inr ⟨_, .call (hs.callable t ht), rfl⟩⟩
  | act hi hp hr => exact h.act hs hi hp hr
  | @lock i th q hi hp hfree =>
    obtain ⟨th', hi', halike, href⟩ := h.thread i th hi
    rw [hp, Contract.Config.known_of_free hfree] at href
    obtain ⟨p', hprog, href⟩ := href
    refine ⟨_, ?_, Or.inr ⟨_, .lock hi' hprog (h.holder.trans hfree), rfl⟩⟩
    refine h.update (x := th.did .locked q) hi hi' rfl rfl h.inv h.shared h.world rfl
      ⟨halike.task, halike.dead, halike.view⟩ ?_ ?_ ?_
    · rw [Contract.Config.known_eq_some.2 ⟨rfl, rfl⟩]
      exact href c.shared h.inv
    · intro j hj
      rw [Contract.Config.known_of_free hfree]
      exact Contract.Config.known_of_ne rfl hj
    · intro j hj hmine
      exact absurd (Option.some.inj hmine).symm hj
  | @tryLockFree i th q hi hp hfree =>
    obtain ⟨th', hi', halike, href⟩ := h.thread i th hi
    rw [hp, Contract.Config.known_of_free hfree] at href
    obtain ⟨p', hprog, href, -⟩ := href
    refine ⟨_, ?_, Or.inr ⟨_, .tryLockFree hi' hprog (h.holder.trans hfree), rfl⟩⟩
    refine h.update (x := th.did (.triedLock true) (q true)) hi hi' rfl rfl h.inv h.shared h.world
      rfl ⟨halike.task, halike.dead, halike.view⟩ ?_ ?_ ?_
    · rw [Contract.Config.known_eq_some.2 ⟨rfl, rfl⟩]
      exact href c.shared h.inv
    · intro j hj
      rw [Contract.Config.known_of_free hfree]
      exact Contract.Config.known_of_ne rfl hj
    · intro j hj hmine
      exact absurd (Option.some.inj hmine).symm hj
  | @tryLockHeld i th q hi hp hheld =>
    obtain ⟨th', hi', halike, href⟩ := h.thread i th hi
    rw [hp] at href
    cases hg : c.known i with
    | some s =>
      rw [hg] at href
      exact href.elim
    | none =>
      rw [hg] at href
      obtain ⟨p', hprog, -, href⟩ := href
      refine ⟨_, ?_, Or.inr ⟨_, .tryLockHeld hi' hprog (h.holder.symm ▸ hheld), rfl⟩⟩
      refine h.update (x := th.did (.triedLock false) (q false)) hi hi' rfl rfl h.inv h.shared
        h.world h.holder ⟨halike.task, halike.dead, halike.view⟩ ?_ (fun _ _ => rfl)
        fun _ _ hj => hj
      show m.Refines (q false) (p' false) (c.known i)
      rw [hg]
      exact href
  | @unlock i th q hi hp hmine =>
    obtain ⟨th', hi', halike, href⟩ := h.thread i th hi
    rw [hp, Contract.Config.known_eq_some.2 ⟨hmine, rfl⟩] at href
    obtain ⟨p', hprog, href⟩ := href
    refine ⟨_, ?_, Or.inr ⟨_, .unlock hi' hprog (h.holder.trans hmine), rfl⟩⟩
    refine h.update (x := th.did .unlocked q) hi hi' rfl rfl h.inv h.shared h.world rfl
      ⟨halike.task, halike.dead, halike.view⟩ ?_ ?_ ?_
    · rw [Contract.Config.known_of_free rfl]
      exact href
    · intro j hj
      rw [Contract.Config.known_of_free rfl, Contract.Config.known_of_ne hmine hj]
    · intro j hj hnone
      cases hnone
  | @fork i th t q hi hp =>
    obtain ⟨th', hi', halike, href⟩ := h.thread i th hi
    rw [hp] at href
    cases hg : c.known i with
    | none =>
      rw [hg] at href
      exact href.elim
    | some s =>
      obtain ⟨hmine, rfl⟩ := Contract.Config.known_eq_some.1 hg
      rw [hg] at href
      obtain ⟨p', hprog, ⟨hinv, habs⟩, href, -⟩ := href
      refine ⟨_, ?_, Or.inr ⟨_, .fork hi' hprog, rfl⟩⟩
      have hset : m.Related { c.set i (th.did (.forked t true) (q true)) with
            shared := lo.forked t c.shared }
          { a.set i (th'.did (.forked t true) (p' true)) with
            shared := up.forked t a.shared } := by
        refine h.update (x := th.did (.forked t true) (q true)) hi hi' rfl rfl hinv ?_ h.world
          h.holder ⟨halike.task, halike.dead, halike.view⟩ ?_ ?_ fun _ _ hj => hj
        · show up.forked t a.shared = _
          rw [h.shared]
          exact habs.symm
        · show m.Refines _ _ (if c.holder = some i then some (lo.forked t c.shared) else none)
          rw [if_pos hmine]
          exact href
        · intro j hj
          rw [Contract.Config.known_of_ne hmine hj]
          exact Contract.Config.known_of_ne hmine hj
      exact hset.spawn hs t
  | @forkFail i th t q hi hp =>
    obtain ⟨th', hi', halike, href⟩ := h.thread i th hi
    rw [hp] at href
    cases hg : c.known i with
    | none =>
      rw [hg] at href
      exact href.elim
    | some s =>
      rw [hg] at href
      obtain ⟨p', hprog, -, -, href⟩ := href
      refine ⟨_, ?_, Or.inr ⟨_, .forkFail hi' hprog, rfl⟩⟩
      refine h.update (x := th.did (.forked t false) (q false)) hi hi' rfl rfl h.inv h.shared
        h.world h.holder ⟨halike.task, halike.dead, halike.view⟩ ?_ (fun _ _ => rfl)
        fun _ _ hj => hj
      show m.Refines (q false) (p' false) (c.known i)
      rw [hg]
      exact href
  | @panic i th hi hlive hrun hp =>
    obtain ⟨th', hi', halike, href⟩ := h.thread i th hi
    have hpanics : th'.prog = .abort ∨ up.mayPanic th'.task := by
      refine hp.imp (fun habort => ?_) (fun hmay => halike.task ▸ hs.mayPanic _ hmay)
      rw [habort] at href
      exact href
    have hrun' := href.result?.trans hrun
    refine ⟨_, ?_, Or.inr ⟨_, .panic hi' (halike.dead.trans hlive) hrun' hpanics, rfl⟩⟩
    have hfreed : Config.known { c.set i { th with prog := lo.handler th.task, dead := true } with
        holder := if c.holder = some i then none else c.holder } i = none := by
      by_cases hmine : c.holder = some i <;> simp [Config.known, hmine]
    refine h.update (x := { th with prog := lo.handler th.task, dead := true }) hi hi' rfl rfl
      h.inv h.shared h.world ?_ ⟨halike.task, rfl, halike.view⟩ ?_ ?_ ?_
    · show (if a.holder = some i then none else a.holder) = _
      rw [h.holder]
    · rw [hfreed, halike.task]
      exact hs.handler th.task
    · intro j hj
      by_cases hmine : c.holder = some i
      · rw [Contract.Config.known_of_ne hmine hj]
        simp [Config.known, hmine]
      · unfold Config.known
        rw [if_neg hmine]
        rfl
    · intro j hj hmine
      by_cases hheld : c.holder = some i
      · simp [hheld] at hmine
      · simpa [hheld] using hmine

/-- **Every run of the lower level is one of the upper level**, whose steps satisfy `Q` if those of
the lower level that they stand for satisfy `P`. -/
theorem Related.run {P : Config lo → Label (S.over E A) → Config lo → Prop}
    {Q : Config up → Label S → Config up → Prop}
    (hPQ : ∀ c l c' a l' a', m.Related c a → m.Related c' a' → Mirrors l l' → P c l c' → Q a l' a')
    {c c' : Config lo} {a : Config up} (hs : m.Sound) (h : m.Related c a) (hrun : Run P c c') :
    ∃ a', Run Q a a' ∧ m.Related c' a' := by
  induction hrun with
  | refl => exact ⟨a, .refl a, h⟩
  | tail _ hstep ih =>
    obtain ⟨l, hstep, hP⟩ := hstep
    obtain ⟨a₁, hrun₁, h₁⟩ := ih
    obtain ⟨a₂, h₂, ⟨rfl, -⟩ | ⟨l', hstep', hmirrors⟩⟩ := h₁.step hs hstep
    · exact ⟨a₂, hrun₁, h₂⟩
    · exact ⟨a₂, hrun₁.tail hstep' (hPQ _ _ _ _ _ _ h₁ h₂ hmirrors hP), h₂⟩

/-! ### Effects that are replaced one by one -/

/-- The program for an effect is atomic, where threads keep the contract `k` of the upper level:
whatever the continuations are, if they agree after every answer then so they do before. -/
structure Atomic (m : Levels lo up) (k : Contract up)
    (impl : (e : S.Effect) → Program (S.over E A) (S.Answer e)) (e : S.Effect) : Prop where
  /-- Outside the lock; an effect that writes is never performed there. -/
  free : ¬ k.writes e → ∀ (f : S.Answer e → Program (S.over E A) S.Out)
    (next : S.Answer e → Program S S.Out),
    (∀ r, (∃ s w, k.Inv s ∧ up.admits e s w r) → m.Refines (f r) (next r) none) →
      m.Refines (impl e >>= f) (.act e next) none
  /-- Under the lock, where the effect keeps the invariant of the upper level. -/
  locked : ∀ s, m.Inv s →
    (∀ w r, up.admits e (m.abs s) w r → k.Inv (up.write e r (m.abs s))) →
    ∀ (f : S.Answer e → Program (S.over E A) S.Out) (next : S.Answer e → Program S S.Out),
    (∀ r s', m.Inv s' → (∃ w, up.admits e (m.abs s) w r) → m.abs s' = up.write e r (m.abs s) →
      m.Refines (f r) (next r) (some s')) → m.Refines (impl e >>= f) (.act e next) (some s)

variable {k : Contract up} {impl : (e : S.Effect) → Program (S.over E A) (S.Answer e)}

/-- A program that keeps the contract, with its effects replaced by atomic programs. -/
theorem refines_expand (hk : k.Sound) (hinv : ∀ s, m.Inv s → k.Inv (m.abs s))
    (hforked : ∀ t s, m.Inv s → k.Inv (up.forked t (m.abs s)) →
      m.Inv (lo.forked t s) ∧ m.abs (lo.forked t s) = up.forked t (m.abs s))
    (hatomic : ∀ e, m.Atomic k impl e) {t : S.Task} {p : Program S S.Out}
    {Q : Past S → Option up.Shared → S.Out → Prop} {h : Past S} {g : Option lo.Shared}
    (hp : wp k t p Q h (g.map m.abs)) (hg : ∀ s, g = some s → m.Inv s) :
    m.Refines (p.expand impl) p g := by
  induction p generalizing h g with
  | ret a => rfl
  | act e next ih =>
    cases g with
    | none =>
      obtain ⟨hquiet, hnext⟩ := hp
      refine (hatomic e).free hquiet _ _ ?_
      rintro r ⟨s, w, hs, hr⟩
      exact ih r (g := none) (hnext s w r hs hr).2 fun s hs => by cases hs
    | some s =>
      refine (hatomic e).locked s (hg s rfl) (fun w r hr => ?_) _ _ ?_
      · exact hk.act _ _ _ _ _ _ (hinv s (hg s rfl)) hr (hp w r hr).1
      rintro r s' hs' ⟨w, hr⟩ habs
      refine ih r (h := .did e r :: h) (g := some s') ?_ ?_
      · rw [Option.map_some, habs]
        exact (hp w r hr).2
      · intro s'' hs''
        cases hs''
        exact hs'
  | lock next ih =>
    cases g with
    | none =>
      refine ⟨next, rfl, fun s hs => ih (g := some s) (hp (m.abs s) (hinv s hs)) ?_⟩
      intro s' hs'
      cases hs'
      exact hs
    | some s => exact hp.elim
  | tryLock next ih =>
    cases g with
    | none =>
      refine ⟨next, rfl, fun s hs => ih true (g := some s) (hp.1 (m.abs s) (hinv s hs)) ?_,
        ih false (g := none) hp.2 fun s hs => by cases hs⟩
      intro s' hs'
      cases hs'
      exact hs
    | some s => exact hp.elim
  | unlock next ih =>
    cases g with
    | none => exact hp.elim
    | some s => exact ⟨next, rfl, ih (g := none) hp.2 fun s hs => by cases hs⟩
  | fork c next ih =>
    cases g with
    | none => exact hp.elim
    | some s =>
      obtain ⟨hstart, hstarted, hnot⟩ := hp
      obtain ⟨hs', habs⟩ := hforked c s (hg s rfl)
        (hk.start _ _ _ _ (hinv s (hg s rfl)) hstart)
      refine ⟨next, rfl, ⟨hs', habs⟩,
        ih true (h := .forked c true :: h) (g := some (lo.forked c s)) ?_ ?_,
        ih false (g := some s) hnot hg⟩
      · rw [Option.map_some, habs]
        exact hstarted
      · intro s'' hs''
        cases hs''
        exact hs'
  | abort => rfl

/-- **A system whose effects are replaced by atomic programs refines the one it came from.** -/
theorem sound_expand (hk : k.Sound) (hinv : ∀ s, m.Inv s → k.Inv (m.abs s))
    (hatomic : ∀ e, m.Atomic k impl e) (hquiet : ∀ e r s, ¬ m.writes e → lo.write e r s = s)
    (hforked : ∀ t s, m.Inv s → k.Inv (up.forked t (m.abs s)) →
      m.Inv (lo.forked t s) ∧ m.abs (lo.forked t s) = up.forked t (m.abs s))
    (hcallable : ∀ t, lo.callable t → up.callable t)
    (hmayPanic : ∀ t, lo.mayPanic t → up.mayPanic t)
    (hbody : ∀ t, lo.body t = (up.body t).expand impl)
    (hhandler : ∀ t, lo.handler t = (up.handler t).expand impl)
    (hunwinds : ∀ t, ∃ h Q, wp k t (up.handler t) Q h none) : m.Sound where
  quiet := hquiet
  callable := hcallable
  mayPanic := hmayPanic
  body t := by
    rw [hbody]
    exact refines_expand hk hinv hforked hatomic (g := none) (hk.body t) fun s hs => by cases hs
  handler t := by
    obtain ⟨h, Q, hwp⟩ := hunwinds t
    rw [hhandler]
    exact refines_expand hk hinv hforked hatomic (g := none) hwp fun s hs => by cases hs

end Levels

end Concurrent
