import LatteRs.Concurrent.Traces

/-!
# Which threads there are and what they have done

* `Config.Runs`, `Config.Has`: a thread runs a task, a thread has done something;
* `runs_step`, `has_step` and the converses: what a step adds to that;
* `forked_of_runs`: a thread that nobody called was started by one that recorded it;
* `Habits.past_run`: what operations according to habits make of the pasts, over
  whole runs.
-/

namespace Concurrent

variable {S : Signature} {sys : System S}

/-- Thread `i` runs task `t`. -/
def Config.Runs (c : Config sys) (i : ℕ) (t : S.Task) : Prop :=
  ∃ th, c.threads[i]? = some th ∧ th.task = t

/-- Thread `i` has done `ev`. -/
def Config.Has (c : Config sys) (i : ℕ) (ev : Event S) : Prop :=
  ∃ th, c.threads[i]? = some th ∧ ev ∈ th.past

variable {c c' : Config sys} {l : Label S} {i j : ℕ}

theorem Config.Runs.unique {t t' : S.Task} (h : c.Runs i t) (h' : c.Runs i t') : t = t' := by
  obtain ⟨th, hi, rfl⟩ := h
  obtain ⟨th', hi', rfl⟩ := h'
  rw [Option.some.inj (hi.symm.trans hi')]

theorem Config.Runs.lt {t : S.Task} (h : c.Runs i t) : i < c.threads.length := by
  obtain ⟨th, hi, -⟩ := h
  exact (List.getElem?_eq_some_iff.1 hi).1

theorem Config.Has.lt {ev : Event S} (h : c.Has i ev) : i < c.threads.length := by
  obtain ⟨th, hi, -⟩ := h
  exact (List.getElem?_eq_some_iff.1 hi).1

/-- What a thread with this past has done. -/
theorem Config.has_iff {th : Thread S} (hi : c.threads[i]? = some th) {ev : Event S} :
    c.Has i ev ↔ ev ∈ th.past := by
  constructor
  · rintro ⟨th', hi', hmem⟩
    rwa [Option.some.inj (hi.symm.trans hi')]
  · exact fun hmem => ⟨th, hi, hmem⟩

theorem runs_step (hstep : Step c l c') {t : S.Task} (h : c.Runs i t) : c'.Runs i t := by
  obtain ⟨th, hi, rfl⟩ := h
  exact hstep.persists hi

/-- A thread that runs after a step ran before it or was started by it. -/
theorem runs_cases (hstep : Step c l c') {t : S.Task} (h : c'.Runs i t) :
    c.Runs i t ∨ i = c.threads.length ∧ (l = .call t ∨ ∃ j, l = .op j (.forked t true)) := by
  obtain ⟨th', hi', rfl⟩ := h
  rcases hstep.thread_cases hi' with
    ⟨t, hlen, rfl, hl⟩ | ⟨th, hi, rfl | ⟨ev, p, -, rfl⟩ | ⟨-, rfl⟩⟩
  · exact Or.inr ⟨hlen, hl.imp_left And.left⟩
  · exact Or.inl ⟨_, hi, rfl⟩
  · exact Or.inl ⟨th, hi, rfl⟩
  · exact Or.inl ⟨th, hi, rfl⟩

theorem has_step (hstep : Step c l c') {ev : Event S} (h : c.Has i ev) : c'.Has i ev := by
  obtain ⟨th, hi, hmem⟩ := h
  obtain ⟨th', hi', -, hpast⟩ := hstep.remembers hi
  exact ⟨th', hi', hpast.subset hmem⟩

/-- What a thread has done after a step it did before it or by it. -/
theorem has_cases (hstep : Step c l c') {ev : Event S} (h : c'.Has i ev) :
    c.Has i ev ∨ l = .op i ev := by
  obtain ⟨th', hi', hmem⟩ := h
  rcases hstep.thread_cases hi' with
    ⟨t, -, rfl, -⟩ | ⟨th, hi, rfl | ⟨ev', p, rfl, rfl⟩ | ⟨-, rfl⟩⟩
  · cases hmem
  · exact Or.inl ⟨_, hi, hmem⟩
  · rcases List.mem_cons.1 hmem with rfl | hold
    · exact Or.inr rfl
    · exact Or.inl ⟨th, hi, hold⟩
  · exact Or.inl ⟨th, hi, hmem⟩

theorem has_of_op {ev : Event S} (hstep : Step c (.op i ev) c') : c'.Has i ev := by
  obtain ⟨th, p, -, -, hi'⟩ := hstep.op_inv
  exact ⟨_, hi', List.mem_cons_self⟩

/-- A thread that is started runs its task. -/
theorem runs_of_forked {t : S.Task} (hstep : Step c (.op i (.forked t true)) c') :
    c'.Runs c.threads.length t := by
  cases hstep with
  | @fork _ th _ next hi hp =>
    refine ⟨sys.fresh t, Config.spawn_threads.2 (Or.inr ⟨?_, rfl⟩), rfl⟩
    exact List.length_set.symm

/-- A thread that was not called was started by another one. -/
theorem forked_of_runs {P : Config sys → Label S → Config sys → Prop} {shared : sys.Shared}
    {world : sys.World} (hrun : Run P (Config.init shared world) c) {t : S.Task}
    (hcall : ¬ sys.callable t) (h : c.Runs j t) : ∃ i, c.Has i (.forked t true) := by
  have hall : ∀ j, c.Runs j t → ∃ i, c.Has i (.forked t true) :=
    hrun.preserves (I := fun c => ∀ j, c.Runs j t → ∃ i, c.Has i (.forked t true))
      (fun c l c' hc hstep _ j hj => by
        rcases runs_cases hstep hj with hold | ⟨-, hl | ⟨i, hl⟩⟩
        · obtain ⟨i, hi⟩ := hc j hold
          exact ⟨i, has_step hstep hi⟩
        · subst hl
          cases hstep with
          | call hcallable => exact absurd hcallable hcall
        · subst hl
          exact ⟨i, has_of_op hstep⟩)
      (fun j ⟨th, hth, _⟩ => by cases hth)
  exact hall j h

/-- What every operation according to habits keeps of a past, every thread of a run has. -/
theorem Habits.past_run {k : Habits S} {P : Config sys → Label S → Config sys → Prop}
    {shared : sys.Shared} {world : sys.World} (hs : k.Sound sys)
    (hrun : Run P (Config.init shared world) c) {I : S.Task → Past S → Prop}
    (hnil : ∀ t, I t []) (hdoes : ∀ t h ev, k.Does t h ev → I t h → I t (ev :: h))
    {th : Thread S} (hi : c.threads[i]? = some th) : I th.task th.past := by
  have hall : k.Kept c ∧ ∀ (i : ℕ) (th : Thread S), c.threads[i]? = some th → I th.task th.past :=
    hrun.preserves (I := fun c => k.Kept c ∧
      ∀ (i : ℕ) (th : Thread S), c.threads[i]? = some th → I th.task th.past)
      (fun c l c' hc hstep _ => by
        refine ⟨hc.1.step hs hstep, fun i th' hi' => ?_⟩
        rcases hstep.thread_cases hi' with
          ⟨t, -, rfl, -⟩ | ⟨th, hi, rfl | ⟨ev, p, rfl, rfl⟩ | ⟨-, rfl⟩⟩
        · exact hnil t
        · exact hc.2 i _ hi
        · obtain ⟨th₀, hi₀, hev⟩ := hc.1.does hstep
          cases Option.some.inj (hi.symm.trans hi₀)
          exact hdoes _ _ _ hev (hc.2 i _ hi)
        · exact hc.2 i th hi)
      ⟨Habits.Kept.init shared world, fun i th hi => by cases hi⟩
  exact hall.2 i th hi

end Concurrent
