import LatteRs.Concurrent.Traces
import LatteRs.Storage

/-!
# What saves do

A save is a machine of a few phases: it draws what its temporary name is made
of, writes the file, and renames or removes it.  The programs follow it, whatever
the other threads and processes do.

* `Draft`, `Phase`, `phase`, and `Phase.Goes`, which operation leads from which phase to
  which;
* `habits` and `habits_sound`: what the threads do.
-/

namespace LatteRs.Storage

open Concurrent

/-! ### Phases of a save -/

/-- What a save has drawn: the record it writes, and what its temporary name is made of. -/
structure Draft where
  record : CachedActivation
  pid : ℕ
  count : ℕ

def Draft.tmp (w : Draft) (path : String) : String := tmpName path w.pid w.count

inductive Phase
  | starting
  | stamped (record : CachedActivation)
  | identified (record : CachedActivation) (pid : ℕ)
  | named (w : Draft)
  /-- The temporary file is there, with the bytes `written`. -/
  | writing (w : Draft) (written : List UInt8)
  /-- The temporary file has to be removed. -/
  | failed (w : Draft)
  | renamed (record : CachedActivation)
  | over

namespace Phase

/-- The phase after an operation. -/
def next (token : String) (chain : CertChain) : Phase → Event signature → Phase
  | .starting, .did (.clock _) now => .stamped (.of now token chain)
  | .stamped record, .did (.processId _) pid => .identified record pid
  | .identified record pid, .did (.fetchAdd _) count => .named ⟨record, pid, count⟩
  | .named w, .did (.createNew ..) created => if created then .writing w [] else .failed w
  | .writing w written, .did (.append _ _ byte) done =>
    if done then .writing w (written ++ [byte]) else .failed w
  | .writing w _, .did (.rename ..) done => if done then .renamed w.record else .failed w
  | .failed _, .did (.remove ..) _ => .over
  | ph, _ => ph

/-- The process id that the save has read and not yet done with. -/
def pid? : Phase → Option ℕ
  | .identified _ pid => some pid
  | .named w => some w.pid
  | .writing w _ => some w.pid
  | .failed w => some w.pid
  | _ => none

/-- The draft of the save, until it has renamed or removed its temporary file. -/
def draft? : Phase → Option Draft
  | .named w => some w
  | .writing w _ => some w
  | .failed w => some w
  | _ => none

/-- The record that the save writes. -/
def record? : Phase → Option CachedActivation
  | .stamped record => some record
  | .identified record _ => some record
  | .named w => some w.record
  | .writing w _ => some w.record
  | .failed w => some w.record
  | .renamed record => some record
  | _ => none

end Phase

/-- The phase after a past. -/
def phase (token : String) (chain : CertChain) : Past signature → Phase
  | [] => .starting
  | ev :: h => (phase token chain h).next token chain ev

/-- The operations of a save, with the phases before and after them. -/
inductive Phase.Goes (codec : Codec) (path : String) (proc : ℕ) (token : String)
    (chain : CertChain) : Phase → Event signature → Phase → Prop
  | createDirAll (made : Bool) :
    Goes codec path proc token chain .starting (.did (.createDirAll proc) made) .starting
  | clock (now : SystemTime) : Goes codec path proc token chain .starting
      (.did (.clock proc) now) (.stamped (.of now token chain))
  | processId (record : CachedActivation) (pid : ℕ) : Goes codec path proc token chain
      (.stamped record) (.did (.processId proc) pid) (.identified record pid)
  | fetchAdd (record : CachedActivation) (pid count : ℕ) : Goes codec path proc token chain
      (.identified record pid) (.did (.fetchAdd proc) count) (.named ⟨record, pid, count⟩)
  | createNew (w : Draft) : Goes codec path proc token chain
      (.named w) (.did (.createNew proc (w.tmp path)) true) (.writing w [])
  | notCreated (w : Draft) : Goes codec path proc token chain
      (.named w) (.did (.createNew proc (w.tmp path)) false) (.failed w)
  | append (w : Draft) (written : List UInt8) (byte : UInt8) : Goes codec path proc token chain
      (.writing w written) (.did (.append proc (w.tmp path) byte) true)
      (.writing w (written ++ [byte]))
  | notAppended (w : Draft) (written : List UInt8) (byte : UInt8) :
    Goes codec path proc token chain
      (.writing w written) (.did (.append proc (w.tmp path) byte) false) (.failed w)
  | rename (w : Draft) : Goes codec path proc token chain
      (.writing w (codec.toVec w.record)) (.did (.rename proc (w.tmp path) path) true)
      (.renamed w.record)
  | notRenamed (w : Draft) : Goes codec path proc token chain
      (.writing w (codec.toVec w.record)) (.did (.rename proc (w.tmp path) path) false) (.failed w)
  | remove (w : Draft) (removal : Removal) : Goes codec path proc token chain
      (.failed w) (.did (.remove proc (w.tmp path)) removal) .over

namespace Phase

variable {codec : Codec} {path : String} {proc : ℕ} {token : String} {chain : CertChain}
  {ph ph' : Phase} {ev : Event signature}

theorem pid?_of_draft? {w : Draft} (h : ph.draft? = some w) : ph.pid? = some w.pid := by
  cases ph <;> cases h <;> rfl

/-- A process id is one that was there before, or just read. -/
theorem Goes.pid? {pid : ℕ} (hgoes : Goes codec path proc token chain ph ev ph')
    (h : ph'.pid? = some pid) : ph.pid? = some pid ∨ ev = .did (.processId proc) pid := by
  cases hgoes with
  | processId record pid' =>
    cases h
    exact Or.inr rfl
  | rename w => cases h
  | remove w removal => cases h
  | clock now => cases h
  | _ => exact Or.inl h

/-- A draft is one that was there before, or just completed. -/
theorem Goes.draft? {w : Draft} (hgoes : Goes codec path proc token chain ph ev ph')
    (h : ph'.draft? = some w) :
    ph.draft? = some w ∨ ph.pid? = some w.pid ∧ ev = .did (.fetchAdd proc) w.count := by
  cases hgoes with
  | fetchAdd record pid count =>
    cases h
    exact Or.inr ⟨rfl, rfl⟩
  | processId record pid => cases h
  | rename w => cases h
  | remove w removal => cases h
  | clock now => cases h
  | _ => exact Or.inl h

theorem record?_next {record : CachedActivation}
    (h : (ph.next token chain ev).record? = some record) :
    ph.record? = some record ∨ ∃ now, record = .of now token chain := by
  unfold next at h
  split at h
  case h_1 p now =>
    cases h
    exact Or.inr ⟨now, rfl⟩
  all_goals try split_ifs at h
  all_goals first | exact Or.inl h | cases h

end Phase

/-- A save writes a record of what it was given. -/
theorem record_of_phase {token : String} {chain : CertChain} {h : Past signature}
    {record : CachedActivation} (hrecord : (phase token chain h).record? = some record) :
    ∃ now, record = .of now token chain := by
  induction h with
  | nil => cases hrecord
  | cons ev h ih => exact (Phase.record?_next hrecord).elim ih id

/-! ### Habits -/

variable (codec : Codec) (path : String)

/-- What the threads do after which past. -/
def Does : Task → Past signature → Event signature → Prop
  | .boot pid, _, ev => ∃ started, ev = .did (.boot pid) started
  | .kill proc, _, ev => ev = .did (.kill proc) ()
  | .load proc, h, ev => h = [] ∧ ∃ data, ev = .did (.read proc path) data
  | .clear proc, _, ev => ∃ removal, ev = .did (.remove proc path) removal
  | .save proc token chain, h, ev => Phase.Goes codec path proc token chain
      (phase token chain h) ev (phase token chain (ev :: h))

/-- What `load` makes of the contents of the file. -/
def decoded (data : Option (List UInt8)) : Option (String × CertChain) :=
  (data.bind codec.fromSlice).map CachedActivation.activation

/-- What the threads have done when they return. -/
def ReturnsAfter : Task → Past signature → Outcome → Prop
  | .boot _, _, out => ∃ started, out = .booted started
  | .kill _, _, out => out = .killed
  | .load proc, h, out =>
    ∃ data, h = [.did (.read proc path) data] ∧ out = .loaded (decoded codec data)
  | .save _ token chain, h, out => ∃ done, out = .saved done ∧
      (done = true ↔ ∃ record, phase token chain h = .renamed record)
  | .clear _, _, out => ∃ done, out = .cleared done

/-- Only a load returns what it has loaded. -/
theorem loaded_of_returnsAfter {t : Task} {h : Past signature}
    {result : Option (String × CertChain)} (hafter : ReturnsAfter codec path t h (.loaded result)) :
    ∃ proc data, h = [.did (.read proc path) data] ∧ result = decoded codec data := by
  cases t with
  | boot pid =>
    obtain ⟨started, heq⟩ := hafter
    cases heq
  | kill proc => cases hafter
  | load proc =>
    obtain ⟨data, hpast, heq⟩ := hafter
    exact ⟨proc, data, hpast, Outcome.loaded.inj heq⟩
  | save proc token chain =>
    obtain ⟨done, heq, -⟩ := hafter
    cases heq
  | clear proc =>
    obtain ⟨done, heq⟩ := hafter
    cases heq

/-- Only a save returns that it has succeeded, and it has renamed its file then. -/
theorem saved_of_returnsAfter {t : Task} {h : Past signature}
    (hafter : ReturnsAfter codec path t h (.saved true)) :
    ∃ proc token chain record, t = .save proc token chain ∧
      phase token chain h = .renamed record := by
  cases t with
  | boot pid =>
    obtain ⟨started, heq⟩ := hafter
    cases heq
  | kill proc => cases hafter
  | load proc =>
    obtain ⟨data, -, heq⟩ := hafter
    cases heq
  | save proc token chain =>
    obtain ⟨done, heq, hdone⟩ := hafter
    cases heq
    obtain ⟨record, hphase⟩ := hdone.1 rfl
    exact ⟨proc, token, chain, record, rfl, hphase⟩
  | clear proc =>
    obtain ⟨done, heq⟩ := hafter
    cases heq

@[reducible] def habits : Habits signature where
  Does := Does codec path
  Aborts _ _ := False
  Returns := ReturnsAfter codec path

section
variable {codec path} {proc : ℕ} {token : String} {chain : CertChain}

theorem Phase.Goes.next_eq {ph ph' : Phase} {ev : Event signature}
    (h : Goes codec path proc token chain ph ev ph') : ph.next token chain ev = ph' := by
  cases h <;> rfl

/-- An operation of a save in its phase. -/
theorem Phase.Goes.does {ph ph' : Phase} {ev : Event signature} {h : Past signature}
    (hgoes : Goes codec path proc token chain ph ev ph') (hphase : phase token chain h = ph) :
    Does codec path (.save proc token chain) h ev ∧ phase token chain (ev :: h) = ph' := by
  have hnext : phase token chain (ev :: h) = ph' := by
    rw [← hgoes.next_eq, ← hphase]
    rfl
  refine ⟨?_, hnext⟩
  show Goes codec path proc token chain (phase token chain h) ev (phase token chain (ev :: h))
  rw [hphase, hnext]
  exact hgoes

/-- The loop of `write_all` appends what it is given, or fails. -/
theorem traced_writeAll {w : Draft} {rest : List UInt8} {Q : Past signature → Bool → Prop}
    {written : List UInt8} {h : Past signature} (hphase : phase token chain h = .writing w written)
    (hdone : ∀ h', phase token chain h' = .writing w (written ++ rest) → Q h' true)
    (hfail : ∀ h', phase token chain h' = .failed w → Q h' false) :
    traced (habits codec path) (.save proc token chain) (writeAll proc (w.tmp path) rest) Q h := by
  induction rest generalizing written h with
  | nil => exact hdone h (by simpa using hphase)
  | cons byte rest ih =>
    intro done
    cases done with
    | false =>
      obtain ⟨hdoes, hnext⟩ := (Phase.Goes.notAppended w written byte).does hphase
      exact ⟨hdoes, hfail _ hnext⟩
    | true =>
      obtain ⟨hdoes, hnext⟩ := (Phase.Goes.append w written byte).does hphase
      exact ⟨hdoes, ih hnext fun h' hh' => hdone h' (by simpa using hh')⟩

/-- A save renames the whole record, or is left with a file to remove. -/
theorem traced_writeNew {w : Draft} {Q : Past signature → Bool → Prop} {h : Past signature}
    (hphase : phase token chain h = .named w)
    (hdone : ∀ h', phase token chain h' = .renamed w.record → Q h' true)
    (hfail : ∀ h', phase token chain h' = .failed w → Q h' false) :
    traced (habits codec path) (.save proc token chain)
      (writeNew path proc (w.tmp path) (codec.toVec w.record)) Q h := by
  unfold writeNew
  refine traced_bind.2 fun created => ?_
  cases created with
  | false =>
    obtain ⟨hdoes, hnext⟩ := (Phase.Goes.notCreated w).does hphase
    exact ⟨hdoes, hfail _ hnext⟩
  | true =>
    obtain ⟨hdoes, hnext⟩ := (Phase.Goes.createNew w).does hphase
    refine ⟨hdoes, traced_bind.2 (traced_writeAll hnext (fun h' hh' => ?_) hfail)⟩
    intro done
    cases done with
    | false =>
      obtain ⟨hdoes', hnext'⟩ := (Phase.Goes.notRenamed w).does hh'
      exact ⟨hdoes', hfail _ hnext'⟩
    | true =>
      obtain ⟨hdoes', hnext'⟩ := (Phase.Goes.rename w).does hh'
      exact ⟨hdoes', hdone _ hnext'⟩

theorem traced_save : traced (habits codec path) (.save proc token chain)
    (save codec path proc token chain)
    (fun h done => done = true ↔ ∃ record, phase token chain h = .renamed record) [] := by
  have hfalse : ∀ {h : Past signature} {ph : Phase}, phase token chain h = ph →
      (∀ record, ph ≠ .renamed record) →
      (false = true ↔ ∃ record, phase token chain h = .renamed record) := by
    intro h ph hphase hne
    simp [hphase, hne]
  unfold save
  refine traced_bind.2 fun made => ?_
  obtain ⟨hdoes, hmade⟩ := (Phase.Goes.createDirAll made).does (h := []) rfl
  refine ⟨hdoes, ?_⟩
  cases made with
  | false => exact hfalse hmade (by simp)
  | true =>
    refine traced_bind.2 fun now => ?_
    obtain ⟨hdoes, hnow⟩ := (Phase.Goes.clock now).does hmade
    refine ⟨hdoes, traced_bind.2 fun pid => ?_⟩
    obtain ⟨hdoes, hpid⟩ := (Phase.Goes.processId _ pid).does hnow
    refine ⟨hdoes, traced_bind.2 fun count => ?_⟩
    obtain ⟨hdoes, hcount⟩ := (Phase.Goes.fetchAdd _ pid count).does hpid
    let w : Draft := ⟨.of now token chain, pid, count⟩
    refine ⟨hdoes, traced_bind.2 (traced_writeNew (w := w) hcount ?_ ?_)⟩
    · intro h hren
      exact ⟨fun _ => ⟨_, hren⟩, fun _ => rfl⟩
    · intro h hfailed
      refine traced_bind.2 fun removal => ?_
      obtain ⟨hdoes, hover⟩ := (Phase.Goes.remove w removal).does hfailed
      exact ⟨hdoes, hfalse hover (by simp)⟩

theorem habits_sound : (habits codec path).Sound (system codec path) where
  body t := by
    cases t with
    | boot pid => exact fun started => ⟨⟨started, rfl⟩, started, rfl⟩
    | kill proc => exact fun _ => ⟨rfl, rfl⟩
    | load proc =>
      refine traced_bind.2 (traced_bind.2 fun data => ⟨⟨rfl, data, rfl⟩, ?_⟩)
      cases data with
      | none => exact ⟨none, rfl, rfl⟩
      | some data => exact ⟨some data, rfl, rfl⟩
    | save proc token chain =>
      exact traced_bind.2 (traced_mono (fun h done hdone => ⟨done, rfl, hdone⟩) traced_save)
    | clear proc =>
      refine traced_bind.2 (traced_bind.2 fun removal => ⟨⟨removal, rfl⟩, ?_⟩)
      cases removal <;> exact ⟨_, rfl⟩
  handler t h hpanic := by
    rcases hpanic with hpanic | hpanic <;> exact hpanic.elim

end

end LatteRs.Storage
