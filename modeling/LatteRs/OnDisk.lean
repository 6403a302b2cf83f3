import LatteRs.Concurrent.Refinement
import LatteRs.CacheWrites
import LatteRs.Saving

/-!
# The Sdk over the operations of its cache file

The methods of the Sdk with `load`, `save` and `clear` of `storage.rs` in place
of the reads and writes of the cache: what the clones share is a directory, in
which a save creates, fills and renames a file byte by byte while checks read.
A read may fail, and so may every operation of a save or a clear, at any point.

* `DiskEffect`, `onDisk`, `performed`: the programs;
* `Installed`, `Sdk.diskSystem`, `Sdk.diskStart`: the system;
* `atomic_load`, `atomic_save`, `atomic_clear`: the programs of `storage.rs` are
  atomic;
* `disk_refines`: the system refines that of `Sdk.system`.
-/

namespace LatteRs

open Concurrent

/-! ### Programs -/

/-- The operations: those of the Sdk, and those of `storage.rs`. -/
inductive DiskEffect
  | sdk (e : Effect)
  | file (e : Storage.Effect)

@[reducible] def DiskAnswer : DiskEffect → Type
  | .sdk e => Answer e
  | .file e => Storage.Answer e

abbrev diskSignature : Signature := signature.over DiskEffect DiskAnswer

/-- A program of `storage.rs` in a thread of the Sdk; it never starts a thread. -/
def onDisk {α : Type} : Program Storage.signature α → Program diskSignature α
  | .ret a => .ret a
  | .act e next => .act (.file e) fun r => onDisk (next r)
  | .lock next => .lock (onDisk next)
  | .tryLock next => .tryLock fun got => onDisk (next got)
  | .unlock next => .unlock (onDisk next)
  | .fork _ _ => .abort
  | .abort => .abort

variable {P : Platform} (sdk : Sdk P) (codec : Storage.Codec)

/-- The name of the cache file; a thread without a cache path performs no operation on it. -/
def Sdk.cacheName : String := sdk.cachePath.getD ""

/-- How an effect of the Sdk is performed in its process, which is the only one. -/
def performed : (e : Effect) → Program diskSignature (Answer e)
  | .load => onDisk (Storage.load codec sdk.cacheName 0)
  | .save token chain => onDisk (Storage.save codec sdk.cacheName 0 token chain)
  | .clear => onDisk (Storage.clear sdk.cacheName 0)
  | e => .act (.sdk e) .ret

/-! ### The system -/

/-- What the clones share, with the directory of the cache file. -/
structure Installed where
  disk : Storage.Disk
  renewal : Renewal
  renewalFailed : Bool
  spawned : ℕ

/-- What the clones share, when the cache is what the file decodes to. -/
def Installed.shared (s : Installed) : Shared :=
  ⟨Storage.decoded codec (s.disk.files sdk.cacheName), s.renewal, s.renewalFailed, s.spawned⟩

/-- The renewal state and the flag of the second state. -/
def Installed.noting (s : Installed) (v : Shared) : Installed :=
  { s with renewal := v.renewal, renewalFailed := v.renewalFailed, spawned := v.spawned }

/-- With another directory. -/
def Installed.on (s : Installed) (disk : Storage.Disk) : Installed := { s with disk := disk }

/-- The answers of the file system.  A read may fail like everything else. -/
def FileAdmits : (e : Storage.Effect) → Storage.Disk → Storage.Answer e → Prop
  | .read proc name, d, data => d.Alive proc ∧ (data = d.files name ∨ data = none)
  | e, d, r => Storage.Disk.admits e d r

/-- An Sdk and its clones in a process, over the files of a directory. -/
@[reducible] def Sdk.diskSystem : System diskSignature where
  Shared := Installed
  World := ℤ
  admits
    | .sdk e, s, newest, r => sdk.admits e (s.shared sdk codec) newest r
    | .file e, s, _, r => FileAdmits e s.disk r
  write
    | .sdk e, r, s => s.noting (Shared.write e r (s.shared sdk codec))
    | .file e, r, s => s.on (Storage.Disk.write e r s.disk)
  advance
    | .sdk e, r, newest => advance e r newest
    | .file _, _, newest => newest
  forked t s := s.noting (Shared.forked t (s.shared sdk codec))
  body t := (sdk.body t).expand (performed sdk codec)
  handler t := (handler t).expand (performed sdk codec)
  callable t := t.isBackground = false
  mayPanic t := t.isBackground = true

/-- The state that `Sdk::new` starts with in a new process with a directory of files. -/
def Installed.new (files : String → Option (List UInt8)) (pid : ℕ) : Installed :=
  ⟨⟨files, [⟨pid, true, 0⟩]⟩, ⟨0, none, none⟩, false, 0⟩

def Sdk.diskStart (files : String → Option (List UInt8)) (pid : ℕ) (newest : ℤ) :
    Config (sdk.diskSystem codec) := Config.init (Installed.new files pid) newest

/-! ### The two levels -/

/-- The effects that may change the directory or what is noted. -/
def DiskEffect.writes : DiskEffect → Bool
  | .sdk e => e.writes
  | .file (.read ..) => false
  | .file _ => true

/-- The effects that are not operations on the cache. -/
def Effect.uncached : Effect → Bool
  | .load | .save .. | .clear => false
  | _ => true

/-- What is seen of an effect: all of it, unless it is an operation on the cache. -/
def seenUncached (e : Effect) (r : Answer e) : Option (Event signature) :=
  if e.uncached then some (.did e r) else none

/-- A directory stands for what its cache file decodes to. -/
@[reducible] def Sdk.levels : Levels (sdk.diskSystem codec) sdk.system where
  abs := Installed.shared sdk codec
  absWorld := id
  writes e := e.writes = true
  Inv s := Invariant (s.shared sdk codec)
  Seen := Event signature
  seen
    | .sdk e, r => seenUncached e r
    | .file _, _ => none
  seenUp := seenUncached

variable {sdk codec}

/-- Files other than the cache file are not looked at. -/
theorem shared_on {s : Installed} {disk : Storage.Disk}
    (h : disk.files sdk.cacheName = s.disk.files sdk.cacheName) :
    (s.on disk).shared sdk codec = s.shared sdk codec := by
  unfold Installed.shared Installed.on
  rw [h]

/-- What is noted is all that an effect changes that leaves the cache alone. -/
theorem shared_noting {s : Installed} {v : Shared} (h : v.cache = (s.shared sdk codec).cache) :
    (s.noting v).shared sdk codec = v := by
  obtain ⟨cache, renewal, renewalFailed, spawned⟩ := v
  cases h
  rfl

theorem invariant_of_shared {s : Installed} {v : Shared} (h : s.shared sdk codec = v)
    (hv : Invariant v) : Invariant (s.shared sdk codec) := by
  rw [h]
  exact hv

/-! ### The programs of `storage.rs` under the lock -/

section
variable {α : Type} {f : α → Program diskSignature Outcome}
  {p : Program signature Outcome} {s : Installed}

/-- An operation that the upper level does not see. -/
theorem refines_unseen {e : Storage.Effect} {q : Storage.Answer e → Program Storage.signature α}
    (hp : p.result? = none) (hs : Invariant (s.shared sdk codec))
    (h : ∀ r, FileAdmits e s.disk r →
      (s.on (Storage.Disk.write e r s.disk)).shared sdk codec = s.shared sdk codec ∧
        (sdk.levels codec).Refines (onDisk (q r) >>= f) p
          (some (s.on (Storage.Disk.write e r s.disk)))) :
    (sdk.levels codec).Refines (onDisk (Storage.perform e >>= q) >>= f) p (some s) := by
  refine ⟨hp, fun newest r hr => ?_⟩
  obtain ⟨hsame, hq⟩ := h r hr
  exact ⟨invariant_of_shared hsame hs, Or.inl ⟨rfl, hsame, rfl, hq⟩⟩

/-- An operation on a file that is not the cache file. -/
theorem shared_set (s : Installed) {name : String} (h : name ≠ sdk.cacheName)
    (content : Option (List UInt8)) :
    (s.on (s.disk.set name content)).shared sdk codec = s.shared sdk codec :=
  shared_on (s.disk.set_files_of_ne h content)

/-- Writing the bytes of a file, to the end or to the first failure. -/
theorem refines_writeAll {tmp : String} {c : Bool → Program Storage.signature α}
    (hp : p.result? = none) (htmp : tmp ≠ sdk.cacheName) (rest : List UInt8)
    (hs : Invariant (s.shared sdk codec)) {written : List UInt8}
    (hfile : s.disk.files tmp = some written)
    (hfail : ∀ s' : Installed, s'.shared sdk codec = s.shared sdk codec →
      (sdk.levels codec).Refines (onDisk (c false) >>= f) p (some s'))
    (hdone : ∀ s' : Installed, s'.shared sdk codec = s.shared sdk codec →
      s'.disk.files tmp = some (written ++ rest) →
        (sdk.levels codec).Refines (onDisk (c true) >>= f) p (some s')) :
    (sdk.levels codec).Refines (onDisk (Storage.writeAll 0 tmp rest >>= c) >>= f) p (some s) := by
  induction rest generalizing s written with
  | nil =>
    refine hdone s rfl ?_
    rw [List.append_nil]
    exact hfile
  | cons byte rest ih =>
    unfold Storage.writeAll
    rw [Program.bind_bind]
    refine refines_unseen hp hs fun wrote hadmits => ?_
    cases wrote with
    | false => exact ⟨rfl, hfail _ rfl⟩
    | true =>
      have hsame : (s.on (s.disk.set tmp ((s.disk.files tmp).map (· ++ [byte])))).shared sdk codec =
          s.shared sdk codec := shared_set s htmp _
      have happended : (s.disk.set tmp ((s.disk.files tmp).map (· ++ [byte]))).files tmp =
          some (written ++ [byte]) := by
        rw [Storage.Disk.set_files_self, hfile]
        rfl
      refine ⟨hsame, ih (invariant_of_shared hsame hs) happended ?_ ?_⟩
      · intro s' hs'
        exact hfail s' (hs'.trans hsame)
      · intro s' hs' hfile'
        refine hdone s' (hs'.trans hsame) ?_
        rw [hfile']
        simp

end

section
variable {f : Bool → Program diskSignature Outcome} {s : Installed} {token : String}
  {chain : CertChain} {next : Bool → Program signature Outcome}

/-- Writing a new file and renaming it into place. -/
theorem refines_writeNew {tmp : String} {data : List UInt8}
    {c : Bool → Program Storage.signature Bool} (htmp : tmp ≠ sdk.cacheName)
    (hdata : Storage.decoded codec (some data) = some (token, chain))
    (hs : Invariant (s.shared sdk codec))
    (hfail : ∀ s' : Installed, s'.shared sdk codec = s.shared sdk codec →
      (sdk.levels codec).Refines (onDisk (c false) >>= f) (.act (.save token chain) next) (some s'))
    (hdone : ∀ s' : Installed,
      s'.shared sdk codec = { s.shared sdk codec with cache := some (token, chain) } →
        (sdk.levels codec).Refines (onDisk (c true) >>= f) (next true) (some s')) :
    (sdk.levels codec).Refines (onDisk (Storage.writeNew sdk.cacheName 0 tmp data >>= c) >>= f)
      (.act (.save token chain) next) (some s) := by
  unfold Storage.writeNew
  rw [Program.bind_bind]
  refine refines_unseen rfl hs fun created hadmits => ?_
  cases created with
  | false => exact ⟨rfl, hfail _ rfl⟩
  | true =>
    have hsame : (s.on (s.disk.set tmp (some []))).shared sdk codec = s.shared sdk codec :=
      shared_set s htmp _
    have hempty : (s.disk.set tmp (some [])).files tmp = some [] :=
      Storage.Disk.set_files_self _ _ _
    refine ⟨hsame, ?_⟩
    simp only [Program.bind_bind]
    refine refines_writeAll rfl htmp data (invariant_of_shared hsame hs) hempty ?_ ?_
    · intro s' hs'
      exact hfail s' (hs'.trans hsame)
    · intro s' hs' hfile
      have hs₁ : s'.shared sdk codec = s.shared sdk codec := hs'.trans hsame
      have hinv : Invariant (s'.shared sdk codec) := invariant_of_shared hs₁ hs
      -- the rename is where the save takes place
      refine ⟨rfl, fun newest renamed hadmits => ?_⟩
      cases renamed with
      | false => exact ⟨hinv, Or.inl ⟨rfl, rfl, rfl, hfail _ hs₁⟩⟩
      | true =>
        have hput : (s'.on (Storage.Disk.write (.rename 0 tmp sdk.cacheName) true s'.disk)).shared
            sdk codec = { s'.shared sdk codec with cache := some (token, chain) } := by
          have hcache : (Storage.Disk.write (.rename 0 tmp sdk.cacheName) true s'.disk).files
              sdk.cacheName = some data :=
            (Storage.Disk.set_files_self _ _ _).trans hfile
          unfold Installed.shared Installed.on
          simp only [hcache, hdata]
        refine ⟨invariant_of_shared hput hinv,
          Or.inr ⟨.save token chain, next, true, rfl, rfl, trivial, hput, rfl, hdone _ ?_⟩⟩
        rw [hput, hs₁]

end

/-! ### Every effect is atomic -/

section
variable {k : Contract sdk.system}

/-- An effect that is one operation on both levels. -/
theorem atomic_sdk {e : Effect} (he : performed sdk codec e = .act (.sdk e) .ret)
    (hcache : ∀ (r : Answer e) (v : Shared), (Shared.write e r v).cache = v.cache) :
    (sdk.levels codec).Atomic sdk.contract (performed sdk codec) e where
  free hquiet f next hnext := by
    rw [he]
    refine ⟨rfl, hquiet, fun s newest r hs hr => ?_⟩
    exact Or.inr ⟨e, next, r, rfl, rfl, hr, (write_quiet hquiet).symm, rfl, hnext r ⟨_, _, hs, hr⟩⟩
  locked s hs hkeeps f next hnext := by
    rw [he]
    refine ⟨rfl, fun newest r hr => ?_⟩
    have hshared : (s.noting (Shared.write e r (s.shared sdk codec))).shared sdk codec =
        Shared.write e r (s.shared sdk codec) := shared_noting (hcache r _)
    have hinv := invariant_of_shared hshared (hkeeps newest r hr)
    exact ⟨hinv, Or.inr ⟨e, next, r, rfl, rfl, hr, hshared, rfl,
      hnext r _ hinv ⟨newest, hr⟩ hshared⟩⟩

/-- What a read finds is what the cache is, or nothing. -/
theorem read_admits {s : Installed} {data : Option (List UInt8)} (newest : ℤ)
    (h : FileAdmits (.read 0 sdk.cacheName) s.disk data) :
    sdk.admits .load (s.shared sdk codec) newest (Storage.decoded codec data) := by
  obtain ⟨-, rfl | rfl⟩ := h
  · exact Or.inl rfl
  · exact Or.inr rfl

theorem onDisk_load (f : Option (String × CertChain) → Program diskSignature Outcome) :
    (performed sdk codec .load >>= f) = .act (.file (.read 0 sdk.cacheName)) fun data =>
      f (Storage.decoded codec data) := by
  show Program.act _ _ = _
  congr 1
  funext data
  cases data <;> rfl

theorem atomic_load :
    (sdk.levels codec).Atomic sdk.contract (performed sdk codec) .load where
  free hquiet f next hnext := by
    rw [onDisk_load]
    refine ⟨rfl, Bool.false_ne_true, fun s newest data hs hadmits => ?_⟩
    have hr : sdk.admits .load (s.shared sdk codec) newest (Storage.decoded codec data) :=
      read_admits newest hadmits
    exact Or.inr ⟨.load, next, _, rfl, rfl, hr, rfl, rfl, hnext _ ⟨_, newest, hs, hr⟩⟩
  locked s hs hkeeps f next hnext := by
    rw [onDisk_load]
    refine ⟨rfl, fun newest data hadmits => ⟨hs, ?_⟩⟩
    have hr : sdk.admits .load (s.shared sdk codec) newest (Storage.decoded codec data) :=
      read_admits newest hadmits
    exact Or.inr ⟨.load, next, _, rfl, rfl, hr, rfl, rfl, hnext _ _ hs ⟨newest, hr⟩ rfl⟩

theorem atomic_clear :
    (sdk.levels codec).Atomic sdk.contract (performed sdk codec) .clear where
  free hquiet := absurd rfl hquiet
  locked s hs hkeeps f next hnext := by
    refine ⟨rfl, fun newest removal hadmits => ?_⟩
    cases removal with
    | removed =>
      have hgone : (s.on (s.disk.set sdk.cacheName none)).shared sdk codec =
          { s.shared sdk codec with cache := none } := by
        unfold Installed.shared Installed.on
        simp only [Storage.Disk.set_files_self]
        rfl
      have hinv := invariant_of_shared hgone hs
      exact ⟨hinv, Or.inr ⟨.clear, next, true, rfl, rfl, trivial, hgone, rfl,
        hnext true _ hinv ⟨newest, trivial⟩ hgone⟩⟩
    | notFound =>
      -- a file that is not there is no activation
      have hgone : s.shared sdk codec = { s.shared sdk codec with cache := none } := by
        unfold Installed.shared
        rw [hadmits.2.2 rfl]
        rfl
      exact ⟨hs, Or.inr ⟨.clear, next, true, rfl, rfl, trivial, hgone, rfl,
        hnext true s hs ⟨newest, trivial⟩ hgone⟩⟩
    | failed =>
      exact ⟨hs, Or.inr ⟨.clear, next, false, rfl, rfl, trivial, rfl, rfl,
        hnext false s hs ⟨newest, trivial⟩ rfl⟩⟩

theorem atomic_save (token : String) (chain : CertChain) :
    (sdk.levels codec).Atomic sdk.contract (performed sdk codec) (.save token chain) where
  free hquiet := absurd rfl hquiet
  locked s hs hkeeps f next hnext := by
    -- a save that gives up leaves what it found
    have hfail : ∀ s' : Installed, s'.shared sdk codec = s.shared sdk codec →
        (sdk.levels codec).Refines (f false) (next false) (some s') := fun s' hs' =>
      hnext false s' (invariant_of_shared hs' hs) ⟨0, trivial⟩ hs'
    show (sdk.levels codec).Refines (onDisk (Storage.save codec sdk.cacheName 0 token chain) >>= f)
      _ _
    unfold Storage.save
    refine ⟨rfl, fun newest made hadmits => ⟨hs, ?_⟩⟩
    cases made with
    | false =>
      exact Or.inr ⟨.save token chain, next, false, rfl, rfl, trivial, rfl, rfl, hfail _ rfl⟩
    | true =>
      refine Or.inl ⟨rfl, rfl, rfl, ?_⟩
      refine refines_unseen rfl hs fun now _ => ⟨rfl, ?_⟩
      refine refines_unseen rfl hs fun pid _ => ⟨rfl, ?_⟩
      refine refines_unseen rfl hs fun count _ => ⟨rfl, ?_⟩
      refine refines_writeNew (Storage.tmpName_ne _ _ _) ?_ hs ?_ ?_
      · simp [Storage.decoded, codec.fromSlice_of]
      · intro s' hs'
        refine ⟨rfl, fun newest removal _ => ?_⟩
        have hleft : (s'.on (Storage.Disk.write
            (.remove 0 (Storage.tmpName sdk.cacheName pid count)) removal s'.disk)).shared
              sdk codec = s'.shared sdk codec := by
          cases removal with
          | removed => exact shared_set _ (Storage.tmpName_ne _ _ _) none
          | notFound => rfl
          | failed => rfl
        have hsame := hleft.trans hs'
        exact ⟨invariant_of_shared hsame hs,
          Or.inr ⟨.save token chain, next, false, rfl, rfl, trivial, hleft, rfl, hfail _ hsame⟩⟩
      · intro s' hs'
        exact hnext true s' (invariant_of_shared hs' hs) ⟨0, trivial⟩ hs'

/-- **Every effect of the Sdk is atomic over the operations of the cache file.** -/
theorem atomic_performed (e : Effect) :
    (sdk.levels codec).Atomic sdk.contract (performed sdk codec) e := by
  cases e with
  | load => exact atomic_load
  | save token chain => exact atomic_save token chain
  | clear => exact atomic_clear
  | _ => exact atomic_sdk rfl fun _ _ => rfl

end

/-! ### Refinement -/

theorem disk_quiet (e : DiskEffect) (r : DiskAnswer e) (s : Installed) (h : ¬ e.writes = true) :
    (sdk.diskSystem codec).write e r s = s := by
  cases e with
  | sdk e =>
    show s.noting (Shared.write e r (s.shared sdk codec)) = s
    rw [write_quiet h]
    rfl
  | file e => cases e <;> first | rfl | exact absurd rfl h

/-- What starting a thread changes is noted. -/
theorem disk_forked (t : Task) (s : Installed) :
    (s.noting (Shared.forked t (s.shared sdk codec))).shared sdk codec =
      Shared.forked t (s.shared sdk codec) := by
  refine shared_noting ?_
  cases t <;> rfl

/-- A thread that unwinds keeps the contract. -/
theorem exists_wp_handler (t : Task) :
    ∃ h Q, wp sdk.contract t (handler t) Q h none := by
  cases t with
  | background attempt activationId licenseKey =>
    exact ⟨[], _, sdk.sound.handler (.background attempt activationId licenseKey) [] (Or.inl rfl)⟩
  | _ => exact ⟨[], fun _ _ _ => True, trivial⟩

theorem levels_sound : (sdk.levels codec).Sound := by
  refine Levels.sound_expand sdk.sound (fun s hs => hs)
    atomic_performed disk_quiet (fun t s hs hforked => ?_) (fun t ht => ht) (fun t ht => ht)
    (fun t => rfl) (fun t => rfl) exists_wp_handler
  have hsame : (s.noting (Shared.forked t (s.shared sdk codec))).shared sdk codec =
      Shared.forked t (s.shared sdk codec) := disk_forked t s
  exact ⟨invariant_of_shared hsame hforked, hsame⟩

/-- What a thread has asked for and got, but for the cache. -/
abbrev uncachedPast (h : Past signature) : List (Event signature) := view seenUncached h

/-- What a thread over the files has asked for and got, but for the files. -/
abbrev sdkPast (h : Past diskSignature) : List (Event signature) :=
  view (S := diskSignature) (fun
    | .sdk e, r => seenUncached e r
    | .file _, _ => none) h

/-- A configuration over the files and one over an atomic cache that nobody can tell apart: what
the file decodes to is what the cache holds, the same calls were made in the same order, have seen
the same of the clock, the server and the other threads, and have returned the same. -/
structure Looks (c : Config (sdk.diskSystem codec)) (a : Config sdk.system) : Prop where
  shared : a.shared = c.shared.shared sdk codec
  world : a.world = c.world
  holder : a.holder = c.holder
  length : a.threads.length = c.threads.length
  thread : ∀ (i : ℕ) (th : Thread diskSignature), c.threads[i]? = some th →
    ∃ th', a.threads[i]? = some th' ∧ th'.task = th.task ∧
      uncachedPast th'.past = sdkPast th.past
  returned : ∀ i, a.returned i = c.returned i

theorem looks_of_related {c : Config (sdk.diskSystem codec)} {a : Config sdk.system}
    (h : (sdk.levels codec).Related c a) : Looks c a where
  shared := h.shared
  world := h.world
  holder := h.holder
  length := h.length
  thread i th hi := by
    obtain ⟨th', hi', halike, -⟩ := h.thread i th hi
    exact ⟨th', hi', halike.task, halike.view⟩
  returned := h.returned

theorem related_start (files : String → Option (List UInt8)) (pid : ℕ) (newest : ℤ) :
    (sdk.levels codec).Related (sdk.diskStart codec files pid newest)
      (sdk.start (Storage.decoded codec (files sdk.cacheName)) newest) := by
  have hinv : (sdk.levels codec).Inv (Installed.new files pid) := Nat.le_refl 0
  exact Levels.Related.init newest hinv

/-- **The Sdk over its cache file refines the Sdk over an atomic cache.**  Step by step, whatever
operations of the file system fail and wherever background renewals panic, an operation of a save,
a clear or a load does nothing that can be seen, or does all of it; every other step is the same on
both levels. -/
theorem disk_refines (sdk : Sdk P) (codec : Storage.Codec) (files : String → Option (List UInt8))
    (pid : ℕ) (newest : ℤ) :
    ∃ R : Config (sdk.diskSystem codec) → Config sdk.system → Prop,
      R (sdk.diskStart codec files pid newest)
        (sdk.start (Storage.decoded codec (files sdk.cacheName)) newest) ∧
      (∀ c a, R c a → Looks c a) ∧
      ∀ c a l c', R c a → Step c l c' → ∃ a', R c' a' ∧
        (a' = a ∧ (∃ i e r, l = .op i (.did e r)) ∨ ∃ l', Step a l' a' ∧ Levels.Mirrors l l') :=
  ⟨(sdk.levels codec).Related, related_start files pid newest, fun _ _ => looks_of_related,
    fun _ _ _ _ h hstep => h.step levels_sound hstep⟩

end LatteRs
