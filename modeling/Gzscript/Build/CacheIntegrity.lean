import Gzscript.Build.ModuleCache

/-!
# What a matching stamp vouches for

Whatever the processes do, and wherever they crash, a module file holds the complete output of one
compiler run whose plan had the key of the module before the run, and whose key was computed again
after it and was still the same, as long as no plan shares its files with a compiler that has
outlived its job (`Unshared`). `sharedMoves` is a run in which one does: the compiler of a crashed
process writes into the file that a process with the same identifier is about to publish.

`Integrity` is the invariant. Besides the modules it speaks of the output files of the compilers:
one whose compiler has ended holds what the compiler had written, and one that is to be published is
confirmed by a run already. A compiler that nobody waits for any more does not interfere, since a
job that shares its file only leaves (`orphans`). Each change that a move is made of keeps the
invariant (`setFile_none`, `publish`, `goTo`, `dropJob` and so on), so each move that shares nothing
does (`integrity_step`), and a stamp that matches implies that there is a module
(`module_of_matching_stamp`).

The locks carry none of this: a module only ever appears by the renaming of a file that one job has
to itself.
-/

set_option autoImplicit false
set_option relaxedAutoImplicit false

namespace Gzscript.Build.ModuleCache

open Library.Bytes Library.Transition

/-- The phase once the files that are being removed are gone. -/
@[simp] def Phase.next : Phase → Phase
  | .removing _ next => next.next
  | phase => phase

/-- A file that is renamed over the module next, or once it is known that no peer has done so. -/
def Phase.AwaitsPublication (phase : Phase) : Prop :=
  phase.next = .publish ∨ phase.next = .replace

/-! ### The invariant -/

/-- Some bytes are the output of a run whose key was the same before it and after it. -/
def Confirmed (cache : Cache) (key : Key) (bytes : ByteString) : Prop :=
  ∃ run ∈ cache.runs,
    run.plannedKey = key ∧ run.recomputedKey = key ∧ run.output = some bytes

/-- What holds of a job and of the output file of its compiler. -/
structure JobOk (cache : Cache) (id : JobId) (job : Job) : Prop where
  finished : job.phase.next = .exited 0 →
    ∀ bytes, cache.files (.compileOutput job.key id) = some bytes → job.produced = some bytes
  confirmed : job.phase.AwaitsPublication →
    ∀ bytes, cache.files (.compileOutput job.key id) = some bytes → Confirmed cache job.key bytes

structure Integrity (cache : Cache) : Prop where
  modules : ∀ key bytes, cache.files (.output key) = some bytes → Confirmed cache key bytes
  jobs : ∀ id job, cache.jobs id = some job → JobOk cache id job
  orphans : ∀ id key, (id, key) ∈ cache.orphans →
    ∀ job, cache.jobs id = some job → job.key = key → job.phase.next = .release

theorem integrity_empty : Integrity empty where
  modules _ _ h := by cases h
  jobs _ _ h := by cases h
  orphans _ _ h := by cases h

/-- A phase in which nothing is known of the output file of the compiler. -/
def Phase.Idle (phase : Phase) : Prop := phase.next ≠ .exited 0 ∧ ¬ phase.AwaitsPublication

@[simp] theorem Phase.idle_iff (phase : Phase) : phase.Idle ↔
    phase.next ≠ .exited 0 ∧ phase.next ≠ .publish ∧ phase.next ≠ .replace := by
  simp only [Phase.Idle, Phase.AwaitsPublication, not_or, ne_eq]

theorem JobOk.of_idle {cache : Cache} {id : JobId} {job : Job} (hidle : job.phase.Idle) :
    JobOk cache id job :=
  ⟨fun hnext ↦ absurd hnext hidle.1, fun hawaits ↦ absurd hawaits hidle.2⟩

/-- A job stays as it is when runs are added, and when no file appears where its compiler writes. -/
theorem JobOk.mono {before after : Cache} {id : JobId} {job : Job} (hok : JobOk before id job)
    (hruns : ∀ run ∈ before.runs, run ∈ after.runs)
    (hfiles : ∀ bytes, after.files (.compileOutput job.key id) = some bytes →
      before.files (.compileOutput job.key id) = some bytes) : JobOk after id job := by
  refine ⟨fun hnext bytes hfile ↦ hok.finished hnext bytes (hfiles bytes hfile),
    fun hawaits bytes hfile ↦ ?_⟩
  obtain ⟨run, hrun, hkeys⟩ := hok.confirmed hawaits bytes (hfiles bytes hfile)
  exact ⟨run, hruns run hrun, hkeys⟩

theorem JobOk.frame {before after : Cache} {id : JobId} {job : Job} (hok : JobOk before id job)
    (hruns : after.runs = before.runs) (hfiles : after.files = before.files) :
    JobOk after id job :=
  hok.mono (fun _ hrun ↦ hruns ▸ hrun) fun _ hfile ↦ hfiles ▸ hfile

/-! ### Changes that keep the invariant -/

namespace Integrity

variable {cache : Cache}

/-- The file of a path changes, and what may then be there is known. -/
theorem setFile (hcache : Integrity cache) (path : Path) (file : Option ByteString)
    (hmodule : ∀ key, path = .output key → ∀ bytes, file = some bytes → Confirmed cache key bytes)
    (houtput : ∀ key id, path = .compileOutput key id → ∀ bytes, file = some bytes →
      ∀ job, cache.jobs id = some job → job.key = key → job.phase.Idle) :
    Integrity (cache.setFile path file) where
  modules key bytes hfile := by
    by_cases hpath : path = .output key
    · subst hpath
      exact hmodule key rfl bytes (by simpa [Cache.setFile] using hfile)
    · refine hcache.modules key bytes ?_
      simpa [Cache.setFile, Function.update_of_ne (Ne.symm hpath)] using hfile
  jobs id job hjob := by
    have hok := hcache.jobs id job hjob
    by_cases hpath : path = .compileOutput job.key id
    · cases hempty : file with
      | none =>
        refine hok.mono (fun _ hrun ↦ hrun) fun bytes hfile ↦ ?_
        simp [Cache.setFile, hpath] at hfile
      | some bytes => exact .of_idle (houtput _ id hpath bytes hempty job hjob rfl)
    · refine hok.mono (fun _ hrun ↦ hrun) fun bytes hfile ↦ ?_
      simpa [Cache.setFile, Function.update_of_ne (Ne.symm hpath)] using hfile
  orphans := hcache.orphans

theorem setFile_none (hcache : Integrity cache) (path : Path) :
    Integrity (cache.setFile path none) :=
  hcache.setFile path none (fun _ _ _ h ↦ by cases h) (fun _ _ _ _ h ↦ by cases h)

theorem setFile_generated (hcache : Integrity cache) (key : Key) (id : JobId)
    (file : Option ByteString) : Integrity (cache.setFile (.generated key id) file) :=
  hcache.setFile _ file (fun _ h ↦ by cases h) (fun _ _ h ↦ by cases h)

theorem setFile_stamp (hcache : Integrity cache) (key : Key) (file : Option ByteString) :
    Integrity (cache.setFile (.stamp key) file) :=
  hcache.setFile _ file (fun _ h ↦ by cases h) (fun _ _ h ↦ by cases h)

theorem setFile_stampOutput (hcache : Integrity cache) (key : Key) (id : JobId)
    (file : Option ByteString) : Integrity (cache.setFile (.stampOutput key id) file) :=
  hcache.setFile _ file (fun _ h ↦ by cases h) (fun _ _ h ↦ by cases h)

/-- A confirmed output is renamed over the module. -/
theorem publish (hcache : Integrity cache) {key : Key} {bytes : ByteString}
    (hconfirmed : Confirmed cache key bytes) :
    Integrity (cache.setFile (.output key) (some bytes)) := by
  refine hcache.setFile _ _ ?_ (fun _ _ h ↦ by cases h)
  intro other hpath written hwritten
  cases hpath
  cases hwritten
  exact hconfirmed

/-- A compiler writes to its output while its job waits for it, or has given it up. -/
theorem compilerWrites (hcache : Integrity cache) {key : Key} {id : JobId}
    (file : Option ByteString)
    (hidle : ∀ job, cache.jobs id = some job → job.key = key → job.phase.Idle) :
    Integrity (cache.setFile (.compileOutput key id) file) := by
  refine hcache.setFile _ _ (fun _ h ↦ by cases h) ?_
  intro other owner hpath _ _ job hjob hkey
  cases hpath
  exact hidle job hjob hkey

/-- A job that is there changes, and leaves if it was leaving. -/
theorem setJob (hcache : Integrity cache) {id : JobId} {job after : Job}
    (hjob : cache.jobs id = some job) (hok : JobOk cache id after) (hkey : after.key = job.key)
    (hleaves : job.phase.next = .release → after.phase.next = .release) :
    Integrity (cache.setJob id (some after)) where
  modules := hcache.modules
  jobs other found hfound := by
    by_cases hid : other = id
    · subst hid
      cases show some after = some found by simpa [Cache.setJob] using hfound
      exact hok.frame rfl rfl
    · have hold : cache.jobs other = some found := by
        simpa [Cache.setJob, Function.update_of_ne hid] using hfound
      exact (hcache.jobs other found hold).frame rfl rfl
  orphans other key horphan found hfound hfoundKey := by
    by_cases hid : other = id
    · subst hid
      cases show some after = some found by simpa [Cache.setJob] using hfound
      exact hleaves (hcache.orphans other key horphan job hjob (hkey.symm.trans hfoundKey))
    · refine hcache.orphans other key horphan found ?_ hfoundKey
      simpa [Cache.setJob, Function.update_of_ne hid] using hfound

/-- A job that is not leaving goes on with a phase in which nothing is known of the output of its
compiler. -/
theorem goTo (hcache : Integrity cache) {id : JobId} {job : Job} {phase : Phase}
    (hjob : cache.jobs id = some job) (hstays : job.phase.next ≠ .release)
    (hidle : phase.Idle) : Integrity (cache.goTo id job phase) :=
  hcache.setJob hjob (.of_idle hidle) rfl fun hleaves ↦ absurd hleaves hstays

/-- A job goes on with a phase that leads to the same one. -/
theorem goTo_same (hcache : Integrity cache) {id : JobId} {job : Job} {phase : Phase}
    (hjob : cache.jobs id = some job) (hnext : phase.next = job.phase.next) :
    Integrity (cache.goTo id job phase) := by
  have hok := hcache.jobs id job hjob
  refine hcache.setJob hjob ⟨fun h ↦ hok.finished ?_, fun h ↦ hok.confirmed ?_⟩ rfl hnext.trans
  · exact hnext.symm.trans h
  · simpa only [Phase.AwaitsPublication, hnext] using h

theorem dropJob (hcache : Integrity cache) (id : JobId) : Integrity (cache.setJob id none) := by
  have hkept : ∀ other found, (cache.setJob id none).jobs other = some found →
      cache.jobs other = some found := by
    intro other found hfound
    by_cases hid : other = id
    · simp [Cache.setJob, hid] at hfound
    · simpa [Cache.setJob, Function.update_of_ne hid] using hfound
  constructor
  · exact hcache.modules
  · intro other found hfound
    exact (hcache.jobs other found (hkept other found hfound)).frame rfl rfl
  · exact fun other key horphan found hfound ↦
      hcache.orphans other key horphan found (hkept other found hfound)

theorem setHolder (hcache : Integrity cache) (key : Key) (holder : Option JobId) :
    Integrity (cache.setHolder key holder) :=
  ⟨hcache.modules, fun id job hjob ↦ (hcache.jobs id job hjob).frame rfl rfl, hcache.orphans⟩

theorem setNextRequest (hcache : Integrity cache) (pid request : ℕ) :
    Integrity (cache.setNextRequest pid request) :=
  ⟨hcache.modules, fun id job hjob ↦ (hcache.jobs id job hjob).frame rfl rfl, hcache.orphans⟩

theorem takeNumber (hcache : Integrity cache) (pid : ℕ) : Integrity (cache.takeNumber pid) :=
  hcache.setNextRequest pid _

/-- A new job that shares its files with no compiler that runs without one. -/
theorem addJob (hcache : Integrity cache) (pid : ℕ) (key : Key) {phase : Phase}
    (hidle : phase.Idle) (hunshared : (⟨pid, cache.nextRequest pid⟩, key) ∉ cache.orphans) :
    Integrity (cache.addJob pid key phase) := by
  have hnew : ∀ id found, (cache.addJob pid key phase).jobs id = some found →
      (id = ⟨pid, cache.nextRequest pid⟩ ∧ found = ⟨key, phase, none⟩) ∨
        cache.jobs id = some found := by
    intro id found hfound
    by_cases hid : id = ⟨pid, cache.nextRequest pid⟩
    · subst hid
      have hsame : some (⟨key, phase, none⟩ : Job) = some found := by
        simpa [Cache.addJob, Cache.setJob] using hfound
      exact .inl ⟨rfl, (Option.some.inj hsame).symm⟩
    · refine .inr ?_
      simpa [Cache.addJob, Cache.setJob, Cache.takeNumber, Cache.setNextRequest,
        Function.update_of_ne hid] using hfound
  constructor
  · exact hcache.modules
  · intro id found hfound
    obtain ⟨-, rfl⟩ | hold := hnew id found hfound
    · exact .of_idle hidle
    · exact (hcache.jobs id found hold).frame rfl rfl
  · intro id other horphan found hfound hkey
    obtain ⟨rfl, rfl⟩ | hold := hnew id found hfound
    · subst hkey
      exact absurd horphan hunshared
    · exact hcache.orphans id other horphan found hold hkey

theorem recordRun (hcache : Integrity cache) (run : CompilerRun) :
    Integrity (cache.recordRun run) where
  modules key bytes hfile := by
    obtain ⟨earlier, hearlier, hkeys⟩ := hcache.modules key bytes hfile
    exact ⟨earlier, List.mem_cons_of_mem run hearlier, hkeys⟩
  jobs id job hjob :=
    (hcache.jobs id job hjob).mono (fun _ ↦ List.mem_cons_of_mem run) fun _ hfile ↦ hfile
  orphans := hcache.orphans

/-- A compiler is given up by a job that leaves. -/
theorem addOrphan (hcache : Integrity cache) {id : JobId} {job : Job} (key : Key)
    (hjob : cache.jobs id = some job) (hleaves : job.phase.next = .release) :
    Integrity (cache.addOrphan id key) where
  modules := hcache.modules
  jobs other found hfound := (hcache.jobs other found hfound).frame rfl rfl
  orphans other owner horphan found hfound hkey := by
    obtain heq | horphan := List.mem_cons.mp horphan
    · cases heq
      cases show some job = some found from hjob.symm.trans hfound
      exact hleaves
    · exact hcache.orphans other owner horphan found hfound hkey

theorem dropOrphan (hcache : Integrity cache) (orphan : JobId × Key) :
    Integrity { cache with orphans := cache.orphans.erase orphan } where
  modules := hcache.modules
  jobs id job hjob := (hcache.jobs id job hjob).frame rfl rfl
  orphans id key horphan := hcache.orphans id key (List.mem_of_mem_erase horphan)

theorem begin (hcache : Integrity cache) (pid : ℕ) : Integrity (cache.begin pid) :=
  ⟨hcache.modules, fun id job hjob ↦ (hcache.jobs id job hjob).frame rfl rfl, hcache.orphans⟩

/-! ### Moves -/

/-- The access of a job keeps the invariant, phase by phase in the order of `Cache.advance`. -/
theorem advance (sha256 : ByteString → ByteString) (hcache : Integrity cache) {id : JobId}
    {job : Job} (hjob : cache.jobs id = some job) (success : Bool) :
    Integrity (cache.advance sha256 id job success) := by
  have hok := hcache.jobs id job hjob
  simp only [Cache.advance]
  split
  next hphase =>
    have hstays : job.phase.next ≠ .release := by simp [hphase]
    split_ifs
    · exact hcache.goTo hjob hstays (by simp)
    · exact hcache.goTo hjob hstays (by simp)
    · exact hcache.goTo hjob hstays (by simp)
  next hphase =>
    exact (hcache.setFile_generated _ _ _).goTo hjob (by simp [hphase]) (by simp)
  next hphase =>
    split_ifs
    · exact hcache.goTo hjob (by simp [hphase]) (by simp)
    · exact hcache.goTo hjob (by simp [hphase]) (by simp)
  next code hphase =>
    split_ifs
    · exact hcache
    · exact hcache.goTo hjob (by simp [hphase]) (by simp)
  next hphase =>
    split_ifs
    · exact hcache.goTo hjob (by simp [hphase]) (by simp)
    · -- No peer has published: the file is still confirmed when it is renamed.
      have hawaits : job.phase.AwaitsPublication := .inl (by simp [hphase])
      exact hcache.setJob hjob ⟨by simp, fun _ ↦ hok.confirmed hawaits⟩ rfl (by simp [hphase])
  next hphase =>
    split
    next bytes hbytes =>
      have hawaits : job.phase.AwaitsPublication := .inr (by simp [hphase])
      have hpublished := hcache.publish (hok.confirmed hawaits bytes hbytes)
      exact (hpublished.setFile_none _).goTo hjob (by simp [hphase]) (by simp)
    next => exact hcache.goTo hjob (by simp [hphase]) (by simp)
  next hphase =>
    split_ifs
    · exact hcache.goTo hjob (by simp [hphase]) (by simp)
    · exact hcache.goTo hjob (by simp [hphase]) (by simp)
  next hphase =>
    exact (hcache.setFile_stampOutput _ _ _).goTo hjob (by simp [hphase]) (by simp)
  next hphase =>
    split
    next =>
      exact ((hcache.setFile_stamp _ _).setFile_none _).goTo hjob (by simp [hphase]) (by simp)
    next => exact hcache.goTo hjob (by simp [hphase]) (by simp)
  next after hphase => exact hcache.goTo_same hjob (by simp [hphase])
  next path paths after hphase =>
    split_ifs
    · exact (hcache.setFile_none path).goTo_same hjob (by simp [hphase])
    · exact hcache.goTo_same hjob (by simp [hphase])
  next => exact (hcache.setHolder _ none).dropJob id
  all_goals exact hcache

/-- The plan is made again. Under the key it had before the run, the output is confirmed. -/
theorem prepareAgain (hcache : Integrity cache) {id : JobId} {job : Job}
    (hjob : cache.jobs id = some job) (recomputed : Option Key)
    (hunshared : ∀ key, recomputed = some key → job.phase = .locked true →
      (⟨id.pid, cache.nextRequest id.pid⟩, key) ∉ cache.orphans) :
    Integrity (cache.prepareAgain id job recomputed) := by
  have hok := hcache.jobs id job hjob
  have htaken := hcache.takeNumber id.pid
  simp only [Cache.prepareAgain]
  split
  next hphase => exact htaken.goTo hjob (by simp [hphase]) (by simp)
  next key hphase =>
    have hfresh := hunshared key rfl hphase
    split_ifs
    · exact ((hcache.dropJob id).setHolder _ _).addJob _ _ (by simp) hfresh
    · exact ((hcache.dropJob id).setHolder _ _).addJob _ _ (by simp) hfresh
  next key hphase =>
    have hrecorded := htaken.recordRun ⟨id, job.key, job.produced, key⟩
    split_ifs with hkey
    · refine hrecorded.setJob hjob ⟨by simp, fun _ bytes hfile ↦ ?_⟩ rfl (by simp [hphase])
      have hproduced := hok.finished (by simp [hphase]) bytes hfile
      exact ⟨_, List.mem_cons_self, rfl, hkey, hproduced⟩
    · exact hrecorded.goTo hjob (by simp [hphase]) (by simp)
  next hphase => exact htaken.goTo hjob (by simp [hphase]) (by simp)
  next => exact hcache

theorem writePartially (hcache : Integrity cache) {id : JobId} {job : Job}
    (hjob : cache.jobs id = some job) (bytes : Option ByteString) :
    Integrity (cache.writePartially id job bytes) := by
  simp only [Cache.writePartially]
  split
  next hphase =>
    split_ifs
    · exact (hcache.setFile_generated _ _ _).goTo hjob (by simp [hphase]) (by simp)
    · exact hcache.goTo hjob (by simp [hphase]) (by simp)
  next hphase =>
    split_ifs
    · exact (hcache.setFile_stampOutput _ _ _).goTo hjob (by simp [hphase]) (by simp)
    · exact hcache.goTo hjob (by simp [hphase]) (by simp)
  next => exact hcache

/-- What a process ran is known by jobs of its own, and they are all gone. -/
theorem crash (hcache : Integrity cache) (pid : ℕ) :
    Integrity (cache.crash pid (cache.runningOf pid)) := by
  have hkept : ∀ id job, (cache.crash pid (cache.runningOf pid)).jobs id = some job →
      id.pid ≠ pid ∧ cache.jobs id = some job := by
    intro id job hjob
    by_cases hpid : id.pid = pid
    · simp [Cache.crash, hpid] at hjob
    · exact ⟨hpid, by simpa [Cache.crash, hpid] using hjob⟩
  have hrunning : ∀ id key, (id, key) ∈ cache.runningOf pid → id.pid = pid := by
    intro id key hmem
    obtain ⟨request, -, hfound⟩ := List.mem_filterMap.mp hmem
    split at hfound
    next job hjob =>
      split_ifs at hfound
      exact (congrArg (fun found ↦ found.1.pid) (Option.some.inj hfound)).symm
    next => cases hfound
  constructor
  · exact hcache.modules
  · intro id job hjob
    exact (hcache.jobs id job (hkept id job hjob).2).frame rfl rfl
  · intro id key horphan job hjob
    obtain ⟨hpid, hold⟩ := hkept id job hjob
    obtain horphan | horphan := List.mem_append.mp horphan
    · exact absurd (hrunning id key horphan) hpid
    · exact hcache.orphans id key horphan job hold

/-- A move of a job keeps the invariant when it does so for a job that is there. -/
theorem onJob (hcache : Integrity cache) (id : JobId) {move : Job → Cache}
    (hmove : ∀ job, cache.jobs id = some job → Integrity (move job)) :
    Integrity (cache.onJob id move) := by
  unfold Cache.onJob
  split
  next job hjob => exact hmove job hjob
  next => exact hcache

end Integrity

/-- Every move keeps the invariant, unless it makes a plan that shares its files. -/
theorem integrity_step (sha256 : ByteString → ByteString) (cache : Cache) (move : Move)
    (hunshared : Unshared cache move) (hcache : Integrity cache) :
    Integrity (step sha256 cache move) := by
  cases move with
  | prepare pid key =>
    simp only [step]
    split_ifs with hcrashed
    · exact hcache
    · cases key with
      | some key =>
        exact hcache.addJob pid key (by simp) (hunshared (Bool.not_eq_true _ ▸ hcrashed))
      | none => exact hcache.takeNumber pid
  | acquire id reused =>
    refine hcache.onJob id fun job hjob ↦ ?_
    split_ifs with hfree
    · exact (hcache.setHolder _ _).goTo hjob (by simp [hfree.1]) (by simp)
    · exact hcache
  | prepareAgain id key =>
    refine hcache.onJob id fun job hjob ↦ hcache.prepareAgain hjob key ?_
    rintro planned rfl hphase
    exact hunshared (by rw [hjob, Option.map_some, hphase])
  | advance id success => exact hcache.onJob id fun job hjob ↦ hcache.advance sha256 hjob success
  | writePartially id bytes =>
    exact hcache.onJob id fun job hjob ↦ hcache.writePartially hjob bytes
  | compilerWrites id key file =>
    simp only [step]
    split_ifs with horphan
    · -- The job of the compiler is gone or leaves.
      exact hcache.compilerWrites file fun job hjob hkey ↦
        by simp [hcache.orphans id key horphan job hjob hkey]
    · refine hcache.onJob id fun job hjob ↦ ?_
      split_ifs with hrunning
      · refine hcache.compilerWrites file fun found hfound _ ↦ ?_
        cases show some job = some found from hjob.symm.trans hfound
        simp [hrunning]
      · exact hcache
  | compilerExits id code =>
    refine hcache.onJob id fun job hjob ↦ ?_
    simp only
    split_ifs with hrunning hcode
    · exact hcache.setJob hjob ⟨fun _ bytes hfile ↦ hfile, by simp [Phase.AwaitsPublication]⟩ rfl
        (by simp [hrunning])
    · exact hcache.setJob hjob (.of_idle (by simp [hcode])) rfl (by simp [hrunning])
    · exact hcache
  | discard id =>
    refine hcache.onJob id fun job hjob ↦ ?_
    split
    next => exact hcache.dropJob id
    next code hphase => exact hcache.goTo hjob (by simp [hphase]) (by simp)
    next => exact hcache
  | abandon id =>
    refine hcache.onJob id fun job hjob ↦ ?_
    split_ifs with hrunning
    · have hleft : Integrity (cache.goTo id job
          (.removing [.compileOutput job.key id, .generated job.key id] .release)) :=
        hcache.goTo hjob (by simp [hrunning]) (by simp)
      exact hleft.addOrphan _ (Function.update_self _ _ _) (by simp)
    · exact hcache
  | orphanExits id key => exact hcache.dropOrphan (id, key)
  | crash pid => exact hcache.crash pid
  | begin pid =>
    simp only [step]
    split_ifs
    · exact hcache.begin pid
    · exact hcache

/-- Every state that moves lead to has the invariant, if no plan shares its files. -/
theorem integrity_exec (sha256 : ByteString → ByteString) {moves : List Move}
    (hunshared : Along (step sha256) Unshared empty moves) :
    Integrity (exec (step sha256) empty moves) :=
  exec_along (step sha256) Unshared Integrity (integrity_step sha256) hunshared integrity_empty

/-! ### Stamps -/

theorem exists_module_of_matches {sha256 : ByteString → ByteString} {cache : Cache} {key : Key}
    (hmatches : cacheStampMatches sha256 cache key = true) :
    ∃ bytes, cache.files (.output key) = some bytes := by
  unfold cacheStampMatches at hmatches
  split at hmatches
  next bytes _ hbytes _ => exact ⟨bytes, hbytes⟩
  next => cases hmatches

/-- However the processes interleave, crash, begin again and see the sources change: while the stamp
of a key matches, the module is the complete output of one compiler run, for a plan that had the key
before the run and whose key was the same when it was computed again after it. This is so as long as
no plan gets the process identifier, the number and the key of a compiler that still runs though its
job is gone. -/
theorem module_of_matching_stamp (sha256 : ByteString → ByteString) (moves : List Move)
    (hunshared : Along (step sha256) Unshared empty moves) (key : Key)
    (hmatches : cacheStampMatches sha256 (exec (step sha256) empty moves) key = true) :
    ∃ run ∈ (exec (step sha256) empty moves).runs,
      run.plannedKey = key ∧ run.recomputedKey = key ∧
        ∃ bytes, run.output = some bytes ∧
          (exec (step sha256) empty moves).files (.output key) = some bytes := by
  obtain ⟨bytes, hbytes⟩ := exists_module_of_matches hmatches
  obtain ⟨run, hrun, hplanned, hrecomputed, houtput⟩ :=
    (integrity_exec sha256 hunshared).modules key bytes hbytes
  exact ⟨run, hrun, hplanned, hrecomputed, bytes, houtput, hbytes⟩

/-- The first job of a process makes a plan, takes the lock and starts a compiler. -/
def startMoves (pid : ℕ) (key : Key) : List Move :=
  [.prepare pid (some key), .acquire ⟨pid, 1⟩ false] ++ List.replicate 5 (.advance ⟨pid, 1⟩ true)

/-- The compiler of a process is left behind with the beginning of a module when the process
crashes. One with the same identifier compiles another key, and the compiler ends at last. Another
process finds the module and crashes before it has loaded it. -/
def sampleMoves : List Move :=
  let first : JobId := ⟨7, 1⟩
  let second : JobId := ⟨8, 1⟩
  let key : Key := ascii "key"
  let older : Key := ascii "older"
  startMoves 7 older ++ [.compilerWrites first older (some (ascii "mod")), .crash 7, .begin 7] ++
    startMoves 7 key ++
    [.compilerWrites first key (some (ascii "module")), .compilerExits first 0,
      .compilerWrites first older (some (ascii "module")), .prepareAgain first (some key),
      .orphanExits first older] ++
    List.replicate 13 (.advance first true) ++
    [.prepare 8 (some key), .acquire second false, .advance second true, .crash 8]

/-- The hashes of the two files that are hashed in the runs here. -/
def sampleSha256 (bytes : ByteString) : ByteString :=
  if bytes = ascii "module" then
    ascii "120970d812836f19888625587a4606a5ad23cef31c8684e601771552548fc6b9"
  else
    ascii "e55cffc81a5ad8cfe85239d944a3ae9513645a9eed79bc884f51b80b2760fc46"

theorem module_of_matching_stamp_sample :
    ∃ run ∈ (exec (step sampleSha256) empty sampleMoves).runs,
      run.plannedKey = ascii "key" ∧ run.recomputedKey = ascii "key" ∧
        ∃ bytes, run.output = some bytes ∧
          (exec (step sampleSha256) empty sampleMoves).files (.output (ascii "key")) = some bytes :=
  module_of_matching_stamp sampleSha256 sampleMoves (by decide +kernel) (ascii "key")
    (by decide +kernel)

/-- The compiler of a crashed process runs on. A process with the same identifier gives its first
plan the same number, and its compiler ends; before the output is published, the first compiler
writes its beginning over it. -/
def sharedMoves : List Move :=
  let first : JobId := ⟨7, 1⟩
  let key : Key := ascii "key"
  startMoves 7 key ++ [.crash 7, .begin 7] ++ startMoves 7 key ++
    [.compilerWrites first key (some (ascii "module")), .compilerExits first 0,
      .prepareAgain first (some key), .compilerWrites first key (some (ascii "mod"))] ++
    List.replicate 13 (.advance first true)

/-- The stamp vouches for the beginning of a module, which no compiler run has put out. -/
theorem module_of_shared_output :
    cacheStampMatches sampleSha256 (exec (step sampleSha256) empty sharedMoves) (ascii "key") =
        true ∧
      ¬ ∃ run ∈ (exec (step sampleSha256) empty sharedMoves).runs,
        run.plannedKey = ascii "key" ∧ run.recomputedKey = ascii "key" ∧
          ∃ bytes, run.output = some bytes ∧
            (exec (step sampleSha256) empty sharedMoves).files (.output (ascii "key")) =
              some bytes := by
  refine ⟨by decide +kernel, ?_⟩
  rintro ⟨run, hrun, -, -, bytes, houtput, hbytes⟩
  have hruns : (exec (step sampleSha256) empty sharedMoves).runs =
      [⟨⟨7, 1⟩, ascii "key", some (ascii "module"), ascii "key"⟩] := by decide +kernel
  have hmodule : (exec (step sampleSha256) empty sharedMoves).files (.output (ascii "key")) =
      some (ascii "mod") := by decide +kernel
  rw [hruns, List.mem_singleton] at hrun
  rw [hrun] at houtput
  exact absurd (houtput.trans (hbytes.symm.trans hmodule)) (by decide)

end Gzscript.Build.ModuleCache
