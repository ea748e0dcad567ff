import Gzscript.Library.Bytes
import Gzscript.Library.Transition
import Mathlib.Logic.Function.Basic

/-!
# The module cache

Processes that share a cache keep one module for a key, with a stamp beside it that names the key
and the hash of the module. A job is one way of a plan through `compile`, or through `start_next`,
`complete_active` and `finish`: it takes the lock of its key, and unless the stamp matches it runs a
compiler into a file of its own, makes the plan again and renames the file over the module; then it
loads the module and renames a new stamp over the old one.

Every access to the file system is a `Move` of its own, so that the moves of any number of jobs
interleave and a process can crash between any two. What `prepare` finds is part of a move, since
sources are edited at any time. A process numbers its plans, and the files of a job are named by the
key, the process identifier and the number. A compiler can outlive its job and its process; the
numbers start again with every build manager, and the system gives an identifier to a new process
once the one that had it is gone. Two jobs can therefore have files of the same name.
-/

set_option autoImplicit false
set_option relaxedAutoImplicit false

namespace Gzscript.Build.ModuleCache

open Library.Bytes

/-- The hash of the inputs of a compilation. -/
abbrev Key : Type := ByteString

/-- The identifier of a process and the number of a plan in it. -/
structure JobId where
  pid : ℕ
  request : ℕ
  deriving DecidableEq

inductive Path
  | output (key : Key)
  | stamp (key : Key)
  | compileOutput (key : Key) (job : JobId)
  | generated (key : Key) (job : JobId)
  | stampOutput (key : Key) (job : JobId)
  deriving DecidableEq

/-- What a job does next. -/
inductive Phase
  /-- The plan is made. -/
  | planned
  /-- The lock is held; the plan has waited in the queue, or not. -/
  | locked (reused : Bool)
  | writeAdapter
  | startCompiler
  | running
  | exited (code : Int)
  /-- `finish` looks whether a peer has published the module. -/
  | publish
  | replace
  | load
  | writeStamp
  | replaceStamp
  | removing (paths : List Path) (next : Phase)
  /-- The lock is released and the job is over. -/
  | release
  deriving DecidableEq

/-- A job, and what its compiler had written when it ended with exit code zero. -/
structure Job where
  key : Key
  phase : Phase
  produced : Option ByteString
  deriving DecidableEq

/-- A compiler that has ended with exit code zero, the key of the plan it ran for, and the key that
was computed again. Nothing reads it. -/
structure CompilerRun where
  job : JobId
  plannedKey : Key
  output : Option ByteString
  recomputedKey : Key
  deriving DecidableEq

structure Cache where
  files : Path → Option ByteString
  /-- The holder of the lock of a key. -/
  holder : Key → Option JobId
  jobs : JobId → Option Job
  /-- Compilers whose job is gone. -/
  orphans : List (JobId × Key)
  nextRequest : ℕ → ℕ
  crashed : ℕ → Bool
  runs : List CompilerRun

/-- An empty cache, and no process has done anything. -/
def empty : Cache where
  files _ := none
  holder _ := none
  jobs _ := none
  orphans := []
  nextRequest _ := 1
  crashed _ := false
  runs := []

/-- `FileAccess::get_sha256`, which is empty when there is no such file. -/
def hashOf (sha256 : ByteString → ByteString) (file : Option ByteString) : ByteString :=
  (file.map sha256).getD []

/-- The parts of a text between line breaks that are not empty. -/
def splitLines (text : ByteString) : List ByteString := (text.splitOn 10).filter (· ≠ [])

/-- `cache_stamp_matches` for the output and the stamp of a key. -/
def cacheStampMatches (sha256 : ByteString → ByteString) (cache : Cache) (key : Key) : Bool :=
  match cache.files (.output key), cache.files (.stamp key) with
  | some output, some stamp => splitLines stamp = [key, sha256 output]
  | _, _ => false

/-- The adapter that every compilation is given. Its text does not matter here. -/
def adapterSource : ByteString := ascii "adapter"

/-! ### Moves -/

inductive Move
  /-- `prepare` makes a plan, unless it fails. -/
  | prepare (pid : ℕ) (key : Option Key)
  | acquire (job : JobId) (reused : Bool)
  /-- `prepare` is called again, under the lock of a reused plan or after the compiler has ended. -/
  | prepareAgain (job : JobId) (key : Option Key)
  /-- The next access of a job to the file system, and whether it succeeds. -/
  | advance (job : JobId) (success : Bool)
  /-- A file of a job is written in part, or cannot be opened. -/
  | writePartially (job : JobId) (bytes : Option ByteString)
  /-- A compiler changes its output file. -/
  | compilerWrites (job : JobId) (key : Key) (file : Option ByteString)
  | compilerExits (job : JobId) (code : Int)
  /-- `complete_active` drops an outdated job, or `start_next` one that is not wanted any more or
  whose lock is in error. -/
  | discard (job : JobId)
  /-- `shutdown` gives up waiting for a compiler. -/
  | abandon (job : JobId)
  /-- A compiler whose job is gone ends. -/
  | orphanExits (job : JobId) (key : Key)
  | crash (pid : ℕ)
  /-- A build manager is made where there is none: in a process that has just begun, or after one
  has been shut down. -/
  | begin (pid : ℕ)

namespace Cache

def setFile (cache : Cache) (path : Path) (file : Option ByteString) : Cache :=
  { cache with files := Function.update cache.files path file }

def setJob (cache : Cache) (id : JobId) (job : Option Job) : Cache :=
  { cache with jobs := Function.update cache.jobs id job }

/-- The job goes on with a phase. -/
def goTo (cache : Cache) (id : JobId) (job : Job) (phase : Phase) : Cache :=
  cache.setJob id (some { job with phase := phase })

def setHolder (cache : Cache) (key : Key) (holder : Option JobId) : Cache :=
  { cache with holder := Function.update cache.holder key holder }

def recordRun (cache : Cache) (run : CompilerRun) : Cache :=
  { cache with runs := run :: cache.runs }

def addOrphan (cache : Cache) (id : JobId) (key : Key) : Cache :=
  { cache with orphans := (id, key) :: cache.orphans }

def setNextRequest (cache : Cache) (pid request : ℕ) : Cache :=
  { cache with nextRequest := Function.update cache.nextRequest pid request }

/-- The number that `prepare` is called with is used up. -/
def takeNumber (cache : Cache) (pid : ℕ) : Cache :=
  cache.setNextRequest pid (cache.nextRequest pid + 1)

/-- A job for a new plan of a process. -/
def addJob (cache : Cache) (pid : ℕ) (key : Key) (phase : Phase) : Cache :=
  (cache.takeNumber pid).setJob ⟨pid, cache.nextRequest pid⟩ (some ⟨key, phase, none⟩)

/-- The next access of a job to the file system. For a module that the stamp vouches for, no
success is that the script has loaded it before. -/
def advance (sha256 : ByteString → ByteString) (cache : Cache) (id : JobId) (job : Job)
    (success : Bool) : Cache :=
  let key := job.key
  match job.phase with
  | .locked false =>
    if cacheStampMatches sha256 cache key then
      if success then cache.goTo id job (.removing [.generated key id, .stampOutput key id] .load)
      else cache.goTo id job .release
    else
      cache.goTo id job .writeAdapter
  | .writeAdapter =>
    (cache.setFile (.generated key id) (some adapterSource)).goTo id job
      (.removing [.compileOutput key id] .startCompiler)
  | .startCompiler =>
    if success then cache.goTo id job .running
    else cache.goTo id job (.removing [.generated key id] .release)
  | .exited code =>
    if code = 0 then cache
    else
      cache.goTo id job
        (.removing [.generated key id, .stampOutput key id, .compileOutput key id] .release)
  | .publish =>
    if cacheStampMatches sha256 cache key then
      cache.goTo id job (.removing [.compileOutput key id] .load)
    else
      cache.goTo id job .replace
  | .replace =>
    match cache.files (.compileOutput key id), success with
    | some bytes, true =>
      ((cache.setFile (.output key) (some bytes)).setFile (.compileOutput key id) none).goTo id job
        .load
    | _, _ => cache.goTo id job (.removing [.compileOutput key id] .release)
  | .load =>
    if success then cache.goTo id job (.removing [.compileOutput key id] .writeStamp)
    else cache.goTo id job (.removing [.compileOutput key id, .output key] .release)
  | .writeStamp =>
    let stamp := key ++ [10] ++ hashOf sha256 (cache.files (.output key)) ++ [10]
    (cache.setFile (.stampOutput key id) (some stamp)).goTo id job .replaceStamp
  | .replaceStamp =>
    match cache.files (.stampOutput key id), success with
    | some bytes, true =>
      ((cache.setFile (.stamp key) (some bytes)).setFile (.stampOutput key id) none).goTo id job
        (.removing [.stampOutput key id] .release)
    | _, _ => cache.goTo id job (.removing [.stampOutput key id] .release)
  | .removing [] next => cache.goTo id job next
  | .removing (path :: paths) next =>
    let cleared := if success then cache.setFile path none else cache
    cleared.goTo id job (.removing paths next)
  | .release => (cache.setHolder key none).setJob id none
  | .planned => cache
  | .locked true => cache
  | .running => cache

/-- `prepare` again: for a reused plan the job starts over under the new plan if the key is the
same; after the compiler has ended the output is published if the key is the same. -/
def prepareAgain (cache : Cache) (id : JobId) (job : Job) (recomputed : Option Key) : Cache :=
  match job.phase, recomputed with
  | .locked true, none => (cache.takeNumber id.pid).goTo id job .release
  | .locked true, some key =>
    if key = job.key then
      ((cache.setJob id none).setHolder key (some ⟨id.pid, cache.nextRequest id.pid⟩)).addJob id.pid
        key (.locked false)
    else
      ((cache.setJob id none).setHolder job.key none).addJob id.pid key .planned
  | .exited 0, some key =>
    let recorded := (cache.takeNumber id.pid).recordRun ⟨id, job.key, job.produced, key⟩
    if key = job.key then
      recorded.goTo id job
        (.removing [.generated job.key id, .stampOutput job.key id] .publish)
    else
      recorded.goTo id job (.removing [.compileOutput job.key id, .generated job.key id] .release)
  | .exited 0, none =>
    (cache.takeNumber id.pid).goTo id job
      (.removing [.compileOutput job.key id, .generated job.key id] .release)
  | _, _ => cache

/-- A write that does not complete, or a file that cannot be opened for it. -/
def writePartially (cache : Cache) (id : JobId) (job : Job) (bytes : Option ByteString) : Cache :=
  let write (path : Path) : Cache :=
    (if bytes.isSome then cache.setFile path bytes else cache).goTo id job
      (.removing [path] .release)
  match job.phase with
  | .writeAdapter => write (.generated job.key id)
  | .writeStamp => write (.stampOutput job.key id)
  | _ => cache

/-- The jobs of a process are gone and its locks are free; its compilers run on. -/
def crash (cache : Cache) (pid : ℕ) (running : List (JobId × Key)) : Cache :=
  { cache with
    jobs := fun id ↦ if id.pid = pid then none else cache.jobs id
    holder := fun key ↦ (cache.holder key).filter fun id ↦ id.pid ≠ pid
    orphans := running ++ cache.orphans
    crashed := Function.update cache.crashed pid true }

/-- The compilers that a process is running. It has numbered its plans below `nextRequest`. -/
def runningOf (cache : Cache) (pid : ℕ) : List (JobId × Key) :=
  (List.range (cache.nextRequest pid)).filterMap fun request ↦
    match cache.jobs ⟨pid, request⟩ with
    | some job => if job.phase = .running then some (⟨pid, request⟩, job.key) else none
    | none => none

/-- Whether no job of a process is left. -/
def isIdle (cache : Cache) (pid : ℕ) : Bool :=
  (List.range (cache.nextRequest pid)).all fun request ↦ (cache.jobs ⟨pid, request⟩).isNone

/-- A build manager numbers its plans from one. -/
def begin (cache : Cache) (pid : ℕ) : Cache :=
  { cache.setNextRequest pid 1 with crashed := Function.update cache.crashed pid false }

/-- A move of a job that is there. -/
def onJob (cache : Cache) (id : JobId) (move : Job → Cache) : Cache :=
  match cache.jobs id with
  | some job => move job
  | none => cache

end Cache

open Cache

/-- One move. A move that is not possible changes nothing. -/
def step (sha256 : ByteString → ByteString) (cache : Cache) : Move → Cache
  | .prepare pid key =>
    if cache.crashed pid then cache
    else
      match key with
      | some key => cache.addJob pid key .planned
      | none => cache.takeNumber pid
  | .acquire id reused =>
    cache.onJob id fun job ↦
      if job.phase = .planned ∧ cache.holder job.key = none then
        (cache.setHolder job.key (some id)).goTo id job (.locked reused)
      else
        cache
  | .prepareAgain id key => cache.onJob id fun job ↦ cache.prepareAgain id job key
  | .advance id success => cache.onJob id fun job ↦ cache.advance sha256 id job success
  | .writePartially id bytes => cache.onJob id fun job ↦ cache.writePartially id job bytes
  | .compilerWrites id key file =>
    if (id, key) ∈ cache.orphans then cache.setFile (.compileOutput key id) file
    else
      cache.onJob id fun job ↦
        if job.phase = .running then cache.setFile (.compileOutput job.key id) file else cache
  | .compilerExits id code =>
    cache.onJob id fun job ↦
      if job.phase = .running then
        let produced := if code = 0 then cache.files (.compileOutput job.key id) else none
        cache.goTo id { job with produced := produced } (.exited code)
      else
        cache
  | .discard id =>
    cache.onJob id fun job ↦
      match job.phase with
      | .planned => cache.setJob id none
      | .exited _ =>
        cache.goTo id job (.removing [.compileOutput job.key id, .generated job.key id] .release)
      | _ => cache
  | .abandon id =>
    cache.onJob id fun job ↦
      if job.phase = .running then
        (cache.goTo id job
          (.removing [.compileOutput job.key id, .generated job.key id] .release)).addOrphan id
          job.key
      else
        cache
  | .orphanExits id key => { cache with orphans := cache.orphans.erase (id, key) }
  | .crash pid => cache.crash pid (cache.runningOf pid)
  | .begin pid => if cache.isIdle pid then cache.begin pid else cache

/-- A plan that a job is made for does not have the process identifier, the number and the key of a
compiler that still runs though its job is gone. -/
def Unshared (cache : Cache) : Move → Prop
  | .prepare pid (some key) =>
    cache.crashed pid = false → (⟨pid, cache.nextRequest pid⟩, key) ∉ cache.orphans
  | .prepareAgain id (some key) =>
    (cache.jobs id).map Job.phase = some (.locked true) →
      (⟨id.pid, cache.nextRequest id.pid⟩, key) ∉ cache.orphans
  | _ => True

instance (cache : Cache) : (move : Move) → Decidable (Unshared cache move)
  | .prepare _ (some _) => inferInstanceAs (Decidable (_ → _))
  | .prepareAgain _ (some _) => inferInstanceAs (Decidable (_ → _))
  | .prepare _ none | .prepareAgain _ none | .acquire .. | .advance .. | .writePartially ..
  | .compilerWrites .. | .compilerExits .. | .discard _ | .abandon _ | .orphanExits .. | .crash _
  | .begin _ => .isTrue trivial

end Gzscript.Build.ModuleCache
