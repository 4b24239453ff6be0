import Mathlib.Logic.Function.Basic
import Tomas.Methods
import Tomas.Runs

/-! `PathUtil`, which looks for a file in four places behind a cache. The file
system and the class path are fixed and unknown; what `new File(name)` makes of a
name, and which file a relative one means, is theirs too. -/
namespace Tomas.FileLookup
open Tomas.Methods Tomas.Runs

inductive Throwable where
  | nullPointerException
  | uriSyntaxException
  | illegalArgumentException
  deriving DecidableEq, Repr

structure File where
  path : String
  deriving DecidableEq, Repr

/-- A class, known by its loader: classes of the boot class path have none. -/
structure Class where
  getClassLoader : Option Nat
  deriving DecidableEq, Repr

/-- The machine the program runs on. `fileOf` is `new File(url.toURI())`. -/
structure Host where
  newFile : String → File
  existing : File → Bool
  getResource : Nat → String → Option String
  fileOf : String → Except Throwable File
  separator : String
  userDir : String
  tmpDir : String
  pathUtilClass : Class

abbrev Cache := String → Option File
abbrev Java := Body Cache Throwable

/-! ## `PathUtil` -/

/-- The `try` block, as far as the file it assigns. -/
def resourceFile (host : Host) (fileName : String) (cls : Class) : Except Throwable File :=
  match cls.getClassLoader with
  | none => .error .nullPointerException
  | some loader =>
    match host.getResource loader fileName with
    | none => .error .nullPointerException
    | some url => host.fileOf url

/-- The private overload. -/
def PathUtil.getFileOf (host : Host) (fileName : String) (cls : Class) : Option File :=
  let file := host.newFile fileName
  if host.existing file then some file
  else
    match resourceFile host fileName cls with
    | .error _ => none
    | .ok file =>
      if host.existing file then some file
      else
        let file := host.newFile (host.userDir ++ host.separator ++ fileName)
        if host.existing file then some file
        else
          let file := host.newFile (host.tmpDir ++ fileName)
          if host.existing file then some file else none

/-- What the two public methods share. -/
def cached (host : Host) (fileName : String) (cls : Class) : Java (Option File) := do
  let map ← get
  if (map fileName).isSome then pure (map fileName)
  else
    match PathUtil.getFileOf host fileName cls with
    | none => throw .nullPointerException
    | some file =>
      if !host.existing file then modify fun map => Function.update map fileName (some file)
      pure (some file)

def PathUtil.getFile (host : Host) (fileName : String) : Java (Option File) :=
  cached host fileName host.pathUtilClass

def PathUtil.getFileByClassLoader (host : Host) (fileName : String) (cls : Class) :
    Java (Option File) :=
  cached host fileName cls

/-! ## Calls -/

inductive Call where
  | getFile (fileName : String)
  | getFileByClassLoader (fileName : String) (cls : Class)
  deriving DecidableEq, Repr

def Call.fileName : Call → String
  | .getFile fileName | .getFileByClassLoader fileName _ => fileName

def Call.cls (host : Host) : Call → Class
  | .getFile _ => host.pathUtilClass
  | .getFileByClassLoader _ cls => cls

def perform (host : Host) : Call → Java (Option File)
  | .getFile fileName => PathUtil.getFile host fileName
  | .getFileByClassLoader fileName cls => PathUtil.getFileByClassLoader host fileName cls

def step (host : Host) (cache : Cache) (call : Call) : Option Cache := some (perform host call cache).2

def answer (host : Host) (cache : Cache) (call : Call) : Except Throwable (Option File) :=
  (perform host call cache).1

/-! ## The search order -/

def inside (host : Host) (directory fileName : String) : File :=
  host.newFile (directory ++ host.separator ++ fileName)

/-- The name as given, the resource if it is a file, and the name inside two
directories. -/
def places (host : Host) (call : Call) : List File :=
  host.newFile call.fileName ::
    ((resourceFile host call.fileName (call.cls host)).toOption.toList ++
      [inside host host.userDir call.fileName, inside host host.tmpDir call.fileName])

/-- The call returns the first existing file, or null, whatever has been cached. -/
structure Meets (host : Host) (cache : Cache) (call : Call) : Prop where
  first : answer host cache call = .ok ((places host call).find? host.existing)
  transparent : answer host cache call = answer host (fun _ => none) call

/-- The search ends before it fails: at the name as given or, if the class path
has the resource as a file, at one of the other places. -/
def Found (host : Host) (call : Call) : Prop :=
  host.existing (host.newFile call.fileName) = true ∨
    ∃ file, resourceFile host call.fileName (call.cls host) = .ok file ∧
      (host.existing file = true ∨ host.existing (inside host host.userDir call.fileName) = true ∨
        (host.existing (host.newFile (host.tmpDir ++ call.fileName)) = true ∧
          host.newFile (host.tmpDir ++ call.fileName) = inside host host.tmpDir call.fileName))

section Search

variable {host : Host} {cache next : Cache} {call : Call} {fileName : String} {cls : Class} {file : File}

theorem perform_eq (call : Call) : perform host call = cached host call.fileName (call.cls host) := by
  cases call <;> rfl

theorem getFileOf_existing (found : PathUtil.getFileOf host fileName cls = some file) :
    host.existing file = true := by
  simp only [PathUtil.getFileOf] at found
  split at found
  · rename_i named
    cases found
    exact named
  · split at found
    · cases found
    · split at found
      · rename_i resource
        cases found
        exact resource
      · split at found
        · rename_i user
          cases found
          exact user
        · split at found
          · rename_i temporary
            cases found
            exact temporary
          · cases found

/-- The cache takes files that do not exist, and the search returns none of them. -/
theorem cached_empty : cached host fileName cls (fun _ => none) =
    (match PathUtil.getFileOf host fileName cls with
      | none => .error .nullPointerException
      | some file => .ok (some file), fun _ => none) := by
  rw [cached, bind_apply, get_apply]
  cases found : PathUtil.getFileOf host fileName cls with
  | none => rfl
  | some file =>
    have known := getFileOf_existing found
    simp [known, pure_apply]

/-- Without a file to return, the private overload returns null, and the callers
ask it whether it exists. -/
theorem first_iff_found : answer host (fun _ => none) call =
    .ok ((places host call).find? host.existing) ↔ Found host call := by
  rw [answer, perform_eq, cached_empty, PathUtil.getFileOf, places, Found]
  by_cases named : host.existing (host.newFile call.fileName) = true
  · simp [named]
  cases resource : resourceFile host call.fileName (call.cls host) with
  | error cause => simp [named]
  | ok file =>
    by_cases known : host.existing file = true
    · simp [named, known, Except.toOption]
    by_cases user : host.existing (inside host host.userDir call.fileName) = true
    · have same : host.existing (host.newFile (host.userDir ++ host.separator ++ call.fileName)) = true :=
        user
      simp [named, known, user, same, Except.toOption]
      rfl
    have missing : ¬ host.existing (host.newFile (host.userDir ++ host.separator ++ call.fileName)) = true :=
      user
    by_cases temporary : host.existing (host.newFile (host.tmpDir ++ call.fileName)) = true
    · by_cases same : host.newFile (host.tmpDir ++ call.fileName) = inside host host.tmpDir call.fileName
      · have here : host.existing (inside host host.tmpDir call.fileName) = true := same ▸ temporary
        simp [named, known, user, missing, here, same, Except.toOption]
      · -- the file found lies beside the directory
        simp [named, known, user, missing, temporary, same, Except.toOption]
    · simp [named, known, user, missing, temporary, Except.toOption]

end Search

section Runs

variable {host : Host} {cache : Cache} {calls : List Call}

/-- Nothing is ever cached. -/
theorem cache_stays_empty (ran : exec (step host) (fun _ => none) calls = some cache) :
    cache = fun _ => none := by
  refine exec_history (fun _ cache => cache = fun _ => none) (fun _ => True) rfl ?_ (fun _ _ => trivial) ran
  rintro before cache call next rfl - stepped
  rw [step, perform_eq, cached_empty] at stepped
  cases stepped
  rfl

/-- After any calls, a call returns the first existing file whatever has been
cached if and only if the search ends before it fails. -/
theorem lookup_meets_iff (ran : exec (step host) (fun _ => none) calls = some cache) (call : Call) :
    Meets host cache call ↔ Found host call := by
  obtain rfl := cache_stays_empty ran
  constructor
  · intro meets
    exact first_iff_found.mp meets.first
  · intro found
    exact ⟨first_iff_found.mpr found, rfl⟩

/-- A machine with these files. A relative name is one in the working directory,
which is the user's. -/
private def machine (files : List String) : Host where
  newFile := File.mk
  existing file := files.contains (if file.path.toList.head? = some '/' then file.path else "/app/" ++ file.path)
  getResource _ fileName := if fileName = "logback.xml" then some "file:/classes/logback.xml" else none
  fileOf _ := .ok { path := "/classes/logback.xml" }
  separator := "/"
  userDir := "/app"
  tmpDir := "/tmp"
  pathUtilClass := { getClassLoader := some 0 }

/-- One file is a resource, the other is in the working directory. -/
theorem lookup_meets_iff_resource :
    let host := machine ["/classes/logback.xml", "/app/agent.yml"]
    ∃ cache, exec (step host) (fun _ => none)
        [.getFile "logback.xml", .getFile "missing.yml", .getFile "agent.yml"] = some cache ∧
      (Meets host cache (.getFileByClassLoader "logback.xml" { getClassLoader := some 1 }) ↔
        Found host (.getFileByClassLoader "logback.xml" { getClassLoader := some 1 })) := by
  intro host
  have ran : exec (step host) (fun _ => none)
      [.getFile "logback.xml", .getFile "missing.yml", .getFile "agent.yml"] = some _ := rfl
  exact ⟨_, ran, lookup_meets_iff ran _⟩

/-- The class path does not have the resource, and the search ends there: with an
exception and not with null where the file exists nowhere, and with the same
exception where it is in the directory for temporary files. -/
theorem missing_resource_throws :
    let host := machine ["/tmp/agent.yml"]
    answer host (fun _ => none) (.getFile "missing.yml") = .error .nullPointerException ∧
      (places host (.getFile "missing.yml")).find? host.existing = none ∧
      ¬ Meets host (fun _ => none) (.getFile "missing.yml") ∧
      answer host (fun _ => none) (.getFile "agent.yml") = .error .nullPointerException ∧
      (places host (.getFile "agent.yml")).find? host.existing = some { path := "/tmp/agent.yml" } ∧
      ¬ Meets host (fun _ => none) (.getFile "agent.yml") := by
  intro host
  have fails {fileName : String} (thrown : answer host (fun _ => none) (.getFile fileName) =
      .error .nullPointerException) : ¬ Meets host (fun _ => none) (.getFile fileName) := by
    intro meets
    have first := meets.first
    rw [thrown] at first
    cases first
  have nowhere : answer host (fun _ => none) (.getFile "missing.yml") = .error .nullPointerException := by
    decide
  have temporary : answer host (fun _ => none) (.getFile "agent.yml") = .error .nullPointerException := by
    decide
  exact ⟨nowhere, by decide, fails nowhere, temporary, by decide, fails temporary⟩

end Runs

end Tomas.FileLookup
