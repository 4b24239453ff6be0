import Tomas.ChannelCache
import Tomas.Locking

/-! The methods of `ChannelCache` as several threads run them: each takes the
lock, then one step on the map after the other, and gives the lock back however
its body ends. Only `getSession` takes it as a reader. -/
namespace Tomas.CacheThreads
open Tomas.Protocol Tomas.ChannelCache Tomas.Locking Tomas.Runs

abbrev Body := ExceptT Throwable (Program Cache)

/-- One operation of the `ConcurrentHashMap`. -/
def atomically {α : Type} (operation : CacheM α) : Body α :=
  ExceptT.mk (.step (fun cache => (operation cache).2) fun cache => .done (operation cache).1)

def nonNull {α : Type} : Option α → Body α
  | none => throw .nullPointerException
  | some value => pure value

/-- `catch (Exception e) {}`. -/
def swallow {α : Type} (default : α) (body : Body α) : Body α :=
  tryCatch body fun _ => pure default

/-! ## Between `lock` and `unlock` -/

def addSession (channel : Option Channel) : Body Unit := swallow () do
  let channel ← nonNull channel
  atomically (put channel.longText channel)

def removeSession (channelId : Option String) : Body Unit := swallow () do
  if ← atomically (containsValue (channelId.map .string)) then
    atomically (remove channelId)

def getSession (channelId : Option String) : Body (Option Channel) := swallow none do
  if ← atomically (containsKey channelId) then
    atomically (get channelId)
  else
    return none

def resetSession : Body Unit := swallow () do
  atomically (modify fun _ => (∅ : Cache))

def body : Call → Body (Option Channel)
  | .addSession channel => do addSession channel; return none
  | .removeSession channelId => do removeSession channelId; return none
  | .getSession channelId => getSession channelId
  | .resetSession => do resetSession; return none

def methods : Methods Cache Call (Except Throwable (Option Channel)) where
  exclusive
    | .getSession _ => false
    | .addSession _ | .removeSession _ | .resetSession => true
  body call := (body call).run

/-! ## As a whole -/

/-- Without other threads between its steps, the body does what the method does. -/
def Agrees {α : Type} (steps : Body α) (whole : CacheM α) : Prop :=
  ∀ cache, Program.run steps.run cache = whole cache

variable {α β : Type}

private theorem agrees_pure {value : α} : Agrees (pure value) (pure value) := fun _ => rfl

private theorem agrees_atomically {operation : CacheM α} : Agrees (atomically operation) operation :=
  fun _ => rfl

private theorem agrees_nonNull {value : Option α} :
    Agrees (nonNull value) (ChannelCache.nonNull value) := by
  intro cache
  cases value <;> rfl

private theorem agrees_bind {steps : Body α} {whole : CacheM α} {next : α → Body β}
    {rest : α → CacheM β} (first : Agrees steps whole) (later : ∀ value, Agrees (next value) (rest value)) :
    Agrees (steps >>= next) (whole >>= rest) := by
  intro cache
  change Program.run (steps.run >>= ExceptT.bindCont next) cache =
    ExceptT.bindCont rest (whole cache).1 (whole cache).2
  rw [run_bind, first cache]
  cases (whole cache).1 with
  | error cause => rfl
  | ok value => exact later value (whole cache).2

private theorem agrees_swallow {default : α} {steps : Body α} {whole : CacheM α}
    (agrees : Agrees steps whole) : Agrees (swallow default steps) (ChannelCache.swallow default whole) := by
  intro cache
  simp only [swallow, ChannelCache.swallow, tryCatch, tryCatchThe, MonadExceptOf.tryCatch,
    ExceptT.tryCatch, ExceptT.mk, ExceptT.run]
  rw [run_bind, show Program.run steps cache = whole cache from agrees cache]
  simp only [bind, StateT.bind]
  obtain ⟨result, after⟩ := whole cache
  cases result with
  | error cause => rfl
  | ok value => rfl

/-- What a call does as a whole. -/
theorem run_body (call : Call) (cache : Cache) :
    (methods.body call).run cache = perform call cache := by
  have agrees : Agrees (body call) (perform call) := by
    cases call with
    | addSession channel =>
      refine agrees_bind (agrees_swallow ?_) fun _ => agrees_pure
      exact agrees_bind agrees_nonNull fun _ => agrees_atomically
    | removeSession channelId =>
      refine agrees_bind (agrees_swallow ?_) fun _ => agrees_pure
      apply agrees_bind agrees_atomically
      intro found
      cases found with
      | false => exact agrees_pure
      | true => exact agrees_atomically
    | getSession channelId =>
      refine agrees_swallow (agrees_bind agrees_atomically fun found => ?_)
      cases found with
      | false => exact agrees_pure
      | true => exact agrees_atomically
    | resetSession => exact agrees_bind (agrees_swallow agrees_atomically) fun _ => agrees_pure
  exact agrees cache

/-- Looking up leaves the map as it is, after each of its steps. -/
private theorem getSession_quiet (call : Call) (shared : methods.exclusive call = false) :
    (methods.body call).Quiet := by
  cases call with
  | addSession channel => cases shared
  | removeSession channelId => cases shared
  | resetSession => cases shared
  | getSession channelId =>
    cases channelId with
    | none => exact ⟨fun _ => rfl, fun _ => trivial⟩
    | some text =>
      refine ⟨fun _ => rfl, fun cache => ?_⟩
      have found : (containsKey (some text) cache).1 = .ok (cache.keys.contains text) := rfl
      simp only [found]
      cases cache.keys.contains text with
      | false => exact trivial
      | true => exact ⟨fun _ => rfl, fun _ => trivial⟩

/-! ## Several threads -/

/-- The calls in the order in which they returned. -/
def history (returned : List (Returned Nat Call (Except Throwable (Option Channel)))) : List Event :=
  returned.map fun entry => ⟨entry.thread, entry.call⟩

private theorem stateAfter_eq (returned : List (Returned Nat Call (Except Throwable (Option Channel)))) :
    stateAfter methods ∅ returned = cacheAfter (history returned) := by
  rw [stateAfter, cacheAfter, history, List.foldl_map]
  congr 1
  funext cache entry
  rw [run_body]

variable {actions : List (Action Nat Call)}
  {s : State Cache Nat Call (Except Throwable (Option Channel))}

/-- However the threads interleave, each call gave back what it gives back after
those that returned before it, and while no writer is inside, the map is as those
calls leave it. -/
theorem threads_serialize (ran : exec (step methods) { shared := (∅ : Cache) } actions = some s) :
    (∀ before entry, before ++ [entry] <+: s.returned →
      (perform entry.call (cacheAfter (history before))).1 = entry.result) ∧
    (s.lock.writer = none → s.shared = cacheAfter (history s.returned)) := by
  have lawful := lawful_exec getSession_quiet ran
  constructor
  · intro before entry early
    rw [← stateAfter_eq, ← run_body]
    exact lawful.explained before entry early
  · intro unwritten
    rw [← stateAfter_eq]
    exact lawful.free unwritten

/-- One thread writes while two others come to read, which then overlap. -/
private def overlapping : List (Action Nat Call) :=
  [.call 1 (.addSession (some ⟨7, some "a"⟩)), .enter 1, .call 2 (.getSession (some "a")),
    .call 3 (.getSession (some "a")), .act 1, .leave 1, .enter 2, .enter 3, .act 2, .act 3, .act 3,
    .leave 3, .act 2, .leave 2]

theorem overlapping_serialize : ∃ s, exec (step methods) { shared := (∅ : Cache) } overlapping = some s ∧
    (s.returned.map fun entry => (entry.thread, entry.result)) =
      [(1, .ok none), (3, .ok (some ⟨7, some "a"⟩)), (2, .ok (some ⟨7, some "a"⟩))] ∧
    (∀ before entry, before ++ [entry] <+: s.returned →
      (perform entry.call (cacheAfter (history before))).1 = entry.result) ∧
    (s.lock.writer = none → s.shared = cacheAfter (history s.returned)) := by
  have ran : exec (step methods) { shared := (∅ : Cache) } overlapping = some _ := rfl
  exact ⟨_, ran, rfl, threads_serialize ran⟩

/-- However the threads have interleaved so far, and whoever of those that wait
gets the lock next, all of them return, and the lock is free again. -/
theorem threads_return (ran : exec (step methods) { shared := (∅ : Cache) } actions = some s)
    {queue : List Nat} (once : queue.Nodup)
    (waiting : ∀ thread, thread ∈ queue ↔ ∃ call, s.phase thread = .waiting call) :
    ∃ later added final, exec (step methods) s later = some final ∧
      later.filterMap Action.enters? = queue ∧ (∀ action ∈ later, ¬ action.Calls) ∧
      final.returned = s.returned ++ added ∧
      (∀ thread call, (s.phase thread).call? = some call → ∃ result, ⟨thread, call, result⟩ ∈ added) ∧
      (∀ thread, final.phase thread = .idle) ∧ final.lock.writer = none ∧ final.lock.readers = [] :=
  all_return getSession_quiet (lawful_exec getSession_quiet ran) once waiting

/-- The writer is inside, and the second reader gets the lock before the first. -/
theorem waiting_return : ∃ s, exec (step methods) { shared := (∅ : Cache) } (overlapping.take 4) = some s ∧
    ∃ later added final, exec (step methods) s later = some final ∧
      later.filterMap Action.enters? = [3, 2] ∧ (∀ action ∈ later, ¬ action.Calls) ∧
      final.returned = s.returned ++ added ∧
      (∀ thread call, (s.phase thread).call? = some call → ∃ result, ⟨thread, call, result⟩ ∈ added) ∧
      (∀ thread, final.phase thread = .idle) ∧ final.lock.writer = none ∧ final.lock.readers = [] := by
  have ran : exec (step methods) { shared := (∅ : Cache) } (overlapping.take 4) = some _ := rfl
  refine ⟨_, ran, threads_return ran (by decide) ?_⟩
  intro thread
  by_cases third : thread = 3
  · subst third
    exact iff_of_true (by decide) ⟨_, rfl⟩
  · by_cases second : thread = 2
    · subst second
      exact iff_of_true (by decide) ⟨_, rfl⟩
    · apply iff_of_false (by simp [third, second])
      rintro ⟨call, waits⟩
      by_cases writer : thread = 1
      · subst writer
        cases waits
      · simp [writer, second, third] at waits

end Tomas.CacheThreads
