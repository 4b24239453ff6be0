import Mathlib.Data.List.AList
import Mathlib.Data.List.Induction
import Mathlib.Logic.Function.Basic
import Tomas.Protocol
import Tomas.Runs

/-! `ChannelCache`, the server's map from long-text ids to channels. Each of its
methods holds the lock throughout, so calls of several threads are atomic and a
history is any sequence of calls. The membership tests of the Java map take any
object; `removeSession` passes the id where a channel is meant. -/
namespace Tomas.ChannelCache
open Tomas.Protocol Tomas.Runs

/-- A channel object, and its `id().asLongText()` if there is one. -/
structure Channel where
  reference : Nat
  longText : Option String
  deriving DecidableEq, Repr

/-- What the map's untyped parameters can be given here. -/
inductive Erased where
  | string (value : String)
  | channel (value : Channel)
  deriving DecidableEq, Repr

abbrev Cache := AList fun _ : String => Channel

abbrev CacheM := ExceptT Throwable (StateM Cache)

/-- Dereferencing null, or handing it to the map. -/
def nonNull {α : Type} : Option α → CacheM α
  | none => throw .nullPointerException
  | some value => pure value

/-! ## `ConcurrentHashMap` -/

def put (key : Option String) (value : Channel) : CacheM Unit := do
  let key ← nonNull key
  modify fun cache => cache.insert key value

def remove (key : Option String) : CacheM Unit := do
  let key ← nonNull key
  modify fun cache => cache.erase key

def get (key : Option String) : CacheM (Option Channel) := do
  let key ← nonNull key
  return (← getThe Cache).lookup key

def containsKey (key : Option String) : CacheM Bool := do
  let key ← nonNull key
  return (← getThe Cache).keys.contains key

/-- Some value of the map equals the object; a string equals no channel. -/
def containsValue (value : Option Erased) : CacheM Bool := do
  let value ← nonNull value
  return (← getThe Cache).entries.any fun entry => Erased.channel entry.2 == value

/-! ## The methods -/

/-- `catch (Exception e) {}`. -/
def swallow {α : Type} (default : α) (body : CacheM α) : CacheM α :=
  tryCatch body fun _ => pure default

def addSession (channel : Option Channel) : CacheM Unit := swallow () do
  let channel ← nonNull channel
  put channel.longText channel

def removeSession (channelId : Option String) : CacheM Unit := swallow () do
  if ← containsValue (channelId.map .string) then
    remove channelId

def getSession (channelId : Option String) : CacheM (Option Channel) := swallow none do
  if ← containsKey channelId then
    get channelId
  else
    return none

def resetSession : CacheM Unit := swallow () do
  modify fun _ => (∅ : Cache)

inductive Call where
  | addSession (channel : Option Channel)
  | removeSession (channelId : Option String)
  | getSession (channelId : Option String)
  | resetSession
  deriving DecidableEq, Repr

/-- A call by one of the threads. -/
structure Event where
  thread : Nat
  call : Call
  deriving DecidableEq, Repr

/-- What a call gives back, or the exception it ends with. -/
def perform : Call → CacheM (Option Channel)
  | .addSession channel => do addSession channel; return none
  | .removeSession channelId => do removeSession channelId; return none
  | .getSession channelId => getSession channelId
  | .resetSession => do resetSession; return none

/-- The cache after a history, from the empty one. -/
def cacheAfter (history : List Event) : Cache :=
  history.foldl (fun cache event => (perform event.call cache).2) ∅

/-! ## What each method does -/

private theorem containsValue_string (text : String) (cache : Cache) :
    containsValue (some (.string text)) cache = (.ok false, cache) := by
  have none : (cache.entries.any fun entry => Erased.channel entry.2 == .string text) = false := by
    rw [List.any_eq_false]
    intro entry _
    simp
  change (Except.ok _, cache) = _
  rw [none]

@[simp] theorem addSession_some (reference : Nat) (longText : String) (cache : Cache) :
    addSession (some ⟨reference, some longText⟩) cache =
      (.ok (), cache.insert longText ⟨reference, some longText⟩) := rfl

@[simp] theorem addSession_null (channel : Option Channel)
    (null : ∀ held, channel = some held → held.longText = none) (cache : Cache) :
    addSession channel cache = (.ok (), cache) := by
  cases channel with
  | none => rfl
  | some held =>
    obtain ⟨reference, longText⟩ := held
    have absent : longText = none := null _ rfl
    subst absent
    rfl

/-- The id equals no value of the map, so nothing is ever removed. -/
@[simp] theorem removeSession_eq (channelId : Option String) (cache : Cache) :
    removeSession channelId cache = (.ok (), cache) := by
  cases channelId with
  | none => rfl
  | some text =>
    have tested := containsValue_string text cache
    simp only [removeSession, swallow, Option.map_some, bind, ExceptT.bind, ExceptT.mk, StateT.bind,
      tryCatch, tryCatchThe, MonadExceptOf.tryCatch, ExceptT.tryCatch, tested, ExceptT.bindCont]
    rfl

@[simp] theorem getSession_eq (channelId : Option String) (cache : Cache) :
    getSession channelId cache = (.ok (channelId.bind cache.lookup), cache) := by
  cases channelId with
  | none => rfl
  | some text =>
    have tested : containsKey (some text) cache = (.ok (cache.keys.contains text), cache) := rfl
    simp only [getSession, swallow, bind, ExceptT.bind, ExceptT.mk, StateT.bind, tryCatch,
      tryCatchThe, MonadExceptOf.tryCatch, ExceptT.tryCatch, tested, ExceptT.bindCont]
    cases known : cache.keys.contains text with
    | true => rfl
    | false =>
      have absent : cache.lookup text = none := by
        rw [AList.lookup_eq_none, AList.mem_keys]
        simpa using known
      simp only [Option.bind_some, absent]
      rfl

@[simp] theorem resetSession_eq (cache : Cache) : resetSession cache = (.ok (), ∅) := rfl

private theorem andReturn_none {body : CacheM Unit} {cache next : Cache}
    (ran : body cache = (.ok (), next)) :
    (do body; return none : CacheM (Option Channel)) cache = (.ok none, next) := by
  simp only [bind, ExceptT.bind, ExceptT.mk, StateT.bind, ran, ExceptT.bindCont]
  rfl

theorem perform_addSession (reference : Nat) (longText : String) (cache : Cache) :
    perform (.addSession (some ⟨reference, some longText⟩)) cache =
      (.ok none, cache.insert longText ⟨reference, some longText⟩) :=
  andReturn_none (addSession_some reference longText cache)

theorem perform_addSession_null (channel : Option Channel)
    (null : ∀ held, channel = some held → held.longText = none) (cache : Cache) :
    perform (.addSession channel) cache = (.ok none, cache) :=
  andReturn_none (addSession_null channel null cache)

theorem perform_removeSession (channelId : Option String) (cache : Cache) :
    perform (.removeSession channelId) cache = (.ok none, cache) :=
  andReturn_none (removeSession_eq channelId cache)

theorem perform_getSession (channelId : Option String) (cache : Cache) :
    perform (.getSession channelId) cache = (.ok (channelId.bind cache.lookup), cache) :=
  getSession_eq channelId cache

theorem perform_resetSession (cache : Cache) : perform .resetSession cache = (.ok none, ∅) :=
  andReturn_none (resetSession_eq cache)

/-! ## Histories -/

@[simp] theorem cacheAfter_snoc (history : List Event) (event : Event) :
    cacheAfter (history ++ [event]) = (perform event.call (cacheAfter history)).2 := by
  simp [cacheAfter]

/-- The channel was added under the id, and no later call is one of `ends`. -/
def LastAdded (ends : Call → Prop) (channelId : String) (channel : Channel)
    (history : List Event) : Prop :=
  channel.longText = some channelId ∧ ∃ before event after, history = before ++ event :: after ∧
    event.call = .addSession (some channel) ∧ ∀ later ∈ after, ¬ ends later.call

private theorem lastAdded_iff_since (ends : Call → Prop) (channelId : String) (channel : Channel)
    (history : List Event) :
    LastAdded ends channelId channel history ↔ channel.longText = some channelId ∧
      Since (fun event => event.call = .addSession (some channel)) (fun event => ends event.call)
        history :=
  Iff.rfl

private theorem lastAdded_nil (ends : Call → Prop) (channelId : String) (channel : Channel) :
    ¬ LastAdded ends channelId channel [] := fun added => not_since_nil added.2

private theorem lastAdded_snoc (ends : Call → Prop) (channelId : String) (channel : Channel)
    (history : List Event) (event : Event) :
    LastAdded ends channelId channel (history ++ [event]) ↔
      (channel.longText = some channelId ∧ event.call = .addSession (some channel)) ∨
        (LastAdded ends channelId channel history ∧ ¬ ends event.call) := by
  rw [lastAdded_iff_since, lastAdded_iff_since, since_snoc, and_or_left, and_assoc,
    @and_comm (¬ ends event.call)]

/-- The calls after which an earlier addition under the id no longer counts. -/
def Call.Ends (channelId : String) : Call → Prop
  | .addSession channel => (channel.bind Channel.longText) = some channelId
  | .removeSession removed => removed = some channelId
  | .getSession _ => False
  | .resetSession => True

/-- The calls after which the cache has lost an earlier addition under the id. -/
def Call.Clears (channelId : String) : Call → Prop
  | .addSession channel => (channel.bind Channel.longText) = some channelId
  | .resetSession => True
  | .removeSession _ | .getSession _ => False

/-- What one call does to the entry under an id. -/
private theorem lookup_perform (call : Call) (cache : Cache) (channelId : String)
    (channel : Channel) :
    (perform call cache).2.lookup channelId = some channel ↔
      (channel.longText = some channelId ∧ call = .addSession (some channel)) ∨
        (cache.lookup channelId = some channel ∧ ¬ call.Clears channelId) := by
  cases call with
  | removeSession removed =>
    rw [perform_removeSession]
    simp [Call.Clears]
  | getSession asked =>
    rw [perform_getSession]
    simp [Call.Clears]
  | resetSession =>
    rw [perform_resetSession]
    simp [Call.Clears]
  | addSession added =>
    by_cases null : ∀ held, added = some held → held.longText = none
    · rw [perform_addSession_null added null]
      have absent : added.bind Channel.longText = none := by
        cases added with
        | none => rfl
        | some held => exact null held rfl
      constructor
      · intro held
        exact Or.inr ⟨held, by simp [Call.Clears, absent]⟩
      · rintro (⟨named, call⟩ | ⟨held, -⟩)
        · cases call
          simp [named] at absent
        · exact held
    · push Not at null
      obtain ⟨⟨reference, longText⟩, rfl, named⟩ := null
      obtain ⟨key, rfl⟩ := Option.ne_none_iff_exists'.mp named
      rw [perform_addSession]
      by_cases same : channelId = key
      · subst same
        simp only [AList.lookup_insert, Option.some.injEq, Call.addSession.injEq, Call.Clears,
          Option.bind_some, not_true_eq_false, and_false, or_false]
        constructor
        · rintro rfl
          exact ⟨rfl, rfl⟩
        · exact fun ⟨_, equal⟩ => equal
      · rw [AList.lookup_insert_ne same]
        constructor
        · intro held
          exact Or.inr ⟨held, by simpa [Call.Clears] using Ne.symm same⟩
        · rintro (⟨named, call⟩ | ⟨held, -⟩)
          · cases call
            cases named
            exact absurd rfl same
          · exact held

/-- The cache holds the last addition since a reset, removed or not. -/
theorem lookup_cacheAfter (history : List Event) (channelId : String) (channel : Channel) :
    (cacheAfter history).lookup channelId = some channel ↔
      LastAdded (Call.Clears channelId) channelId channel history := by
  induction history using List.reverseRecOn with
  | nil =>
    constructor
    · intro held
      simp [cacheAfter] at held
    · intro added
      exact absurd added (lastAdded_nil _ _ _)
  | append_singleton history event ih =>
    rw [cacheAfter_snoc, lookup_perform, ih, lastAdded_snoc]

/-! ## The finite map -/

/-- A call given null, or a channel without an id. -/
def Call.GivenNull : Call → Prop
  | .addSession channel => channel.bind Channel.longText = none
  | .removeSession channelId | .getSession channelId => channelId = none
  | .resetSession => False

/-- The cache behaves as a finite map throughout a history. -/
structure RefinesMap (history : List Event) : Prop where
  /-- `getSession` returns the last addition not removed or reset since. -/
  returns : ∀ before, before <+: history → ∀ channelId, ∃ result,
    (getSession (some channelId) (cacheAfter before)).1 = .ok result ∧
      ∀ channel, result = some channel ↔ LastAdded (Call.Ends channelId) channelId channel before
  /-- `removeSession` removes its entry and no other. -/
  removes : ∀ before thread channelId, before ++ [⟨thread, .removeSession (some channelId)⟩] <+: history →
    let after := cacheAfter (before ++ [⟨thread, .removeSession (some channelId)⟩])
    (getSession (some channelId) after).1 = .ok none ∧
      ∀ other, other ≠ channelId →
        (getSession (some other) after).1 = (getSession (some other) (cacheAfter before)).1
  /-- A call given null returns normally and changes nothing. -/
  null : ∀ before event, before ++ [event] <+: history → event.call.GivenNull →
    perform event.call (cacheAfter before) = (.ok none, cacheAfter before)

/-- An addition under the id has not been followed by a reset. -/
def AddedSinceReset (channelId : String) (history : List Event) : Prop :=
  ∃ channel, LastAdded (· = .resetSession) channelId channel history

private theorem addedSinceReset_iff (channelId : String) (history : List Event) :
    AddedSinceReset channelId history ↔ ∃ channel, (cacheAfter history).lookup channelId = some channel := by
  induction history using List.reverseRecOn with
  | nil =>
    constructor
    · rintro ⟨channel, added⟩
      exact absurd added (lastAdded_nil _ _ _)
    · rintro ⟨channel, held⟩
      simp [cacheAfter] at held
  | append_singleton history event ih =>
    simp only [AddedSinceReset, lastAdded_snoc, cacheAfter_snoc, lookup_perform] at ih ⊢
    constructor
    · rintro ⟨channel, added | ⟨added, passes⟩⟩
      · exact ⟨channel, Or.inl added⟩
      · obtain ⟨held, found⟩ := ih.mp ⟨channel, added⟩
        by_cases clears : event.call.Clears channelId
        · cases call : event.call with
          | addSession other =>
            rw [call] at clears
            obtain ⟨other, rfl, named⟩ := Option.bind_eq_some_iff.mp clears
            exact ⟨other, Or.inl ⟨named, rfl⟩⟩
          | resetSession => exact absurd call passes
          | removeSession removed => simp [call, Call.Clears] at clears
          | getSession asked => simp [call, Call.Clears] at clears
        · exact ⟨held, Or.inr ⟨found, clears⟩⟩
    · rintro ⟨channel, added | ⟨held, passes⟩⟩
      · exact ⟨channel, Or.inl added⟩
      · obtain ⟨first, added⟩ := ih.mpr ⟨channel, held⟩
        refine ⟨first, Or.inr ⟨added, ?_⟩⟩
        intro reset
        rw [reset] at passes
        exact passes trivial

/-- Where no removal names an entry that is there, forgetting removals makes no
difference to which addition is the last. -/
private theorem lastAdded_clears_iff {channelId : String} {channel : Channel} {history : List Event}
    (absent : ∀ before thread removed, before ++ [⟨thread, .removeSession (some removed)⟩] <+: history →
      ¬ AddedSinceReset removed before) :
    LastAdded (Call.Clears channelId) channelId channel history ↔
      LastAdded (Call.Ends channelId) channelId channel history := by
  constructor
  · rintro ⟨named, before, event, after, rfl, call, rest⟩
    refine ⟨named, before, event, after, rfl, call, ?_⟩
    intro later member ends
    obtain ⟨early, late, rfl⟩ := List.append_of_mem member
    cases laterCall : later.call with
    | addSession other => exact rest later member (by rwa [laterCall] at ends ⊢)
    | getSession asked => simp [laterCall, Call.Ends] at ends
    | resetSession => exact rest later member (by rw [laterCall]; trivial)
    | removeSession removed =>
      rw [laterCall] at ends
      obtain rfl : removed = some channelId := ends
      obtain ⟨thread, laterCall'⟩ := later
      obtain rfl : laterCall' = _ := laterCall
      refine absent (before ++ event :: early) thread channelId ⟨late, by simp⟩ ?_
      refine ⟨channel, named, before, event, early, rfl, call, ?_⟩
      intro middle inEarly reset
      apply rest middle (by simp [inEarly])
      rw [reset]
      trivial
  · rintro ⟨named, before, event, after, rfl, call, rest⟩
    refine ⟨named, before, event, after, rfl, call, ?_⟩
    intro later member clears
    apply rest later member
    cases laterCall : later.call with
    | addSession other => rwa [laterCall] at clears
    | resetSession => trivial
    | removeSession removed => simp [laterCall, Call.Clears] at clears
    | getSession asked => simp [laterCall, Call.Clears] at clears

/-- The cache is a finite map throughout a history exactly when no removal in it
names an id that was added since the last reset. -/
theorem refines_map_iff (history : List Event) :
    RefinesMap history ↔
      ∀ before thread channelId, before ++ [⟨thread, .removeSession (some channelId)⟩] <+: history →
        ¬ AddedSinceReset channelId before := by
  constructor
  · intro refined before thread channelId isPrefix added
    obtain ⟨channel, held⟩ := (addedSinceReset_iff channelId before).mp added
    have gone := (refined.removes before thread channelId isPrefix).1
    rw [getSession_eq, cacheAfter_snoc, perform_removeSession, Option.bind_some, held] at gone
    cases gone
  · intro absent
    constructor
    · intro before isPrefix channelId
      refine ⟨_, by rw [getSession_eq], ?_⟩
      intro channel
      rw [Option.bind_some, lookup_cacheAfter]
      exact lastAdded_clears_iff fun earlier thread removed shorter =>
        absent earlier thread removed (shorter.trans isPrefix)
    · intro before thread channelId isPrefix
      have unchanged : cacheAfter (before ++ [⟨thread, .removeSession (some channelId)⟩]) =
          cacheAfter before := by
        rw [cacheAfter_snoc, perform_removeSession]
      have missing : (cacheAfter before).lookup channelId = none := by
        by_contra held
        obtain ⟨channel, held⟩ := Option.ne_none_iff_exists'.mp held
        exact absent before thread channelId isPrefix
          ((addedSinceReset_iff channelId before).mpr ⟨channel, held⟩)
      simp only [unchanged]
      simp [missing]
    · intro before event _ null
      cases call : event.call with
      | addSession channel =>
        rw [call] at null
        refine perform_addSession_null channel ?_ _
        rintro held rfl
        exact null
      | removeSession channelId => exact perform_removeSession channelId _
      | getSession channelId =>
        rw [call] at null
        obtain rfl : channelId = none := null
        exact perform_getSession none _
      | resetSession =>
        rw [call] at null
        exact null.elim

/-- A removed session is still returned. -/
theorem removed_session_is_returned :
    (getSession (some "a") (cacheAfter [⟨1, .addSession (some ⟨7, some "a"⟩)⟩,
      ⟨2, .removeSession (some "a")⟩])).1 = .ok (some ⟨7, some "a"⟩) ∧
    ¬ RefinesMap [⟨1, .addSession (some ⟨7, some "a"⟩)⟩, ⟨2, .removeSession (some "a")⟩] := by
  have kept : (getSession (some "a") (cacheAfter [⟨1, .addSession (some ⟨7, some "a"⟩)⟩,
      ⟨2, .removeSession (some "a")⟩])).1 = .ok (some ⟨7, some "a"⟩) := by
    simp only [cacheAfter, List.foldl_cons, List.foldl_nil, perform_addSession,
      perform_removeSession, getSession_eq, Option.bind_some, AList.lookup_insert]
  refine ⟨kept, ?_⟩
  intro refined
  have gone := (refined.removes [⟨1, .addSession (some ⟨7, some "a"⟩)⟩] 2 "a" (List.prefix_refl _)).1
  cases kept.symm.trans gone

end Tomas.ChannelCache
