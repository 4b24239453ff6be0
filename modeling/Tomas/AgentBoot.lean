import Mathlib.Tactic.SplitIfs
import Tomas.Protocol

/-! The start of the agent in a JVM: `TomasAgentBoot` behind its system property,
`AgentApplication` behind its singleton, and the client. Every step that can
fail may throw anything; the methods are synchronized, so the entry calls of a
JVM come one after the other. -/
namespace Tomas.AgentBoot
open Tomas.Protocol

structure Instrumentation where
  reference : Nat
  deriving DecidableEq, Repr

/-- The class has one instance. -/
inductive Client where
  | new
  deriving DecidableEq, Repr

structure AgentApplication where
  instrumentation : Option Instrumentation
  args : Option String
  client : Option Client := none
  deriving DecidableEq, Repr

/-- The property, the two statics, and what the agent has brought about: the
transformers installed and the connections started. -/
structure Jvm where
  tomasAgentStart : Bool := false
  agentApplication : Option AgentApplication := none
  clientInstance : Option Client := none
  installed : List Instrumentation := []
  started : List Client := []
  deriving DecidableEq, Repr

/-- What each step of one entry call throws, if anything. -/
structure Failures where
  append : Option Throwable := none
  load : Option Throwable := none
  install : Option Throwable := none
  createClient : Option Throwable := none
  deriving DecidableEq, Repr

abbrev JvmM := ExceptT Throwable (StateM Jvm)

def failing : Option Throwable → JvmM Unit
  | none => pure ()
  | some cause => throw cause

/-! ## `AgentApplication` -/

def getInstance (failures : Failures) : JvmM Client := do
  match (← getThe Jvm).clientInstance with
  | some client => return client
  | none =>
    failing failures.createClient
    modify fun jvm => { jvm with clientInstance := some .new }
    return .new

def startConnect (client : Client) : JvmM Unit :=
  modify fun jvm => { jvm with started := jvm.started ++ [client] }

/-- Byte Buddy throws on a null instrumentation. -/
def installOn (failures : Failures) (instrumentation : Option Instrumentation) : JvmM Unit := do
  failing failures.install
  match instrumentation with
  | none => throw .nullPointerException
  | some inst => modify fun jvm => { jvm with installed := jvm.installed ++ [inst] }

def init (failures : Failures) (application : AgentApplication) : JvmM Unit := do
  if application.instrumentation.isSome && application.client.isSome then
    return
  installOn failures application.instrumentation
  let client ← getInstance failures
  modify fun jvm => { jvm with agentApplication := some { application with client := some client } }
  startConnect client

/-- The singleton keeps the instrumentation of the call that created it. -/
def AgentApplication.main (failures : Failures) (instrumentation : Option Instrumentation)
    (args : Option String) : JvmM Unit := do
  let application := (← getThe Jvm).agentApplication.getD { instrumentation, args }
  modify fun jvm => { jvm with agentApplication := some application }
  init failures application

/-! ## `TomasAgentBoot` -/

def TomasAgentBoot.main (failures : Failures) (args : Option String)
    (inst : Option Instrumentation) : JvmM Unit := do
  if (← getThe Jvm).tomasAgentStart then
    return
  modify fun jvm => { jvm with tomasAgentStart := true }
  if inst.isSome then
    tryCatch (failing failures.append) fun cause =>
      match cause with
      | .ioException => pure ()
      | other => throw other
  tryCatch (do failing failures.load; AgentApplication.main failures inst args) fun _ => pure ()

/-- The four entry points. -/
inductive Entry where
  | premain (args : Option String)
  | premainInst (args : Option String) (inst : Option Instrumentation)
  | agentmain (args : Option String)
  | agentmainInst (args : Option String) (inst : Option Instrumentation)
  deriving DecidableEq, Repr

def Entry.inst : Entry → Option Instrumentation
  | .premain _ | .agentmain _ => none
  | .premainInst _ inst | .agentmainInst _ inst => inst

def Entry.run (failures : Failures) : Entry → JvmM Unit
  | .premain args | .agentmain args => TomasAgentBoot.main failures args none
  | .premainInst args inst | .agentmainInst args inst => TomasAgentBoot.main failures args inst

structure EntryCall where
  entry : Entry
  failures : Failures := {}
  deriving DecidableEq, Repr

/-- The JVM after one entry call, whether or not it throws. -/
def enter (jvm : Jvm) (call : EntryCall) : Jvm := (call.entry.run call.failures jvm).2

/-- A new JVM after a sequence of entry calls. -/
def afterCalls (calls : List EntryCall) : Jvm := calls.foldl enter {}

/-! ## What a call does -/

private theorem run_eq_main (failures : Failures) (entry : Entry) :
    ∃ args, entry.run failures = TomasAgentBoot.main failures args entry.inst := by
  cases entry with
  | premain args => exact ⟨args, rfl⟩
  | premainInst args inst => exact ⟨args, rfl⟩
  | agentmain args => exact ⟨args, rfl⟩
  | agentmainInst args inst => exact ⟨args, rfl⟩

/-- Behind the property nothing happens. -/
theorem main_guarded (failures : Failures) (args : Option String) (inst : Option Instrumentation)
    (jvm : Jvm) (guarded : jvm.tomasAgentStart = true) :
    TomasAgentBoot.main failures args inst jvm = (.ok (), jvm) := by
  obtain ⟨tomasAgentStart, agentApplication, clientInstance, installed, started⟩ := jvm
  cases guarded
  rfl

/-- Without an instrumentation nothing is ever installed or started. -/
private theorem main_without_inst (failures : Failures) (args : Option String) :
    (TomasAgentBoot.main failures args none {}).2 =
      { tomasAgentStart := true
        agentApplication :=
          if failures.load = none then some { instrumentation := none, args } else none } := by
  obtain ⟨append, load, install, createClient⟩ := failures
  cases load with
  | some cause => rfl
  | none => cases install <;> rfl

/-- The steps run in order, each only if the ones before it did not throw; an
`IOException` from appending the jar does not count. -/
private theorem main_with_inst (failures : Failures) (args : Option String) (inst : Instrumentation) :
    (TomasAgentBoot.main failures args (some inst) {}).2 =
      if failures.append ≠ none ∧ failures.append ≠ some .ioException then { tomasAgentStart := true }
      else if failures.load ≠ none then { tomasAgentStart := true }
      else if failures.install ≠ none then
        { tomasAgentStart := true
          agentApplication := some { instrumentation := some inst, args } }
      else if failures.createClient ≠ none then
        { tomasAgentStart := true
          agentApplication := some { instrumentation := some inst, args }
          installed := [inst] }
      else
        { tomasAgentStart := true
          agentApplication := some { instrumentation := some inst, args, client := some .new }
          clientInstance := some .new
          installed := [inst]
          started := [.new] } := by
  obtain ⟨append, load, install, createClient⟩ := failures
  rcases append with _ | cause
  · cases load with
    | some cause => rfl
    | none =>
      cases install with
      | some cause => rfl
      | none => cases createClient <;> rfl
  · by_cases caught : cause = .ioException
    · subst caught
      cases load with
      | some cause => rfl
      | none =>
        cases install with
        | some cause => rfl
        | none => cases createClient <;> rfl
    · rw [if_pos ⟨by simp, by simpa using caught⟩]
      cases cause <;> first | rfl | exact absurd rfl caught

private theorem enter_guarded (jvm : Jvm) (call : EntryCall) (guarded : jvm.tomasAgentStart = true) :
    enter jvm call = jvm := by
  obtain ⟨args, same⟩ := run_eq_main call.failures call.entry
  rw [enter, same, main_guarded _ _ _ _ guarded]

private theorem enter_new_guards (call : EntryCall) : (enter {} call).tomasAgentStart = true := by
  obtain ⟨args, same⟩ := run_eq_main call.failures call.entry
  rw [enter, same]
  cases call.entry.inst with
  | none => rw [main_without_inst]
  | some inst =>
    rw [main_with_inst]
    split_ifs <;> rfl

private theorem foldl_guarded (calls : List EntryCall) (jvm : Jvm)
    (guarded : jvm.tomasAgentStart = true) : calls.foldl enter jvm = jvm := by
  induction calls with
  | nil => rfl
  | cons call calls ih => rw [List.foldl_cons, enter_guarded jvm call guarded, ih]

/-- Only the first entry call of a JVM has any effect. -/
theorem afterCalls_cons (first : EntryCall) (rest : List EntryCall) :
    afterCalls (first :: rest) = enter {} first := by
  rw [afterCalls, List.foldl_cons, foldl_guarded rest _ (enter_new_guards first)]

private theorem enter_new_at_most_once (call : EntryCall) :
    (enter {} call).installed.length ≤ 1 ∧ (enter {} call).started.length ≤ 1 := by
  obtain ⟨args, same⟩ := run_eq_main call.failures call.entry
  rw [enter, same]
  cases call.entry.inst with
  | none =>
    rw [main_without_inst]
    exact ⟨Nat.zero_le 1, Nat.zero_le 1⟩
  | some inst =>
    rw [main_with_inst]
    split_ifs <;> exact ⟨by simp, by simp⟩

/-- The transformer is installed and the client started at most once, and both
once the first call of the JVM carries an instrumentation and no step of it
fails. -/
theorem first_call_boots_once (calls : List EntryCall) :
    (afterCalls calls).installed.length ≤ 1 ∧ (afterCalls calls).started.length ≤ 1 ∧
      ∀ first rest inst, calls = first :: rest → first.entry.inst = some inst →
        first.failures = {} →
          (afterCalls calls).installed = [inst] ∧ (afterCalls calls).started = [.new] := by
  cases calls with
  | nil => simp [afterCalls]
  | cons call calls =>
    rw [afterCalls_cons]
    obtain ⟨installs, starts⟩ := enter_new_at_most_once call
    refine ⟨installs, starts, ?_⟩
    rintro first rest inst split carries clean
    cases split
    obtain ⟨args, same⟩ := run_eq_main call.failures call.entry
    rw [enter, same, carries, clean, main_with_inst]
    exact ⟨rfl, rfl⟩

theorem first_call_boots_once_retried :
    (afterCalls [⟨.premainInst none (some ⟨1⟩), {}⟩, ⟨.agentmain none, {}⟩]).installed = [⟨1⟩] ∧
    (afterCalls [⟨.premainInst none (some ⟨1⟩), {}⟩, ⟨.agentmain none, {}⟩]).started = [.new] :=
  (first_call_boots_once _).2.2 _ _ _ rfl rfl rfl

/-- A first call without an instrumentation, or one that cannot load the agent,
spoils every later call. -/
theorem spoiled_first_call :
    (afterCalls [⟨.premain none, {}⟩, ⟨.agentmainInst none (some ⟨1⟩), {}⟩]).installed = [] ∧
    (afterCalls [⟨.premain none, {}⟩, ⟨.agentmainInst none (some ⟨1⟩), {}⟩]).started = [] ∧
    (afterCalls [⟨.premainInst none (some ⟨1⟩), { load := some (.other 0) }⟩,
      ⟨.agentmainInst none (some ⟨1⟩), {}⟩]).started = [] := by
  decide

end Tomas.AgentBoot
