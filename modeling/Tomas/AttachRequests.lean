import Tomas.Methods
import Tomas.Runs

/-! The requests that load the agent into a running JVM. The attach API is known
by what its calls throw; what they do is recorded under a fresh handle for each
attachment. Exceptions are caught on the way, errors are not. -/
namespace Tomas.AttachRequests
open Tomas.Methods Tomas.Runs

/-- The two kinds of throwable a `catch (Exception e)` tells apart. -/
inductive Throwable where
  | exception (message : String)
  | error (message : String)
  deriving DecidableEq, Repr

structure VirtualMachineDescriptor where
  id : String
  deriving DecidableEq, Repr

/-- An attachment to the JVM of an id. -/
structure VirtualMachine where
  handle : Nat
  id : String
  deriving DecidableEq, Repr

/-- The calls that have been made on an attachment. -/
inductive Event where
  | attached (vm : VirtualMachine)
  | agentLoaded (vm : VirtualMachine) (agent options : String)
  | loadFailed (vm : VirtualMachine)
  | detachAttempted (vm : VirtualMachine)
  deriving DecidableEq, Repr

def Event.vm : Event → VirtualMachine
  | .attached vm | .agentLoaded vm _ _ | .loadFailed vm | .detachAttempted vm => vm

/-- What the attach API finds and throws while a request is served. -/
structure AttachApi where
  list : List VirtualMachineDescriptor
  attach : Option Throwable := none
  loadAgent : Option Throwable := none
  detach : Option Throwable := none
  deriving DecidableEq, Repr

structure World where
  trace : List Event := []
  attachments : Nat := 0
  deriving DecidableEq, Repr

abbrev Java := Body World Throwable

def record (event : Event) : Java Unit :=
  modify fun world => { world with trace := world.trace ++ [event] }

def throwIf : Option Throwable → Java Unit
  | none => pure ()
  | some throwable => throw throwable

/-- `catch (Exception e)`: the stack trace is printed. -/
def catchException {α : Type} (block : Java α) : Java (Option α) :=
  attempt (fun throwable => throwable matches .exception _) block

/-! ## The attach API -/

def VirtualMachine.attachPid (api : AttachApi) (pid : String) : Java VirtualMachine := do
  throwIf api.attach
  let vm := { handle := (← get).attachments, id := pid }
  modify fun world => { world with attachments := world.attachments + 1 }
  record (.attached vm)
  pure vm

def VirtualMachine.attach (api : AttachApi) (descriptor : VirtualMachineDescriptor) :
    Java VirtualMachine :=
  VirtualMachine.attachPid api descriptor.id

def VirtualMachine.loadAgent (api : AttachApi) (vm : VirtualMachine) (agent options : String) :
    Java Unit :=
  match api.loadAgent with
  | none => record (.agentLoaded vm agent options)
  | some throwable => do
    record (.loadFailed vm)
    throw throwable

def VirtualMachine.detach (api : AttachApi) (vm : VirtualMachine) : Java Unit := do
  record (.detachAttempted vm)
  throwIf api.detach

/-! ## `AttachVirtualMachine` and `IndexController` -/

def agentJar : String := "E:\\git\\asd1\\111\\tomas\\agent\\target\\tomas-agent-jar-with-dependencies.jar"

/-- The two blocks are one `try` in the source, where `vm` is null until the
first of them has assigned it. -/
def AttachVirtualMachine.attachJvm (api : AttachApi) (pid : String) : Java (Option VirtualMachine) := do
  let virtualMachineDescriptor := api.list.find? fun descriptor => descriptor.id == pid
  let vm ← catchException <|
    match virtualMachineDescriptor with
    | none => VirtualMachine.attachPid api pid
    | some descriptor => VirtualMachine.attach api descriptor
  match vm with
  | none => pure none
  | some vm =>
    let _ ← catchException do
      VirtualMachine.loadAgent api vm agentJar "tomas"
      VirtualMachine.detach api vm
    pure (some vm)

/-- `HttpResult`, whose other statuses no modelled method gives. -/
structure HttpResult (T : Type) where
  status : String
  rs : Option T := none
  errcode : Option String := none
  errmsg : Option String := none
  deriving DecidableEq, Repr

def HttpResult.SUCCESS : String := "1"

def HttpResult.ok {T : Type} : HttpResult T where
  status := HttpResult.SUCCESS
  errmsg := some "操作成功"

/-- `String.valueOf(pid)`. -/
def valueOf : Option Int32 → String
  | none => "null"
  | some pid => toString pid.toInt

def IndexController.attachJvm (api : AttachApi) (pid : Option Int32) : Java (HttpResult Unit) := do
  let _ ← AttachVirtualMachine.attachJvm api (valueOf pid)
  pure HttpResult.ok

/-! ## Requests -/

structure Request where
  pid : Option Int32
  api : AttachApi
  deriving DecidableEq, Repr

/-- The answer to a request, unless an error is thrown, and what has been done. -/
def serve (request : Request) (world : World) : Except Throwable (HttpResult Unit) × World :=
  IndexController.attachJvm request.api request.pid world

/-- Requests are served one after the other. -/
def step (world : World) (request : Request) : Option World := some (serve request world).2

/-- What a request adds to the record. -/
def done (world : World) (request : Request) : List Event :=
  (serve request world).2.trace.drop world.trace.length

/-- The agent has been loaded into the JVM of an id. -/
def Loaded (id : String) (events : List Event) : Prop :=
  ∃ vm agent options, vm.id = id ∧ .agentLoaded vm agent options ∈ events

/-- What the requests owe their callers once they return. -/
structure Honest (world : World) (request : Request) : Prop where
  cleans : ∀ answer, (serve request world).1 = .ok answer →
    ∀ vm, .loadFailed vm ∈ done world request → .detachAttempted vm ∈ done world request
  reports : ∀ answer, (serve request world).1 = .ok answer →
    (answer.status = HttpResult.SUCCESS ↔ Loaded (valueOf request.pid) (done world request))

/-- No attachment is left open by a failed load. -/
def Closed (world : World) : Prop :=
  ∀ vm, .loadFailed vm ∈ world.trace → .detachAttempted vm ∈ world.trace

/-- Attaching throws no exception, and what has been attached takes the agent. -/
def Request.Succeeds (request : Request) : Prop :=
  (∀ message, request.api.attach ≠ some (.exception message)) ∧
    (request.api.attach = none → request.api.loadAgent = none)

/-! ## What a request does -/

section Serving

variable {request : Request} {world : World}

/-- The attachment a request makes, if it does. -/
def attachment (world : World) (request : Request) : VirtualMachine :=
  { handle := world.attachments, id := valueOf request.pid }

/-- The first throwable of the attach API that a request meets. -/
def Request.meets (request : Request) : Option Throwable :=
  request.api.attach <|> request.api.loadAgent <|> request.api.detach

def Request.answer (request : Request) : Except Throwable (HttpResult Unit) :=
  match request.meets with
  | some (.error message) => .error (.error message)
  | some (.exception _) | none => .ok HttpResult.ok

def Request.calls (request : Request) (vm : VirtualMachine) : List Event :=
  match request.api.attach, request.api.loadAgent with
  | some _, _ => []
  | none, some _ => [.attached vm, .loadFailed vm]
  | none, none => [.attached vm, .agentLoaded vm agentJar "tomas", .detachAttempted vm]

/-- Whichever way a request attaches, it attaches to the JVM of its pid. -/
private theorem attachJvm_eq (api : AttachApi) (pid : String) :
    AttachVirtualMachine.attachJvm api pid =
      AttachVirtualMachine.attachJvm { api with list := [] } pid := by
  cases found : api.list.find? fun descriptor => descriptor.id == pid with
  | none =>
    simp only [AttachVirtualMachine.attachJvm, found]
    rfl
  | some descriptor =>
    have same : descriptor.id = pid := by simpa using List.find?_some found
    simp only [AttachVirtualMachine.attachJvm, found, VirtualMachine.attach, same]
    rfl

theorem serve_eq (request : Request) (world : World) :
    serve request world = (request.answer,
      { trace := world.trace ++ request.calls (attachment world request)
        attachments := world.attachments + if request.api.attach = none then 1 else 0 }) := by
  obtain ⟨pid, list, attach, loadAgent, detach⟩ := request
  rw [serve, IndexController.attachJvm, attachJvm_eq]
  cases attach with
  | some throwable =>
    cases throwable <;>
    · simp only [Request.answer, Request.meets, Request.calls, List.append_nil]
      rfl
  | none =>
    cases loadAgent with
    | some throwable =>
      cases throwable <;>
      · simp only [Request.answer, Request.meets, Request.calls]
        rw [List.append_cons]
        rfl
    | none =>
      rcases detach with _ | _ | _ <;>
      · simp only [Request.answer, Request.meets, Request.calls]
        rw [List.append_cons, List.append_cons]
        rfl

private theorem done_eq : done world request = request.calls (attachment world request) := by
  rw [done, serve_eq, List.drop_left]

private theorem calls_vm {vm : VirtualMachine} {event : Event} (member : event ∈ request.calls vm) :
    event.vm = vm := by
  unfold Request.calls at member
  split at member
  · cases member
  · simp only [List.mem_cons, List.not_mem_nil, or_false] at member
    rcases member with rfl | rfl <;> rfl
  · simp only [List.mem_cons, List.not_mem_nil, or_false] at member
    rcases member with rfl | rfl | rfl <;> rfl

private theorem loaded_calls {vm : VirtualMachine} (own : vm.id = valueOf request.pid) :
    Loaded (valueOf request.pid) (request.calls vm) ↔
      request.api.attach = none ∧ request.api.loadAgent = none := by
  unfold Request.calls Loaded
  cases attach : request.api.attach with
  | some throwable => simp
  | none =>
    cases load : request.api.loadAgent with
    | some throwable => simp
    | none => simp [own]

private theorem loadFailed_calls {vm : VirtualMachine} :
    .loadFailed vm ∈ request.calls vm ↔ request.api.attach = none ∧ request.api.loadAgent ≠ none := by
  unfold Request.calls
  cases request.api.attach with
  | some throwable => simp
  | none => cases request.api.loadAgent <;> simp

private theorem detachAttempted_calls {vm : VirtualMachine} :
    .detachAttempted vm ∈ request.calls vm ↔
      request.api.attach = none ∧ request.api.loadAgent = none := by
  unfold Request.calls
  cases request.api.attach with
  | some throwable => simp
  | none => cases request.api.loadAgent <;> simp

/-- The request returns with nothing caught before the agent was loaded. -/
def Request.Candid (request : Request) : Prop :=
  (∀ message, request.api.attach ≠ some (.exception message)) ∧
    (request.api.attach = none → ∀ message, request.api.loadAgent ≠ some (.exception message))

private theorem answered_of_candid {answer : HttpResult Unit} (candid : request.Candid)
    (returned : request.answer = .ok answer) :
    request.api.attach = none ∧ request.api.loadAgent = none ∧ answer = HttpResult.ok := by
  rw [Request.answer, Request.meets] at returned
  cases attach : request.api.attach with
  | some throwable =>
    cases throwable with
    | exception message => exact absurd attach (candid.1 message)
    | error message => simp [attach] at returned
  | none =>
    cases load : request.api.loadAgent with
    | some throwable =>
      cases throwable with
      | exception message => exact absurd load (candid.2 attach message)
      | error message => simp [attach, load] at returned
    | none =>
      refine ⟨rfl, rfl, ?_⟩
      split at returned
      · cases returned
      · cases returned
        rfl
      · cases returned
        rfl

/-- Whatever is caught is reported as a success. -/
theorem honest_iff_candid : Honest world request ↔ request.Candid := by
  have answered : ∀ answer, (serve request world).1 = .ok answer ↔
      request.answer = .ok answer := by
    intro answer
    rw [serve_eq]
  constructor
  · intro honest
    constructor
    · intro message attach
      have returned : request.answer = .ok HttpResult.ok := by
        simp [Request.answer, Request.meets, attach]
      have loaded := (honest.reports _ ((answered _).mpr returned)).mp rfl
      rw [done_eq, loaded_calls rfl, attach] at loaded
      cases loaded.1
    · intro attach message load
      have returned : request.answer = .ok HttpResult.ok := by
        simp [Request.answer, Request.meets, attach, load]
      have loaded := (honest.reports _ ((answered _).mpr returned)).mp rfl
      rw [done_eq, loaded_calls rfl, load] at loaded
      cases loaded.2
  · intro candid
    constructor
    · intro answer returned vm failed
      obtain ⟨attach, load, -⟩ := answered_of_candid candid ((answered _).mp returned)
      rw [done_eq] at failed
      obtain rfl : vm = attachment world request := calls_vm failed
      exact absurd load (loadFailed_calls.mp failed).2
    · intro answer returned
      obtain ⟨attach, load, rfl⟩ := answered_of_candid candid ((answered _).mp returned)
      rw [done_eq, loaded_calls rfl]
      exact iff_of_true rfl ⟨attach, load⟩

end Serving

/-! ## Runs of requests -/

section Runs

variable {world next final : World} {requests : List Request} {request : Request}

/-- Handles are never used again, and a load that has failed leaves its
attachment open. -/
structure Recorded (requests : List Request) (world : World) : Prop where
  fresh : ∀ event ∈ world.trace, event.vm.handle < world.attachments
  leaks : ∀ request ∈ requests, request.api.attach = none → request.api.loadAgent ≠ none →
    ∃ vm, .loadFailed vm ∈ world.trace ∧ .detachAttempted vm ∉ world.trace
  fails : ∀ vm, .loadFailed vm ∈ world.trace →
    ∃ request ∈ requests, request.api.attach = none ∧ request.api.loadAgent ≠ none

private theorem recorded_step (recorded : Recorded requests world)
    (stepped : step world request = some next) : Recorded (requests ++ [request]) next := by
  rw [step, serve_eq, Option.some_inj] at stepped
  subst stepped
  have apart : ∀ event ∈ world.trace, event.vm ≠ attachment world request := by
    intro event member same
    have older := recorded.fresh event member
    rw [same] at older
    exact Nat.lt_irrefl _ older
  constructor
  · intro event member
    rcases List.mem_append.mp member with old | new
    · exact Nat.lt_add_right _ (recorded.fresh event old)
    · rw [calls_vm new]
      by_cases attach : request.api.attach = none
      · simp [attachment, attach]
      · cases known : request.api.attach with
        | none => exact absurd known attach
        | some throwable => simp [Request.calls, known] at new
  · intro other member attach load
    rcases List.mem_append.mp member with old | new
    · obtain ⟨vm, failed, stays⟩ := recorded.leaks other old attach load
      refine ⟨vm, List.mem_append_left _ failed, ?_⟩
      intro detached
      rcases List.mem_append.mp detached with before | now
      · exact stays before
      · have own : vm = attachment world request := calls_vm now
        exact apart _ failed own
    · rw [List.mem_singleton.mp new] at attach load
      refine ⟨attachment world request, ?_, ?_⟩
      · exact List.mem_append_right _ (loadFailed_calls.mpr ⟨attach, load⟩)
      · intro detached
        rcases List.mem_append.mp detached with before | now
        · exact apart _ before rfl
        · exact load (detachAttempted_calls.mp now).2
  · intro vm failed
    rcases List.mem_append.mp failed with before | now
    · obtain ⟨other, member, cause⟩ := recorded.fails vm before
      exact ⟨other, List.mem_append_left _ member, cause⟩
    · obtain rfl : vm = attachment world request := calls_vm now
      exact ⟨request, by simp, loadFailed_calls.mp now⟩

/-- Nothing stays open exactly when no load fails. -/
private theorem closed_iff (ran : exec step {} requests = some final) :
    Closed final ↔
      ∀ request ∈ requests, request.api.attach = none → request.api.loadAgent = none := by
  have recorded : Recorded requests final := by
    refine exec_history Recorded (fun _ => True) ?_ ?_ (fun _ _ => trivial) ran
    · constructor
      · intro event member
        cases member
      · intro request member
        cases member
      · intro vm failed
        cases failed
    · intro before world request next earlier _ stepped
      exact recorded_step earlier stepped
  constructor
  · intro closed request member attach
    by_contra load
    obtain ⟨vm, failed, stays⟩ := recorded.leaks request member attach load
    exact stays (closed vm failed)
  · intro loads vm failed
    obtain ⟨request, member, attach, load⟩ := recorded.fails vm failed
    exact absurd (loads request member attach) load

/-- What the requests owe over a whole run. -/
structure Clean (requests : List Request) (final : World) : Prop where
  honest : EachStep step {} requests Honest
  closed : Closed final

/-- Attach requests clean up and report honestly exactly when every one of them
loads the agent, or is stopped by an error before there is an attachment. -/
theorem clean_iff_succeeds (ran : exec step {} requests = some final) :
    Clean requests final ↔ ∀ request ∈ requests, request.Succeeds := by
  have honest : EachStep step {} requests Honest ↔ ∀ request ∈ requests, request.Candid := by
    rw [← eachStep_iff_forall ran]
    exact eachStep_congr (fun _ => True) trivial (fun _ _ _ _ _ => trivial)
      (fun world request _ _ _ => honest_iff_candid) ran
  have closed := closed_iff ran
  constructor
  · rintro ⟨each, stays⟩ request member
    exact ⟨(honest.mp each request member).1, closed.mp stays request member⟩
  · intro succeeds
    constructor
    · rw [honest]
      intro request member
      obtain ⟨quiet, loads⟩ := succeeds request member
      refine ⟨quiet, ?_⟩
      intro attach message load
      rw [loads attach] at load
      cases load
    · rw [closed]
      intro request member
      exact (succeeds request member).2

/-- One JVM is on the list, one is reached by its pid alone and does not let go,
and one has ended with an error. -/
private def attachSeveral : List Request :=
  [{ pid := some 4711, api := { list := [{ id := "4711" }] } },
    { pid := some 815, api := { list := [{ id := "4711" }], detach := some (.exception "IOException") } },
    { pid := none, api := { list := [], attach := some (.error "OutOfMemoryError") } }]

theorem clean_iff_succeeds_several :
    ∃ final, exec step {} attachSeveral = some final ∧ Clean attachSeveral final ∧
      (Clean attachSeveral final ↔ ∀ request ∈ attachSeveral, request.Succeeds) := by
  have clean := @clean_iff_succeeds _ attachSeveral rfl
  refine ⟨_, rfl, clean.mpr ?_, clean⟩
  simp [attachSeveral, Request.Succeeds]

/-- The agent jar is not there. -/
private def attachWithoutAgent : Request where
  pid := some 4711
  api := { list := [{ id := "4711" }], loadAgent := some (.exception "AgentLoadException") }

/-- The JVM stays attached, and the answer is a success. -/
theorem failed_load_stays_open :
    ∃ final vm, exec step {} [attachWithoutAgent] = some final ∧
      (serve attachWithoutAgent {}).1 = .ok HttpResult.ok ∧
      ¬ Loaded "4711" final.trace ∧
      .loadFailed vm ∈ final.trace ∧ .detachAttempted vm ∉ final.trace ∧
      ¬ Clean [attachWithoutAgent] final := by
  refine ⟨_, { handle := 0, id := "4711" }, rfl, rfl, ?_, by decide, by decide, ?_⟩
  · rintro ⟨vm, agent, options, -, loaded⟩
    rcases List.mem_cons.mp loaded with same | loaded
    · cases same
    · cases List.mem_singleton.mp loaded
  · intro clean
    have closed := clean.closed { handle := 0, id := "4711" } (by decide)
    revert closed
    decide

end Runs

end Tomas.AttachRequests
