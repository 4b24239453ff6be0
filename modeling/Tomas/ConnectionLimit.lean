import Tomas.WebSocketComponent

/-! How many connections the `WebSocket` component attempts before it gives up.
The counter goes up with each call of the error callback, and an attempt that
ends with an `ERROR` frame makes two of them. -/
namespace Tomas.ConnectionLimit
open Tomas.Runs Tomas.WebSocketComponent

def attempts (component : Component) : Nat := component.trace.count .connection

def AllClosed (component : Component) : Prop :=
  ∀ socket ∈ component.sockets, socket.readyState = .closed

instance (component : Component) : Decidable (AllClosed component) :=
  inferInstanceAs (Decidable (∀ socket ∈ component.sockets, socket.readyState = .closed))

/-- Each socket closes before the next timer fires. -/
def ClosesFirst (component : Component) : Event → Prop
  | .fire _ => AllClosed component
  | _ => True

instance (component : Component) (event : Event) : Decidable (ClosesFirst component event) :=
  match event with
  | .fire _ => inferInstanceAs (Decidable (AllClosed component))
  | .opened _ | .connectedFrame _ | .errorFrame _ | .message _ | .lost _ | .closed _ => isTrue trivial

def IsConnected : Event → Prop
  | .connectedFrame _ => True
  | _ => False

/-- No socket is left to close and no timer to fire. -/
def AtRest (component : Component) : Prop := AllClosed component ∧ component.pending = []

/-- An `ERROR` frame finds the counter one short of the limit, or past it. -/
def NotEarly (props : Props) (component : Component) : Event → Prop
  | .errorFrame _ => props.limitCnt ≤ (component.connectCnt + 1 : Nat)
  | _ => True

/-- Where counting starts, and the attempts there should be in the end. -/
inductive Counted (props : Props) : Component → Nat → Prop where
  | mounted : Counted props (mounted true) props.limitCnt.toNat
  | connected {events : List Event} {index : Nat} {component : Component}
      (ran : exec (step props) (mounted true) (events ++ [.connectedFrame index]) = some component)
      (closes : EachStep (step props) (mounted true) (events ++ [.connectedFrame index])
        ClosesFirst) :
      Counted props component (attempts component + (props.limitCnt.toNat - 1))

/-! ## One step -/

section Steps

variable {props : Props} {component next : Component} {event : Event} {old : List Socket} {last : Socket}

theorem allClosed_iff (sole : Sole component old last) :
    AllClosed component ↔ last.readyState = .closed := by
  constructor
  · intro closed
    apply closed
    simp [sole.sockets]
  · intro closed socket member
    rw [sole.sockets] at member
    rcases List.mem_append.mp member with before | same
    · exact sole.older socket before
    · rw [List.mem_singleton.mp same, closed]

/-- The component between one step and the next. With every socket closed it is
waiting, unless the limit has been reached. -/
structure Cycle (props : Props) (component : Component) : Prop where
  wired : Wired component
  timed : Timed component
  sole : ∃ old last, Sole component old last
  plain : component.delayTimer = none
  lost : AllClosed component → component.connected = false
  waits : AllClosed component → (component.pending = [] ↔ props.limitCnt ≤ component.connectCnt)

private theorem attempts_of_trace (same : next.trace = component.trace) :
    attempts next = attempts component := by
  rw [attempts, attempts, same]

private theorem failed_plain (plain : props.isDelayConnect = false) (timed : Timed component)
    (none : component.delayTimer = none) :
    (call (errorCallback props) component).delayTimer = Option.none ∧
      ((call (errorCallback props) component).pending = [] ↔
        props.limitCnt ≤ (component.connectCnt + 1 : Nat)) := by
  rw [errorCallback_eq]
  split
  · rename_i early
    refine ⟨none, iff_of_false ?_ (Int.not_le.mpr early)⟩
    simp
  · rename_i enough
    rw [plain, if_neg Bool.false_ne_true]
    exact ⟨none, iff_of_true (timed_cleared timed) (Int.not_lt.mp enough)⟩

/-- What a step does to the counter, the attempts and the sockets. -/
inductive Counts (props : Props) (component next : Component) : Event → Prop where
  | stays {event : Event} (before : ¬ AllClosed component) (after : ¬ AllClosed next)
      (count : next.connectCnt = component.connectCnt) (same : attempts next = attempts component)
      (other : NotEarly props component event) (quiet : ¬ IsConnected event) : Counts props component next event
  | connected {index : Nat} (after : ¬ AllClosed next) (count : next.connectCnt = 0)
      (same : attempts next = attempts component) :
      Counts props component next (.connectedFrame index)
  | failed {index : Nat} (before : ¬ AllClosed component) (after : ¬ AllClosed next)
      (count : next.connectCnt = component.connectCnt + 1) (same : attempts next = attempts component) :
      Counts props component next (.errorFrame index)
  | closed {index : Nat} (before : ¬ AllClosed component) (after : AllClosed next)
      (count : next.connectCnt = component.connectCnt + 1) (same : attempts next = attempts component) :
      Counts props component next (.closed index)
  | fires {timer : Nat} (before : AllClosed component) (after : ¬ AllClosed next)
      (waiting : component.connectCnt < props.limitCnt)
      (count : next.connectCnt = component.connectCnt) (more : attempts next = attempts component + 1) :
      Counts props component next (.fire timer)

/-- While its last socket is live the component owes nothing. -/
private theorem cycle_live (props : Props) (wired : Wired component) (timed : Timed component)
    (sole : Sole component old last) (live : last.readyState ≠ .closed)
    (plain : component.delayTimer = none) : Cycle props component ∧ ¬ AllClosed component := by
  have alive : ¬ AllClosed component := fun closed => live ((allClosed_iff sole).mp closed)
  exact ⟨⟨wired, timed, ⟨old, last, sole⟩, plain, fun closed => absurd closed alive,
    fun closed => absurd closed alive⟩, alive⟩

private theorem cycle_step (plain : props.isDelayConnect = false) (cycle : Cycle props component)
    (closes : ClosesFirst component event) (stepped : step props component event = some next) :
    Cycle props next ∧ Counts props component next event := by
  obtain ⟨old, last, sole⟩ := cycle.sole
  have wired := wired_step cycle.wired stepped
  have timed := timed_step cycle.wired cycle.timed stepped
  have before {state : ReadyState} (now : last.readyState = state) (live : state ≠ .closed) :
      ¬ AllClosed component := by
    intro closed
    exact live (now.symm.trans ((allClosed_iff sole).mp closed))
  cases sole_step cycle.wired sole stepped with
  | opened connecting =>
    obtain ⟨kept, after⟩ := cycle_live props wired timed (sole_update sole) (by simp) cycle.plain
    exact ⟨kept, .stays (before connecting (by simp)) after rfl rfl trivial id⟩
  | connected opened =>
    obtain ⟨kept, after⟩ :=
      cycle_live props wired timed (sole_subscribed sole) (by simp [opened]) cycle.plain
    refine ⟨kept, .connected after rfl ?_⟩
    simp [attempts, Component.subscribed]
  | failed opened =>
    obtain ⟨sockets, -, -, count, trace⟩ := @errorCallback_frame props component
    obtain ⟨none, -⟩ := failed_plain plain cycle.timed cycle.plain
    obtain ⟨kept, after⟩ :=
      cycle_live props wired timed (sole_of_same sole sockets) (by simp [opened]) none
    exact ⟨kept, .failed (before opened (by simp)) after count (attempts_of_trace trace)⟩
  | message opened =>
    obtain ⟨kept, after⟩ :=
      cycle_live props wired timed (sole_of_same sole rfl) (by simp [opened]) cycle.plain
    refine ⟨kept, .stays (before opened (by simp)) after rfl ?_ trivial id⟩
    change (component.trace ++ [Action.emit]).count .connection = component.trace.count .connection
    simp
  | lost live =>
    obtain ⟨kept, after⟩ := cycle_live props wired timed (sole_update sole) (by simp) cycle.plain
    refine ⟨kept, .stays ?_ after rfl rfl trivial id⟩
    rcases live with connecting | opened
    · exact before connecting (by simp)
    · exact before opened (by simp)
  | closed closing =>
    obtain ⟨sockets, -, lost, count, trace⟩ :=
      @errorCallback_frame props (component.update old.length (Socket.become .closed))
    obtain ⟨none, waits⟩ := failed_plain plain
      (@timed_update component old.length (Socket.become .closed) cycle.timed) cycle.plain
    have finished := sole_of_same (sole_update sole) sockets
    have after := (allClosed_iff finished).mpr rfl
    refine ⟨⟨wired, timed, ⟨old, _, finished⟩, none, fun _ => lost, fun _ => ?_⟩,
      .closed (before closing (by simp)) after count (attempts_of_trace trace)⟩
    rw [count]
    exact waits
  | fire timer due =>
    have waiting : component.connectCnt < props.limitCnt := by
      by_contra enough
      have none := (cycle.waits closes).mpr (by omega)
      rw [none] at due
      cases due
    have finished := sole_connection (@sole_of_same _ old last
      { component with pending := component.pending.filter (· ≠ timer) } sole rfl)
      ((allClosed_iff sole).mp closes)
    have reconnects : call timeout { component with pending := component.pending.filter (· ≠ timer) } =
        call connection { component with pending := component.pending.filter (· ≠ timer) } := by
      rw [timeout_eq, cycle.lost closes]
      rfl
    rw [reconnects] at wired timed ⊢
    obtain ⟨kept, after⟩ := cycle_live props wired timed finished (by simp) cycle.plain
    refine ⟨kept, .fires closes after waiting rfl ?_⟩
    change (component.trace ++ [Action.connection]).count .connection =
      component.trace.count .connection + 1
    simp

/-- Something is left to happen until the component is at rest. -/
private theorem exists_step (cycle : Cycle props component) (restless : ¬ AtRest component) :
    ∃ event next, ClosesFirst component event ∧ ¬ IsConnected event ∧
      step props component event = some next := by
  obtain ⟨old, last, sole⟩ := cycle.sole
  have found := sole_last sole
  by_cases finished : AllClosed component
  · cases pending : component.pending with
    | nil => exact absurd ⟨finished, pending⟩ restless
    | cons timer later =>
      have due : timer ∈ component.pending := by simp [pending]
      exact ⟨.fire timer, _, finished, id, if_pos due⟩
  · have live : last.readyState ≠ .closed := fun closed => finished ((allClosed_iff sole).mpr closed)
    cases state : last.readyState with
    | connecting => exact ⟨.lost old.length, _, trivial, id, by simp [step, onSocket, found, state]; rfl⟩
    | opened => exact ⟨.lost old.length, _, trivial, id, by simp [step, onSocket, found, state]; rfl⟩
    | closing => exact ⟨.closed old.length, _, trivial, id, by simp [step, onSocket, found, state]; rfl⟩
    | closed => exact absurd state live

private theorem rest_idle (rest : AtRest component) : step props component event = none := by
  obtain ⟨closed, none⟩ := rest
  cases event with
  | fire timer => simp [step, none]
  | opened index | connectedFrame index | errorFrame index | message index | lost index | closed index =>
    apply onSocket_none
    intro socket found
    simp [closed socket (List.mem_of_getElem? found)]

end Steps

/-! ## Counting -/

section Counting

variable {props : Props} {component next : Component} {event : Event} {total : Nat}

/-- No error has been counted twice: the counter has the attempts that have
failed, or the limit has been reached with the last of them. -/
structure OnCourse (props : Props) (total : Nat) (component : Component) : Prop where
  cycle : Cycle props component
  live : ¬ AllClosed component →
    (component.connectCnt + total + 1 = attempts component + props.limitCnt.toNat ∧
        component.connectCnt < props.limitCnt.toNat) ∨
      (attempts component = total ∧ props.limitCnt.toNat ≤ component.connectCnt)
  finished : AllClosed component →
    (component.connectCnt + total = attempts component + props.limitCnt.toNat ∧
        component.connectCnt < props.limitCnt.toNat) ∨
      (attempts component = total ∧ props.limitCnt.toNat ≤ component.connectCnt)

/-- The counter is ahead of the attempts, and will reach the limit too early. -/
structure Ahead (props : Props) (total : Nat) (component : Component) : Prop where
  cycle : Cycle props component
  short : attempts component < total
  live : ¬ AllClosed component →
    attempts component + props.limitCnt.toNat < component.connectCnt + total + 1
  finished : AllClosed component →
    attempts component + props.limitCnt.toNat < component.connectCnt + total

private theorem onCourse_step (plain : props.isDelayConnect = false) (course : OnCourse props total component)
    (closes : ClosesFirst component event) (fails : ¬ IsConnected event)
    (timely : NotEarly props component event) (stepped : step props component event = some next) :
    OnCourse props total next := by
  obtain ⟨kept, counts⟩ := cycle_step plain course.cycle closes stepped
  cases counts with
  | stays before after count same other quiet =>
    refine ⟨kept, fun _ => ?_, fun closed => absurd closed after⟩
    rw [count, same]
    exact course.live before
  | connected after count same => exact absurd trivial fails
  | failed before after count same =>
    refine ⟨kept, fun _ => ?_, fun closed => absurd closed after⟩
    rw [count, same]
    have reached : props.limitCnt ≤ (component.connectCnt + 1 : Nat) := timely
    have now := course.live before
    omega
  | closed before after count same =>
    refine ⟨kept, fun live => absurd after live, fun _ => ?_⟩
    rw [count, same]
    have now := course.live before
    omega
  | fires before after waiting count more =>
    refine ⟨kept, fun _ => ?_, fun closed => absurd closed after⟩
    rw [count, more]
    have now := course.finished before
    omega

private theorem onCourse_breaks (plain : props.isDelayConnect = false)
    (course : OnCourse props total component) (closes : ClosesFirst component event)
    (early : ¬ NotEarly props component event) (stepped : step props component event = some next) :
    Ahead props total next := by
  obtain ⟨kept, counts⟩ := cycle_step plain course.cycle closes stepped
  cases counts with
  | stays before after count same other quiet => exact absurd other early
  | connected after count same => exact absurd trivial early
  | failed before after count same =>
    have soon : (component.connectCnt + 1 : Nat) < props.limitCnt := Int.not_le.mp early
    have now := course.live before
    refine ⟨kept, ?_, fun _ => ?_, fun closed => absurd closed after⟩
    · rw [same]
      omega
    · rw [count, same]
      omega
  | closed before after count same => exact absurd trivial early
  | fires before after waiting count more => exact absurd trivial early

private theorem ahead_step (plain : props.isDelayConnect = false) (ahead : Ahead props total component)
    (closes : ClosesFirst component event) (fails : ¬ IsConnected event)
    (stepped : step props component event = some next) : Ahead props total next := by
  obtain ⟨kept, counts⟩ := cycle_step plain ahead.cycle closes stepped
  have short := ahead.short
  cases counts with
  | stays before after count same other quiet =>
    refine ⟨kept, by rw [same]; exact short, fun _ => ?_, fun closed => absurd closed after⟩
    rw [count, same]
    exact ahead.live before
  | connected after count same => exact absurd trivial fails
  | failed before after count same =>
    refine ⟨kept, by rw [same]; exact short, fun _ => ?_, fun closed => absurd closed after⟩
    have now := ahead.live before
    rw [count, same]
    omega
  | closed before after count same =>
    refine ⟨kept, by rw [same]; exact short, fun live => absurd after live, fun _ => ?_⟩
    have now := ahead.live before
    rw [count, same]
    omega
  | fires before after waiting count more =>
    have now := ahead.finished before
    refine ⟨kept, ?_, fun _ => ?_, fun closed => absurd closed after⟩
    · rw [more]
      omega
    · rw [count, more]
      omega

end Counting

section Runs

variable {props : Props} {start component final : Component} {events : List Event} {total : Nat}

/-- The component has made its attempts, and will make no more. -/
structure Exact (props : Props) (total : Nat) (component : Component) : Prop where
  reached : attempts component = total
  never : ∀ continuation later, exec (step props) component continuation = some later →
    attempts later = total

private theorem cycle_mounted : Cycle props (mounted true) ∧ ¬ AllClosed (mounted true) := by
  obtain ⟨wired, timed⟩ := @wired_timed props (mounted true) true [] rfl
  exact cycle_live props wired timed sole_mounted (by simp) rfl

private theorem onCourse_start (positive : 1 ≤ props.limitCnt) (plain : props.isDelayConnect = false)
    (counted : Counted props start total) : OnCourse props total start := by
  cases counted with
  | mounted =>
    obtain ⟨cycle, live⟩ := @cycle_mounted props
    refine ⟨cycle, fun _ => Or.inl ?_, fun closed => absurd closed live⟩
    have first : attempts (mounted true) = 1 := rfl
    have zero : (mounted true).connectCnt = 0 := rfl
    omega
  | @connected events index _ ran closes =>
    rw [exec_snoc] at ran
    obtain ⟨before, ranBefore, stepped⟩ := Option.bind_eq_some_iff.mp ran
    have orderly : EachStep (step props) (mounted true) events ClosesFirst := by
      intro front event isPrefix
      exact closes front event (isPrefix.trans (List.prefix_append _ _))
    have earlier : Cycle props before := exec_lawful (fun _ => Cycle props) cycle_mounted.1
      (fun _ _ _ _ cycle first stepped => (cycle_step plain cycle first stepped).1) orderly ranBefore
    have first := closes events (.connectedFrame index) (List.prefix_refl _) before ranBefore
    obtain ⟨cycle, counts⟩ := cycle_step plain earlier first stepped
    cases counts with
    | stays _ _ _ _ _ quiet => exact absurd trivial quiet
    | connected live count same =>
      refine ⟨cycle, fun _ => Or.inl ?_, fun closed => absurd closed live⟩
      omega

/-- With no delayed retries, an attempt after the other: there are never more
than the limit allows, a component that is not at rest can go on, and one at rest
has made exactly the attempts it should if and only if no `ERROR` frame arrived
while the counter was more than one short of the limit. -/
theorem attempts_exact_iff (positive : 1 ≤ props.limitCnt) (plain : props.isDelayConnect = false)
    (counted : Counted props start total) (ran : exec (step props) start events = some final)
    (closes : EachStep (step props) start events ClosesFirst)
    (fails : ∀ event ∈ events, ¬ IsConnected event) :
    attempts final ≤ total ∧
      (¬ AtRest final → ∃ event next, ClosesFirst final event ∧ ¬ IsConnected event ∧
        step props final event = some next) ∧
      (AtRest final →
        (Exact props total final ↔ EachStep (step props) start events (NotEarly props))) := by
  have assumed : EachStep (step props) start events fun component event =>
      ClosesFirst component event ∧ ¬ IsConnected event := by
    intro before event isPrefix reached ranBefore
    exact ⟨closes before event isPrefix reached ranBefore, fails event (isPrefix.subset (by simp))⟩
  have ends : (EachStep (step props) start events (NotEarly props) ∧ OnCourse props total final) ∨
      (¬ EachStep (step props) start events (NotEarly props) ∧ Ahead props total final) := eachStep_or
    (OnCourse props total) (Ahead props total) (onCourse_start positive plain counted)
    (fun _ _ _ course both timely stepped => onCourse_step plain course both.1 both.2 timely stepped)
    (fun _ _ _ course both early stepped => onCourse_breaks plain course both.1 early stepped)
    (fun _ _ _ ahead both stepped => ahead_step plain ahead both.1 both.2 stepped) assumed ran
  rcases ends with ⟨timely, course⟩ | ⟨early, ahead⟩
  · refine ⟨?_, exists_step course.cycle, ?_⟩
    · by_cases finished : AllClosed final
      · have now := course.finished finished
        omega
      · have now := course.live finished
        omega
    · intro rest
      refine iff_of_true ?_ timely
      have reached : attempts final = total := by
        have full := (course.cycle.waits rest.1).mp rest.2
        have now := course.finished rest.1
        omega
      refine ⟨reached, ?_⟩
      intro continuation later ranOn
      cases continuation with
      | nil =>
        cases ranOn
        exact reached
      | cons event continuation =>
        rw [exec_cons, rest_idle rest] at ranOn
        cases ranOn
  · refine ⟨Nat.le_of_lt ahead.short, exists_step ahead.cycle, ?_⟩
    intro rest
    apply iff_of_false
    · intro exact_
      exact Nat.ne_of_lt ahead.short exact_.reached
    · exact early

/-- Two attempts that fail, where two are allowed. -/
theorem attempts_exact_iff_two :
    ∃ final, exec (step { limitCnt := 2 }) (mounted true)
        [.lost 0, .closed 0, .fire 0, .lost 1, .closed 1] = some final ∧ AtRest final ∧
      (Exact { limitCnt := 2 } 2 final ↔ EachStep (step { limitCnt := 2 }) (mounted true)
        [.lost 0, .closed 0, .fire 0, .lost 1, .closed 1] (NotEarly { limitCnt := 2 })) := by
  obtain ⟨final, ran, rest⟩ : ∃ final, exec (step { limitCnt := 2 }) (mounted true)
      [.lost 0, .closed 0, .fire 0, .lost 1, .closed 1] = some final ∧ AtRest final :=
    ⟨_, rfl, by decide, rfl⟩
  have closes : EachStep (step { limitCnt := 2 }) (mounted true)
      [.lost 0, .closed 0, .fire 0, .lost 1, .closed 1] ClosesFirst := by
    rw [eachStep_cons rfl, eachStep_cons rfl, eachStep_cons rfl, eachStep_cons rfl, eachStep_cons rfl]
    exact ⟨trivial, trivial, by decide, trivial, trivial, eachStep_nil⟩
  have fails : ∀ event ∈ [Event.lost 0, .closed 0, .fire 0, .lost 1, .closed 1], ¬ IsConnected event := by
    intro event member connected
    cases event <;> simp_all [IsConnected]
  exact ⟨final, ran, rest,
    (attempts_exact_iff (by decide) rfl .mounted ran closes fails).2.2 rest⟩

/-- The first of three attempts ends with an `ERROR` frame, and there is no third. -/
theorem error_frame_costs_an_attempt :
    ∃ final, exec (step {}) (mounted true)
        [.opened 0, .errorFrame 0, .lost 0, .closed 0, .fire 1, .lost 1, .closed 1] = some final ∧
      EachStep (step {}) (mounted true)
        [.opened 0, .errorFrame 0, .lost 0, .closed 0, .fire 1, .lost 1, .closed 1] ClosesFirst ∧
      Counted {} (mounted true) 3 ∧ AtRest final ∧ attempts final = 2 ∧ ¬ Exact {} 3 final := by
  refine ⟨_, rfl, ?_, .mounted, ⟨by decide, rfl⟩, rfl, ?_⟩
  · rw [eachStep_cons rfl, eachStep_cons rfl, eachStep_cons rfl, eachStep_cons rfl, eachStep_cons rfl,
      eachStep_cons rfl, eachStep_cons rfl]
    exact ⟨trivial, trivial, trivial, trivial, by decide, trivial, trivial, eachStep_nil⟩
  · intro exact_
    cases exact_.reached

end Runs

end Tomas.ConnectionLimit
