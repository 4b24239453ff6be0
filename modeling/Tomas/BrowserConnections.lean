import Tomas.WebSocketComponent

/-! How many connections and timers the `WebSocket` component has at once. An
`ERROR` frame starts the reconnection and leaves its socket open; whether a
second socket or a second timer comes of it depends on what happens before the
timer fires. -/
namespace Tomas.BrowserConnections
open Tomas.Runs Tomas.WebSocketComponent

/-- The socket is not closed yet. -/
def Live (component : Component) (index : Nat) : Prop :=
  ∃ socket, component.sockets[index]? = some socket ∧ socket.readyState ≠ .closed

/-- The `MESSAGE` frames in which one broker message reaches the component: one
for each subscription on an open socket. -/
def copies (component : Component) : Nat :=
  (component.sockets.filter (·.readyState == .opened)).foldr (·.subscriptions + ·) 0

structure OneConnection (component : Component) : Prop where
  live : ∀ first second, Live component first → Live component second → first = second
  timers : component.pending.length ≤ 1
  emitted : copies component ≤ 1

/-- The error callback does not set `timer` while `delayTimer` is pending. -/
def SetsNoSecondTimer (props : Props) (component : Component) : Prop :=
  (component.connectCnt + 1 : Nat) < props.limitCnt →
    ∀ timer ∈ component.pending, component.delayTimer ≠ some timer

/-- A timer that fires finds the component connected or every socket closed, and
the current socket is told once that it is connected. -/
def Quiet (props : Props) (component : Component) : Event → Prop
  | .fire _ => component.connected = true ∨ ∀ socket ∈ component.sockets, socket.readyState = .closed
  | .errorFrame _ | .closed _ => SetsNoSecondTimer props component
  | .connectedFrame _ => ∀ client socket, component.stompClient = some client →
      component.sockets[client]? = some socket → socket.subscriptions = 0
  | .opened _ | .message _ | .lost _ => True

/-! ## One step -/

section Steps

variable {props : Props} {component next : Component} {event : Event} {old : List Socket} {last : Socket}

theorem copies_sole (sole : Sole component old last) :
    copies component = if last.readyState = .opened then last.subscriptions else 0 := by
  have none : old.filter (·.readyState == .opened) = [] := by
    rw [List.filter_eq_nil_iff]
    intro socket member
    simp [sole.older socket member]
  rw [copies, sole.sockets, List.filter_append, none]
  split
  · rename_i opened
    simp [opened]
  · rename_i other
    simp [other]

private theorem sets_at_most_one (timed : Timed component) (quiet : SetsNoSecondTimer props component) :
    (call (errorCallback props) component).pending.length ≤ 1 := by
  rw [errorCallback_eq]
  split
  · rename_i early
    have none : component.pending.filter (some · ≠ component.timer) = [] := by
      rw [List.filter_eq_nil_iff]
      intro timer pending
      have tracked := (timed.tracked timer pending).resolve_right (quiet early timer pending)
      simp [tracked]
    rw [none]
    simp
  · split
    · rw [timed_cleared timed]
      simp
    · rw [timed_cleared timed]
      simp

private theorem sets_a_second (timed : Timed component) (loud : ¬ SetsNoSecondTimer props component) :
    1 < (call (errorCallback props) component).pending.length := by
  simp only [SetsNoSecondTimer, not_forall, not_not] at loud
  obtain ⟨early, timer, pending, delayed⟩ := loud
  rw [errorCallback_eq, if_pos early]
  have stays : timer ∈ component.pending.filter (some · ≠ component.timer) := by
    have other : component.timer ≠ some timer := fun same => timed.apart timer same delayed
    simp [pending, other.symm]
  have positive := List.length_pos_of_mem stays
  simp only [List.length_append, List.length_singleton]
  omega

/-- What quiet steps keep. -/
structure Orderly (component : Component) : Prop where
  wired : Wired component
  timed : Timed component
  sole : ∃ old last, Sole component old last ∧ last.subscriptions ≤ 1
  timers : component.pending.length ≤ 1

theorem oneConnection_of_orderly (orderly : Orderly component) : OneConnection component := by
  obtain ⟨old, last, sole, once⟩ := orderly.sole
  refine ⟨?_, orderly.timers, ?_⟩
  · rintro first second ⟨socket, found, live⟩ ⟨other, known, alive⟩
    rw [(sole_index sole found live).1, (sole_index sole known alive).1]
  · rw [copies_sole sole]
    split
    · exact once
    · exact Nat.zero_le _

private theorem orderly_step (orderly : Orderly component) (quiet : Quiet props component event)
    (stepped : step props component event = some next) : Orderly next := by
  have wired := wired_step orderly.wired stepped
  have timed := timed_step orderly.wired orderly.timed stepped
  obtain ⟨old, last, sole, once⟩ := orderly.sole
  suffices kept : (∃ old last, Sole next old last ∧ last.subscriptions ≤ 1) ∧ next.pending.length ≤ 1 from
    ⟨wired, timed, kept.1, kept.2⟩
  cases sole_step orderly.wired sole stepped with
  | opened connecting => exact ⟨⟨old, _, sole_update sole, once⟩, orderly.timers⟩
  | connected opened =>
    have first := quiet old.length last (sole_current orderly.wired sole) (sole_last sole)
    exact ⟨⟨old, _, sole_subscribed sole, by simp [first]⟩, orderly.timers⟩
  | failed opened =>
    obtain ⟨same, -⟩ := @errorCallback_frame props component
    exact ⟨⟨old, last, sole_of_same sole same, once⟩, sets_at_most_one orderly.timed quiet⟩
  | message opened => exact ⟨⟨old, last, sole_of_same sole rfl, once⟩, orderly.timers⟩
  | lost live => exact ⟨⟨old, _, sole_update sole, once⟩, orderly.timers⟩
  | closed closing =>
    obtain ⟨same, -⟩ :=
      @errorCallback_frame props (component.update old.length (Socket.become .closed))
    exact ⟨⟨old, _, sole_of_same (sole_update sole) same, once⟩,
      sets_at_most_one (timed_update orderly.timed) quiet⟩
  | fire timer due =>
    have fewer : (component.pending.filter (· ≠ timer)).length ≤ 1 :=
      Nat.le_trans (List.length_filter_le ..) orderly.timers
    rw [timeout_eq]
    split
    · exact ⟨⟨old, last, sole_of_same sole rfl, once⟩, fewer⟩
    · rename_i lost
      have closed : last.readyState = .closed := by
        apply quiet.resolve_left lost last
        simp [sole.sockets]
      exact ⟨⟨_, _, sole_connection (sole_of_same sole rfl) closed, Nat.zero_le _⟩, fewer⟩

private theorem loud_breaks (orderly : Orderly component) (loud : ¬ Quiet props component event)
    (stepped : step props component event = some next) : ¬ OneConnection next := by
  obtain ⟨old, last, sole, once⟩ := orderly.sole
  intro one
  cases sole_step orderly.wired sole stepped with
  | opened connecting => exact loud trivial
  | connected opened =>
    apply loud
    intro client socket current found
    rw [sole_current orderly.wired sole] at current
    cases current
    rw [sole_last sole] at found
    cases found
    have emitted := one.emitted
    rw [copies_sole (sole_subscribed sole), if_pos opened] at emitted
    exact Nat.eq_zero_of_le_zero (Nat.le_of_succ_le_succ emitted)
  | failed opened =>
    exact absurd one.timers (Nat.not_le_of_lt (sets_a_second orderly.timed loud))
  | message opened => exact loud trivial
  | lost live => exact loud trivial
  | closed closing =>
    exact absurd one.timers (Nat.not_le_of_lt (sets_a_second (timed_update orderly.timed) loud))
  | fire timer due =>
    apply loud
    by_contra both
    obtain ⟨lost, live⟩ := not_or.mp both
    rw [timeout_eq, if_neg lost] at one
    apply live
    intro socket member
    by_contra alive
    obtain ⟨index, found⟩ := List.mem_iff_getElem?.mp member
    have inside : index < component.sockets.length := (List.getElem?_eq_some_iff.mp found).1
    have before : Live (call connection
        { component with pending := component.pending.filter (· ≠ timer) }) index :=
      ⟨socket, (List.getElem?_append_left inside).trans found, alive⟩
    have after : Live (call connection
        { component with pending := component.pending.filter (· ≠ timer) }) component.sockets.length :=
      ⟨{}, List.getElem?_concat_length, by decide⟩
    exact Nat.ne_of_lt inside (one.live index _ before after)

end Steps

section Runs

variable {props : Props} {supported : Bool} {events : List Event} {final : Component}

private theorem orderly_mounted : Orderly (mounted true) := by
  obtain ⟨wired, timed⟩ := @wired_timed {} (mounted true) true [] rfl
  exact ⟨wired, timed, ⟨[], {}, sole_mounted, Nat.zero_le _⟩, Nat.zero_le _⟩

private theorem oneConnection_unsupported : OneConnection (mounted false) := by
  refine ⟨?_, Nat.zero_le _, Nat.zero_le _⟩
  rintro first second ⟨socket, found, -⟩
  cases found

/-- At most one socket is open, one timer pending and one copy of a message
emitted throughout a run exactly when every step of it is quiet. -/
theorem oneConnection_iff_quiet (ran : exec (step props) (mounted supported) events = some final) :
    Always (step props) (mounted supported) events OneConnection ↔
      EachStep (step props) (mounted supported) events (Quiet props) := by
  cases supported with
  | true =>
    refine always_iff_eachStep Orderly orderly_mounted (fun _ => oneConnection_of_orderly) ?_ ?_ ran
    · intro component event next orderly quiet stepped
      exact orderly_step orderly quiet stepped
    · intro component event next orderly loud stepped
      exact loud_breaks orderly loud stepped
  | false =>
    refine always_iff_eachStep (· = mounted false) rfl ?_ ?_ ?_ ran
    · rintro component rfl
      exact oneConnection_unsupported
    · rintro component event next rfl - stepped
      rw [unsupported_idle] at stepped
      cases stepped
    · rintro component event next rfl - stepped
      rw [unsupported_idle] at stepped
      cases stepped

/-- A page that loses its connection and connects again. -/
theorem oneConnection_iff_quiet_reconnected :
    ∃ final, exec (step {}) (mounted true) [.opened 0, .connectedFrame 0, .lost 0, .closed 0, .fire 0] =
        some final ∧
      (Always (step {}) (mounted true) [.opened 0, .connectedFrame 0, .lost 0, .closed 0, .fire 0]
          OneConnection ↔
        EachStep (step {}) (mounted true) [.opened 0, .connectedFrame 0, .lost 0, .closed 0, .fire 0]
          (Quiet {})) :=
  ⟨_, rfl, @oneConnection_iff_quiet {} true _ _ rfl⟩

/-- An `ERROR` frame, and a minute later the first socket is still open. -/
theorem error_frame_opens_a_second_socket :
    ∃ final, exec (step {}) (mounted true) [.opened 0, .connectedFrame 0, .errorFrame 0, .fire 0,
        .opened 1, .connectedFrame 1] = some final ∧
      Live final 0 ∧ Live final 1 ∧ copies final = 2 ∧
      ¬ Always (step {}) (mounted true) [.opened 0, .connectedFrame 0, .errorFrame 0, .fire 0,
        .opened 1, .connectedFrame 1] OneConnection := by
  refine ⟨_, rfl, ⟨_, rfl, by decide⟩, ⟨_, rfl, by decide⟩, rfl, ?_⟩
  intro always
  have one := always _ (List.prefix_refl _) _ rfl
  exact absurd (one.live 0 1 ⟨_, rfl, by decide⟩ ⟨_, rfl, by decide⟩) Nat.zero_ne_one

end Runs

end Tomas.BrowserConnections
