import Mathlib.Data.List.Basic

/-! A chain of channel handlers. Inbound calls travel from the head towards the
tail and outbound calls from the tail towards the head; a handler sees a call
only if it overrides the callback, and the call goes further only if the
callback forwards it. A throw from a read goes to the exception callback of the
same handler first. Every callback that runs is recorded. The messages, the
exceptions, the handler names and the channel are arbitrary. -/
namespace Tomas.Pipeline

variable {σ ν μ ε α : Type}

/-- A callback that ran, or a call that came out at an end of the chain. -/
inductive Invocation (ν μ ε : Type) where
  | channelRead (handler : ν) (msg : μ)
  | exceptionCaught (handler : ν) (cause : ε)
  | write (handler : ν) (msg : μ)
  | close (handler : ν)
  | tailRead (msg : μ)
  | tailException (cause : ε)
  | transportWrite (msg : μ)
  | transportClose
  deriving DecidableEq, Repr

/-- The channel's state together with everything that has run on it. -/
structure Machine (σ ν μ ε : Type) where
  channel : σ
  trace : List (Invocation ν μ ε) := []

namespace Machine

def log (machine : Machine σ ν μ ε) (events : List (Invocation ν μ ε)) : Machine σ ν μ ε :=
  { machine with trace := machine.trace ++ events }

def withChannel (machine : Machine σ ν μ ε) (channel : σ) : Machine σ ν μ ε :=
  { machine with channel := channel }

@[simp] theorem withChannel_channel (machine : Machine σ ν μ ε) (channel : σ) :
    (machine.withChannel channel).channel = channel := rfl

@[simp] theorem withChannel_trace (machine : Machine σ ν μ ε) (channel : σ) :
    (machine.withChannel channel).trace = machine.trace := rfl

@[simp] theorem withChannel_self (machine : Machine σ ν μ ε) :
    machine.withChannel machine.channel = machine := rfl

@[simp] theorem withChannel_withChannel (machine : Machine σ ν μ ε) (first second : σ) :
    (machine.withChannel first).withChannel second = machine.withChannel second := rfl

@[simp] theorem log_channel (machine : Machine σ ν μ ε) (events : List (Invocation ν μ ε)) :
    (machine.log events).channel = machine.channel := rfl

@[simp] theorem log_trace (machine : Machine σ ν μ ε) (events : List (Invocation ν μ ε)) :
    (machine.log events).trace = machine.trace ++ events := rfl

@[simp] theorem log_nil (machine : Machine σ ν μ ε) : machine.log [] = machine := by
  simp [log]

@[simp] theorem log_log (machine : Machine σ ν μ ε) (first second : List (Invocation ν μ ε)) :
    (machine.log first).log second = machine.log (first ++ second) := by
  simp [log]

/-- Logging and channel updates commute; logging is written last. -/
@[simp] theorem log_withChannel (machine : Machine σ ν μ ε) (events : List (Invocation ν μ ε))
    (channel : σ) : (machine.log events).withChannel channel = (machine.withChannel channel).log events :=
  rfl

/-- An effect that only looks at the channel. -/
def act (machine : Machine σ ν μ ε) (effect : σ → σ × List (Invocation ν μ ε)) : Machine σ ν μ ε :=
  (machine.withChannel (effect machine.channel).1).log (effect machine.channel).2

@[simp] theorem act_channel (machine : Machine σ ν μ ε)
    (effect : σ → σ × List (Invocation ν μ ε)) :
    (machine.act effect).channel = (effect machine.channel).1 := rfl

@[simp] theorem act_trace (machine : Machine σ ν μ ε)
    (effect : σ → σ × List (Invocation ν μ ε)) :
    (machine.act effect).trace = machine.trace ++ (effect machine.channel).2 := rfl

end Machine

/-- The outcome of an outbound call: a handler that neither forwards the call
nor completes its promise leaves the promise pending for ever. -/
inductive Promise (ε : Type) where
  | pending
  | success
  | failure (cause : ε)
  deriving DecidableEq, Repr

/-- The body of a callback, which may throw after some of its effects. -/
abbrev Callback (σ ν μ ε α : Type) := ExceptT ε (StateM (Machine σ ν μ ε)) α

/-- An inbound call made from a callback never throws into it. -/
def call (act : Machine σ ν μ ε → Machine σ ν μ ε) : Callback σ ν μ ε Unit :=
  fun machine => (.ok (), act machine)

/-- An outbound call made from a callback gives it the promise. -/
def request (act : Machine σ ν μ ε → α × Machine σ ν μ ε) : Callback σ ν μ ε α :=
  fun machine => (.ok (act machine).1, (act machine).2)

/-- A callback uses or updates the channel's own state. -/
def onChannel (operation : σ → α × σ) : Callback σ ν μ ε α := fun machine =>
  (.ok (operation machine.channel).1, machine.withChannel (operation machine.channel).2)

/-- The socket below the head of the chain. -/
structure Transport (σ μ ε : Type) where
  write : μ → σ → Promise ε × σ
  close : σ → Promise ε × σ

/-- The outbound half of a handler's context. -/
structure Outbound (σ ν μ ε : Type) where
  write : μ → Machine σ ν μ ε → Promise ε × Machine σ ν μ ε
  close : Machine σ ν μ ε → Promise ε × Machine σ ν μ ε

/-- A handler's context: the calls it can make from a read or an exception. -/
structure Context (σ ν μ ε : Type) where
  fireChannelRead : μ → Machine σ ν μ ε → Machine σ ν μ ε
  fireExceptionCaught : ε → Machine σ ν μ ε → Machine σ ν μ ε
  close : Machine σ ν μ ε → Promise ε × Machine σ ν μ ε
  writeAndFlush : μ → Machine σ ν μ ε → Promise ε × Machine σ ν μ ε

/-- A handler with the callbacks it overrides. -/
structure Handler (σ ν μ ε : Type) where
  name : ν
  channelRead : Option (Context σ ν μ ε → μ → Callback σ ν μ ε Unit) := none
  exceptionCaught : Option (Context σ ν μ ε → ε → Callback σ ν μ ε Unit) := none
  write : Option (Outbound σ ν μ ε → μ → Callback σ ν μ ε (Promise ε)) := none
  close : Option (Outbound σ ν μ ε → Callback σ ν μ ε (Promise ε)) := none

/-- A throw from an outbound callback fails its promise. -/
def settle (callback : Callback σ ν μ ε (Promise ε)) (machine : Machine σ ν μ ε) :
    Promise ε × Machine σ ν μ ε :=
  match callback machine with
  | (.ok promise, machine) => (promise, machine)
  | (.error cause, machine) => (.failure cause, machine)

/-- The outbound calls that start behind the given handlers, nearest first. -/
def outbound (transport : Transport σ μ ε) : List (Handler σ ν μ ε) → Outbound σ ν μ ε
  | [] =>
    { write := fun msg machine =>
        let result := transport.write msg machine.channel
        (result.1, (machine.withChannel result.2).log [.transportWrite msg])
      close := fun machine =>
        let result := transport.close machine.channel
        (result.1, (machine.withChannel result.2).log [.transportClose]) }
  | handler :: before =>
    let next := outbound transport before
    { write := fun msg machine =>
        match handler.write with
        | none => next.write msg machine
        | some callback => settle (callback next msg) (machine.log [.write handler.name msg])
      close := fun machine =>
        match handler.close with
        | none => next.close machine
        | some callback => settle (callback next) (machine.log [.close handler.name]) }

/-- The inbound calls that start in front of some handler. -/
structure Inbound (σ ν μ ε : Type) where
  read : μ → Machine σ ν μ ε → Machine σ ν μ ε
  exception : ε → Machine σ ν μ ε → Machine σ ν μ ε

/-- The context of a handler between the handlers before it, nearest first, and
what follows it. `writeAndFlush` is the channel's own, which starts at the tail. -/
def contextOf (transport : Transport σ μ ε)
    (writeAndFlush : μ → Machine σ ν μ ε → Promise ε × Machine σ ν μ ε)
    (before : List (Handler σ ν μ ε)) (next : Inbound σ ν μ ε) : Context σ ν μ ε where
  fireChannelRead := next.read
  fireExceptionCaught := next.exception
  close := (outbound transport before).close
  writeAndFlush := writeAndFlush

/-- An exception reaches a handler; a throw from its callback is only logged. -/
def catchAt (handler : Handler σ ν μ ε) (ctx : Context σ ν μ ε) (cause : ε)
    (machine : Machine σ ν μ ε) : Machine σ ν μ ε :=
  match handler.exceptionCaught with
  | none => ctx.fireExceptionCaught cause machine
  | some callback => (callback ctx cause (machine.log [.exceptionCaught handler.name cause])).2

/-- A message reaches a handler. -/
def readAt (handler : Handler σ ν μ ε) (ctx : Context σ ν μ ε) (msg : μ)
    (machine : Machine σ ν μ ε) : Machine σ ν μ ε :=
  match handler.channelRead with
  | none => ctx.fireChannelRead msg machine
  | some callback =>
    match callback ctx msg (machine.log [.channelRead handler.name msg]) with
    | (.ok (), machine) => machine
    | (.error cause, machine) => catchAt handler ctx cause machine

/-- The chain in front of `after`, with the handlers before it nearest first. -/
def inbound (transport : Transport σ μ ε)
    (writeAndFlush : μ → Machine σ ν μ ε → Promise ε × Machine σ ν μ ε) :
    List (Handler σ ν μ ε) → List (Handler σ ν μ ε) → Inbound σ ν μ ε
  | _, [] =>
    { read := fun msg machine => machine.log [.tailRead msg]
      exception := fun cause machine => machine.log [.tailException cause] }
  | before, handler :: after =>
    let ctx := contextOf transport writeAndFlush before
      (inbound transport writeAndFlush (handler :: before) after)
    { read := readAt handler ctx, exception := catchAt handler ctx }

/-! ## A whole pipeline -/

section Whole

variable (transport : Transport σ μ ε) (handlers : List (Handler σ ν μ ε))

/-- `channel.writeAndFlush`, from the tail. -/
def channelWrite : μ → Machine σ ν μ ε → Promise ε × Machine σ ν μ ε :=
  (outbound transport handlers.reverse).write

/-- `channel.close`, from the tail. -/
def channelClose : Machine σ ν μ ε → Promise ε × Machine σ ν μ ε :=
  (outbound transport handlers.reverse).close

/-- `ctx.close` of the handler at a position: the handlers before it see it. -/
def contextClose (position : Nat) : Machine σ ν μ ε → Promise ε × Machine σ ν μ ε :=
  (outbound transport (handlers.take position).reverse).close

/-- The inbound calls in front of the handler at a position. -/
def inboundAt (position : Nat) : Inbound σ ν μ ε :=
  inbound transport (channelWrite transport handlers) (handlers.take position).reverse
    (handlers.drop position)

/-- A message arrives at the head. -/
def fireChannelRead (msg : μ) : Machine σ ν μ ε → Machine σ ν μ ε :=
  (inboundAt transport handlers 0).read msg

/-- A callback of the handler at a position throws. -/
def throwAt (position : Nat) (cause : ε) : Machine σ ν μ ε → Machine σ ν μ ε :=
  (inboundAt transport handlers position).exception cause

end Whole

/-! ## Rules -/

section Rules

variable {transport : Transport σ μ ε} {handler : Handler σ ν μ ε} {ctx : Context σ ν μ ε}
  {before : List (Handler σ ν μ ε)} {msg : μ} {cause : ε} {machine result : Machine σ ν μ ε}

theorem readAt_ok {callback} (overrides : handler.channelRead = some callback)
    (ran : callback ctx msg (machine.log [.channelRead handler.name msg]) = (.ok (), result)) :
    readAt handler ctx msg machine = result := by
  simp [readAt, overrides, ran]

theorem readAt_throw {callback} (overrides : handler.channelRead = some callback)
    (ran : callback ctx msg (machine.log [.channelRead handler.name msg]) = (.error cause, result)) :
    readAt handler ctx msg machine = catchAt handler ctx cause result := by
  simp [readAt, overrides, ran]

theorem outbound_write_none (skips : handler.write = none) :
    (outbound transport (handler :: before)).write msg = (outbound transport before).write msg := by
  funext machine
  simp [outbound, skips]

/-- Handlers that leave writes alone do not matter to a write. -/
theorem outbound_write_append (inner : List (Handler σ ν μ ε))
    (skip : ∀ handler ∈ inner, handler.write = none) :
    (outbound transport (inner ++ before)).write = (outbound transport before).write := by
  induction inner with
  | nil => rfl
  | cons handler inner ih =>
    funext msg
    rw [List.cons_append, outbound_write_none (skip handler (by simp)),
      ih (fun other member => skip other (List.mem_cons_of_mem _ member))]

end Rules

end Tomas.Pipeline
