import Mathlib.Logic.Function.Basic
import WebsocketCpp.Base.EventHandler
import WebsocketCpp.Fault
import WebsocketCpp.Misc.Run

/-!
# The poller of a reactor

`SelectPoller` (`base/SelectPoller.cpp`): the array that is handed to `poll`, and the map from
descriptors to the handlers that have registered themselves. What `poll` writes to the array is an
argument.
-/

namespace WebsocketCpp

/-- `struct pollfd`, with the widths of its `short` members. -/
structure PollFd where
  fd : Int
  events : BitVec 16
  revents : BitVec 16
  deriving DecidableEq, Repr

/-- An `EventHandler` with its `fd_`. -/
structure FdHandler (Callback : Type) where
  fd : Int
  ev : EventHandler Callback

/-- A handler is known by its address. 0 is the null pointer. -/
structure SelectPoller where
  pollFds : List PollFd
  evHandlers : Int → Option Nat

/-- The loop of `registerEvHandler` over the registered descriptors (`SelectPoller.cpp:99-112`). -/
def updatePollFd (fd : Int) (events : BitVec 16) : List PollFd → List PollFd
  | [] => []
  | it :: rest =>
    if it.fd = fd then { it with events := events, revents := 0 } :: rest
    else it :: updatePollFd fd events rest

namespace SelectPoller

variable {Callback : Type}

def new : SelectPoller := ⟨[], fun _ => none⟩

/-- `SelectPoller::registerEvHandler` (`SelectPoller.cpp:81-122`). -/
def registerEvHandler (s : SelectPoller) (event : Nat) (h : FdHandler Callback) :
    Except ObjectFault SelectPoller :=
  if event = 0 then .error .assertion
  else
    match s.evHandlers h.fd with
    | none =>
      .ok ⟨s.pollFds ++ [⟨h.fd, h.ev.events.setWidth 16, 0⟩],
        Function.update s.evHandlers h.fd (some event)⟩
    | some _ => .ok { s with pollFds := updatePollFd h.fd (h.ev.events.setWidth 16) s.pollFds }

/-- `SelectPoller::removeEvHandler` (`SelectPoller.cpp:128-152`). -/
def removeEvHandler (s : SelectPoller) (h : FdHandler Callback) : SelectPoller :=
  match s.evHandlers h.fd with
  | none => s
  | some _ =>
    ⟨s.pollFds.eraseP fun it => it.fd = h.fd, Function.update s.evHandlers h.fd none⟩

/-- The array after `poll` has filled in what happened. -/
def polled (s : SelectPoller) (revents : List (BitVec 16)) : List PollFd :=
  List.zipWith (fun it revent => { it with revents := revent }) s.pollFds revents

/-- The loop of `findActiveEvHandlers` (`SelectPoller.cpp:53-74`) over the rest of `pollFds_`, with
the handlers by address and `activeEvents`. -/
def findActiveEvHandlers (evHandlers : Int → Option Nat) :
    List PollFd → Nat → (Nat → Option (FdHandler Callback)) → List Nat →
      Except ObjectFault ((Nat → Option (FdHandler Callback)) × List Nat)
  | [], _, handlers, activeEvents => .ok (handlers, activeEvents)
  | it :: rest, evNum, handlers, activeEvents =>
    if evNum = 0 then .ok (handlers, activeEvents)
    else if 0 < it.revents.toInt then
      match evHandlers it.fd with
      | none => .error .assertion
      | some p =>
        if p = 0 then .error .assertion
        else
          match handlers p with
          | none => .error .useAfterFree
          | some h =>
            if h.fd = it.fd then
              findActiveEvHandlers evHandlers rest (evNum - 1)
                (Function.update handlers p
                  (some { h with ev := h.ev.setRevents (it.revents.signExtend 32) }))
                (activeEvents ++ [p])
            else .error .assertion
    else findActiveEvHandlers evHandlers rest evNum handlers activeEvents

end SelectPoller

/-! ## Runs of a poller -/

/-- A poller, the handlers of its reactor by address, and the list that `poll` fills. -/
structure PollUse (Callback : Type) where
  poller : SelectPoller
  handlers : Nat → Option (FdHandler Callback)
  activeList : List Nat

inductive PollStep where
  /-- `new EventHandler(reactor, fd)`. -/
  | construct (p : Nat) (fd : Int)
  | enableRead (p : Nat)
  | disableRead (p : Nat)
  | enableWrite (p : Nat)
  | disableWrite (p : Nat)
  | disableAll (p : Nat)
  /-- `delete event`. -/
  | destruct (p : Nat)
  | poll (revents : List (BitVec 16))

namespace PollUse

variable {Callback : Type}

def new : PollUse Callback := ⟨.new, fun _ => none, []⟩

/-- The object at an address. -/
def object (u : PollUse Callback) (p : Nat) : Except ObjectFault (FdHandler Callback) :=
  match u.handlers p with
  | some h => .ok h
  | none => .error .useAfterFree

/-- A change of `events_` followed by `update()`. -/
def update (u : PollUse Callback) (p : Nat) (f : EventHandler Callback → EventHandler Callback) :
    Except ObjectFault (PollUse Callback) := do
  let h ← u.object p
  let h := { h with ev := f h.ev }
  let poller ← u.poller.registerEvHandler p h
  .ok { u with poller := poller, handlers := Function.update u.handlers p (some h) }

/-- `EventHandler::~EventHandler` (`EventHandler.cpp:27-33`). -/
def destruct (u : PollUse Callback) (p : Nat) : Except ObjectFault (PollUse Callback) := do
  let u ← u.update p EventHandler.disableAll
  let h ← u.object p
  .ok { u with poller := u.poller.removeEvHandler h, handlers := Function.update u.handlers p none }

/-- `SelectPoller::poll` (`SelectPoller.cpp:25-45`), with the empty list that `Reactor::loop` hands to
it. -/
def poll (u : PollUse Callback) (revents : List (BitVec 16)) :
    Except ObjectFault (PollUse Callback) := do
  let pollFds := u.poller.polled revents
  let (handlers, activeList) ← SelectPoller.findActiveEvHandlers u.poller.evHandlers pollFds
    (pollFds.countP fun it => it.revents ≠ 0) u.handlers []
  .ok { u with poller.pollFds := pollFds, handlers := handlers, activeList := activeList }

def apply (u : PollUse Callback) : PollStep → Except ObjectFault (PollUse Callback)
  | .construct p fd => .ok { u with handlers := Function.update u.handlers p (some ⟨fd, .new⟩) }
  | .enableRead p => u.update p EventHandler.enableRead
  | .disableRead p => u.update p EventHandler.disableRead
  | .enableWrite p => u.update p EventHandler.enableWrite
  | .disableWrite p => u.update p EventHandler.disableWrite
  | .disableAll p => u.update p EventHandler.disableAll
  | .destruct p => u.destruct p
  | .poll revents => u.poll revents

def step (u : PollUse Callback) (a : PollStep) : Traced Empty ObjectFault (PollUse Callback) :=
  Traced.ofExcept (u.apply a)

/-- `poll` answers with one non-negative `revents` for every descriptor. -/
def Answers (u : PollUse Callback) (revents : List (BitVec 16)) : Prop :=
  revents.length = u.poller.pollFds.length ∧ ∀ revent ∈ revents, 0 ≤ revent.toInt

/-- A handler is constructed at a free address, for a descriptor that has none, and used while it
lives. -/
def Allowed (u : PollUse Callback) : PollStep → Prop
  | .construct p fd => p ≠ 0 ∧ u.handlers p = none ∧ ∀ q h, u.handlers q = some h → h.fd ≠ fd
  | .enableRead p | .disableRead p | .enableWrite p | .disableWrite p | .disableAll p | .destruct p =>
    ∃ h, u.handlers p = some h
  | .poll revents => u.Answers revents

end PollUse

def pollMachine (Callback : Type) : Machine (PollUse Callback) PollStep Empty ObjectFault where
  step := PollUse.step
  Allowed := PollUse.Allowed

end WebsocketCpp
