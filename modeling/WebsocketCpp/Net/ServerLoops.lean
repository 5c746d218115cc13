import WebsocketCpp.Base.Reactor
import WebsocketCpp.Base.ReactorThreadPool

/-!
# The loops of a server

`NetServer` accepts connections in the thread of its base loop and hands each to a loop of its pool, by
binding `connEstablished` (`net/NetServer.cpp:65-93`). All loops run in their own threads, and any thread
binds other functions.
-/

namespace WebsocketCpp

/-- What is bound for a loop of the server. -/
inductive LoopTask where
  | connEstablished (conn : Nat)
  | other (func : Nat)
  deriving DecidableEq, Repr

inductive ServerLoopEvent where
  | accepted (conn : Nat)
  | loop (p : Nat) (e : ReactorEvent LoopTask)
  deriving DecidableEq, Repr

abbrev ServerLooped := Traced ServerLoopEvent ObjectFault

/-- The pool of a server, with the reactors by address. -/
structure ServerLoops where
  threadPool : ReactorThreadPool
  reactors : Nat → Reactor LoopTask

inductive ServerLoopStep where
  /-- A new connection, in a handler of the base loop. `named` is whether `getsockname` succeeds. -/
  | newConnAccept (conn : Nat) (named : Bool)
  /-- A step of one of the reactors, by any thread. -/
  | reactor (p : Nat) (a : ReactorStep LoopTask)

namespace ServerLoops

/-- A server of `numThreads` loops, which has called `threadPool_->start()`. The reactor at an address
belongs to the thread that `threadOf` tells. -/
def start (threadOf : Nat → Nat) (baseLoop numThreads : Nat) (startLoop : Nat → Nat) : ServerLoops where
  threadPool := ((ReactorThreadPool.new baseLoop).setThreadNum numThreads).start startLoop
  reactors p := .new (threadOf p)

/-- The thread that accepts. -/
def baseThread (s : ServerLoops) : Nat := (s.reactors s.threadPool.baseLoop).threadId

def onReactor (s : ServerLoops) (p : Nat) (a : ReactorStep LoopTask) : ServerLooped ServerLoops := do
  let reactor ← Traced.mapOut (.loop p) ((s.reactors p).step a)
  pure { s with reactors := Function.update s.reactors p reactor }

/-- `NetServer::newConnAccept` (`NetServer.cpp:65-93`), as far as loops are concerned, up to the end of the
push. `getLocalAddr` asserts that the socket has a name (`SocketOpts.cpp:91-103`). -/
def newConnAccept (s : ServerLoops) (conn : Nat) (named : Bool) : ServerLooped ServerLoops := do
  let (ioReactor, threadPool) ← Traced.ofExcept s.threadPool.nextLoop
  Traced.require (named = true) .assertion
  Traced.emit (.accepted conn)
  { s with threadPool := threadPool }.onReactor ioReactor (.runInLoop s.baseThread (.connEstablished conn))

def step (s : ServerLoops) : ServerLoopStep → ServerLooped ServerLoops
  | .newConnAccept conn named => s.newConnAccept conn named
  | .reactor p a => s.onReactor p a

/-- `connEstablished` is bound by `newConnAccept` only. -/
def BindsOther : ReactorStep LoopTask → Prop
  | .runInLoop _ func | .queueInLoop _ func => ∃ f, func = .other f
  | _ => True

/-- The base loop accepts in a handler and between two calls; a loop goes on when its thread is in no
call, of whatever reactor. -/
def Allowed (s : ServerLoops) : ServerLoopStep → Prop
  | .newConnAccept _ _ => (∃ rest, (s.reactors s.threadPool.baseLoop).phase = .handling rest) ∧
    ∀ p, (s.reactors p).calls s.baseThread = none
  | .reactor p a => (s.reactors p).Allowed a ∧ BindsOther a ∧
    (a = .loop → ∀ q, (s.reactors q).calls (s.reactors p).threadId = none)

end ServerLoops

def serverLoopMachine : Machine ServerLoops ServerLoopStep ServerLoopEvent ObjectFault where
  step := ServerLoops.step
  Allowed := ServerLoops.Allowed

end WebsocketCpp
