import WebsocketCpp.Fault

/-!
# A pool of reactors

`ReactorThreadPool` (`base/ReactorThreadPool.cpp`). A reactor is known by its address.
-/

namespace WebsocketCpp

structure ReactorThreadPool where
  baseLoop : Nat
  numThreads : Int
  index : Nat
  loops : List Nat
  deriving DecidableEq, Repr

namespace ReactorThreadPool

/-- `ReactorThreadPool::ReactorThreadPool` (`ReactorThreadPool.cpp:8-13`). -/
def new (base : Nat) : ReactorThreadPool := ⟨base, 0, 0, []⟩

def setThreadNum (pool : ReactorThreadPool) (numThreads : Int) : ReactorThreadPool :=
  { pool with numThreads := numThreads }

/-- `ReactorThreadPool::start` (`ReactorThreadPool.cpp:24-32`), with what the calls of `startLoop`
return. -/
def start (pool : ReactorThreadPool) (startLoop : Nat → Nat) : ReactorThreadPool :=
  { pool with loops := pool.loops ++ (List.range pool.numThreads.toNat).map startLoop }

/-- `ReactorThreadPool::nextLoop` (`ReactorThreadPool.cpp:40-55`). -/
def nextLoop (pool : ReactorThreadPool) : Except ObjectFault (Nat × ReactorThreadPool) :=
  if pool.loops = [] then .ok (pool.baseLoop, pool)
  else
    match pool.loops[pool.index]? with
    | none => .error .pastEnd
    | some loop =>
      .ok (loop, { pool with index := if pool.loops.length ≤ pool.index + 1 then 0 else pool.index + 1 })

/-- The reactors that `nextLoop` chooses from. -/
def ioLoops (pool : ReactorThreadPool) : List Nat := if pool.loops = [] then [pool.baseLoop] else pool.loops

end ReactorThreadPool

end WebsocketCpp
