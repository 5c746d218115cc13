/-!
# Event handlers

`EventHandler` (`base/EventHandler.h`, `base/EventHandler.cpp`): the events a descriptor is watched
for, and the callbacks that are called when `poll` reports some of them.
-/

namespace WebsocketCpp

/-! The bits of `events` and `revents` (`<poll.h>`). -/

def POLLIN : BitVec 32 := 0x1
def POLLPRI : BitVec 32 := 0x2
def POLLOUT : BitVec 32 := 0x4
def POLLERR : BitVec 32 := 0x8
def POLLHUP : BitVec 32 := 0x10
def POLLNVAL : BitVec 32 := 0x20
def POLLRDHUP : BitVec 32 := 0x2000

/-- The members of `EventHandler` besides the descriptor and the reactor. A callback is the name of a
function of its owner. -/
structure EventHandler (Callback : Type) where
  events : BitVec 32
  revents : BitVec 32
  readCallback : Option Callback
  writeCallback : Option Callback
  closeCallback : Option Callback
  errorCallback : Option Callback

namespace EventHandler

variable {Callback : Type} (ev : EventHandler Callback)

def csEventNone : BitVec 32 := 0
def csEventRead : BitVec 32 := POLLIN ||| POLLPRI
def csEventWrite : BitVec 32 := POLLOUT

/-- `EventHandler::EventHandler` (`EventHandler.cpp:16-23`). -/
def new : EventHandler Callback := ⟨0, 0, none, none, none, none⟩

/-- The callbacks that have been set: for reading, writing, the end and errors. -/
def callbacks : Option Callback × Option Callback × Option Callback × Option Callback :=
  (ev.readCallback, ev.writeCallback, ev.closeCallback, ev.errorCallback)

def setRevents (revent : BitVec 32) : EventHandler Callback := { ev with revents := revent }

def setReadCallback (rcb : Callback) : EventHandler Callback := { ev with readCallback := some rcb }

def setWriteCallback (wcb : Callback) : EventHandler Callback := { ev with writeCallback := some wcb }

def setCloseCallback (ccb : Callback) : EventHandler Callback := { ev with closeCallback := some ccb }

def enableRead : EventHandler Callback := { ev with events := ev.events ||| csEventRead }

def disableRead : EventHandler Callback := { ev with events := ev.events &&& ~~~csEventRead }

def enableWrite : EventHandler Callback := { ev with events := ev.events ||| csEventWrite }

def disableWrite : EventHandler Callback := { ev with events := ev.events &&& ~~~csEventWrite }

def disableAll : EventHandler Callback := { ev with events := csEventNone }

def isWriteable : Bool := ev.events &&& csEventWrite ≠ 0

/-- Whether `poll` has reported one of the events. -/
def reports (mask : BitVec 32) : Bool := ev.revents &&& mask ≠ 0

/-- The callbacks that `EventHandler::handEvent` calls, in order (`EventHandler.cpp:52-84`). -/
def handEvent : List Callback :=
  (if ev.reports POLLHUP ∧ ¬ev.reports POLLIN then ev.closeCallback.toList else []) ++
  (if ev.reports (POLLERR ||| POLLNVAL) then ev.errorCallback.toList else []) ++
  (if ev.reports (POLLIN ||| POLLPRI ||| POLLRDHUP) then ev.readCallback.toList else []) ++
  if ev.reports POLLOUT then ev.writeCallback.toList else []

theorem isWriteable_iff : ev.isWriteable = true ↔ ev.events &&& csEventWrite ≠ 0 := decide_eq_true_iff

theorem csEventWrite_ne_zero : csEventWrite ≠ 0 := by decide

@[simp] theorem isWriteable_new : (new : EventHandler Callback).isWriteable = false := by
  simp [isWriteable, new]

@[simp] theorem isWriteable_enableWrite : ev.enableWrite.isWriteable = true := by
  rw [isWriteable_iff, enableWrite, BitVec.and_or_distrib_right, BitVec.and_self]
  exact fun hzero => csEventWrite_ne_zero (BitVec.or_eq_zero_iff.mp hzero).2

@[simp] theorem isWriteable_disableWrite : ev.disableWrite.isWriteable = false := by
  simp [isWriteable, disableWrite, BitVec.and_assoc]

@[simp] theorem isWriteable_enableRead : ev.enableRead.isWriteable = ev.isWriteable := by
  have hdisjoint : csEventRead &&& csEventWrite = 0 := by decide
  rw [isWriteable, isWriteable, enableRead, BitVec.and_or_distrib_right, hdisjoint]
  simp

@[simp] theorem isWriteable_setReadCallback (rcb : Callback) :
    (ev.setReadCallback rcb).isWriteable = ev.isWriteable := rfl

@[simp] theorem isWriteable_setWriteCallback (wcb : Callback) :
    (ev.setWriteCallback wcb).isWriteable = ev.isWriteable := rfl

@[simp] theorem isWriteable_setRevents (revent : BitVec 32) :
    (ev.setRevents revent).isWriteable = ev.isWriteable := rfl

/-- A report of `POLLIN` alone. -/
theorem handEvent_pollin : (ev.setRevents POLLIN).handEvent = ev.readCallback.toList := by
  simp [handEvent, reports, setRevents, POLLOUT, POLLHUP, POLLERR, POLLNVAL, POLLIN, POLLPRI,
    POLLRDHUP]

/-- A report of `POLLOUT` alone. -/
theorem handEvent_pollout : (ev.setRevents POLLOUT).handEvent = ev.writeCallback.toList := by
  simp [handEvent, reports, setRevents, POLLOUT, POLLHUP, POLLERR, POLLNVAL, POLLIN, POLLPRI,
    POLLRDHUP]

end EventHandler

end WebsocketCpp
