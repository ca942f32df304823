import Etch.Java.CircularQueueMonitor

/-!
# The Java `Monitor`

A value that threads set, and wait for.  A method runs from the entry of the
monitor, or from the end of a wait, to the next wait or to its end.
-/

namespace Etch.Java.Monitor

variable {T : Type}

/-- The methods that wait, with what they are given but the delay. -/
inductive Method (T : Type) where
  | waitUntilEq (desiredValue : Option T)
  | waitUntilEqAndSet (desiredValue newValue : Option T)
  | waitUntilNotEq (undesiredValue : Option T)
  | waitUntilNotEqAndSet (undesiredValue newValue : Option T)

/-- What a method has done when it waits or ends. -/
inductive Effect (T : Type) where
  /-- the result, which may be `void`, and the value there is then -/
  | returns (result : Option (Option T)) (value : Option T)
  | waits (endTime d : Int)
  | timeoutException
  | illegalArgumentException

/-- `endTime( now, maxDelay )` -/
def endTime (now : Int) (maxDelay : Int32) : Int :=
  CircularQueue.getEndTime now maxDelay

/-- `remTime( end, now )` -/
def remTime (endTime now : Int) : Int :=
  CircularQueue.remaining endTime now

/-- `eq( v1, v2 )` -/
def eq [BEq T] : Option T → Option T → Bool
  | some v1, some v2 => v1 == v2
  | none, none => true
  | _, _ => false

namespace Method

variable [BEq T] (method : Method T) (value : Option T)

/-- Whether the loop is left for the value. -/
def reached : Bool :=
  match method with
  | .waitUntilEq desiredValue => eq value desiredValue
  | .waitUntilEqAndSet desiredValue _ => eq value desiredValue
  | .waitUntilNotEq undesiredValue => !eq value undesiredValue
  | .waitUntilNotEqAndSet undesiredValue _ => !eq value undesiredValue

/-- What is done behind the loop, once the value is there. -/
def after : Effect T :=
  match method with
  | .waitUntilEq _ => .returns none value
  | .waitUntilEqAndSet _ newValue => .returns (some value) newValue
  | .waitUntilNotEq _ => .returns (some value) value
  | .waitUntilNotEqAndSet _ newValue => .returns (some value) newValue

/-- The method from the head of its loop on, up to the wait. -/
def loop (endTime now : Int) : Effect T :=
  if method.reached value then
    method.after value
  else
    let d := remTime endTime now
    if d > 0 then .waits endTime d else .timeoutException

/-- The method from the entry of the monitor on. -/
def enter (maxDelay : Int32) (now : Int) : Effect T :=
  -- `checkDelay( maxDelay )`
  if maxDelay.toInt < 0 then .illegalArgumentException
  else method.loop value (endTime now maxDelay) now

end Method

end Etch.Java.Monitor
