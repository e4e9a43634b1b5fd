import Chip8.Fault

/-!
# The call stack

Sixteen slots and a pointer.  A call raises the pointer before it writes and a return reads before
it lowers the pointer, so slot zero is never written and at most fifteen calls are open.  Slots
above the pointer keep what earlier calls left there.
-/

namespace Chip8

/-- The slots of return addresses and the pointer to the newest one. -/
structure CallStack where
  /-- The slots; the ones from one to the pointer are in use. -/
  slots : Vector UInt16 16
  /-- The slot of the newest return address, zero when no call is open. -/
  pointer : Int
  deriving DecidableEq, Repr

namespace CallStack

/-- A stack without calls. -/
def empty : CallStack where
  slots := Vector.replicate 16 0
  pointer := 0

/-- The newest return address. -/
def top (stack : CallStack) : UInt16 :=
  stack.slots[Bits.lowNibble stack.pointer]

/-- Write a return address above the newest one. -/
def place (stack : CallStack) (address : Int) : CallStack where
  slots := stack.slots.set (Bits.lowNibble (stack.pointer + 1)) (UInt16.ofInt address)
  pointer := stack.pointer + 1

/-- Forget the newest return address; its slot is left as it is. -/
def drop (stack : CallStack) : CallStack :=
  { stack with pointer := stack.pointer - 1 }

/-- Refuse a call when the pointer is at the last slot. -/
def checkCall (stack : CallStack) : Except Fault Unit :=
  if 16 ≤ stack.pointer + 1 then .error (.stackOverflow stack.pointer) else .ok ()

/-- Refuse a return when no call is open. -/
def checkReturn (stack : CallStack) : Except Fault Unit :=
  if stack.pointer ≤ 0 then .error .stackUnderflow else .ok ()

/-- Open a call that returns to an address. -/
def push (stack : CallStack) (address : Int) : Except Fault CallStack := do
  stack.checkCall
  return stack.place address

/-- Close the newest call and give its return address. -/
def pop (stack : CallStack) : Except Fault (UInt16 × CallStack) := do
  stack.checkReturn
  return (stack.top, stack.drop)

end CallStack
end Chip8
