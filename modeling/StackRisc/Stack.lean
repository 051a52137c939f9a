import StackRisc.Word
import StackRisc.Event

/-!
# StackRisc.Stack

The two stacks of the machine.  The operand stack holds bytes; a word takes
four of them, its most significant byte on top, so bytes and words share one
storage.  Popping more than there is takes nothing and gives zero.  The call
stack holds return addresses.
-/

namespace StackRisc

/-! ## The operand stack -/

/-- The operand stack, top byte first. -/
structure OperandStack where
  bytes : List Byte := []
  deriving DecidableEq, Repr, Inhabited

namespace OperandStack

def size (s : OperandStack) : Nat := s.bytes.length

def isEmpty (s : OperandStack) : Bool := s.bytes.isEmpty

def pushByte (s : OperandStack) (b : Byte) : OperandStack := ⟨b :: s.bytes⟩

/-- Push the bytes of a word, the most significant one last. -/
def pushWord (s : OperandStack) (w : Word) : OperandStack := ⟨w.bytes.reverse ++ s.bytes⟩

/-- The top byte and the stack below it. -/
def popByte? (s : OperandStack) : Option (Byte × OperandStack) :=
  match s.bytes with
  | b :: rest => some (b, ⟨rest⟩)
  | [] => none

/-- The word on top and the stack below it. -/
def popWord? (s : OperandStack) : Option (Word × OperandStack) :=
  match s.bytes with
  | b3 :: b2 :: b1 :: b0 :: rest => some (Word.ofBytes b0 b1 b2 b3, ⟨rest⟩)
  | _ => none

def peekByte? (s : OperandStack) : Option Byte := s.popByte?.map Prod.fst

def peekWord? (s : OperandStack) : Option Word := s.popWord?.map Prod.fst

/-- Pop a byte; an empty stack is reported, stays as it is and gives zero. -/
def popByte (s : OperandStack) : Logged (Byte × OperandStack) :=
  match s.popByte? with
  | some popped => .quiet popped
  | none => .noting (.error "Stack is empty") (0, s)

/-- Pop a word; a stack of fewer than four bytes is reported, stays as it is
and gives zero. -/
def popWord (s : OperandStack) : Logged (Word × OperandStack) :=
  match s.popWord? with
  | some popped => .quiet popped
  | none => .noting (.error "Stack is empty" [("depth", toString s.size)]) (0, s)

/-- The byte that was pushed last is popped first. -/
@[simp] theorem popByte?_pushByte (s : OperandStack) (b : Byte) :
    (s.pushByte b).popByte? = some (b, s) := rfl

end OperandStack

/-! ## The call stack -/

/-- The return addresses of the branches taken, innermost first. -/
structure CallStack where
  frames : List Address := []
  deriving DecidableEq, Repr, Inhabited

namespace CallStack

def depth (s : CallStack) : Nat := s.frames.length

def push (s : CallStack) (a : Address) : CallStack := ⟨a :: s.frames⟩

/-- The innermost return address and the stack without it. -/
def pop? (s : CallStack) : Option (Address × CallStack) :=
  match s.frames with
  | a :: rest => some (a, ⟨rest⟩)
  | [] => none

/-- The call that was made last returns first. -/
@[simp] theorem pop?_push (s : CallStack) (a : Address) : (s.push a).pop? = some (a, s) := rfl

end CallStack

end StackRisc
