import Hati.Heap

namespace Hati

/-!
# Scopes

A scope is a frame together with the frames around it.  Names are looked up
from the innermost frame outwards.  A declaration always binds in one frame,
and only an assignment searches for the frame that owns the name.
-/

/-- The name under which a scope holds the object its code runs for. -/
def receiverName : String := "$"

/-- The hidden name under which a method's scope holds the class that declares it.
It is no identifier, so a program cannot bind it. -/
def ownerName : String := "@owner"

namespace Heap

/-- The frames from `ref` outwards, at most `count` of them. -/
def framesFrom (heap : Heap) : Nat → FrameRef → List FrameRef
  | 0, _ => []
  | count + 1, ref =>
    ref :: match (heap.frame ref).parent with
      | none => []
      | some parent => heap.framesFrom count parent

/-- All frames of a scope, innermost first.  A frame is allocated after its
parent, so its own position bounds the length of the chain. -/
def scopeChain (heap : Heap) (scope : FrameRef) : List FrameRef :=
  heap.framesFrom (scope.index + 1) scope

/-- The binding of a name in one frame only. -/
def localBinding? (heap : Heap) (ref : FrameRef) (name : String) : Option Binding :=
  (heap.frame ref).bindings.get? name

/-- The binding that a name has in a scope. -/
def lookup? (heap : Heap) (scope : FrameRef) (name : String) : Option Binding :=
  (heap.scopeChain scope).findSome? fun ref => heap.localBinding? ref name

def isBound (heap : Heap) (scope : FrameRef) (name : String) : Bool :=
  (heap.scopeChain scope).any fun ref => (heap.frame ref).bindings.contains name

/-- The nearest frame that owns the name. -/
def frameOf? (heap : Heap) (scope : FrameRef) (name : String) : Option FrameRef :=
  (heap.scopeChain scope).find? fun ref => (heap.frame ref).bindings.contains name

/-- Every receiver of a scope, innermost first. -/
def receivers (heap : Heap) (scope : FrameRef) : List Value :=
  (heap.scopeChain scope).filterMap fun ref =>
    (heap.localBinding? ref receiverName).map Binding.value

/-- The frame that an assignment to a name writes to: the nearest one that owns
the name, which must not hold it as a constant, or else the innermost one. -/
def assignmentFrame (heap : Heap) (scope : FrameRef) (name : String) : Except Cause FrameRef :=
  match heap.frameOf? scope name with
  | none => .ok scope
  | some owner =>
    if (heap.localBinding? owner name).any Binding.isConstant then
      .error (.constantAssigned name)
    else .ok owner

/-- Store a value under a name. -/
def assign (heap : Heap) (scope : FrameRef) (name : String) (value : Value) :
    Except Cause Heap := do
  let owner ← heap.assignmentFrame scope name
  .ok (heap.bind owner name { value })

end Heap

end Hati
