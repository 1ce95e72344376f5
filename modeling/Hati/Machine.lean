import Hati.Equality
import Hati.Journal
import Hati.Lineage
import Hati.Scope
import Hati.Settings

namespace Hati

/-!
# The state of an interpreter

Everything that running a program can read or change, and the computations that
do so.  A computation ends with a result, with a fault of the program, with the
program's wish to end the process, or because its fuel ran out; the state it
reached is kept in every case.

All changes to the state go through the named steps below.
-/

/-- Where printed text goes.  A limit counts the bytes of all texts together. -/
structure Console where
  text : String := ""
  written : Nat := 0
  limit : Option Nat := none
deriving Inhabited

namespace Console

/-- Whether a text still fits. -/
def accepts (console : Console) (text : String) : Bool :=
  match console.limit with
  | none => true
  | some limit => console.written + text.utf8ByteSize ≤ limit

def append (console : Console) (text : String) : Console :=
  { console with
    text := console.text ++ text
    written := console.written + text.utf8ByteSize }

end Console

structure Machine where
  heap : Heap := {}
  /-- The outermost scope. -/
  globals : FrameRef := ⟨0⟩
  settings : Settings := {}
  scheduler : Scheduler Value := Scheduler.new 50
  console : Console := {}
  journal : Array Event := #[]
  /-- How many calls of declared functions are open. -/
  callDepth : Nat := 0
  /-- The class whose constructor is running. -/
  constructing : Option ClassRef := none

/-- Why a computation ended without a result. -/
inductive Halt where
  | fault (fault : Fault)
  | exit (code : Int)
  | exhausted
deriving DecidableEq, Repr

abbrev Run := EStateM Halt Machine

namespace Run

/-! ## Ending early -/

def fail {α : Type} (cause : Cause) (span : Span) : Run α :=
  throw (.fault ⟨cause, span⟩)

def exhausted {α : Type} : Run α :=
  throw .exhausted

/-- A failing conversion fails at the given place. -/
def lift {α : Type} (span : Span) : Except Cause α → Run α
  | .ok a => pure a
  | .error cause => fail cause span

/-- A fault without a place of its own is reported at the given place. -/
def orAt {α : Type} (span : Span) (action : Run α) : Run α := fun machine =>
  match action machine with
  | .error (.fault fault) machine => .error (.fault (fault.orAt span)) machine
  | result => result

theorem orAt_bind {α β : Type} (span : Span) (action : Run α) (next : α → Run β) :
    orAt span (action >>= next) = orAt span action >>= fun a => orAt span (next a) := by
  funext machine
  show orAt span (EStateM.bind action next) machine =
    EStateM.bind (orAt span action) (fun a => orAt span (next a)) machine
  simp only [orAt, EStateM.bind]
  cases action machine with
  | ok a after => rfl
  | error halt after => cases halt <;> rfl

@[simp]
theorem orAt_fail_builtin {α : Type} (span : Span) (cause : Cause) :
    orAt span (fail cause .builtin : Run α) = fail cause span := by
  funext machine
  show EStateM.Result.error (Halt.fault (Fault.orAt ⟨cause, .builtin⟩ span)) machine = _
  rw [Fault.orAt, Span.orElse_builtin]
  rfl

/-! ## Reading -/

def read {α : Type} (f : Heap → α) : Run α := fun machine =>
  .ok (f machine.heap) machine

def text (value : Value) : Run String :=
  read fun heap => value.toText heap

def isTrue (value : Value) : Run Bool :=
  read fun heap => value.isTrue heap

/-! ## Changing the heap -/

def modifyHeap (f : Heap → Heap) : Run Unit :=
  modify fun machine => { machine with heap := f machine.heap }

def alloc {α : Type} (f : Heap → α × Heap) : Run α :=
  modifyGet fun machine =>
    let (a, heap) := f machine.heap
    (a, { machine with heap })

/-- A new scope inside another. -/
def newScope (parent : FrameRef) : Run FrameRef :=
  alloc fun heap => heap.allocFrame { parent := some parent }

/-- Bind a name in the frame itself. -/
def bind (scope : FrameRef) (name : String) (binding : Binding) : Run Unit :=
  modifyHeap fun heap => heap.bind scope name binding

/-- Assign to a name of the scope, or declare it in the innermost frame. -/
def assign (scope : FrameRef) (name : String) (value : Value) (span : Span) : Run Unit := do
  let owner ← lift span (← read fun heap => heap.assignmentFrame scope name)
  bind owner name { value }

/-- The value of a name, which has to be bound. -/
def lookup (scope : FrameRef) (name : String) (span : Span) : Run Value := do
  match ← read fun heap => heap.lookup? scope name with
  | some binding => pure binding.value
  | none => fail (.undefinedVariable name) span

def newList (items : Array Value) : Run Value := do
  let ref ← alloc fun heap => heap.allocList items
  pure (.list ref)

def setList (ref : ListRef) (items : Array Value) : Run Unit :=
  modifyHeap fun heap => heap.setList ref items

def items (ref : ListRef) : Run (Array Value) :=
  read fun heap => heap.list ref

def newObject (object : Object) : Run ObjectRef :=
  alloc fun heap => heap.allocObject object

/-- Declare a property, whatever stood under the key before. -/
def insertProperty (ref : ObjectRef) (key : String) (property : Property) : Run Unit :=
  modifyHeap fun heap => heap.modifyObject ref fun object => object.insert key property

def freeze (ref : ObjectRef) : Run Unit :=
  modifyHeap fun heap => heap.modifyObject ref fun object => { object with isFrozen := true }

def clearObject (ref : ObjectRef) : Run Unit :=
  modifyHeap fun heap => heap.modifyObject ref Object.clear

def newFunction (function : Function) : Run Value := do
  let ref ← alloc fun heap => heap.allocFunction function
  pure (.function ref)

def newClass (cls : Class) : Run ClassRef :=
  alloc fun heap => heap.allocClass cls

/-! ## Output, journal and context -/

/-- Print a text, unless that would exceed the limit of the console. -/
def write (text : String) (span : Span) : Run Unit := fun machine =>
  if machine.console.accepts text then
    .ok () { machine with console := machine.console.append text }
  else .error (.fault ⟨.outputRefused, span⟩) machine

def note (event : Event) : Run Unit :=
  modify fun machine => { machine with journal := machine.journal.push event }

def schedule {α : Type} (f : Scheduler Value → α × Scheduler Value) : Run α :=
  modifyGet fun machine =>
    let (a, scheduler) := f machine.scheduler
    (a, { machine with scheduler })

/-- Run an action and change the state afterwards, however the action ended. -/
def afterwards {α : Type} (action : Run α) (after : Machine → Machine) : Run α := fun machine =>
  match action machine with
  | .ok a machine => .ok a (after machine)
  | .error halt machine => .error halt (after machine)

/-- Run the body of a call one level deeper, unless too many calls are open. -/
def deeper {α : Type} (span : Span) (body : Run α) : Run α := fun machine =>
  if machine.settings.maxCallDepth ≤ machine.callDepth then
    .error (.fault ⟨.callDepth machine.settings.maxCallDepth, span⟩) machine
  else
    afterwards body (fun machine => { machine with callDepth := machine.callDepth - 1 })
      { machine with callDepth := machine.callDepth + 1 }

/-- Run a constructor of a class; afterwards the class is again the one that was
under construction before. -/
def constructingClass {α : Type} (cls : ClassRef) (body : Run α) : Run α := fun machine =>
  let previous := machine.constructing
  afterwards body (fun machine => { machine with constructing := previous })
    { machine with constructing := some cls }

end Run

end Hati
