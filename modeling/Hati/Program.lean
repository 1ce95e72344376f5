import Hati.Span

namespace Hati

/-!
# Programs

The trees that the evaluator runs.  Every expression and statement carries the
place it was written at.  Function and class declarations are part of the same
family, because their bodies hold statements again.
-/

inductive UnaryOp where
  | not | negate | plus
deriving DecidableEq, Repr

namespace UnaryOp

def symbol : UnaryOp → String
  | not => "!"
  | negate => "-"
  | plus => "+"

def all : List UnaryOp :=
  [not, negate, plus]

def ofSymbol? (symbol : String) : Option UnaryOp :=
  all.find? (·.symbol == symbol)

end UnaryOp

inductive BinaryOp where
  | add | subtract | multiply | divide | modulo | power
  | equal | notEqual | strictEqual | strictNotEqual
  | less | greater | lessEqual | greaterEqual
  | and | or
deriving DecidableEq, Repr

namespace BinaryOp

def symbol : BinaryOp → String
  | add => "+"
  | subtract => "-"
  | multiply => "*"
  | divide => "/"
  | modulo => "%"
  | power => "**"
  | equal => "=="
  | notEqual => "!="
  | strictEqual => "==="
  | strictNotEqual => "!=="
  | less => "<"
  | greater => ">"
  | lessEqual => "<="
  | greaterEqual => ">="
  | and => "&&"
  | or => "||"

def all : List BinaryOp :=
  [add, subtract, multiply, divide, modulo, power, equal, notEqual, strictEqual, strictNotEqual,
    less, greater, lessEqual, greaterEqual, and, or]

def ofSymbol? (symbol : String) : Option BinaryOp :=
  all.find? (·.symbol == symbol)

end BinaryOp

/-- Operators that read a target, change the value and store it back. -/
inductive UpdateOp where
  | increment | decrement | add | subtract | multiply
deriving DecidableEq, Repr

namespace UpdateOp

def symbol : UpdateOp → String
  | increment => "++"
  | decrement => "--"
  | add => "+="
  | subtract => "-="
  | multiply => "*="

def all : List UpdateOp :=
  [increment, decrement, add, subtract, multiply]

def ofSymbol? (symbol : String) : Option UpdateOp :=
  all.find? (·.symbol == symbol)

end UpdateOp

/-- One position of a list pattern. -/
inductive ListSlot where
  | hole
  | bind (name : String)
  | rest (name : String)
deriving DecidableEq, Repr

namespace ListSlot

def boundName? : ListSlot → Option String
  | hole => none
  | bind name => some name
  | rest name => some name

end ListSlot

/-- The left-hand side of a variable declaration. -/
inductive Pattern where
  | name (name : String)
  | list (slots : List ListSlot)
  | object (fields : List (String × String))
deriving DecidableEq, Repr

namespace Pattern

/-- Every name the pattern introduces, in the order in which it binds them. -/
def boundNames : Pattern → List String
  | name n => [n]
  | list slots => slots.filterMap ListSlot.boundName?
  | object fields => fields.map Prod.snd

end Pattern

/-- Restrictions on the use of a property. -/
structure Access where
  /-- Read and written only by code that runs on behalf of the owner. -/
  isPrivate : Bool := false
  /-- Never written once declared; a readonly function computes the value it stands for. -/
  isReadonly : Bool := false
  /-- Read by everyone and written only on behalf of the owner. -/
  isLocked : Bool := false
deriving DecidableEq, Repr, Inhabited

/-- What a class method is declared as. -/
structure MethodTraits where
  isStatic : Bool := false
  isPrivate : Bool := false
  isLocked : Bool := false
  isGetter : Bool := false
  isConstructor : Bool := false
  isDestructor : Bool := false
deriving DecidableEq, Repr, Inhabited

mutual

structure Expr where
  node : ExprNode
  span : Span := {}

inductive ExprNode where
  | number (value : Float)
  | text (value : String)
  | bool (value : Bool)
  | null
  /-- Fixed pieces of text with expressions between them. -/
  | template (pieces : List String) (holes : List Expr)
  | list (items : List Expr)
  | object (members : List LiteralMember)
  | function (decl : FunctionDecl)
  | name (name : String)
  /-- The object on whose behalf the current code runs. -/
  | receiver
  | unary (op : UnaryOp) (operand : Expr)
  | binary (op : BinaryOp) (left right : Expr)
  | update (op : UpdateOp) (target : Expr) (value : Option Expr)
  | conditional (condition thenBranch elseBranch : Expr)
  | spread (source : Expr)
  | call (callee : Expr) (arguments : List Expr) (isOptional : Bool)
  | member (object : Expr) (property : String) (isOptional : Bool)
  | index (object index : Expr) (isOptional : Bool)
  | construct (cls : Expr) (arguments : List Expr)
  /-- Run the parent class's constructor on the object under construction. -/
  | superConstructor (arguments : List Expr)
  | superMethod (method : String) (arguments : List Expr)
  | delete (target : Expr) (arguments : List Expr)

inductive PropertyKey where
  | named (name : String)
  | computed (key : Expr)

/-- One entry of an object literal. -/
inductive LiteralMember where
  /-- A method closes over the object that it is declared in. -/
  | property (key : PropertyKey) (value : Expr) (access : Access) (isMethod : Bool) (span : Span)
  | spread (source : Expr)

inductive ParamForm where
  | required
  /-- The default is evaluated in the scope of the call and sees earlier parameters. -/
  | optional (default : Expr)
  /-- Takes exactly `count` arguments, or all that remain when `count` is zero. -/
  | rest (count : Nat)

structure Param where
  name : String
  form : ParamForm

structure FunctionDecl where
  name : Option String
  params : List Param
  body : List Stmt
  span : Span := {}

structure FieldDecl where
  name : String
  value : Option Expr
  isPrivate : Bool := false
  isStatic : Bool := false
  isLocked : Bool := false
  span : Span := {}

structure MethodDecl where
  name : String
  function : FunctionDecl
  traits : MethodTraits := {}
  span : Span := {}

structure ClassDecl where
  name : String
  superclass : Option String
  fields : List FieldDecl
  methods : List MethodDecl
  span : Span := {}

structure Stmt where
  node : StmtNode
  span : Span := {}

inductive StmtNode where
  | expression (value : Expr)
  | print (values : List Expr) (newline : Bool)
  | declare (target : Pattern) (value : Option Expr) (isConstant : Bool)
  | assign (target value : Expr)
  | function (decl : FunctionDecl)
  | «return» (value : Option Expr)
  | «class» (decl : ClassDecl)
  | block (body : List Stmt)
  | «if» (condition : Expr) (thenBranch : List Stmt) (elseBranch : Option (List Stmt))
  | «for» (init : Option Stmt) (condition : Option Expr) (post : Option Stmt) (body : List Stmt)
  /-- Lists and texts bind an element and its index, objects a key and its value. -/
  | forIn (first : String) (second : Option String) (iterable : Expr) (body : List Stmt)
  | «while» (condition : Expr) (body : List Stmt)
  | doWhile (body : List Stmt) (condition : Expr)
  | «break»
  | «continue»

end

namespace Param

/-- How many arguments the parameter demands from a caller. -/
def requiredCount (param : Param) : Nat :=
  match param.form with
  | .required => 1
  | .optional _ => 0
  | .rest count => count

end Param

namespace FunctionDecl

/-- How many arguments the parameters demand together. -/
def demand (decl : FunctionDecl) : Nat :=
  decl.params.foldr (fun param count => param.requiredCount + count) 0

/-- The least number of arguments that a call has to bring.  The demands are added up in
a machine word, so the count starts again from zero where they exceed it. -/
def minArity (decl : FunctionDecl) : Nat :=
  decl.demand % UInt64.size

def displayName (decl : FunctionDecl) : String :=
  decl.name.getD "<anon>"

end FunctionDecl

namespace MethodDecl

/-- Neither a constructor nor a destructor. -/
def isPlain (method : MethodDecl) : Bool :=
  !method.traits.isConstructor && !method.traits.isDestructor

end MethodDecl

namespace ClassDecl

def constructor? (decl : ClassDecl) : Option MethodDecl :=
  decl.methods.find? (·.traits.isConstructor)

def destructor? (decl : ClassDecl) : Option MethodDecl :=
  decl.methods.find? (·.traits.isDestructor)

/-- The first plain method of that name on the asked side of the class. -/
def method? (decl : ClassDecl) (name : String) (isStatic : Bool) : Option MethodDecl :=
  decl.methods.find? fun method =>
    method.name == name && method.traits.isStatic == isStatic && method.isPlain

end ClassDecl

end Hati
