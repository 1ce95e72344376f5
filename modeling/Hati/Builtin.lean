namespace Hati

/-!
# Built-in functions

The functions that programs find without declaring them: the methods of texts,
numbers and lists, and the global functions.  Each has the name under which a
program reaches it.
-/

inductive TextMethod where
  | len | upper | lower | trim | split | contains | startsWith | endsWith | replace | «repeat»
  | charAt | slice | indexOf | «match» | replaceRegex
deriving DecidableEq, Repr

namespace TextMethod

def name : TextMethod → String
  | len => "len"
  | upper => "upper"
  | lower => "lower"
  | trim => "trim"
  | split => "split"
  | contains => "contains"
  | startsWith => "startsWith"
  | endsWith => "endsWith"
  | replace => "replace"
  | «repeat» => "repeat"
  | charAt => "charAt"
  | slice => "slice"
  | indexOf => "indexOf"
  | «match» => "match"
  | replaceRegex => "replaceRegex"

def all : List TextMethod :=
  [len, upper, lower, trim, split, contains, startsWith, endsWith, replace, «repeat», charAt,
    slice, indexOf, «match», replaceRegex]

def ofName? (name : String) : Option TextMethod :=
  all.find? (·.name == name)

end TextMethod

inductive NumberMethod where
  | toFixed | abs | round | floor | ceil | toString
deriving DecidableEq, Repr

namespace NumberMethod

def name : NumberMethod → String
  | toFixed => "toFixed"
  | abs => "abs"
  | round => "round"
  | floor => "floor"
  | ceil => "ceil"
  | toString => "toString"

def all : List NumberMethod :=
  [toFixed, abs, round, floor, ceil, toString]

def ofName? (name : String) : Option NumberMethod :=
  all.find? (·.name == name)

end NumberMethod

inductive ListMethod where
  | push | pop | shift | unshift | sort | reverse | splice
  | map | filter | forEach | find | some | every | includes | indexOf
  | reduce | reduceRight
  | slice | join | concat | toString
deriving DecidableEq, Repr

namespace ListMethod

def name : ListMethod → String
  | push => "push"
  | pop => "pop"
  | shift => "shift"
  | unshift => "unshift"
  | sort => "sort"
  | reverse => "reverse"
  | splice => "splice"
  | map => "map"
  | filter => "filter"
  | forEach => "forEach"
  | find => "find"
  | some => "some"
  | every => "every"
  | includes => "includes"
  | indexOf => "indexOf"
  | reduce => "reduce"
  | reduceRight => "reduceRight"
  | slice => "slice"
  | join => "join"
  | concat => "concat"
  | toString => "toString"

def all : List ListMethod :=
  [push, pop, shift, unshift, sort, reverse, splice, map, filter, forEach, find, some, every,
    includes, indexOf, reduce, reduceRight, slice, join, concat, toString]

def ofName? (name : String) : Option ListMethod :=
  all.find? (·.name == name)

end ListMethod

inductive GlobalFunction where
  | typeOf | toNumber | toText | toBool | toList
  | objectKeys | objectValues | objectEntries | objectFreeze | objectIsFrozen
  | jsonStringify | jsonParse
  | exit
  | setTimeout | setInterval | clearTimeout | clearInterval | nap
  | enqueue | queueMicrotask | queueMacrotask
deriving DecidableEq, Repr

namespace GlobalFunction

def name : GlobalFunction → String
  | typeOf => "ainaya"
  | toNumber => "Namba"
  | toText => "Neno"
  | toBool => "Bool"
  | toList => "Orodha"
  | objectKeys => "keys"
  | objectValues => "values"
  | objectEntries => "entries"
  | objectFreeze => "freeze"
  | objectIsFrozen => "isFrozen"
  | jsonStringify => "stringify"
  | jsonParse => "parse"
  | exit => "exit"
  | setTimeout => "setTimeout"
  | setInterval => "setInterval"
  | clearTimeout => "clearTimeout"
  | clearInterval => "clearInterval"
  | nap => "nap"
  | enqueue => "subiri"
  | queueMicrotask => "queueMicrotask"
  | queueMacrotask => "queueMacrotask"

end GlobalFunction

end Hati
