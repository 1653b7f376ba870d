/-!
# Code

Functions are lowered to bodies of basic blocks.  An op writes at most one register and
reads constants, arguments and registers; a block ends in an op that returns or names the
block to go to.  A module is a list of functions with distinct names, each declared by its
parameters and perhaps defined by a body.
-/

namespace ScalarScript
namespace Code

/-- The two types of values: floating-point numbers and truth values. -/
inductive ValueType where
  | double
  | bool
deriving DecidableEq, Repr

namespace ValueType

/-- The type in listings and messages. -/
def describe : ValueType → String
  | .double => "double"
  | .bool => "i1"

/-- The name of the type in documents. -/
def name : ValueType → String
  | .double => "F64"
  | .bool => "Bool"

end ValueType

/-- What an op reads. -/
inductive Operand where
  | const (value : Float)
  | arg (index : Nat)
  | reg (index : Nat)
deriving Repr

/-- The arithmetic operations. -/
inductive Arith where
  | add
  | sub
  | mul
  | div
deriving DecidableEq, Repr

namespace Arith

/-- The value of an operation. -/
def apply : Arith → Float → Float → Float
  | .add, x, y => x + y
  | .sub, x, y => x - y
  | .mul, x, y => x * y
  | .div, x, y => x / y

/-- The operation in listings. -/
def mnemonic : Arith → String
  | .add => "fadd"
  | .sub => "fsub"
  | .mul => "fmul"
  | .div => "fdiv"

/-- The name of the operation in documents. -/
def name : Arith → String
  | .add => "FAdd"
  | .sub => "FSub"
  | .mul => "FMul"
  | .div => "FDiv"

/-- The name that its results start from. -/
def hint : Arith → String
  | .add => "addtmp"
  | .sub => "subtmp"
  | .mul => "multmp"
  | .div => "divtmp"

end Arith

/-- Comparisons.  The unordered ones also hold when a side is not a number; `one` is
ordered and unequal. -/
inductive Predicate where
  | ueq
  | une
  | ult
  | ule
  | ugt
  | uge
  | one
deriving DecidableEq, Repr

namespace Predicate

/-- Whether a comparison holds. -/
def holds (predicate : Predicate) (left right : Float) : Bool :=
  let unordered := left.isNaN || right.isNaN
  match predicate with
  | .ueq => unordered || left == right
  | .une => unordered || left != right
  | .ult => unordered || decide (left < right)
  | .ule => unordered || decide (left ≤ right)
  | .ugt => unordered || decide (right < left)
  | .uge => unordered || decide (right ≤ left)
  | .one => !unordered && left != right

/-- The comparison in listings. -/
def mnemonic : Predicate → String
  | .ueq => "ueq"
  | .une => "une"
  | .ult => "ult"
  | .ule => "ule"
  | .ugt => "ugt"
  | .uge => "uge"
  | .one => "one"

/-- The name of the comparison in documents. -/
def name : Predicate → String
  | .ueq => "Ueq"
  | .une => "Une"
  | .ult => "Ult"
  | .ule => "Ule"
  | .ugt => "Ugt"
  | .uge => "Uge"
  | .one => "One"

/-- All comparisons. -/
def all : List Predicate := [.ueq, .une, .ult, .ule, .ugt, .uge, .one]

end Predicate

/-- One step of a body. -/
inductive Op where
  | arith (op : Arith) (dest : Nat) (lhs rhs : Operand)
  | compare (dest : Nat) (predicate : Predicate) (lhs rhs : Operand)
  /-- Turns a truth value into one or zero. -/
  | widen (dest : Nat) (src : Operand)
  | call (dest : Nat) (callee : String) (args : List Operand)
  | jump (target : Nat)
  | branch (condition : Operand) (thenBlock elseBlock : Nat)
  /-- Leaves the function; without a value the caller sees zero. -/
  | ret (value : Option Operand)
deriving Repr

namespace Op

/-- Whether the op ends a block. -/
def isTerminator : Op → Bool
  | .jump .. | .branch .. | .ret .. => true
  | _ => false

/-- The register that the op writes. -/
def dest? : Op → Option Nat
  | .arith _ dest _ _ => some dest
  | .compare dest _ _ _ => some dest
  | .widen dest _ => some dest
  | .call dest _ _ => some dest
  | .jump .. | .branch .. | .ret .. => none

/-- What the op reads, in order. -/
def operands : Op → List Operand
  | .arith _ _ lhs rhs => [lhs, rhs]
  | .compare _ _ lhs rhs => [lhs, rhs]
  | .widen _ src => [src]
  | .call _ _ args => args
  | .jump _ => []
  | .branch condition _ _ => [condition]
  | .ret value => value.toList

/-- The blocks to which the op may go. -/
def successors : Op → List Nat
  | .jump target => [target]
  | .branch _ thenBlock elseBlock => [thenBlock, elseBlock]
  | _ => []

end Op

/-- A labelled list of ops. -/
structure Block where
  label : String
  ops : List Op
deriving Repr

namespace Block

/-- Whether the last op ends the block. -/
def isTerminated (block : Block) : Bool :=
  block.ops.getLast?.any Op.isTerminator

/-- The block with one more op. -/
def push (block : Block) (op : Op) : Block :=
  { block with ops := block.ops ++ [op] }

end Block

/-- The name and the type of a register. -/
structure Register where
  name : String
  type : ValueType
deriving DecidableEq, Repr

/-- The blocks of a function, the first of which is its entry, and its registers. -/
structure Body where
  blocks : List Block
  registers : List Register
deriving Repr

namespace Body

/-- The block at which a run starts. -/
def entry? (body : Body) : Option Nat :=
  if body.blocks.isEmpty then none else some 0

end Body

/-- Whether a function is only declared or also defined. -/
inductive State where
  | declared
  | defined
deriving DecidableEq, Repr

/-- The name of a state. -/
def State.name : State → String
  | .declared => "Declared"
  | .defined => "Defined"

/-- A function: its name, its parameters and perhaps a body. -/
structure Function where
  name : String
  params : List String
  body : Option Body
deriving Repr

namespace Function

/-- The number of parameters. -/
def arity (function : Function) : Nat :=
  function.params.length

/-- Whether the function has a body. -/
def isDefined (function : Function) : Bool :=
  function.body.isSome

/-- Whether the function is declared or defined. -/
def state (function : Function) : State :=
  if function.isDefined then .defined else .declared

/-- The type of an operand inside the function, if it stands for something. -/
def typeOf? (function : Function) : Operand → Option ValueType
  | .const _ => some .double
  | .arg index => if index < function.params.length then some .double else none
  | .reg index => function.body.bind fun body => body.registers[index]?.map Register.type

end Function

/-- Functions in the order of their declaration.  Of several functions of one name all operations
see the first; a module that is made from the empty one by them never has several. -/
structure Module where
  name : String
  functions : List Function
deriving Repr

namespace Module

/-- A module without functions. -/
def empty (name : String) : Module :=
  ⟨name, []⟩

/-- The function of the given name. -/
def find? (table : Module) (name : String) : Option Function :=
  table.functions.find? fun function => function.name = name

/-- The place of the function of the given name, behind the last one if there is none. -/
def position (table : Module) (name : String) : Nat :=
  table.functions.findIdx fun function => function.name = name

/-- The module with one function changed. -/
def modify (table : Module) (name : String) (change : Function → Function) : Module :=
  { table with functions := table.functions.modify (table.position name) change }

/-- Adds a declaration; a function that is there already stays as it is. -/
def declare (table : Module) (name : String) (params : List String) : Module :=
  if (table.find? name).isSome then table
  else { table with functions := table.functions ++ [⟨name, params, none⟩] }

/-- Renames the parameters of a function. -/
def setParams (table : Module) (name : String) (params : List String) : Module :=
  table.modify name fun function => { function with params := params }

/-- Gives a body to a function that is declared and not defined. -/
def define? (table : Module) (name : String) (body : Body) : Option Module :=
  match table.find? name with
  | some function =>
      if function.isDefined then none
      else some (table.modify name fun function => { function with body := some body })
  | none => none

/-- Drops the body of a function. -/
def discard (table : Module) (name : String) : Module :=
  table.modify name fun function => { function with body := none }

/-- Removes a function. -/
def erase (table : Module) (name : String) : Module :=
  { table with functions := table.functions.eraseIdx (table.position name) }

/-- Whether the function of the given name is declared or defined. -/
def state? (table : Module) (name : String) : Option State :=
  (table.find? name).map Function.state

/-- The number of blocks in all bodies. -/
def blockCount (table : Module) : Nat :=
  (table.functions.flatMap fun function => (function.body.map Body.blocks).getD []).length

end Module
end Code
end ScalarScript
