import Mathlib.Data.Fintype.Basic
import Felt.Lua.Run
import Felt.Lua.Number

/-!
# What the box library is given and what it raises

A Lua value is a scalar or a reference to a table; the references of a
message are the points of a graph, and what stands at a point is a plain
table or an object – a table whose metatable has a `__pack`. The type of the
points is a parameter: a sender's graph has the sender's tables, what a
receiver decodes has the tables it built and the objects it already knows.

A `Table` is its pairs in the order `pairs` enumerates them. That order is
arbitrary, so everything said of every `Table` is said of every order; what
is not arbitrary – a key occurs once, is neither `nil` nor a NaN, and stands
for a value other than `nil` – is carried by the structure.

An object is given by what its `__pack` answers, which is one of a few things
(`PackAnswer`). The code behind it is not part of a message, and two calls for
the same object in the same walk answer the same: that is what it means for the
graph to be a function of its points. What `__pack` may do besides is to record
the id of the object with the receiver's table, and that is part of the answer.
-/

namespace Felt

/-- **A Lua value**, over the points `α` a reference may denote. -/
inductive Value (α : Type) where
  /-- `nil`. -/
  | nil
  /-- `true` or `false`. -/
  | boolean (b : Bool)
  /-- A number. -/
  | number (n : Number)
  /-- A string. -/
  | string (s : Bytes)
  /-- A table or an object. -/
  | ref (a : α)
  /-- A function, a thread or a userdatum, by the name of its type. -/
  | foreign (type : Bytes)
  deriving DecidableEq

namespace Value

variable {α β : Type}

/-- Rename the points of a value. -/
def map (f : α → β) : Value α → Value β
  | .nil => .nil
  | .boolean b => .boolean b
  | .number n => .number n
  | .string s => .string s
  | .ref a => .ref (f a)
  | .foreign t => .foreign t

/-- A value a table may have as a key. -/
def IsKey : Value α → Prop
  | .nil => False
  | .number (.nan _) => False
  | _ => True

instance (v : Value α) : Decidable v.IsKey := by
  unfold IsKey
  split <;> infer_instance

/-- Lua's `not not v`. -/
def truthy : Value α → Bool
  | .nil => false
  | .boolean b => b
  | _ => true

/-- `luaL_checknumber`: a number, or a string that can be read as one. -/
def checkNumber : Value α → Option Number
  | .number n => some n
  | .string s => Number.tonumber s
  | _ => none

/-- `luaL_checklstring`: a string, or a number as it is written. -/
def checkString : Value α → Option Bytes
  | .string s => some s
  | .number n => some n.tostring
  | _ => none

theorem map_injOn {f : α → β} {v w : Value α}
    (h : ∀ a b, v = .ref a → w = .ref b → f a = f b → a = b)
    (hvw : v.map f = w.map f) : v = w := by
  cases v <;> cases w <;> simp_all [map]

end Value

/-- **A table**, as the pairs it holds in the order they are enumerated. -/
structure Table (α : Type) where
  /-- The pairs. -/
  pairs : List (Value α × Value α)
  /-- A key occurs once. -/
  nodup : (pairs.map Prod.fst).Nodup
  /-- What is a key can be one. -/
  isKey : ∀ p ∈ pairs, p.1.IsKey
  /-- A key with no value is no key. -/
  value_ne_nil : ∀ p ∈ pairs, p.2 ≠ .nil

/-- The keys and values of a table, one after the other. -/
def Table.elements {α : Type} (t : Table α) : List (Value α) :=
  t.pairs.flatMap (fun p => [p.1, p.2])

/-- **What a `__pack` metamethod answers.** -/
inductive PackAnswer (α : Type) where
  /-- `"raw", str`: pack `str` as it is. -/
  | raw (str : Bytes)
  /-- `"pack", obj`: pack `obj` instead – after writing the object's own
  number into the table of known objects, if it does that. -/
  | pack (record : Option ℕ) (obj : Value α)
  /-- `"call", type, arg`: unpack by calling `require(type).__unpack(arg)`. -/
  | call (type arg : Value α)
  /-- Anything else, by what it starts with. -/
  | illegal (how : Bytes)

/-- **What stands at a point of a sender's graph.** -/
inductive Cell (α : Type) where
  /-- A table without a `__pack`. -/
  | table (t : Table α)
  /-- An object, by what its `__pack` answers. -/
  | object (answer : PackAnswer α)

/-- A sender's graph. -/
abbrev Graph (α : Type) : Type := α → Cell α

/-- **The errors of packing and unpacking**, with what their texts mention. -/
inductive BoxError where
  /-- `I don't know how to pack '%s', which is of type '%s'`. -/
  | cannotPack (type : Bytes)
  /-- `__pack metamethod returned illegal values starting with `. -/
  | illegalAnswer (how : Bytes)
  /-- `I don't know how to unpack values with tag '%s'`. -/
  | unknownTag (key : Bytes)
  /-- `malformed serialized number %s`. -/
  | malformedNumber (buf : Bytes)
  /-- `invalid backreference %s`. -/
  | invalidBackreference (buf : Bytes)
  /-- `invalid object reference %s`. -/
  | invalidObjectReference (buf : Bytes)
  /-- `error deserializing object of type %s - no __unpack metamethod`. -/
  | noUnpack
  /-- `error deserializating object of type %s - error in __unpack`. -/
  | unpackFailed
  /-- An operation the interpreter refuses on the value it was given. -/
  | refused (operation : String)
  /-- An error of a module or of a metamethod that was called. -/
  | raised (message : Bytes)
  deriving DecidableEq

end Felt
