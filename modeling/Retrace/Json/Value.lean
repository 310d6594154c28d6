import Retrace.Number.Written

/-!
JSON values. Objects are lists of members in the order of the text, and may name a key twice;
`Value.merged` gives every key one member, at its first place and with its last value.
-/

namespace Retrace.Json

/-- A number is kept as a whole number when the text has neither fraction nor exponent and it fits
64 bits, and as a double otherwise. -/
inductive Number where
  | whole (value : Int)
  | double (value : Binary64)
  deriving DecidableEq, Repr, Inhabited

/-- The double nearest to a number. -/
def Number.toDouble : Number → Binary64
  | .whole i => .ofInt i
  | .double x => x

/-- The values without parts. -/
inductive Scalar where
  | null
  | bool (value : Bool)
  | number (value : Number)
  | string (value : String)
  deriving DecidableEq, Repr, Inhabited

inductive Value where
  | scalar (value : Scalar)
  | array (items : List Value)
  | object (members : List (String × Value))
  deriving Repr, Inhabited

/-- The members of an object. -/
abbrev Members := List (String × Value)

namespace Value

def null : Value := .scalar .null

def string (text : String) : Value := .scalar (.string text)

def bool (value : Bool) : Value := .scalar (.bool value)

/-- Absent text is `null`. -/
def ofText? (text : Option String) : Value := text.elim null string

end Value

namespace Members

/-- Gives a key a value: in place where the key is there, at the end where it is not. -/
def put (key : String) (value : Value) : Members → Members
  | [] => [(key, value)]
  | (k, v) :: rest => if k = key then (key, value) :: rest else (k, v) :: put key value rest

/-- Puts members one after the other. -/
def merge (members : Members) : Members :=
  members.foldl (fun done m => put m.1 m.2 done) []

end Members

namespace Value

mutual

/-- Every key of every object once: first place, last value. -/
def merged : Value → Value
  | scalar s => scalar s
  | array items => array (mergedItems items)
  | object members => object (Members.merge (mergedMembers members))

def mergedItems : List Value → List Value
  | [] => []
  | v :: rest => merged v :: mergedItems rest

def mergedMembers : List (String × Value) → List (String × Value)
  | [] => []
  | (k, v) :: rest => (k, merged v) :: mergedMembers rest

end

end Value
end Retrace.Json
