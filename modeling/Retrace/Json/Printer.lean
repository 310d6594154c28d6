import Retrace.Json.Value

/-!
Values as compact JSON text: no blanks, members in their order, and in a string only what must be
escaped is escaped.
-/

namespace Retrace.Json

def hexDigits (n : Nat) (width : Nat) : List Char :=
  let digits := Nat.toDigits 16 n
  List.replicate (width - digits.length) '0' ++ digits

/-- A quote, a backslash and the controls below the blank are escaped. -/
def escaped (c : Char) : List Char :=
  match c with
  | '"' => ['\\', '"']
  | '\\' => ['\\', '\\']
  | '\x08' => ['\\', 'b']
  | '\x0c' => ['\\', 'f']
  | '\n' => ['\\', 'n']
  | '\r' => ['\\', 'r']
  | '\t' => ['\\', 't']
  | c => if c.toNat < 32 then '\\' :: 'u' :: hexDigits c.toNat 4 else [c]

def quoted (text : String) : List Char :=
  '"' :: text.toList.flatMap escaped ++ ['"']

/-- A double that is no finite number has no JSON form and is written `null`. -/
def Number.print : Number → List Char
  | .whole i => (toString i).toList
  | .double x => if x.isFinite then (NumberStyle.json.text x).toList else ['n', 'u', 'l', 'l']

def Scalar.print : Scalar → List Char
  | .null => ['n', 'u', 'l', 'l']
  | .bool true => ['t', 'r', 'u', 'e']
  | .bool false => ['f', 'a', 'l', 's', 'e']
  | .number n => n.print
  | .string s => quoted s

namespace Value

mutual

def print : Value → List Char
  | scalar s => s.print
  | array items => '[' :: printItems items ++ [']']
  | object members => '{' :: printMembers members ++ ['}']

def printItems : List Value → List Char
  | [] => []
  | v :: rest => print v ++ printFurtherItems rest

def printFurtherItems : List Value → List Char
  | [] => []
  | v :: rest => ',' :: print v ++ printFurtherItems rest

def printMembers : List (String × Value) → List Char
  | [] => []
  | (k, v) :: rest => quoted k ++ ':' :: print v ++ printFurtherMembers rest

def printFurtherMembers : List (String × Value) → List Char
  | [] => []
  | (k, v) :: rest => ',' :: quoted k ++ ':' :: print v ++ printFurtherMembers rest

end

/-- The compact JSON text of a value. -/
def compact (value : Value) : String := String.ofList value.print

end Value
end Retrace.Json
