/-!
# Values

What literals denote and variables hold. `Value.truthy` decides conditions, and the partial views
`int?`, `float?` and `complex?` say which values take part in arithmetic and as what number.
-/

namespace Offside

structure Complex where
  re : Float
  im : Float
  deriving DecidableEq

inductive Value where
  | none
  | bool (b : Bool)
  | int (n : Int64)
  | float (x : Float)
  | complex (z : Complex)
  | str (text : String)
  | bytes (data : List UInt8)
  deriving DecidableEq

namespace Value

inductive Kind where
  | none | bool | int | float | complex | str | bytes
  deriving DecidableEq

def Kind.name : Kind → String
  | .none => "NoneType"
  | .bool => "bool"
  | .int => "int"
  | .float => "float"
  | .complex => "complex"
  | .str => "str"
  | .bytes => "bytes"

def kind : Value → Kind
  | .none => .none
  | .bool _ => .bool
  | .int _ => .int
  | .float _ => .float
  | .complex _ => .complex
  | .str _ => .str
  | .bytes _ => .bytes

/-- False are `None`, `False`, every zero and every empty sequence. -/
def truthy : Value → Bool
  | .none => false
  | .bool b => b
  | .int n => n != 0
  | .float x => x != 0.0
  | .complex z => z.re != 0.0 || z.im != 0.0
  | .str text => !text.isEmpty
  | .bytes data => !data.isEmpty

/-- A boolean counts as one or zero. -/
def int? : Value → Option Int64
  | .bool b => some (if b then 1 else 0)
  | .int n => some n
  | _ => Option.none

/-- An integer counts as the nearest float. -/
def float? : Value → Option Float
  | .float x => some x
  | v => v.int?.map fun n => Float.ofInt n.toInt

/-- A real number has the imaginary part zero. -/
def complex? : Value → Option Complex
  | .complex z => some z
  | v => v.float?.map fun x => ⟨x, 0.0⟩

def isNumber : Value → Bool
  | .bool _ | .int _ | .float _ | .complex _ => true
  | _ => false

/-- Text and bytes. -/
def isSequence : Value → Bool
  | .str _ | .bytes _ => true
  | _ => false

end Value

end Offside
