import IcsTrafficGen.Lib.Cpp

/- Property trees as Boost reads them from JSON: a node has a text and a list of
   named children. A path is the list of its names. `get` throws where the path or
   the conversion fails, `getOptional` gives `none` there. -/
namespace IcsTrafficGen

inductive PTree where
  | node (data : String) (children : List (String × PTree))

namespace PTree

def data : PTree → String
  | node d _ => d

def children : PTree → List (String × PTree)
  | node _ cs => cs

/-- A leaf with the text `s`. -/
def leaf (s : String) : PTree := node s []

/-- The first child of that name. -/
def child? (t : PTree) (key : String) : Option PTree :=
  (t.children.find? (fun c => c.1 = key)).map Prod.snd

/-- `get_child_optional`. -/
def childAt? (t : PTree) (path : List String) : Option PTree := path.foldlM child? t

/-- `get_optional<T>`, with the conversion of `T`. -/
def getOptional {α : Type} (conv : String → Option α) (t : PTree) (path : List String) : Option α :=
  (t.childAt? path).bind (fun c => conv c.data)

/-- `get<T>`. -/
def get {α : Type} (conv : String → Option α) (t : PTree) (path : List String) : Cpp α :=
  match t.getOptional conv path with
  | some a => .ok a
  | none => .error .throws

theorem get_ok {α : Type} {conv : String → Option α} {t : PTree} {path : List String} {a : α} :
    t.get conv path = .ok a ↔ t.getOptional conv path = some a := by
  unfold get
  cases t.getOptional conv path <;> simp

/-- The conversion of `std::string`: the text itself. -/
def asString (s : String) : Option String := some s

def isSpace (c : Char) : Bool :=
  c == ' ' || c == '\t' || c == '\n' || c == '\x0b' || c == '\x0c' || c == '\r'

/-- Decimal digits, most significant first. -/
def digitsVal (cs : List Char) : Nat := cs.foldl (fun n c => 10 * n + (c.toNat - '0'.toNat)) 0

/-- A sign, if there is one, and what follows it. -/
def splitSign : List Char → Int × List Char
  | '-' :: cs => (-1, cs)
  | '+' :: cs => (1, cs)
  | cs => (1, cs)

/-- The conversion of `int` through a stream: blanks, a sign, digits and blanks, and
nothing else; a value that does not fit fails. -/
def asInt (s : String) : Option Int :=
  let (sign, cs) := splitSign (s.toList.dropWhile isSpace)
  let digits := cs.takeWhile Char.isDigit
  let n := sign * digitsVal digits
  if digits ≠ [] ∧ (cs.dropWhile Char.isDigit).all isSpace ∧ Cpp.InInt n then some n else none

example : asInt " -12 " = some (-12) := by decide
example : asInt "2147483648" = none := by decide

end PTree
end IcsTrafficGen
