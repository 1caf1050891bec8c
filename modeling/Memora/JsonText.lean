import Memora.Dict

/-! Texts are lists of code points. A transducer turns a text into tokens, one code point at a time,
and a machine with a stack of open containers turns the tokens into a value. -/
namespace Memora.JsonText

abbrev Text := List ℕ

def codes (s : String) : Text := s.toList.map Char.toNat

inductive Scalar
  | null
  | bool (b : Bool)
  | number (literal : Text)
  deriving DecidableEq

inductive Value
  | scalar (v : Scalar)
  | string (s : Text)
  | array (items : List Value)
  | object (members : List (Text × Value))

inductive Token
  | openObject
  | closeObject
  | openArray
  | closeArray
  | colon
  | comma
  | scalar (v : Scalar)
  | string (s : Text)
  deriving DecidableEq

variable (c : ℕ)

/-- The white space of JSON: space, tab, newline, carriage return. -/
def isBlank : Bool := c = 0x20 || c = 0x09 || c = 0x0a || c = 0x0d

def isDigit : Bool := 0x30 ≤ c && c ≤ 0x39

def isLetter : Bool := (0x41 ≤ c && c ≤ 0x5a) || (0x61 ≤ c && c ≤ 0x7a)

/-- The code points of numbers and of the names of constants: also `+`, `-` and `.`. -/
def isWord : Bool := isDigit c || isLetter c || c = 0x2b || c = 0x2d || c = 0x2e

def punctuation : Option Token :=
  if c = 0x7b then some .openObject
  else if c = 0x7d then some .closeObject
  else if c = 0x5b then some .openArray
  else if c = 0x5d then some .closeArray
  else if c = 0x3a then some .colon
  else if c = 0x2c then some .comma
  else none

def hexValue : Option ℕ :=
  if isDigit c then some (c - 0x30)
  else if 0x41 ≤ c && c ≤ 0x46 then some (c - 0x41+10)
  else if 0x61 ≤ c && c ≤ 0x66 then some (c - 0x61+10)
  else none

def escapeValue : Option ℕ :=
  if c = 0x22 || c = 0x5c || c = 0x2f then some c
  else if c = 0x62 then some 0x08
  else if c = 0x66 then some 0x0c
  else if c = 0x6e then some 0x0a
  else if c = 0x72 then some 0x0d
  else if c = 0x74 then some 0x09
  else none

def isFraction : Text → Bool
  | [] => true
  | c::s => c = 0x2e && !s.isEmpty && s.all isDigit

def isExponent : Text → Bool
  | [] => true
  | c::s =>
    let digits := match s with
      | 0x2b::s => s
      | 0x2d::s => s
      | s => s
    (c = 0x65 || c = 0x45) && !digits.isEmpty && digits.all isDigit

def isNumber (w : Text) : Bool :=
  let unsigned := match w with
    | 0x2d::s => s
    | s => s
  let whole := unsigned.takeWhile isDigit
  let rest := unsigned.dropWhile isDigit
  let isMantissa := fun c => !(c = 0x65 || c = 0x45 : Bool)
  !whole.isEmpty && (whole = [0x30] || whole.head? ≠ some 0x30) &&
    isFraction (rest.takeWhile isMantissa) && isExponent (rest.dropWhile isMantissa)

def constants : List (Text × Scalar) :=
  [(codes "null",.null),(codes "true",.bool true),(codes "false",.bool false)]

def notFinite : List Text := [codes "NaN",codes "Infinity",codes "-Infinity"]

def wordToken (w : Text) : Option Token :=
  match constants.lookup w with
  | some v => some (.scalar v)
  | none => if isNumber w || notFinite.contains w then some (.scalar (.number w)) else none

def isHighHalf : Bool := 0xd800 ≤ c && c ≤ 0xdbff

def isLowHalf : Bool := 0xdc00 ≤ c && c ≤ 0xdfff

/-- The code points of a string. What comes from an escape of four digits is marked: two of
these that are halves of one character become that character. -/
def decode : List (Bool × ℕ) → Text
  | (true,h)::(true,l)::units =>
    if isHighHalf h && isLowHalf l then
      (0x10000+(h - 0xd800) * 0x400+(l - 0xdc00))::decode units
    else h::decode ((true,l)::units)
  | unit::units => unit.2::decode units
  | [] => []

inductive Mode
  | between
  | word (letters : Text)
  | quoted (body : List (Bool × ℕ))
  | escaped (body : List (Bool × ℕ))
  | hex (body : List (Bool × ℕ)) (digits : List ℕ)
  deriving DecidableEq

def stepBetween : Option (List Token × Mode) :=
  if isBlank c then some ([],.between)
  else if c = 0x22 then some ([],.quoted [])
  else match punctuation c with
    | some t => some ([t],.between)
    | none => if isWord c then some ([],.word [c]) else none

/-- One code point: the tokens it completes, and how the next one is read. Control characters
do not occur within a string. -/
def step : Mode → ℕ → Option (List Token × Mode)
  | .between, c => stepBetween c
  | .word w, c =>
    if isWord c then some ([],.word (w++[c]))
    else do
      let t ← wordToken w
      let (ts,m) ← stepBetween c
      some (t::ts,m)
  | .quoted body, c =>
    if c = 0x22 then some ([.string (decode body)],.between)
    else if c = 0x5c then some ([],.escaped body)
    else if c < 0x20 then none
    else some ([],.quoted (body++[(false,c)]))
  | .escaped body, c =>
    if c = 0x75 then some ([],.hex body [])
    else (escapeValue c).map fun v => ([],.quoted (body++[(false,v)]))
  | .hex body digits, c => do
    let d ← hexValue c
    if digits.length < 3 then some ([],.hex body (digits++[d]))
    else some ([],.quoted (body++[(true,(digits++[d]).foldl (fun n d => 16 * n+d) 0)]))

def finish : Mode → Option (List Token)
  | .between => some []
  | .word w => (wordToken w).map fun t => [t]
  | _ => none

def lex : Mode → Text → Option (List Token)
  | m, [] => finish m
  | m, c::s => (step m c).bind fun (ts,m') => (lex m' s).map (ts++·)

def tokens (s : Text) : Option (List Token) := lex .between s

inductive Frame
  | array (done : List Value)
  | object (done : List (Text × Value)) (name : Text)

inductive State
  | value (stack : List Frame)
  | firstElement (stack : List Frame)
  | firstName (stack : List Frame)
  | name (done : List (Text × Value)) (stack : List Frame)
  | colon (done : List (Text × Value)) (name : Text) (stack : List Frame)
  | complete (v : Value) (stack : List Frame)

def startValue (stack : List Frame) : Token → Option State
  | .openObject => some (.firstName stack)
  | .openArray => some (.firstElement stack)
  | .scalar v => some (.complete (.scalar v) stack)
  | .string s => some (.complete (.string s) stack)
  | _ => none

def advance : State → Token → Option State
  | .value stack, t => startValue stack t
  | .firstElement stack, .closeArray => some (.complete (.array []) stack)
  | .firstElement stack, t => startValue (.array []::stack) t
  | .firstName stack, .closeObject => some (.complete (.object []) stack)
  | .firstName stack, .string k => some (.colon [] k stack)
  | .name done stack, .string k => some (.colon done k stack)
  | .colon done k stack, .colon => some (.value (.object done k::stack))
  | .complete v (.array done::stack), .comma => some (.value (.array (done++[v])::stack))
  | .complete v (.array done::stack), .closeArray =>
    some (.complete (.array (done++[v])) stack)
  | .complete v (.object done k::stack), .comma => some (.name (Dict.assign k v done) stack)
  | .complete v (.object done k::stack), .closeObject =>
    some (.complete (.object (Dict.assign k v done)) stack)
  | _, _ => none

def parse (ts : List Token) : Option Value :=
  match ts.foldlM advance (.value []) with
  | some (.complete v []) => some v
  | _ => none

/-- `json.loads`; every failure is a `JSONDecodeError`. -/
def loads (s : Text) : Option Value := (tokens s).bind parse

end Memora.JsonText
