import Memora.JsonText
import Memora.Substitutions

/-! The clean-up steps before the first parse, the repairs before the second and the third, and
the parse in three rounds. -/
namespace Memora.LlmJson
open JsonText Substitutions

/-- `str.isspace`, also the class `\s` and what `str.strip` takes away. -/
def isSpace (c : ℕ) : Bool :=
  (0x09 ≤ c && c ≤ 0x0d) || (0x1c ≤ c && c ≤ 0x20) || c = 0x85 || c = 0xa0 || c = 0x1680 ||
    (0x2000 ≤ c && c ≤ 0x200a) || c = 0x2028 || c = 0x2029 || c = 0x202f || c = 0x205f ||
    c = 0x3000

variable (word : ℕ → Bool) (s : Text)

def strip : Text := (s.dropWhile isSpace).rdropWhile isSpace

def newline : ℕ := 0x0a

/-- The code points a letter of a pattern stands for when the case is ignored: the dotted and
the dotless i, the Kelvin sign and the long s are among them. -/
def caseVariants (l : ℕ) : List ℕ :=
  if 0x61 ≤ l && l ≤ 0x7a then
    [l,l - 0x20]++(if l = 0x69 then [0x130,0x131]
       else if l = 0x6b then [0x212a]
       else if l = 0x73 then [0x17f]
       else [])
  else [l]

def exactly (l c : ℕ) : Bool := l = c

def ignoringCase (l c : ℕ) : Bool := (caseVariants l).contains c

structure ThinkingPattern where
  opening : Text
  closing : Text
  same : ℕ → ℕ → Bool

def thinkingPatterns : List ThinkingPattern :=
  [⟨codes "<thinking>",codes "</thinking>",ignoringCase⟩, ⟨codes "<思考>",codes "</思考>",exactly⟩,
   ⟨codes "<thought>",codes "</thought>",ignoringCase⟩,
   ⟨codes "<reasoning>",codes "</reasoning>",ignoringCase⟩,
   ⟨codes "<think>",codes "</think>",ignoringCase⟩,
   ⟨codes "[thinking]",codes "[/thinking]",ignoringCase⟩,
   ⟨codes "[thought]",codes "[/thought]",ignoringCase⟩, ⟨codes "【思考过程】",codes "【/思考过程】",exactly⟩]

def ThinkingPattern.pattern (t : ThinkingPattern) : Pattern ℕ :=
  delimited t.same t.opening t.closing

def removeThinking : Text :=
  thinkingPatterns.foldl (fun s t => substitute t.pattern [] s) s

def blankLines : Pattern ℕ := fun _ s =>
  if [newline,newline,newline] <+: s then some (s.dropWhile (· = newline)) else none

def removeThinkingContent : Text :=
  if s = [] then s
  else strip (substitute blankLines [newline,newline] (removeThinking s))

def fence : Text := codes "\x60\x60\x60"

/-- `^\s*...` of a fence with its language and the white space after it. With `MULTILINE` a line
starts after every newline. -/
def lineFence : Pattern ℕ := fun b s =>
  if b = none ∨ b = some newline then
    (dropLiteral exactly fence (s.dropWhile isSpace)).map fun rest =>
      (rest.dropWhile word).dropWhile isSpace
  else none

def spacesToLineEnd : Text → Option Text
  | [] => some []
  | c::s =>
    if isSpace c then
      match spacesToLineEnd s with
      | some rest => some rest
      | none => if c = newline then some (c::s) else none
    else none

def trailingFence : Pattern ℕ := fun _ s => (dropLiteral exactly fence s).bind spacesToLineEnd

def dropFirstFence : Text :=
  if fence <+: s then
    match s.findIdx? (· = newline) with
    | some n => if fence <+: strip (s.take n) then s.drop (n+1) else s
    | none => ((s.drop 3).dropWhile word).dropWhile isSpace
  else s

def dropLastFence : Text := if fence <:+ s then s.take (s.length - 3) else s

def cleanMarkdownBlocks : Text :=
  if s = [] then s
  else
    let cleaned := dropLastFence (dropFirstFence word (strip s))
    strip (substitute trailingFence [] (substitute (lineFence word) [] cleaned))

def isControl (c : ℕ) : Bool :=
  c ≤ 0x08 || c = 0x0b || c = 0x0c || (0x0e ≤ c && c ≤ 0x1f) || c = 0x7f

def cleanControlCharacters : Text := s.filter fun c => !isControl c

def find (c : ℕ) (s : Text) : Option ℕ := s.findIdx? (· = c)

def rfind (c : ℕ) (s : Text) : Option ℕ :=
  (s.reverse.findIdx? (· = c)).map fun n => s.length - 1 - n

def between (opening closing : ℕ) (s : Text) : Option Text :=
  match find opening s, rfind closing s with
  | some start, some stop =>
    if start < stop then some ((s.take (stop+1)).drop start) else none
  | _, _ => none

def objectFirst : Bool :=
  match find 0x7b s, find 0x5b s with
  | some o, some a => o < a
  | some _, none => true
  | none, _ => false

def extractJsonContent : Text :=
  if s = [] then s
  else
    let s := strip s
    let object := between 0x7b 0x7d s
    let array := between 0x5b 0x5d s
    ((if objectFirst s then object.or array else array.or object)).getD s

def trailingComma (closing : ℕ) : Pattern ℕ := fun _ s =>
  match s with
  | 0x2c::s =>
    match s.dropWhile isSpace with
    | c::rest => if c = closing then some rest else none
    | [] => none
  | _ => none

/-- `\b` after a word: no other word character follows. -/
def atBoundary : Text → Bool
  | [] => true
  | c::_ => !word c

def namedValue (same : ℕ → ℕ → Bool) (name : Text) : Pattern ℕ := fun _ s =>
  match s with
  | 0x3a::s =>
    (dropLiteral same name (s.dropWhile isSpace)).bind fun rest =>
      if atBoundary word rest then some rest else none
  | _ => none

def namedValues : List (Pattern ℕ × Text) :=
  [(namedValue word exactly (codes "True"),codes ": true"),
   (namedValue word exactly (codes "False"),codes ": false"),
   (namedValue word exactly (codes "None"),codes ": null"),
   (namedValue word exactly (codes "NULL"),codes ": null"),
   (namedValue word ignoringCase (codes "nan"),codes ": null"),
   (namedValue word ignoringCase (codes "infinity"),codes ": null"),
   (namedValue word ignoringCase (codes "-infinity"),codes ": null")]

def closeOpen : Text :=
  let s := if s.count 0x22 % 2 ≠ 0 then s++[0x22] else s
  s++List.replicate (s.count 0x7b - s.count 0x7d) 0x7d ++
    List.replicate (s.count 0x5b - s.count 0x5d) 0x5d

def fixCommonJsonErrors : Text :=
  if s = [] then s
  else
    let s := substitute (trailingComma 0x7d) [0x7d] s
    let s := substitute (trailingComma 0x5d) [0x5d] s
    closeOpen ((namedValues word).foldl (fun s e => substitute e.1 e.2 s) s)

/-- The loop of `_convert_single_quotes`: whether a code point is escaped, and the quote of the
string it stands in. -/
def convertFrom : Bool → Option ℕ → Text → Text
  | _, _, [] => []
  | true, quote, c::s => c::convertFrom false quote s
  | false, quote, c::s =>
    if c = 0x5c then c::convertFrom true quote s
    else match quote with
      | none =>
        if c = 0x22 || c = 0x27 then 0x22::convertFrom false (some c) s
        else c::convertFrom false none s
      | some q =>
        if c = q then 0x22::convertFrom false none s
        else if c = 0x22 && q = 0x27 then 0x5c::0x22::convertFrom false quote s
        else c::convertFrom false quote s

def convertSingleQuotes : Text := convertFrom false none s

def clean : Text :=
  extractJsonContent (cleanControlCharacters (cleanMarkdownBlocks word (removeThinkingContent s)))

def isContainer : Value → Bool
  | .array _ => true
  | .object _ => true
  | _ => false

/-- One round: a value counts only when it is a container. -/
def round : Option Value := (loads s).filter isContainer

def safeParseLlmJson : Option Value :=
  if strip s = [] then none
  else
    let cleaned := clean word s
    if cleaned = [] then none
    else
      (round cleaned).or ((round (fixCommonJsonErrors word cleaned)).or
        (round (fixCommonJsonErrors word (convertSingleQuotes cleaned))))

end Memora.LlmJson
