import Agamemnon.Lib.Numerals

/-!
# Sanitized error messages

`sanitizeErrorMessage` replaces file paths, memory addresses, namespaces, `what(): `, home
directories and system directories, one after the other.  A pattern is given by the length of its
match at the start of a text, as `std::regex` finds it: the first alternative that fits, and
repetitions that are as long as possible.
-/

namespace Agamemnon

namespace Sanitizer

/-- A pattern and what takes the place of its matches. -/
structure Rule where
  matchAt : List Char → Option ℕ
  replacement : List Char

/-- Replace the matches from left to right, each after the end of the one before it.  The number
counts the letters that still belong to a match. -/
def replace (rule : Rule) : ℕ → List Char → List Char
  | _, [] => []
  | skip + 1, _ :: w => replace rule skip w
  | 0, c :: w =>
      match rule.matchAt (c :: w) with
      | some n => rule.replacement ++ replace rule (n - 1) w
      | none => c :: replace rule 0 w

/-! ### Patterns -/

/-- The letters of `\w`. -/
def isWord (c : Char) : Bool :=
  c.isAlphanum || c = '_'

/-- The letters of `[0-9a-fA-F]`. -/
def isHex (c : Char) : Bool :=
  c ∈ "0123456789abcdefABCDEF".toList

/-- The letters of `[^\s:]`. -/
def isPath (c : Char) : Bool :=
  !Numerals.isSpace c && c ≠ ':'

/-- A match of a literal followed by the longest run of letters of a class, with at least so many of
them. -/
def literalRunAt (literal : List Char) (p : Char → Bool) (least : ℕ) (w : List Char) :
    Option ℕ :=
  let run := (w.drop literal.length).takeWhile p
  if literal <+: w ∧ least ≤ run.length then some (literal.length + run.length) else none

/-- The rule for a literal that is followed by letters of a class. -/
def literalRun (literal : List Char) (p : Char → Bool) (least : ℕ) (replacement : List Char) :
    Rule where
  matchAt := literalRunAt literal p least
  replacement := replacement

/-- The pattern `0x[0-9a-fA-F]+`. -/
def addr : Rule :=
  literalRun "0x".toList isHex 1 "[address]".toList

/-- The pattern `what\(\):\s*`. -/
def whatPrefix : Rule :=
  literalRun "what():".toList Numerals.isSpace 0 []

/-- The pattern `/home/\w+`. -/
def home : Rule :=
  literalRun "/home/".toList isWord 1 "~".toList

/-- The pattern `/usr/[^\s]+`. -/
def system : Rule :=
  literalRun "/usr/".toList (fun c => !Numerals.isSpace c) 1 "[system]".toList

/-! ### Paths -/

/-- The alternatives `cpp|hpp|h|cc`. -/
def extensions : List (List Char) :=
  ["cpp".toList, "hpp".toList, "h".toList, "cc".toList]

/-- A match of `:?\d*`. -/
def lineAt : List Char → ℕ
  | ':' :: w => 1 + (w.takeWhile Char.isDigit).length
  | w => (w.takeWhile Char.isDigit).length

/-- A match of `\.(cpp|hpp|h|cc):?\d*`. -/
def extensionAt : List Char → Option ℕ
  | '.' :: w =>
      (extensions.find? (· <+: w)).map fun extension =>
        1 + extension.length + lineAt (w.drop extension.length)
  | _ => none

/-- A match of `\/[^\s:]+\.(cpp|hpp|h|cc):?\d*`, where the part before the extension is as long as
possible. -/
def pathAt : List Char → Option ℕ
  | '/' :: w =>
      (List.range (w.takeWhile isPath).length).reverse.findSome? fun k =>
        (extensionAt (w.drop (k + 1))).map (k + 2 + ·)
  | _ => none

/-- The pattern `\/[^\s:]+\.(cpp|hpp|h|cc):?\d*`. -/
def path : Rule where
  matchAt := pathAt
  replacement := "[internal]".toList

/-! ### Namespaces -/

/-- A match of `\w+::`. -/
def segmentAt (w : List Char) : Option ℕ :=
  let word := w.takeWhile isWord
  if word ≠ [] ∧ "::".toList <+: w.drop word.length then some (word.length + 2) else none

/-- The length of the segments at the start, of which at most so many are counted. -/
def segmentsAt : ℕ → List Char → ℕ
  | 0, _ => 0
  | most + 1, w =>
      match segmentAt w with
      | some n => n + segmentsAt most (w.drop n)
      | none => 0

/-- A match of `(\w+::)+`. -/
def namespaceAt (w : List Char) : Option ℕ :=
  if segmentsAt w.length w = 0 then none else some (segmentsAt w.length w)

/-- The pattern `(\w+::)+`. -/
def namespaces : Rule where
  matchAt := namespaceAt
  replacement := "[class]".toList

/-! ### The function -/

/-- `std::regex_replace` -/
def regexReplace (text : String) (rule : Rule) : String :=
  String.ofList (replace rule 0 text.toList)

def sanitizeErrorMessage (errorMessage : String) (productionMode : Bool) : String :=
  let sanitized := regexReplace errorMessage path
  let sanitized := regexReplace sanitized addr
  let sanitized := if productionMode then regexReplace sanitized namespaces else sanitized
  let sanitized := regexReplace sanitized whatPrefix
  if productionMode then
    let sanitized := regexReplace sanitized home
    regexReplace sanitized system
  else
    sanitized

end Sanitizer

end Agamemnon
