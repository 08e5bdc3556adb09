import Rim.Text.Hex
import Rim.Text.Reading

/-!
# Settings in TOML

The part of TOML that settings without tables are written in: lines of a key and a value, which is a
truth value, a text or a list of texts. Texts have all four of their forms. Anything else is
refused.

* `parse?`: the keys and values of a text, no key twice.
-/

namespace Rim.Toml

open Text (Reading)

/-- A value of a setting. -/
inductive Value
  | flag (b : Bool)
  | text (s : String)
  | texts (items : List String)
deriving DecidableEq

/-- A character that may stand in a comment or a text: no control character but the tab. -/
def isPlain (c : Char) : Bool := c == '\t' || (0x20 ≤ c.toNat && c.toNat != 0x7f)

def tick : Char := '\x27'

def dropSpaces (s : List Char) : List Char := s.dropWhile fun c => c == ' ' || c == '\t'

/-- Whether a line ends here. -/
def atLineEnd : List Char → Bool
  | [] | '\n' :: _ | '\r' :: '\n' :: _ => true
  | _ => false

/-- What follows the spaces, line ends and comments at the front. -/
def dropFiller : (inComment : Bool) → List Char → List Char
  | _, [] => []
  | _, '\n' :: r => dropFiller false r
  | _, '\r' :: '\n' :: r => dropFiller false r
  | false, '#' :: r => dropFiller true r
  | inComment, c :: r =>
    if if inComment then isPlain c else c == ' ' || c == '\t' then dropFiller inComment r
    else c :: r

/-- The character that an escape of one letter stands for. -/
def shortEscape? : Char → Option Char
  | 'b' => some '\x08'
  | 't' => some '\t'
  | 'n' => some '\n'
  | 'f' => some '\x0c'
  | 'r' => some '\r'
  | '"' => some '"'
  | '\\' => some '\\'
  | _ => none

/-- The character whose code point the digits write. -/
def character? (digits : List Char) : Option Char := do
  let n ← digits.foldlM (fun n c => do return n * 16 + (← Text.Hex.value? c)) 0
  if n < 0xd800 ∨ (0xe000 ≤ n ∧ n < 0x110000) then some (Char.ofNat n) else none

/-- The further quotation marks that may stand before the three closing ones. -/
def extraMarks (mark : Char) : List Char → List Char × List Char
  | a :: b :: r =>
    if a = mark then if b = mark then ([a, b], r) else ([a], b :: r) else ([], a :: b :: r)
  | [a] => if a = mark then ([a], []) else ([], [a])
  | [] => ([], [])

/-- Reads the rest of a text with escapes; one of several lines may have line ends, of which those
after a backslash are dropped together with what is blank after them. -/
def escapedBody (lines : Bool) : (dropping : Bool) → Reading (List Char)
  | _, [] => none
  | _, '\\' :: 'u' :: a :: b :: c :: d :: r => do
    let x ← character? [a, b, c, d]
    let (s, r) ← escapedBody lines false r
    return (x :: s, r)
  | _, '\\' :: 'U' :: a :: b :: c :: d :: e :: f :: g :: h :: r => do
    let x ← character? [a, b, c, d, e, f, g, h]
    let (s, r) ← escapedBody lines false r
    return (x :: s, r)
  | _, '\\' :: e :: r =>
    match shortEscape? e with
    | some x => do
      let (s, r) ← escapedBody lines false r
      return (x :: s, r)
    | none =>
      -- a backslash at the end of a line drops the line end and the blanks after it
      if lines ∧ atLineEnd (dropSpaces (e :: r)) then escapedBody lines true (e :: r) else none
  | dropping, '\r' :: '\n' :: r =>
    if !lines then none
    else do
      let (s, r) ← escapedBody lines dropping r
      return (if dropping then s else '\n' :: s, r)
  | dropping, c :: r =>
    if c = '\n' then
      if !lines then none
      else do
        let (s, r) ← escapedBody lines dropping r
        return (if dropping then s else '\n' :: s, r)
    else if dropping && (c == ' ' || c == '\t') then escapedBody lines true r
    else if c = '"' then
      -- one mark ends a text of one line, three end one of several
      match lines, r with
      | false, r => some ([], r)
      | true, '"' :: '"' :: r => some (extraMarks '"' r)
      | true, r => do
        let (s, r) ← escapedBody lines false r
        return (c :: s, r)
    else if c = '\\' ∨ !isPlain c then none
    else do
      let (s, r) ← escapedBody lines false r
      return (c :: s, r)

/-- Reads the rest of a text without escapes; one of several lines may have line ends. -/
def literalBody (lines : Bool) : Reading (List Char)
  | [] => none
  | '\r' :: '\n' :: r => do
    if !lines then none
    let (s, r) ← literalBody lines r
    return ('\n' :: s, r)
  | c :: r =>
    if c = tick then
      if !lines then some ([], r)
      else if r.take 2 = [tick, tick] then some (extraMarks tick (r.drop 2))
      else do
        let (s, r) ← literalBody lines r
        return (c :: s, r)
    else if isPlain c ∨ (lines ∧ c = '\n') then do
      let (s, r) ← literalBody lines r
      return (c :: s, r)
    else none

/-- What follows the line end that may come right after three opening marks. -/
def dropLineEnd : List Char → List Char
  | '\n' :: r => r
  | '\r' :: '\n' :: r => r
  | r => r

def lineText : Reading String
  | c :: r => do
    let (s, r) ←
      if c = '"' then escapedBody false false r
      else if c = tick then literalBody false r
      else none
    return (String.ofList s, r)
  | [] => none

/-- Reads a text. -/
def text : Reading String := fun s => do
  if s.take 3 = ['"', '"', '"'] then
    let (t, r) ← escapedBody true false (dropLineEnd (s.drop 3))
    return (String.ofList t, r)
  else if s.take 3 = [tick, tick, tick] then
    let (t, r) ← literalBody true (dropLineEnd (s.drop 3))
    return (String.ofList t, r)
  else lineText s

/-- Reads texts separated by commas, a last comma being allowed, up to the closing bracket. -/
def texts : (fuel : Nat) → Reading (List String)
  | 0, _ => none
  | fuel + 1, s =>
    match dropFiller false s with
    | ']' :: r => some ([], r)
    | s => do
      let (t, s) ← text s
      match dropFiller false s with
      | ',' :: r =>
        let (ts, r) ← texts fuel r
        return (t :: ts, r)
      | ']' :: r => return ([t], r)
      | _ => none

/-- Reads a value. -/
def value : Reading Value
  | 't' :: 'r' :: 'u' :: 'e' :: r => some (.flag true, r)
  | 'f' :: 'a' :: 'l' :: 's' :: 'e' :: r => some (.flag false, r)
  | '[' :: r => do
    let (ts, r) ← texts (r.length + 1) r
    return (.texts ts, r)
  | s => do
    let (t, r) ← text s
    return (.text t, r)

def isBare (c : Char) : Bool := c.isAlphanum || c == '-' || c == '_'

def key : Reading String := fun s =>
  match s.takeWhile isBare with
  | [] => lineText s
  | k => some (String.ofList k, s.dropWhile isBare)

/-- Reads a key and its value up to the end of the line or a comment. -/
def setting : Reading (String × Value) := fun s => do
  let (k, s) ← key s
  match dropSpaces s with
  | '=' :: r =>
    let (v, r) ← value (dropSpaces r)
    match dropSpaces r with
    | '#' :: r => return ((k, v), '#' :: r)
    | r => if atLineEnd r then return ((k, v), r) else none
  | _ => none

/-- The keys and values of lines, at most so many of them. -/
def settings : (fuel : Nat) → List Char → Option (List (String × Value))
  | 0, _ => none
  | fuel + 1, s =>
    match dropFiller false s with
    | [] => some []
    | s => do
      let (x, r) ← setting s
      return x :: (← settings fuel r)

/-- The keys and values of a text, which may start with a byte order mark. -/
def parse? (text : String) : Option (List (String × Value)) := do
  let s := match text.toList with
    | '\ufeff' :: r => r
    | s => s
  let xs ← settings (s.length + 1) s
  if (xs.map (·.1)).Nodup then some xs else none

end Rim.Toml
