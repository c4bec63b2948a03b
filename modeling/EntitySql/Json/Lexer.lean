import EntitySql.Decimal.Scaled
import EntitySql.Json.Basic

/-!
# Tokens of JSON text

The text is read one character at a time by a machine that is between two tokens or inside a string,
a number or a word. Each character moves the machine on and completes at most two tokens: a number
or word ends only where the next token begins.
-/

namespace EntitySql.Json

open Decimal (Double Numeral digitsValue)

/-- The smallest unit of JSON text. A string in which half of a pair stands alone has no value. -/
inductive Token where
  | openArray
  | closeArray
  | openObject
  | closeObject
  | comma
  | colon
  | string (value : Option String)
  | plain (value : Json)

/-- Where the machine is. Characters read so far are in reverse order; inside a string there are
none once half of a pair stood alone. -/
inductive Mode where
  /-- Between two tokens. -/
  | between
  /-- Inside a string. -/
  | string (read : Option (List Char))
  /-- Behind a backslash. -/
  | escape (read : Option (List Char))
  /-- Behind `\u`, with the hexadecimal digits so far and, for the second half of a pair, the first
  half. -/
  | code (read : Option (List Char)) (first : Option Nat) (digits : List Nat)
  /-- Behind the first half of a pair, before the backslash of the second. -/
  | pair (read : Option (List Char)) (first : Nat)
  /-- Behind the backslash of the second half of a pair. -/
  | pairEscape (read : Option (List Char)) (first : Nat)
  /-- Inside a number. -/
  | number (read : List Char)
  /-- Inside a word. -/
  | word (read : List Char)

/-- The value of a hexadecimal digit. -/
def hexValue? (c : Char) : Option Nat :=
  if c.isDigit then some (c.toNat - '0'.toNat)
  else if 'a' ≤ c ∧ c ≤ 'f' then some (c.toNat - 'a'.toNat + 10)
  else if 'A' ≤ c ∧ c ≤ 'F' then some (c.toNat - 'A'.toNat + 10)
  else none

/-- The character that a one-letter escape stands for. -/
def escapeValue? : Char → Option Char
  | '"' => some '"'
  | '\\' => some '\\'
  | '/' => some '/'
  | 'b' => some '\x08'
  | 'f' => some '\x0c'
  | 'n' => some '\n'
  | 'r' => some '\r'
  | 't' => some '\t'
  | _ => none

/-- What a code unit of four digits does: it is a plain character or half of a pair. -/
def codeUnit (read : Option (List Char)) (first : Option Nat) (unit : Nat) : Mode :=
  match first with
  | none =>
    if 0xD800 ≤ unit ∧ unit < 0xDC00 then .pair read unit
    else if 0xDC00 ≤ unit ∧ unit < 0xE000 then .string none
    else .string (read.map (Char.ofNat unit :: ·))
  | some high =>
    if 0xDC00 ≤ unit ∧ unit < 0xE000 then
      .string (read.map (Char.ofNat (0x10000 + (high - 0xD800) * 0x400 + (unit - 0xDC00)) :: ·))
    else .string none

/-- The value of a written number. Whole numbers of 64 bits are exact, all others are doubles, and
a number beyond the doubles is unreadable. -/
def number? (chars : List Char) : Option Json := do
  let n ← Numeral.ofText? chars
  guard (n.signed → n.negative)
  guard (!n.whole.isEmpty)
  guard (n.whole.length = 1 ∨ n.whole.head? ≠ some '0')
  guard (n.fraction ≠ some [])
  let whole : Int := if n.negative then -digitsValue n.whole else digitsValue n.whole
  let exact := n.fraction.isNone && n.exponent.isNone && !(n.negative && whole = 0)
  if exact && Int64.minValue.toInt ≤ whole && whole < UInt64.size then
    return .int whole
  else if n.scaled.isFinite then
    return .double n.scaled
  else
    return .unreadable

/-- The value of a word. -/
def word? (chars : List Char) : Option Json :=
  if chars = "null".toList then some .null
  else if chars = "true".toList then some (.bool true)
  else if chars = "false".toList then some (.bool false)
  else none

/-- A character between two tokens. -/
def begin? (c : Char) : Option (Mode × List Token) :=
  match c with
  | ' ' | '\t' | '\n' | '\r' => some (.between, [])
  | '[' => some (.between, [.openArray])
  | ']' => some (.between, [.closeArray])
  | '\x7b' => some (.between, [.openObject])
  | '\x7d' => some (.between, [.closeObject])
  | ',' => some (.between, [.comma])
  | ':' => some (.between, [.colon])
  | '"' => some (.string (some []), [])
  | c =>
    if c.isDigit || c = '-' then some (.number [c], [])
    else if c.isAlpha then some (.word [c], [])
    else none

/-- Whether a character can stand inside a number. -/
def isNumberChar (c : Char) : Bool :=
  c.isDigit || c = '+' || c = '-' || c = '.' || c = 'e' || c = 'E'

/-- A character inside a string. -/
def inString? (read : Option (List Char)) (c : Char) : Option (Mode × List Token) :=
  if c = '"' then some (.between, [.string (read.map fun chars => String.ofList chars.reverse)])
  else if c = '\\' then some (.escape read, [])
  else if c.toNat < 0x20 then none
  else some (.string (read.map (c :: ·)), [])

/-- A character behind a backslash. -/
def inEscape? (read : Option (List Char)) (c : Char) : Option (Mode × List Token) :=
  if c = 'u' then some (.code read none [], [])
  else (escapeValue? c).map fun value => (.string (read.map (value :: ·)), [])

/-- One character moves the machine on; `none` if it cannot stand there. -/
def Mode.next? (mode : Mode) (c : Char) : Option (Mode × List Token) :=
  match mode with
  | .between => begin? c
  | .string read => inString? read c
  | .escape read => inEscape? read c
  | .code read first digits => do
    let digit ← hexValue? c
    let digits := digits ++ [digit]
    if digits.length < 4 then return (.code read first digits, [])
    else return (codeUnit read first (digits.foldl (fun value d => 16 * value + d) 0), [])
  | .pair read first => if c = '\\' then some (.pairEscape read first, []) else inString? none c
  | .pairEscape read first =>
    if c = 'u' then some (.code read (some first) [], []) else inEscape? none c
  | .number read =>
    if isNumberChar c then some (.number (c :: read), [])
    else do
      let value ← number? read.reverse
      let (mode, tokens) ← begin? c
      return (mode, .plain value :: tokens)
  | .word read =>
    if c.isAlpha then some (.word (c :: read), [])
    else do
      let value ← word? read.reverse
      let (mode, tokens) ← begin? c
      return (mode, .plain value :: tokens)

/-- The tokens that the end of the text completes. -/
def Mode.finish? : Mode → Option (List Token)
  | .between => some []
  | .number read => (number? read.reverse).map ([.plain ·])
  | .word read => (word? read.reverse).map ([.plain ·])
  | _ => none

/-- The machine with the tokens completed so far, in reverse order. -/
structure Lexer where
  mode : Mode
  tokens : List Token

/-- One character moves the machine on and adds the tokens it completes. -/
def Lexer.next? (lexer : Lexer) (c : Char) : Option Lexer := do
  let (mode, tokens) ← lexer.mode.next? c
  return ⟨mode, tokens.reverseAux lexer.tokens⟩

/-- The tokens of a text. -/
def tokens? (text : String) : Option (List Token) := do
  let lexer ← text.toList.foldlM Lexer.next? ⟨.between, []⟩
  let last ← lexer.mode.finish?
  return lexer.tokens.reverseAux last

end EntitySql.Json
