import PieceReplication.Encoding.Hex
import PieceReplication.Text.Pattern.Basic

/-!
# Signs of pattern texts

A sign is a character of a pattern's text, or what a backslash makes of the characters behind it. A
backslash takes a mark for the character itself, writes a character by its code point in two, four
or eight hexadecimal digits, and makes some letters stand for a class of characters or a property
of a gap.
-/

namespace PieceReplication.Pattern

/-- A sign of a pattern's text. -/
inductive Sign where
  /-- A character that may be a mark. -/
  | plain (c : Char)
  /-- A character that stands for itself. -/
  | literal (c : Char)
  /-- A class of characters. -/
  | charClass (set : CharSet)
  /-- A class of characters that only a pattern for code points may name. -/
  | category (set : CharSet)
  | anchor (property : Anchor)
  deriving DecidableEq

namespace Sign

/-- The character with a code point that is given in hexadecimal digits. -/
def ofDigits? (digits : List Char) : Option Char := do
  let values ← digits.mapM Hex.digitValue?
  let code := values.foldl (fun sum value => 16 * sum + value) 0
  if code.isValidChar then some (Char.ofNat code) else none

/-- The class of a general category. -/
def category? (letter : Char) : Option CharSet :=
  match letter.toLower with
  | 'l' => some .letter
  | 'm' => some .empty
  | 'n' => some .digit
  | 'p' => some (.difference .sign .symbol)
  | 's' => some .symbol
  | 'z' => some (.single ' ')
  | 'c' => some .control
  | _ => none

/-- The sign that a backslash makes of one character. -/
def escaped? (c : Char) : Option Sign :=
  match c with
  | 'd' => some (charClass .digit)
  | 'D' => some (charClass (.complement .digit))
  | 'w' => some (charClass .word)
  | 'W' => some (charClass (.complement .word))
  | 's' => some (charClass .space)
  | 'S' => some (charClass (.complement .space))
  | 'a' => some (literal '\x07')
  | 't' => some (literal '\t')
  | 'n' => some (literal '\n')
  | 'v' => some (literal '\x0b')
  | 'f' => some (literal '\x0c')
  | 'r' => some (literal '\r')
  | 'A' => some (anchor .start)
  | 'z' => some (anchor .finish)
  | 'b' => some (anchor .wordEdge)
  | 'B' => some (anchor .noWordEdge)
  | '<' => some (anchor .wordStart)
  | '>' => some (anchor .wordEnd)
  | c => if c.toNat < 0x80 && !c.isAlphanum then some (literal c) else none

/-- The signs of a text. -/
def ofChars? : List Char → Option (List Sign)
  | [] => some []
  | '\\' :: 'x' :: a :: b :: rest => do
    let c ← ofDigits? [a, b]
    return literal c :: (← ofChars? rest)
  | '\\' :: 'u' :: a :: b :: c :: d :: rest => do
    let c ← ofDigits? [a, b, c, d]
    return literal c :: (← ofChars? rest)
  | '\\' :: 'U' :: a :: b :: c :: d :: e :: f :: g :: h :: rest => do
    let c ← ofDigits? [a, b, c, d, e, f, g, h]
    return literal c :: (← ofChars? rest)
  | '\\' :: 'p' :: letter :: rest => do
    let set ← category? letter
    return category set :: (← ofChars? rest)
  | '\\' :: 'P' :: letter :: rest => do
    let set ← category? letter
    return category (.complement set) :: (← ofChars? rest)
  | ['\\'] => none
  | '\\' :: c :: rest => do
    let sign ← escaped? c
    return sign :: (← ofChars? rest)
  | c :: rest => (ofChars? rest).map (plain c :: ·)

/-- The character that a sign stands for in a set. -/
def char? : Sign → Option Char
  | plain c | literal c => some c
  | _ => none

/-- The characters that a sign stands for in a set. -/
def members? (forCodePoints : Bool) : Sign → Option CharSet
  | plain c | literal c => some (.single c)
  | charClass set => some set
  | category set => if forCodePoints then some set else none
  | anchor _ => none

/-- The characters before the first one that ends them, and that one; nothing if there is none or
if a sign before it is no plain character. -/
def before? (isEnd : Char → Bool) : List Sign → Option (List Char × Char)
  | [] => none
  | plain c :: rest =>
    if isEnd c then some ([], c)
    else (before? isEnd rest).map fun (chars, mark) => (c :: chars, mark)
  | _ => none

end Sign

end PieceReplication.Pattern
