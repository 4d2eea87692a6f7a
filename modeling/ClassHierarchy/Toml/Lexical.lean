import ClassHierarchy.Toml.Basic

namespace ClassHierarchy.Toml

def isBlank (c : Char) : Bool := c = ' ' || c = '\t'

def skipBlanks (cs : List Char) : List Char := cs.dropWhile isBlank

def isPlain (c : Char) : Bool := c = '\t' || 0x20 ≤ c.toNat && c.toNat ≠ 0x7F

def lineBreak? : List Char → Option (List Char)
  | '\n' :: rest => some rest
  | '\r' :: '\n' :: rest => some rest
  | _ => none

def lineEnd? (cs : List Char) : Option (List Char) :=
  let rest := match skipBlanks cs with
    | '#' :: comment => comment.dropWhile isPlain
    | rest => rest
  if rest = [] then some [] else lineBreak? rest

def skipLines : Nat → List Char → List Char
  | 0, cs => cs
  | n + 1, cs =>
    match skipBlanks cs with
    | '#' :: comment => skipLines n (comment.dropWhile isPlain)
    | rest =>
      match lineBreak? rest with
      | some rest => skipLines n rest
      | none => rest

def hexValue? (c : Char) : Option Nat :=
  if c.isDigit then some (c.toNat - '0'.toNat)
  else if 'a' ≤ c && c ≤ 'f' then some (c.toNat - 'a'.toNat + 10)
  else if 'A' ≤ c && c ≤ 'F' then some (c.toNat - 'A'.toNat + 10)
  else none

def codePoint? (digits : List Char) : Option Char := do
  let values ← digits.mapM hexValue?
  let n := values.foldl (16 * · + ·) 0
  if n.isValidChar then some (Char.ofNat n) else none

def escape? : List Char → Option (Char × List Char)
  | 'b' :: rest => some ('\x08', rest)
  | 't' :: rest => some ('\t', rest)
  | 'n' :: rest => some ('\n', rest)
  | 'f' :: rest => some ('\x0c', rest)
  | 'r' :: rest => some ('\r', rest)
  | '"' :: rest => some ('"', rest)
  | '\\' :: rest => some ('\\', rest)
  | 'u' :: a :: b :: c :: d :: rest => do return (← codePoint? [a, b, c, d], rest)
  | 'U' :: a :: b :: c :: d :: e :: f :: g :: h :: rest => do
    return (← codePoint? [a, b, c, d, e, f, g, h], rest)
  | _ => none

def basicString : Nat → List Char → Option (List Char × List Char)
  | 0, _ => none
  | _ + 1, [] => none
  | _ + 1, '"' :: rest => some ([], rest)
  | n + 1, '\\' :: rest => do
    let (c, rest) ← escape? rest
    let (s, rest) ← basicString n rest
    return (c :: s, rest)
  | n + 1, c :: rest =>
    if isPlain c then do
      let (s, rest) ← basicString n rest
      return (c :: s, rest)
    else none

def literalString : List Char → Option (List Char × List Char)
  | [] => none
  | '\'' :: rest => some ([], rest)
  | c :: rest =>
    if isPlain c then do
      let (s, rest) ← literalString rest
      return (c :: s, rest)
    else none

def closing? (quote : Char) (cs : List Char) : Option (List Char × List Char) :=
  let run := cs.takeWhile (· = quote)
  if 3 ≤ run.length ∧ run.length ≤ 5 then
    some (run.drop 3, cs.drop run.length)
  else none

def skipSpace : List Char → List Char
  | '\r' :: '\n' :: rest => skipSpace rest
  | c :: rest => if isBlank c || c = '\n' then skipSpace rest else c :: rest
  | [] => []

def joinedLine? (afterBackslash : List Char) : Option (List Char) :=
  (lineBreak? (skipBlanks afterBackslash)).map skipSpace

def basicLines : Nat → List Char → Option (List Char × List Char)
  | 0, _ => none
  | _ + 1, [] => none
  | n + 1, '"' :: rest =>
    match rest with
    | '"' :: '"' :: _ => closing? '"' ('"' :: rest)
    | _ => do
      let (s, rest) ← basicLines n rest
      return ('"' :: s, rest)
  | n + 1, '\\' :: rest =>
    match joinedLine? rest with
    | some rest => basicLines n rest
    | none => do
      let (c, rest) ← escape? rest
      let (s, rest) ← basicLines n rest
      return (c :: s, rest)
  | n + 1, '\r' :: rest =>
    match rest with
    | '\n' :: rest => do
      let (s, rest) ← basicLines n rest
      return ('\n' :: s, rest)
    | _ => none
  | n + 1, c :: rest =>
    if isPlain c || c = '\n' then do
      let (s, rest) ← basicLines n rest
      return (c :: s, rest)
    else none

def literalLines : List Char → Option (List Char × List Char)
  | [] => none
  | '\'' :: rest =>
    match rest with
    | '\'' :: '\'' :: _ => closing? '\'' ('\'' :: rest)
    | _ => do
      let (s, rest) ← literalLines rest
      return ('\'' :: s, rest)
  | '\r' :: '\n' :: rest => do
    let (s, rest) ← literalLines rest
    return ('\n' :: s, rest)
  | c :: rest =>
    if isPlain c || c = '\n' then do
      let (s, rest) ← literalLines rest
      return (c :: s, rest)
    else none

def skipFirstBreak (cs : List Char) : List Char := (lineBreak? cs).getD cs

def anyString (cs : List Char) : Option (List Char × List Char) :=
  match cs with
  | '"' :: '"' :: '"' :: rest => basicLines (rest.length + 1) (skipFirstBreak rest)
  | '\'' :: '\'' :: '\'' :: rest => literalLines (skipFirstBreak rest)
  | '"' :: rest => basicString (rest.length + 1) rest
  | '\'' :: rest => literalString rest
  | _ => none

def simpleKey (cs : List Char) : Option (String × List Char) :=
  match cs with
  | '"' :: rest => (basicString (rest.length + 1) rest).map fun (s, rest) => (String.ofList s, rest)
  | '\'' :: rest => (literalString rest).map fun (s, rest) => (String.ofList s, rest)
  | _ =>
    match cs.takeWhile isBare with
    | [] => none
    | key => some (String.ofList key, cs.dropWhile isBare)

def depthLimit : Nat := 80

def dottedKey : Nat → List Char → Option (List String × List Char)
  | 0, _ => none
  | n + 1, cs => do
    let (key, rest) ← simpleKey (skipBlanks cs)
    match skipBlanks rest with
    | '.' :: rest =>
      let (keys, rest) ← dottedKey n rest
      return (key :: keys, rest)
    | rest => return ([key], rest)

def key (cs : List Char) : Option ((List String × String) × List Char) := do
  let (keys, rest) ← dottedKey (depthLimit - 1) cs
  let last ← keys.getLast?
  return ((keys.dropLast, last), rest)

def digit2? (a b : Char) : Option Nat :=
  if a.isDigit && b.isDigit then some (10 * (a.toNat - '0'.toNat) + (b.toNat - '0'.toNat)) else none

def daysInMonth (year month : Nat) : Nat :=
  if month = 2 then if year % 4 = 0 ∧ (year % 100 ≠ 0 ∨ year % 400 = 0) then 29 else 28
  else if month ∈ [4, 6, 9, 11] then 30
  else 31

def date? : List Char → Option (List Char)
  | a :: b :: c :: d :: '-' :: e :: f :: '-' :: g :: h :: rest => do
    let year := 100 * (← digit2? a b) + (← digit2? c d)
    let month ← digit2? e f
    let day ← digit2? g h
    if 1 ≤ month ∧ month ≤ 12 ∧ 1 ≤ day ∧ day ≤ daysInMonth year month then some rest else none
  | _ => none

def skipFraction : List Char → List Char
  | '.' :: d :: rest => if d.isDigit then rest.dropWhile Char.isDigit else '.' :: d :: rest
  | cs => cs

def time? : List Char → Option (List Char)
  | a :: b :: ':' :: c :: d :: ':' :: e :: f :: rest => do
    let hour ← digit2? a b
    let minute ← digit2? c d
    let second ← digit2? e f
    if hour ≤ 23 ∧ minute ≤ 59 ∧ second ≤ 60 then some (skipFraction rest) else none
  | _ => none

def skipOffset (cs : List Char) : List Char :=
  match cs with
  | 'Z' :: rest => rest
  | 'z' :: rest => rest
  | sign :: a :: b :: ':' :: c :: d :: rest =>
    match digit2? a b, digit2? c d with
    | some hour, some minute =>
      if (sign = '+' ∨ sign = '-') ∧ hour ≤ 23 ∧ minute ≤ 59 then rest else cs
    | _, _ => cs
  | _ => cs

def dateTime? (cs : List Char) : Option (List Char) :=
  match date? cs with
  | none => time? cs
  | some rest =>
    match rest with
    | d :: timed =>
      if d = 'T' ∨ d = 't' ∨ d = ' ' then (time? timed).elim (some rest) (some ∘ skipOffset)
      else some rest
    | [] => some []

def digits (isDigit : Char → Bool) : List Char → Option (List Char × List Char)
  | [] => none
  | d :: rest => if isDigit d then some (go d rest) else none
where
  go (d : Char) : List Char → List Char × List Char
    | [] => ([d], [])
    | '_' :: e :: rest =>
      if isDigit e then let (ds, rest) := go e rest; (d :: ds, rest) else ([d], '_' :: e :: rest)
    | e :: rest =>
      if isDigit e then let (ds, rest) := go e rest; (d :: ds, rest) else ([d], e :: rest)

def valueOf (base : Nat) (ds : List Char) : Nat :=
  ds.foldl (fun n d => base * n + (hexValue? d).getD 0) 0

def sign : List Char → Bool × List Char
  | '+' :: rest => (false, rest)
  | '-' :: rest => (true, rest)
  | cs => (false, cs)

def wholePart (cs : List Char) : Option (List Char × List Char) :=
  match cs with
  | '0' :: rest => some (['0'], rest)
  | _ => digits Char.isDigit cs

def exponent? : List Char → Option (Int × List Char)
  | e :: rest =>
    if e = 'e' ∨ e = 'E' then do
      let (negative, rest) := sign rest
      let (ds, rest) ← digits Char.isDigit rest
      return (if negative then -(valueOf 10 ds : Int) else valueOf 10 ds, rest)
    else none
  | [] => none

def fraction? : List Char → Option (List Char × List Char)
  | '.' :: rest => digits Char.isDigit rest
  | _ => none

def decimal? (cs : List Char) : Option (Binary64 × List Char) := do
  let (negative, rest) := sign cs
  let (whole, rest) ← wholePart rest
  let (fraction, rest, scaled) := match fraction? rest with
    | some (ds, rest) => (ds, rest, true)
    | none => ([], rest, false)
  let (exponent, rest, scaled) := match exponent? rest with
    | some (e, rest) => (e, rest, true)
    | none => (0, rest, scaled)
  if !scaled then none
  else
    match Binary64.ofDecimal negative (valueOf 10 (whole ++ fraction)) (exponent - fraction.length) with
    | .infinite false => none
    | x => some (x, rest)

def special? (cs : List Char) : Option (Binary64 × List Char) :=
  let (negative, rest) := sign cs
  match rest with
  | 'i' :: 'n' :: 'f' :: rest => some (.infinite negative, rest)
  | 'n' :: 'a' :: 'n' :: rest => some (.nan, rest)
  | _ => none

def float? (cs : List Char) : Option (Binary64 × List Char) := decimal? cs <|> special? cs

def inRange (n : Int) : Bool := Int64.minValue.toInt ≤ n && n ≤ Int64.maxValue.toInt

def integer? (cs : List Char) : Option (Int × List Char) := do
  let (n, rest) : Int × List Char ← match cs with
    | '0' :: 'x' :: rest =>
      (digits (fun c => (hexValue? c).isSome) rest).map fun (ds, rest) => ((valueOf 16 ds : Int), rest)
    | '0' :: 'o' :: rest =>
      (digits (fun c => '0' ≤ c && c ≤ '7') rest).map fun (ds, rest) => ((valueOf 8 ds : Int), rest)
    | '0' :: 'b' :: rest =>
      (digits (fun c => c = '0' || c = '1') rest).map fun (ds, rest) => ((valueOf 2 ds : Int), rest)
    | _ =>
      let (negative, rest) := sign cs
      (wholePart rest).map fun (ds, rest) =>
        ((if negative then -(valueOf 10 ds : Int) else valueOf 10 ds), rest)
  if inRange n then some (n, rest) else none

def scalar (cs : List Char) : Option (Toml × List Char) :=
  match cs with
  | 't' :: 'r' :: 'u' :: 'e' :: rest => some (.boolean true, rest)
  | 'f' :: 'a' :: 'l' :: 's' :: 'e' :: rest => some (.boolean false, rest)
  | _ =>
    match anyString cs with
    | some (s, rest) => some (.string (String.ofList s), rest)
    | none =>
      match dateTime? cs with
      | some rest => some (.dateTime (String.ofList (cs.take (cs.length - rest.length))), rest)
      | none =>
        match float? cs with
        | some (x, rest) => some (.float x, rest)
        | none => (integer? cs).map fun (n, rest) => (.integer n, rest)

end ClassHierarchy.Toml
