import HomeControl.Config.Scalar.Source
import HomeControl.Text
/-!
Scalars whose lines are folded: plain ones and those in quotes. Between two words blanks are kept;
a line end, with the blanks around it, becomes one blank, and each empty line a newline.
-/

namespace HomeControl.Scalar

open Text

/-- What stands between two words of a scalar. In quotes, a backslash in front of a line end joins
the lines. -/
structure Gap where
  chars : List Char := []
  joined : Bool := false
  deriving DecidableEq, Repr

namespace Gap

def breaks (g : Gap) : List Char :=
  g.chars.filter isBreak

def isLineStart (g : Gap) : Bool :=
  (g.chars.getLast?.map isBreak).getD g.joined

def folded (g : Gap) : List Char :=
  if g.joined then g.breaks
  else
    match g.breaks with
    | [] => g.chars
    | ['\n'] => [' ']
    | '\n' :: more => more
    | breaks => breaks

def push (g : Gap) (c : Char) : Gap :=
  { g with chars := g.chars ++ [c] }

end Gap

def startsPlain : List Char → Bool
  | [] => false
  | c :: rest =>
    if c == '-' || c == '?' || c == ':' then !endsWord rest
    else !isGap c && !",[]\x7b\x7d#&*!|>'\"%@\x60".toList.contains c

def endsPlain (g : Gap) (cs : List Char) : Bool :=
  match cs with
  | [] => true
  | ':' :: rest => endsWord rest
  | '#' :: _ => !g.chars.isEmpty
  | _ => g.isLineStart && isMark cs

def plainRest (g : Gap) : List Char → List Char × Cursor
  | [] => ([], ⟨[], g.isLineStart, g.breaks.isEmpty⟩)
  | c :: rest =>
    if isGap c then plainRest (g.push c) rest
    else if endsPlain g (c :: rest) then ([], ⟨c :: rest, g.isLineStart, g.breaks.isEmpty⟩)
    else
      let (more, back) := plainRest {} rest
      (g.folded ++ c :: more, back)

def singleRest? (g : Gap) : List Char → Option (List Char × List Char)
  | [] => none
  | '\'' :: '\'' :: rest =>
    (singleRest? {} rest).map fun (more, back) => (g.folded ++ '\'' :: more, back)
  | '\'' :: rest => some (g.folded, rest)
  | c :: rest =>
    if isGap c then singleRest? (g.push c) rest
    else if g.isLineStart && isMark (c :: rest) then none
    else (singleRest? {} rest).map fun (more, back) => (g.folded ++ c :: more, back)

def escape? : Char → Option Char
  | '0' => some '\x00'
  | 'a' => some '\x07'
  | 'b' => some '\x08'
  | 't' => some '\t'
  | '\t' => some '\t'
  | 'n' => some '\n'
  | 'v' => some '\x0b'
  | 'f' => some '\x0c'
  | 'r' => some '\r'
  | 'e' => some '\x1b'
  | ' ' => some ' '
  | '"' => some '"'
  | '/' => some '/'
  | '\\' => some '\\'
  | 'N' => some '\x85'
  | '_' => some '\xa0'
  | 'L' => some '\u2028'
  | 'P' => some '\u2029'
  | _ => none

def codeLength? : Char → Option Nat
  | 'x' => some 2
  | 'u' => some 4
  | 'U' => some 8
  | _ => none

def charOfCode? (n : Nat) : Option Char :=
  if n.isValidChar then some (Char.ofNat n) else none

/-- Where the reading of a text in double quotes is: behind a gap, behind a backslash, or inside
of a number with a count of digits to come. -/
inductive Quoting where
  | gap (g : Gap)
  | escape
  | code (left value : Nat)
  deriving DecidableEq, Repr

def doubleRest? (q : Quoting) : List Char → Option (List Char × List Char)
  | [] => none
  | c :: rest =>
    match q with
    | .gap g =>
      if isGap c then doubleRest? (.gap (g.push c)) rest
      else if g.isLineStart && isMark (c :: rest) then none
      else if c == '"' then some (g.folded, rest)
      else if c == '\\' then
        (doubleRest? .escape rest).map fun (more, back) => (g.folded ++ more, back)
      else (doubleRest? (.gap {}) rest).map fun (more, back) => (g.folded ++ c :: more, back)
    | .escape =>
      if isBreak c then doubleRest? (.gap ⟨[], true⟩) rest
      else
        match escape? c, codeLength? c with
        | some d, _ => (doubleRest? (.gap {}) rest).map fun (more, back) => (d :: more, back)
        | none, some left => doubleRest? (.code left 0) rest
        | none, none => none
    | .code left value =>
      match hexValue? c with
      | none => none
      | some digit =>
        let value := value * 16 + digit
        if left ≤ 1 then
          match charOfCode? value with
          | some d => (doubleRest? (.gap {}) rest).map fun (more, back) => (d :: more, back)
          | none => none
        else doubleRest? (.code (left - 1) value) rest

end HomeControl.Scalar
