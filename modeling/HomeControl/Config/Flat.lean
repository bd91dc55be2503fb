import HomeControl.Config.Scalar.Block
import HomeControl.Config.Scalar.Flow
import HomeControl.Config.Scalar.Tag
import HomeControl.Text
/-!
Texts that are one scalar, and documents that are written as lines of entries, one scalar each. In
front of a scalar there may be directives, the mark of a document, an anchor and a tag; behind it,
marks that close the document. A text that holds anything else, as a list, fields or a second
document, is not read as one.
-/

namespace HomeControl

namespace Scalar

open Text

structure Directives where
  versioned : Bool := false
  handles : Handles := []
  deriving DecidableEq, Repr

def versionPart? (cs : List Char) : Option (Nat × List Char) :=
  let digits := cs.takeWhile Char.isDigit
  if digits.isEmpty || 9 < digits.length then none
  else some (digitsValue digits, cs.dropWhile Char.isDigit)

def handle? : List Char → Option (String × List Char)
  | '!' :: cs =>
    match handleName? cs with
    | some (name, rest) => some ("!" ++ name ++ "!", rest)
    | none => if (cs.head?.map isNameChar).getD false then none else some ("!", cs)
  | _ => none

def Directives.add? (d : Directives) (line : List Char) : Option Directives :=
  let rest := line.dropWhile isNameChar
  let argument := rest.dropWhile isSpace
  if !endsWord rest then none
  else
    match String.ofList (line.takeWhile isNameChar) with
    | "YAML" => do
      let (major, rest) ← versionPart? argument
      match rest with
      | '.' :: rest =>
        let (minor, rest) ← versionPart? rest
        if d.versioned || major != 1 || !(minor == 1 || minor == 2) || !isLineEnd rest then none
        else some { d with versioned := true }
      | _ => none
    | "TAG" => do
      let (handle, rest) ← handle? argument
      let part := rest.dropWhile isSpace
      let (bytes, back) ← tagPart? true part
      if part.length = rest.length || back.length = part.length || !endsWord back ||
          !isLineEnd back || (d.handles.lookup handle).isSome then none
      else some { d with handles := (handle, bytes) :: d.handles }
    | _ => none

/-- The directives in front of a document, which need the mark behind them, and the place where
its content may start. -/
def directives? (d : Option Directives) : Cursor → Option (Directives × Cursor)
  | ⟨'%' :: rest, true, _⟩ => do
    let d ← (d.getD {}).add? (rest.takeWhile (!isBreak ·))
    directives? (some d) (Cursor.skip ⟨(rest.dropWhile (!isBreak ·)).drop 1, true, true⟩)
  | c =>
    if c.lineStart && isWord "---" c.rest then
      some (d.getD {}, (Cursor.behind (c.rest.drop 3)).skip)
    else if d.isSome then none
    else some ({}, c)
  termination_by c => c.rest.length
  decreasing_by
    have shorter := Cursor.length_skip_le ⟨(rest.dropWhile (!isBreak ·)).drop 1, true, true⟩
    have fewer := length_dropWhile_le (!isBreak ·) rest
    simp only [List.length_cons, List.length_drop] at shorter ⊢
    omega

def anchor? (c : Cursor) : Option (Bool × Cursor) :=
  match c.rest with
  | '&' :: cs =>
    let rest := cs.dropWhile isNameChar
    let isClosed := endsWord rest || (rest.head?.map "?:,]\x7d%@\x60".toList.contains).getD false
    if rest.length < cs.length && isClosed then some (true, (Cursor.behind rest).skip) else none
  | _ => some (false, c)

def tagOf? (handles : Handles) (c : Cursor) : Option (Tag × Cursor) :=
  match c.rest with
  | '!' :: cs => do
    let (bytes, rest) ← tag? handles cs
    if endsWord rest then some (.ofBytes bytes, (Cursor.behind rest).skip) else none
  | _ => some (.plain, c)

def properties? (handles : Handles) (c : Cursor) : Option (Tag × Cursor) := do
  let (anchored, c) ← anchor? c
  let (tag, c) ← tagOf? handles c
  let (_, c) ← if anchored then some (true, c) else anchor? c
  some (tag, c)

def content? (c : Cursor) : Option (Content × Cursor) :=
  if c.rest.isEmpty || (c.lineStart && (isMark c.rest || c.rest.head? == some '%')) then
    some (⟨"", true⟩, c)
  else
    match c.rest with
    | '|' :: rest => (block? true rest).map fun (cs, c) => (⟨String.ofList cs, false⟩, c)
    | '>' :: rest => (block? false rest).map fun (cs, c) => (⟨String.ofList cs, false⟩, c)
    | '\'' :: rest =>
      (singleRest? {} rest).map fun (cs, rest) => (⟨String.ofList cs, false⟩, .behind rest)
    | '"' :: rest =>
      (doubleRest? (.gap {}) rest).map fun (cs, rest) => (⟨String.ofList cs, false⟩, .behind rest)
    | rest =>
      if startsPlain rest then
        let (cs, c) := plainRest {} rest
        some (⟨String.ofList cs, true⟩, c)
      else none

def isOver : Cursor → Bool
  | ⟨[], _, _⟩ => true
  | ⟨c :: rest, lineStart, _⟩ =>
    lineStart && isWord "..." (c :: rest) && isOver (Cursor.behind (rest.drop 2)).skip
  termination_by c => c.rest.length
  decreasing_by
    have shorter := Cursor.length_skip_le (.behind (rest.drop 2))
    simp only [Cursor.behind, List.length_cons, List.length_drop] at shorter ⊢
    omega

def read? (s : String) : Option Document := do
  let cs := s.toList
  if !cs.all isAllowed then none
  let (directives, c) ← directives? none (Cursor.skip ⟨unified cs, true, false⟩)
  let (tag, c) ← properties? (directives.handles ++ commonHandles) c
  let (content, c) ← content? c
  let document ← tag.document? content
  if isOver c.skip then some document else none

end Scalar

namespace Document

open Text

def entry? (line : List Char) : Option (String × Document) := do
  let (key, _, rest) ← cutAt? (· == ':') line
  if !Scalar.endsWord rest then none
  some (String.ofList (trimChars key), ← Scalar.read? (String.ofList rest))

/-- A text of lines that each hold one entry, with comments and the mark `---` between them. A
text without entries is the null document; texts of another shape are not read. -/
def ofText? (s : String) : Option Document := do
  if !s.toList.all Scalar.isAllowed then none
  let lines := ((Scalar.unified s.toList).splitOnP Scalar.isBreak).filter fun line =>
    match dropBlank line with
    | [] => false
    | '#' :: _ => false
    | cs => trimChars cs != "---".toList
  match lines with
  | [] => some null
  | _ => (lines.mapM entry?).map map

end Document

end HomeControl
