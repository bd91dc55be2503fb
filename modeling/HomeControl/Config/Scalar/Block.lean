import HomeControl.Config.Scalar.Source
import HomeControl.Text
/-!
Scalars that are written as a block of indented lines. A literal block (`|`) keeps its line ends;
in a folded one (`>`) a line end between two lines that do not start with a blank becomes a blank,
and is left out where empty lines follow it.
-/

namespace HomeControl.Scalar

open Text

/-- What becomes of the line ends behind the last line: `strip` drops all of them, `clip` keeps
the first, and `keep` all. -/
inductive Chomp where
  | strip
  | clip
  | keep
  deriving DecidableEq, Repr

structure BlockStyle where
  literal : Bool
  chomp : Chomp := .clip
  indent : Option Nat := none
  deriving DecidableEq, Repr

structure Line where
  body : List Char
  ending : Option Char
  deriving DecidableEq, Repr

def Line.chars (l : Line) : List Char :=
  l.body ++ l.ending.toList

def linesOf : List Char → List Line
  | [] => []
  | c :: rest =>
    if isBreak c then ⟨[], some c⟩ :: linesOf rest
    else
      match linesOf rest with
      | [] => [⟨[c], none⟩]
      | l :: more => { l with body := c :: l.body } :: more

def leadingSpaces (cs : List Char) : Nat :=
  (cs.takeWhile (· == ' ')).length

/-- The indentation of a block by its lines: that of the first line with a word, or of a longer
blank line in front of it. No tab may be in front of that word. -/
def indentOf? (least : Nat) : List Line → Option Nat
  | [] => some least
  | l :: rest =>
    let spaces := leadingSpaces l.body
    let indent := max least spaces
    match l.body.drop spaces with
    | [] => indentOf? indent rest
    | '\t' :: _ => none
    | _ => some indent

structure LastLine where
  blank : Bool := false
  ending : List Char := []
  empty : List Char := []
  deriving DecidableEq, Repr

def LastLine.joint (l : LastLine) (literal blank : Bool) : List Char :=
  if !literal && l.ending == ['\n'] && !l.blank && !blank then
    if l.empty.isEmpty then [' '] else l.empty
  else l.ending ++ l.empty

def LastLine.chomped (l : LastLine) : Chomp → List Char
  | .strip => []
  | .clip => l.ending
  | .keep => l.ending ++ l.empty

/-- The text of a block, and the place behind it. The block ends in front of a line with a word
that is indented less. -/
def blockText? (style : BlockStyle) (indent : Nat) (last : LastLine) :
    List Line → Option (List Char × Cursor)
  | [] => some (last.chomped style.chomp, ⟨[], true, false⟩)
  | l :: rest =>
    let spaces := min indent (leadingSpaces l.body)
    match l.body.drop spaces with
    | [] =>
      blockText? style indent { last with empty := last.empty ++ l.ending.toList } rest
    | c :: word =>
      if spaces < indent then
        if c == '\t' then none
        else
          some (last.chomped style.chomp,
            ⟨c :: word ++ l.ending.toList ++ rest.flatMap Line.chars, spaces == 0, false⟩)
      else
        (blockText? style indent ⟨isSpace c, l.ending.toList, []⟩ rest).map fun (more, back) =>
          (last.joint style.literal (isSpace c) ++ c :: word ++ more, back)

def chomp? : List Char → Option (Chomp × List Char)
  | '-' :: rest => some (.strip, rest)
  | '+' :: rest => some (.keep, rest)
  | _ => none

def indent? : List Char → Option (Nat × List Char)
  | c :: rest => if c.isDigit && c != '0' then some (digitValue c, rest) else none
  | [] => none

def blockStyle (literal : Bool) (cs : List Char) : BlockStyle × List Char :=
  match chomp? cs with
  | some (chomp, rest) =>
    match indent? rest with
    | some (indent, rest) => (⟨literal, chomp, some indent⟩, rest)
    | none => (⟨literal, chomp, none⟩, rest)
  | none =>
    match indent? cs with
    | none => (⟨literal, .clip, none⟩, cs)
    | some (indent, rest) =>
      match chomp? rest with
      | some (chomp, rest) => (⟨literal, chomp, some indent⟩, rest)
      | none => (⟨literal, .clip, some indent⟩, rest)

def isLineEnd (cs : List Char) : Bool :=
  match cs.dropWhile isSpace with
  | [] => true
  | c :: _ => c == '#'

def block? (literal : Bool) (cs : List Char) : Option (List Char × Cursor) :=
  match linesOf cs with
  | [] => some ([], ⟨[], true, false⟩)
  | head :: lines => do
    let (style, rest) := blockStyle literal head.body
    if !isLineEnd rest then none
    let indent ← match style.indent with
      | some n => some n
      | none => indentOf? 1 lines
    blockText? style indent {} lines

end HomeControl.Scalar
