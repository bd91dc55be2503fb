/-!
The text that a scalar is read from. Lines end in a newline or in one of the separators U+2028 and
U+2029; within a line, words are set apart by spaces and tabs. Three hyphens at the start of a
line, as a word of their own, open a document, and three points close it.
-/

namespace HomeControl.Scalar

def isAllowed (c : Char) : Bool :=
  c == '\t' || c == '\n' || c == '\r' || (0x20 ≤ c.toNat && c.toNat ≤ 0x7e) || c == '\x85' ||
    (0xa0 ≤ c.toNat && c != '\ufffe' && c != '\uffff')

def unified : List Char → List Char
  | [] => []
  | '\r' :: '\n' :: rest => '\n' :: unified rest
  | c :: rest => (if c == '\r' || c == '\x85' then '\n' else c) :: unified rest

def isBreak (c : Char) : Bool :=
  c == '\n' || c == '\u2028' || c == '\u2029'

def isSpace (c : Char) : Bool :=
  c == ' ' || c == '\t'

def isGap (c : Char) : Bool :=
  isSpace c || isBreak c

def endsWord : List Char → Bool
  | [] => true
  | c :: _ => isGap c

def isWord (word : String) (cs : List Char) : Bool :=
  word.toList.isPrefixOf cs && endsWord (cs.drop word.length)

def isMark (cs : List Char) : Bool :=
  isWord "---" cs || isWord "..." cs

/-- A place between the parts of a text: whether nothing of its line is in front of it, and whether
tabs may stand there. -/
structure Cursor where
  rest : List Char
  lineStart : Bool
  tabs : Bool
  deriving DecidableEq, Repr

def byteOrderMark : Char := '\ufeff'

/-- Goes on to the next part, behind blanks, comments and line ends. Inside of a comment all up to
the end of the line is skipped. Tabs are skipped only where they may stand, which is never after
the end of a line, and a byte order mark only at its start. -/
def Cursor.skipFrom (comment lineStart tabs : Bool) : List Char → Cursor
  | [] => ⟨[], lineStart, tabs⟩
  | c :: rest =>
    if isBreak c then skipFrom false true false rest
    else if comment || c == '#' then skipFrom true false tabs rest
    else if c == ' ' || (tabs && c == '\t') || (lineStart && c == byteOrderMark) then
      skipFrom false false tabs rest
    else ⟨c :: rest, lineStart, tabs⟩

def Cursor.skip (c : Cursor) : Cursor :=
  skipFrom false c.lineStart c.tabs c.rest

theorem Cursor.length_skipFrom_le (comment lineStart tabs : Bool) (cs : List Char) :
    (skipFrom comment lineStart tabs cs).rest.length ≤ cs.length := by
  fun_induction skipFrom comment lineStart tabs cs <;> grind

theorem Cursor.length_skip_le (c : Cursor) : c.skip.rest.length ≤ c.rest.length :=
  length_skipFrom_le ..

def Cursor.behind (rest : List Char) : Cursor :=
  ⟨rest, false, true⟩

end HomeControl.Scalar
