/-!
Characters of texts, and what a text is cut along. A cut at single characters keeps every piece,
empty ones too, so that putting the separator back between the pieces gives the text again. A
character is blank when it has Unicode's `White_Space` property; control characters such as U+001F
and the joiners U+200B and U+FEFF are not blank.
-/

namespace HomeControl.Text

def pieces (sep : Char) (s : String) : List String :=
  (s.toList.splitOn sep).map String.ofList

def cutAt? (p : Char → Bool) : List Char → Option (List Char × Char × List Char)
  | [] => none
  | c :: rest =>
    if p c then some ([], c, rest)
    else (cutAt? p rest).map fun (front, sep, back) => (c :: front, sep, back)

def digitValue (c : Char) : Nat :=
  c.toNat - 48

def digitsValue (cs : List Char) : Nat :=
  cs.foldl (fun n c => 10 * n + digitValue c) 0

def natUpTo? (bound : Nat) (cs : List Char) : Option Nat :=
  let digits := match cs with
    | '+' :: rest => rest
    | _ => cs
  if digits.isEmpty || !digits.all Char.isDigit then none
  else
    let n := digitsValue digits
    if n ≤ bound then some n else none

def hexValue? (c : Char) : Option Nat :=
  if c.isDigit then some (digitValue c)
  else if 'a' ≤ c && c ≤ 'f' then some (c.toNat - 87)
  else if 'A' ≤ c && c ≤ 'F' then some (c.toNat - 55)
  else none

def hexDigit (n : Nat) : Char :=
  Char.ofNat (if n < 10 then 48 + n else 87 + n)

def hexByte (b : UInt8) : List Char :=
  [hexDigit (b.toNat / 16), hexDigit (b.toNat % 16)]

def padded (width n : Nat) : String :=
  let digits := Nat.toDigits 10 n
  String.ofList (List.replicate (width - digits.length) '0' ++ digits)

def sameLetters (a b : String) : Bool :=
  a.toLower == b.toLower

def blankRanges : List (Nat × Nat) :=
  [(0x9, 0xd), (0x20, 0x20), (0x85, 0x85), (0xa0, 0xa0), (0x1680, 0x1680), (0x2000, 0x200a),
   (0x2028, 0x2029), (0x202f, 0x202f), (0x205f, 0x205f), (0x3000, 0x3000)]

def isBlank (c : Char) : Bool :=
  blankRanges.any fun r => r.1 ≤ c.toNat && c.toNat ≤ r.2

def dropBlank (cs : List Char) : List Char :=
  cs.dropWhile isBlank

def trimChars (cs : List Char) : List Char :=
  (dropBlank (dropBlank cs).reverse).reverse

def trim (s : String) : String :=
  String.ofList (trimChars s.toList)

theorem length_dropWhile_le {α : Type} (p : α → Bool) (l : List α) :
    (l.dropWhile p).length ≤ l.length :=
  (List.dropWhile_sublist p).length_le

def wordChars (cs : List Char) : List (List Char) :=
  match cs with
  | [] => []
  | c :: rest =>
    if isBlank c then wordChars rest
    else (c :: rest.takeWhile (!isBlank ·)) :: wordChars (rest.dropWhile (!isBlank ·))
  termination_by cs.length
  decreasing_by
    · simp
    · have := length_dropWhile_le (!isBlank ·) rest
      simp only [List.length_cons]
      omega

def words (s : String) : List String :=
  (wordChars s.toList).map String.ofList

end HomeControl.Text
