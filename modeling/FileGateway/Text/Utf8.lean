/-!
# UTF-8

Bytes are read as text in two ways: strictly, where a malformed byte spoils the whole, and with
replacement, where every malformed part shows as a replacement character. A malformed part is as
long as it could still have become a character, and at least one byte.
-/

namespace FileGateway.Text

/-- Whether a byte goes on with a character that was begun. -/
def isContinuation (b : UInt8) : Bool :=
  0x80 ≤ b && b ≤ 0xBF

/-- The six bits that a continuation byte carries. -/
def payload (b : UInt8) : Nat :=
  b.toNat % 0x40

/-- Whether the second byte of a character of three or four bytes fits its first one. It does not if
the character could be written shorter, is a surrogate, or is beyond the last code point. -/
def fits (lead second : UInt8) : Bool :=
  if lead = 0xE0 then 0xA0 ≤ second && second ≤ 0xBF
  else if lead = 0xED then 0x80 ≤ second && second ≤ 0x9F
  else if lead = 0xF0 then 0x90 ≤ second && second ≤ 0xBF
  else if lead = 0xF4 then 0x80 ≤ second && second ≤ 0x8F
  else isContinuation second

/-- Reads one character after its first byte: the character, or nothing if it is malformed, and how
many of the following bytes belong to it. -/
def readChar (lead : UInt8) (rest : List UInt8) : Option Char × Nat :=
  if lead < 0x80 then (some (Char.ofNat lead.toNat), 0)
  else if 0xC2 ≤ lead && lead ≤ 0xDF then
    match rest with
    | b :: _ =>
      if isContinuation b then (some (Char.ofNat ((lead.toNat - 0xC0) * 0x40 + payload b)), 1)
      else (none, 0)
    | _ => (none, 0)
  else if 0xE0 ≤ lead && lead ≤ 0xEF then
    match rest with
    | b :: rest =>
      if fits lead b then
        match rest with
        | c :: _ =>
          if isContinuation c then
            (some (Char.ofNat ((lead.toNat - 0xE0) * 0x1000 + payload b * 0x40 + payload c)), 2)
          else (none, 1)
        | _ => (none, 1)
      else (none, 0)
    | _ => (none, 0)
  else if 0xF0 ≤ lead && lead ≤ 0xF4 then
    match rest with
    | b :: rest =>
      if fits lead b then
        match rest with
        | c :: rest =>
          if isContinuation c then
            match rest with
            | d :: _ =>
              if isContinuation d then
                (some (Char.ofNat ((lead.toNat - 0xF0) * 0x40000 + payload b * 0x1000
                  + payload c * 0x40 + payload d)), 3)
              else (none, 2)
            | _ => (none, 2)
          else (none, 1)
        | _ => (none, 1)
      else (none, 0)
    | _ => (none, 0)
  else (none, 0)

/-- The characters of bytes, with nothing for each malformed part. -/
def readChars : List UInt8 → List (Option Char)
  | [] => []
  | lead :: rest => (readChar lead rest).1 :: readChars (rest.drop (readChar lead rest).2)
termination_by bytes => bytes.length
decreasing_by simp only [List.length_drop, List.length_cons]; omega

/-- What stands for a malformed part. -/
def replacement : Char := '\ufffd'

/-- The text of bytes, if nothing in them is malformed. -/
def readUtf8 (bytes : List UInt8) : Option String :=
  ((readChars bytes).mapM id).map String.ofList

/-- The text of bytes, with every malformed part replaced. -/
def readUtf8Lossy (bytes : List UInt8) : String :=
  String.ofList ((readChars bytes).map fun c => c.getD replacement)

/-- The bytes of a text. -/
def writeUtf8 (text : String) : List UInt8 :=
  text.toUTF8.toList

end FileGateway.Text
