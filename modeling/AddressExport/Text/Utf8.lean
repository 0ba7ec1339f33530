/-!
# Decoding bytes

Output of other programs is read as UTF-8 whatever it holds: a sequence that breaks off, or that no
character has, is read as one replacement character for its longest beginning that some character
has.
-/

namespace AddressExport.Text

/-- U+FFFD, which stands for bytes that are no text. -/
def replacement : Char := '\ufffd'

/-- Whether a byte continues a character. -/
def isContinuation (b : UInt8) : Bool := 0x80 ≤ b && b ≤ 0xbf

/-- Whether `b` may follow the first byte `lead` of a character of three or four bytes: this leaves
out spellings that are too long, surrogates and numbers past the last character. -/
def isSecond (lead b : UInt8) : Bool :=
  (if lead == 0xe0 then 0xa0 ≤ b else if lead == 0xf0 then 0x90 ≤ b else 0x80 ≤ b) &&
    (if lead == 0xed then b ≤ 0x9f else if lead == 0xf4 then b ≤ 0x8f else b ≤ 0xbf)

/-- The six bits that a continuation byte carries. -/
def low (b : UInt8) : Nat := b.toNat % 64

/-- Reads bytes as UTF-8, with the replacement character where they are no text. -/
def decodeLossy : List UInt8 → List Char
  | [] => []
  | a :: r =>
    if a < 0x80 then Char.ofNat a.toNat :: decodeLossy r
    else if 0xc2 ≤ a && a ≤ 0xdf then
      match r with
      | b :: r' =>
        if isContinuation b then
          Char.ofNat (a.toNat % 32 * 64 + low b) :: decodeLossy r'
        else replacement :: decodeLossy (b :: r')
      | [] => [replacement]
    else if 0xe0 ≤ a && a ≤ 0xef then
      match r with
      | [] => [replacement]
      | b :: r' =>
        if isSecond a b then
          match r' with
          | [] => [replacement]
          | c :: r'' =>
            if isContinuation c then
              Char.ofNat ((a.toNat % 16 * 64 + low b) * 64 + low c) :: decodeLossy r''
            else replacement :: decodeLossy (c :: r'')
        else replacement :: decodeLossy (b :: r')
    else if 0xf0 ≤ a && a ≤ 0xf4 then
      match r with
      | [] => [replacement]
      | b :: r' =>
        if isSecond a b then
          match r' with
          | [] => [replacement]
          | c :: r'' =>
            if isContinuation c then
              match r'' with
              | [] => [replacement]
              | d :: r''' =>
                if isContinuation d then
                  Char.ofNat (((a.toNat % 8 * 64 + low b) * 64 + low c) * 64 + low d) ::
                    decodeLossy r'''
                else replacement :: decodeLossy (d :: r''')
            else replacement :: decodeLossy (c :: r'')
        else replacement :: decodeLossy (b :: r')
    else replacement :: decodeLossy r

/-- The text of a file's bytes, if they are UTF-8. -/
def decode? (bytes : ByteArray) : Option String :=
  String.fromUTF8? bytes

/-- The text of a program's output. -/
def decodeOutput (bytes : ByteArray) : String :=
  String.ofList (decodeLossy bytes.data.toList)

end AddressExport.Text
