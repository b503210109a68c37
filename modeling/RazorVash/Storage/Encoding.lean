import RazorVash.Storage.Tree

namespace RazorVash

inductive Encoding
  | ascii
  | latin1
  | utf8
  | utf8Marked
  | utf16
  | utf16Little
  | utf16Big
deriving DecidableEq, Repr

inductive DecodeFault
  | invalidStart
  | invalidContinuation
  | unexpectedEnd
  | notAscii
  | truncated
  | illegalSurrogate
  | illegalEncoding
deriving DecidableEq, Repr

structure DecodeError where
  encoding : Encoding
  fault : DecodeFault
  first : Nat
  bytes : Bytes
deriving DecidableEq, Repr

structure EncodeError where
  encoding : Encoding
  limit : Nat
  first : Nat
  characters : Text
deriving DecidableEq, Repr

inductive CodecError
  | unknownEncoding (name : Text)
  | noByteOrderMark
  | undecodable (error : DecodeError)
  | unencodable (error : EncodeError)
deriving DecidableEq, Repr

namespace Encoding

def name : Encoding → Text
  | ascii => "ascii".toList
  | latin1 => "latin-1".toList
  | utf8 => "utf-8".toList
  | utf8Marked => "utf-8-sig".toList
  | utf16 => "utf-16".toList
  | utf16Little => "utf-16-le".toList
  | utf16Big => "utf-16-be".toList

/-- The names under which an encoding is known, in lower case with `_` between the parts. -/
def aliases : List (List String × Encoding) :=
  [(["utf_8", "utf8", "u8", "utf", "utf8_ucs2", "utf8_ucs4", "cp65001"], utf8),
    (["utf_8_sig", "utf8_sig"], utf8Marked),
    (["ascii", "646", "ansi_x3.4_1968", "ansi_x3_4_1968", "ansi_x3.4_1986", "cp367", "csascii",
      "ibm367", "iso646_us", "iso_646.irv_1991", "iso_ir_6", "us", "us_ascii"], ascii),
    (["latin_1", "latin1", "latin", "l1", "iso_8859_1", "iso8859_1", "iso8859", "8859", "cp819",
      "csisolatin1", "ibm819", "iso_8859_1_1987", "iso_ir_100"], latin1),
    (["utf_16", "utf16", "u16"], utf16),
    (["utf_16_le", "utf_16le", "unicodelittleunmarked"], utf16Little),
    (["utf_16_be", "utf_16be", "unicodebigunmarked"], utf16Big)]

/-- A name in lower case, with each row of other characters than letters, digits and points turned
into one `_`. -/
def normalName (name : Text) : Text :=
  let isPart (c : Char) : Bool := c.isAlphanum || c = '.'
  Text.join ['_'] ((List.splitOnP (fun c => !isPart c) name.lowerAscii).filter (· ≠ []))

def ofName (name : Text) : Except CodecError Encoding :=
  match aliases.find? fun (names, _) => names.any fun n => n.toList = normalName name with
  | some (_, encoding) => .ok encoding
  | none => .error (.unknownEncoding name)

/-! ### Reading -/

def isContinuation (b : UInt8) : Bool := 0x80 ≤ b && b < 0xC0

/-- Whether `second` may follow `first` in a sequence of three or four bytes. -/
def secondFits (first second : UInt8) : Bool :=
  isContinuation second &&
    (if first = 0xE0 then 0xA0 ≤ second
     else if first = 0xED then second < 0xA0
     else if first = 0xF0 then 0x90 ≤ second
     else if first = 0xF4 then second < 0x90
     else true)

def joinBits (lead : Nat) (rest : Bytes) : Char :=
  Char.ofNat (rest.foldl (fun n b => n * 64 + (b.toNat - 0x80)) lead)

/-- The length of a sequence by its first byte, with the bits that this byte holds. -/
def sequenceOf (first : UInt8) : Option (Nat × Nat) :=
  if first < 0x80 then some (1, first.toNat)
  else if first < 0xC2 then none
  else if first < 0xE0 then some (2, first.toNat - 0xC0)
  else if first < 0xF0 then some (3, first.toNat - 0xE0)
  else if first < 0xF5 then some (4, first.toNat - 0xF0)
  else none

/-- How many bytes after the first fit into a sequence of the given length. -/
def fitting (first : UInt8) (length : Nat) (rest : Bytes) : Nat :=
  match rest.take (length - 1) with
  | [] => 0
  | second :: more =>
    if secondFits first second then 1 + (more.takeWhile isContinuation).length else 0

def decodeUtf8From (position : Nat) : Bytes → Except DecodeError Text
  | [] => .ok []
  | first :: rest =>
    match sequenceOf first with
    | none => .error ⟨utf8, .invalidStart, position, [first]⟩
    | some (length, bits) =>
      let fits := fitting first length rest
      if fits + 1 = length then
        (decodeUtf8From (position + length) (rest.drop fits)).map
          (joinBits bits (rest.take fits) :: ·)
      else if rest.length = fits then .error ⟨utf8, .unexpectedEnd, position, first :: rest⟩
      else .error ⟨utf8, .invalidContinuation, position, first :: rest.take fits⟩
termination_by bytes => bytes.length
decreasing_by simp only [List.length_cons, List.length_drop]; omega

def decodeAsciiFrom (position : Nat) : Bytes → Except DecodeError Text
  | [] => .ok []
  | b :: rest =>
    if b < 0x80 then (decodeAsciiFrom (position + 1) rest).map (Char.ofNat b.toNat :: ·)
    else .error ⟨ascii, .notAscii, position, [b]⟩

def unitOf (big : Bool) (a b : UInt8) : Nat :=
  if big then a.toNat * 256 + b.toNat else b.toNat * 256 + a.toNat

def decodeUtf16From (big : Bool) (position : Nat) : Bytes → Except DecodeError Text
  | [] => .ok []
  | [a] => .error ⟨if big then utf16Big else utf16Little, .truncated, position, [a]⟩
  | a :: b :: rest =>
    let encoding := if big then utf16Big else utf16Little
    let unit := unitOf big a b
    if 0xD800 ≤ unit ∧ unit < 0xDC00 then
      match rest with
      | c :: d :: rest =>
        let low := unitOf big c d
        if 0xDC00 ≤ low ∧ low < 0xE000 then
          (decodeUtf16From big (position + 4) rest).map
            (Char.ofNat (0x10000 + (unit - 0xD800) * 0x400 + (low - 0xDC00)) :: ·)
        else .error ⟨encoding, .illegalSurrogate, position, [a, b]⟩
      | rest => .error ⟨encoding, .unexpectedEnd, position, a :: b :: rest⟩
    else if 0xDC00 ≤ unit ∧ unit < 0xE000 then
      .error ⟨encoding, .illegalEncoding, position, [a, b]⟩
    else (decodeUtf16From big (position + 2) rest).map (Char.ofNat unit :: ·)

/-- Text with a byte order mark; a lone byte is reported as cut off. -/
def decodeUtf16 : Bytes → Except CodecError Text
  | [] => .ok []
  | [b] => .error (.undecodable ⟨utf16Little, .truncated, 0, [b]⟩)
  | 0xFF :: 0xFE :: rest => (decodeUtf16From false 2 rest).mapError .undecodable
  | 0xFE :: 0xFF :: rest => (decodeUtf16From true 2 rest).mapError .undecodable
  | _ => .error .noByteOrderMark

/-- The bytes after the mark that may stand in front; a mark that is cut off stands for nothing. -/
def withoutMark : Bytes → Bytes
  | 0xEF :: 0xBB :: 0xBF :: rest => rest
  | [0xEF, 0xBB] => []
  | [0xEF] => []
  | bytes => bytes

def decode (encoding : Encoding) (bytes : Bytes) : Except CodecError Text :=
  match encoding with
  | ascii => (decodeAsciiFrom 0 bytes).mapError .undecodable
  | latin1 => .ok (bytes.map fun b => Char.ofNat b.toNat)
  | utf8 => (decodeUtf8From 0 bytes).mapError .undecodable
  | utf8Marked => (decodeUtf8From 0 (withoutMark bytes)).mapError .undecodable
  | utf16 => decodeUtf16 bytes
  | utf16Little => (decodeUtf16From false 0 bytes).mapError .undecodable
  | utf16Big => (decodeUtf16From true 0 bytes).mapError .undecodable

def unifyLines : Text → Text
  | '\r' :: '\n' :: text => '\n' :: unifyLines text
  | '\r' :: text => '\n' :: unifyLines text
  | c :: text => c :: unifyLines text
  | [] => []

/-! ### Writing -/

def utf8Char (c : Char) : Bytes :=
  let n := c.toNat
  let tail (step : Nat) : UInt8 := UInt8.ofNat (0x80 + n / step % 64)
  if n < 0x80 then [UInt8.ofNat n]
  else if n < 0x800 then [UInt8.ofNat (0xC0 + n / 0x40), tail 1]
  else if n < 0x10000 then [UInt8.ofNat (0xE0 + n / 0x1000), tail 0x40, tail 1]
  else [UInt8.ofNat (0xF0 + n / 0x40000), tail 0x1000, tail 0x40, tail 1]

def encodeUtf8 (text : Text) : Bytes := text.flatMap utf8Char

def utf16Char (big : Bool) (c : Char) : Bytes :=
  let n := c.toNat
  let unit (u : Nat) : Bytes :=
    let high := UInt8.ofNat (u / 256)
    let low := UInt8.ofNat (u % 256)
    if big then [high, low] else [low, high]
  if n < 0x10000 then unit n
  else unit (0xD800 + (n - 0x10000) / 0x400) ++ unit (0xDC00 + (n - 0x10000) % 0x400)

/-- Characters below the limit as single bytes; the first row of others is at fault. -/
def encodeBytes (encoding : Encoding) (limit : Nat) (text : Text) : Except CodecError Bytes :=
  let good := text.takeWhile (·.toNat < limit)
  let rest := text.drop good.length
  if rest = [] then .ok (text.map fun c => UInt8.ofNat c.toNat)
  else
    .error (.unencodable ⟨encoding, limit, good.length, rest.takeWhile (limit ≤ ·.toNat)⟩)

def encode (encoding : Encoding) (text : Text) : Except CodecError Bytes :=
  match encoding with
  | ascii => encodeBytes ascii 128 text
  | latin1 => encodeBytes latin1 256 text
  | utf8 => .ok (encodeUtf8 text)
  | utf8Marked => .ok (0xEF :: 0xBB :: 0xBF :: encodeUtf8 text)
  | utf16 => .ok (0xFF :: 0xFE :: text.flatMap (utf16Char false))
  | utf16Little => .ok (text.flatMap (utf16Char false))
  | utf16Big => .ok (text.flatMap (utf16Char true))

end Encoding

namespace CodecError

def reason : DecodeFault → Text
  | .invalidStart => "invalid start byte".toList
  | .invalidContinuation => "invalid continuation byte".toList
  | .unexpectedEnd => "unexpected end of data".toList
  | .notAscii => "ordinal not in range(128)".toList
  | .truncated => "truncated data".toList
  | .illegalSurrogate => "illegal UTF-16 surrogate".toList
  | .illegalEncoding => "illegal encoding".toList

def span (first count : Nat) : Text :=
  Text.ofNat first ++ '-' :: Text.ofNat (first + count - 1)

def message : CodecError → Text
  | unknownEncoding name => "unknown encoding: ".toList ++ name
  | noByteOrderMark => "UTF-16 stream does not start with BOM".toList
  | undecodable ⟨encoding, fault, first, bytes⟩ =>
    let place := match bytes with
      | [b] => "byte 0x".toList ++ Text.hex 2 b.toNat ++ " in position ".toList ++ Text.ofNat first
      | _ => "bytes in position ".toList ++ span first bytes.length
    '\'' :: encoding.name ++ "' codec can't decode ".toList ++ place ++ ": ".toList ++ reason fault
  | unencodable ⟨encoding, limit, first, characters⟩ =>
    let place := match characters with
      | [c] => "character '".toList ++ Text.escapePoint c.toNat ++ "' in position ".toList ++
          Text.ofNat first
      | _ => "characters in position ".toList ++ span first characters.length
    '\'' :: encoding.name ++ "' codec can't encode ".toList ++ place ++
      ": ordinal not in range(".toList ++ Text.ofNat limit ++ ")".toList

end CodecError

end RazorVash
