import Mathlib.Algebra.Group.Int.Defs
import Tomas.Framing

/-! The part of the MessagePack format that flat records of integers and
strings use: nil, integers, strings and map headers, as a sequence of tokens.
The writer always takes the shortest form, as MessagePack writers do. -/
namespace Tomas.Msgpack
open Tomas.Framing

inductive Token where
  | nil
  | int (value : Int)
  | str (text : String)
  | map (size : Nat)
  deriving DecidableEq, Repr

/-- The UTF-8 form of a text. -/
def utf8 (text : String) : Bytes := text.toUTF8.data.toList

/-! ## Writing -/

def writeInt (value : Int) : Bytes :=
  if 0 ≤ value then
    if value < 2 ^ 7 then [UInt8.ofNat value.toNat]
    else if value < 2 ^ 8 then 0xcc :: bigEndian 1 value.toNat
    else if value < 2 ^ 16 then 0xcd :: bigEndian 2 value.toNat
    else if value < 2 ^ 32 then 0xce :: bigEndian 4 value.toNat
    else 0xcf :: bigEndian 8 value.toNat
  else if -2 ^ 5 ≤ value then [UInt8.ofNat (value + 2 ^ 8).toNat]
  else if -2 ^ 7 ≤ value then 0xd0 :: bigEndian 1 (value + 2 ^ 8).toNat
  else if -2 ^ 15 ≤ value then 0xd1 :: bigEndian 2 (value + 2 ^ 16).toNat
  else if -2 ^ 31 ≤ value then 0xd2 :: bigEndian 4 (value + 2 ^ 32).toNat
  else 0xd3 :: bigEndian 8 (value + 2 ^ 64).toNat

def writeStrHeader (size : Nat) : Bytes :=
  if size < 2 ^ 5 then [UInt8.ofNat (0xa0 + size)]
  else if size < 2 ^ 8 then 0xd9 :: bigEndian 1 size
  else if size < 2 ^ 16 then 0xda :: bigEndian 2 size
  else 0xdb :: bigEndian 4 size

def writeMapHeader (size : Nat) : Bytes :=
  if size < 2 ^ 4 then [UInt8.ofNat (0x80 + size)]
  else if size < 2 ^ 16 then 0xde :: bigEndian 2 size
  else 0xdf :: bigEndian 4 size

def writeToken : Token → Bytes
  | .nil => [0xc0]
  | .int value => writeInt value
  | .str text => writeStrHeader (utf8 text).length ++ utf8 text
  | .map size => writeMapHeader size

/-! ## Sizes -/

def intSize (value : Int) : Nat :=
  if 0 ≤ value then
    if value < 2 ^ 7 then 1 else if value < 2 ^ 8 then 2
    else if value < 2 ^ 16 then 3 else if value < 2 ^ 32 then 5 else 9
  else if -2 ^ 5 ≤ value then 1 else if -2 ^ 7 ≤ value then 2
  else if -2 ^ 15 ≤ value then 3 else if -2 ^ 31 ≤ value then 5 else 9

def strHeaderSize (size : Nat) : Nat :=
  if size < 2 ^ 5 then 1 else if size < 2 ^ 8 then 2 else if size < 2 ^ 16 then 3 else 5

theorem length_utf8 (text : String) : (utf8 text).length = text.utf8ByteSize := rfl

theorem length_writeInt (value : Int) : (writeInt value).length = intSize value := by
  unfold writeInt intSize
  split_ifs <;> simp

theorem length_writeStrHeader (size : Nat) : (writeStrHeader size).length = strHeaderSize size := by
  unfold writeStrHeader strHeaderSize
  split_ifs <;> simp

theorem intSize_le (value : Int) : intSize value ≤ 9 := by
  unfold intSize
  split_ifs <;> simp

/-! ## Reading -/

def readUnsigned (width : Nat) (bytes : Bytes) : Option (Nat × Bytes) :=
  if bytes.length < width then none
  else some (ofBigEndian (bytes.take width), bytes.drop width)

/-- Two's complement. -/
def readSigned (width : Nat) (bytes : Bytes) : Option (Int × Bytes) :=
  (readUnsigned width bytes).map fun (n, rest) =>
    (if n < 2 ^ (8 * width - 1) then n else n - 2 ^ (8 * width), rest)

def readText (size : Nat) (bytes : Bytes) : Option (Token × Bytes) :=
  if bytes.length < size then none
  else (String.fromUTF8? ⟨(bytes.take size).toArray⟩).map fun text => (.str text, bytes.drop size)

def readToken : Bytes → Option (Token × Bytes)
  | [] => none
  | tag :: rest =>
    let code := tag.toNat
    let uint width := (readUnsigned width rest).map fun (n, rest) => (Token.int n, rest)
    let sint width := (readSigned width rest).map fun (n, rest) => (Token.int n, rest)
    let text width := (readUnsigned width rest).bind fun (n, rest) => readText n rest
    let map width := (readUnsigned width rest).map fun (n, rest) => (Token.map n, rest)
    if code < 0x80 then some (.int code, rest)
    else if code < 0x90 then some (.map (code - 0x80), rest)
    else if code < 0xa0 then none
    else if code < 0xc0 then readText (code - 0xa0) rest
    else match code with
      | 0xc0 => some (.nil, rest)
      | 0xcc => uint 1
      | 0xcd => uint 2
      | 0xce => uint 4
      | 0xcf => uint 8
      | 0xd0 => sint 1
      | 0xd1 => sint 2
      | 0xd2 => sint 4
      | 0xd3 => sint 8
      | 0xd9 => text 1
      | 0xda => text 2
      | 0xdb => text 4
      | 0xde => map 2
      | 0xdf => map 4
      | _ => if 0xe0 ≤ code then some (.int (code - 2 ^ 8), rest) else none

/-! ## Round trip -/

/-- The tokens the format can carry. -/
def Token.Writable : Token → Prop
  | .nil => True
  | .int value => -2 ^ 63 ≤ value ∧ value < 2 ^ 64
  | .str text => text.utf8ByteSize < 2 ^ 32
  | .map size => size < 2 ^ 32

theorem readUnsigned_bigEndian (width n : Nat) (rest : Bytes) (fits : n < 256 ^ width) :
    readUnsigned width (bigEndian width n ++ rest) = some (n, rest) := by
  have readable : ¬ (bigEndian width n ++ rest).length < width := by simp
  rw [readUnsigned, if_neg readable, List.take_left' (by simp), List.drop_left' (by simp),
    ofBigEndian_bigEndian width n fits]

theorem readText_utf8 (text : String) (rest : Bytes) :
    readText (utf8 text).length (utf8 text ++ rest) = some (.str text, rest) := by
  have readable : ¬ (utf8 text ++ rest).length < (utf8 text).length := by simp
  have whole : String.fromUTF8? ⟨(utf8 text).toArray⟩ = some text := by
    simp only [utf8, Array.toArray_toList]
    exact dif_pos text.isValidUTF8
  rw [readText, if_neg readable, List.take_left, List.drop_left, whole]
  rfl

private theorem readSigned_bigEndian (width : Nat) (value : Int) (rest : Bytes)
    (fits : (value + 2 ^ (8 * width)).toNat < 256 ^ width)
    (low : 2 ^ (8 * width - 1) ≤ (value + 2 ^ (8 * width)).toNat)
    (positive : 0 ≤ value + 2 ^ (8 * width)) :
    readSigned width (bigEndian width (value + 2 ^ (8 * width)).toNat ++ rest) = some (value, rest) := by
  rw [readSigned, readUnsigned_bigEndian _ _ _ fits]
  simp only [Option.map_some, if_neg (Nat.not_lt.mpr low), Int.toNat_of_nonneg positive,
    Int.add_sub_cancel]

private theorem read_writeInt (value : Int) (rest : Bytes) (low : -2 ^ 63 ≤ value)
    (high : value < 2 ^ 64) : readToken (writeInt value ++ rest) = some (.int value, rest) := by
  unfold writeInt
  split_ifs with nonnegative fix byte short word fix byte short word
  · have code : (UInt8.ofNat value.toNat).toNat = value.toNat := by simp; omega
    simp only [List.singleton_append, readToken, code]
    rw [if_pos (by omega), Int.toNat_of_nonneg nonnegative]
  · have read := readUnsigned_bigEndian 1 value.toNat rest (by omega)
    simp [readToken, read]
    omega
  · have read := readUnsigned_bigEndian 2 value.toNat rest (by omega)
    simp [readToken, read]
    omega
  · have read := readUnsigned_bigEndian 4 value.toNat rest (by omega)
    simp [readToken, read]
    omega
  · have read := readUnsigned_bigEndian 8 value.toNat rest (by omega)
    simp [readToken, read]
    omega
  · have code : (UInt8.ofNat (value + 2 ^ 8).toNat).toNat = (value + 2 ^ 8).toNat := by simp; omega
    have back : ((value + 2 ^ 8).toNat : Int) - 2 ^ 8 = value := by omega
    simp only [List.singleton_append, readToken, code]
    rw [if_neg (by omega), if_neg (by omega), if_neg (by omega), if_neg (by omega)]
    split <;> first | omega | rw [if_pos (by omega), back]
  · have read := readSigned_bigEndian 1 value rest (by omega) (by omega) (by omega)
    rw [List.cons_append]
    generalize bigEndian 1 (value + 2 ^ 8).toNat ++ rest = bytes at read ⊢
    simp [readToken, read]
  · have read := readSigned_bigEndian 2 value rest (by omega) (by omega) (by omega)
    rw [List.cons_append]
    generalize bigEndian 2 (value + 2 ^ 16).toNat ++ rest = bytes at read ⊢
    simp [readToken, read]
  · have read := readSigned_bigEndian 4 value rest (by omega) (by omega) (by omega)
    rw [List.cons_append]
    generalize bigEndian 4 (value + 2 ^ 32).toNat ++ rest = bytes at read ⊢
    simp [readToken, read]
  · have read := readSigned_bigEndian 8 value rest (by omega) (by omega) (by omega)
    rw [List.cons_append]
    generalize bigEndian 8 (value + 2 ^ 64).toNat ++ rest = bytes at read ⊢
    simp [readToken, read]

private theorem read_writeStr (text : String) (rest : Bytes) (fits : (utf8 text).length < 2 ^ 32) :
    readToken (writeStrHeader (utf8 text).length ++ (utf8 text ++ rest)) =
      some (.str text, rest) := by
  have body := readText_utf8 text rest
  generalize (utf8 text).length = size at body fits ⊢
  generalize utf8 text ++ rest = bytes at body ⊢
  unfold writeStrHeader
  split_ifs with fix byte short
  · have code : (UInt8.ofNat (0xa0 + size)).toNat = 0xa0 + size := by simp; omega
    simp only [List.singleton_append, readToken, code]
    rw [if_neg (by omega), if_neg (by omega), if_neg (by omega), if_pos (by omega),
      Nat.add_sub_cancel_left, body]
  · simp [readToken, readUnsigned_bigEndian 1 size bytes (by omega), body]
  · simp [readToken, readUnsigned_bigEndian 2 size bytes (by omega), body]
  · simp [readToken, readUnsigned_bigEndian 4 size bytes (by omega), body]

private theorem read_writeMap (size : Nat) (rest : Bytes) (fits : size < 2 ^ 32) :
    readToken (writeMapHeader size ++ rest) = some (.map size, rest) := by
  unfold writeMapHeader
  split_ifs with fix short
  · have code : (UInt8.ofNat (0x80 + size)).toNat = 0x80 + size := by simp; omega
    simp only [List.singleton_append, readToken, code]
    rw [if_neg (by omega), if_pos (by omega), Nat.add_sub_cancel_left]
  · simp [readToken, readUnsigned_bigEndian 2 size rest (by omega)]
  · simp [readToken, readUnsigned_bigEndian 4 size rest (by omega)]

/-- Reading takes exactly the token written off the front. -/
theorem readToken_writeToken (token : Token) (rest : Bytes) (writable : token.Writable) :
    readToken (writeToken token ++ rest) = some (token, rest) := by
  cases token with
  | nil => simp [writeToken, readToken]
  | int value => exact read_writeInt value rest writable.1 writable.2
  | str text =>
    rw [writeToken, List.append_assoc]
    exact read_writeStr text rest writable
  | map size => exact read_writeMap size rest writable

end Tomas.Msgpack
