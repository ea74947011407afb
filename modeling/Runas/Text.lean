import Mathlib.Algebra.Order.Ring.Int
import Mathlib.Data.List.Infix
import Mathlib.Data.List.TakeWhile
import Mathlib.Data.Nat.Find

/-! Text as byte strings and as characters: UTF-8 both ways, the white space and
splitting operations on strings, and the reading of unsigned 32-bit numbers. -/
namespace Runas.Text

abbrev Bytes := List UInt8

def encode (text : String) : Bytes := text.toList.flatMap String.utf8EncodeChar

def decode (bytes : Bytes) : Option String := String.fromUTF8? bytes.toByteArray

private theorem toByteArray_encode (text : String) : (encode text).toByteArray = text.toByteArray := by
  rw [← String.utf8Encode_toList]
  rfl

theorem decode_encode (text : String) : decode (encode text) = some text := by
  unfold decode String.fromUTF8?
  rw [toByteArray_encode,dif_pos text.isValidUTF8]
  rfl

theorem encode_decode {bytes : Bytes} {text : String} (decoded : decode bytes = some text) :
    encode text = bytes := by
  unfold decode String.fromUTF8? at decoded
  split at decoded
  · next valid =>
    have same : text.toByteArray = bytes.toByteArray := by
      cases Option.some.inj decoded
      rfl
    rw [← toByteArray_encode] at same
    simpa using congrArg (fun array => array.data.toList) same
  · contradiction

theorem encode_injective : Function.Injective encode := by
  intro a b same
  have decoded := congrArg decode same
  simpa only [decode_encode,Option.some.injEq] using decoded

theorem decode_eq_some_iff {bytes : Bytes} {text : String} :
    decode bytes = some text ↔ encode text = bytes :=
  ⟨encode_decode,fun same => same ▸ decode_encode text⟩

/-- `Utf8Error`: how many bytes from the start are valid, and how many after them are not. None
are given where the end has cut off a character. -/
structure Utf8Error where
  validUpTo : Nat
  errorLen : Option Nat
  deriving DecidableEq

/-- `utf8_char_width`: the length of a character by its first byte, 0 where none has it. -/
def utf8CharWidth (first : UInt8) : Nat :=
  if first < 0x80 then 1
  else if 0xC2 ≤ first && first ≤ 0xDF then 2
  else if 0xE0 ≤ first && first ≤ 0xEF then 3
  else if 0xF0 ≤ first && first ≤ 0xF4 then 4
  else 0

/-- A second byte that may stand behind the first. -/
def isSecond (first second : UInt8) : Bool :=
  (if first = 0xE0 then 0xA0 else if first = 0xF0 then 0x90 else 0x80) ≤ second &&
    second ≤ if first = 0xED then 0x9F else if first = 0xF4 then 0x8F else 0xBF

/-- How many bytes are invalid at the start of some that begin with no character. -/
def invalidLen : Bytes → Option Nat
  | [] => none
  | [first] => if utf8CharWidth first < 2 then some 1 else none
  | first :: second :: rest =>
    if utf8CharWidth first < 2 || !isSecond first second then some 1
    else match rest with
      | [] => none
      | third :: rest => if third < 0x80 || 0xBF < third then some 2 else if rest = [] then none else some 3

/-- The error of bytes that are no text. -/
def utf8Error (bytes : Bytes) : Utf8Error :=
  let valid := Nat.findGreatest (fun n => (decode (bytes.take n)).isSome = true) bytes.length
  ⟨valid,invalidLen (bytes.drop valid)⟩

example : utf8Error [0x61,0xFF] = ⟨1,some 1⟩ ∧ utf8Error [0xFF,0x61] = ⟨0,some 1⟩ ∧
    utf8Error [0x61,0xE2,0x82] = ⟨1,none⟩ ∧ utf8Error [0xF0,0x9F,0x92,0x61] = ⟨0,some 3⟩ := by decide

theorem encode_append (a b : List Char) :
    encode (String.ofList (a ++ b)) = encode (String.ofList a) ++ encode (String.ofList b) := by
  simp [encode]

/-- The bytes below 128 are those of the ASCII characters. -/
theorem mem_utf8EncodeChar {n : Nat} (ascii : n < 128) (c : Char) :
    UInt8.ofNat n ∈ String.utf8EncodeChar c ↔ c.val.toNat = n := by
  have high {m k : Nat} (large : 128 ≤ k) (small : m + k < 256) : UInt8.ofNat n ≠ UInt8.ofNat (m + k) := by
    intro same
    have numbers := congrArg UInt8.toNat same
    rw [UInt8.toNat_ofNat_of_lt' small,UInt8.toNat_ofNat_of_lt' (by simp only [UInt8.size]; omega)] at numbers
    omega
  unfold String.utf8EncodeChar
  dsimp only
  split
  · next short =>
    rw [List.mem_singleton,← UInt8.toNat_inj,UInt8.toNat_ofNat_of_lt' (by simp only [UInt8.size]; omega),
      UInt8.toNat_ofNat_of_lt' (by simp only [UInt8.size]; omega)]
    exact eq_comm
  · next long =>
    refine iff_of_false (fun member => ?_) (by omega)
    split at member
    · simp only [List.mem_cons,List.not_mem_nil,or_false] at member
      rcases member with same | same <;> exact high (by omega) (by omega) same
    · split at member
      · simp only [List.mem_cons,List.not_mem_nil,or_false] at member
        rcases member with same | same | same <;> exact high (by omega) (by omega) same
      · simp only [List.mem_cons,List.not_mem_nil,or_false] at member
        rcases member with same | same | same | same <;> exact high (by omega) (by omega) same

theorem mem_encode {c : Char} (ascii : c.val.toNat < 128) (text : String) :
    UInt8.ofNat c.val.toNat ∈ encode text ↔ c ∈ text.toList := by
  rw [encode,List.mem_flatMap]
  constructor
  · rintro ⟨other,member,inside⟩
    have same : other = c := Char.ext (UInt32.toNat_inj.mp ((mem_utf8EncodeChar ascii other).mp inside))
    exact same ▸ member
  · intro member
    exact ⟨c,member,(mem_utf8EncodeChar ascii c).mpr rfl⟩

private theorem utf8EncodeChar_ascii {c : Char} (ascii : c.val.toNat < 128) :
    String.utf8EncodeChar c = [UInt8.ofNat c.val.toNat] := by
  unfold String.utf8EncodeChar
  exact if_pos (by omega)

/-- A text whose encoding ends in an ASCII byte ends in that character. -/
theorem encode_eq_snoc {c : Char} (ascii : c.val.toNat < 128) {text : String} {bytes : Bytes}
    (same : encode text = bytes ++ [UInt8.ofNat c.val.toNat]) :
    ∃ before,text.toList = before ++ [c] ∧ encode (String.ofList before) = bytes := by
  rcases List.eq_nil_or_concat text.toList with none | ⟨before,last,split⟩
  · simp [encode,none] at same
  rw [List.concat_eq_append] at split
  have ends : encode (String.ofList before) ++ String.utf8EncodeChar last = bytes ++ [UInt8.ofNat c.val.toNat] := by
    rw [← same]
    simp [encode,split]
  have late : UInt8.ofNat c.val.toNat ∈ String.utf8EncodeChar last := by
    have final := congrArg List.getLast? ends
    rw [List.getLast?_append,List.getLast?_concat] at final
    cases tail : (String.utf8EncodeChar last).getLast? with
    | none => simp [String.utf8EncodeChar_ne_nil] at tail
    | some byte =>
      rw [tail] at final
      cases final
      exact List.mem_of_getLast? tail
  obtain rfl : last = c := Char.ext (UInt32.toNat_inj.mp ((mem_utf8EncodeChar ascii last).mp late))
  rw [utf8EncodeChar_ascii ascii] at ends
  exact ⟨before,split,List.append_cancel_right ends⟩

/-- A text of ASCII characters starts another when its encoding does. -/
theorem prefix_encode {start : List Char} (ascii : ∀ c ∈ start,c.val.toNat < 128) (text : List Char) :
    encode (String.ofList start) <+: encode (String.ofList text) ↔ start <+: text := by
  induction start generalizing text with
  | nil => simp [encode]
  | cons c start ih =>
    have small := ascii c List.mem_cons_self
    have rest := ih fun d member => ascii d (List.mem_cons_of_mem c member)
    have first (d : Char) (text : List Char) : encode (String.ofList (d :: text)) =
        String.utf8EncodeChar d ++ encode (String.ofList text) := by
      simp [encode]
    rw [first,utf8EncodeChar_ascii small]
    cases text with
    | nil => simp [encode]
    | cons d text =>
      rw [first,List.cons_prefix_cons,← rest text]
      constructor
      · intro starts
        obtain ⟨byte,bytes,whole⟩ := List.exists_cons_of_ne_nil (@String.utf8EncodeChar_ne_nil d)
        have same : UInt8.ofNat c.val.toNat = byte := by
          rw [whole] at starts
          exact (List.cons_prefix_cons.mp starts).1
        obtain rfl : d = c := Char.ext (UInt32.toNat_inj.mp
          ((mem_utf8EncodeChar small d).mp (by rw [whole,same]; exact List.mem_cons_self)))
        rw [utf8EncodeChar_ascii small] at starts
        exact ⟨rfl,(List.prefix_append_right_inj _).mp starts⟩
      · rintro ⟨rfl,starts⟩
        rw [utf8EncodeChar_ascii small]
        exact (List.prefix_append_right_inj _).mpr starts

/-- A byte string without the byte that ends a C string. -/
structure CString where
  bytes : Bytes
  noNul : 0 ∉ bytes
  deriving DecidableEq

def CString.new (bytes : Bytes) : Option CString :=
  if h : 0 ∈ bytes then none else some ⟨bytes,h⟩

theorem CString.new_eq_some {bytes : Bytes} {c : CString} (made : CString.new bytes = some c) :
    c.bytes = bytes := by
  unfold CString.new at made
  split at made
  · contradiction
  · exact (congrArg CString.bytes (Option.some.inj made)).symm

/-- `NulError`: where the first NUL is, and the bytes. -/
structure NulError where
  position : Nat
  bytes : Bytes
  deriving DecidableEq

def nulError (bytes : Bytes) : NulError := ⟨(bytes.takeWhile (· != 0)).length,bytes⟩

/-- The C string a buffer holds once a NUL is put behind it. -/
def CString.ofBuffer (bytes : Bytes) : CString :=
  ⟨bytes.takeWhile (· != 0),fun member => by simpa using List.mem_takeWhile_imp member⟩

/-- `char::is_whitespace`: the White_Space property of Unicode. -/
def isWhitespace (c : Char) : Bool :=
  (9 ≤ c.val && c.val ≤ 13) || c.val == 0x20 || c.val == 0x85 || c.val == 0xA0 || c.val == 0x1680 ||
    (0x2000 ≤ c.val && c.val ≤ 0x200A) || c.val == 0x2028 || c.val == 0x2029 || c.val == 0x202F ||
    c.val == 0x205F || c.val == 0x3000

def trimStart (text : List Char) : List Char := text.dropWhile isWhitespace

def trimEnd (text : List Char) : List Char := (text.reverse.dropWhile isWhitespace).reverse

def trim (text : List Char) : List Char := trimEnd (trimStart text)

/-- `split_once`: the parts before and after the first separator. -/
def splitOnce (separator : Char → Bool) : List Char → Option (List Char × List Char)
  | [] => none
  | c :: rest =>
    if separator c then some ([],rest)
    else (splitOnce separator rest).map fun (before,after) => (c :: before,after)

/-- `split`: the parts between separators, always at least one. -/
def split (separator : Char → Bool) : List Char → List (List Char)
  | [] => [[]]
  | c :: rest =>
    if separator c then [] :: split separator rest
    else match split separator rest with
      | [] => [[c]]
      | part :: parts => (c :: part) :: parts

/-- `str::replace`: every occurrence from the left, `skip` characters still to pass over. -/
def replaceFrom (pattern replacement : List Char) : Nat → List Char → List Char
  | _,[] => []
  | skip+1,_ :: rest => replaceFrom pattern replacement skip rest
  | 0,c :: rest =>
    if pattern.isPrefixOf (c :: rest) then
      replacement ++ replaceFrom pattern replacement (pattern.length - 1) rest
    else c :: replaceFrom pattern replacement 0 rest

def replace (pattern replacement text : List Char) : List Char := replaceFrom pattern replacement 0 text

def isDigit (c : Char) : Bool := '0' ≤ c && c ≤ '9'

/-- The number a word of ASCII digits spells. -/
def digitsValue (word : List Char) : Nat := word.foldl (fun n c => 10*n + (c.val - 48).toNat) 0

/-- `str::parse::<u32>`: an optional plus sign, then at least one ASCII digit. -/
def parseU32 (word : List Char) : Option UInt32 :=
  let digits := match word with
    | '+' :: rest => rest
    | _ => word
  if digits.isEmpty || !digits.all isDigit then none
  else if digitsValue digits < 2^32 then some (UInt32.ofNat (digitsValue digits)) else none

/-- `IntErrorKind`, as far as an unsigned number can have it. -/
inductive IntErrorKind
  | empty | invalidDigit | posOverflow
  deriving DecidableEq

/-- What is wrong with digits that go on from the number: the first that is none, or that
makes it too large. -/
def digitsError : Nat → List Char → IntErrorKind
  | _,[] => .posOverflow
  | n,c :: rest =>
    if !isDigit c then .invalidDigit
    else if 2^32 ≤ 10*n + (c.val - 48).toNat then .posOverflow
    else digitsError (10*n + (c.val - 48).toNat) rest

/-- The error of a word that is no number. -/
def parseU32Error : List Char → IntErrorKind
  | [] => .empty
  | ['+'] => .invalidDigit
  | '+' :: rest => digitsError 0 rest
  | word => digitsError 0 word

end Runas.Text
