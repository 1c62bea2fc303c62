import RecordStore.Assoc
import RecordStore.Json.Basic
import RecordStore.Number.Reading
import RecordStore.Text.Half
import RecordStore.Text.Hex

/-!
# Reading JSON texts

A reader of JSON texts that says what it missed and where. What it takes beyond the grammar, and how
far a text may go, is a `Dialect`. The three words for numbers that decimals cannot write are always
read.
-/

namespace RecordStore.Json

/-- What a reader admits, and where it stops. -/
structure Dialect where
  /-- Whether half of a pair of 16-bit units may stand alone. -/
  loneHalves : Bool
  /-- The number of arrays and objects that may lie inside each other. -/
  maxLevels : Nat
  /-- Whether an array or object without content counts as a level. -/
  countsEmpty : Bool
  /-- Whether a name that an object repeats keeps its first place and only its last value. -/
  merges : Bool

/-- The dialect of requests, cursors and written predicates. One array or object is always read, and
inside it as many levels as the stack has room for. -/
def Dialect.lenient (levels : Nat) : Dialect := ⟨true, levels + 1, true, true⟩

/-- The levels that a stack of the usual size has room for where little else lies on it. -/
def usualLevels : Nat := 989

/-- The dialect of payloads. -/
def Dialect.strict : Dialect := ⟨false, 200, false, false⟩

/-- What the reader missed or met. -/
inductive Complaint
  | value
  | propertyName
  | colon
  | comma
  | controlCharacter
  | escape
  | unicodeEscape
  | endOfString
  | extraData
  | byteOrderMark
  | tooManyDigits (count : Nat)
  /-- An array, or an object, below too many others. -/
  | tooDeep (isArray : Bool)
  deriving DecidableEq

/-- A complaint, and how many characters were left where it arose. -/
structure Stop where
  complaint : Complaint
  left : Nat
  deriving DecidableEq

/-- The characters that may stand between the parts of a text. -/
def isSpace (c : Char) : Bool := c = ' ' || c = '\t' || c = '\n' || c = '\r'

/-- A text from its first part on. -/
def skipSpaces (text : List Char) : List Char := text.dropWhile isSpace

/-- The number of four digits of base sixteen that are not the last characters of the text. -/
def readUnit? (text : List Char) : Option Nat :=
  if 4 < text.length then
    (text.take 4).foldl (fun n? c => do return (← n?) * 16 + (← Text.Hex.value? c)) (some 0)
  else none

/-- Whether a unit is the first half of a pair. -/
def isHigh (unit : Nat) : Bool := 0xd800 ≤ unit && unit < 0xdc00

/-- Whether a unit is the second half of a pair. -/
def isLow (unit : Nat) : Bool := 0xdc00 ≤ unit && unit < 0xe000

/-- The character of a unit that is no half of a pair, or the one for a half that stands alone. -/
def unitChar? (d : Dialect) (unit : Nat) : Option Char :=
  if isHigh unit || isLow unit then
    if d.loneHalves then some (Text.Half.char unit) else none
  else some (Char.ofNat unit)

/-- The character behind a backslash that stands for `c`. -/
def unescape? (c : Char) : Option Char :=
  match c with
  | '"' | '\\' | '/' => some c
  | 'b' => some (Char.ofNat 8)
  | 'f' => some (Char.ofNat 12)
  | 'n' => some '\n'
  | 'r' => some '\r'
  | 't' => some '\t'
  | _ => none

/-- The characters up to the closing quote; `start` characters were left at the opening one. -/
def readString (d : Dialect) (start : Nat) (text : List Char) :
    Except Stop (List Char × List Char) :=
  match text with
  | [] => .error ⟨.endOfString, start⟩
  | '"' :: rest => .ok ([], rest)
  | '\\' :: 'u' :: rest =>
    match readUnit? rest with
    | none => .error ⟨.unicodeEscape, rest.length + 1⟩
    | some unit =>
      let after := rest.drop 4
      -- A high half takes the low half behind it along; any other escape is read on its own.
      if isHigh unit ∧ 6 < after.length ∧ after.take 2 = ['\\', 'u'] then
        match readUnit? (after.drop 2) with
        | none => .error ⟨.unicodeEscape, after.length - 1⟩
        | some second =>
          if isLow second then do
            let (chars, tail) ← readString d start (after.drop 6)
            let joined := Char.ofNat (0x10000 + (unit - 0xd800) * 0x400 + (second - 0xdc00))
            return (joined :: chars, tail)
          else
            match unitChar? d unit with
            | none => .error ⟨.unicodeEscape, rest.length + 1⟩
            | some c => do
              let (chars, tail) ← readString d start after
              return (c :: chars, tail)
      else
        match unitChar? d unit with
        | none => .error ⟨.unicodeEscape, rest.length + 1⟩
        | some c => do
          let (chars, tail) ← readString d start after
          return (c :: chars, tail)
  | ['\\'] => .error ⟨.endOfString, start⟩
  | '\\' :: c :: rest =>
    match unescape? c with
    | none => .error ⟨.escape, rest.length + 2⟩
    | some plain => do
      let (chars, tail) ← readString d start rest
      return (plain :: chars, tail)
  | c :: rest =>
    if c.toNat < 0x20 then .error ⟨.controlCharacter, rest.length + 1⟩
    else do
      let (chars, tail) ← readString d start rest
      return (c :: chars, tail)
termination_by text.length
decreasing_by all_goals simp_wf <;> omega

/-- The digits at the front, and the rest. -/
def splitDigits (text : List Char) : List Char × List Char :=
  (text.takeWhile Char.isDigit, text.dropWhile Char.isDigit)

/-- The digits of a whole number: a lone zero, or digits that do not begin with one. -/
def wholeDigits (text : List Char) : List Char × List Char :=
  match text with
  | '0' :: rest => (['0'], rest)
  | _ => splitDigits text

/-- The digits behind a point, and the rest; a point without digits is not read. -/
def fractionDigits (text : List Char) : List Char × List Char :=
  match text with
  | '.' :: rest =>
    let (digits, tail) := splitDigits rest
    if digits = [] then ([], text) else (digits, tail)
  | _ => ([], text)

/-- The exponent behind its letter, and the rest; a letter without digits is not read. -/
def exponent? (text : List Char) : Option Int × List Char :=
  match text with
  | c :: rest =>
    if c = 'e' ∨ c = 'E' then
      let (negative, after) := Number.takeSign rest
      let (digits, tail) := splitDigits after
      if digits = [] then (none, text)
      else
        let size : Int := Number.ofDigits digits
        (some (if negative then -size else size), tail)
    else (none, text)
  | [] => (none, [])

/-- A number without sign. -/
def readNumber (start : Nat) (negative : Bool) (text : List Char) :
    Except Stop (Json × List Char) :=
  let (whole, afterWhole) := wholeDigits text
  let (places, afterPlaces) := fractionDigits afterWhole
  let (power, rest) := exponent? afterPlaces
  if whole = [] then .error ⟨.value, start⟩
  -- Without places and exponent it is a whole number, and only those are limited in length.
  else if places = [] ∧ power = none then
    if Number.maxDigits < whole.length then
      .error ⟨.tooManyDigits whole.length, start⟩
    else
      let size : Int := Number.ofDigits whole
      .ok (.integer (if negative then -size else size), rest)
  else
    let digits := Number.ofDigits (whole ++ places)
    .ok (.double (Double.ofDecimal negative digits (power.getD 0 - places.length)), rest)

/-- The values that are written as words. -/
def words : List (List Char × Json) :=
  [("null".toList, .null), ("true".toList, .boolean true), ("false".toList, .boolean false),
    ("NaN".toList, .double .nan), ("Infinity".toList, .double (.infinite false)),
    ("-Infinity".toList, .double (.infinite true))]

/-- A word or a number. -/
def readPlain (text : List Char) : Except Stop (Json × List Char) :=
  -- One of the words begins with a minus, so words go before signs.
  match words.find? fun word => word.1.isPrefixOf text with
  | some (word, value) => .ok (value, text.drop word.length)
  | none =>
    match text with
    | '-' :: rest => readNumber text.length true rest
    | _ => readNumber text.length false text

/-- The members of an object, with one more behind them. -/
def addMember (d : Dialect) (name : String) (value : Json) (members : List (String × Json)) :
    List (String × Json) :=
  if d.merges then Assoc.put name value members else members ++ [(name, value)]

mutual

/-- The value at the front of a text below which so many levels may lie; `fuel` bounds the values
and brackets still to be read. -/
def readValue (d : Dialect) (fuel levels : Nat) (text : List Char) :
    Except Stop (Json × List Char) :=
  match fuel with
  | 0 => .error ⟨.value, text.length⟩
  | fuel + 1 =>
    match text with
    | '"' :: rest => do
      let (chars, tail) ← readString d text.length rest
      return (.string (String.ofList chars), tail)
    | '[' :: rest =>
      match skipSpaces rest, levels with
      -- An empty array needs no level below it, unless the dialect counts it as one.
      | ']' :: tail, 0 =>
        if d.countsEmpty then .error ⟨.tooDeep true, text.length⟩ else .ok (.array [], tail)
      | ']' :: tail, _ => .ok (.array [], tail)
      | _, 0 => .error ⟨.tooDeep true, text.length⟩
      | inner, levels + 1 => do
        let (items, tail) ← readItems d fuel levels inner
        return (.array items, tail)
    | '\x7b' :: rest =>
      match skipSpaces rest, levels with
      | '\x7d' :: tail, 0 =>
        if d.countsEmpty then .error ⟨.tooDeep false, text.length⟩ else .ok (.object [], tail)
      | '\x7d' :: tail, _ => .ok (.object [], tail)
      | _, 0 => .error ⟨.tooDeep false, text.length⟩
      | inner, levels + 1 => do
        let (members, tail) ← readMembers d fuel levels [] inner
        return (.object members, tail)
    | _ => readPlain text

/-- The items of an array up to its closing bracket. -/
def readItems (d : Dialect) (fuel levels : Nat) (text : List Char) :
    Except Stop (List Json × List Char) :=
  match fuel with
  | 0 => .error ⟨.value, text.length⟩
  | fuel + 1 => do
    let (item, rest) ← readValue d fuel levels text
    match skipSpaces rest with
    | ']' :: tail => return ([item], tail)
    | ',' :: tail =>
      let (items, tail) ← readItems d fuel levels (skipSpaces tail)
      return (item :: items, tail)
    | other => .error ⟨.comma, other.length⟩

/-- The members of an object up to its closing bracket, after those that were read before. -/
def readMembers (d : Dialect) (fuel levels : Nat) (before : List (String × Json))
    (text : List Char) : Except Stop (List (String × Json) × List Char) :=
  match fuel with
  | 0 => .error ⟨.value, text.length⟩
  | fuel + 1 =>
    match text with
    | '"' :: rest => do
      let (name, rest) ← readString d text.length rest
      match skipSpaces rest with
      | ':' :: rest =>
        let (value, rest) ← readValue d fuel levels (skipSpaces rest)
        let members := addMember d (String.ofList name) value before
        match skipSpaces rest with
        | '\x7d' :: tail => return (members, tail)
        | ',' :: tail => readMembers d fuel levels members (skipSpaces tail)
        | other => .error ⟨.comma, other.length⟩
      | other => .error ⟨.colon, other.length⟩
    | _ => .error ⟨.propertyName, text.length⟩

end

/-- The value of a whole text. -/
def readChars (d : Dialect) (text : List Char) : Except Stop Json := do
  if text.head? = some (Char.ofNat 0xfeff) then .error ⟨.byteOrderMark, text.length⟩
  -- A text has fewer values and brackets than twice its characters.
  let (value, rest) ← readValue d (2 * text.length + 2) d.maxLevels (skipSpaces text)
  let rest := skipSpaces rest
  if rest = [] then return value else .error ⟨.extraData, rest.length⟩

/-- A complaint about a text, with the place where it arose. -/
structure Failure where
  complaint : Complaint
  line : Nat
  column : Nat
  offset : Nat
  deriving DecidableEq

/-- The line and column of a place, both counted from one, that lies behind the given text. -/
def lineAndColumn (before : List Char) : Nat × Nat :=
  before.foldl (fun (line, column) c => if c = '\n' then (line + 1, 1) else (line, column + 1))
    (1, 1)

/-- The value of a text, or the complaint about it, on a stack with room for so many levels. -/
def read (text : String) (levels : Nat := usualLevels) : Except Failure Json :=
  let chars := text.toList
  match readChars (.lenient levels) chars with
  | .ok value => .ok value
  | .error stop =>
    let offset := chars.length - stop.left
    let (line, column) := lineAndColumn (chars.take offset)
    .error ⟨stop.complaint, line, column, offset⟩

/-- The value of a text, if it is read on a stack with the usual room. -/
def read? (text : String) : Option Json := (read text).toOption

/-- The value of a text in the dialect of payloads. -/
def readStrict? (text : String) : Option Json := (readChars .strict text.toList).toOption

namespace Complaint

/-- What a complaint says about the place where it arose. -/
def message : Complaint → String
  | .value => "Expecting value"
  | .propertyName => "Expecting property name enclosed in double quotes"
  | .colon => "Expecting ':' delimiter"
  | .comma => "Expecting ',' delimiter"
  | .controlCharacter => "Invalid control character at"
  | .escape => "Invalid \\escape"
  | .unicodeEscape => "Invalid \\uXXXX escape"
  | .endOfString => "Unterminated string starting at"
  | .extraData => "Extra data"
  | .byteOrderMark => "Unexpected UTF-8 BOM (decode using utf-8-sig)"
  | .tooManyDigits count =>
    "Exceeds the limit (" ++ toString Number.maxDigits ++
      " digits) for integer string conversion: value has " ++ toString count ++
      " digits; use sys.set_int_max_str_digits() to increase the limit"
  | .tooDeep isArray =>
    "maximum recursion depth exceeded while decoding a JSON " ++
      (if isArray then "array" else "object") ++ " from a unicode string"

end Complaint

/-- The text of a failure, with the place where it arose. -/
def Failure.message (f : Failure) : String :=
  f.complaint.message ++ ": line " ++ toString f.line ++ " column " ++ toString f.column ++
    " (char " ++ toString f.offset ++ ")"

end RecordStore.Json
