import GrantConsole.Json.Basic
import GrantConsole.Text.Shown

/-!
# Messages of JSON faults

The words in which a fault is told.
-/

namespace GrantConsole.Json

open GrantConsole.Text

def Found.describe : Found → String
  | .null => "null"
  | .bool true => "boolean `true`"
  | .bool false => "boolean `false`"
  | .whole n => "integer `" ++ toString n ++ "`"
  | .real x => "floating point `" ++ x.exchangeText ++ "`"
  | .text s => "string " ++ shown s
  | .sequence => "sequence"
  | .map => "map"

def backquoted (s : String) : String :=
  "`" ++ s ++ "`"

/-- The choices after the word that introduces them. -/
def describeChoices : List String → String
  | [] => "there are no variants"
  | [a] => "expected " ++ backquoted a
  | [a, b] => "expected " ++ backquoted a ++ " or " ++ backquoted b
  | choices => "expected one of " ++ ", ".intercalate (choices.map backquoted)

def Fault.message : Fault → String
  | .endInValue => "EOF while parsing a value"
  | .endInText => "EOF while parsing a string"
  | .endInList => "EOF while parsing a list"
  | .endInObject => "EOF while parsing an object"
  | .valueWanted => "expected value"
  | .wordWanted => "expected ident"
  | .colonWanted => "expected `:`"
  | .listCommaWanted => "expected `,` or `]`"
  | .objectCommaWanted => "expected `,` or `\x7d`"
  | .keyWanted => "key must be a string"
  | .trailingComma => "trailing comma"
  | .trailingText => "trailing characters"
  | .badNumber => "invalid number"
  | .numberTooLarge => "number out of range"
  | .badEscape => "invalid escape"
  | .controlCharacter => "control character (\\u0000-\\u001F) found while parsing a string"
  | .loneSurrogate => "lone leading surrogate in hex escape"
  | .unpairedSurrogate => "unexpected end of hex escape"
  | .tooDeep => "recursion limit exceeded"
  | .wrongKind found wanted => "invalid type: " ++ found.describe ++ ", expected " ++ wanted
  | .missingMember key => "missing field " ++ backquoted key
  | .repeatedMember key => "duplicate field " ++ backquoted key
  | .unknownChoice found choices =>
    "unknown variant " ++ backquoted found ++ ", " ++ describeChoices choices
  | .tooShort length wanted => "invalid length " ++ toString length ++ ", expected " ++ wanted
  | .numberWanted => "expected number"
  | .wholeWanted => "expected integer-compatible number"

end GrantConsole.Json
