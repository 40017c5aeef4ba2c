import ResponseCache.Bytes.Hex
import ResponseCache.Json.Decode

/-!
This module contains the writing of JSON text in its shortest form, that is without any space between the
tokens and with no more escapes in strings than there have to be.
-/

namespace ResponseCache.Json

def escapeLetter? : Char → Option Char
  | '"' => some '"'
  | '\\' => some '\\'
  | '\x08' => some 'b'
  | '\x0c' => some 'f'
  | '\n' => some 'n'
  | '\r' => some 'r'
  | '\t' => some 't'
  | _ => none

/-- How a character is written within a string. Control characters without a letter are written by their number. -/
def escape (c : Char) : List Char :=
  match escapeLetter? c with
  | some letter => ['\\', letter]
  | none =>
    if c.toNat < 0x20 then
      ['\\', 'u', '0', '0', Bytes.hexDigit (c.toNat / 16), Bytes.hexDigit (c.toNat % 16)]
    else
      [c]

def quote (s : String) : List Char :=
  '"' :: s.toList.flatMap escape ++ ['"']

mutual

/-- The text of a value, as far as it has one. -/
def print : Json → List Char
  | .null => ['n', 'u', 'l', 'l']
  | .bool true => ['t', 'r', 'u', 'e']
  | .bool false => ['f', 'a', 'l', 's', 'e']
  | .number n => n.text.toList
  | .string s => quote s
  | .array items closed => '[' :: printItems items ++ if closed then [']'] else []
  | .object fields closed => '\x7b' :: printFields fields ++ if closed then ['\x7d'] else []
  | .unreadable => []
  | .broken => []

def printItems : List Json → List Char
  | [] => []
  | value :: values => print value ++ if values.isEmpty then [] else ',' :: printItems values

def printFields : List (Option String × Json) → List Char
  | [] => []
  | (name, value) :: fields =>
    quote (name.getD "") ++ ':' :: print value ++ if fields.isEmpty then [] else ',' :: printFields fields

end

end ResponseCache.Json
