import SharedWorld.Argument
import SharedWorld.Text.Printable

/-!
# Descriptions of values

A fault about an unexpected value describes the value. Texts stand between double quotes, where
quotes, backslashes and every character without a visible form are escaped.
-/

namespace SharedWorld.Text

/-- How a character is written between double quotes. -/
def escape (c : Char) : String :=
  if c = '"' then "\\\""
  else if c = '\\' then "\\\\"
  else if c = '\t' then "\\t"
  else if c = '\r' then "\\r"
  else if c = '\n' then "\\n"
  else if c = '\x00' then "\\0"
  else if isPrintable c then c.toString
  else "\\u\x7b" ++ String.ofList (Nat.toDigits 16 c.toNat) ++ "\x7d"

/-- A text between double quotes. -/
def quote (text : String) : String := "\"" ++ String.join (text.toList.map escape) ++ "\""

end SharedWorld.Text

namespace SharedWorld

/-- The description of a value: its kind, and the value in brackets. -/
def Argument.describe : Argument → String
  | .bool value => "Bool(" ++ toString value ++ ")"
  | .word32 value => "U32(" ++ toString value ++ ")"
  | .word64 value => "U64(" ++ toString value ++ ")"
  | .text value => "Str(" ++ Text.quote value ++ ")"

/-- The description of a list of values. -/
def Argument.describeAll (values : List Argument) : String :=
  "Values([" ++ ", ".intercalate (values.map Argument.describe) ++ "])"

end SharedWorld
