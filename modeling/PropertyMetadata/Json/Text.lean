import PropertyMetadata.Json.Basic
import PropertyMetadata.Number.Shortest
import PropertyMetadata.Text.Quoted

/-! The text of a value inside messages. A string alone is shown bare by `text` and in quotes by
`shown`; inside arrays and objects every string is in quotes. -/

namespace PropertyMetadata.Json

mutual

def shown : Json → String
  | null => "None"
  | bool b => if b then "True" else "False"
  | int i => toString i
  | double d => d.text
  | string s => Text.quoted s
  | array items => "[" ++ shownItems items ++ "]"
  | object fields => "\x7b" ++ shownFields fields ++ "\x7d"

def shownItems : List Json → String
  | [] => ""
  | [x] => shown x
  | x :: y :: xs => shown x ++ ", " ++ shownItems (y :: xs)

def shownFields : List (String × Json) → String
  | [] => ""
  | [(k, x)] => Text.quoted k ++ ": " ++ shown x
  | (k, x) :: f :: fs => Text.quoted k ++ ": " ++ shown x ++ ", " ++ shownFields (f :: fs)

end

/-- A value as text: a string is itself. -/
def text : Json → String
  | string s => s
  | x => shown x

@[simp] theorem text_string (s : String) : text (string s) = s := rfl

end PropertyMetadata.Json
