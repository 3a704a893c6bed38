import PropertyMetadata.Markup.Basic

/-! Writing documents, one of the ways to write them: all on one line. An element that is in another
namespace than the one around it declares its own; attributes are written without namespace, and all
text stands before the first child. -/

namespace PropertyMetadata.Markup

/-- A character of text: what would begin markup is written by its name. -/
def textChar (c : Char) : List Char :=
  if c = '&' then "&amp;".toList
  else if c = '<' then "&lt;".toList
  else if c = '>' then "&gt;".toList
  else [c]

/-- A character of a value. A gap that reading would take for a space is written by its number. -/
def valueChar (c : Char) : List Char :=
  if c = '"' then "&quot;".toList
  else if c = '\r' then "&#13;".toList
  else if c = '\n' then "&#10;".toList
  else if c = '\t' then "&#09;".toList
  else textChar c

def printedAttribute (key value : String) : List Char :=
  ' ' :: key.toList ++ "=\"".toList ++ value.toList.flatMap valueChar ++ ['"']

mutual

/-- An element inside a namespace. -/
def printIn (space : String) : Element → List Char
  | .mk name attributes text children =>
    let declared := if name.space = space then [] else printedAttribute "xmlns" name.space
    let opening := '<' :: name.base.toList ++ declared ++
      attributes.flatMap fun a => printedAttribute a.1.base a.2
    let body := ((text.getD "").toList.flatMap textChar) ++ printChildren name.space children
    if body.isEmpty then opening ++ " />".toList
    else opening ++ '>' :: body ++ "</".toList ++ name.base.toList ++ ['>']

def printChildren (space : String) : List Element → List Char
  | [] => []
  | e :: es => printIn space e ++ printChildren space es

end

def print (e : Element) : String :=
  String.ofList ("<?xml version='1.0' encoding='utf-8'?>\n".toList ++ printIn "" e)

end PropertyMetadata.Markup
