import PostfixSheet.Json.Token

/-!
Writing JSON on one line. The fields of an object are sorted by their keys, sign by sign, so a value
has one written form. A comma or a colon is followed by a space.
-/

namespace PostfixSheet.Json

/-- Fields of tokens, in the order of their keys. -/
def sortFields (fields : List (Signs × List Token)) : List (Signs × List Token) :=
  fields.mergeSort fun a b => Signs.isUpTo a.1 b.1

/-- Token lists one after the other with commas between them. -/
def separated (parts : List (List Token)) : List Token := [Token.comma].intercalate parts

mutual

def tokens : Json → List Token
  | .null => [.null]
  | .bool b => [.bool b]
  | .integer n => [.number (Text.ofInt n)]
  | .float x => [.ofFloat x]
  | .string signs => [.string signs]
  | .foreign text _ => [.string text]
  | .array items => .openArray :: separated (itemTokens items) ++ [.closeArray]
  | .object fields =>
      .openObject
        :: separated ((sortFields (fieldTokens fields)).map fun (key, value) =>
            .string key :: .colon :: value)
        ++ [.closeObject]

def itemTokens : List Json → List (List Token)
  | [] => []
  | item :: items => tokens item :: itemTokens items

def fieldTokens : List (Signs × Json) → List (Signs × List Token)
  | [] => []
  | (key, value) :: fields => (key, tokens value) :: fieldTokens fields

end

/-- A token with the space that follows it. -/
def Token.spaced : Token → Text
  | .comma => [',', ' ']
  | .colon => [':', ' ']
  | token => token.text

def write (value : Json) : Text := (tokens value).flatMap Token.spaced

end PostfixSheet.Json
