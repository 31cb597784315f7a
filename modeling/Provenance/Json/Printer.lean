import Provenance.Decimal.Notation
import Provenance.Json.Basic
import Provenance.Json.Quoted

/-!
# Writing JSON

`text` is the compact form, with nothing between tokens; `prettyText` puts each element of a
container on a line of its own, two spaces deeper than the container.
-/

namespace Provenance.Json

/-! ### The compact form -/

mutual
/-- The compact text of a value. -/
def chars : Json → List Char
  | .null => ['n', 'u', 'l', 'l']
  | .bool true => ['t', 'r', 'u', 'e']
  | .bool false => ['f', 'a', 'l', 's', 'e']
  | .int n => (toString n).toList
  | .float x => x.text.toList
  | .string s => Quoted.quote s
  | .array items => '[' :: itemsChars items ++ [']']
  | .object fields => '{' :: fieldsChars fields ++ ['}']

def itemsChars : List Json → List Char
  | [] => []
  | [v] => chars v
  | v :: w :: vs => chars v ++ ',' :: itemsChars (w :: vs)

def fieldsChars : List (String × Json) → List Char
  | [] => []
  | [(k, v)] => Quoted.quote k ++ ':' :: chars v
  | (k, v) :: f :: fs => Quoted.quote k ++ ':' :: (chars v ++ ',' :: fieldsChars (f :: fs))
end

def text (v : Json) : String := .ofList v.chars

/-! ### The indented form -/

/-- A line break and the indentation of a depth. -/
def newLine (depth : Nat) : List Char := '\n' :: List.replicate (2 * depth) ' '

mutual
/-- The indented text of a value that stands at a depth. -/
def prettyChars (depth : Nat) : Json → List Char
  | .array (v :: vs) =>
    '[' :: prettyItems (depth + 1) (v :: vs) ++ newLine depth ++ [']']
  | .object (f :: fs) =>
    '{' :: prettyFields (depth + 1) (f :: fs) ++ newLine depth ++ ['}']
  | .array [] => ['[', ']']
  | .object [] => ['{', '}']
  | .null => chars .null
  | .bool b => chars (.bool b)
  | .int n => chars (.int n)
  | .float x => chars (.float x)
  | .string s => chars (.string s)

def prettyItems (depth : Nat) : List Json → List Char
  | [] => []
  | [v] => newLine depth ++ prettyChars depth v
  | v :: w :: vs => newLine depth ++ prettyChars depth v ++ ',' :: prettyItems depth (w :: vs)

def prettyFields (depth : Nat) : List (String × Json) → List Char
  | [] => []
  | [(k, v)] => newLine depth ++ Quoted.quote k ++ ':' :: ' ' :: prettyChars depth v
  | (k, v) :: f :: fs =>
    newLine depth ++ Quoted.quote k ++ ':' :: ' ' ::
      (prettyChars depth v ++ ',' :: prettyFields depth (f :: fs))
end

def prettyText (v : Json) : String := .ofList (v.prettyChars 0)

end Provenance.Json
