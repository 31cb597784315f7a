/-!
# Message chains

A message may be explained by further messages, and these by others. `outline` lists the messages
of a chain with their depths, parents first; `flatten` writes the outline as indented lines.
-/

namespace Provenance

/-- A message and the messages that explain it. -/
structure MessageChain where
  text : String
  next : List MessageChain
deriving Inhabited

namespace MessageChain

/-- A message that nothing explains. -/
def ofText (text : String) : MessageChain := ⟨text, []⟩

mutual
/-- The messages of a chain whose head stands at a depth, each with its own depth. -/
def outline (depth : Nat) : MessageChain → List (Nat × String)
  | ⟨text, next⟩ => (depth, text) :: outlineAll (depth + 1) next

def outlineAll (depth : Nat) : List MessageChain → List (Nat × String)
  | [] => []
  | m :: ms => outline depth m ++ outlineAll depth ms
end

/-- Two spaces for each level of depth. -/
def indent (depth : Nat) : List Char := List.replicate (2 * depth) ' '

/-- One message of an outline: all but the head begin a new line. -/
def lineChars (newLine : List Char) (entry : Nat × String) : List Char :=
  if entry.1 = 0 then entry.2.toList else newLine ++ indent entry.1 ++ entry.2.toList

/-- The chain as text, each explaining message on a line of its own below its parent. -/
def flatten (newLine : String) (m : MessageChain) : String :=
  .ofList ((m.outline 0).flatMap (lineChars newLine.toList))

end MessageChain

end Provenance
