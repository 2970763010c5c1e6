import DesignLint.Cohesion.Element
import DesignLint.Cohesion.NameSet

/-!
# Blocks and the usage they collect

While a block is open a frame collects the names it reads and writes and the
members it uses. When it closes, the frame becomes a block of its unit, if it
carries any signal: a control block by its names, a method by the members it
uses. The top level of a function and constructors never become blocks.
-/

namespace DesignLint.Cohesion

/-- What an open block has used so far. The top level of a function has no
type; only methods have a receiver. -/
structure OpenBlock where
  type : Option BlockType
  span : Span
  name : String := ""
  receiver : Option String := none
  isConstructor : Bool := false
  reads : NameSet := []
  writes : NameSet := []
  members : NameSet := []
deriving DecidableEq, Repr

/-- Whether nothing that counts for its type has been used. -/
def OpenBlock.isEmpty (frame : OpenBlock) : Bool :=
  if frame.type = some .method then frame.members.isEmpty
  else frame.reads.isEmpty && frame.writes.isEmpty

/-- A closed block with its number in the unit. -/
structure Block where
  index : Nat
  type : BlockType
  name : String
  startLine : Int
  endLine : Int
  reads : NameSet := []
  writes : NameSet := []
  members : NameSet := []
deriving DecidableEq, Repr

namespace Block

/-- The names compared between blocks: the members a method uses, the names any
other block reads or writes. -/
def comparedNames (block : Block) : NameSet :=
  if block.type = .method then block.members else block.reads.union block.writes

/-- The lines of a block as a text. -/
def lines (block : Block) : String :=
  toString block.startLine ++ "-" ++ toString block.endLine

end Block

/-- The name of a control block: its type and first line. -/
def controlBlockName (type : BlockType) (span : Span) : String :=
  type.label ++ ":" ++ toString span.startLine

/-- The block that a frame becomes under a number, if it becomes one. -/
def OpenBlock.extract? (frame : OpenBlock) (index : Nat) : Option Block :=
  match frame.type with
  | none => none
  | some type =>
    if frame.isConstructor || frame.isEmpty then none
    else some {
      index := index
      type := type
      name := if frame.name.isEmpty then controlBlockName type frame.span else frame.name
      startLine := frame.span.startLine
      endLine := frame.span.endLine
      reads := frame.reads
      writes := frame.writes
      members := frame.members }

end DesignLint.Cohesion
