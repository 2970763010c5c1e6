import DesignLint.Proofs.Cohesion.Enclosure

/-!
# Attribution of names and members

What every block and every unit of a tree uses, read off the places of the tree. No
state is involved: where an occurrence counts depends only on what stands around it.
-/

namespace DesignLint.Cohesion

open DesignLint.Syntax

/-! ## Blocks -/

/-- Whether a block of a unit stands at a place: a control statement for a function,
a method for a class, with the unit as its nearest one. -/
def isBlockOf (unit block : SyntaxPlace) : Bool :=
  (match kindAt? unit with
    | some .function => isControl block
    | some .class => (methodAt? block).isSome
    | none => false)
  && (homeOf? block).any fun home => home.address == unit.address

/-- The address of the innermost block of the nearest function that a place lies in,
or of the function itself. A place whose nearest unit is no function has none. -/
def spotOf? (place : SyntaxPlace) : Option Address :=
  match homeOf? place with
  | some unit =>
      if kindAt? unit = some .function then
        some ((place.around.find? (isBlockOf unit)).getD unit).address
      else none
  | none => none

/-! ## Names -/

/-- The receiver of the method that stands at a place. -/
def receiverAt? (place : SyntaxPlace) : Option String := (methodAt? place).bind (·.receiver)

/-- The receivers of the functions that a place lies in, up to the nearest class. -/
def receiversAround (place : SyntaxPlace) : List String :=
  ((unitsAround place).takeWhile fun unit => kindAt? unit != some .class).filterMap fun unit =>
    nonemptyName (receiverAt? unit)

/-- How a name counts at a place. -/
def creditAt (place : SyntaxPlace) (name : String) (binding : Binding) : Credit :=
  if (receiversAround place).contains name then .skip
  else if binding = .load then .read
  else .write

/-- The name at a place, if it counts in a given way for a given spot. -/
def usedName? (spot : Address) (credit : Credit) (place : SyntaxPlace) : Option String :=
  match nameAt? place with
  | some (name, binding) =>
      if spotOf? place = some spot ∧ creditAt place name binding = credit then some name else none
  | none => none

/-- The names that count in a given way for a spot, in order of first use. -/
def namesUsed (places : List SyntaxPlace) (spot : Address) (credit : Credit) : NameSet :=
  .ofNames (places.filterMap (usedName? spot credit))

/-! ## Members -/

/-- The innermost method around a place whose receiver has a given name. -/
def methodInCharge? (place : SyntaxPlace) (receiver : String) : Option SyntaxPlace :=
  place.around.find? fun outer => receiverAt? outer == some receiver

/-- The member accessed at a place, if the method in charge stands at a given
address. -/
def usedMember? (method : Address) (place : SyntaxPlace) : Option String :=
  match accessAt? place with
  | some (receiver, member) =>
      if (methodInCharge? place receiver).map (·.address) = some method then some member else none
  | none => none

/-- The members that a method is in charge of, in order of first use. -/
def membersUsed (places : List SyntaxPlace) (method : Address) : NameSet :=
  .ofNames (places.filterMap (usedMember? method))

/-! ## Units -/

/-- What the block at a place uses. -/
def usageOf (places : List SyntaxPlace) (block : SyntaxPlace) : OpenBlock :=
  match elementAt? block with
  | some (.controlBlock type span) =>
      { type := some type
        span := span
        reads := namesUsed places block.address .read
        writes := namesUsed places block.address .write }
  | some (.function _ span (some method) _ _) =>
      { type := some .method
        span := span
        name := method.name
        receiver := method.receiver
        isConstructor := method.isConstructor
        members := membersUsed places block.address }
  | _ => { type := none, span := ⟨0, 0⟩ }

/-- The name of the unit at a place. -/
def unitNameAt (place : SyntaxPlace) : String :=
  match elementAt? place with
  | some (.function name ..) => name
  | some (.class name ..) => name
  | _ => ""

/-- The lines of the unit at a place. -/
def spanAt (place : SyntaxPlace) : Span :=
  match elementAt? place with
  | some (.function _ span ..) => span
  | some (.class _ span _) => span
  | _ => ⟨0, 0⟩

/-- The frames that become blocks, numbered in order. -/
def numberedBlocks (frames : List OpenBlock) : List Block :=
  frames.foldl (fun blocks frame => blocks ++ (frame.extract? blocks.length).toList) []

/-- The unit at a place with the blocks among those listed. -/
def unitAt (places blocks : List SyntaxPlace) (unit : SyntaxPlace) : CodeUnit :=
  { kind := (kindAt? unit).getD .function
    name := unitNameAt unit
    span := spanAt unit
    receiver := receiverAt? unit
    blocks := numberedBlocks ((blocks.filter (isBlockOf unit)).map (usageOf places))
    declared :=
      if kindAt? unit = some .function then namesUsed places unit.address .write else []
    stage := .finalizing }

end DesignLint.Cohesion
