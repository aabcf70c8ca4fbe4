/-!
# Trees of source text

A tree keeps of a source file what the search for calls needs: which expressions
there are, which of them are calls with an identifier before the parentheses, and
in which order they are visited.  The children of a node stand in that order.

An expression that turns out to be a pattern is converted: what is no pattern
becomes `invalid` and loses its children.
-/

namespace Phrasebook.Source

/-- What a node is, beyond identifiers, strings and calls. -/
inductive Kind where
  | this
  | literal
  | template
  | taggedTemplate
  | array
  | hole
  | object
  | property
  | shorthand
  | shorthandDefault
  | method
  | computed
  | spread
  | function
  | arrow
  | classExpression
  | classBody
  | paren
  | unary
  | awaitExpression
  | yieldExpression
  | update
  | binary
  | conditional
  | assignment
  | otherAssignment
  | sequence
  | member
  | superMember
  | optionalChain
  | newExpression
  | newWithoutArguments
  | metaProperty
  | importCall
  | superCall
  | typeCast
  | nonNull
  | instantiation
  | element
  | privateName
  | pattern
  | typedName
  | rest
  | restated
  | invalid
  | type
  | statement
  | doLoop
  | module
  deriving DecidableEq, Repr

/-- A tree.  The places of a call are the texts from its beginning and its end on;
its type arguments are visited last. -/
inductive Node where
  | ident (name : String)
  | string (value : Option String)
  | call (start stop : List Char) (callee : Node) (arguments types : List Node)
  | node (kind : Kind) (children : List Node)

instance : Inhabited Node := ⟨.node .invalid []⟩

namespace Node

/-- A node without children. -/
def leaf (kind : Kind) : Node :=
  .node kind []

/-- Whether a node is of a kind. -/
def isKind (node : Node) (kind : Kind) : Bool :=
  match node with
  | .node k _ => k == kind
  | _ => false

/-- Whether a node is an identifier. -/
def isIdent : Node → Bool
  | .ident _ => true
  | _ => false

/-- Whether a node is an array or an object, which may stand for a pattern. -/
def isLiteralPattern : Node → Bool
  | .node .array _ => true
  | .node .object _ => true
  | _ => false

/-- Whether a value can be assigned to a node that is neither array nor object. -/
def isSimpleTarget : Node → Bool
  | .ident _ => true
  | .node .member _ => true
  | .node .superMember _ => true
  | .node .optionalChain _ => true
  | .node .paren _ => true
  | .node .typeCast _ => true
  | .node .nonNull _ => true
  | .node .instantiation _ => true
  | .node .pattern _ => true
  | .node .invalid _ => true
  | _ => false

/-- Which patterns an expression is converted into: those that assign to existing
places, or those that bind names. -/
inductive PatternRole where
  | assignment
  | binding
  deriving DecidableEq, Repr

/-- Whether an expression inside an assigning pattern stays as it is. -/
def staysInAssignment : Node → Bool
  | .ident _ => true
  | .string _ => true
  | .call _ _ _ _ _ => true
  | .node kind _ =>
      [.member, .superMember, .newExpression, .this, .literal, .function,
       .classExpression, .paren, .template, .typeCast].contains kind

mutual

/-- The pattern an expression stands for; `none` if a method stands where only
patterns may. -/
def asPattern (role : PatternRole) : Node → Option Node
  | .node .assignment (target :: values) =>
      if target.isKind .pattern then some (.node .pattern (target :: values))
      else (asPattern role target).map fun target => .node .pattern (target :: values)
  | .node .object members =>
      (membersAsPatterns role members).map fun members => .node .pattern members
  | .node .array items =>
      (itemsAsPatterns role items).map fun items => .node .pattern items
  | .node .pattern children => some (.node .pattern children)
  | .ident name => some (.ident name)
  | other =>
      if role = .assignment ∧ other.staysInAssignment then some other
      else some (.node .invalid [])

/-- The patterns of the members of an object. -/
def membersAsPatterns (role : PatternRole) : List Node → Option (List Node)
  | [] => some []
  | member :: rest => do
      let member ← memberAsPattern role member
      let rest ← membersAsPatterns role rest
      return member :: rest

/-- The pattern of a member of an object. -/
def memberAsPattern (role : PatternRole) : Node → Option Node
  | .node .property [key, value] =>
      (asPattern role value).map fun value => .node .property [key, value]
  | .node .spread [.ident name] => some (.node .rest [.ident name])
  | .node .spread [other] =>
      if role = .binding then some (.node .rest [.node .invalid []])
      else (asPattern role other).map fun other => .node .rest [other]
  | .node .method _ => none
  | other => some other

/-- The patterns of the items of an array.  A spread item counts only in the last
place. -/
def itemsAsPatterns (role : PatternRole) : List Node → Option (List Node)
  | [] => some []
  | .node .hole _ :: rest => itemsAsPatterns role rest
  | .node .spread [item] :: rest =>
      match rest with
      | [] => (asPattern role item).map fun item => [.node .rest [item]]
      | _ => itemsAsPatterns role rest
  | item :: rest => do
      let item ← asPattern role item
      let rest ← itemsAsPatterns role rest
      return item :: rest

end

end Node
end Phrasebook.Source
