import FlowWitness.Yaml.Layout

/-!
# YAML trees

A document is one node: a scalar, a sequence or a mapping.  A reference stands
for the last node before it with its anchor; within that node itself it cannot
be followed.  Where a node is left out, there is an empty plain scalar.
-/

namespace FlowWitness.Yaml

/-- A node of a document. -/
inductive Node where
  | scalar (text : String) (style : ScalarStyle) (tag : Option String)
  | sequence (items : List Node)
  | mapping (entries : List (Node × Node))
  | cycle
  deriving Repr

/-- What stands where nothing is written. -/
def Node.missing : Node := .scalar "" .plain none

/-! ## Reading in progress -/

/-- An anchor, with its node once that is read. -/
structure Anchor where
  name : String
  node : Option Node
  deriving Repr

/--
What is known while a document is read: the meanings of tag handles, and the
anchors in order.
-/
structure Context where
  handles : List (String × String)
  anchors : List Anchor
  deriving Repr

namespace Context

/-- The node that a name refers to. -/
def resolve (context : Context) (name : String) : Option Node :=
  (context.anchors.reverse.find? (fun anchor => anchor.name == name)).map
    (fun anchor => anchor.node.getD .cycle)

/-- The full text of a tag. -/
def expand (context : Context) (handle suffix : String) : Option String :=
  if handle.isEmpty then some suffix
  else (context.handles.lookup handle).map (fun meaning => meaning ++ suffix)

/-- Note that a node with an anchor begins. -/
def announce (context : Context) (name : Option String) : Context :=
  { context with
    anchors := context.anchors ++ (name.map (fun name => ⟨name, none⟩)).toList }

/-- Note the node of the anchor at a place. -/
def settle (context : Context) (place : Nat) (node : Node) : Context :=
  { context with
    anchors := context.anchors.modify place (fun anchor =>
      { anchor with node := some node }) }

end Context

/-- What is read of a document so far, and the tokens that follow. -/
structure Reading (Part : Type) where
  part : Part
  context : Context
  rest : List Token

/-- The anchor and the tag of a node. -/
structure Properties where
  anchor : Option String
  tag : Option String
  deriving DecidableEq, Repr

namespace Properties

/-- No properties. -/
def none : Properties := ⟨.none, .none⟩

/-- Are there any? -/
def any (properties : Properties) : Bool :=
  properties.anchor.isSome || properties.tag.isSome

/-- Read an anchor and a tag, at most one of each, in either order. -/
def read (context : Context) : List Token → Option (Properties × List Token)
  | .anchor name :: .tag handle suffix :: rest
  | .tag handle suffix :: .anchor name :: rest => do
    return (⟨name, ← context.expand handle suffix⟩, rest)
  | .anchor name :: rest => some (⟨name, .none⟩, rest)
  | .tag handle suffix :: rest => do
    return (⟨.none, ← context.expand handle suffix⟩, rest)
  | rest => some (none, rest)

end Properties

/-- Does the list begin with one of these tokens? -/
def startsWith (starts : List Token) : List Token → Bool
  | [] => false
  | token :: _ => starts.contains token

/-! ## Nodes -/

/--
Where a node stands: between brackets only what brackets allow, in a mapping
also a sequence that is not indented.
-/
inductive Position where
  | inBrackets
  | inSequence
  | inMapping
  deriving DecidableEq, Repr

mutual

/-- Read a node. -/
def readNode (position : Position) :
    Nat → Context → List Token → Option (Reading Node)
  | 0, _, _ => none
  | _ + 1, context, .reference name :: rest => do
    return ⟨← context.resolve name, context, rest⟩
  | rounds + 1, context, tokens => do
    let (properties, rest) ← Properties.read context tokens
    let place := context.anchors.length
    let begun := context.announce properties.anchor
    let read ← readContent position rounds begun properties rest
    match properties.anchor with
    | some _ =>
      return { read with context := read.context.settle place read.part }
    | none => return read

/-- Read a node after its properties. -/
def readContent (position : Position) :
    Nat → Context → Properties → List Token → Option (Reading Node)
  | 0, _, _, _ => none
  | rounds + 1, context, properties, tokens =>
    match tokens with
    | .scalar text style :: rest =>
      some ⟨.scalar text style properties.tag, context, rest⟩
    | .flowSequenceStart :: rest => do
      let read ← readFlowItems true rounds context rest
      return { read with part := .sequence read.part }
    | .flowMappingStart :: rest => do
      let read ← readFlowEntries true rounds context rest
      return { read with part := .mapping read.part }
    | _ =>
      if position == .inMapping && startsWith [.entry] tokens then do
        let read ← readItems false rounds context tokens
        return { read with part := .sequence read.part }
      else if position != .inBrackets && startsWith [.sequenceStart] tokens then do
        let read ← readItems true rounds context (tokens.drop 1)
        return { read with part := .sequence read.part }
      else if position != .inBrackets && startsWith [.mappingStart] tokens then do
        let read ← readEntries rounds context (tokens.drop 1)
        return { read with part := .mapping read.part }
      else if properties.any then
        some ⟨.scalar "" .plain properties.tag, context, tokens⟩
      else none

/-- Read a node, unless one of the given tokens shows that it is left out. -/
def readNodeUnless (position : Position) (ends : List Token) :
    Nat → Context → List Token → Option (Reading Node)
  | 0, _, _ => none
  | rounds + 1, context, tokens =>
    if startsWith ends tokens then some ⟨.missing, context, tokens⟩
    else readNode position rounds context tokens

/-- Read the items of a sequence, which has an end of its own if indented. -/
def readItems (indented : Bool) :
    Nat → Context → List Token → Option (Reading (List Node))
  | 0, _, _ => none
  | rounds + 1, context, tokens =>
    match tokens with
    | .entry :: rest => do
      let ends := if indented then [.entry, .blockEnd]
        else [.entry, .key, .value, .blockEnd]
      let item ← readNodeUnless .inSequence ends rounds context rest
      let items ← readItems indented rounds item.context item.rest
      return { items with part := item.part :: items.part }
    | .blockEnd :: rest =>
      some ⟨[], context, if indented then rest else tokens⟩
    | _ => if indented then none else some ⟨[], context, tokens⟩

/-- Read the value of a key, if one is given. -/
def readValueAfter (position : Position) (ends : List Token) :
    Nat → Context → List Token → Option (Reading Node)
  | 0, _, _ => none
  | rounds + 1, context, tokens =>
    match tokens with
    | .value :: rest => readNodeUnless position ends rounds context rest
    | _ => some ⟨.missing, context, tokens⟩

/-- Read the entries of a mapping. -/
def readEntries :
    Nat → Context → List Token → Option (Reading (List (Node × Node)))
  | 0, _, _ => none
  | rounds + 1, context, tokens =>
    let ends := [.key, .value, .blockEnd]
    match tokens with
    | .blockEnd :: rest => some ⟨[], context, rest⟩
    | .key :: rest => do
      let key ← readNodeUnless .inMapping ends rounds context rest
      let value ← readValueAfter .inMapping ends rounds key.context key.rest
      let entries ← readEntries rounds value.context value.rest
      return { entries with part := (key.part, value.part) :: entries.part }
    | _ => none

/-- Read the items of a sequence in brackets; a pair is a mapping of its own. -/
def readFlowItems (first : Bool) :
    Nat → Context → List Token → Option (Reading (List Node))
  | 0, _, _ => none
  | rounds + 1, context, tokens =>
    match first, tokens with
    | _, .flowSequenceEnd :: rest => some ⟨[], context, rest⟩
    | false, .flowEntry :: .flowSequenceEnd :: rest => some ⟨[], context, rest⟩
    | false, .flowEntry :: rest => do
      let item ← readFlowItem rounds context rest
      let items ← readFlowItems false rounds item.context item.rest
      return { items with part := item.part :: items.part }
    | true, rest => do
      let item ← readFlowItem rounds context rest
      let items ← readFlowItems false rounds item.context item.rest
      return { items with part := item.part :: items.part }
    | false, _ => none

/-- Read one item in brackets. -/
def readFlowItem : Nat → Context → List Token → Option (Reading Node)
  | 0, _, _ => none
  | rounds + 1, context, tokens =>
    let ends := [.flowEntry, .flowSequenceEnd]
    match tokens with
    | .key :: rest => do
      let key ← readNodeUnless .inBrackets (.value :: ends) rounds context rest
      let value ← readValueAfter .inBrackets ends rounds key.context key.rest
      return { value with part := .mapping [(key.part, value.part)] }
    | _ => readNode .inBrackets rounds context tokens

/-- Read the entries of a mapping in brackets. -/
def readFlowEntries (first : Bool) :
    Nat → Context → List Token → Option (Reading (List (Node × Node)))
  | 0, _, _ => none
  | rounds + 1, context, tokens =>
    match first, tokens with
    | _, .flowMappingEnd :: rest => some ⟨[], context, rest⟩
    | false, .flowEntry :: .flowMappingEnd :: rest => some ⟨[], context, rest⟩
    | false, .flowEntry :: rest => do
      let entry ← readFlowEntry rounds context rest
      let entries ← readFlowEntries false rounds entry.context entry.rest
      return { entries with part := entry.part :: entries.part }
    | true, rest => do
      let entry ← readFlowEntry rounds context rest
      let entries ← readFlowEntries false rounds entry.context entry.rest
      return { entries with part := entry.part :: entries.part }
    | false, _ => none

/-- Read one entry in brackets; without a key mark it has no value. -/
def readFlowEntry : Nat → Context → List Token → Option (Reading (Node × Node))
  | 0, _, _ => none
  | rounds + 1, context, tokens =>
    let ends := [.flowEntry, .flowMappingEnd]
    match tokens with
    | .key :: rest => do
      let key ← readNodeUnless .inBrackets (.value :: ends) rounds context rest
      let value ← readValueAfter .inBrackets ends rounds key.context key.rest
      return { value with part := (key.part, value.part) }
    | _ => do
      let key ← readNode .inBrackets rounds context tokens
      return { key with part := (key.part, .missing) }

end

/-! ## Documents -/

/-- The handles that need no directive. -/
def standardHandles : List (String × String) :=
  [("!", "!"), ("!!", "tag:yaml.org,2002:")]

/-- Read directives: at most one version, and each handle at most once. -/
def readDirectives (versioned : Bool) (handles : List (String × String)) :
    List Token → Option (List (String × String) × List Token)
  | .version major minor :: rest =>
    if versioned || major ≠ 1 || (minor ≠ 1 && minor ≠ 2) then none
    else readDirectives true handles rest
  | .tagHandle handle meaning :: rest =>
    if (handles.lookup handle).isSome then none
    else readDirectives versioned ((handle, meaning) :: handles) rest
  | rest => some (handles, rest)

/-- Read the node of a document. -/
def readRoot (handles : List (String × String)) (tokens : List Token) :
    Option (Reading Node) :=
  readNode .inSequence (4 * tokens.length + 8)
    ⟨handles ++ standardHandles, []⟩ tokens

/-- Read a document, whose start may be left out if nothing precedes it. -/
def readDocument : List Token → Option (Reading Node)
  | [] => none
  | tokens => do
    let (handles, rest) ← readDirectives false [] tokens
    match rest with
    | .documentStart :: content =>
      match content with
      | [] | .version _ _ :: _ | .tagHandle _ _ :: _ | .documentStart :: _
      | .documentEnd :: _ => return ⟨.missing, ⟨handles, []⟩, content⟩
      | _ => readRoot handles content
    | _ => if rest.length < tokens.length then none else readRoot [] rest

/-- The only document of a text. -/
def Node.read (text : String) : Option Node := do
  let document ← readDocument (← tokens text)
  if document.rest.all (fun token => token == .documentEnd) then
    return document.part
  else none

end FlowWitness.Yaml
