import Entitlement.Yaml.Lexer
import Entitlement.Yaml.Node

/-!
# YAML documents

A text of YAML holds documents, and this library reads those of one or
none. `readDocument?` puts the tokens of a text together to the node that
it says. An anchor names a node, and a reference stands for the node that
had the name last; within that node itself it stands for nothing.
-/

namespace Entitlement.Yaml

/-! ## Reading steps -/

/-- **What nodes are read from**: the tokens that follow, and what names
stand for. -/
structure Source where
  tokens : List Token
  /-- What the handles of tags stand for. -/
  shorthands : List (String × String) := []
  /-- The names of anchors with the numbers of their nodes, the latest
  first. -/
  anchors : List (String × Nat) := []
  /-- The nodes with an anchor that were read to their end. -/
  nodes : List (Nat × Node) := []

/-- A step that reads from the front of a source, or fails. -/
abbrev Reader (α : Type) := StateT Source Option α

namespace Reader

/-- Fails. -/
def fail {α : Type} : Reader α := fun _ => none

/-- The next token. -/
def peek? : Reader (Option Token) := fun s => some (s.tokens.head?, s)

/-- Whether the next token is one of some. -/
def nextIn (ts : List Token) : Reader Bool := fun s =>
  some (s.tokens.head?.any ts.contains, s)

/-- Takes the next token. -/
def skip : Reader Unit := fun s =>
  some ((), { s with tokens := s.tokens.tail })

/-- Takes a token if it is next, and says whether it was. -/
def accept (t : Token) : Reader Bool := do
  if ← nextIn [t] then
    skip
    pure true
  else pure false

/-! ## Properties -/

/-- The number of a node with an anchor. -/
def register (name : String) : Reader Nat := fun s =>
  let number := s.anchors.length
  some (number, { s with anchors := (name, number) :: s.anchors })

/-- Keeps a node that has a number. -/
def keep (number : Option Nat) (node : Node) : Reader Unit := fun s =>
  match number with
  | some n => some ((), { s with nodes := (n, node) :: s.nodes })
  | none => some ((), s)

/-- The node that a reference stands for. -/
def resolve (name : String) : Reader Node := fun s =>
  (s.anchors.lookup name).map fun number =>
    ((s.nodes.lookup number).getD .invalid, s)

/-- The handle that tags of YAML itself have. -/
def standardHandle : String := "!!"

/-- **The whole of a tag.** A handle between two marks has to be
declared. -/
def wholeTag (handle suffix : String) : Reader (String × String) := fun s =>
  match s.shorthands.lookup handle with
  | some start => some ((start, suffix), s)
  | none =>
    if handle = standardHandle then some ((Node.standardTags, suffix), s)
    else if 2 ≤ handle.length ∧ handle.toList.getLast? = some '!' then none
    else some ((handle, suffix), s)

/-- The tag in front of a node. -/
def tag : Reader (Option (String × String)) := do
  match ← peek? with
  | some (.tag handle suffix) =>
    skip
    some <$> wholeTag handle suffix
  | _ => pure none

/-- The number of the anchor in front of a node. -/
def anchor : Reader (Option Nat) := do
  match ← peek? with
  | some (.anchor name) =>
    skip
    some <$> register name
  | _ => pure none

/-- **The properties of a node**, in either order. -/
def properties : Reader (Option Nat × Option (String × String)) := do
  match ← anchor with
  | some number => pure (some number, ← tag)
  | none =>
    match ← tag with
    | some t => pure (← anchor, some t)
    | none => pure (none, none)

end Reader

open Reader

/-! ## Nodes -/

/-- The node that `read` finds, or null in front of one of some tokens. -/
def orNull (ends : List Token) (read : Reader Node) : Reader Node := do
  if ← nextIn ends then pure .null else read

mutual

/-- **A node.** By indentation it may be a collection where `inBlock` says
so, and with `besideKey` a list whose items stand no deeper than the key.
`count` bounds the steps. -/
def readNode (inBlock besideKey : Bool) : Nat → Reader Node
  | 0 => fail
  | count + 1 => do
    match ← peek? with
    | some (.reference name) =>
      skip
      resolve name
    | _ =>
      let (number, tag) ← properties
      let node ← match ← peek? with
        | some (.scalar isPlain text) => do
          skip
          pure (.ofScalar isPlain tag text)
        | some .openBracket => do
          skip
          .list <$> readFlowItems true count
        | some .openBrace => do
          skip
          ofParts (← readFlowParts true count)
        | next =>
          if besideKey && next = some .item then
            .list <$> readSideItems count
          else if inBlock && next = some .listStart then do
            skip
            .list <$> readItems count
          else if inBlock && next = some .mappingStart then do
            skip
            ofParts (← readParts count)
          else if number.isSome || tag.isSome then
            pure (.ofScalar true tag "")
          else fail
      keep number node
      pure node
where
  /-- The mapping of names and values in turn. -/
  ofParts (parts : List Node) : Reader Node := fun s =>
    (Node.ofParts? parts).map fun node => (node, s)

/-- The items of a list by indentation. -/
def readItems : Nat → Reader (List Node)
  | 0 => fail
  | count + 1 => do
    if ← accept .blockEnd then pure []
    else if ← accept .item then
      let node ← orNull [.item, .blockEnd] (readNode true false count)
      (node :: ·) <$> readItems count
    else fail

/-- The items of a list that stand no deeper than the key in front. -/
def readSideItems : Nat → Reader (List Node)
  | 0 => fail
  | count + 1 => do
    if ← accept .item then
      let node ← orNull [.item, .key, .value, .blockEnd]
        (readNode true false count)
      (node :: ·) <$> readSideItems count
    else pure []

/-- The value of a key in a mapping by indentation. -/
def readValue : Nat → Reader Node
  | 0 => fail
  | count + 1 => do
    if ← accept .value then
      orNull [.key, .value, .blockEnd] (readNode true true count)
    else pure .null

/-- The keys and values of a mapping by indentation, in turn. -/
def readParts : Nat → Reader (List Node)
  | 0 => fail
  | count + 1 => do
    if ← accept .blockEnd then pure []
    else
      let key ←
        if ← accept .key then
          orNull [.key, .value, .blockEnd] (readNode true true count)
        else orNull [.value] fail
      let value ← readValue count
      (fun parts => key :: value :: parts) <$> readParts count

/-- The value of a key in brackets, in front of a comma or the closing
bracket. -/
def readFlowValue (closing : Token) : Nat → Reader Node
  | 0 => fail
  | count + 1 => do
    if ← accept .value then
      orNull [.comma, closing] (readNode false false count)
    else pure .null

/-- A part of a mapping in braces: a key and its value. -/
def readFlowPart : Nat → Reader (List Node)
  | 0 => fail
  | count + 1 => do
    if ← accept .key then
      let key ← orNull [.value, .comma, .closeBrace]
        (readNode false false count)
      pure [key, ← readFlowValue .closeBrace count]
    else if ← nextIn [.value] then
      pure [.null, ← readFlowValue .closeBrace count]
    else pure [← readNode false false count, .null]

/-- The keys and values of a mapping in braces, in turn; all but the first
stand behind a comma. -/
def readFlowParts (isFirst : Bool) : Nat → Reader (List Node)
  | 0 => fail
  | count + 1 => do
    if ← accept .closeBrace then pure []
    else
      if !isFirst then
        if !(← accept .comma) then fail
      if ← accept .closeBrace then pure []
      else
        let part ← readFlowPart count
        (part ++ ·) <$> readFlowParts false count

/-- An item of a list in brackets, which may be a mapping of one pair. -/
def readFlowItem : Nat → Reader Node
  | 0 => fail
  | count + 1 => do
    if ← accept .key then
      let key ←
        if ← nextIn [.value, .comma, .closeBracket] then
          skip
          pure .null
        else readNode false false count
      let value ← readFlowValue .closeBracket count
      pure (.mapping (Node.paired [key, value]))
    else readNode false false count

/-- The items of a list in brackets; all but the first stand behind a
comma. -/
def readFlowItems (isFirst : Bool) : Nat → Reader (List Node)
  | 0 => fail
  | count + 1 => do
    if ← accept .closeBracket then pure []
    else
      if !isFirst then
        if !(← accept .comma) then fail
      if ← accept .closeBracket then pure []
      else
        let node ← readFlowItem count
        (node :: ·) <$> readFlowItems false count

end

/-! ## Documents -/

/-- What the directives in front of a document say, of which the last one
counts. One with a version stands there once at most. -/
def readDirectives? (hasVersion : Bool) (shorthands : List (String × String)) :
    List Token → Option (List (String × String) × List Token)
  | .version :: ts =>
    if hasVersion then none else readDirectives? true [] ts
  | .shorthand handle start :: ts =>
    readDirectives? hasVersion [(handle, start)] ts
  | ts => some (shorthands, ts)

/-- Whether a document begins with a token of its own. -/
def beginsDocument : Token → Bool
  | .version | .shorthand .. | .documentStart => true
  | _ => false

/-- The node of a document behind its mark, which may be missing. -/
def readContent (count : Nat) : Reader Node := do
  match ← peek? with
  | none => pure .null
  | some t =>
    if t = .documentEnd || beginsDocument t then pure .null
    else readNode true false count

/-- The steps that suffice for a number of tokens: each of them is taken
in three steps at most. -/
def stepsFor (tokens : List Token) : Nat := 4 * tokens.length + 4

/-- Without the marks at the ends of documents. -/
def skipEnds (ts : List Token) : List Token :=
  ts.dropWhile (· == .documentEnd)

/-- **The document that tokens make up**, if there is one; they are no YAML
otherwise, or more than one document. -/
def documentOf? (ts : List Token) : Option (Option Node) := do
  let ts := skipEnds ts
  let count := stepsFor ts
  match ts with
  | [] => some none
  | t :: _ =>
    let (node, source) ←
      if beginsDocument t then do
        match ← readDirectives? false [] ts with
        | (shorthands, .documentStart :: ts) =>
          readContent count { tokens := ts, shorthands }
        | _ => none
      else readNode true false count { tokens := ts }
    if (skipEnds source.tokens).isEmpty then some (some node) else none

/-- **What a YAML text says**, if it holds one document; a text without
any says nothing. -/
def readDocument? (text : String) : Option (Option Node) :=
  (tokenize? text).bind documentOf?

end Entitlement.Yaml
