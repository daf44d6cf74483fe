import ClientBindings.Document.Yaml.Token

/-! The nodes of a YAML text, as documents. An anchor names a node, and a reference stands for the
latest node of its name. Scalars without quotes keep their text, for the reader of the document to
settle, and tags stay with their nodes. -/
namespace ClientBindings.Yaml

/-- Named nodes, the latest first; a node that is still being read has no content yet. -/
abbrev Anchors := List (List Char × Option Document)

/-- The handles of tags and what they stand for. -/
abbrev TagHandles := List (List Char × List Char)

def standardHandles : TagHandles :=
  [(['!'], ['!']), (['!', '!'], "tag:yaml.org,2002:".toList)]

/-- A node, the tokens behind it and the anchors so far. -/
abbrev Node := Document × List Token × Anchors

/-- An anchor and a tag before a node. -/
structure Properties where
  anchor : Option (List Char)
  tag : Option (List Char)

/-- The properties at the beginning of the tokens, at most one of each kind. -/
def properties? (handles : TagHandles) (tokens : List Token) : Option (Properties × List Token) :=
  match tokens with
  | .anchor name :: .tag handle suffix :: rest =>
    (resolve? handle suffix).map fun tag => (⟨some name, some tag⟩, rest)
  | .tag handle suffix :: .anchor name :: rest =>
    (resolve? handle suffix).map fun tag => (⟨some name, some tag⟩, rest)
  | .anchor name :: rest => some (⟨some name, none⟩, rest)
  | .tag handle suffix :: rest => (resolve? handle suffix).map fun tag => (⟨none, some tag⟩, rest)
  | rest => some (⟨none, none⟩, rest)
where
  resolve? (handle suffix : List Char) : Option (List Char) :=
    if handle.isEmpty then some suffix else (handles.lookup handle).map (· ++ suffix)

namespace Properties

/-- A node with its tag, if it has one. -/
def apply (p : Properties) (d : Document) : Document :=
  match p.tag with
  | none => d
  | some tag => .tagged (String.ofList tag) d

/-- Records what the anchor names, if there is one. -/
def name (p : Properties) (d : Option Document) (anchors : Anchors) : Anchors :=
  match p.anchor with
  | none => anchors
  | some name => (name, d) :: anchors

end Properties

/-- The text of a map key. -/
def keyText? : Document → Option String
  | .text s => some s
  | .plain s => some s
  | .tagged _ d => keyText? d
  | _ => none

/-- A map of its entries; one with keys that are no texts cannot be read. -/
def mapOf (entries : List (Document × Document)) : Document :=
  match entries.mapM fun e => (keyText? e.1).map fun key => (key, e.2) with
  | some entries => .map entries
  | none => .unreadable

def absent : Document := .plain ""

/-- Where an entry of a block map ends without a node. -/
def endsBlockEntry : List Token → Bool
  | .key :: _ => true
  | .value :: _ => true
  | .blockEnd :: _ => true
  | _ => false

/-- Where an entry of a flow collection ends without a node. -/
def endsFlowEntry (closing : Token) : List Token → Bool
  | t :: _ => t == .flowEntry || t == closing
  | [] => false

mutual

/-- Reads a node. Block collections stand only where `block` allows them, and the items of a list
may stand as deep as the map around it where `indentless` says so. -/
def node? (handles : TagHandles) (block indentless : Bool) :
    Nat → List Token → Anchors → Option Node
  | 0, _, _ => none
  | n + 1, tokens, anchors => match tokens with
    | .reference name :: rest => match anchors.lookup name with
      | some (some d) => some (d, rest, anchors)
      | _ => none
    | _ => match properties? handles tokens with
      | none => none
      | some (p, rest) => match rest with
        | .scalar text quoted :: rest =>
          let text := String.ofList text
          let d := p.apply (if quoted then .text text else .plain text)
          some (d, rest, p.name (some d) anchors)
        | .flowSequence :: rest =>
          (flowItems? handles true n rest (p.name none anchors)).map fun (items, rest, anchors) =>
            let d := p.apply (.list items)
            (d, rest, p.name (some d) anchors)
        | .flowMapping :: rest =>
          (flowEntries? handles true n rest (p.name none anchors)).map
            fun (entries, rest, anchors) =>
              let d := p.apply (mapOf entries)
              (d, rest, p.name (some d) anchors)
        | t :: rest' =>
          if indentless && t == .blockEntry then
            (indentlessItems? handles n rest (p.name none anchors)).map
              fun (items, rest, anchors) =>
                let d := p.apply (.list items)
                (d, rest, p.name (some d) anchors)
          else if block && t == .blockSequence then
            (blockItems? handles n rest' (p.name none anchors)).map fun (items, rest, anchors) =>
              let d := p.apply (.list items)
              (d, rest, p.name (some d) anchors)
          else if block && t == .blockMapping then
            (blockEntries? handles n rest' (p.name none anchors)).map
              fun (entries, rest, anchors) =>
                let d := p.apply (mapOf entries)
                (d, rest, p.name (some d) anchors)
          else empty? p rest anchors
        | [] => empty? p rest anchors
where
  /-- Properties without content name an absent value. -/
  empty? (p : Properties) (rest : List Token) (anchors : Anchors) : Option Node :=
    if p.anchor.isNone && p.tag.isNone then none
    else
      let d := p.apply absent
      some (d, rest, p.name (some d) anchors)

/-- The items of a block list, up to the end of the block. -/
def blockItems? (handles : TagHandles) :
    Nat → List Token → Anchors → Option (List Document × List Token × Anchors)
  | 0, _, _ => none
  | n + 1, tokens, anchors => match tokens with
    | .blockEnd :: rest => some ([], rest, anchors)
    | .blockEntry :: rest =>
      let item := match rest with
        | .blockEntry :: _ => some (absent, rest, anchors)
        | .blockEnd :: _ => some (absent, rest, anchors)
        | _ => node? handles true false n rest anchors
      item.bind fun (item, rest, anchors) =>
        (blockItems? handles n rest anchors).map fun (items, rest, anchors) =>
          (item :: items, rest, anchors)
    | _ => none

/-- The items of a list that stands as deep as the map around it. -/
def indentlessItems? (handles : TagHandles) :
    Nat → List Token → Anchors → Option (List Document × List Token × Anchors)
  | 0, _, _ => none
  | n + 1, tokens, anchors => match tokens with
    | .blockEntry :: rest =>
      let item := match rest with
        | .blockEntry :: _ => some (absent, rest, anchors)
        | _ =>
          if endsBlockEntry rest then some (absent, rest, anchors)
          else node? handles true false n rest anchors
      item.bind fun (item, rest, anchors) =>
        (indentlessItems? handles n rest anchors).map fun (items, rest, anchors) =>
          (item :: items, rest, anchors)
    | _ => some ([], tokens, anchors)

/-- The entries of a block map, up to the end of the block. -/
def blockEntries? (handles : TagHandles) :
    Nat → List Token → Anchors → Option (List (Document × Document) × List Token × Anchors)
  | 0, _, _ => none
  | n + 1, tokens, anchors =>
    let key := match tokens with
      | .key :: rest =>
        if endsBlockEntry rest then some (absent, rest, anchors)
        else node? handles true true n rest anchors
      | .value :: _ => none
      | _ => none
    match tokens with
    | .blockEnd :: rest => some ([], rest, anchors)
    | _ => key.bind fun (key, rest, anchors) =>
      let value := match rest with
        | .value :: rest =>
          if endsBlockEntry rest then some (absent, rest, anchors)
          else node? handles true true n rest anchors
        | _ => some (absent, rest, anchors)
      value.bind fun (value, rest, anchors) =>
        (blockEntries? handles n rest anchors).map fun (entries, rest, anchors) =>
          ((key, value) :: entries, rest, anchors)

/-- The items of a flow list. A marked key among them makes a map of one entry. -/
def flowItems? (handles : TagHandles) (first : Bool) :
    Nat → List Token → Anchors → Option (List Document × List Token × Anchors)
  | 0, _, _ => none
  | n + 1, tokens, anchors => match tokens with
    | .flowSequenceEnd :: rest => some ([], rest, anchors)
    | _ =>
      let tokens? := if first then some tokens else match tokens with
        | .flowEntry :: rest => some rest
        | _ => none
      tokens?.bind fun tokens =>
        let item := match tokens with
          | .flowSequenceEnd :: _ => none
          | .key :: rest => some (flowPair? handles n rest anchors)
          | _ => some (node? handles false false n tokens anchors)
        match item with
        | none => some ([], tokens.drop 1, anchors)
        | some item => item.bind fun (item, rest, anchors) =>
          (flowItems? handles false n rest anchors).map fun (items, rest, anchors) =>
            (item :: items, rest, anchors)

/-- The only entry of a map that is an item of a flow list. -/
def flowPair? (handles : TagHandles) : Nat → List Token → Anchors → Option Node
  | 0, _, _ => none
  | n + 1, tokens, anchors =>
    let key := match tokens with
      | .value :: rest => some (absent, rest, anchors)
      | _ =>
        if endsFlowEntry .flowSequenceEnd tokens then some (absent, tokens.drop 1, anchors)
        else node? handles false false n tokens anchors
    key.bind fun (key, rest, anchors) =>
      let value := match rest with
        | .value :: rest =>
          if endsFlowEntry .flowSequenceEnd rest then some (absent, rest, anchors)
          else node? handles false false n rest anchors
        | _ => some (absent, rest, anchors)
      value.map fun (value, rest, anchors) => (mapOf [(key, value)], rest, anchors)

/-- The entries of a flow map. -/
def flowEntries? (handles : TagHandles) (first : Bool) :
    Nat → List Token → Anchors → Option (List (Document × Document) × List Token × Anchors)
  | 0, _, _ => none
  | n + 1, tokens, anchors => match tokens with
    | .flowMappingEnd :: rest => some ([], rest, anchors)
    | _ =>
      let tokens? := if first then some tokens else match tokens with
        | .flowEntry :: rest => some rest
        | _ => none
      tokens?.bind fun tokens => match tokens with
        | .flowMappingEnd :: rest => some ([], rest, anchors)
        | .key :: rest =>
          let key := match rest with
            | .value :: _ => some (absent, rest, anchors)
            | _ =>
              if endsFlowEntry .flowMappingEnd rest then some (absent, rest, anchors)
              else node? handles false false n rest anchors
          key.bind fun (key, rest, anchors) =>
            let value := match rest with
              | .value :: rest =>
                if endsFlowEntry .flowMappingEnd rest then some (absent, rest, anchors)
                else node? handles false false n rest anchors
              | _ => some (absent, rest, anchors)
            value.bind fun (value, rest, anchors) =>
              (flowEntries? handles false n rest anchors).map fun (entries, rest, anchors) =>
                ((key, value) :: entries, rest, anchors)
        | _ => (node? handles false false n tokens anchors).bind fun (key, rest, anchors) =>
          (flowEntries? handles false n rest anchors).map fun (entries, rest, anchors) =>
            ((key, absent) :: entries, rest, anchors)

end

/-- Directives before a document: at most one version, and each handle once. -/
def directives? (version : Bool) (handles : TagHandles) :
    List Token → Option (TagHandles × List Token)
  | .versionDirective major minor :: rest =>
    if version || major ≠ 1 || (minor ≠ 1 && minor ≠ 2) then none
    else directives? true handles rest
  | .tagDirective handle start :: rest =>
    if (handles.lookup handle).isSome then none
    else directives? version ((handle, start) :: handles) rest
  | rest => some (handles ++ standardHandles, rest)

/-- Where a document ends without a node. -/
def endsDocument : List Token → Bool
  | [] => true
  | .versionDirective _ _ :: _ => true
  | .tagDirective _ _ :: _ => true
  | .documentStart :: _ => true
  | .documentEnd :: _ => true
  | _ => false

/-- The document that the tokens hold; a text without one is an absent value. -/
def document? (tokens : List Token) : Option Document :=
  match tokens with
  | [] => some absent
  | _ => do
    let fuel := 4 * tokens.length + 4
    let isExplicit := match tokens with
      | .versionDirective _ _ :: _ => true
      | .tagDirective _ _ :: _ => true
      | .documentStart :: _ => true
      | _ => false
    let (d, rest, _) ←
      if isExplicit then do
        let (handles, rest) ← directives? false [] tokens
        match rest with
        | .documentStart :: rest =>
          if endsDocument rest then some (absent, rest, [])
          else node? handles true false fuel rest []
        | _ => none
      else node? standardHandles true false fuel tokens []
    if (rest.dropWhile (· == .documentEnd)).isEmpty then some d else none

end ClientBindings.Yaml
