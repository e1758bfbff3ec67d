import WorkflowEngine.Document.Basic
import WorkflowEngine.Yaml.Token

/-!
# Reading YAML text

A text is read into the document that its tokens form. What is left out, such as the value after a
key, is an empty scalar. A text holds one document; one without any content is an empty scalar.
-/

namespace WorkflowEngine.Yaml

def emptyScalar : Document := .scalar (.plain "")

/-- The text of a key; `none` when the key is a collection. -/
def keyText : Document → Option String
  | .scalar (.text s) => s
  | .scalar (.plain s) => some s
  | _ => none

mutual

/-- A node at the front of the tokens. `block` says whether a block collection may begin, and
`loose` whether a sequence may stand at the indentation of the map around it. -/
def readNode : Nat → Bool → Bool → List Token → Option (Document × List Token)
  | 0, _, _, _ => none
  | fuel + 1, block, loose, tokens =>
    match tokens with
    | .scalar true text :: rest => some (.scalar (.text (some text)), rest)
    | .scalar false text :: rest => some (.scalar (.plain text), rest)
    | .flowSeq :: rest => (readFlowItems fuel true rest).map fun (items, rest) => (.seq items, rest)
    | .flowMap :: rest =>
      (readFlowEntries fuel true rest).map fun (entries, rest) => (.map entries, rest)
    | .blockSeq :: rest =>
      if block then (readBlockItems fuel rest).map fun (items, rest) => (.seq items, rest) else none
    | .blockMap :: rest =>
      if block then
        (readBlockEntries fuel rest).map fun (entries, rest) => (.map entries, rest)
      else none
    | .blockEntry :: _ =>
      if loose then (readLooseItems fuel tokens).map fun (items, rest) => (.seq items, rest)
      else none
    | _ => none

/-- Items of a block sequence up to its end. -/
def readBlockItems : Nat → List Token → Option (List Document × List Token)
  | 0, _ => none
  | fuel + 1, tokens =>
    match tokens with
    | .blockEnd :: rest => some ([], rest)
    | .blockEntry :: rest =>
      let item :=
        match rest with
        | .blockEntry :: _ => some (emptyScalar, rest)
        | .blockEnd :: _ => some (emptyScalar, rest)
        | _ => readNode fuel true false rest
      match item with
      | none => none
      | some (item, rest) =>
        (readBlockItems fuel rest).map fun (items, rest) => (item :: items, rest)
    | _ => none

/-- Items of a sequence at the indentation of its map; anything but an item ends it. -/
def readLooseItems : Nat → List Token → Option (List Document × List Token)
  | 0, _ => none
  | fuel + 1, tokens =>
    match tokens with
    | .blockEntry :: rest =>
      let item :=
        match rest with
        | .blockEntry :: _ => some (emptyScalar, rest)
        | .key :: _ => some (emptyScalar, rest)
        | .value :: _ => some (emptyScalar, rest)
        | .blockEnd :: _ => some (emptyScalar, rest)
        | _ => readNode fuel true false rest
      match item with
      | none => none
      | some (item, rest) =>
        (readLooseItems fuel rest).map fun (items, rest) => (item :: items, rest)
    | _ => some ([], tokens)

/-- Entries of a block map up to its end. -/
def readBlockEntries : Nat → List Token → Option (List (Option String × Document) × List Token)
  | 0, _ => none
  | fuel + 1, tokens =>
    let part (rest : List Token) : Option (Document × List Token) :=
      match rest with
      | .key :: _ => some (emptyScalar, rest)
      | .value :: _ => some (emptyScalar, rest)
      | .blockEnd :: _ => some (emptyScalar, rest)
      | _ => readNode fuel true true rest
    let entry : Option (Option String × List Token) :=
      match tokens with
      | .key :: rest => (part rest).map fun (key, rest) => (keyText key, rest)
      | .value :: _ => some (some "", tokens)
      | _ => none
    match tokens, entry with
    | .blockEnd :: rest, _ => some ([], rest)
    | _, none => none
    | _, some (key, rest) =>
      let value :=
        match rest with
        | .value :: rest => part rest
        | rest => some (emptyScalar, rest)
      match value with
      | none => none
      | some (value, rest) =>
        (readBlockEntries fuel rest).map fun (entries, rest) => ((key, value) :: entries, rest)

/-- Items of a flow sequence up to its bracket. An item with a key is a map of one entry. -/
def readFlowItems : Nat → Bool → List Token → Option (List Document × List Token)
  | 0, _, _ => none
  | fuel + 1, first, tokens =>
    let separated :=
      if first then some tokens
      else
        match tokens with
        | .flowEntry :: rest => some rest
        | .flowSeqEnd :: _ => some tokens
        | _ => none
    match separated with
    | none => none
    | some (.flowSeqEnd :: rest) => some ([], rest)
    | some (.key :: rest) =>
      let key :=
        match rest with
        | .value :: _ => some (emptyScalar, rest)
        | .flowEntry :: _ => some (emptyScalar, rest)
        | .flowSeqEnd :: _ => some (emptyScalar, rest)
        | _ => readNode fuel false false rest
      match key with
      | none => none
      | some (key, rest) =>
        let value :=
          match rest with
          | .value :: .flowEntry :: _ => some (emptyScalar, rest.drop 1)
          | .value :: .flowSeqEnd :: _ => some (emptyScalar, rest.drop 1)
          | .value :: rest => readNode fuel false false rest
          | rest => some (emptyScalar, rest)
        match value with
        | none => none
        | some (value, rest) =>
          (readFlowItems fuel false rest).map fun (items, rest) =>
            (.map [(keyText key, value)] :: items, rest)
    | some rest =>
      match readNode fuel false false rest with
      | none => none
      | some (item, rest) =>
        (readFlowItems fuel false rest).map fun (items, rest) => (item :: items, rest)

/-- Entries of a flow map up to its brace. -/
def readFlowEntries : Nat → Bool → List Token →
    Option (List (Option String × Document) × List Token)
  | 0, _, _ => none
  | fuel + 1, first, tokens =>
    let separated :=
      if first then some tokens
      else
        match tokens with
        | .flowEntry :: rest => some rest
        | .flowMapEnd :: _ => some tokens
        | _ => none
    match separated with
    | none => none
    | some (.flowMapEnd :: rest) => some ([], rest)
    | some (.key :: rest) =>
      let key :=
        match rest with
        | .value :: _ => some (emptyScalar, rest)
        | .flowEntry :: _ => some (emptyScalar, rest)
        | .flowMapEnd :: _ => some (emptyScalar, rest)
        | _ => readNode fuel false false rest
      match key with
      | none => none
      | some (key, rest) =>
        let value :=
          match rest with
          | .value :: .flowEntry :: _ => some (emptyScalar, rest.drop 1)
          | .value :: .flowMapEnd :: _ => some (emptyScalar, rest.drop 1)
          | .value :: rest => readNode fuel false false rest
          | rest => some (emptyScalar, rest)
        match value with
        | none => none
        | some (value, rest) =>
          (readFlowEntries fuel false rest).map fun (entries, rest) =>
            ((keyText key, value) :: entries, rest)
    | some rest =>
      match readNode fuel false false rest with
      | none => none
      | some (key, rest) =>
        (readFlowEntries fuel false rest).map fun (entries, rest) =>
          ((keyText key, emptyScalar) :: entries, rest)

end

/-- Drops markers of a document's end. -/
def skipEnds (tokens : List Token) : List Token :=
  tokens.dropWhile fun
    | .documentEnd => true
    | _ => false

/-- The document after a marker of its start, which may be without content. -/
def readContent (tokens : List Token) : Option (Document × List Token) :=
  match tokens with
  | [] => some (emptyScalar, [])
  | .documentStart :: _ => some (emptyScalar, tokens)
  | .documentEnd :: _ => some (emptyScalar, tokens)
  | _ => readNode (2 * tokens.length + 2) true false tokens

/-- The only document of a list of tokens. -/
def documentOf? (tokens : List Token) : Option Document :=
  let content :=
    match tokens with
    | [] => some (emptyScalar, [])
    | .documentStart :: rest => readContent rest
    | _ => readNode (2 * tokens.length + 2) true false tokens
  match content with
  | none => none
  | some (document, rest) => if (skipEnds rest).isEmpty then some document else none

def readText (s : String) : Option Document := (scan s.toList).bind documentOf?

end WorkflowEngine.Yaml
