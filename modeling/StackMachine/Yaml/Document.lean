/-
The first document of a file, as far as it can be read.

A fault in a document does not take away what stands before it: the document
keeps its items up to there. Aliases are resolved. Each anchor gets the number of
different anchors that were known before it, and an alias stands for the last
node that got the number of its anchor.
-/
import StackMachine.Yaml.Event

set_option autoImplicit false

namespace StackMachine.Yaml

/-- An item of a document. -/
inductive Item where
  /-- A node begins at a place. -/
  | node (node : Node) (place : Place)
  /-- An alias stands for a node that begins at a place. -/
  | reference (target : Node) (place : Place)
  /-- The innermost open collection ends. -/
  | close
  deriving DecidableEq, Repr

/-- A document. -/
structure Document where
  items : List Item := []
  /-- Why the document goes on no further. -/
  fault : Option Fault := none
  /-- Whether the file goes on behind the document. -/
  isFollowed : Bool := false

/-! ## Anchors -/

/-- The anchors of a document so far. -/
structure Anchors where
  /-- The numbers of the anchors, each name once. -/
  numbers : List (String × Nat) := []
  /-- The nodes that got a number, the last one first. -/
  nodes : List (Nat × Node × Place) := []

namespace Anchors

/-- Adds an anchor of a node. -/
def add (anchors : Anchors) (name : String) (node : Node) (place : Place) : Anchors :=
  let number := anchors.numbers.length
  { numbers := (name, number) :: anchors.numbers.filter (·.1 != name)
    nodes := (number, node, place) :: anchors.nodes }

/-- The number of an anchor. -/
def number? (anchors : Anchors) (name : String) : Option Nat :=
  anchors.numbers.lookup name

/-- The node that got a number last. -/
def node? (anchors : Anchors) (number : Nat) : Option (Node × Place) :=
  anchors.nodes.lookup number

end Anchors

/-! ## Items -/

/-- An item whose alias is not resolved yet. -/
inductive RawItem where
  | item (item : Item)
  | reference (number : Nat)

/-- A document that is being read; the last item stands first. -/
structure Draft where
  items : List RawItem := []
  anchors : Anchors := {}

namespace Draft

/-- Adds an item. -/
def push (draft : Draft) (item : Item) : Draft :=
  { draft with items := .item item :: draft.items }

/-- Adds a node, perhaps with an anchor. -/
def addNode (draft : Draft) (node : Node) (anchor : Option String) (place : Place) : Draft :=
  let draft := draft.push (.node node place)
  match anchor with
  | some name => { draft with anchors := draft.anchors.add name node place }
  | none => draft

/-- Resolves an item. -/
def resolve? (anchors : Anchors) : RawItem → Option Item
  | .item item => some item
  | .reference number => (anchors.node? number).map fun (node, place) => .reference node place

/-- The document of a draft. -/
def finish (draft : Draft) (fault : Option Fault) (isFollowed : Bool) : Document where
  items := draft.items.reverse.filterMap (resolve? draft.anchors)
  fault := fault
  isFollowed := isFollowed

end Draft

/-- Whether the file of a reader that has read a document goes on. -/
def goesOn (reader : Reader) : Bool :=
  match Read.event.run reader with
  | .ok (.fileEnd, _) => false
  | _ => true

/-- Reads the events of a document. -/
def documentFrom (draft : Draft) : Nat → Reader → Document
  | 0, _ => draft.finish none false
  | fuel + 1, reader =>
    match Read.event.run reader with
    | .error fault => draft.finish (some fault) false
    | .ok (.node node anchor place, reader) =>
      documentFrom (draft.addNode node anchor place) fuel reader
    | .ok (.reference name place, reader) =>
      match draft.anchors.number? name with
      | some number =>
        documentFrom { draft with items := .reference number :: draft.items } fuel reader
      | none => draft.finish (some (.unknownAnchor place)) false
    | .ok (.close, reader) => documentFrom (draft.push .close) fuel reader
    | .ok (.documentStart, reader) => documentFrom draft fuel reader
    | .ok (.documentEnd, reader) => draft.finish none (goesOn reader)
    | .ok (.fileEnd, _) => draft.finish none false

/-- The first document of a file; without one it has no items. A character gives
rise to at most four tokens, and a token to at most four events. -/
def Document.read (bytes : ByteArray) : Document :=
  match characters bytes with
  | .error fault => { fault := some fault }
  | .ok text =>
    documentFrom {} (16 * text.length + 64) { scanner := .ofCharacters text }

end StackMachine.Yaml
