/-
Run options from a file.

The file is a mapping that may set any of the options and leaves the others at
their defaults. Keys that name no option are ignored with their values; naming an
option twice is an error. What is wrong is told in the order of the file: the
wrong value of an option comes before a fault in the text behind it.

`read` is what `load` of `RunOptions` in the package `lemu` makes of a file.
-/
import StackMachine.Config.Scalar
import StackMachine.Machine.Run
import StackMachine.Yaml.Document

set_option autoImplicit false

namespace StackMachine.Config

open Yaml (Place Node Item Document)

/-! ## Failures -/

/-- Why a file gives no options. A path names the key whose value is meant. -/
inductive Failure where
  /-- The file cannot be read as keys and values. -/
  | unreadable (fault : Yaml.Fault)
  /-- The file goes on behind the first document. -/
  | severalDocuments
  /-- An option is set twice in the mapping that begins at a place. -/
  | duplicate (key : String) (place : Place)
  /-- A value has another type than it should. -/
  | wrongType (path : Option String) (found expected : String) (place : Place)
  /-- A value is not what its tag says. -/
  | wrongValue (path : Option String) (text expected : String) (place : Place)
  deriving DecidableEq, Repr

namespace Failure

/-- A path in front of a message. -/
def pathInWords : Option String → String
  | some path => path ++ ": "
  | none => ""

/-- The wording of a failure. -/
def message : Failure → String
  | unreadable fault => fault.message
  | severalDocuments =>
    "deserializing from YAML containing more than one document is not supported"
  | duplicate key place => "duplicate field `" ++ key ++ "`" ++ place.inWords
  | wrongType path found expected place =>
    pathInWords path ++ "invalid type: " ++ found ++ ", expected " ++ expected ++ place.inWords
  | wrongValue path text expected place =>
    pathInWords path ++ "invalid value: string " ++ Text.quoted text ++ ", expected " ++ expected
      ++ place.inWords

/-- The failure of a node that is not of the expected type. -/
def unexpected (path : Option String) (node : Node) (expected : String) (place : Place) :
    Failure :=
  match node with
  | .sequence => wrongType path "sequence" expected place
  | .mapping => wrongType path "map" expected place
  | .scalar text style tag =>
    match Scalar.ofNode text style tag with
    | .ok scalar => wrongType path scalar.describe expected place
    | .error expected => wrongValue path text expected place

end Failure

/-! ## Values -/

/-- The text of a node that may be of a type: a plain scalar, or the lines of a
block scalar with the tag of the type. -/
def textFor? (tag : String) : Node → Option String
  | .scalar text .plain _ => some text
  | .scalar text .literal found => if found == some tag then some text else none
  | _ => none

/-- The value of an option that is switched on or off. -/
def switch (path : String) (node : Node) (place : Place) : Except Failure Bool :=
  match (textFor? (Scalar.coreTag "bool") node).bind boolean? with
  | some value => .ok value
  | none => .error (.unexpected (some path) node "a boolean" place)

/-- The value of an option that is a number of 64 bits. -/
def number (path : String) (node : Node) (place : Place) : Except Failure Nat :=
  match (textFor? (Scalar.coreTag "int") node).bind fun text =>
      (unsigned? text.toList).filter (· < numberLimit) with
  | some value => .ok value
  | none => .error (.unexpected (some path) node "u64" place)

/-- The value of an option that is a number or null. A plain scalar that a tag
calls null has to be so; `since` is where the mapping begins. -/
def optionalNumber (path : String) (node : Node) (place since : Place) :
    Except Failure (Option Nat) :=
  match node with
  | .scalar text .plain none =>
    if text == "" || isNull text then .ok none else (number path node place).map some
  | .scalar text .plain (some tag) =>
    if tag == Scalar.coreTag "null" then
      if isNull text then .ok none else .error (.wrongValue none text "null" since)
    else (number path node place).map some
  | _ => (number path node place).map some

/-! ## Settings -/

/-- An option. -/
inductive Field where
  | shorten
  | debug
  | tmax
  deriving DecidableEq, Repr

/-- The key of an option. -/
def Field.key : Field → String
  | shorten => "shorten"
  | debug => "debug"
  | tmax => "tmax"

/-- The option with a key. -/
def Field.ofKey? : String → Option Field
  | "shorten" => some shorten
  | "debug" => some debug
  | "tmax" => some tmax
  | _ => none

/-- The options set so far. -/
structure Settings where
  shorten : Option Bool := none
  debug : Option Bool := none
  tmax : Option (Option Nat) := none

namespace Settings

/-- Whether an option is set. -/
def has (settings : Settings) : Field → Bool
  | .shorten => settings.shorten.isSome
  | .debug => settings.debug.isSome
  | .tmax => settings.tmax.isSome

/-- Sets an option to the value of a node. -/
def assign (settings : Settings) (field : Field) (path : String) (node : Node)
    (place since : Place) : Except Failure Settings :=
  match field with
  | .shorten => (switch path node place).map fun b => { settings with shorten := some b }
  | .debug => (switch path node place).map fun b => { settings with debug := some b }
  | .tmax => (optionalNumber path node place since).map fun n => { settings with tmax := some n }

/-- The options, with defaults for what is not set. -/
def options (settings : Settings) : Options where
  shorten := settings.shorten.getD false
  debug := settings.debug.getD false
  tmax := settings.tmax.getD none

end Settings

/-! ## Mappings -/

/-- What comes next in a mapping of options. -/
inductive Part where
  | key
  /-- The value of an option, whose key is told by a path. -/
  | value (field : Field) (path : String)
  /-- A value that is ignored. -/
  | ignored
  /-- The inside of a value that is ignored, with so many open collections. -/
  | inside (depth : Nat)

/-- What comes behind a key. An option may be set once. -/
def Part.behindKey (settings : Settings) (since : Place) (key path : String) :
    Except Failure Part :=
  match Field.ofKey? key with
  | some field =>
    if settings.has field then .error (.duplicate field.key since) else .ok (.value field path)
  | none => .ok .ignored

/-- Reads the items of a mapping that begins at `since`, up to its end or to the
end of what can be read. A key that is an alias is told as a question mark. -/
def settingsFrom (since : Place) (settings : Settings) :
    Part → List Item → Except Failure Settings
  | _, [] => .ok settings
  | .key, .close :: _ => .ok settings
  | .key, .node (.scalar text _ _) _ :: items =>
    match Part.behindKey settings since text text with
    | .ok part => settingsFrom since settings part items
    | .error failure => .error failure
  | .key, .reference (.scalar text _ _) _ :: items =>
    match Part.behindKey settings since text "?" with
    | .ok part => settingsFrom since settings part items
    | .error failure => .error failure
  | .key, .node node place :: _ => .error (.unexpected none node "field identifier" place)
  | .key, .reference node place :: _ => .error (.unexpected none node "field identifier" place)
  | .value field path, .node node place :: items =>
    match settings.assign field path node place since with
    | .ok settings => settingsFrom since settings .key items
    | .error failure => .error failure
  | .value field path, .reference node place :: items =>
    match settings.assign field path node place since with
    | .ok settings => settingsFrom since settings .key items
    | .error failure => .error failure
  | .value _ _, .close :: _ => .ok settings
  | .ignored, .node (.scalar _ _ _) _ :: items => settingsFrom since settings .key items
  | .ignored, .node _ _ :: items => settingsFrom since settings (.inside 0) items
  | .ignored, _ :: items => settingsFrom since settings .key items
  | .inside depth, .node (.scalar _ _ _) _ :: items =>
    settingsFrom since settings (.inside depth) items
  | .inside depth, .node _ _ :: items => settingsFrom since settings (.inside (depth + 1)) items
  | .inside depth, .reference _ _ :: items => settingsFrom since settings (.inside depth) items
  | .inside 0, .close :: items => settingsFrom since settings .key items
  | .inside (depth + 1), .close :: items => settingsFrom since settings (.inside depth) items

/-! ## Files -/

/-- The settings of a document. An empty one has none. -/
def settingsOf (document : Document) : Except Failure Settings :=
  match document.items with
  | .node .mapping place :: items => settingsFrom place {} .key items
  | .node (.scalar "" .plain _) _ :: _ => .ok {}
  | .node node place :: _ => .error (.unexpected none node "struct RunOptions" place)
  | _ => .ok {}

/-- The options of a document that has been read to its end, and that the file ends
with. -/
def optionsOf (document : Document) : Except Failure Options := do
  let settings ← settingsOf document
  match document.fault with
  | some fault => throw (.unreadable fault)
  | none =>
    if document.isFollowed then throw .severalDocuments
    return settings.options

/-- The options of a file. -/
def read (bytes : ByteArray) : Except Failure Options :=
  optionsOf (.read bytes)

end StackMachine.Config
