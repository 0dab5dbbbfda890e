import DocTree.Decimal.Text
import DocTree.Files
import DocTree.Settings.Setting
import DocTree.Text.Quoted
import DocTree.Toml.Reader

/-!
# Decoding settings

Settings are decoded into texts, truth values, lists and records. Scalars are converted where that
makes sense; where it does not, the fault tells where the setting stands and from which file it
comes. A record may be given by names or, as a list, by place. A file that holds settings is looked
for under its path and then with the ending `.toml` added.
-/

namespace DocTree

/-- A value that cannot be converted. -/
inductive Unconvertible where
  | text (value : String)
  | list
  | table
  | nothing
  deriving DecidableEq, Repr

/-- What a message calls a value that cannot be converted. -/
def Unconvertible.describe : Unconvertible → String
  | text value => "string " ++ Text.quoted value
  | list => "sequence"
  | table => "map"
  | nothing => "unit value"

/-- Why settings cannot be used. -/
inductive SettingFault where
  /-- A file is not well-formed TOML. -/
  | malformed
  | notText
  /-- A file is a text as a whole, where a table is expected. -/
  | textAsWhole (value : String) (origin : Option String)
  | noFile (path : String)
  /-- A text that should be a path of keys is none. -/
  | badPath (fault : KeyPathFault)
  /-- A value cannot be converted to what is expected at a place. -/
  | unconvertible (found : Unconvertible) (expected place : String) (origin : Option String)
  /-- A value is of another kind than a list or a record. -/
  | mismatch (found : Content) (expected : String)
  /-- A record given by place ends too early. -/
  | tooShort (count : Nat) (expected : String)
  | missing (name : String)

/-- Numbers in texts: always written out in full. -/
def fullForm : Decimal.NumberForm :=
  { inFull := fun _ => true, keepsPoint := false }

/-- What a message calls a value. -/
def Content.describe : Content → String
  | nothing => "unit value"
  | flag value => "boolean `" ++ toString value ++ "`"
  | integer value => "integer `" ++ toString value ++ "`"
  | float value =>
    let form := { fullForm with keepsPoint := true }
    "floating point `" ++ Decimal.print value form ++ "`"
  | text value => "string " ++ Text.quoted value
  | list _ => "sequence"
  | table _ => "map"

namespace SettingFault

/-- What is wrong, in words. -/
def reason : SettingFault → String
  | malformed => "TOML parse error"
  | notText => ReadFault.notText.reason
  | textAsWhole value origin =>
    let place := origin.elim "" (" in " ++ ·)
    "invalid type: string " ++ Text.quoted value ++ ", expected a map" ++ place ++ place
  | noFile path => "configuration file \"" ++ path ++ "\" not found"
  | badPath fault => fault.reason
  | unconvertible found expected place origin =>
    "invalid type: " ++ found.describe ++ ", expected " ++ expected
      ++ " for key `" ++ place ++ "`" ++ origin.elim "" (" in " ++ ·)
  | mismatch found expected => "invalid type: " ++ found.describe ++ ", expected " ++ expected
  | tooShort count expected =>
    "invalid length " ++ toString count ++ ", expected " ++ expected
  | missing name => "missing field `" ++ name ++ "`"

/-- The report of settings that cannot be used. -/
def message (fault : SettingFault) : String :=
  "configuration error: " ++ fault.reason

/-- The fault as seen from a record, in which it is under a name. A point follows the name unless
an index does or nothing. -/
def underName (name : String) : SettingFault → SettingFault
  | unconvertible found expected place origin =>
    let point := if place = "" ∨ place.startsWith "[" then "" else "."
    unconvertible found expected (name ++ point ++ place) origin
  | other => other

/-- The fault as seen from a list, in which it is at a place. -/
def underIndex (index : Nat) : SettingFault → SettingFault
  | unconvertible found expected place origin =>
    unconvertible found expected ("[" ++ toString index ++ "]" ++ place) origin
  | other => other

end SettingFault

namespace Setting

/-- The fault of a value that cannot be converted. -/
def refuse {α : Type} (setting : Setting) (found : Unconvertible) (expected : String) :
    Except SettingFault α :=
  .error (.unconvertible found expected "" setting.origin)

/-- A text; truth values and numbers are written out. -/
def decodeText (setting : Setting) : Except SettingFault String :=
  match setting.content with
  | .text value => .ok value
  | .flag value => .ok (toString value)
  | .integer value => .ok (toString value)
  | .float value => .ok (Decimal.print value fullForm)
  | .nothing => setting.refuse .nothing "a string"
  | .list _ => setting.refuse .list "a string"
  | .table _ => setting.refuse .table "a string"

/-- The words for yes and for no, in lower case. -/
def truthWords : List (String × Bool) :=
  [("1", true), ("true", true), ("on", true), ("yes", true),
   ("0", false), ("false", false), ("off", false), ("no", false)]

/-- A truth value; a number other than zero means yes, and so do some words. -/
def decodeFlag (setting : Setting) : Except SettingFault Bool :=
  match setting.content with
  | .flag value => .ok value
  | .integer value => .ok (value != 0)
  | .float value => .ok (value != 0.0)
  | .text value =>
    match truthWords.lookup (Text.lower value) with
    | some flag => .ok flag
    | none => setting.refuse (.text (Text.lower value)) "a boolean"
  | .nothing => setting.refuse .nothing "a boolean"
  | .list _ => setting.refuse .list "a boolean"
  | .table _ => setting.refuse .table "a boolean"

/-- A value that may be left unset. -/
def decodeOption {α : Type} (decode : Setting → Except SettingFault α) (setting : Setting) :
    Except SettingFault (Option α) :=
  match setting.content with
  | .nothing => .ok none
  | _ => (decode setting).map some

/-- Decode items in order, the first of which is at a place. -/
def decodeItems {α : Type} (decode : Setting → Except SettingFault α) :
    Nat → List Setting → Except SettingFault (List α)
  | _, [] => .ok []
  | place, item :: rest => do
    let first ← (decode item).mapError (.underIndex place)
    return first :: (← decodeItems decode (place + 1) rest)

/-- A list. -/
def decodeList {α : Type} (decode : Setting → Except SettingFault α) (setting : Setting) :
    Except SettingFault (List α) :=
  match setting.content with
  | .list items => decodeItems decode 0 items
  | other => .error (.mismatch other "a sequence")

end Setting

/-- A record whose fields are given by name or by place. -/
inductive SettingRecord where
  | named (entries : List (String × Setting))
  | placed (items : List Setting)

namespace SettingRecord

/-- The record that a setting holds. -/
def ofSetting (expected : String) (setting : Setting) : Except SettingFault SettingRecord :=
  match setting.content with
  | .table entries => .ok (.named entries)
  | .list items => .ok (.placed items)
  | other => .error (.mismatch other expected)

/-- Decode the field of a name and a place, if it is there. -/
def field? {α : Type} (fields : SettingRecord) (name : String) (place : Nat)
    (decode : Setting → Except SettingFault α) : Except SettingFault (Option α) :=
  match fields with
  | named entries =>
    match Keyed.get? entries name with
    | none => .ok none
    | some setting => ((decode setting).mapError (.underName name)).map some
  | placed items =>
    match items[place]? with
    | none => .ok none
    | some setting => ((decode setting).mapError (.underIndex place)).map some

/-- Insist on a field; `size` tells how large the record is as a list. -/
def require {α : Type} (fields : SettingRecord) (name : String) (place : Nat) (size : String)
    (value : Option α) : Except SettingFault α :=
  match value, fields with
  | some value, _ => .ok value
  | none, named _ => .error (.missing name)
  | none, placed _ => .error (.tooShort place size)

end SettingRecord

/-! ## Files of settings -/

/-- What reading the file of a path gives. -/
abbrev Reading := String → Except ReadFault ByteArray

namespace SettingFile

/-- The steps of a path without those that stay in place. -/
def steps (path : String) : List String :=
  (path.splitOn "/").filter fun step => step != "" && step != "."

/-- A path as it is named in messages. -/
def shownPath (path : String) : String :=
  (if path.startsWith "/" then "/" else "") ++ String.intercalate "/" (steps path)

/-- The path with the ending `.toml` added to its last step, if that is a name. -/
def withEnding? (path : String) : Option String :=
  match (steps path).getLast? with
  | none => none
  | some last => if last = ".." then none else some (shownPath path ++ ".toml")

/-- The file of settings under a path, or under the path with the ending added: where it is and what
it holds. -/
def find? (files : Reading) (path : String) : Option (String × ByteArray) :=
  match files path with
  | .ok bytes => some (shownPath path, bytes)
  | .error _ =>
    match withEnding? path with
    | none => none
    | some longer =>
      match files longer with
      | .ok bytes => some (longer, bytes)
      | .error _ => none

/-- The paths that may be read for a file of settings. -/
def candidates (path : String) : List String :=
  path :: (withEnding? path).toList

/-- The entries of a text of settings from a file. -/
def entriesOf (origin : Option String) (text : String) :
    Except SettingFault (List (String × Setting)) :=
  match Toml.read text with
  | some (.table entries) => .ok (Keyed.ofList (Toml.Value.entriesToSettings origin entries))
  | some (.moment moment) => .error (.textAsWhole moment.text origin)
  | _ => .error .malformed

/-- The entries of a file of settings. A file that need not be there has no entries when it is not
there or is not text. -/
def load (files : Reading) (path : String) (required : Bool) :
    Except SettingFault (List (String × Setting)) :=
  match find? files path with
  | none => if required then .error (.noFile path) else .ok []
  | some (shown, bytes) =>
    match decodeText bytes with
    | .error _ => if required then .error .notText else .ok []
    | .ok text => entriesOf (some shown) text

end SettingFile

end DocTree
