import DocTree.Files
import DocTree.Json.Fault
import DocTree.Kind
import DocTree.Settings.Decode

/-!
# Errors

Every way in which the library reports that something the user gave cannot be used.
-/

namespace DocTree

/-- Why something the user gave cannot be used; a grammar is read as settings are. -/
inductive Error where
  | unreadable (path : String) (fault : ReadFault)
  | settings (fault : SettingFault)
  | kind (fault : KindFault)
  | unknownFormat (name : String)
  | json (fault : Json.Fault)

/-- The report of an error. -/
def Error.message : Error → String
  | unreadable path fault => "could not read '" ++ path ++ "': " ++ fault.reason
  | settings fault => fault.message
  | kind fault => fault.message
  | unknownFormat name => "format '" ++ name ++ "' not found"
  | json fault => fault.message

end DocTree
