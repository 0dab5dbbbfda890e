import DocTree.Kind
import DocTree.Settings.Decode

/-!
# Grammars

A grammar is a file that declares kinds, one after another.
-/

namespace DocTree

/-- A declaration of a kind in a grammar: its name and further names, whether it is primary, the
kinds absorbed from before and after a link, and the kinds of children. -/
structure KindDeclaration where
  name : String
  aliases : List String := []
  primary : Bool := true
  absorbPrevious : Option String := none
  absorbNext : Option String := none
  children : List String := []
  deriving DecidableEq, Repr

/-- The kind that a declaration stands for. -/
def KindDeclaration.kind (declaration : KindDeclaration) : Kind :=
  { names := declaration.name :: declaration.aliases
    primary := declaration.primary
    absorbPrevious := declaration.absorbPrevious
    absorbNext := declaration.absorbNext
    children := declaration.children }

/-- Decode a declaration; all but the name may be left out. -/
def KindDeclaration.decode (setting : Setting) : Except SettingFault KindDeclaration := do
  let fields ← SettingRecord.ofSetting "struct KindDecl" setting
  let texts := Setting.decodeList Setting.decodeText
  let text := Setting.decodeOption Setting.decodeText
  let name ← fields.field? "name" 0 Setting.decodeText
  let aliases ← fields.field? "aliases" 1 texts
  let primary ← fields.field? "primary" 2 Setting.decodeFlag
  let absorbPrevious ← fields.field? "absorb_previous" 3 text
  let absorbNext ← fields.field? "absorb_next" 4 text
  let children ← fields.field? "children" 5 texts
  return { name := ← fields.require "name" 0 "struct KindDecl with 6 elements" name
           aliases := aliases.getD []
           primary := primary.getD true
           absorbPrevious := absorbPrevious.getD none
           absorbNext := absorbNext.getD none
           children := children.getD [] }

/-- The declarations of a grammar, in order. -/
structure Grammar where
  kinds : List KindDeclaration := []
  deriving DecidableEq, Repr

namespace Grammar

/-- Decode a grammar from the entries of a file. -/
def ofEntries (entries : List (String × Setting)) : Except SettingFault Grammar := do
  let root := Setting.emptyTable.putEntries entries
  let fields := SettingRecord.named root.entries
  let kinds ← fields.field? "kinds" 0 (Setting.decodeList KindDeclaration.decode)
  return { kinds := kinds.getD [] }

/-- The grammar of a text. -/
def ofText (text : String) : Except SettingFault Grammar := do
  ofEntries (← SettingFile.entriesOf none text)

/-- The grammar in the file of a path. -/
def load (files : Reading) (path : String) : Except SettingFault Grammar := do
  ofEntries (← SettingFile.load files path true)

end Grammar

end DocTree
